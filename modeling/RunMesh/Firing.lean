import RunMesh.Readiness
import RunMesh.Schedules

/-!
# Schedules and the rest of a tick

A tick fires the schedules first and returns on an error. `pgx` refuses a statement while a
result set is open, and the firing executes its update for each row while it reads the rows.
So the first due schedule it selects ends the tick with `connBusy`, before any phase has run
(`fireTx_connBusy`), and a tick runs its phases exactly when it selects none
(`tick_completes_iff`). The checks of `createSchedule` do not help : they are those the firing
makes again.
-/

namespace RunMesh

open Fallible

variable {cal : Calendar} {env : Env} {item : Schedule} {schedules : List Schedule}

/-- The schedule was made by `createSchedule`, and may have been advanced, enabled or disabled
since. -/
def Schedule.Created (cal : Calendar) (s : Schedule) : Prop :=
  ∃ env tenantId req db rows, ∃ row rows', createSchedule cal env tenantId req db rows =
    .ok (row, rows') ∧ ∃ next enabled, s = { row with nextExecutionAt := next, enabled := enabled }

/-- The time zone and the expression of a schedule that was created are accepted again. -/
theorem Schedule.Created.advance_ok (h : item.Created cal) (now : ℤ) :
    ∃ next, cal.advance now item = .ok next := by
  obtain ⟨env, tenantId, req, db, rows, row, rows', hok, next, enabled, rfl⟩ := h
  simp only [createSchedule, bind_eq_ok, orError_eq_ok, mapError_eq_ok] at hok
  obtain ⟨policy, -, location, hloc, cron, hcron, d, -, hrow⟩ := hok
  cases hrow
  simp only [Calendar.advance, bind_eq_ok, orError_eq_ok, mapError_eq_ok]
  exact ⟨_, location, hloc, cron, hcron, rfl⟩

theorem mem_of_mem_dueSchedules {scan : Scan}
    (h : item ∈ dueSchedules env scan schedules) : item ∈ schedules := by
  have hfilter := (List.mem_insertionSort _).1 (List.mem_of_mem_take h)
  obtain ⟨id, -, hid⟩ := List.mem_filterMap.1 (List.mem_filter.1 hfilter).1
  exact List.mem_of_find?_eq_some hid

theorem due_of_mem_dueSchedules {scan : Scan} (h : item ∈ dueSchedules env scan schedules) :
    item.nextExecutionAt ≤ env.now := by
  have hfilter := (List.mem_insertionSort _).1 (List.mem_of_mem_take h)
  exact (of_decide_eq_true (List.mem_filter.1 hfilter).2).2

/-- While the rows are read, an update of one of them is refused. -/
theorem fireRow_strict (schedules : List Schedule)
    (hadv : ∃ next, cal.advance env.now item = .ok next) :
    fireRow true cal env ⟨schedules, true⟩ item = .error .connBusy := by
  obtain ⟨next, hnext⟩ := hadv
  rw [fireRow, hnext]
  rfl

/-- Without a due schedule the firing changes nothing. -/
theorem fireTx_nil {strict : Bool} {scan : Scan} (h : dueSchedules env scan schedules = []) :
    fireTx strict cal env scan schedules = .ok (schedules, []) := by
  rw [fireTx, h]
  rfl

/-- A due schedule ends the firing. -/
theorem fireTx_connBusy {scan : Scan} (h : dueSchedules env scan schedules ≠ [])
    (hcreated : ∀ s ∈ schedules, s.Created cal) :
    fireTx true cal env scan schedules = .error .connBusy := by
  obtain ⟨item, rest, hdue⟩ := List.exists_cons_of_ne_nil h
  have hmem : item ∈ schedules := mem_of_mem_dueSchedules (hdue ▸ List.mem_cons_self ..)
  rw [fireTx, hdue, List.foldlM_cons,
    fireRow_strict schedules ((hcreated item hmem).advance_ok env.now)]
  rfl

/-- A tick completes exactly when it selects no due schedule, and then it runs its phases. With
one it returns `connBusy` and has done nothing. -/
theorem tick_completes_iff (cal : Calendar) (input : TickInput) {schedules : List Schedule}
    (hcreated : ∀ s ∈ schedules, s.Created cal) (db : Db) :
    ((tick true cal input schedules db).error = none ↔
        dueSchedules input.fire input.fireScan schedules = []) ∧
      (dueSchedules input.fire input.fireScan schedules = [] →
        tick true cal input schedules db = ⟨none, schedules, phases input db⟩) ∧
      (dueSchedules input.fire input.fireScan schedules ≠ [] →
        tick true cal input schedules db = ⟨some .connBusy, schedules, db⟩) := by
  have hnone : dueSchedules input.fire input.fireScan schedules = [] →
      tick true cal input schedules db = ⟨none, schedules, phases input db⟩ := by
    intro h
    rw [tick, fireSchedules, fireTx_nil h]
    rfl
  have hsome : dueSchedules input.fire input.fireScan schedules ≠ [] →
      tick true cal input schedules db = ⟨some .connBusy, schedules, db⟩ := by
    intro h
    rw [tick, fireSchedules, fireTx_connBusy h hcreated]
  refine ⟨⟨fun herr => ?_, fun h => by rw [hnone h]⟩, hnone, hsome⟩
  by_contra h
  rw [hsome h] at herr
  cases herr

/-- A calendar in which every schedule runs once a day. -/
def dailyCalendar : Calendar where
  Location := Unit
  Cron := Unit
  loadLocation _ := some ()
  parse _ := .ok ()
  next _ _ t := t + 24 * 60 * minute
  format t := toString t

/-- A request for a schedule of the chain, first due at 5. -/
def dailyRequest : ScheduleRequest :=
  ⟨1, "0 0 * * *", "", "", some 5⟩

/-- The row it creates. -/
def dailySchedule : Schedule :=
  ⟨100, 1, 1, "0 0 * * *", "UTC", 5, .skip, true, 1⟩

theorem created_dailySchedule : dailySchedule.Created dailyCalendar :=
  ⟨Env.at 1 100, 1, dailyRequest, chainStarted.db, [], dailySchedule, [dailySchedule], by decide,
    5, true, rfl⟩

/-- A tick at the time, that sees the schedule and the first task of the chain. -/
def tickAt (now : ℤ) : TickInput where
  fire := Env.at now 200
  fireScan := .ofList [100]
  creates n := Env.at now (300 + 100 * n)
  promote := Env.at now 200
  recover := Env.at now 200
  recoverScan := .ofList []
  dispatch := Env.at now 200
  dispatchScan := .ofList [4]

/-- Before the schedule is due, the tick dispatches the task. -/
theorem tick_completes_iff_early :
    (tick true dailyCalendar (tickAt 4) [dailySchedule] chainStarted.db).error = none ∧
      (tick true dailyCalendar (tickAt 4) [dailySchedule] chainStarted.db).db.taskRuns.map
        TaskRun.status = [.dispatching, .blocked] := by
  have hcreated : ∀ s ∈ [dailySchedule], s.Created dailyCalendar := by
    simpa using created_dailySchedule
  obtain ⟨-, hnone, -⟩ := tick_completes_iff dailyCalendar (tickAt 4) hcreated chainStarted.db
  rw [hnone (by decide)]
  exact ⟨rfl, by decide⟩

/-- Once it is due, no tick dispatches anything. -/
theorem due_schedule_stalls_scheduler :
    (∀ s ∈ [dailySchedule], s.Created dailyCalendar) ∧
      (tick true dailyCalendar (tickAt 10) [dailySchedule] chainStarted.db).error =
        some .connBusy ∧
      (tick true dailyCalendar (tickAt 10) [dailySchedule] chainStarted.db).db.taskRuns.map
        TaskRun.status = [.ready, .blocked] ∧
      (tick true dailyCalendar (tickAt 10) [] chainStarted.db).db.taskRuns.map
        TaskRun.status = [.dispatching, .blocked] :=
  ⟨by simpa using created_dailySchedule, by decide, by decide, by decide⟩

end RunMesh
