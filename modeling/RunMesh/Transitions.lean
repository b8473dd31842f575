import RunMesh.Readiness

/-!
# The declared state machine

`internal/workflow/state.go` declares which statuses may follow which (`canTransition`),
and no operation consults it : statuses are written by a dozen `UPDATE` statements. Each
move of a task is nevertheless along a declared pair, apart from the two operations that
take tasks out of a final status, and these touch only dead and cancelled tasks.
-/

namespace RunMesh

variable {env : Env} {op : Op} {db : Db}

/-- The operations that take a task out of a final status. -/
def Op.reopens : Op → Bool
  | .retryRun .. | .replayDead .. => true
  | _ => false

/-- The row `t`, before the operation, and `t'`, after it, are as the state machine
declares. -/
structure Conforms (op : Op) (t t' : TaskRun) : Prop where
  declared : op.reopens = false → t'.status ≠ t.status → canTransition t.status t'.status = true
  reopened : op.reopens = true → t' ≠ t → t.status = .dead ∨ t.status = .cancelled
  final : t.status = .succeeded → t'.status = .succeeded

/-- A waiting task may be cancelled. -/
theorem canTransition_cancelled {st : TaskStatus} (h : st.waiting = true) :
    canTransition st .cancelled = true := by
  cases st <;> simp_all [TaskStatus.waiting, canTransition]

/-- A lease may end in each of the ways a failure ends it. -/
theorem canTransition_failureStatus {st : TaskStatus} (h : st.active = true) (rs : RunStatus)
    (retryable : Bool) (attempt max : ℕ) :
    canTransition st (failureStatus rs retryable attempt max) = true := by
  rcases failureStatus_cases rs retryable attempt max with hf | hf | hf <;>
    rw [hf.1] <;> cases st <;> first | rfl | cases h

namespace TaskMove

variable {t t' : TaskRun}

/-- Outside a retry and a replay, a status moves along a declared pair. -/
theorem canTransition (h : TaskMove env db op t t') (hop : op.reopens = false)
    (hne : t'.status ≠ t.status) : canTransition t.status t'.status = true := by
  cases h with
  | keep => exact absurd rfl hne
  | promote hst => rw [hst]; rfl
  | expire h => exact canTransition_failureStatus (mem_expiredLeases h).2.2.2.1 _ _ _ _
  | dispatch h => rw [(mem_readyTasks h).2.2.2.1]; rfl
  | lease hst => rw [hst]; rfl
  | start _ hst => rw [hst]; rfl
  | renew => exact absurd rfl hne
  | succeed _ _ hst => rw [hst]; rfl
  | wake _ _ _ hwake => rw [hwake.2.1]; rfl
  | fail _ hst => exact canTransition_failureStatus hst _ _ _ _
  | failSibling _ _ _ _ hwait => exact canTransition_cancelled hwait
  | cancel _ _ _ _ hwait => exact canTransition_cancelled hwait
  | retry | replay | rebuild => simp [Op.reopens] at hop

/-- A retry and a replay change dead and cancelled tasks only. -/
theorem reopened (h : TaskMove env db op t t') (hop : op.reopens = true) (hne : t' ≠ t) :
    t.status = .dead ∨ t.status = .cancelled := by
  cases h with
  | keep => exact absurd rfl hne
  | retry _ _ _ hst => exact Or.inl hst
  | replay _ _ _ hst => exact Or.inl hst
  | rebuild _ _ _ _ _ _ hst => exact Or.inr hst
  | _ => simp [Op.reopens] at hop

theorem conforms (h : TaskMove env db op t t') : Conforms op t t' where
  declared := h.canTransition
  reopened := h.reopened
  final hst := by rw [h.eq_of_succeeded hst, hst]

end TaskMove

/-- The row a call leaves for a task. -/
theorem Reachable.exists_taskMove {s : State} (h : Reachable s) (c : Call) {t : TaskRun}
    (ht : t ∈ s.db.taskRuns) :
    ∃ t' ∈ (controlPlane.next s c).db.taskRuns, TaskMove c.env s.db c.op t t' := by
  rw [controlPlane_next_db]
  cases hexec : c.exec s.db with
  | error e => exact ⟨t, by rwa [Call.after_of_error hexec], .keep _ t⟩
  | ok r =>
    obtain ⟨reply, db'⟩ := r
    rw [Call.after_of_ok hexec]
    rcases exec_moves h.wellFormed.toKeyed hexec with hm | ⟨run, dag, hc⟩
    · exact hm.mem_task ht
    · exact ⟨t, hc.task_mem ht, .keep _ t⟩

/-- The SQL refines the declared state machine : from every reachable state, whatever the
operation, each task keeps its row, and the row before and the row after are as declared. -/
theorem sql_refines_state_machine {s : State} (h : Reachable s) {c : Call}
    (hc : controlPlane.allowed s c) {t : TaskRun} (ht : t ∈ s.db.taskRuns) :
    (∃ t' ∈ (controlPlane.next s c).db.taskRuns, t'.id = t.id) ∧
      ∀ t' ∈ (controlPlane.next s c).db.taskRuns, t'.id = t.id → Conforms c.op t t' := by
  obtain ⟨t', ht', hmove⟩ := h.exists_taskMove c ht
  refine ⟨⟨t', ht', hmove.id⟩, fun u hu hid => ?_⟩
  rw [Table.eq_of_key (h.next hc).wellFormed.tasks hu ht' (hid.trans hmove.id.symm)]
  exact hmove.conforms

/-- The first dispatch of the chain. -/
def chainDispatch : Call :=
  ⟨Env.at 2 chainStarted.db.nextId, .dispatchReady (.ofList [4, 5])⟩

theorem sql_refines_state_machine_chain :
    ∃ t ∈ chainStarted.db.taskRuns,
      ∃ t' ∈ (controlPlane.next chainStarted chainDispatch).db.taskRuns,
        t.status = .ready ∧ t'.status = .dispatching ∧ Conforms chainDispatch.op t t' := by
  have hr : Reachable chainStarted := reachable_after init_twoDefinitions (by decide)
  have hc : controlPlane.allowed chainStarted chainDispatch :=
    ⟨by decide, Db.fresh_at chainStarted.db.lt_nextId 2⟩
  obtain ⟨t, ht, t', ht', hid, hst, hst'⟩ : ∃ t ∈ chainStarted.db.taskRuns,
      ∃ t' ∈ (controlPlane.next chainStarted chainDispatch).db.taskRuns,
        t'.id = t.id ∧ t.status = .ready ∧ t'.status = .dispatching := by decide
  exact ⟨t, ht, t', ht', hst, hst', (sql_refines_state_machine hr hc ht).2 t' ht' hid⟩

end RunMesh
