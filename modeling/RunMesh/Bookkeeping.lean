import RunMesh.Ledger
import RunMesh.Readiness

/-!
# Leases and attempts

The columns of the lease and the rows of the attempts agree with the status of a task
(`Ledger.Bookkept`). Eleven operations write them, each some of them. The agreement is
checked once for each of the six moves of a ledger, and so is that a closed attempt stays
as it is.
-/

namespace RunMesh

/-- The attempt has ended. -/
def TaskAttempt.Closed (a : TaskAttempt) : Prop :=
  a.endedAt ≠ none ∧ a.exitStatus ≠ none

/-- The attempt has not ended. -/
def TaskAttempt.Open (a : TaskAttempt) : Prop :=
  a.endedAt = none ∧ a.exitStatus = none

theorem TaskAttempt.Closed.not_open {a : TaskAttempt} (h : a.Closed) : ¬a.Open :=
  fun ho => h.1 ho.1

/-- The lease columns and the attempts of a task agree with its status. -/
structure Ledger.Bookkept (l : Ledger) : Prop where
  /-- The attempts are numbered from one to the count. -/
  numbered : l.attempts.map TaskAttempt.attemptNumber = List.range' 1 l.task.attemptCount
  /-- All but the last have ended. -/
  earlier : ∀ a ∈ l.attempts, a.attemptNumber ≠ l.task.attemptCount → a.Closed
  /-- The last has ended unless a worker holds the task. -/
  last : ∀ a ∈ l.attempts, a.attemptNumber = l.task.attemptCount →
    (l.task.status.active = true ↔ a.Open) ∧ (l.task.status.active = false ↔ a.Closed)
  /-- A task that is held has a last attempt. -/
  counted : l.task.status.active = true → 0 < l.task.attemptCount
  /-- A lease has an expiry exactly while a worker holds the task. -/
  expiry : l.task.status.active = true ↔ l.task.leaseExpiresAt ≠ none
  /-- It has an owner while a worker holds the task and once it has succeeded. -/
  owned : l.task.leaseOwner ≠ none ↔
    l.task.status.active = true ∨ l.task.status = .succeeded
  /-- The owner is the worker of the last attempt. -/
  owner : l.task.status.active = true → ∀ a ∈ l.attempts,
    a.attemptNumber = l.task.attemptCount → l.task.leaseOwner = some a.workerId

namespace Ledger.Bookkept

variable {t t' : TaskRun} {as : List TaskAttempt} {es es' : List OutboxEvent}

/-- Attempts are not numbered past the count. -/
theorem attemptNumber_le (h : Ledger.Bookkept ⟨t, as, es⟩) {a : TaskAttempt} (ha : a ∈ as) :
    a.attemptNumber ≤ t.attemptCount := by
  have hn := List.mem_map_of_mem (f := TaskAttempt.attemptNumber) ha
  rw [h.numbered, List.mem_range'_1] at hn
  exact Nat.lt_one_add_iff.1 hn.2

/-- Without a worker all attempts have ended. -/
theorem closed (h : Ledger.Bookkept ⟨t, as, es⟩) (hst : t.status.active = false) {a : TaskAttempt}
    (ha : a ∈ as) : a.Closed := by
  by_cases hn : a.attemptNumber = t.attemptCount
  · exact (h.last a ha hn).2.1 hst
  · exact h.earlier a ha hn

/-- While a worker holds the task its last attempt has not ended. -/
theorem ne_of_closed (h : Ledger.Bookkept ⟨t, as, es⟩) (hst : t.status.active = true)
    {a : TaskAttempt} (ha : a ∈ as) (hc : a.Closed) : a.attemptNumber ≠ t.attemptCount :=
  fun hn => hc.not_open ((h.last a ha hn).1.1 hst)

end Ledger.Bookkept

theorem TaskStatus.active_of_idle {st : TaskStatus} (h : st.idle = true) :
    st.active = false ∧ st ≠ .succeeded := by
  cases st <;> simp [TaskStatus.idle, TaskStatus.active] at h ⊢

/-- The numbers from one to `n + 1`. -/
theorem range'_one_succ (n : ℕ) : List.range' 1 (n + 1) = List.range' 1 n ++ [n + 1] := by
  rw [List.range'_concat, Nat.one_mul, Nat.add_comm 1]

/-- A write to one attempt keeps the numbers. -/
theorem WritesAttempt.map_attemptNumber {n : ℕ} {f : TaskAttempt → TaskAttempt}
    (hf : WritesAttempt n f) (as : List TaskAttempt) :
    (as.map f).map TaskAttempt.attemptNumber = as.map TaskAttempt.attemptNumber := by
  rw [List.map_map]
  exact List.map_congr_left fun a _ => (hf.key a).2.1

namespace Ledger.Bookkept

variable {t t' : TaskRun} {as : List TaskAttempt} {es es' : List OutboxEvent}

/-- What a task no worker holds has in its lease columns. -/
theorem lease_eq_none (h : Ledger.Bookkept ⟨t, as, es⟩) (hst : t.status.idle = true) :
    t.leaseOwner = none ∧ t.leaseExpiresAt = none := by
  obtain ⟨hact, hsucc⟩ := TaskStatus.active_of_idle hst
  constructor
  · by_contra hne
    simpa [hact, hsucc] using h.owned.1 hne
  · by_contra hne
    simpa [hact] using h.expiry.2 hne

/-- The bookkeeping of a task no worker holds. -/
theorem of_closed (hst : t.status.active = false)
    (hnum : as.map TaskAttempt.attemptNumber = List.range' 1 t.attemptCount)
    (hclosed : ∀ a ∈ as, a.Closed) (howner : t.leaseOwner ≠ none ↔ t.status = .succeeded)
    (hexp : t.leaseExpiresAt = none) : Ledger.Bookkept ⟨t, as, es⟩ := by
  refine ⟨hnum, fun a ha _ => hclosed a ha, fun a ha _ => ?_, ?_, ?_, ?_, ?_⟩
  · simp [hst, hclosed a ha, (hclosed a ha).not_open]
  · simp [hst]
  · simp [hst, hexp]
  · simpa [hst] using howner
  · simp [hst]

/-- A task no worker holds, before and after. -/
theorem idle (h : Ledger.Bookkept ⟨t, as, es⟩) (hst : t.status.idle = true)
    (hst' : t'.status.idle = true) (hcount : t'.attemptCount = t.attemptCount)
    (hlease : t'.leaseOwner = t.leaseOwner ∧ t'.leaseExpiresAt = t.leaseExpiresAt ∨
      t'.leaseOwner = none ∧ t'.leaseExpiresAt = none) : Ledger.Bookkept ⟨t', as, es'⟩ := by
  obtain ⟨howner, hexp⟩ := h.lease_eq_none hst
  obtain ⟨hact', hsucc'⟩ := TaskStatus.active_of_idle hst'
  have hnone : t'.leaseOwner = none ∧ t'.leaseExpiresAt = none := by
    rcases hlease with hl | hl
    · exact ⟨hl.1.trans howner, hl.2.trans hexp⟩
    · exact hl
  refine of_closed hact' ?_ (fun a ha => h.closed (TaskStatus.active_of_idle hst).1 ha) ?_ hnone.2
  · rw [hcount]
    exact h.numbered
  · simp [hnone.1, hsucc']

theorem lease (h : Ledger.Bookkept ⟨t, as, es⟩) (hst : t.status = .dispatching) (env : Env)
    (w : String) (d : ℤ) : Ledger.Bookkept
      ⟨lease env w d t, as ++ [newAttempt env w (lease env w d t)], es'⟩ := by
  have hnew : ∀ a ∈ as ++ [newAttempt env w (RunMesh.lease env w d t)],
      a.attemptNumber = t.attemptCount + 1 → a = newAttempt env w (RunMesh.lease env w d t) := by
    intro a ha hn
    rcases List.mem_append.1 ha with ha | ha
    · have := h.attemptNumber_le ha
      omega
    · exact List.mem_singleton.1 ha
  refine ⟨?_, fun a ha hn => ?_, fun a ha hn => ?_, fun _ => Nat.succ_pos _, ?_, ?_,
    fun _ a ha hn => ?_⟩
  · rw [List.map_append, h.numbered]
    exact (range'_one_succ _).symm
  · rcases List.mem_append.1 ha with ha | ha
    · exact h.closed (by rw [hst]; rfl) ha
    · rw [List.mem_singleton.1 ha] at hn
      exact absurd rfl hn
  · rw [hnew a ha hn]
    simp [RunMesh.lease, newAttempt, TaskStatus.active, TaskAttempt.Open, TaskAttempt.Closed]
  · simp [RunMesh.lease, TaskStatus.active]
  · simp [RunMesh.lease, TaskStatus.active]
  · rw [hnew a ha hn]
    rfl

/-- The worker that holds the task writes to its row and its attempt. -/
theorem hold {f : TaskAttempt → TaskAttempt} (h : Ledger.Bookkept ⟨t, as, es⟩)
    (hst : t.status.active = true) (hst' : t'.status.active = true)
    (hcount : t'.attemptCount = t.attemptCount) (howner : t'.leaseOwner = t.leaseOwner)
    (hexp : t'.leaseExpiresAt = none → t.leaseExpiresAt = none)
    (hf : WritesAttempt t.attemptCount f)
    (hopen : ∀ a, (f a).endedAt = a.endedAt ∧ (f a).exitStatus = a.exitStatus) :
    Ledger.Bookkept ⟨t', as.map f, es'⟩ := by
  have hkey : ∀ a, (f a).attemptNumber = t'.attemptCount ↔ a.attemptNumber = t.attemptCount := by
    intro a
    rw [(hf.key a).2.1, hcount]
  refine ⟨?_, ?_, ?_, fun _ => ?_, ?_, ?_, fun _ => ?_⟩
  · rw [hf.map_attemptNumber, hcount]
    exact h.numbered
  · simp only [List.forall_mem_map]
    intro a ha hn
    rw [hf.other a (mt (hkey a).2 hn)]
    exact h.earlier a ha (mt (hkey a).2 hn)
  · simp only [List.forall_mem_map]
    intro a ha hn
    have ho : a.Open := (h.last a ha ((hkey a).1 hn)).1.1 hst
    have ho' : (f a).Open := ⟨(hopen a).1.trans ho.1, (hopen a).2.trans ho.2⟩
    have hc' : ¬(f a).Closed := fun hc => hc.not_open ho'
    simp [hst', ho', hc']
  · rw [hcount]
    exact h.counted hst
  · have hexp' : t'.leaseExpiresAt ≠ none := fun hnone => h.expiry.1 hst (hexp hnone)
    simp [hst', hexp']
  · simp [hst', howner, h.owned.2 (Or.inl hst)]
  · simp only [List.forall_mem_map]
    intro a ha hn
    rw [howner, (hf.key a).2.2]
    exact h.owner hst a ha ((hkey a).1 hn)

/-- The lease ends, and so does the last attempt. -/
theorem finish {f : TaskAttempt → TaskAttempt} (h : Ledger.Bookkept ⟨t, as, es⟩)
    (hst : t.status.active = true)
    (hst' : t'.status = .succeeded ∧ t'.leaseOwner = t.leaseOwner ∨
      (t'.status = .retryWait ∨ t'.status = .dead ∨ t'.status = .cancelled) ∧
        t'.leaseOwner = none)
    (hexp : t'.leaseExpiresAt = none) (hcount : t'.attemptCount = t.attemptCount)
    (hf : WritesAttempt t.attemptCount f)
    (hend : ∀ a ∈ as, a.attemptNumber = t.attemptCount →
      (f a).endedAt ≠ none ∧ (f a).exitStatus = some t'.status) :
    Ledger.Bookkept ⟨t', as.map f, es'⟩ := by
  refine of_closed ?_ ?_ ?_ ?_ hexp
  · rcases hst' with ⟨hs, -⟩ | ⟨hs | hs | hs, -⟩ <;> simp [hs, TaskStatus.active]
  · rw [hf.map_attemptNumber, hcount]
    exact h.numbered
  · simp only [List.forall_mem_map]
    intro a ha
    by_cases hn : a.attemptNumber = t.attemptCount
    · obtain ⟨hended, hexit⟩ := hend a ha hn
      exact ⟨hended, by simp [hexit]⟩
    · rw [hf.other a hn]
      exact h.earlier a ha hn
  · rcases hst' with ⟨hs, howner⟩ | ⟨hs | hs | hs, howner⟩
    · simp [hs, howner, h.owned.2 (Or.inl hst)]
    all_goals simp [hs, howner]

end Ledger.Bookkept

namespace LedgerMove

variable {l l' : Ledger}

/-- Each move of a ledger keeps the books. -/
theorem bookkept (h : LedgerMove l l') (hb : l.Bookkept) : l'.Bookkept := by
  cases h with
  | keep => exact hb
  | rest hrest => exact hb.idle hrest.before hrest.after hrest.attemptCount hrest.lease
  | dispatch hst => exact hb.idle (by rw [hst]; rfl) rfl rfl (Or.inl ⟨rfl, rfl⟩)
  | lease hst => exact hb.lease hst _ _ _
  | hold hst hst' hcount howner hexp hf hopen =>
    exact hb.hold hst hst' hcount howner hexp hf hopen
  | finish hst hst' hexp hcount hf hend => exact hb.finish hst hst' hexp hcount hf hend

/-- An attempt that has ended stays as it is. -/
theorem mem_of_closed (h : LedgerMove l l') (hb : l.Bookkept) {a : TaskAttempt}
    (ha : a ∈ l.attempts) (hc : a.Closed) : a ∈ l'.attempts := by
  cases h with
  | keep => exact ha
  | rest => exact ha
  | dispatch => exact ha
  | lease => exact List.mem_append_left _ ha
  | hold hst _ _ _ _ hf =>
    rw [← hf.other a (hb.ne_of_closed hst ha hc)]
    exact List.mem_map_of_mem ha
  | finish hst _ _ _ hf =>
    rw [← hf.other a (hb.ne_of_closed hst ha hc)]
    exact List.mem_map_of_mem ha

end LedgerMove

theorem NewTask.bookkept {t : TaskRun} (h : NewTask t) : Ledger.Bookkept ⟨t, [], []⟩ := by
  have hst : t.status.active = false ∧ t.status ≠ .succeeded := by
    rcases h.status with hs | hs <;> simp [hs, TaskStatus.active]
  refine .of_closed hst.1 ?_ (by simp) ?_ h.leaseExpiresAt
  · rw [h.attemptCount]
    rfl
  · simp [h.leaseOwner, hst.2]

theorem Reachable.bookkept {s : State} (h : Reachable s) :
    ∀ t ∈ s.db.taskRuns, (s.db.ledger t).Bookkept :=
  h.forall_ledger (fun _ hnew => hnew.bookkept) fun _ _ hm hb => hm.bookkept hb

/-- A call leaves the attempts that have ended as they are. -/
theorem Reachable.closed_next {s : State} (h : Reachable s) {c : Call} {a : TaskAttempt}
    (ha : a ∈ s.db.taskAttempts) (hclosed : a.Closed) :
    a ∈ (controlPlane.next s c).db.taskAttempts := by
  obtain ⟨t, ht, hid, -⟩ := h.attemptsBounded a ha
  have hmem : a ∈ s.db.attemptsOf t.id := List.mem_filter.2 ⟨ha, decide_eq_true hid.symm⟩
  refine controlPlane_step (P := fun db => a ∈ db.taskAttempts) ha fun reply db' hok => ?_
  obtain ⟨t', -, -, hm⟩ := exec_ledger h.wellFormed.toKeyed hok ht
  exact (List.mem_filter.1 (hm.mem_of_closed (h.bookkept t ht) hmem hclosed)).1

/-- Rows with the same task and number are the same attempt. -/
theorem Reachable.attempt_unique {s : State} (h : Reachable s) {a b : TaskAttempt}
    (ha : a ∈ s.db.taskAttempts) (hb : b ∈ s.db.taskAttempts) (htask : b.taskRunId = a.taskRunId)
    (hnum : b.attemptNumber = a.attemptNumber) : b = a := by
  obtain ⟨t, ht, hid, -⟩ := h.attemptsBounded a ha
  have hnd : ((s.db.attemptsOf t.id).map TaskAttempt.attemptNumber).Nodup := by
    have hn := (h.bookkept t ht).numbered
    rw [show (s.db.ledger t).attempts = s.db.attemptsOf t.id from rfl] at hn
    rw [hn]
    exact List.nodup_range'
  refine Table.eq_of_key hnd ?_ ?_ hnum
  · exact List.mem_filter.2 ⟨hb, decide_eq_true (htask.trans hid.symm)⟩
  · exact List.mem_filter.2 ⟨ha, decide_eq_true hid.symm⟩

/-- Lease and attempt bookkeeping : in every reachable state the lease columns and the
attempts of every task agree with its status, and an attempt that has ended is, after any
further calls, the row it was. -/
theorem lease_and_attempt_bookkeeping {s : State} (h : Reachable s) :
    (∀ t ∈ s.db.taskRuns, (s.db.ledger t).Bookkept) ∧
      ∀ cs, controlPlane.Valid s cs → ∀ a ∈ s.db.taskAttempts, a.Closed →
        a ∈ (controlPlane.run s cs).db.taskAttempts ∧
          ∀ b ∈ (controlPlane.run s cs).db.taskAttempts,
            b.taskRunId = a.taskRunId → b.attemptNumber = a.attemptNumber → b = a := by
  refine ⟨h.bookkept, fun cs hv a ha hclosed => ?_⟩
  obtain ⟨hr, hmem⟩ := controlPlane.invariant
    (P := fun s => Reachable s ∧ a ∈ s.db.taskAttempts)
    (fun s c hs hc => ⟨hs.1.next hc, hs.1.closed_next hs.2 hclosed⟩) ⟨h, ha⟩ hv
  exact ⟨hmem, fun b hb => hr.attempt_unique hmem hb⟩

/-- The first task of the chain fails once and is leased again. -/
def retriedChain : List (ℤ × Op) :=
  [(1, .createRun 1 none 1 "k" "" none), (2, .dispatchReady (.ofList [4])),
    (3, .leaseTask 4 "w" 100), (4, .failTask 4 "w" ⟨true, "Timeout", "", ""⟩),
    (4 * second, .promoteRetries), (4 * second, .dispatchReady (.ofList [4])),
    (4 * second, .leaseTask 4 "v" 100)]

theorem lease_and_attempt_bookkeeping_retriedChain :
    (∀ t ∈ (twoDefinitions.after retriedChain).db.taskRuns,
      ((twoDefinitions.after retriedChain).db.ledger t).Bookkept) ∧
    ∃ a ∈ (twoDefinitions.after retriedChain).db.taskAttempts, a.attemptNumber = 1 ∧
      a.exitStatus = some .retryWait ∧
      a ∈ (controlPlane.run (twoDefinitions.after retriedChain)
        (play (twoDefinitions.after retriedChain)
          [(4 * second + 1, .startTask 4 "v")])).db.taskAttempts := by
  have hr : Reachable (twoDefinitions.after retriedChain) :=
    reachable_after init_twoDefinitions (by decide)
  have h := lease_and_attempt_bookkeeping hr
  obtain ⟨a, ha, hn, hexit, hended⟩ : ∃ a ∈ (twoDefinitions.after retriedChain).db.taskAttempts,
      a.attemptNumber = 1 ∧ a.exitStatus = some .retryWait ∧ a.endedAt = some 4 := by decide
  have hclosed : a.Closed := by simp [TaskAttempt.Closed, hexit, hended]
  exact ⟨h.1, a, ha, hn, hexit, (h.2 _ (valid_play _ _ (by decide)) a ha hclosed).1⟩

end RunMesh
