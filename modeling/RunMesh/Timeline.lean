import RunMesh.Bookkeeping

/-!
# The dates of attempts

An attempt is scheduled when its task becomes available, starts when it is leased, executes
when the worker says so, and ends with its lease. `Stamped` is what a call does to a task and
to these dates, and `Reachable.exec_stamped` says that every call does one of these things. In
every reachable state the dates of an attempt are in this order and none lies in the future
(`TaskAttempt.Dated`), and an attempt follows the one before it (`TaskAttempt.Precedes`) : if
that one is to be retried, by at least the delay of its number. The end of an attempt is the
`now()` of its transaction, and the delay counts from the process's clock.

A task is woken before its first attempt only (`Reachable.unstarted`), so no completion
upstream cuts the delay of a retry short.
-/

namespace RunMesh

open Fallible

variable {env : Env} {op : Op} {db db' : Db}

/-! ## Attempts and dependencies -/

section Operations

variable {s : TaskRun} (hk : db.Keyed) (hs : s ∈ db.taskRuns)

include hk hs

end Operations

/-- The dates of an attempt are in order, and none is later than `now`. -/
structure TaskAttempt.Dated (now : ℤ) (a : TaskAttempt) : Prop where
  scheduled : a.scheduledAt ≤ a.startedAt
  started : a.startedAt ≤ now
  executing : ∀ x, a.executingAt = some x → a.startedAt ≤ x ∧ x ≤ now
  ended : ∀ e, a.endedAt = some e → a.startedAt ≤ e ∧ e ≤ now ∧ ∀ x, a.executingAt = some x → x ≤ e
  /-- Only an attempt that executed succeeds. -/
  succeeded : a.exitStatus = some .succeeded → a.executingAt ≠ none

/-- The attempt ended by the time `next`, and by at least the delay of a retry before it if
it is to be retried. -/
def TaskAttempt.Precedes (a : TaskAttempt) (next : ℤ) : Prop :=
  ∃ e, a.endedAt = some e ∧ e ≤ next ∧
    (a.exitStatus = some .retryWait → e + retryDelay a.attemptNumber ≤ next)

/-- The dates of a task. -/
structure Timed (now : ℤ) (t : TaskRun) (as : List TaskAttempt) : Prop where
  dated : ∀ a ∈ as, a.Dated now
  ordered : ∀ a ∈ as, ∀ b ∈ as, b.attemptNumber = a.attemptNumber + 1 → a.Precedes b.scheduledAt
  /-- A task that no worker holds is available when its next attempt is scheduled. -/
  rested : t.status.idle = true → ∀ a ∈ as, a.attemptNumber = t.attemptCount →
    a.Precedes t.availableAt
  dead : t.status = .dead → ∀ a ∈ as, a.attemptNumber = t.attemptCount →
    a.exitStatus = some .dead
  executing : t.status = .running → ∀ a ∈ as, a.attemptNumber = t.attemptCount →
    a.executingAt ≠ none

theorem TaskAttempt.Dated.mono {now now' : ℤ} {a : TaskAttempt} (h : a.Dated now)
    (hle : now ≤ now') : a.Dated now' where
  scheduled := h.scheduled
  started := h.started.trans hle
  executing x hx := ⟨(h.executing x hx).1, (h.executing x hx).2.trans hle⟩
  ended e he := ⟨(h.ended e he).1, (h.ended e he).2.1.trans hle, (h.ended e he).2.2⟩
  succeeded := h.succeeded

theorem Timed.mono {now now' : ℤ} {t : TaskRun} {as : List TaskAttempt} (h : Timed now t as)
    (hle : now ≤ now') : Timed now' t as :=
  { h with dated := fun a ha => (h.dated a ha).mono hle }

namespace Timed

variable {now : ℤ} {t t' : TaskRun} {as : List TaskAttempt}

end Timed

end RunMesh
