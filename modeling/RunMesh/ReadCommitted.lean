import RunMesh.Trace
import Mathlib.Data.List.Nodup
import Mathlib.Data.Fintype.Basic

/-!
# Transactions under READ COMMITTED

A transaction is a program of statements, each chosen by the results of those before. A
statement finds its rows on the state committed when it starts, locks them one after the
other, waiting for each until no other transaction holds it, and then computes its result
and its write from that state and from the latest one, so that a locked row can be
evaluated again on its latest version. The writes of a transaction are its own until it
commits, and its locks are released when it ends.

`readCommitted` is the machine of any number of such transactions, a step being the start
of a statement, the grant of one lock, the end of a statement or the end of a transaction.
`Program.exec` is a transaction alone, and `serial` are transactions one after the other.

`Tx.resume` is what a transaction that is under way leaves if it goes on alone, and its
own steps do not change that (`Tx.resume_start` and the lemmas after it).
-/

namespace ReadCommitted

universe u

variable {ι : Type*} {σ κ ρ ε : Type u}

/-! ## Programs -/

/-- One statement. -/
structure Stmt (σ κ ρ : Type u) where
  /-- The rows it locks, in order, as found on the state it starts from. -/
  locks : σ → List κ
  /-- What it returns, from the state it started from and the latest. -/
  result : σ → σ → ρ
  /-- The latest state with its writes, from the state it started from. -/
  write : σ → σ → σ

/-- The statements of a transaction, and how it ends. -/
inductive Program (σ κ ρ ε : Type u)
  | commit
  | rollback (e : ε)
  | stmt (s : Stmt σ κ ρ) (k : ρ → Program σ κ ρ ε)

/-- The transaction alone : each statement starts from the latest state. -/
def Program.exec : Program σ κ ρ ε → σ → Except ε σ
  | .commit, db => .ok db
  | .rollback e, _ => .error e
  | .stmt s k, db => (k (s.result db db)).exec (s.write db db)

/-- The program has a statement to run. -/
def Program.isStmt : Program σ κ ρ ε → Bool
  | .stmt _ _ => true
  | _ => false

/-- The transactions of the list one after the other, all of which commit. -/
def serial (p : ι → Program σ κ ρ ε) : List ι → σ → Except ε σ
  | [], db => .ok db
  | i :: is, db => (p i).exec db >>= serial p is

theorem serial_snoc {p : ι → Program σ κ ρ ε} {is : List ι} {i : ι} :
    ∀ {db db' db'' : σ}, serial p is db = .ok db' → (p i).exec db' = .ok db'' →
      serial p (is ++ [i]) db = .ok db'' := by
  induction is with
  | nil =>
    intro db db' db'' h hi
    cases h
    simp [serial, hi, bind, Except.bind]
  | cons j is ih =>
    intro db db' db'' h hi
    simp only [serial, List.cons_append] at h ⊢
    cases hj : (p j).exec db with
    | error e => simp [hj, bind, Except.bind] at h
    | ok d =>
      rw [hj] at h
      exact ih h hi

/-! ## The machine -/

/-- A transaction under way. -/
structure Tx (σ κ ρ ε : Type u) where
  /-- What is left of its program, from the statement it is at. -/
  rest : Program σ κ ρ ε
  /-- What it has done to the rows it has locked, the state it sees being the committed
  one with these writes. -/
  writes : σ → σ
  /-- The state its statement started from and the locks it still needs, if it has
  started. -/
  running : Option (σ × List κ)
  /-- The rows it has locked. -/
  held : List κ
  /-- The number of statements it has finished. -/
  finished : ℕ
  /-- How it ended, if it has. -/
  outcome : Option (Except ε Unit)

namespace Tx

/-- Before the first statement. -/
def init (p : Program σ κ ρ ε) : Tx σ κ ρ ε :=
  ⟨p, id, none, [], 0, none⟩

/-- The statement starts from the committed state and the transaction's own writes. -/
def start (db : σ) (t : Tx σ κ ρ ε) : Tx σ κ ρ ε :=
  match t.rest with
  | .stmt s _ => { t with running := some (t.writes db, s.locks (t.writes db)) }
  | _ => t

/-- The statement gets the next lock. -/
def lock (t : Tx σ κ ρ ε) : Tx σ κ ρ ε :=
  match t.running with
  | some (snap, r :: rs) => { t with running := some (snap, rs), held := r :: t.held }
  | _ => t

/-- The statement has its locks and ends. -/
def finish (db : σ) (t : Tx σ κ ρ ε) : Tx σ κ ρ ε :=
  match t.rest, t.running with
  | .stmt s k, some (snap, _) =>
    { t with
      rest := k (s.result snap (t.writes db))
      writes := s.write snap ∘ t.writes
      running := none
      finished := t.finished + 1 }
  | _, _ => t

/-- The transaction ends and releases its locks. -/
def close (t : Tx σ κ ρ ε) : Tx σ κ ρ ε :=
  match t.rest with
  | .commit => { t with running := none, held := [], outcome := some (.ok ()) }
  | .rollback e => { t with running := none, held := [], outcome := some (.error e) }
  | .stmt _ _ => t

end Tx

/-- The committed state, the transactions, and the order those that have committed did so
in. -/
structure System (ι : Type*) (σ κ ρ ε : Type u) where
  db : σ
  tx : ι → Tx σ κ ρ ε
  committed : List ι

/-- No transaction has begun. -/
def System.init (db : σ) (p : ι → Program σ κ ρ ε) : System ι σ κ ρ ε :=
  ⟨db, fun i => .init (p i), []⟩

/-- The steps of transaction `i`. -/
inductive Action (ι : Type*)
  | start (i : ι)
  | lock (i : ι)
  | finish (i : ι)
  | close (i : ι)
  deriving DecidableEq

/-- The steps a transaction can take : a lock is granted if no other transaction holds
it, and a statement ends once it has all its locks. -/
def System.Enabled (s : System ι σ κ ρ ε) : Action ι → Prop
  | .start i => (s.tx i).rest.isStmt = true ∧ (s.tx i).running.isNone = true
  | .lock i => ∃ r ∈ (s.tx i).running.bind (·.2.head?), ∀ j, j ≠ i → r ∉ (s.tx j).held
  | .finish i => (s.tx i).running.any (·.2.isEmpty) = true
  | .close i => (s.tx i).rest.isStmt = false ∧ (s.tx i).outcome.isNone = true

instance [Fintype ι] [DecidableEq ι] [DecidableEq κ] (s : System ι σ κ ρ ε) :
    DecidablePred s.Enabled
  | .start _ => inferInstanceAs (Decidable (_ ∧ _))
  | .lock _ => inferInstanceAs (Decidable (∃ r ∈ _, ∀ j, _ → r ∉ (s.tx j).held))
  | .finish _ => inferInstanceAs (Decidable (_ = _))
  | .close _ => inferInstanceAs (Decidable (_ ∧ _))

section Enabled

variable {s : System ι σ κ ρ ε} {i : ι}

theorem enabled_start (h : s.Enabled (.start i)) :
    (∃ st k, (s.tx i).rest = .stmt st k) ∧ (s.tx i).running = none := by
  refine ⟨?_, Option.isNone_iff_eq_none.1 h.2⟩
  cases hrest : (s.tx i).rest with
  | stmt st k => exact ⟨st, k, rfl⟩
  | commit => simp [System.Enabled, hrest, Program.isStmt] at h
  | rollback e => simp [System.Enabled, hrest, Program.isStmt] at h

theorem enabled_lock (h : s.Enabled (.lock i)) :
    ∃ snap r rs, (s.tx i).running = some (snap, r :: rs) ∧ ∀ j, j ≠ i → r ∉ (s.tx j).held := by
  obtain ⟨r, hr, hfree⟩ := h
  obtain ⟨⟨snap, locks⟩, hrun, hhead⟩ := Option.bind_eq_some_iff.1 hr
  cases locks with
  | nil => simp at hhead
  | cons l ls =>
    cases hhead
    exact ⟨snap, r, ls, hrun, hfree⟩

theorem enabled_finish (h : s.Enabled (.finish i)) :
    ∃ snap, (s.tx i).running = some (snap, []) := by
  simp only [System.Enabled, Option.any_eq_true, List.isEmpty_iff] at h
  obtain ⟨⟨snap, rs⟩, hrun, rfl⟩ := h
  exact ⟨snap, hrun⟩

theorem enabled_close (h : s.Enabled (.close i)) :
    (s.tx i).outcome = none ∧
      ((s.tx i).rest = .commit ∨ ∃ e, (s.tx i).rest = .rollback e) := by
  refine ⟨Option.isNone_iff_eq_none.1 h.2, ?_⟩
  cases hrest : (s.tx i).rest with
  | stmt st k => simp [System.Enabled, hrest, Program.isStmt] at h
  | commit => exact .inl rfl
  | rollback e => exact .inr ⟨e, rfl⟩

end Enabled

variable [DecidableEq ι]

/-- The transaction `i` takes a step of its own. -/
def System.set (s : System ι σ κ ρ ε) (i : ι) (t : Tx σ κ ρ ε) : System ι σ κ ρ ε :=
  { s with tx := Function.update s.tx i t }

/-- The system after a step. -/
def System.next (s : System ι σ κ ρ ε) : Action ι → System ι σ κ ρ ε
  | .start i => s.set i ((s.tx i).start s.db)
  | .lock i => s.set i (s.tx i).lock
  | .finish i => s.set i ((s.tx i).finish s.db)
  | .close i =>
    match (s.tx i).rest with
    | .commit =>
      { db := (s.tx i).writes s.db
        tx := Function.update s.tx i (s.tx i).close
        committed := s.committed ++ [i] }
    | _ => s.set i (s.tx i).close

/-- The transactions under READ COMMITTED. -/
def readCommitted (ι : Type*) [DecidableEq ι] (σ κ ρ ε : Type u) :
    Machine (System ι σ κ ρ ε) (Action ι) where
  next := System.next
  allowed := System.Enabled

instance [Fintype ι] [DecidableEq κ] (s : System ι σ κ ρ ε) (a : Action ι) :
    Decidable ((readCommitted ι σ κ ρ ε).allowed s a) :=
  inferInstanceAs (Decidable (s.Enabled a))

section Steps

variable {s : System ι σ κ ρ ε} {i : ι}

@[simp] theorem set_db (t : Tx σ κ ρ ε) : (s.set i t).db = s.db :=
  rfl

@[simp] theorem set_committed (t : Tx σ κ ρ ε) : (s.set i t).committed = s.committed :=
  rfl

@[simp] theorem set_tx_self (t : Tx σ κ ρ ε) : (s.set i t).tx i = t :=
  Function.update_self ..

theorem set_tx_of_ne {j : ι} (h : j ≠ i) (t : Tx σ κ ρ ε) : (s.set i t).tx j = s.tx j :=
  Function.update_of_ne h ..

theorem next_close_commit (h : (s.tx i).rest = .commit) :
    s.next (.close i) = ⟨(s.tx i).writes s.db, Function.update s.tx i (s.tx i).close,
      s.committed ++ [i]⟩ := by
  simp [System.next, h]

theorem next_close_rollback {e : ε} (h : (s.tx i).rest = .rollback e) :
    s.next (.close i) = s.set i (s.tx i).close := by
  simp [System.next, h]

/-- What each step of a transaction keeps. -/
theorem tx_next {P : Tx σ κ ρ ε → Prop} (hstart : ∀ db t, P t → P (t.start db))
    (hlock : ∀ t, P t → P t.lock) (hfinish : ∀ db t, P t → P (t.finish db))
    (hclose : ∀ t, P t → P t.close) (h : P (s.tx i)) (a : Action ι) : P ((s.next a).tx i) := by
  have hset : ∀ (j : ι) (t : Tx σ κ ρ ε), (P (s.tx j) → P t) → P ((s.set j t).tx i) := by
    intro j t ht
    by_cases hij : i = j
    · subst hij
      rw [set_tx_self]
      exact ht h
    · rwa [set_tx_of_ne hij]
  cases a with
  | start j => exact hset j _ (hstart _ _)
  | lock j => exact hset j _ (hlock _)
  | finish j => exact hset j _ (hfinish _ _)
  | close j =>
    have hj : P ((s.set j (s.tx j).close).tx i) := hset j _ (hclose _)
    cases hrest : (s.tx j).rest with
    | commit => rwa [next_close_commit hrest]
    | rollback e => rwa [next_close_rollback hrest]
    | stmt st k => simpa [System.next, hrest] using hj

/-- A row is locked by the transaction that held it, or by one that gets it now, when no
other holds it. -/
theorem mem_held_next {a : Action ι} (ha : s.Enabled a) {g : κ}
    (hg : g ∈ ((s.next a).tx i).held) :
    g ∈ (s.tx i).held ∨ a = .lock i ∧ ∀ j, j ≠ i → g ∉ (s.tx j).held := by
  have hset : ∀ (j : ι) (t : Tx σ κ ρ ε), g ∈ ((s.set j t).tx i).held →
      (j = i → g ∈ t.held → g ∈ (s.tx i).held ∨
        a = .lock i ∧ ∀ j, j ≠ i → g ∉ (s.tx j).held) →
      g ∈ (s.tx i).held ∨ a = .lock i ∧ ∀ j, j ≠ i → g ∉ (s.tx j).held := by
    intro j t hmem ht
    by_cases hij : i = j
    · subst hij
      rw [set_tx_self] at hmem
      exact ht rfl hmem
    · rw [set_tx_of_ne hij] at hmem
      exact .inl hmem
  cases a with
  | start j =>
    refine hset j _ hg fun hj hmem => .inl ?_
    subst hj
    unfold Tx.start at hmem
    split at hmem <;> exact hmem
  | lock j =>
    refine hset j _ hg fun hj hmem => ?_
    subst hj
    obtain ⟨snap, r, rs, hrun, hfree⟩ := enabled_lock ha
    simp only [Tx.lock, hrun, List.mem_cons] at hmem
    rcases hmem with rfl | hmem
    · exact .inr ⟨rfl, hfree⟩
    · exact .inl hmem
  | finish j =>
    refine hset j _ hg fun hj hmem => .inl ?_
    subst hj
    unfold Tx.finish at hmem
    split at hmem <;> exact hmem
  | close j =>
    obtain ⟨-, hrest | ⟨e, hrest⟩⟩ := enabled_close ha
    · rw [next_close_commit hrest] at hg
      refine hset j (s.tx j).close hg fun _ hmem => ?_
      simp [Tx.close, hrest] at hmem
    · rw [next_close_rollback hrest] at hg
      refine hset j (s.tx j).close hg fun _ hmem => ?_
      simp [Tx.close, hrest] at hmem

end Steps

/-! ## Locks -/

/-- No row is locked by two transactions. -/
def Exclusive (s : System ι σ κ ρ ε) : Prop :=
  ∀ g i j, g ∈ (s.tx i).held → g ∈ (s.tx j).held → i = j

theorem Exclusive.next {s : System ι σ κ ρ ε} (h : Exclusive s) {a : Action ι}
    (ha : s.Enabled a) : Exclusive (s.next a) := by
  intro g i j hi hj
  rcases mem_held_next ha hi, mem_held_next ha hj with
    ⟨hi' | ⟨hlock, hfree⟩, hj' | ⟨hlock', hfree'⟩⟩
  · exact h g i j hi' hj'
  · by_contra hij
    exact hfree' i hij hi'
  · by_contra hij
    exact hfree j (Ne.symm hij) hj'
  · exact Action.lock.inj (hlock.symm.trans hlock')

omit [DecidableEq ι] in
theorem exclusive_init (db : σ) (p : ι → Program σ κ ρ ε) : Exclusive (.init db p) :=
  fun _ _ _ h => by simp [System.init, Tx.init] at h

theorem exclusive_run (db : σ) (p : ι → Program σ κ ρ ε) {as : List (Action ι)}
    (has : (readCommitted ι σ κ ρ ε).Valid (.init db p) as) :
    Exclusive ((readCommitted ι σ κ ρ ε).run (.init db p) as) :=
  Machine.invariant _ (fun _ _ hs ha => hs.next ha) (exclusive_init db p) has

/-! ## Who has committed -/

theorem committed_prefix_next (s : System ι σ κ ρ ε) (a : Action ι) :
    s.committed <+: (s.next a).committed := by
  cases a with
  | close i =>
    cases hrest : (s.tx i).rest with
    | commit =>
      rw [next_close_commit hrest]
      exact List.prefix_append _ _
    | _ => simp [System.next, hrest]
  | _ => exact List.prefix_rfl

/-- What has committed stays committed. -/
theorem committed_prefix_run (as : List (Action ι)) : ∀ s : System ι σ κ ρ ε,
    s.committed <+: ((readCommitted ι σ κ ρ ε).run s as).committed := by
  induction as with
  | nil => exact fun _ => List.prefix_rfl
  | cons a as ih => exact fun s => (committed_prefix_next s a).trans (ih (s.next a))

/-- The list of the committed transactions has each of them once. -/
structure Recorded (s : System ι σ κ ρ ε) : Prop where
  nodup : s.committed.Nodup
  mem_iff : ∀ i, i ∈ s.committed ↔ (s.tx i).outcome = some (.ok ())

/-- A step that ends no transaction. -/
theorem Recorded.set {s : System ι σ κ ρ ε} (h : Recorded s) {i : ι} {t : Tx σ κ ρ ε}
    (ht : t.outcome = some (.ok ()) ↔ (s.tx i).outcome = some (.ok ())) :
    Recorded (s.set i t) where
  nodup := h.nodup
  mem_iff j := by
    by_cases hji : j = i
    · subst hji
      rw [set_tx_self, ht]
      exact h.mem_iff j
    · rw [set_tx_of_ne hji]
      exact h.mem_iff j

theorem Recorded.next {s : System ι σ κ ρ ε} (h : Recorded s) {a : Action ι}
    (ha : s.Enabled a) : Recorded (s.next a) := by
  cases a with
  | start i => exact h.set (by unfold Tx.start; split <;> rfl)
  | lock i => exact h.set (by unfold Tx.lock; split <;> rfl)
  | finish i => exact h.set (by unfold Tx.finish; split <;> rfl)
  | close i =>
    obtain ⟨hout, hrest | ⟨e, hrest⟩⟩ := enabled_close ha
    · have hi : i ∉ s.committed := by simp [h.mem_iff, hout]
      rw [next_close_commit hrest]
      refine ⟨h.nodup.append (by simp) (by simpa using hi), fun j => ?_⟩
      by_cases hji : j = i
      · subst hji
        simp [Tx.close, hrest]
      · simp [hji, h.mem_iff]
    · rw [next_close_rollback hrest]
      exact h.set (by simp [Tx.close, hrest, hout])

theorem recorded_run (db : σ) (p : ι → Program σ κ ρ ε) {as : List (Action ι)}
    (has : (readCommitted ι σ κ ρ ε).Valid (.init db p) as) :
    Recorded ((readCommitted ι σ κ ρ ε).run (.init db p) as) :=
  Machine.invariant _ (fun _ _ hs ha => hs.next ha)
    ⟨List.nodup_nil, by simp [System.init, Tx.init]⟩ has

/-! ## The errors of a program -/

/-- Every error the program can end with satisfies `E`. -/
inductive Program.Raises (E : ε → Prop) : Program σ κ ρ ε → Prop
  | commit : Raises E .commit
  | rollback {e : ε} (he : E e) : Raises E (.rollback e)
  | stmt {s : Stmt σ κ ρ} {k : ρ → Program σ κ ρ ε} (hk : ∀ r, Raises E (k r)) :
      Raises E (.stmt s k)

/-- The rest of the program can only end with an error in `E`, and so has it if it has
ended with one. -/
structure Tx.Raises (E : ε → Prop) (t : Tx σ κ ρ ε) : Prop where
  rest : t.rest.Raises E
  outcome : ∀ e, t.outcome = some (.error e) → E e

namespace Tx.Raises

variable {E : ε → Prop} {t : Tx σ κ ρ ε} (h : t.Raises E)

include h

theorem start (db : σ) : (t.start db).Raises E := by
  unfold Tx.start
  split <;> exact ⟨h.rest, h.outcome⟩

theorem lock : t.lock.Raises E := by
  unfold Tx.lock
  split <;> exact ⟨h.rest, h.outcome⟩

theorem finish (db : σ) : (t.finish db).Raises E := by
  unfold Tx.finish
  split
  · next hrest _ =>
    refine ⟨?_, h.outcome⟩
    have hraises := h.rest
    rw [hrest] at hraises
    cases hraises with
    | stmt hk => exact hk _
  · exact h

theorem close : t.close.Raises E := by
  unfold Tx.close
  split
  · exact ⟨h.rest, fun e he => by simp at he⟩
  · next e hrest =>
    have hraises := h.rest
    rw [hrest] at hraises
    cases hraises with
    | rollback he =>
      refine ⟨h.rest, fun e' he' => ?_⟩
      cases he'
      exact he
  · exact h

end Tx.Raises

/-- A transaction ends with an error of its program only. -/
theorem raises_run {E : ε → Prop} {db : σ} {p : ι → Program σ κ ρ ε} {i : ι}
    (hp : (p i).Raises E) (as : List (Action ι)) :
    (((readCommitted ι σ κ ρ ε).run (.init db p) as).tx i).Raises E := by
  have hinit : ((System.init db p).tx i).Raises E :=
    ⟨hp, fun e he => by simp [System.init, Tx.init] at he⟩
  generalize System.init db p = s at hinit
  induction as generalizing s with
  | nil => exact hinit
  | cons a as ih =>
    exact ih (s.next a) (tx_next (fun db _ h => h.start db) (fun _ h => h.lock)
      (fun db _ h => h.finish db) (fun _ h => h.close) hinit a)

/-! ## Going on alone -/

/-- What the transaction leaves if it goes on alone, with a statement that has started
ending on the state it started from. -/
def Tx.resume (db : σ) (t : Tx σ κ ρ ε) : Except ε σ :=
  match t.rest, t.running with
  | .stmt s k, some (snap, _) =>
    (k (s.result snap (t.writes db))).exec (s.write snap (t.writes db))
  | p, _ => p.exec (t.writes db)

namespace Tx

variable {db : σ} {t : Tx σ κ ρ ε}

theorem resume_of_none (h : t.running = none) (db : σ) :
    t.resume db = t.rest.exec (t.writes db) := by
  unfold resume
  rw [h]
  cases t.rest <;> rfl

theorem resume_of_some {st : Stmt σ κ ρ} {k : ρ → Program σ κ ρ ε} {snap : σ} {rs : List κ}
    (hrest : t.rest = .stmt st k) (hrun : t.running = some (snap, rs)) (db : σ) :
    t.resume db = (k (st.result snap (t.writes db))).exec (st.write snap (t.writes db)) := by
  unfold resume
  rw [hrest, hrun]

@[simp] theorem resume_init (p : Program σ κ ρ ε) (db : σ) : (init p).resume db = p.exec db :=
  resume_of_none rfl db

theorem resume_start (hrun : t.running = none) : (t.start db).resume db = t.resume db := by
  unfold Tx.start
  split
  · next st k hrest =>
    rw [resume_of_none hrun, hrest, Program.exec]
    simp only [resume]
  · rfl

theorem resume_lock : t.lock.resume db = t.resume db := by
  unfold Tx.lock
  split
  · next snap r rs hrun =>
    cases hrest : t.rest with
    | stmt st k =>
      rw [resume_of_some hrest hrun]
      simp only [resume]
    | _ => simp [resume, hrest]
  · rfl

theorem resume_finish : (t.finish db).resume db = t.resume db := by
  unfold Tx.finish
  split
  · next st k snap rs hrest hrun =>
    rw [resume_of_none rfl, resume_of_some hrest hrun]
    rfl
  · rfl

theorem resume_of_commit (h : t.rest = .commit) : t.resume db = .ok (t.writes db) := by
  simp [resume, h, Program.exec]

theorem resume_of_rollback {e : ε} (h : t.rest = .rollback e) : t.resume db = .error e := by
  simp [resume, h, Program.exec]

end Tx

end ReadCommitted
