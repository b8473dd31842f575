import RunMesh.ReadCommitted

/-!
# Transactions caught by the end of another

Until the first of several transactions ends nothing is committed, and each is where it
can be on its own (`Tx.Alone`). When all but one have ended, the last goes on alone, and
what it leaves is its `Tx.resume` on the state the others left (`run_last`). What an
interleaving of two transactions does is therefore what the second does when it is caught
at some point of its program by the commit of the first.

Three rules say something about a transaction that is caught. `Alone.peel` takes it
statement by statement. `Alone.guarding` says that it has not changed what a row guards
unless it has locked the row. And a program that `Leads` from one value of a view to
another, whatever else changes, still does so after it is caught (`Alone.leadsTo`).
-/

namespace ReadCommitted

universe u

variable {ι : Type*} {σ κ ρ ε : Type u}

/-- The state after a transaction with this end : a rollback leaves the state as it was. -/
def outcomeOn (db : σ) : Except ε σ → σ
  | .ok d => d
  | .error _ => db

/-! ## While nothing is committed -/

/-- Where the transaction at `t₀` can get on its own while the committed state is `db`. -/
inductive Tx.Alone (db : σ) (t₀ : Tx σ κ ρ ε) : Tx σ κ ρ ε → Prop
  | refl : Alone db t₀ t₀
  | start {t : Tx σ κ ρ ε} (h : Alone db t₀ t) (hnone : t.running = none) :
      Alone db t₀ (t.start db)
  | lock {t : Tx σ κ ρ ε} (h : Alone db t₀ t) : Alone db t₀ t.lock
  | finish {t : Tx σ κ ρ ε} {snap : σ} (h : Alone db t₀ t) (hrun : t.running = some (snap, [])) :
      Alone db t₀ (t.finish db)

/-- The transaction has begun its statement number `n`, counted from zero. -/
def Tx.Begun (n : ℕ) (t : Tx σ κ ρ ε) : Prop :=
  n < t.finished ∨ n = t.finished ∧ t.running.isSome = true

instance (n : ℕ) (t : Tx σ κ ρ ε) : Decidable (t.Begun n) :=
  inferInstanceAs (Decidable (_ ∨ _))

namespace Tx.Alone

variable {db : σ} {t₀ t : Tx σ κ ρ ε}

/-- It still leaves what it would. -/
theorem resume (h : Alone db t₀ t) : t.resume db = t₀.resume db := by
  induction h with
  | refl => rfl
  | start _ hnone ih => exact (resume_start hnone).trans ih
  | lock _ ih => exact resume_lock.trans ih
  | finish _ _ ih => exact resume_finish.trans ih

theorem held_subset (h : Alone db t₀ t) : t₀.held ⊆ t.held := by
  induction h with
  | refl => exact fun _ hg => hg
  | start _ _ ih =>
    unfold Tx.start
    split <;> exact ih
  | lock _ ih =>
    unfold Tx.lock
    split
    · exact fun g hg => List.mem_cons_of_mem _ (ih hg)
    · exact ih
  | finish _ _ ih =>
    unfold Tx.finish
    split <;> exact ih

theorem finished_le (h : Alone db t₀ t) : t₀.finished ≤ t.finished := by
  induction h with
  | refl => exact le_rfl
  | start _ _ ih =>
    unfold Tx.start
    split <;> exact ih
  | lock _ ih =>
    unfold Tx.lock
    split <;> exact ih
  | finish _ _ ih =>
    unfold Tx.finish
    split
    · exact Nat.le_succ_of_le ih
    · exact ih

end Tx.Alone

/-- The transaction is at the statement it was at in `t₀`, which may have started, and what
it has not locked it has still to lock. -/
structure Tx.At (db : σ) (t₀ : Tx σ κ ρ ε) (st : Stmt σ κ ρ) (t : Tx σ κ ρ ε) : Prop where
  rest : t.rest = t₀.rest
  writes : t.writes = t₀.writes
  finished : t.finished = t₀.finished
  running : ∀ snap rs, t.running = some (snap, rs) →
    snap = t₀.writes db ∧ ∀ g ∈ st.locks snap, g ∈ t.held ∨ g ∈ rs

/-- The transaction after its statement, on the state it was on. -/
structure Tx.Past (db : σ) (t₀ : Tx σ κ ρ ε) (st : Stmt σ κ ρ) (k : ρ → Program σ κ ρ ε)
    (t : Tx σ κ ρ ε) : Prop where
  rest : t.rest = k (st.result (t₀.writes db) (t₀.writes db))
  writes : t.writes = st.write (t₀.writes db) ∘ t₀.writes
  finished : t.finished = t₀.finished + 1
  running : t.running = none
  held : ∀ g ∈ st.locks (t₀.writes db), g ∈ t.held

/-- A transaction on its own is at its statement, or has finished it and gone on. -/
theorem Tx.Alone.peel {db : σ} {t₀ t : Tx σ κ ρ ε} (h : Alone db t₀ t) {st : Stmt σ κ ρ}
    {k : ρ → Program σ κ ρ ε} (hrest : t₀.rest = .stmt st k) (hnone : t₀.running = none) :
    At db t₀ st t ∨ ∃ t₁, Past db t₀ st k t₁ ∧ Alone db t₁ t := by
  induction h with
  | refl => exact .inl ⟨rfl, rfl, rfl, fun _ _ h => by simp [hnone] at h⟩
  | @start t h hrun ih =>
    rcases ih with hat | ⟨t₁, hpast, hal⟩
    · have hst : t.rest = .stmt st k := hat.rest.trans hrest
      refine .inl ?_
      simp only [Tx.start, hst]
      refine ⟨hrest.symm, hat.writes, hat.finished, fun snap rs h => ?_⟩
      cases h
      exact ⟨by rw [hat.writes], fun g hg => .inr hg⟩
    · exact .inr ⟨t₁, hpast, hal.start hrun⟩
  | @lock t h ih =>
    rcases ih with hat | ⟨t₁, hpast, hal⟩
    · refine .inl ?_
      unfold Tx.lock
      split
      · next snap r rs hrun =>
        refine ⟨hat.rest, hat.writes, hat.finished, fun snap' rs' h => ?_⟩
        cases h
        obtain ⟨hsnap, hlocks⟩ := hat.running _ _ hrun
        refine ⟨hsnap, fun g hg => ?_⟩
        rcases hlocks g hg with hheld | hmem
        · exact .inl (List.mem_cons_of_mem _ hheld)
        · rcases List.mem_cons.1 hmem with rfl | hmem
          · exact .inl List.mem_cons_self
          · exact .inr hmem
      · exact hat
    · exact .inr ⟨t₁, hpast, hal.lock⟩
  | @finish t snap h hrun ih =>
    refine .inr ?_
    rcases ih with hat | ⟨t₁, hpast, hal⟩
    · obtain ⟨rfl, hlocks⟩ := hat.running _ _ hrun
      refine ⟨t.finish db, ?_, .refl⟩
      simp only [Tx.finish, hat.rest, hrest, hrun]
      refine ⟨by rw [hat.writes], by rw [hat.writes], by rw [hat.finished], rfl, fun g hg => ?_⟩
      exact (hlocks g hg).resolve_right (by simp)
    · exact ⟨t₁, hpast, hal.finish hrun⟩

/-- The end of the program is where it stays. -/
theorem Tx.Alone.of_isStmt {db : σ} {t₀ t : Tx σ κ ρ ε} (h : Alone db t₀ t)
    (hend : t₀.rest.isStmt = false) : t.rest = t₀.rest ∧ t.writes = t₀.writes := by
  induction h with
  | refl => exact ⟨rfl, rfl⟩
  | start _ _ ih =>
    unfold Tx.start
    split <;> exact ih
  | lock _ ih =>
    unfold Tx.lock
    split <;> exact ih
  | finish _ _ ih =>
    unfold Tx.finish
    split
    · next st k _ _ hrest _ =>
      rw [← ih.1, hrest] at hend
      simp [Program.isStmt] at hend
    · exact ih

/-- At its statement the transaction goes on with it from the new state, or ends it on the
state it started from. -/
theorem Tx.At.resume {db : σ} {t₀ t : Tx σ κ ρ ε} {st : Stmt σ κ ρ} {k : ρ → Program σ κ ρ ε}
    (h : At db t₀ st t) (hrest : t₀.rest = .stmt st k) (d : σ) :
    t.running = none ∧ t.resume d = (Program.stmt st k).exec (t₀.writes d) ∨
      t.running.isSome = true ∧ t.resume d =
        (k (st.result (t₀.writes db) (t₀.writes d))).exec
          (st.write (t₀.writes db) (t₀.writes d)) := by
  have hst : t.rest = .stmt st k := h.rest.trans hrest
  cases hrun : t.running with
  | none => exact .inl ⟨rfl, by rw [resume_of_none hrun, hst, h.writes]⟩
  | some sr =>
    obtain ⟨snap, rs⟩ := sr
    obtain ⟨rfl, -⟩ := h.running _ _ hrun
    exact .inr ⟨rfl, by rw [resume_of_some hst hrun, h.writes]⟩

/-! ## What every statement keeps -/

/-- Every statement of the program satisfies `S`. -/
inductive Program.All (S : Stmt σ κ ρ → Prop) : Program σ κ ρ ε → Prop
  | commit : All S .commit
  | rollback (e : ε) : All S (.rollback e)
  | stmt {s : Stmt σ κ ρ} {k : ρ → Program σ κ ρ ε} (hs : S s) (hk : ∀ r, All S (k r)) :
      All S (.stmt s k)

/-- The statement keeps `Q`. -/
def Stmt.Keeps (Q : σ → Prop) (s : Stmt σ κ ρ) : Prop :=
  ∀ snap db, Q db → Q (s.write snap db)

/-- The statement keeps `Q` unless it locks `g`. -/
def Stmt.Guards (g : κ) (Q : σ → Prop) (s : Stmt σ κ ρ) : Prop :=
  ∀ snap, g ∉ s.locks snap → ∀ db, Q db → Q (s.write snap db)

/-- The transaction has kept `Q` and its rest does. -/
structure Tx.Keeping (Q : σ → Prop) (t : Tx σ κ ρ ε) : Prop where
  rest : t.rest.All (Stmt.Keeps Q)
  writes : ∀ d, Q d → Q (t.writes d)

/-- The transaction has kept `Q` unless it holds `g`, and so does its rest. -/
structure Tx.Guarding (g : κ) (Q : σ → Prop) (t : Tx σ κ ρ ε) : Prop where
  rest : t.rest.All (Stmt.Guards g Q)
  writes : g ∉ t.held → ∀ d, Q d → Q (t.writes d)
  running : ∀ st k snap rs, t.rest = .stmt st k → t.running = some (snap, rs) →
    g ∈ st.locks snap → g ∈ t.held ∨ g ∈ rs

theorem Program.All.stmt_inv {S : Stmt σ κ ρ → Prop} {st : Stmt σ κ ρ} {k : ρ → Program σ κ ρ ε}
    (h : (Program.stmt st k).All S) : S st ∧ ∀ r, (k r).All S := by
  cases h with
  | stmt hs hk => exact ⟨hs, hk⟩

theorem Program.All.exec_keeps {Q : σ → Prop} {p : Program σ κ ρ ε} (h : p.All (Stmt.Keeps Q)) :
    ∀ {d d' : σ}, Q d → p.exec d = .ok d' → Q d' := by
  induction h with
  | commit =>
    intro d d' hd hok
    cases hok
    exact hd
  | rollback => exact fun _ hok => by cases hok
  | stmt hs _ ih => exact fun hd hok => ih _ (hs _ _ hd) hok

section Alone

variable {db : σ} {t₀ t : Tx σ κ ρ ε} {g : κ} {Q : σ → Prop}

theorem Tx.Alone.keeping (h : Alone db t₀ t) (h₀ : t₀.Keeping Q) : t.Keeping Q := by
  induction h with
  | refl => exact h₀
  | start _ _ ih =>
    unfold Tx.start
    split <;> exact ⟨ih.rest, ih.writes⟩
  | lock _ ih =>
    unfold Tx.lock
    split <;> exact ⟨ih.rest, ih.writes⟩
  | finish _ _ ih =>
    unfold Tx.finish
    split
    · next st k snap rs hrest hrun =>
      obtain ⟨hs, hk⟩ := (hrest ▸ ih.rest).stmt_inv
      exact ⟨hk _, fun d hd => hs _ _ (ih.writes d hd)⟩
    · exact ih

theorem Tx.Keeping.resume (h : t.Keeping Q) {d d' : σ} (hd : Q d) (hok : t.resume d = .ok d') :
    Q d' := by
  cases hrun : t.running with
  | none =>
    rw [resume_of_none hrun] at hok
    exact h.rest.exec_keeps (h.writes d hd) hok
  | some sr =>
    cases hrest : t.rest with
    | commit =>
      rw [resume_of_commit hrest] at hok
      cases hok
      exact h.writes d hd
    | rollback e =>
      rw [resume_of_rollback hrest] at hok
      cases hok
    | stmt st k =>
      obtain ⟨hs, hk⟩ := (hrest ▸ h.rest).stmt_inv
      rw [resume_of_some hrest hrun] at hok
      exact (hk _).exec_keeps (hs _ _ (h.writes d hd)) hok

theorem Tx.Alone.guarding (h : Alone db t₀ t) (h₀ : t₀.Guarding g Q) : t.Guarding g Q := by
  induction h with
  | refl => exact h₀
  | start _ _ ih =>
    unfold Tx.start
    split
    · next st k hrest =>
      refine ⟨ih.rest, ih.writes, fun st' k' snap rs hst hrun hg => ?_⟩
      obtain ⟨rfl, -⟩ := Program.stmt.inj (hrest.symm.trans hst)
      cases hrun
      exact .inr hg
    · exact ih
  | lock _ ih =>
    unfold Tx.lock
    split
    · next snap r rs hrun =>
      refine ⟨ih.rest, fun hg => ih.writes fun hmem => hg (List.mem_cons_of_mem _ hmem),
        fun st k snap' rs' hst hrun' hg => ?_⟩
      cases hrun'
      rcases ih.running st k _ _ hst hrun hg with hheld | hmem
      · exact .inl (List.mem_cons_of_mem _ hheld)
      · rcases List.mem_cons.1 hmem with rfl | hmem
        · exact .inl List.mem_cons_self
        · exact .inr hmem
    · exact ih
  | @finish t snap₀ _ hempty ih =>
    unfold Tx.finish
    split
    · next st k snap rs hrest hrun =>
      obtain ⟨hs, hk⟩ := (hrest ▸ ih.rest).stmt_inv
      refine ⟨hk _, fun hg d hd => hs _ (fun hlock => ?_) _ (ih.writes hg d hd),
        fun _ _ _ _ _ h => by cases h⟩
      obtain ⟨rfl, rfl⟩ := Prod.mk.inj (Option.some.inj (hrun.symm.trans hempty))
      exact hg ((ih.running st k _ _ hrest hrun hlock).resolve_right (by simp))
    · exact ih

end Alone

/-! ## Programs that lead somewhere -/

section Leads

variable {τ : Type*} (view : σ → τ)

/-- The program commits, and takes the view from `x` to `y`, whatever else changes between
its statements. -/
inductive Program.Leads : τ → Program σ κ ρ ε → τ → Prop
  | commit (x : τ) : Leads x .commit x
  | stmt {x y : τ} {s : Stmt σ κ ρ} {k : ρ → Program σ κ ρ ε} (x' : τ)
      (hwrite : ∀ snap db, view snap = x → view db = x → view (s.write snap db) = x')
      (hk : ∀ snap db, view snap = x → view db = x → Leads x' (k (s.result snap db)) y) :
      Leads x (.stmt s k) y

/-- From states with the view `x₀` the transaction takes it to `y`. -/
def Tx.LeadsTo (x₀ y : τ) (t : Tx σ κ ρ ε) : Prop :=
  ∃ x, (∀ d, view d = x₀ → view (t.writes d) = x) ∧ t.rest.Leads view x y ∧
    ∀ snap rs, t.running = some (snap, rs) → view snap = x

variable {view} {db : σ} {t₀ t : Tx σ κ ρ ε} {x₀ x y : τ}

theorem Program.Leads.stmt_inv {st : Stmt σ κ ρ} {k : ρ → Program σ κ ρ ε}
    (h : (Program.stmt st k).Leads view x y) :
    ∃ x', (∀ snap db, view snap = x → view db = x → view (st.write snap db) = x') ∧
      ∀ snap db, view snap = x → view db = x → (k (st.result snap db)).Leads view x' y := by
  cases h with
  | stmt x' hwrite hk => exact ⟨x', hwrite, hk⟩

theorem Program.Leads.exec {p : Program σ κ ρ ε} (h : p.Leads view x y) :
    ∀ {d : σ}, view d = x → ∃ d', p.exec d = .ok d' ∧ view d' = y := by
  induction h with
  | commit => exact fun hd => ⟨_, rfl, hd⟩
  | stmt x' hwrite _ ih => exact fun {d} hd => ih d d hd hd (hwrite d d hd hd)

theorem Tx.Alone.leadsTo (h : Alone db t₀ t) (hdb : view db = x₀) (h₀ : t₀.LeadsTo view x₀ y) :
    t.LeadsTo view x₀ y := by
  induction h with
  | refl => exact h₀
  | start _ _ ih =>
    obtain ⟨x, hwrites, hrest, hrun⟩ := ih
    unfold Tx.start
    split
    · refine ⟨x, hwrites, hrest, fun snap rs h => ?_⟩
      cases h
      exact hwrites db hdb
    · exact ⟨x, hwrites, hrest, hrun⟩
  | lock _ ih =>
    obtain ⟨x, hwrites, hrest, hrun⟩ := ih
    unfold Tx.lock
    split
    · next hsome =>
      refine ⟨x, hwrites, hrest, fun snap rs h => ?_⟩
      cases h
      exact hrun _ _ hsome
    · exact ⟨x, hwrites, hrest, hrun⟩
  | finish _ _ ih =>
    obtain ⟨x, hwrites, hrest, hrun⟩ := ih
    unfold Tx.finish
    split
    · next st k snap rs hst hsome =>
      obtain ⟨x', hwrite, hk⟩ := (hst ▸ hrest).stmt_inv
      have hsnap := hrun _ _ hsome
      exact ⟨x', fun d hd => hwrite _ _ hsnap (hwrites d hd), hk _ _ hsnap (hwrites db hdb),
        fun _ _ h => by cases h⟩
    · exact ⟨x, hwrites, hrest, hrun⟩

theorem Tx.LeadsTo.resume (h : t.LeadsTo view x₀ y) {d : σ} (hd : view d = x₀) :
    ∃ d', t.resume d = .ok d' ∧ view d' = y := by
  obtain ⟨x, hwrites, hrest, hrun⟩ := h
  cases hsome : t.running with
  | none =>
    rw [resume_of_none hsome]
    exact hrest.exec (hwrites d hd)
  | some sr =>
    cases hst : t.rest with
    | commit =>
      rw [hst] at hrest
      rw [resume_of_commit hst]
      cases hrest
      exact ⟨_, rfl, hwrites d hd⟩
    | rollback e =>
      rw [hst] at hrest
      cases hrest
    | stmt st k =>
      obtain ⟨x', hwrite, hk⟩ := (hst ▸ hrest).stmt_inv
      have hsnap := hrun _ _ hsome
      rw [resume_of_some hst hsome]
      exact (hk _ _ hsnap (hwrites d hd)).exec (hwrite _ _ hsnap (hwrites d hd))

end Leads

/-! ## The first and the last to end -/

section Runs

variable [DecidableEq ι] {db : σ} {p : ι → Program σ κ ρ ε} {s : System ι σ κ ρ ε} {i : ι}

/-- The step ends a transaction. -/
def Action.isClose : Action ι → Bool
  | .close _ => true
  | _ => false

/-- Nothing has ended : the committed state is the first, and each transaction is on its
own. -/
structure Quiet (db : σ) (p : ι → Program σ κ ρ ε) (s : System ι σ κ ρ ε) : Prop where
  db_eq : s.db = db
  alone : ∀ i, Tx.Alone db (.init (p i)) (s.tx i)
  outcome : ∀ i, (s.tx i).outcome = none

/-- A step of one transaction that does not end it. -/
theorem Quiet.set (h : Quiet db p s) {t : Tx σ κ ρ ε} (ht : Tx.Alone db (.init (p i)) t)
    (hout : t.outcome = (s.tx i).outcome) : Quiet db p (s.set i t) where
  db_eq := h.db_eq
  alone j := by
    by_cases hji : j = i
    · subst hji
      rwa [set_tx_self]
    · rw [set_tx_of_ne hji]
      exact h.alone j
  outcome j := by
    by_cases hji : j = i
    · subst hji
      rw [set_tx_self, hout]
      exact h.outcome j
    · rw [set_tx_of_ne hji]
      exact h.outcome j

theorem Quiet.next (h : Quiet db p s) {a : Action ι} (ha : s.Enabled a)
    (hclose : a.isClose = false) : Quiet db p (s.next a) := by
  cases a with
  | start i =>
    have hal := (h.alone i).start (enabled_start ha).2
    exact h.set (h.db_eq ▸ hal) (by unfold Tx.start; split <;> rfl)
  | lock i => exact h.set (h.alone i).lock (by unfold Tx.lock; split <;> rfl)
  | finish i =>
    obtain ⟨snap, hrun⟩ := enabled_finish ha
    have hal := (h.alone i).finish hrun
    exact h.set (h.db_eq ▸ hal) (by unfold Tx.finish; split <;> rfl)
  | close i => cases hclose

omit [DecidableEq ι] in
theorem quiet_init (db : σ) (p : ι → Program σ κ ρ ε) : Quiet db p (.init db p) where
  db_eq := rfl
  alone _ := .refl
  outcome _ := rfl

/-- Until a transaction ends the system is quiet. -/
theorem quiet_run {as : List (Action ι)} (has : (readCommitted ι σ κ ρ ε).Valid (.init db p) as)
    (hclose : ∀ a ∈ as, a.isClose = false) :
    Quiet db p ((readCommitted ι σ κ ρ ε).run (.init db p) as) := by
  have hquiet := Machine.along_of_forall (readCommitted ι σ κ ρ ε) (fun a ha _ => hclose a ha)
    (.init db p)
  exact Machine.invariant_along _ (fun s a hs ha => hs.next ha.1 ha.2) (quiet_init db p)
    ((Machine.along_and _ _ _ as _).2 ⟨has, hquiet⟩)

/-- A run in which some transaction ends has a first such step. -/
theorem exists_first_close {as : List (Action ι)}
    (has : (readCommitted ι σ κ ρ ε).Valid (.init db p) as)
    (hend : (((readCommitted ι σ κ ρ ε).run (.init db p) as).tx i).outcome ≠ none) :
    ∃ bs j cs, as = bs ++ .close j :: cs ∧ ∀ a ∈ bs, a.isClose = false := by
  cases hf : as.find? Action.isClose with
  | none =>
    refine absurd ((quiet_run has fun a ha => ?_).outcome i) hend
    simpa using List.find?_eq_none.1 hf a ha
  | some a =>
    obtain ⟨ha, bs, cs, rfl, hbs⟩ := List.find?_eq_some_iff_append.1 hf
    cases a with
    | close j => exact ⟨bs, j, cs, rfl, fun b hb => by simpa using hbs b hb⟩
    | _ => cases ha

/-- The transaction has ended. -/
structure Tx.Over (t : Tx σ κ ρ ε) : Prop where
  rest : t.rest.isStmt = false
  running : t.running = none
  outcome : t.outcome ≠ none

/-- The transaction that takes the step. -/
def Action.who : Action ι → ι
  | .start i => i
  | .lock i => i
  | .finish i => i
  | .close i => i

omit [DecidableEq ι] in
theorem not_enabled_of_over {a : Action ι} (h : (s.tx a.who).Over) : ¬s.Enabled a := by
  intro ha
  cases a with
  | start i => exact absurd ha.1 (by simp [show (s.tx i).rest.isStmt = false from h.rest])
  | lock i =>
    obtain ⟨_, _, _, hrun, -⟩ := enabled_lock ha
    exact absurd (hrun.symm.trans h.running) (by simp)
  | finish i =>
    obtain ⟨_, hrun⟩ := enabled_finish ha
    exact absurd (hrun.symm.trans h.running) (by simp)
  | close i => exact h.outcome (enabled_close ha).1

theorem over_close {t : Tx σ κ ρ ε} (h : t.rest = .commit ∨ ∃ e, t.rest = .rollback e) :
    t.close.Over := by
  rcases h with h | ⟨e, h⟩ <;>
    exact ⟨by simp [Tx.close, h, Program.isStmt], by simp [Tx.close, h], by simp [Tx.close, h]⟩

/-- The step that ends a transaction leaves what it left, and the others where they are. -/
theorem next_close (ha : s.Enabled (.close i)) :
    (s.next (.close i)).db = outcomeOn s.db ((s.tx i).resume s.db) ∧
      ((s.next (.close i)).tx i).Over ∧ ∀ j, j ≠ i → (s.next (.close i)).tx j = s.tx j := by
  obtain ⟨-, hrest⟩ := enabled_close ha
  have hover := over_close hrest
  rcases hrest with hrest | ⟨e, hrest⟩
  · rw [next_close_commit hrest, Tx.resume_of_commit hrest]
    exact ⟨rfl, by simpa using hover, fun j hj => Function.update_of_ne hj ..⟩
  · rw [next_close_rollback hrest, Tx.resume_of_rollback hrest]
    exact ⟨rfl, by simpa using hover, fun j hj => set_tx_of_ne hj _⟩

/-- The last transaction goes on alone. -/
theorem run_last (cs : List (Action ι)) : ∀ s : System ι σ κ ρ ε,
    (∀ j, j ≠ i → (s.tx j).Over) → (readCommitted ι σ κ ρ ε).Valid s cs →
    (s.tx i).outcome = none → (((readCommitted ι σ κ ρ ε).run s cs).tx i).outcome ≠ none →
    ((readCommitted ι σ κ ρ ε).run s cs).db = outcomeOn s.db ((s.tx i).resume s.db) := by
  induction cs with
  | nil => exact fun s _ _ hnone hend => absurd hnone hend
  | cons a cs ih =>
    intro s hover hv hnone hend
    obtain ⟨ha, hv⟩ := hv
    have hwho : a.who = i := by
      by_contra hne
      exact not_enabled_of_over (hover _ hne) ha
    -- a step that does not end the transaction changes nothing the result depends on
    have hset : ∀ t : Tx σ κ ρ ε, t.outcome = (s.tx i).outcome →
        t.resume s.db = (s.tx i).resume s.db → s.next a = s.set i t →
        ((readCommitted ι σ κ ρ ε).run s (a :: cs)).db =
          outcomeOn s.db ((s.tx i).resume s.db) := by
      intro t hout hres hnext
      have hstep : (readCommitted ι σ κ ρ ε).next s a = s.set i t := hnext
      rw [Machine.run_cons] at hend ⊢
      rw [hstep] at hv hend ⊢
      have hgo := ih (s.set i t) (fun j hj => ?_) hv ?_ hend
      · rwa [set_tx_self, set_db, hres] at hgo
      · rw [set_tx_of_ne hj]
        exact hover j hj
      · rw [set_tx_self, hout, hnone]
    cases a with
    | start j =>
      obtain rfl : j = i := hwho
      obtain ⟨⟨st, k, hst⟩, hrun⟩ := enabled_start ha
      exact hset _ (by simp [Tx.start, hst]) (Tx.resume_start hrun) rfl
    | lock j =>
      obtain rfl : j = i := hwho
      exact hset _ (by unfold Tx.lock; split <;> rfl) Tx.resume_lock rfl
    | finish j =>
      obtain rfl : j = i := hwho
      exact hset _ (by unfold Tx.finish; split <;> rfl) Tx.resume_finish rfl
    | close j =>
      obtain rfl : j = i := hwho
      obtain ⟨hdb, hself, hother⟩ := next_close ha
      cases cs with
      | nil => exact hdb
      | cons b bs =>
        refine absurd hv.1 (not_enabled_of_over ?_)
        by_cases hb : b.who = j
        · rw [hb]
          exact hself
        · exact (hother _ hb).symm ▸ hover _ hb

end Runs

end ReadCommitted
