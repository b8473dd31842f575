import Mathlib.Data.List.Forall2
import Mathlib.Data.Nat.Notation

/-!
# Code that runs one transaction after another

A `Handler` is code that reads and writes a shared state in transactions, and returns a result
or an error. It has ended, or it is at a transaction, given by the state the transaction leaves
and by what is left to do, both functions of the state it finds and of an input drawn for it.
`run` runs a handler by itself. Between two of its transactions, others may run theirs.

`Obeys D P h s` is a contract of a handler that has seen the state `s`. The discipline `D` has an
invariant, an order that says how the state may evolve between transactions, and what each
transaction keeps. It also has a view, a part of the state the handler is to stay in : every
transaction commutes with it, and what is left to do does not depend on the rest. `P` holds of
the result, in every state that can come after.

A contract has a rule for each way to write a handler, and two consequences. A handler that runs
by itself gives, in the view of a state, the view of what it gives in the state (`Obeys.run`). And
contracts survive the transactions of others (`Obeys.mono`), so that handlers which obey one
invariant and one order can be interleaved.

`Within R Q h` is a coarser contract, without an invariant : every transaction of the handler is
one of `R`, in whatever states it finds, and every result is one of `Q`. It has the same rules, and
gives a contract of the first kind (`Within.obeys`).
-/

/-- Code that has ended with a result, or is at a transaction. -/
inductive Handler (ι σ ε α : Type*)
  | done (result : Except ε α)
  | step (after : ι → σ → σ) (rest : ι → σ → Handler ι σ ε α)

namespace Handler

universe u

variable {ι σ ε ε' : Type*} {α β : Type u}

/-- Go on with the result, unless there is an error. -/
def bind : Handler ι σ ε α → (α → Handler ι σ ε β) → Handler ι σ ε β
  | done (.ok a), f => f a
  | done (.error e), _ => done (.error e)
  | step after rest, f => step after fun i s => (rest i s).bind f

instance : Monad (Handler ι σ ε) where
  pure a := done (.ok a)
  bind := bind

/-- Change the result. -/
def mapResult (g : Except ε α → Except ε' β) : Handler ι σ ε α → Handler ι σ ε' β
  | done r => done (g r)
  | step after rest => step after fun i s => (rest i s).mapResult g

/-- Change the error. -/
def mapError (g : ε → ε') (h : Handler ι σ ε α) : Handler ι σ ε' α :=
  h.mapResult fun r => r.mapError g

/-- The result, or nothing after an error. -/
def toOption (h : Handler ι σ ε α) : Handler ι σ ε' (Option α) :=
  h.mapResult fun r => .ok r.toOption

/-- A transaction : it commits, or it returns an error and rolls back. -/
def transact (f : ι → σ → Except ε (α × σ)) : Handler ι σ ε α :=
  step (fun i s => match f i s with
    | .ok r => r.2
    | .error _ => s)
    fun i s => done ((f i s).map Prod.fst)

/-- A transaction that only reads. -/
def query (f : ι → σ → Except ε α) : Handler ι σ ε α :=
  transact fun i s => (f i s).map fun a => (a, s)

/-- A loop that collects the results. -/
def forEach (f : α → Handler ι σ ε β) : List α → Handler ι σ ε (List β)
  | [] => pure []
  | a :: as => do
    let b ← f a
    let bs ← forEach f as
    pure (b :: bs)

/-- Run a handler by itself, each transaction with the next input. -/
def run : Handler ι σ ε α → (ℕ → ι) → σ → Except ε α × σ
  | done r, _, s => (r, s)
  | step after rest, inputs, s =>
    (rest (inputs 0) s).run (fun n => inputs (n + 1)) (after (inputs 0) s)

/-- Every transaction of the run gets an input that is right for the state it finds. -/
def Supplied (fresh : ι → σ → Prop) : Handler ι σ ε α → (ℕ → ι) → σ → Prop
  | done _, _, _ => True
  | step after rest, inputs, s => fresh (inputs 0) s ∧
    (rest (inputs 0) s).Supplied fresh (fun n => inputs (n + 1)) (after (inputs 0) s)

/-! ## Contracts -/

/-- What handlers promise, and what they may rely on. -/
structure Discipline (ι σ : Type*) where
  inv : σ → Prop
  /-- How the state may evolve. -/
  le : σ → σ → Prop
  le_refl : ∀ s, le s s
  le_trans : ∀ {s t u}, le s t → le t u → le s u
  /-- What an input promises. -/
  fresh : ι → σ → Prop
  /-- The part of the state a handler is to stay in. -/
  view : σ → σ
  /-- What a transaction keeps, besides. -/
  keep : σ → σ → Prop
  keep_refl : ∀ s, keep s s
  keep_trans : ∀ {s t u}, keep s t → keep t u → keep s u

variable (D : Discipline ι σ)

/-- A transaction, from a state with the invariant. -/
structure Discipline.Step (after : ι → σ → σ) (i : ι) (s : σ) : Prop where
  inv : D.inv (after i s)
  le : D.le s (after i s)
  keep : D.keep s (after i s)
  view : after i (D.view s) = D.view (after i s)

/-- The contract of a handler that has seen the state `s`. -/
def Obeys (P : α → σ → Prop) : Handler ι σ ε α → σ → Prop
  | done r, s => ∀ s', D.le s s' → D.inv s' → ∀ a, r = .ok a → P a s'
  | step after rest, s => ∀ s', D.le s s' → D.inv s' → ∀ i, D.fresh i s' →
    D.Step after i s' ∧ rest i (D.view s') = rest i s' ∧ (rest i s').Obeys P (after i s')

variable {D} {P : α → σ → Prop} {P' : β → σ → Prop} {s s' : σ}

/-- A contract survives what others do. -/
theorem Obeys.mono {h : Handler ι σ ε α} (hh : h.Obeys D P s) (hs : D.le s s') :
    h.Obeys D P s' := by
  cases h with
  | done r => exact fun u hu => hh u (D.le_trans hs hu)
  | step after rest => exact fun u hu => hh u (D.le_trans hs hu)

/-- A contract with a weaker result. -/
theorem Obeys.imp {P' : α → σ → Prop} {h : Handler ι σ ε α} (hh : h.Obeys D P s)
    (hP : ∀ a s, P a s → P' a s) : h.Obeys D P' s := by
  induction h generalizing s with
  | done r => exact fun u hu hinv a ha => hP a u (hh u hu hinv a ha)
  | step after rest ih =>
    intro u hu hinv i hi
    obtain ⟨hstep, hrest, hcont⟩ := hh u hu hinv i hi
    exact ⟨hstep, hrest, ih i u hcont⟩

/-- A result comes after what was seen. -/
theorem Obeys.later {h : Handler ι σ ε α} (hh : h.Obeys D P s) :
    h.Obeys D (fun a s' => P a s' ∧ D.le s s') s := by
  -- the order is kept from the state `u` the handler is told about
  have hfrom : ∀ u, D.le u s → h.Obeys D (fun a s' => P a s' ∧ D.le u s') s := by
    induction h generalizing s with
    | done r => exact fun u hu v hv hinv a ha => ⟨hh v hv hinv a ha, D.le_trans hu hv⟩
    | step after rest ih =>
      intro u hu v hv hinv i hi
      obtain ⟨hstep, hrest, hcont⟩ := hh v hv hinv i hi
      refine ⟨hstep, hrest, ih i v hcont u ?_⟩
      exact D.le_trans hu (D.le_trans hv hstep.le)
  exact hfrom s (D.le_refl s)

theorem obeys_pure {a : α} (h : ∀ s', D.le s s' → D.inv s' → P a s') :
    (pure a : Handler ι σ ε α).Obeys D P s := by
  intro u hu hinv b hb
  cases hb
  exact h u hu hinv

/-- An error ends the handler. -/
theorem obeys_error (e : ε) : (done (.error e) : Handler ι σ ε α).Obeys D P s := by
  intro u _ _ a ha
  cases ha

/-- The rule of a sequence. -/
theorem Obeys.bind {h : Handler ι σ ε α} {f : α → Handler ι σ ε β} (hh : h.Obeys D P s)
    (hs : D.inv s) (hf : ∀ a s, D.inv s → P a s → (f a).Obeys D P' s) :
    (h >>= f).Obeys D P' s := by
  change (Handler.bind h f).Obeys D P' s
  induction h generalizing s with
  | done r =>
    cases r with
    | ok a => exact hf a s hs (hh s (D.le_refl s) hs a rfl)
    | error e => exact obeys_error e
  | step after rest ih =>
    intro u hu hinv i hi
    obtain ⟨hstep, hrest, hcont⟩ := hh u hu hinv i hi
    exact ⟨hstep, congrArg (fun h => Handler.bind h f) hrest, ih i u hcont hstep.inv⟩

/-- The result is only repackaged. -/
theorem Obeys.andThen {h : Handler ι σ ε α} {g : α → β} (hh : h.Obeys D P s) (hs : D.inv s) :
    (h >>= fun a => pure (g a)).Obeys D (fun _ _ => True) s :=
  hh.bind hs fun _ _ _ _ => obeys_pure fun _ _ _ => trivial

/-- The rule of a check, before the rest. -/
theorem obeys_check {r : Except ε α} {f : α → Handler ι σ ε β}
    (hf : ∀ a, r = .ok a → (f a).Obeys D P' s) :
    ((done r : Handler ι σ ε α) >>= f).Obeys D P' s := by
  cases r with
  | ok a => exact hf a rfl
  | error e => exact obeys_error e

theorem Obeys.mapResult {g : Except ε α → Except ε' β} {h : Handler ι σ ε α}
    (hh : h.Obeys D P s)
    (hg : ∀ r b s', (∀ a, r = .ok a → P a s') → g r = .ok b → P' b s') :
    (h.mapResult g).Obeys D P' s := by
  induction h generalizing s with
  | done r => exact fun u hu hinv b hb => hg r b u (hh u hu hinv) hb
  | step after rest ih =>
    intro u hu hinv i hi
    obtain ⟨hstep, hrest, hcont⟩ := hh u hu hinv i hi
    exact ⟨hstep, congrArg (Handler.mapResult g) hrest, ih i u hcont⟩

theorem Obeys.mapError {g : ε → ε'} {h : Handler ι σ ε α} (hh : h.Obeys D P s) :
    (h.mapError g).Obeys D P s := by
  refine hh.mapResult fun r b u hr hb => ?_
  cases r with
  | ok a =>
    cases hb
    exact hr _ rfl
  | error e => cases hb

theorem Obeys.toOption {h : Handler ι σ ε α} (hh : h.Obeys D P s) :
    (h.toOption : Handler ι σ ε' (Option α)).Obeys D (fun _ _ => True) s :=
  hh.mapResult fun _ _ _ _ _ => trivial

/-- What a transaction does, from a state with the invariant. -/
structure Discipline.Transaction (D : Discipline ι σ) (f : ι → σ → Except ε (α × σ)) (i : ι)
    (s : σ) : Prop where
  view : f i (D.view s) = (f i s).map (Prod.map id D.view)
  ok : ∀ a s', f i s = .ok (a, s') → D.inv s' ∧ D.le s s' ∧ D.keep s s'

/-- The rule of a transaction. -/
theorem obeys_transact {f : ι → σ → Except ε (α × σ)}
    (hf : ∀ s', D.le s s' → D.inv s' → ∀ i, D.fresh i s' → D.Transaction f i s')
    (hok : ∀ i s₁ a s₂, D.le s s₁ → D.inv s₁ → f i s₁ = .ok (a, s₂) →
      ∀ s', D.le s₂ s' → D.inv s' → P a s') :
    (transact f).Obeys D P s := by
  intro u hu hinv i hi
  obtain ⟨hview, hcommit⟩ := hf u hu hinv i hi
  cases hr : f i u with
  | error e =>
    have hview' : f i (D.view u) = .error e := by rw [hview, hr]; rfl
    refine ⟨⟨?_, ?_, ?_, ?_⟩, ?_, ?_⟩
    · simpa [hr] using hinv
    · simpa [hr] using D.le_refl u
    · simpa [hr] using D.keep_refl u
    · simp [hr, hview']
    · simp [hr, hview']
    · simp only [hr]
      exact obeys_error e
  | ok r =>
    obtain ⟨a, u'⟩ := r
    have hview' : f i (D.view u) = .ok (a, D.view u') := by rw [hview, hr]; rfl
    obtain ⟨hinv', hle, hkeep⟩ := hcommit a u' hr
    refine ⟨⟨?_, ?_, ?_, ?_⟩, ?_, ?_⟩
    · simpa [hr] using hinv'
    · simpa [hr] using hle
    · simpa [hr] using hkeep
    · simp [hr, hview']
    · simp [hr, hview', Except.map]
    · simp only [hr]
      exact obeys_pure fun v hv hinv => hok i u a u' hu ‹_› hr v hv hinv

/-- The rule of a query : its result is a function of the view, and what it has found stays. -/
theorem obeys_query {f : ι → σ → Except ε α}
    (hf : ∀ s', D.le s s' → D.inv s' → ∀ i, D.fresh i s' → f i (D.view s') = f i s')
    (hok : ∀ i s₁ a, D.le s s₁ → D.inv s₁ → f i s₁ = .ok a → P a s₁)
    (hmono : ∀ a s₁ s₂, D.le s₁ s₂ → P a s₁ → P a s₂) :
    (query f).Obeys D P s := by
  -- a query that succeeds leaves the state
  have hquery : ∀ {i u a u'}, (f i u).map (fun a => (a, u)) = .ok (a, u') →
      u' = u ∧ f i u = .ok a := by
    intro i u a u' hr
    cases hfu : f i u with
    | error e => simp [hfu, Except.map] at hr
    | ok b =>
      simp only [hfu, Except.map, Except.ok.injEq, Prod.mk.injEq] at hr
      exact ⟨hr.2.symm, by rw [hr.1]⟩
  refine obeys_transact (fun u hu hinv i hi => ⟨?_, fun a u' hr => ?_⟩)
    fun i u a u' hu hinv hr v hv _ => ?_
  · rw [hf u hu hinv i hi]
    cases f i u <;> rfl
  · obtain ⟨rfl, -⟩ := hquery hr
    exact ⟨hinv, D.le_refl _, D.keep_refl _⟩
  · obtain ⟨rfl, hfu⟩ := hquery hr
    exact hmono a u' v hv (hok i u' a hu hinv hfu)

/-- The rule of a loop. -/
theorem obeys_forEach {f : α → Handler ι σ ε β} {as : List α}
    (hf : ∀ a ∈ as, ∀ s, D.inv s → (f a).Obeys D (fun _ _ => True) s) (hs : D.inv s) :
    (forEach f as).Obeys D (fun _ _ => True) s := by
  induction as generalizing s with
  | nil => exact obeys_pure fun _ _ _ => trivial
  | cons a as ih =>
    refine (hf a (by simp) s hs).bind hs fun b u hu _ => ?_
    refine (ih (fun c hc => hf c (by simp [hc])) hu).bind hu fun bs v _ _ => ?_
    exact obeys_pure fun _ _ _ => trivial

/-! ## Runs -/

/-- Run by itself, a handler keeps the invariant and what its transactions keep, and gives in
the view of a state the view of what it gives in the state. -/
theorem Obeys.run {h : Handler ι σ ε α} (hh : h.Obeys D P s) (hs : D.inv s) {inputs : ℕ → ι}
    (hsup : h.Supplied D.fresh inputs s) :
    h.run inputs (D.view s) = ((h.run inputs s).1, D.view (h.run inputs s).2) ∧
      D.inv (h.run inputs s).2 ∧ D.le s (h.run inputs s).2 ∧ D.keep s (h.run inputs s).2 := by
  induction h generalizing s inputs with
  | done r => exact ⟨rfl, hs, D.le_refl s, D.keep_refl s⟩
  | step after rest ih =>
    obtain ⟨hstep, hrest, hcont⟩ := hh s (D.le_refl s) hs (inputs 0) hsup.1
    obtain ⟨hview, hinv, hle, hkeep⟩ := ih (inputs 0) s hcont hstep.inv hsup.2
    refine ⟨?_, hinv, D.le_trans hstep.le hle, D.keep_trans hstep.keep hkeep⟩
    simp only [Handler.run, hrest, hstep.view]
    exact hview

/-! ## What transactions can do -/

/-- Every transaction is one of `R`, and every result one of `Q`, whatever the states and the
inputs are. -/
def Within (R : ι → σ → σ → Prop) (Q : α → Prop) : Handler ι σ ε α → Prop
  | done r => ∀ a, r = .ok a → Q a
  | step after rest => ∀ i s, R i s (after i s) ∧ (rest i s).Within R Q

variable {R : ι → σ → σ → Prop} {Q : α → Prop} {Q' : β → Prop}

theorem within_pure {a : α} (h : Q a) : (pure a : Handler ι σ ε α).Within R Q := by
  intro b hb
  cases hb
  exact h

theorem within_error (e : ε) : (done (.error e) : Handler ι σ ε α).Within R Q :=
  fun _ h => nomatch h

theorem Within.mono {R' : ι → σ → σ → Prop} {Q' : α → Prop} {h : Handler ι σ ε α}
    (hh : h.Within R Q) (hR : ∀ i s s', R i s s' → R' i s s') (hQ : ∀ a, Q a → Q' a) :
    h.Within R' Q' := by
  induction h with
  | done r => exact fun a ha => hQ a (hh a ha)
  | step after rest ih => exact fun i s => ⟨hR _ _ _ (hh i s).1, ih i s (hh i s).2⟩

/-- The rule of a sequence. -/
theorem Within.bind {h : Handler ι σ ε α} {f : α → Handler ι σ ε β} (hh : h.Within R Q)
    (hf : ∀ a, Q a → (f a).Within R Q') : (h >>= f).Within R Q' := by
  change (Handler.bind h f).Within R Q'
  induction h with
  | done r =>
    cases r with
    | ok a => exact hf a (hh a rfl)
    | error e => exact within_error e
  | step after rest ih => exact fun i s => ⟨(hh i s).1, ih i s (hh i s).2⟩

/-- The rule of a check, before the rest. -/
theorem within_check {r : Except ε α} {f : α → Handler ι σ ε β}
    (hf : ∀ a, r = .ok a → (f a).Within R Q') :
    ((done r : Handler ι σ ε α) >>= f).Within R Q' := by
  cases r with
  | ok a => exact hf a rfl
  | error e => exact within_error e

theorem Within.mapResult {g : Except ε α → Except ε' β} {h : Handler ι σ ε α}
    (hh : h.Within R Q) (hg : ∀ r b, (∀ a, r = .ok a → Q a) → g r = .ok b → Q' b) :
    (h.mapResult g).Within R Q' := by
  induction h with
  | done r => exact fun b hb => hg r b hh hb
  | step after rest ih => exact fun i s => ⟨(hh i s).1, ih i s (hh i s).2⟩

theorem Within.mapError {g : ε → ε'} {h : Handler ι σ ε α} (hh : h.Within R Q) :
    (h.mapError g).Within R Q := by
  refine hh.mapResult fun r b hr hb => ?_
  cases r with
  | ok a =>
    cases hb
    exact hr _ rfl
  | error e => cases hb

/-- The rule of a transaction, which may roll back. -/
theorem within_transact {f : ι → σ → Except ε (α × σ)} (hrefl : ∀ i s, R i s s)
    (hf : ∀ i s a s', f i s = .ok (a, s') → R i s s') :
    (transact f).Within R (fun _ => True) := by
  refine fun i s => ⟨?_, fun _ _ => trivial⟩
  cases hr : f i s with
  | error e => simpa only [hr] using hrefl i s
  | ok r => simpa only [hr] using hf i s r.1 r.2 hr

/-- The rule of a query. -/
theorem within_query {f : ι → σ → Except ε α} (hrefl : ∀ i s, R i s s) :
    (query f).Within R (fun _ => True) := by
  refine within_transact hrefl fun i s a s' h => ?_
  cases hf : f i s with
  | error e => simp [hf, Except.map] at h
  | ok b =>
    simp only [hf, Except.map, Except.ok.injEq, Prod.mk.injEq] at h
    exact h.2 ▸ hrefl i s

/-- The rule of a loop. -/
theorem within_forEach {f : α → Handler ι σ ε β} {Q : α → β → Prop} {as : List α}
    (hf : ∀ a ∈ as, (f a).Within R (Q a)) : (forEach f as).Within R (List.Forall₂ Q as) := by
  induction as with
  | nil => exact within_pure .nil
  | cons a as ih =>
    refine (hf a (by simp)).bind fun b hb => ?_
    refine (ih fun c hc => hf c (by simp [hc])).bind fun bs hbs => ?_
    exact within_pure (.cons hb hbs)

/-- A handler whose transactions keep the invariant and the order obeys a discipline that does not
restrict what it sees. -/
theorem Within.obeys {h : Handler ι σ ε α} (hh : h.Within R Q) (hview : ∀ s, D.view s = s)
    (hR : ∀ i s s', R i s s' → D.inv s → D.fresh i s → D.inv s' ∧ D.le s s' ∧ D.keep s s') :
    ∀ s, h.Obeys D (fun a _ => Q a) s := by
  induction h with
  | done r => exact fun s u _ _ a ha => hh a ha
  | step after rest ih =>
    intro s u _ hinv i hi
    obtain ⟨hinv', hle, hkeep⟩ := hR i u _ (hh i u).1 hinv hi
    refine ⟨⟨hinv', hle, hkeep, ?_⟩, ?_, ih i u (hh i u).2 _⟩
    · rw [hview, hview]
    · rw [hview]

end Handler
