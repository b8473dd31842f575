import RunMesh.ReadCommitted

/-!
# Transactions that lock what they write

Transactions that lock different rows need not wait for each other, and none of them is a
gate for the others. Still their commits are in a serial order, if each keeps to rules they
all share (`Rules`) : it writes only to rows it has locked (`Program.Careful`), and from the
end of its first statement on nothing it reads can change under it, since it has locked it or
since it changes in one direction only (`Program.Steady`). What a transaction does may depend
on the rows it found when it started, so it is given as a relation. `locking_serial` says that
the committed state is that of the committed transactions in the order they committed in,
each doing what its relation allows.
-/

namespace ReadCommitted

universe u

variable {ι : Type*} {σ κ ρ ε : Type u}

/-! ## The rules -/

/-- What a group of transactions agrees on. -/
structure Rules (σ κ : Type u) where
  /-- What holds of every committed state. -/
  Inv : σ → Prop
  /-- The second state can come after the first. -/
  Later : σ → σ → Prop
  /-- The row is the same in both states. -/
  Same : κ → σ → σ → Prop
  later_refl : ∀ db, Later db db
  later_trans : ∀ {a b c}, Later a b → Later b c → Later a c
  same_refl : ∀ k db, Same k db db
  same_trans : ∀ {k a b c}, Same k a b → Same k b c → Same k a c

/-- What the others can make of the committed state while the rows are locked. -/
structure Rules.Rely (R : Rules σ κ) (held : List κ) (db d : σ) : Prop where
  inv : R.Inv d
  later : R.Later db d
  same : ∀ k ∈ held, R.Same k db d

namespace Rules.Rely

variable {R : Rules σ κ} {held held' : List κ} {a b c : σ}

theorem refl (h : R.Inv a) : R.Rely held a a :=
  ⟨h, R.later_refl a, fun k _ => R.same_refl k a⟩

theorem trans (h : R.Rely held a b) (h' : R.Rely held b c) : R.Rely held a c :=
  ⟨h'.inv, R.later_trans h.later h'.later, fun k hk => R.same_trans (h.same k hk) (h'.same k hk)⟩

theorem mono (h : R.Rely held a b) (hsub : held' ⊆ held) : R.Rely held' a b :=
  ⟨h.inv, h.later, fun k hk => h.same k (hsub hk)⟩

end Rules.Rely

/-- Every statement writes only to the rows it locks. -/
inductive Program.Careful (R : Rules σ κ) : Program σ κ ρ ε → Prop
  | commit : Careful R .commit
  | rollback (e : ε) : Careful R (.rollback e)
  | stmt {s : Stmt σ κ ρ} {k : ρ → Program σ κ ρ ε}
      (hwrite : ∀ snap d r, r ∉ s.locks snap → R.Same r d (s.write snap d))
      (hk : ∀ r, Careful R (k r)) : Careful R (.stmt s k)

/-- With the writes `w` done to whatever others have made of `db`, each statement does on a
later state what it would had it started from it, and the program goes on in one way. -/
inductive Program.Steady (R : Rules σ κ) (held : List κ) (db : σ) :
    (σ → σ) → Program σ κ ρ ε → Prop
  | commit (w : σ → σ) : Steady R held db w .commit
  | rollback (w : σ → σ) (e : ε) : Steady R held db w (.rollback e)
  | stmt {w : σ → σ} {s : Stmt σ κ ρ} {k : ρ → Program σ κ ρ ε} (p : Program σ κ ρ ε)
      (hresult : ∀ d d', R.Rely held db d → R.Rely held d d' → k (s.result (w d) (w d')) = p)
      (hwrite : ∀ d d', R.Rely held db d → R.Rely held d d' →
        s.write (w d) (w d') = s.write (w d') (w d'))
      (hp : Steady R held db (fun d => s.write (w d) (w d)) p) : Steady R held db w (.stmt s k)

/-- With these rows locked on `db`, the writes `w` done and this program left, a transaction is
steady, and if it commits does what `Spec` allows. -/
structure Settled (R : Rules σ κ) (Spec : σ → σ → Prop) (held : List κ) (db : σ) (w : σ → σ)
    (rest : Program σ κ ρ ε) : Prop where
  steady : rest.Steady R held db w
  spec : ∀ d d', R.Rely held db d → rest.exec (w d) = .ok d' → Spec d d'

/-- The program settles with its first statement. -/
def Program.Settles (R : Rules σ κ) (Spec : σ → σ → Prop) : Program σ κ ρ ε → Prop
  | .commit => False
  | .rollback _ => True
  | .stmt s k => ∀ snap db, R.Inv snap → R.Inv db → R.Later snap db →
    Settled R Spec (s.locks snap) db (s.write snap) (k (s.result snap db))

section Settled

variable {R : Rules σ κ} {Spec : σ → σ → Prop} {held : List κ} {db db' : σ} {w w' : σ → σ}
  {rest : Program σ κ ρ ε}

/-- The commits of others leave it steady. -/
theorem Program.Steady.rely (h : rest.Steady R held db w) (hrely : R.Rely held db db') :
    rest.Steady R held db' w := by
  induction h with
  | commit w => exact .commit w
  | rollback w e => exact .rollback w e
  | stmt p hresult hwrite _ ih =>
    exact .stmt p (fun d d' hd => hresult d d' (hrely.trans hd))
      (fun d d' hd => hwrite d d' (hrely.trans hd)) ih

/-- Only what is written to the states others can lead to matters. -/
theorem Program.Steady.congr (h : rest.Steady R held db w)
    (hw : ∀ d, R.Rely held db d → w' d = w d) : rest.Steady R held db w' := by
  induction h generalizing w' with
  | commit w => exact .commit w'
  | rollback w e => exact .rollback w' e
  | @stmt w s k p hresult hwrite _ ih =>
    refine .stmt p (fun d d' hd hd' => ?_) (fun d d' hd hd' => ?_) (ih fun d hd => ?_)
    · rw [hw d hd, hw d' (hd.trans hd')]
      exact hresult d d' hd hd'
    · rw [hw d hd, hw d' (hd.trans hd')]
      exact hwrite d d' hd hd'
    · dsimp only
      rw [hw d hd]

/-- A transaction that gives up has nothing to keep to. -/
theorem Settled.rollback (w : σ → σ) (e : ε) :
    Settled R Spec held db w (.rollback e : Program σ κ ρ ε) :=
  ⟨.rollback w e, fun _ _ _ hexec => by cases hexec⟩

/-- The next statement ends on `db'`, having started from `db`. -/
theorem Settled.finish {s : Stmt σ κ ρ} {k : ρ → Program σ κ ρ ε} {base : σ}
    (h : Settled R Spec held base w (.stmt s k)) (hstart : R.Rely held base db)
    (hend : R.Rely held db db') :
    Settled R Spec held db' (s.write (w db) ∘ w) (k (s.result (w db) (w db'))) := by
  cases h.steady with
  | stmt p hresult hwrite hp =>
    have hbase := hstart.trans hend
    -- what it writes does not depend on where it started
    have heq : ∀ d, R.Rely held db' d → s.write (w db) (w d) = s.write (w d) (w d) :=
      fun d hd => hwrite db d hstart (hend.trans hd)
    rw [hresult db db' hstart hend]
    refine ⟨(hp.rely hbase).congr heq, fun d d' hd hexec => ?_⟩
    have hself := hbase.trans hd
    refine h.spec d d' hself ?_
    rw [Program.exec, hresult d d hself (.refl hd.inv), ← heq d hd]
    exact hexec

end Settled

/-! ## One transaction -/

/-- The transaction has written only to rows it has locked, and will do so. -/
structure Tx.Careful (R : Rules σ κ) (t : Tx σ κ ρ ε) : Prop where
  rest : t.rest.Careful R
  writes : ∀ d r, r ∉ t.held → R.Same r d (t.writes d)
  running : ∀ snap rs, t.running = some (snap, rs) →
    ∃ st k, t.rest = .stmt st k ∧ ∀ r ∈ st.locks snap, r ∈ t.held ∨ r ∈ rs

namespace Tx.Careful

variable {R : Rules σ κ} {db snap : σ} {t : Tx σ κ ρ ε} {st : Stmt σ κ ρ}
  {k : ρ → Program σ κ ρ ε}

theorem start (h : t.Careful R) (hst : t.rest = .stmt st k) (db : σ) :
    (t.start db).Careful R := by
  have hstart : t.start db = { t with running := some (t.writes db, st.locks (t.writes db)) } := by
    simp [Tx.start, hst]
  rw [hstart]
  refine ⟨h.rest, h.writes, fun snap rs hrun => ?_⟩
  cases hrun
  exact ⟨st, k, hst, fun r hr => .inr hr⟩

theorem lock (h : t.Careful R) {r : κ} {rs : List κ} (hrun : t.running = some (snap, r :: rs)) :
    t.lock.Careful R := by
  have hlock : t.lock = { t with running := some (snap, rs), held := r :: t.held } := by
    simp [Tx.lock, hrun]
  obtain ⟨st, k, hst, hlocks⟩ := h.running _ _ hrun
  rw [hlock]
  refine ⟨h.rest, fun d q hq => h.writes d q fun hmem => hq (.tail _ hmem),
    fun snap' rs' hrun' => ?_⟩
  cases hrun'
  refine ⟨st, k, hst, fun q hq => ?_⟩
  rcases hlocks q hq with hheld | hleft
  · exact .inl (.tail _ hheld)
  · rcases List.mem_cons.1 hleft with rfl | hleft
    · exact .inl (.head _)
    · exact .inr hleft

theorem locks_subset (h : t.Careful R) (hst : t.rest = .stmt st k)
    (hrun : t.running = some (snap, [])) : st.locks snap ⊆ t.held := by
  obtain ⟨st', k', hst', hlocks⟩ := h.running _ _ hrun
  rw [hst] at hst'
  cases hst'
  exact fun r hr => (hlocks r hr).resolve_right (by simp)

theorem finish_eq (hst : t.rest = .stmt st k) {rs : List κ} (hrun : t.running = some (snap, rs)) :
    t.finish db = { t with
      rest := k (st.result snap (t.writes db))
      writes := st.write snap ∘ t.writes
      running := none
      finished := t.finished + 1 } := by
  simp [Tx.finish, hst, hrun]

theorem finish (h : t.Careful R) (hst : t.rest = .stmt st k)
    (hrun : t.running = some (snap, [])) (db : σ) : (t.finish db).Careful R := by
  have hrest := h.rest
  rw [hst] at hrest
  rw [finish_eq hst hrun]
  cases hrest with
  | stmt hwrite hk =>
    refine ⟨hk _, fun d r hr => ?_, fun _ _ hrun' => by cases hrun'⟩
    exact R.same_trans (h.writes d r hr)
      (hwrite snap _ r fun hmem => hr (h.locks_subset hst hrun hmem))

end Tx.Careful

/-- Where a transaction can be : its first statement has not ended, it has settled, or it has
ended. -/
inductive Standing (R : Rules σ κ) (Spec : σ → σ → Prop) (p : Program σ κ ρ ε) (db : σ)
    (t : Tx σ κ ρ ε) : Prop
  | before (hcareful : t.Careful R) (hrest : t.rest = p) (hwrites : ∀ d, t.writes d = d)
      (hrun : ∀ snap rs, t.running = some (snap, rs) → R.Inv snap ∧ R.Later snap db)
  | inside (hcareful : t.Careful R) {held : List κ} {base : σ} (hheld : held ⊆ t.held)
      (hbase : R.Rely held base db) (hsettled : Settled R Spec held base t.writes t.rest)
      (hrun : ∀ snap rs, t.running = some (snap, rs) →
        ∃ d, snap = t.writes d ∧ R.Rely held base d ∧ R.Rely held d db)
  | ended (hrest : t.rest.isStmt = false) (hout : t.outcome ≠ none) (hrun : t.running = none)

namespace Standing

variable {R : Rules σ κ} {Spec : σ → σ → Prop} {p : Program σ κ ρ ε} {db db' : σ}
  {t : Tx σ κ ρ ε}

/-- The commits of others do not matter. -/
theorem rely (h : Standing R Spec p db t) (hrely : R.Rely t.held db db') :
    Standing R Spec p db' t := by
  cases h with
  | before hcareful hrest hwrites hrun =>
    exact .before hcareful hrest hwrites fun snap rs h =>
      ⟨(hrun snap rs h).1, R.later_trans (hrun snap rs h).2 hrely.later⟩
  | inside hcareful hheld hbase hsettled hrun =>
    have hrely := hrely.mono hheld
    refine .inside hcareful hheld (hbase.trans hrely) hsettled fun snap rs h => ?_
    obtain ⟨d, hsnap, hd, hlate⟩ := hrun snap rs h
    exact ⟨d, hsnap, hd, hlate.trans hrely⟩
  | ended hrest hout hrun => exact .ended hrest hout hrun

theorem start (h : Standing R Spec p db t) (hinv : R.Inv db) {st : Stmt σ κ ρ}
    {k : ρ → Program σ κ ρ ε} (hst : t.rest = .stmt st k) : Standing R Spec p db (t.start db) := by
  have hstart : t.start db = { t with running := some (t.writes db, st.locks (t.writes db)) } := by
    simp [Tx.start, hst]
  cases h with
  | before hcareful hrest hwrites _ =>
    have hcareful := hcareful.start hst db
    rw [hstart] at hcareful ⊢
    refine .before hcareful hrest hwrites fun snap rs hrun => ?_
    cases hrun
    rw [hwrites db]
    exact ⟨hinv, R.later_refl db⟩
  | inside hcareful hheld hbase hsettled _ =>
    have hcareful := hcareful.start hst db
    rw [hstart] at hcareful ⊢
    refine .inside hcareful hheld hbase hsettled fun snap rs hrun => ?_
    cases hrun
    exact ⟨db, rfl, hbase, .refl hinv⟩
  | ended hrest => simp [hst, Program.isStmt] at hrest

theorem lock (h : Standing R Spec p db t) {snap : σ} {r : κ} {rs : List κ}
    (hrun : t.running = some (snap, r :: rs)) : Standing R Spec p db t.lock := by
  have hlock : t.lock = { t with running := some (snap, rs), held := r :: t.held } := by
    simp [Tx.lock, hrun]
  cases h with
  | before hcareful hrest hwrites hsnap =>
    have hcareful := hcareful.lock hrun
    rw [hlock] at hcareful ⊢
    refine .before hcareful hrest hwrites fun snap' rs' hrun' => ?_
    cases hrun'
    exact hsnap _ _ hrun
  | inside hcareful hheld hbase hsettled hsnap =>
    have hcareful := hcareful.lock hrun
    rw [hlock] at hcareful ⊢
    refine .inside hcareful (List.subset_cons_of_subset _ hheld) hbase hsettled
      fun snap' rs' hrun' => ?_
    cases hrun'
    exact hsnap _ _ hrun
  | ended _ _ hnone => simp [hrun] at hnone

theorem finish (h : Standing R Spec p db t) (hp : p.Settles R Spec) (hinv : R.Inv db) {snap : σ}
    (hrun : t.running = some (snap, [])) : Standing R Spec p db (t.finish db) := by
  cases h with
  | before hcareful hrest hwrites hsnap =>
    obtain ⟨st, k, hst, -⟩ := hcareful.running _ _ hrun
    have hsub := hcareful.locks_subset hst hrun
    have hcareful := hcareful.finish hst hrun db
    rw [Tx.Careful.finish_eq hst hrun] at hcareful ⊢
    rw [← hrest, hst] at hp
    obtain ⟨hIs, hlate⟩ := hsnap _ _ hrun
    have hid : st.write snap ∘ t.writes = st.write snap := funext fun d => by simp [hwrites]
    refine .inside hcareful hsub (.refl hinv) ?_ fun _ _ hrun' => by cases hrun'
    dsimp only
    rw [hid, hwrites db]
    exact hp snap db hIs hinv hlate
  | inside hcareful hheld hbase hsettled hsnap =>
    obtain ⟨st, k, hst, -⟩ := hcareful.running _ _ hrun
    have hcareful := hcareful.finish hst hrun db
    rw [Tx.Careful.finish_eq hst hrun] at hcareful ⊢
    obtain ⟨d, rfl, hd, hlate⟩ := hsnap _ _ hrun
    rw [hst] at hsettled
    exact .inside hcareful hheld (.refl hinv) (hsettled.finish hd hlate)
      fun _ _ hrun' => by cases hrun'
  | ended _ _ hnone => simp [hrun] at hnone

theorem close (hrest : t.rest = .commit ∨ ∃ e, t.rest = .rollback e) :
    Standing R Spec p db t.close := by
  rcases hrest with hrest | ⟨e, hrest⟩ <;>
    exact .ended (by simp [Tx.close, hrest, Program.isStmt]) (by simp [Tx.close, hrest])
      (by simp [Tx.close, hrest])

/-- A transaction that commits does what its relation allows, and leaves the rows it has not
locked. -/
theorem commit (h : Standing R Spec p db t) (hp : p.Settles R Spec)
    (hout : t.outcome = none) (hrest : t.rest = .commit) :
    Spec db (t.writes db) ∧ ∀ r, r ∉ t.held → R.Same r db (t.writes db) := by
  cases h with
  | before _ hp' =>
    rw [← hp', hrest] at hp
    exact hp.elim
  | inside hcareful _ hbase hsettled _ =>
    refine ⟨hsettled.spec db _ hbase ?_, hcareful.writes db⟩
    rw [hrest, Program.exec]
  | ended _ hout' => exact absurd hout hout'

end Standing

/-! ## The transactions together -/

/-- The steps one after the other. -/
def Executes (Spec : ι → σ → σ → Prop) : List ι → σ → σ → Prop
  | [], db, db' => db' = db
  | i :: is, db, db' => ∃ d, Spec i db d ∧ Executes Spec is d db'

theorem Executes.snoc {Spec : ι → σ → σ → Prop} {i : ι} {is : List ι} : ∀ {db db' db'' : σ},
    Executes Spec is db db' → Spec i db' db'' → Executes Spec (is ++ [i]) db db'' := by
  induction is with
  | nil =>
    rintro db _ db'' rfl hi
    exact ⟨db'', hi, rfl⟩
  | cons j is ih =>
    rintro db db' db'' ⟨d, hj, his⟩ hi
    exact ⟨d, hj, ih his hi⟩

/-- What every step keeps. -/
theorem Executes.invariant {Spec : ι → σ → σ → Prop} {P : σ → Prop}
    (hstep : ∀ i db db', P db → Spec i db db' → P db') {is : List ι} : ∀ {db db' : σ},
    Executes Spec is db db' → P db → P db' := by
  induction is with
  | nil =>
    rintro db _ rfl hP
    exact hP
  | cons i is ih =>
    rintro db db' ⟨d, hi, his⟩ hP
    exact ih his (hstep i db d hP hi)

/-- What one step brings about and all the others keep. -/
theorem Executes.of_mem {Spec : ι → σ → σ → Prop} {P Q : σ → Prop} {i : ι}
    (hstep : ∀ j db db', P db → Spec j db db' → P db')
    (hmade : ∀ db db', P db → Spec i db db' → Q db')
    (hkept : ∀ j db db', P db → Q db → Spec j db db' → Q db') {is : List ι} (hi : i ∈ is) :
    ∀ {db db' : σ}, Executes Spec is db db' → P db → Q db' := by
  induction is with
  | nil => cases hi
  | cons j is ih =>
    rintro db db' ⟨d, hj, his⟩ hP
    have hPd := hstep j db d hP hj
    rcases List.mem_cons.1 hi with rfl | hi
    · exact (his.invariant (P := fun db => P db ∧ Q db)
        (fun k a b h hk => ⟨hstep k a b h.1 hk, hkept k a b h.1 h.2 hk⟩)
        ⟨hPd, hmade db d hP hj⟩).2
    · exact ih hi his hPd

variable [DecidableEq ι]

/-- The committed state is serial, and each transaction is somewhere. -/
structure Ordered (R : Rules σ κ) (Spec : ι → σ → σ → Prop) (p : ι → Program σ κ ρ ε) (db₀ : σ)
    (s : System ι σ κ ρ ε) : Prop where
  executes : Executes Spec s.committed db₀ s.db
  inv : R.Inv s.db
  exclusive : Exclusive s
  standing : ∀ i, Standing R (Spec i) (p i) s.db (s.tx i)

namespace Ordered

variable {R : Rules σ κ} {Spec : ι → σ → σ → Prop} {p : ι → Program σ κ ρ ε} {db₀ : σ}
  {s : System ι σ κ ρ ε} {i : ι}

/-- A step of one transaction that does not commit. -/
theorem set (h : Ordered R Spec p db₀ s) {t : Tx σ κ ρ ε}
    (ht : Standing R (Spec i) (p i) s.db t) (hex : Exclusive (s.set i t)) :
    Ordered R Spec p db₀ (s.set i t) where
  executes := h.executes
  inv := h.inv
  exclusive := hex
  standing j := by
    by_cases hji : j = i
    · subst hji
      rwa [set_tx_self]
    · rw [set_tx_of_ne hji]
      exact h.standing j

omit [DecidableEq ι] in
theorem init (hcareful : ∀ i, (p i).Careful R) (hinv : R.Inv db₀) :
    Ordered R Spec p db₀ (.init db₀ p) where
  executes := rfl
  inv := hinv
  exclusive := exclusive_init db₀ p
  standing i := by
    refine .before ⟨hcareful i, fun d r _ => R.same_refl r d, ?_⟩ rfl (fun _ => rfl) ?_ <;>
      exact fun _ _ h => by cases h

variable (hp : ∀ i, (p i).Settles R (Spec i))
  (hspec : ∀ i db db', R.Inv db → Spec i db db' → R.Inv db' ∧ R.Later db db')

include hp hspec

theorem close (h : Ordered R Spec p db₀ s) (he : s.Enabled (.close i)) :
    Ordered R Spec p db₀ (s.next (.close i)) := by
  have hex := h.exclusive.next he
  obtain ⟨hout, hrest⟩ := enabled_close he
  rcases hrest with hrest | ⟨e, hrest⟩
  · obtain ⟨hdone, hothers⟩ := (h.standing i).commit (hp i) hout hrest
    obtain ⟨hinv, hlater⟩ := hspec i _ _ h.inv hdone
    rw [next_close_commit hrest] at hex ⊢
    refine ⟨h.executes.snoc hdone, hinv, hex, fun j => ?_⟩
    dsimp only
    by_cases hji : j = i
    · subst hji
      rw [Function.update_self]
      exact .close (.inl hrest)
    · -- what the others have locked is as it was
      rw [Function.update_of_ne hji]
      exact (h.standing j).rely ⟨hinv, hlater, fun k hk =>
        hothers k fun hmem => hji (h.exclusive k j i hk hmem)⟩
  · rw [next_close_rollback hrest] at hex ⊢
    exact h.set (.close (.inr ⟨e, hrest⟩)) hex

theorem next (h : Ordered R Spec p db₀ s) {a : Action ι} (ha : s.Enabled a) :
    Ordered R Spec p db₀ (s.next a) := by
  cases a with
  | start i =>
    obtain ⟨⟨st, k, hst⟩, -⟩ := enabled_start ha
    exact h.set ((h.standing i).start h.inv hst) (h.exclusive.next ha)
  | lock i =>
    obtain ⟨snap, r, rs, hrun, -⟩ := enabled_lock ha
    exact h.set ((h.standing i).lock hrun) (h.exclusive.next ha)
  | finish i =>
    obtain ⟨snap, hrun⟩ := enabled_finish ha
    exact h.set ((h.standing i).finish (hp i) h.inv hrun) (h.exclusive.next ha)
  | close i => exact h.close hp hspec ha

end Ordered

/-- Transactions that keep to shared rules are serial in the order they commit in. -/
theorem locking_serial {R : Rules σ κ} {Spec : ι → σ → σ → Prop} {p : ι → Program σ κ ρ ε}
    (hcareful : ∀ i, (p i).Careful R) (hp : ∀ i, (p i).Settles R (Spec i))
    (hspec : ∀ i db db', R.Inv db → Spec i db db' → R.Inv db' ∧ R.Later db db')
    {db₀ : σ} (hinv : R.Inv db₀) {as : List (Action ι)}
    (has : (readCommitted ι σ κ ρ ε).Valid (.init db₀ p) as) :
    Ordered R Spec p db₀ ((readCommitted ι σ κ ρ ε).run (.init db₀ p) as) :=
  Machine.invariant _ (fun _ _ hs ha => hs.next hp hspec ha) (.init hcareful hinv) has

end ReadCommitted
