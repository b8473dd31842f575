import RunMesh.ReadCommitted

/-!
# Transactions with one gate

If every transaction first locks one and the same row, its gate, and its first statement
gives the same on an old state as on the latest (`Gated`), then the transactions do not
overlap behind the gate. The committed state is always that of the committed transactions
one after the other, in the order they committed in (`gate_serial`).

For this the gate need not be the first row the first statement locks (`Passes`,
`passes_serial`). If it is, the transaction behind the gate is the only one with locks, so
they never wait for each other in a circle (`gate_progress`).
-/

namespace ReadCommitted

universe u

variable {ι : Type*} {σ κ ρ ε : Type u} [DecidableEq ι]

/-- The statement gives on the latest state what it would had it started from it. -/
structure Stmt.Agrees (st : Stmt σ κ ρ) (snap db : σ) : Prop where
  result : st.result snap db = st.result db db
  write : st.write snap db = st.write db db

/-- The program takes no lock, writes nothing and does not commit. -/
inductive Program.Barren : Program σ κ ρ ε → Prop
  | rollback (e : ε) : Barren (.rollback e)
  | stmt {s : Stmt σ κ ρ} {k : ρ → Program σ κ ρ ε} (hlocks : ∀ snap, s.locks snap = [])
      (hk : ∀ r, Barren (k r)) : Barren (.stmt s k)

/-- From a state with `I` the first statement either finds no row to lock, and the rest is
barren, or locks the gate first and agrees with every state with `I`. -/
def Program.Gated (g : κ) (I : σ → Prop) : Program σ κ ρ ε → Prop
  | .commit => False
  | .rollback _ => True
  | .stmt s k => ∀ snap, I snap →
    (s.locks snap = [] ∧ ∀ db, (k (s.result snap db)).Barren) ∨
      ((s.locks snap).head? = some g ∧ ∀ db, I db → s.Agrees snap db)

/-- The first statement locks the gate, if it finds a row to lock. -/
def Program.Passes (g : κ) (I : σ → Prop) : Program σ κ ρ ε → Prop
  | .commit => False
  | .rollback _ => True
  | .stmt s k => ∀ snap, I snap →
    (s.locks snap = [] ∧ ∀ db, (k (s.result snap db)).Barren) ∨
      (g ∈ s.locks snap ∧ ∀ db, I db → s.Agrees snap db)

theorem Program.Gated.passes {g : κ} {I : σ → Prop} {p : Program σ κ ρ ε} (h : p.Gated g I) :
    p.Passes g I := by
  cases p with
  | commit => exact h
  | rollback e => trivial
  | stmt s k => exact fun snap hI => (h snap hI).imp_right fun hs => ⟨List.mem_of_head? hs.1, hs.2⟩

/-- Where a transaction that passes the gate can be : its first statement has not got the
gate yet, it has the gate and runs alone, it cannot commit any more, or it has ended. -/
inductive Stage (g : κ) (I : σ → Prop) (p : Program σ κ ρ ε) (db : σ) (t : Tx σ κ ρ ε) : Prop
  | before (hrest : t.rest = p) (hwrites : ∀ d, t.writes d = d)
      (hheld : t.running = none → t.held = [])
      (hrun : ∀ snap rs, t.running = some (snap, rs) →
        ∃ st k, p = .stmt st k ∧ I snap ∧ st.locks snap = t.held.reverse ++ rs ∧ g ∉ t.held)
  | inside (hgate : g ∈ t.held) (hsolo : t.resume db = p.exec db)
  | barren (hrest : t.rest.Barren) (hheld : t.held = [])
      (hrun : ∀ snap rs, t.running = some (snap, rs) → rs = [])
  | ended (hrest : t.rest.isStmt = false) (hout : t.outcome ≠ none) (hheld : t.held = [])
      (hrun : t.running = none)

namespace Stage

variable {g : κ} {I : σ → Prop} {p : Program σ κ ρ ε} {db : σ} {t : Tx σ κ ρ ε}

/-- Without the gate the committed state does not matter. -/
theorem of_notMem (h : Stage g I p db t) (hg : g ∉ t.held) (db' : σ) : Stage g I p db' t := by
  cases h with
  | before hrest hwrites hheld hrun => exact .before hrest hwrites hheld hrun
  | inside hgate _ => exact absurd hgate hg
  | barren hrest hheld hrun => exact .barren hrest hheld hrun
  | ended hrest hout hheld hrun => exact .ended hrest hout hheld hrun

theorem start (h : Stage g I p db t) (hI : I db) {st : Stmt σ κ ρ} {k : ρ → Program σ κ ρ ε}
    (hst : t.rest = .stmt st k) (hnone : t.running = none) : Stage g I p db (t.start db) := by
  have hstart : t.start db = { t with running := some (t.writes db, st.locks (t.writes db)) } := by
    simp [Tx.start, hst]
  rw [hstart]
  cases h with
  | before hrest hwrites hheld _ =>
    refine .before hrest hwrites (fun h => by cases h) fun snap rs hrun => ?_
    cases hrun
    rw [hwrites db]
    refine ⟨st, k, hrest.symm.trans hst, hI, ?_, ?_⟩ <;> simp [hheld hnone]
  | inside hgate hsolo =>
    exact .inside hgate (hstart ▸ (Tx.resume_start hnone).trans hsolo)
  | barren hrest hheld _ =>
    refine .barren hrest hheld fun snap rs hrun => ?_
    cases hrun
    rw [hst] at hrest
    cases hrest with
    | stmt hlocks _ => exact hlocks _
  | ended hrest => simp [hst, Program.isStmt] at hrest

/-- A lock of the first statement is the gate, or the gate is still to come. -/
theorem lock (h : Stage g I p db t) (hp : p.Passes g I) (hI : I db) {snap : σ} {r : κ}
    {rs : List κ} (hrun : t.running = some (snap, r :: rs)) :
    Stage g I p db t.lock := by
  have hlock : t.lock = { t with running := some (snap, rs), held := r :: t.held } := by
    simp [Tx.lock, hrun]
  cases h with
  | before hrest hwrites hheld hsnap =>
    obtain ⟨st, k, rfl, hIs, hlocks, hnot⟩ := hsnap _ _ hrun
    rcases hp snap hIs with ⟨hnil, -⟩ | ⟨-, hagrees⟩
    · simp [hnil] at hlocks
    by_cases hr : r = g
    · subst hr
      refine .inside (by simp [hlock]) ?_
      rw [Tx.resume_lock, Tx.resume_of_some hrest hrun, hwrites, (hagrees db hI).result,
        (hagrees db hI).write, Program.exec]
    · rw [hlock]
      refine .before hrest hwrites (fun h => by cases h) fun snap' rs' hrun' => ?_
      cases hrun'
      exact ⟨st, k, rfl, hIs, by simpa using hlocks, by simp [Ne.symm hr, hnot]⟩
  | inside hgate hsolo =>
    refine .inside ?_ (Tx.resume_lock.trans hsolo)
    rw [hlock]
    exact List.mem_cons_of_mem _ hgate
  | barren _ _ hnil => exact absurd (hnil _ _ hrun) (by simp)
  | ended _ _ _ hnone => simp [hrun] at hnone

/-- A statement that ends without the gate leaves the transaction barren. -/
theorem finish (h : Stage g I p db t) (hp : p.Passes g I) {snap : σ}
    (hrun : t.running = some (snap, [])) : Stage g I p db (t.finish db) := by
  cases h with
  | before hrest hwrites hheld hsnap =>
    obtain ⟨st, k, rfl, hIs, hlocks, hnot⟩ := hsnap _ _ hrun
    rcases hp snap hIs with ⟨hnil, hbarren⟩ | ⟨hgate, -⟩
    · have hheld : t.held = [] := by simpa [hnil] using hlocks
      have hfinish : t.finish db = { t with
          rest := k (st.result snap (t.writes db)), writes := st.write snap ∘ t.writes,
          running := none, finished := t.finished + 1 } := by
        simp [Tx.finish, hrest, hrun]
      rw [hfinish]
      exact .barren (hbarren _) hheld fun _ _ h => by cases h
    · simp [hlocks, hnot] at hgate
  | inside hgate hsolo =>
    refine .inside ?_ (Tx.resume_finish.trans hsolo)
    unfold Tx.finish
    split <;> exact hgate
  | barren hrest hheld hnil =>
    unfold Tx.finish
    split
    · next st k snap rs hst _ =>
      rw [hst] at hrest
      cases hrest with
      | stmt _ hk => exact .barren (hk _) hheld fun _ _ h => by cases h
    · exact .barren hrest hheld hnil
  | ended _ _ _ hnone => simp [hrun] at hnone

/-- Only a transaction with the gate can commit. -/
theorem commit (h : Stage g I p db t) (hp : p.Passes g I) (hout : t.outcome = none)
    (hrest : t.rest = .commit) : g ∈ t.held ∧ p.exec db = .ok (t.writes db) := by
  cases h with
  | before hp' =>
    rw [← hp', hrest] at hp
    exact hp.elim
  | inside hgate hsolo => exact ⟨hgate, hsolo.symm.trans (Tx.resume_of_commit hrest)⟩
  | barren hbarren =>
    rw [hrest] at hbarren
    cases hbarren
  | ended _ hout' => exact absurd hout hout'

end Stage

/-- A transaction that ends is over. -/
theorem stage_close {g : κ} {I : σ → Prop} {p : Program σ κ ρ ε} {t : Tx σ κ ρ ε}
    (hrest : t.rest = .commit ∨ ∃ e, t.rest = .rollback e) (db : σ) : Stage g I p db t.close := by
  rcases hrest with hrest | ⟨e, hrest⟩ <;>
    exact .ended (by simp [Tx.close, hrest, Program.isStmt]) (by simp [Tx.close, hrest])
      (by simp [Tx.close, hrest]) (by simp [Tx.close, hrest])

/-- The committed state is serial, and each transaction is at one of the stages. -/
structure Serialised (g : κ) (I : σ → Prop) (p : ι → Program σ κ ρ ε) (db₀ : σ)
    (s : System ι σ κ ρ ε) : Prop where
  serial : serial p s.committed db₀ = .ok s.db
  good : I s.db
  exclusive : Exclusive s
  stage : ∀ i, Stage g I (p i) s.db (s.tx i)

namespace Serialised

variable {g : κ} {I : σ → Prop} {p : ι → Program σ κ ρ ε} {db₀ : σ} {s : System ι σ κ ρ ε} {i : ι}

/-- A step of one transaction that does not commit. -/
theorem set (h : Serialised g I p db₀ s) {t : Tx σ κ ρ ε} (ht : Stage g I (p i) s.db t)
    (hex : Exclusive (s.set i t)) : Serialised g I p db₀ (s.set i t) where
  serial := h.serial
  good := h.good
  exclusive := hex
  stage j := by
    by_cases hji : j = i
    · subst hji
      rwa [set_tx_self]
    · rw [set_tx_of_ne hji]
      exact h.stage j

theorem start (h : Serialised g I p db₀ s) (he : s.Enabled (.start i)) :
    Serialised g I p db₀ (s.next (.start i)) := by
  obtain ⟨⟨st, k, hst⟩, hnone⟩ := enabled_start he
  exact h.set ((h.stage i).start h.good hst hnone) (h.exclusive.next he)

theorem lock (h : Serialised g I p db₀ s) (hp : ∀ i, (p i).Passes g I) (he : s.Enabled (.lock i)) :
    Serialised g I p db₀ (s.next (.lock i)) := by
  obtain ⟨snap, r, rs, hrun, -⟩ := enabled_lock he
  exact h.set ((h.stage i).lock (hp i) h.good hrun) (h.exclusive.next he)

theorem finish (h : Serialised g I p db₀ s) (hp : ∀ i, (p i).Passes g I)
    (he : s.Enabled (.finish i)) : Serialised g I p db₀ (s.next (.finish i)) := by
  obtain ⟨snap, hrun⟩ := enabled_finish he
  exact h.set ((h.stage i).finish (hp i) hrun) (h.exclusive.next he)

theorem close (h : Serialised g I p db₀ s) (hp : ∀ i, (p i).Passes g I)
    (hI : ∀ i db db', I db → (p i).exec db = .ok db' → I db') (he : s.Enabled (.close i)) :
    Serialised g I p db₀ (s.next (.close i)) := by
  have hex := h.exclusive.next he
  obtain ⟨hout, hrest⟩ := enabled_close he
  rcases hrest with hrest | ⟨e, hrest⟩
  · obtain ⟨hgate, hexec⟩ := (h.stage i).commit (hp i) hout hrest
    rw [next_close_commit hrest] at hex ⊢
    refine ⟨serial_snoc h.serial hexec, hI i _ _ h.good hexec, hex, fun j => ?_⟩
    dsimp only
    by_cases hji : j = i
    · subst hji
      rw [Function.update_self]
      exact stage_close (.inl hrest) _
    · -- without the gate the new state does not matter
      rw [Function.update_of_ne hji]
      exact (h.stage j).of_notMem (fun hmem => hji (h.exclusive g j i hmem hgate)) _
  · rw [next_close_rollback hrest] at hex ⊢
    exact h.set (stage_close (.inr ⟨e, hrest⟩) _) hex

omit [DecidableEq ι] in
theorem init (h0 : I db₀) : Serialised g I p db₀ (.init db₀ p) where
  serial := rfl
  good := h0
  exclusive := exclusive_init db₀ p
  stage _ := .before rfl (fun _ => rfl) (fun _ => rfl) fun _ _ h => by cases h

end Serialised

/-- Transactions that pass one gate are serial in the order they commit in. -/
theorem passes_serial {g : κ} {I : σ → Prop} {p : ι → Program σ κ ρ ε}
    (hp : ∀ i, (p i).Passes g I) (hI : ∀ i db db', I db → (p i).exec db = .ok db' → I db')
    {db₀ : σ} (h0 : I db₀) {as : List (Action ι)}
    (has : (readCommitted ι σ κ ρ ε).Valid (.init db₀ p) as) :
    Serialised g I p db₀ ((readCommitted ι σ κ ρ ε).run (.init db₀ p) as) := by
  refine Machine.invariant _ (fun s a hs ha => ?_) (.init h0) has
  cases a with
  | start i => exact hs.start ha
  | lock i => exact hs.lock hp ha
  | finish i => exact hs.finish hp ha
  | close i => exact hs.close hp hI ha

/-- Transactions with one gate are serial in the order they commit in. -/
theorem gate_serial {g : κ} {I : σ → Prop} {p : ι → Program σ κ ρ ε}
    (hp : ∀ i, (p i).Gated g I) (hI : ∀ i db db', I db → (p i).exec db = .ok db' → I db')
    {db₀ : σ} (h0 : I db₀) {as : List (Action ι)}
    (has : (readCommitted ι σ κ ρ ε).Valid (.init db₀ p) as) :
    Serialised g I p db₀ ((readCommitted ι σ κ ρ ε).run (.init db₀ p) as) :=
  passes_serial (fun i => (hp i).passes) hI h0 has

/-! ## Progress -/

/-- A transaction that has ended has no lock and no statement. -/
def Tx.Tidy (t : Tx σ κ ρ ε) : Prop :=
  t.outcome ≠ none → t.rest.isStmt = false ∧ t.running = none ∧ t.held = []

theorem tidy_run (db : σ) (p : ι → Program σ κ ρ ε) (i : ι) (as : List (Action ι)) :
    (((readCommitted ι σ κ ρ ε).run (.init db p) as).tx i).Tidy := by
  have hstart : ∀ (db : σ) (t : Tx σ κ ρ ε), t.Tidy → (t.start db).Tidy := by
    intro db t h
    unfold Tx.start
    split
    · next hrest => exact fun hout => absurd (h hout).1 (by simp [hrest, Program.isStmt])
    · exact h
  have hlock : ∀ t : Tx σ κ ρ ε, t.Tidy → t.lock.Tidy := by
    intro t h
    unfold Tx.lock
    split
    · next hrun => exact fun hout => absurd (h hout).2.1 (by simp [hrun])
    · exact h
  have hfinish : ∀ (db : σ) (t : Tx σ κ ρ ε), t.Tidy → (t.finish db).Tidy := by
    intro db t h
    unfold Tx.finish
    split
    · next hrest _ => exact fun hout => absurd (h hout).1 (by simp [hrest, Program.isStmt])
    · exact h
  have hclose : ∀ t : Tx σ κ ρ ε, t.Tidy → t.close.Tidy := by
    intro t h
    unfold Tx.close
    split
    · next hrest => exact fun _ => ⟨by simp [hrest, Program.isStmt], rfl, rfl⟩
    · next hrest => exact fun _ => ⟨by simp [hrest, Program.isStmt], rfl, rfl⟩
    · exact h
  have hinit : ((System.init db p).tx i).Tidy := fun hout => absurd rfl hout
  generalize System.init db p = s at hinit
  induction as generalizing s with
  | nil => exact hinit
  | cons a as ih => exact ih (s.next a) (tx_next hstart hlock hfinish hclose hinit a)

omit [DecidableEq ι] in
/-- A transaction that has not ended can go on, unless it waits for a lock that another
one has. -/
theorem enabled_or_waits {s : System ι σ κ ρ ε} {i : ι} (hout : (s.tx i).outcome = none) :
    (∃ a, s.Enabled a) ∨ ∃ r j, j ≠ i ∧ r ∈ (s.tx j).held := by
  cases hrun : (s.tx i).running with
  | none =>
    left
    by_cases hrest : (s.tx i).rest.isStmt = true
    · exact ⟨.start i, hrest, by simp [hrun]⟩
    · exact ⟨.close i, by simpa using hrest, by simp [hout]⟩
  | some run =>
    obtain ⟨snap, _ | ⟨r, rs⟩⟩ := run
    · exact .inl ⟨.finish i, by simp [System.Enabled, hrun]⟩
    · by_cases hfree : ∀ j, j ≠ i → r ∉ (s.tx j).held
      · exact .inl ⟨.lock i, r, by simp [hrun], hfree⟩
      · push Not at hfree
        obtain ⟨j, hj, hmem⟩ := hfree
        exact .inr ⟨r, j, hj, hmem⟩

/-- With the gate as its first lock, a transaction has no lock unless it has the gate. -/
theorem Stage.held_eq_nil {g : κ} {I : σ → Prop} {p : Program σ κ ρ ε} {db : σ} {t : Tx σ κ ρ ε}
    (h : Stage g I p db t) (hp : p.Gated g I) (hg : g ∉ t.held) : t.held = [] := by
  cases h with
  | before hrest hwrites hheld hrun =>
    cases hr : t.running with
    | none => exact hheld hr
    | some run =>
      obtain ⟨st, k, rfl, hI, hlocks, -⟩ := hrun run.1 run.2 hr
      rcases hp _ hI with ⟨hnil, -⟩ | ⟨hhead, -⟩
      · rw [hnil, eq_comm, List.append_eq_nil_iff] at hlocks
        simpa using hlocks.1
      · -- the first of its locks would be the gate
        rw [hlocks] at hhead
        cases hrev : t.held.reverse with
        | nil => simpa using hrev
        | cons r rs =>
          rw [hrev, List.cons_append, List.head?_cons, Option.some.injEq] at hhead
          exact absurd (List.mem_reverse.1 (hrev ▸ hhead ▸ List.mem_cons_self)) hg
  | inside hgate _ => exact absurd hgate hg
  | barren _ hheld _ => exact hheld
  | ended _ _ hheld _ => exact hheld

/-- Transactions with one gate never wait for each other in a circle : as long as one of
them has not ended, one of them can go on. -/
theorem gate_progress {g : κ} {I : σ → Prop} {p : ι → Program σ κ ρ ε}
    (hp : ∀ i, (p i).Gated g I) (hI : ∀ i db db', I db → (p i).exec db = .ok db' → I db')
    {db₀ : σ} (h0 : I db₀) {as : List (Action ι)}
    (has : (readCommitted ι σ κ ρ ε).Valid (.init db₀ p) as) {i : ι}
    (hi : (((readCommitted ι σ κ ρ ε).run (.init db₀ p) as).tx i).outcome = none) :
    ∃ a, ((readCommitted ι σ κ ρ ε).run (.init db₀ p) as).Enabled a := by
  have hs := gate_serial hp hI h0 has
  have htidy := fun j => tidy_run db₀ p j as
  generalize (readCommitted ι σ κ ρ ε).run (.init db₀ p) as = s at hs htidy hi
  have hgate : ∀ r j, r ∈ (s.tx j).held → g ∈ (s.tx j).held := by
    intro r j hmem
    by_contra hg
    rw [(hs.stage j).held_eq_nil (hp j) hg] at hmem
    cases hmem
  rcases enabled_or_waits hi with henabled | ⟨r, j, -, hmem⟩
  · exact henabled
  · -- the one behind the gate waits for none
    have hj : (s.tx j).outcome = none := by
      by_contra hout
      rw [(htidy j hout).2.2] at hmem
      cases hmem
    rcases enabled_or_waits hj with henabled | ⟨r', k, hkj, hmem'⟩
    · exact henabled
    · exact absurd (hs.exclusive g k j (hgate r' k hmem') (hgate r j hmem)) hkj

end ReadCommitted
