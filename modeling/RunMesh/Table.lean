import Mathlib.Data.List.Nodup

/-!
# Relational tables as lists of rows

A table is the list of its rows. `update p f t` is `UPDATE t SET f WHERE p` : each row
that satisfies `p` is replaced by its image under `f`, all rows being read before any is
written. `returning p f t` is what `RETURNING` gives back, and `join` pairs each row with
the rows its foreign key names. A key is unique in a table when its column has no
duplicate, and then rows with the same key are the same row (`eq_of_key`). `requalifies`
is the second look a statement takes at a row it had to wait for.
-/

namespace Table

variable {α β κ : Type*}

/-- `UPDATE t SET f WHERE p`. -/
def update (p : α → Bool) (f : α → α) (t : List α) : List α :=
  t.map fun r => if p r then f r else r

/-- The rows `UPDATE t SET f WHERE p RETURNING *` gives back. -/
def returning (p : α → Bool) (f : α → α) (t : List α) : List α :=
  (t.filter p).map f

/-- `t JOIN u ON u.key = t.ref`. -/
def join [DecidableEq κ] (ref : α → κ) (key : β → κ) (t : List α) (u : List β) : List (α × β) :=
  t.flatMap fun a => (u.filter fun b => key b = ref a).map fun b => (a, b)

/-- The row satisfies `p`, and so did the version of it in the older table. -/
def requalifies [DecidableEq κ] (key : α → κ) (p : α → Bool) (old : List α) (r : α) : Bool :=
  p r && old.any fun o => p o && key o = key r

/-- With a unique key, rows with the same key are the same row. -/
theorem eq_of_key {t : List α} {key : α → κ} (hk : (t.map key).Nodup) {r s : α} (hr : r ∈ t)
    (hs : s ∈ t) (h : key r = key s) : r = s :=
  List.inj_on_of_nodup_map hk hr hs h

/-- With a unique key, a row that satisfies `p` is found if only rows with its key do. -/
theorem find?_of_key {t : List α} {key : α → κ} (hk : (t.map key).Nodup) {p : α → Bool} {a : α}
    (ha : a ∈ t) (hp : p a = true) (hkey : ∀ b ∈ t, p b = true → key b = key a) :
    t.find? p = some a := by
  cases hf : t.find? p with
  | none => exact absurd hp (List.find?_eq_none.1 hf a ha)
  | some b =>
    have hb := List.mem_of_find?_eq_some hf
    rw [eq_of_key hk hb ha (hkey b hb (List.find?_some hf))]

/-- With a unique key, the row with the key is found. -/
theorem find?_key [DecidableEq κ] {t : List α} {key : α → κ} (hk : (t.map key).Nodup) {a : α}
    (ha : a ∈ t) : t.find? (fun b => key b = key a) = some a :=
  find?_of_key hk ha (by simp) fun b _ hb => of_decide_eq_true hb

/-- With a unique key, the row with the key is the only one. -/
theorem filter_key [DecidableEq κ] {t : List α} {key : α → κ} (hk : (t.map key).Nodup) {a : α}
    (ha : a ∈ t) : t.filter (fun b => key b = key a) = [a] := by
  induction t with
  | nil => simp at ha
  | cons b t ih =>
    rw [List.map_cons, List.nodup_cons] at hk
    rcases List.mem_cons.1 ha with rfl | ha
    · have hnone : ∀ c ∈ t, ¬key c = key a := fun c hc hca =>
        hk.1 (hca ▸ List.mem_map_of_mem hc)
      simpa using hnone
    · have hb : ¬key b = key a := fun hba => hk.1 (hba ▸ List.mem_map_of_mem ha)
      simpa [hb] using ih hk.2 ha

/-- A column that the update leaves alone in every row is unchanged. -/
theorem map_update {g : α → β} {p : α → Bool} {f : α → α} (hf : ∀ r, g (f r) = g r)
    (t : List α) : (update p f t).map g = t.map g := by
  rw [update, List.map_map]
  refine List.map_congr_left fun r _ => ?_
  simp only [Function.comp_apply]
  split_ifs
  · exact hf r
  · rfl

/-- An update that finds no row. -/
theorem update_eq_self {p : α → Bool} {t : List α} (h : ∀ r ∈ t, ¬p r = true) (f : α → α) :
    update p f t = t :=
  (List.map_congr_left fun r hr => if_neg (h r hr)).trans (List.map_id' t)

/-- An update that leaves `q` alone, on the rows with `q`. -/
theorem filter_update {q p : α → Bool} {f : α → α} (hf : ∀ r, q (f r) = q r) (t : List α) :
    (update p f t).filter q = update p f (t.filter q) := by
  rw [update, List.filter_map]
  refine congrArg (List.map _) (List.filter_congr fun r _ => ?_)
  simp only [Function.comp_apply]
  split_ifs
  · exact hf r
  · rfl

/-- A change of rows none of which has `p`, before or after. -/
theorem filter_map_eq_self {p : α → Bool} {g : α → α} {t : List α}
    (h : ∀ r ∈ t, g r = r ∨ p r = false ∧ p (g r) = false) : (t.map g).filter p = t.filter p := by
  induction t with
  | nil => rfl
  | cons r t ih =>
    rw [List.map_cons, List.filter_cons, List.filter_cons, ih fun s hs => h s (by simp [hs])]
    rcases h r (by simp) with hr | ⟨hr, hgr⟩
    · rw [hr]
    · simp only [hr, hgr, Bool.false_eq_true, if_false]

theorem mem_update {p : α → Bool} {f : α → α} {t : List α} {b : α} :
    b ∈ update p f t ↔ ∃ a ∈ t, (if p a then f a else a) = b := by
  simp [update]

/-- An update of one row, found by any predicate, is the update of the row with its key. -/
theorem update_eq_of_key [DecidableEq κ] {t : List α} {key : α → κ} (hk : (t.map key).Nodup)
    {p : α → Bool} {a : α} (ha : a ∈ t) (hp : p a = true)
    (hkey : ∀ b ∈ t, p b = true → key b = key a) (f : α → α) :
    update p f t = update (fun b => key b = key a) f t := by
  refine List.map_congr_left fun b hb => ?_
  by_cases h : key b = key a
  · rw [eq_of_key hk hb ha h]
    simp [hp]
  · have hpb : p b = false := by
      cases hpb : p b with
      | false => rfl
      | true => exact absurd (hkey b hb hpb) h
    simp [hpb, h]

/-- An update that finds one row affects one row. -/
theorem countP_eq_one [DecidableEq α] {t : List α} (hnd : t.Nodup) {p : α → Bool} {a : α}
    (ha : a ∈ t) (hp : p a = true) (honly : ∀ b ∈ t, p b = true → b = a) : t.countP p = 1 := by
  rw [← List.count_eq_one_of_mem hnd ha, List.count]
  refine List.countP_congr fun b hb => ?_
  rw [beq_iff_eq]
  exact ⟨honly b hb, fun h => h ▸ hp⟩

/-- The row of a `RETURNING` that gives back one. -/
theorem head?_returning {p : α → Bool} {f : α → α} {t : List α} {b : α}
    (h : (returning p f t).head? = some b) : ∃ a ∈ t, p a = true ∧ f a = b := by
  obtain ⟨a, ha, rfl⟩ := List.mem_map.1 (List.mem_of_mem_head? h)
  exact ⟨a, (List.mem_filter.1 ha).1, (List.mem_filter.1 ha).2, rfl⟩

theorem exists_head?_returning {p : α → Bool} {t : List α} {a : α} (ha : a ∈ t) (hp : p a = true)
    (f : α → α) : ∃ b, (returning p f t).head? = some b := by
  refine Option.isSome_iff_exists.1 ?_
  rw [List.isSome_head?, returning]
  exact fun h => List.ne_nil_of_mem (List.mem_filter.2 ⟨ha, hp⟩) (List.map_eq_nil_iff.1 h)

/-- A key that the update leaves alone is unique in what `RETURNING` gives back. -/
theorem nodup_map_returning {t : List α} {key : α → κ} (hk : (t.map key).Nodup) {f : α → α}
    (hf : ∀ a, key (f a) = key a) (p : α → Bool) : ((returning p f t).map key).Nodup := by
  have hkeys : (returning p f t).map key = (t.filter p).map key := by
    rw [returning, List.map_map]
    exact List.map_congr_left fun a _ => hf a
  rw [hkeys]
  exact (List.filter_sublist.map key).nodup hk

theorem mem_join [DecidableEq κ] {ref : α → κ} {key : β → κ} {t : List α} {u : List β} {a : α}
    {b : β} : (a, b) ∈ join ref key t u ↔ a ∈ t ∧ b ∈ u ∧ key b = ref a := by
  simp [join]

/-- A first match of a search of a join. -/
theorem find?_join [DecidableEq κ] {ref : α → κ} {key : β → κ} {t : List α} {u : List β}
    {p : α × β → Bool} {a : α} {b : β} (h : (join ref key t u).find? p = some (a, b)) :
    a ∈ t ∧ b ∈ u ∧ key b = ref a ∧ p (a, b) = true :=
  have hm := mem_join.1 (List.mem_of_find?_eq_some h)
  ⟨hm.1, hm.2.1, hm.2.2, List.find?_some h⟩

/-- A search of a join that finds something. -/
theorem exists_find?_join [DecidableEq κ] {ref : α → κ} {key : β → κ} {t : List α} {u : List β}
    {p : α × β → Bool} {a : α} {b : β} (ha : a ∈ t) (hb : b ∈ u) (hab : key b = ref a)
    (hp : p (a, b) = true) : ∃ c, (join ref key t u).find? p = some c := by
  refine Option.isSome_iff_exists.1 (List.find?_isSome.2 ?_)
  exact ⟨(a, b), mem_join.2 ⟨ha, hb, hab⟩, hp⟩

/-- The left rows of a join depend on the keys of the right ones. -/
theorem map_fst_join_congr [DecidableEq κ] {ref : α → κ} {key : β → κ} {u v : List β}
    (h : u.map key = v.map key) (t : List α) :
    (join ref key t u).map Prod.fst = (join ref key t v).map Prod.fst := by
  have hkeys : ∀ (w : List β) (a : α), ((w.filter fun b => key b = ref a).map fun b => (a, b)).map
      Prod.fst = ((w.map key).filter fun k => k = ref a).map fun _ => a := by
    intro w a
    simp [List.filter_map, Function.comp_def]
  simp only [join, List.map_flatMap, hkeys, h]

/-- With a unique key, a row is joined to at most one other. -/
theorem map_fst_join_sublist [DecidableEq κ] {ref : α → κ} {key : β → κ} {u : List β}
    (hk : (u.map key).Nodup) (t : List α) : ((join ref key t u).map Prod.fst).Sublist t := by
  induction t with
  | nil => simp [join]
  | cons a t ih =>
    have hone : ((u.filter fun b => key b = ref a).map (Prod.fst ∘ fun b => (a, b))).Sublist
        [a] := by
      rcases hf : u.filter fun b => key b = ref a with _ | ⟨b, _ | ⟨c, bs⟩⟩
      · simp
      · simp
      · have hnd : ((u.filter fun b => key b = ref a).map key).Nodup :=
          (List.filter_sublist.map key).nodup hk
        have hbc : ∀ d ∈ b :: c :: bs, key d = ref a := by
          intro d hd
          rw [← hf, List.mem_filter] at hd
          exact of_decide_eq_true hd.2
        rw [hf] at hnd
        simp [hbc b (by simp), hbc c (by simp)] at hnd
    simpa [join] using hone.append ih

theorem join_filter [DecidableEq κ] (ref : α → κ) (key : β → κ) (p : α → Bool) (t : List α)
    (u : List β) : join ref key (t.filter p) u = (join ref key t u).filter fun ab => p ab.1 := by
  induction t with
  | nil => rfl
  | cons a t ih =>
    have hcons : ∀ t : List α, join ref key (a :: t) u =
        ((u.filter fun b => key b = ref a).map fun b => (a, b)) ++ join ref key t u :=
      fun _ => rfl
    by_cases hp : p a
    · simp [hp, hcons, ih, List.filter_map, Function.comp_def]
    · simp [hp, hcons, ih, List.filter_map, Function.comp_def]

/-! ## Parts of a table

A search of the rows with `q` is a search of the table if only such rows are looked for.
-/

section Filter

variable {p q : α → Bool} {t : List α}

theorem filter_filter_of (h : ∀ r ∈ t, p r = true → q r = true) :
    (t.filter q).filter p = t.filter p := by
  rw [List.filter_filter]
  refine List.filter_congr fun r hr => ?_
  cases hp : p r with
  | false => simp
  | true => simp [h r hr hp]

theorem find?_filter_of (h : ∀ r ∈ t, p r = true → q r = true) :
    (t.filter q).find? p = t.find? p := by
  rw [← List.head?_filter, ← List.head?_filter, filter_filter_of h]

theorem any_filter_of (h : ∀ r ∈ t, p r = true → q r = true) : (t.filter q).any p = t.any p := by
  rw [Bool.eq_iff_iff, List.any_eq_true, List.any_eq_true]
  constructor
  · rintro ⟨r, hr, hp⟩
    exact ⟨r, (List.mem_filter.1 hr).1, hp⟩
  · rintro ⟨r, hr, hp⟩
    exact ⟨r, List.mem_filter.2 ⟨hr, h r hr hp⟩, hp⟩

theorem all_filter_of (h : ∀ r ∈ t, p r = false → q r = true) : (t.filter q).all p = t.all p := by
  rw [List.all_eq_not_any_not, List.all_eq_not_any_not, any_filter_of]
  intro r hr hp
  exact h r hr (by simpa using hp)

theorem countP_filter_of (h : ∀ r ∈ t, p r = true → q r = true) :
    (t.filter q).countP p = t.countP p := by
  rw [List.countP_eq_length_filter, List.countP_eq_length_filter, filter_filter_of h]

theorem returning_filter_of (h : ∀ r ∈ t, p r = true → q r = true) (f : α → α) :
    returning p f (t.filter q) = returning p f t := by
  rw [returning, returning, filter_filter_of h]

/-- A join of the rows with `p` needs only the rows they are joined to. -/
theorem join_filter_of [DecidableEq κ] {ref : α → κ} {key : β → κ} {r : β → Bool} {u : List β}
    (h : ∀ a ∈ t, q a = true → ∀ b ∈ u, key b = ref a → r b = true) :
    join ref key (t.filter q) (u.filter r) = (join ref key t u).filter fun ab => q ab.1 := by
  rw [← join_filter]
  refine List.flatMap_congr fun a ha => ?_
  obtain ⟨ha, hq⟩ := List.mem_filter.1 ha
  rw [filter_filter_of fun b hb hkey => h a ha hq b hb (of_decide_eq_true hkey)]

end Filter

/-! ## Writes to some rows

`Confined X key t u` : `u` is `t` after rows with keys in `X` were written and others like them
were appended.
-/

section Confined

variable {X : κ → Prop} {key : α → κ} {t u : List α}

/-- The rows with keys outside of `X` are the same. -/
def Confined (X : κ → Prop) (key : α → κ) (t u : List α) : Prop :=
  ∃ f new, u = t.map f ++ new ∧
    (∀ r ∈ t, key (f r) = key r ∧ (f r = r ∨ X (key r))) ∧ ∀ r ∈ new, X (key r)

theorem Confined.refl (X : κ → Prop) (key : α → κ) (t : List α) : Confined X key t t :=
  ⟨id, [], by simp, fun _ _ => ⟨rfl, Or.inl rfl⟩, by simp⟩

theorem Confined.of_eq (h : u = t) : Confined X key t u :=
  h ▸ .refl X key t

theorem Confined.append {new : List α} (h : ∀ r ∈ new, X (key r)) :
    Confined X key t (t ++ new) :=
  ⟨id, new, by simp, fun _ _ => ⟨rfl, Or.inl rfl⟩, h⟩

theorem Confined.map {f : α → α} (hkey : ∀ r ∈ t, key (f r) = key r)
    (h : ∀ r ∈ t, f r = r ∨ X (key r)) : Confined X key t (t.map f) :=
  ⟨f, [], by simp, fun r hr => ⟨hkey r hr, h r hr⟩, by simp⟩

theorem Confined.update {p : α → Bool} {f : α → α} (hkey : ∀ r, key (f r) = key r)
    (h : ∀ r ∈ t, p r = true → X (key r)) : Confined X key t (update p f t) := by
  refine .map (fun r _ => ?_) fun r hr => ?_
  · split_ifs
    · exact hkey r
    · rfl
  · split_ifs with hp
    · exact Or.inr (h r hr hp)
    · exact Or.inl rfl

/-- The keys of the rows are those there were, or in `X`. -/
theorem Confined.of_mem (h : Confined X key t u) {r : α} (hr : r ∈ u) :
    (∃ s ∈ t, key s = key r) ∨ X (key r) := by
  obtain ⟨f, new, rfl, hf, hnew⟩ := h
  rcases List.mem_append.1 hr with hr | hr
  · obtain ⟨s, hs, rfl⟩ := List.mem_map.1 hr
    exact Or.inl ⟨s, hs, (hf s hs).1.symm⟩
  · exact Or.inr (hnew r hr)

/-- The rows with other keys, read from the table. -/
theorem Confined.filter_eq (h : Confined X key t u) {q : κ → Bool}
    (hq : ∀ k, X k → q k = false) :
    (u.filter fun r => q (key r)) = t.filter fun r => q (key r) := by
  obtain ⟨f, new, rfl, hf, hnew⟩ := h
  have hnone : new.filter (fun r => q (key r)) = [] := by
    refine List.filter_eq_nil_iff.2 fun r hr => ?_
    simp [hq _ (hnew r hr)]
  rw [List.filter_append, hnone, List.append_nil, List.filter_map]
  have hkept : t.filter ((fun r => q (key r)) ∘ f) = t.filter fun r => q (key r) :=
    List.filter_congr fun r hr => by rw [Function.comp_apply, (hf r hr).1]
  rw [hkept]
  refine (List.map_congr_left fun r hr => ?_).trans (List.map_id _)
  obtain ⟨hr, hqr⟩ := List.mem_filter.1 hr
  refine (hf r hr).2.resolve_right fun hX => ?_
  simp [hq _ hX] at hqr

/-- The rows of another key, when the rows of one key are written. -/
theorem Confined.filter_ne [DecidableEq κ] {a b : κ} (h : Confined (· = a) key t u)
    (hb : b ≠ a) : (u.filter fun r => key r = b) = t.filter fun r => key r = b :=
  h.filter_eq (q := fun k => decide (k = b)) fun _ hk =>
    decide_eq_false fun hkb => hb (hkb.symm.trans hk)

end Confined

/-! ## Rows evaluated again -/

section Requalifies

variable [DecidableEq κ] {key : α → κ} {p : α → Bool} {t : List α}

theorem requalifies_iff {old : List α} {r : α} :
    requalifies key p old r = true ↔ p r = true ∧ ∃ o ∈ old, p o = true ∧ key o = key r := by
  simp only [requalifies, Bool.and_eq_true, List.any_eq_true, decide_eq_true_eq]

/-- If whoever qualifies has qualified before, the older table does not matter. -/
theorem requalifies_eq_of {old : List α} {r : α}
    (h : p r = true → ∃ o ∈ old, p o = true ∧ key o = key r) : requalifies key p old r = p r := by
  cases hr : p r with
  | false => simp [requalifies, hr]
  | true => exact requalifies_iff.2 ⟨hr, h hr⟩

/-- If the older version qualified, it is the row that decides. -/
theorem requalifies_of_mem {old : List α} {o r : α} (ho : o ∈ old) (hp : p o = true)
    (hkey : p r = true → key o = key r) : requalifies key p old r = p r :=
  requalifies_eq_of fun hr => ⟨o, ho, hp, hkey hr⟩

theorem update_requalifies_of {old : List α}
    (h : ∀ r ∈ t, p r = true → ∃ o ∈ old, p o = true ∧ key o = key r) (f : α → α) :
    update (requalifies key p old) f t = update p f t :=
  List.map_congr_left fun r hr => by rw [requalifies_eq_of (h r hr)]

/-- An update leaves the rows whose key was not found. -/
theorem filter_update_requalifies {old : List α} {f : α → α} (hf : ∀ r, key (f r) = key r) {k : κ}
    (h : ∀ o ∈ old, p o = true → key o ≠ k) :
    (update (requalifies key p old) f t).filter (fun r => key r = k) =
      t.filter fun r => key r = k := by
  rw [filter_update fun r => by rw [hf]]
  refine update_eq_self (fun r hr hreq => ?_) _
  obtain ⟨-, o, ho, hp, hkey⟩ := requalifies_iff.1 hreq
  exact h o ho hp (hkey.trans (of_decide_eq_true (List.mem_filter.1 hr).2))

/-- If no row qualified, none does again. -/
theorem not_requalifies {old : List α} (h : ∀ o ∈ old, ¬p o = true) (r : α) :
    ¬requalifies key p old r = true := by
  intro hreq
  obtain ⟨-, o, ho, hp, -⟩ := requalifies_iff.1 hreq
  exact h o ho hp

/-- Without an update in between, a row qualifies again if it qualifies. -/
theorem requalifies_self {r : α} (hr : r ∈ t) : requalifies key p t r = p r :=
  requalifies_eq_of fun hp => ⟨r, hr, hp, rfl⟩

@[simp] theorem filter_requalifies : t.filter (requalifies key p t) = t.filter p :=
  List.filter_congr fun _ hr => requalifies_self hr

@[simp] theorem update_requalifies (f : α → α) :
    update (requalifies key p t) f t = update p f t :=
  List.map_congr_left fun _ hr => by rw [requalifies_self hr]

@[simp] theorem returning_requalifies (f : α → α) :
    returning (requalifies key p t) f t = returning p f t := by
  rw [returning, returning, filter_requalifies]

@[simp] theorem countP_requalifies : t.countP (requalifies key p t) = t.countP p :=
  List.countP_congr fun _ hr => by rw [requalifies_self hr]

end Requalifies

/-! ## Loops -/

/-- A loop none of whose steps changes the row. -/
theorem foldl_eq_self {g : β → α → α} {bs : List β} {a : α} (h : ∀ b ∈ bs, g b a = a) :
    bs.foldl (fun a b => g b a) a = a := by
  induction bs with
  | nil => rfl
  | cons b bs ih =>
    rw [List.foldl_cons, h b (by simp)]
    exact ih fun c hc => h c (by simp [hc])

/-- A loop one of whose steps changes the row, the others leaving it alone before and
after. -/
theorem foldl_eq_once {g : β → α → α} {bs : List β} (hnd : bs.Nodup) {b : β} (hb : b ∈ bs) {a : α}
    (hbefore : ∀ c ∈ bs, c ≠ b → g c a = a) (hafter : ∀ c ∈ bs, c ≠ b → g c (g b a) = g b a) :
    bs.foldl (fun a b => g b a) a = g b a := by
  induction bs with
  | nil => simp at hb
  | cons c bs ih =>
    rw [List.nodup_cons] at hnd
    rw [List.foldl_cons]
    by_cases hcb : c = b
    · subst hcb
      refine foldl_eq_self fun d hd => hafter d (by simp [hd]) ?_
      rintro rfl
      exact hnd.1 hd
    · rw [hbefore c (by simp) hcb]
      refine ih hnd.2 ?_ (fun d hd => hbefore d (by simp [hd])) fun d hd => hafter d (by simp [hd])
      exact (List.mem_cons.1 hb).resolve_left fun h => hcb h.symm

end Table
