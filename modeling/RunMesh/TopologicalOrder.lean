import Mathlib.Data.List.Induction
import Mathlib.Data.List.Nodup
import Mathlib.Data.List.Perm.Subperm
import Mathlib.Order.WellFounded

/-!
# Topological orders

A relation `needs` on finitely many `keys` : `needs d k` says that `k` comes after `d`. A
linear extension lists all keys, each after what it needs. A legal order takes one key after
the other, each when everything it needs has been taken (`Next`), and may stop anywhere. If
nothing needs itself, through others or directly, a legal order that has not taken every key
can always go on (`exists_next`), so the legal orders are the prefixes of the linear
extensions (`legal_iff_exists_extension`).
-/

namespace TopologicalOrder

variable {κ : Type*} (needs : κ → κ → Prop) (keys : List κ)

/-- All keys, each after everything it needs. -/
structure LinearExtension (l : List κ) : Prop where
  perm : l.Perm keys
  ordered : ∀ pre k, pre ++ [k] <+: l → ∀ d, needs d k → d ∈ pre

/-- The key can be taken once `taken` are. -/
structure Next (taken : List κ) (k : κ) : Prop where
  mem : k ∈ keys
  notMem : k ∉ taken
  needed : ∀ d, needs d k → d ∈ taken

/-- Each key is taken when it can be. -/
def Legal (s : List κ) : Prop :=
  ∀ pre k, pre ++ [k] <+: s → Next needs keys pre k

variable {needs keys}

theorem legal_nil : Legal needs keys [] :=
  fun pre k h => by simp at h

theorem legal_snoc {s : List κ} {k : κ} :
    Legal needs keys (s ++ [k]) ↔ Legal needs keys s ∧ Next needs keys s k := by
  constructor
  · intro h
    exact ⟨fun pre k' hpre => h pre k' (hpre.trans (List.prefix_append _ _)),
      h s k (List.prefix_refl _)⟩
  · rintro ⟨hs, hk⟩ pre k' hpre
    rcases List.prefix_concat_iff.1 hpre with heq | hpre
    · obtain ⟨rfl, hkk⟩ := List.append_inj' heq rfl
      rw [List.singleton_inj.1 hkk]
      exact hk
    · exact hs pre k' hpre

namespace Legal

theorem initial {s l : List κ} (h : Legal needs keys l) (hs : s <+: l) : Legal needs keys s :=
  fun pre k hpre => h pre k (hpre.trans hs)

/-- A legal order takes each key at most once. -/
theorem nodup {s : List κ} (h : Legal needs keys s) : s.Nodup := by
  induction s using List.reverseRecOn with
  | nil => exact List.nodup_nil
  | append_singleton s k ih =>
    obtain ⟨hs, hk⟩ := legal_snoc.1 h
    rw [List.nodup_append]
    refine ⟨ih hs, List.nodup_singleton k, fun a ha b hb hab => hk.notMem ?_⟩
    rwa [← List.mem_singleton.1 hb, ← hab]

theorem subset {s : List κ} (h : Legal needs keys s) : s ⊆ keys := by
  intro k hk
  obtain ⟨pre, post, rfl⟩ := List.append_of_mem hk
  exact (h pre k ⟨post, by simp⟩).mem

/-- A legal order of all keys is a linear extension. -/
theorem linearExtension {l : List κ} (h : Legal needs keys l) (hnd : keys.Nodup)
    (hall : keys ⊆ l) : LinearExtension needs keys l where
  perm := (List.perm_ext_iff_of_nodup h.nodup hnd).2 fun _ =>
    ⟨fun hk => h.subset hk, fun hk => hall hk⟩
  ordered pre k hpre := (h pre k hpre).needed

end Legal

theorem LinearExtension.legal {l : List κ} (h : LinearExtension needs keys l) (hnd : keys.Nodup) :
    Legal needs keys l := by
  intro pre k hpre
  refine ⟨h.perm.subset (hpre.subset (by simp)), fun hmem => ?_, h.ordered pre k hpre⟩
  have hl : (pre ++ [k]).Nodup := hpre.sublist.nodup (h.perm.nodup_iff.2 hnd)
  exact (List.nodup_append.1 hl).2.2 k hmem k (by simp) rfl

section Acyclic

variable (hdeps : ∀ k ∈ keys, ∀ d, needs d k → d ∈ keys) (hacc : ∀ k ∈ keys, Acc needs k)

include hdeps hacc

/-- A key is left, so one can be taken : follow what is needed and not yet taken. -/
theorem exists_next {taken : List κ} {k : κ} (hk : k ∈ keys) (hleft : k ∉ taken) :
    ∃ k', Next needs keys taken k' := by
  induction hacc k hk with
  | intro k _ ih =>
    by_cases hready : ∀ d, needs d k → d ∈ taken
    · exact ⟨k, hk, hleft, hready⟩
    · simp only [not_forall] at hready
      obtain ⟨d, hd, hdleft⟩ := hready
      exact ih d hd (hdeps k hk d hd) hdleft

/-- A legal order can go on until it has taken every key. -/
theorem Legal.exists_linearExtension (hnd : keys.Nodup) {s : List κ} (h : Legal needs keys s) :
    ∃ l, LinearExtension needs keys l ∧ s <+: l := by
  -- by induction on the number of keys left
  induction hn : keys.length - s.length generalizing s with
  | zero =>
    have hsub := h.nodup.subperm h.subset
    have hperm : s.Perm keys := hsub.perm_of_length_le (by omega)
    exact ⟨s, h.linearExtension hnd hperm.symm.subset, List.prefix_refl s⟩
  | succ n ih =>
    by_cases hall : keys ⊆ s
    · exact ⟨s, h.linearExtension hnd hall, List.prefix_refl s⟩
    · simp only [List.subset_def, not_forall] at hall
      obtain ⟨k, hk, hleft⟩ := hall
      obtain ⟨k', hnext⟩ := exists_next hdeps hacc hk hleft
      obtain ⟨l, hl, hpre⟩ := ih (legal_snoc.2 ⟨h, hnext⟩)
        (by rw [List.length_append, List.length_singleton]; omega)
      exact ⟨l, hl, (List.prefix_append s [k']).trans hpre⟩

/-- The legal orders are the prefixes of the linear extensions. -/
theorem legal_iff_exists_extension (hnd : keys.Nodup) {s : List κ} :
    Legal needs keys s ↔ ∃ l, LinearExtension needs keys l ∧ s <+: l := by
  constructor
  · exact fun h => h.exists_linearExtension hdeps hacc hnd
  · rintro ⟨l, hl, hpre⟩
    exact (hl.legal hnd).initial hpre

end Acyclic

end TopologicalOrder
