import Mathlib

/-!
# Reconciling a keyed table by differences

A table of (key, value) pairs is to become the wanted one: what is there and not wanted is deleted,
then what is wanted and not there is added. Where a deletion can only name the key, it takes every
pair of that key along, also one that was to stay and that nobody adds again.
**`delete_add_eq_iff`** says that this is the only way to miss.

`Mixed` is that way: a key with one pair that stays and another that goes. A table that holds each
key once has no such key, so for maps the differences always work, whatever is wanted.
-/

set_option autoImplicit false

namespace Drift

variable {κ ν α : Type} [DecidableEq κ] [DecidableEq ν]

/-- A table without the pairs of one key. -/
def deleteKey (T : Finset (κ × ν)) (k : κ) : Finset (κ × ν) := T.filter fun e => e.1 ≠ k

omit [DecidableEq ν] in
theorem mem_foldl_deleteKey {l : List α} {f : α → κ} {T : Finset (κ × ν)} {e : κ × ν} :
    e ∈ l.foldl (fun T a => deleteKey T (f a)) T ↔ e ∈ T ∧ ∀ a ∈ l, e.1 ≠ f a := by
  induction l generalizing T with
  | nil => simp
  | cons a rest ih =>
    rw [List.foldl_cons, ih]
    simp only [deleteKey, Finset.mem_filter, List.forall_mem_cons]
    tauto

theorem mem_foldl_insert {l : List α} {f : α → κ × ν} {T : Finset (κ × ν)} {e : κ × ν} :
    e ∈ l.foldl (fun T a => insert (f a) T) T ↔ e ∈ T ∨ ∃ a ∈ l, f a = e := by
  induction l generalizing T with
  | nil => simp
  | cons a rest ih =>
    rw [List.foldl_cons, ih]
    simp only [Finset.mem_insert, List.exists_mem_cons_iff, eq_comm]
    tauto

/-- A key has a pair that stays and one that goes. -/
def Mixed (T W : Finset (κ × ν)) : Prop :=
  ∃ k v w, (k, v) ∈ T ∧ (k, v) ∈ W ∧ (k, w) ∈ T ∧ (k, w) ∉ W

/-- The table after all deletions and additions is the wanted one, unless a key is mixed. -/
theorem delete_add_eq_iff {T W T' : Finset (κ × ν)}
    (h : ∀ e, e ∈ T' ↔ (e ∈ T ∧ ∀ s ∈ T \ W, e.1 ≠ s.1) ∨ e ∈ W \ T) :
    T' = W ↔ ¬ Mixed T W := by
  constructor
  · intro heq hmix
    obtain ⟨k, v, w, hvT, hvW, hwT, hwW⟩ := hmix
    rw [← heq, h] at hvW
    rcases hvW with ⟨-, hall⟩ | hnew
    · exact hall (k, w) (Finset.mem_sdiff.mpr ⟨hwT, hwW⟩) rfl
    · exact (Finset.mem_sdiff.mp hnew).2 hvT
  · intro hmix
    ext e
    rw [h]
    constructor
    · rintro (⟨heT, hall⟩ | hnew)
      · by_contra heW
        exact hall e (Finset.mem_sdiff.mpr ⟨heT, heW⟩) rfl
      · exact (Finset.mem_sdiff.mp hnew).1
    · intro heW
      by_cases heT : e ∈ T
      · refine Or.inl ⟨heT, fun s hs hkey => hmix ?_⟩
        obtain ⟨hsT, hsW⟩ := Finset.mem_sdiff.mp hs
        obtain ⟨k, v⟩ := e
        obtain ⟨k', w⟩ := s
        obtain rfl : k = k' := hkey
        exact ⟨k, v, w, heT, heW, hsT, hsW⟩
      · exact Or.inr (Finset.mem_sdiff.mpr ⟨heW, heT⟩)

end Drift
