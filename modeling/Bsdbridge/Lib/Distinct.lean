import Mathlib.Data.List.Nodup

/-!
# Lists without repetition

A list put together from pieces repeats nothing when its pieces are about different names. Three
forms of it: pieces that each name only what is theirs (`nodup_flatMap_of_names`), pieces that are
sublists of what is theirs (`sublist_flatMap_of_forall₂`), and a list read through a partial naming
of its elements (`ne_twice_of_filterMap`).

The names are what is known to be distinct, and the elements need not be of one type with them. A
piece may leave names of its own out; it may not use another's.
-/

set_option autoImplicit false

universe u v w

section

variable {α : Type u} {β : Type v} {γ : Type w}

/-- Pieces without repetition that name only what is theirs. -/
theorem nodup_flatMap_of_names {l : List α} {f : α → List β} (names : α → List γ) (key : β → γ)
    (hnd : (l.flatMap names).Nodup) (h : ∀ a ∈ l, (f a).Nodup ∧ ∀ x ∈ f a, key x ∈ names a) :
    (l.flatMap f).Nodup := by
  rw [List.nodup_flatMap] at hnd ⊢
  refine ⟨fun a ha => (h a ha).1, hnd.2.imp_of_mem fun {a b} ha hb hdis => ?_⟩
  intro x hxa hxb
  exact hdis ((h a ha).2 x hxa) ((h b hb).2 x hxb)

theorem sublist_flatMap_of_forall₂ {l : List α} {pieces : List β} {f : α → List γ}
    {g : β → List γ} (h : List.Forall₂ (fun a b => (g b).Sublist (f a)) l pieces) :
    (pieces.flatMap g).Sublist (l.flatMap f) := by
  induction h with
  | nil => exact List.Sublist.refl []
  | cons hab _ ih =>
    rw [List.flatMap_cons, List.flatMap_cons]
    exact hab.append ih

/-- An element with a name occurs once when its name does. -/
theorem ne_twice_of_filterMap {l : List α} {f : α → Option β} {a : α} {b : β}
    (hnd : (l.filterMap f).Nodup) (hab : f a = some b) : ¬ [a, a].Sublist l := by
  intro h
  have hb := h.filterMap f
  simp only [List.filterMap_cons, hab, List.filterMap_nil] at hb
  exact List.nodup_iff_sublist.mp hnd b hb

/-- What a partial naming lists is part of what a naming that extends it lists. -/
theorem filterMap_sublist_map {l : List α} {f : α → Option β} {g : α → β}
    (h : ∀ a ∈ l, ∀ b, f a = some b → b = g a) : (l.filterMap f).Sublist (l.map g) := by
  induction l with
  | nil => exact List.Sublist.refl []
  | cons a rest ih =>
    have hrest := ih fun c hc => h c (List.mem_cons_of_mem _ hc)
    rw [List.map_cons]
    cases hf : f a with
    | none =>
      rw [List.filterMap_cons_none hf]
      exact hrest.cons _
    | some b =>
      rw [List.filterMap_cons_some hf, h a List.mem_cons_self b hf]
      exact hrest.cons_cons _

end
