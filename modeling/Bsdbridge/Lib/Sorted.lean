import Bsdbridge.Lib.Dict

/-!
# Sorted walks

`sorted` of the modelled language is stable, so insertion sort computes it; `List.insertionSort`
of Mathlib is used because, unlike `List.mergeSort`, it reduces in the kernel. A walk over a
sorted list that stops at the first match is the *first-match* reading of a numbered rule
table: `find?_sortedBy` says what it finds without mentioning the sort.
-/

set_option autoImplicit false

universe u v

section SortedBy

variable {α : Type u} {κ : Type v} [LinearOrder κ]

/-- `sorted(l, key=key)`. -/
def sortedBy (key : α → κ) (l : List α) : List α := l.insertionSort fun a b => key a ≤ key b

@[simp] theorem mem_sortedBy {key : α → κ} {l : List α} {a : α} :
    a ∈ sortedBy key l ↔ a ∈ l := List.mem_insertionSort _

theorem perm_sortedBy (key : α → κ) (l : List α) : (sortedBy key l).Perm l :=
  List.perm_insertionSort _ l

theorem pairwise_sortedBy (key : α → κ) (l : List α) :
    (sortedBy key l).Pairwise fun a b => key a ≤ key b := by
  have htot : Std.Total fun a b : α => key a ≤ key b := ⟨fun a b => le_total (key a) (key b)⟩
  have htrans : IsTrans α fun a b => key a ≤ key b := ⟨fun _ _ _ => le_trans⟩
  exact List.pairwise_insertionSort _ l

theorem sortedBy_eq_self {key : α → κ} {l : List α}
    (h : l.Pairwise fun a b => key a ≤ key b) : sortedBy key l = l := h.insertionSort_eq

/-- The first match of a walk in key order: it matches, and nothing of a smaller key does. -/
theorem find?_pairwise {key : α → κ} {p : α → Bool} {l : List α} {a : α}
    (hs : l.Pairwise fun a b => key a ≤ key b)
    (hinj : ∀ x ∈ l, ∀ y ∈ l, key x = key y → x = y) :
    l.find? p = some a ↔ a ∈ l ∧ p a = true ∧ ∀ b ∈ l, key b < key a → p b = false := by
  induction l with
  | nil => simp
  | cons c t ih =>
    obtain ⟨hc, ht⟩ := List.pairwise_cons.mp hs
    have hinj' : ∀ x ∈ t, ∀ y ∈ t, key x = key y → x = y := fun x hx y hy =>
      hinj x (List.mem_cons_of_mem _ hx) y (List.mem_cons_of_mem _ hy)
    cases hp : p c with
    | true =>
      rw [List.find?_cons_of_pos hp, Option.some.injEq]
      constructor
      · rintro rfl
        refine ⟨List.mem_cons_self, hp, fun b hb hlt => ?_⟩
        rcases List.mem_cons.mp hb with rfl | hb
        · exact absurd hlt (lt_irrefl _)
        · exact absurd hlt (not_lt.mpr (hc b hb))
      · rintro ⟨ha, -, hmin⟩
        rcases List.mem_cons.mp ha with rfl | ha
        · rfl
        · -- `c` matches, so it cannot stand strictly before `a`
          have hnlt : ¬ key c < key a := fun hlt => by
            have := hmin c List.mem_cons_self hlt
            rw [hp] at this
            exact absurd this (by decide)
          exact hinj c List.mem_cons_self a (List.mem_cons_of_mem _ ha)
            (le_antisymm (hc a ha) (not_lt.mp hnlt))
    | false =>
      rw [List.find?_cons_of_neg (by simp [hp]), ih ht hinj']
      constructor
      · rintro ⟨ha, hpa, hmin⟩
        refine ⟨List.mem_cons_of_mem _ ha, hpa, fun b hb hlt => ?_⟩
        rcases List.mem_cons.mp hb with rfl | hb
        · exact hp
        · exact hmin b hb hlt
      · rintro ⟨ha, hpa, hmin⟩
        rcases List.mem_cons.mp ha with rfl | ha
        · rw [hp] at hpa
          exact absurd hpa (by decide)
        · exact ⟨ha, hpa, fun b hb => hmin b (List.mem_cons_of_mem _ hb)⟩

theorem find?_sortedBy {key : α → κ} {p : α → Bool} {l : List α} {a : α}
    (hinj : ∀ x ∈ l, ∀ y ∈ l, key x = key y → x = y) :
    (sortedBy key l).find? p = some a ↔
      a ∈ l ∧ p a = true ∧ ∀ b ∈ l, key b < key a → p b = false := by
  rw [find?_pairwise (pairwise_sortedBy key l) fun x hx y hy =>
    hinj x (mem_sortedBy.mp hx) y (mem_sortedBy.mp hy)]
  simp only [mem_sortedBy]

/-- Sorting by a key that tells the elements apart forgets the order they came in. -/
theorem sortedBy_perm {key : α → κ} {l m : List α}
    (hinj : ∀ x ∈ l, ∀ y ∈ l, key x = key y → x = y) (h : l.Perm m) :
    sortedBy key l = sortedBy key m := by
  have hperm : (sortedBy key l).Perm (sortedBy key m) :=
    ((perm_sortedBy key l).trans h).trans (perm_sortedBy key m).symm
  refine hperm.eq_of_pairwise (fun a b ha hb hab hba => ?_) (pairwise_sortedBy key l)
    (pairwise_sortedBy key m)
  exact hinj a (mem_sortedBy.mp ha) b (h.mem_iff.mpr (mem_sortedBy.mp hb)) (le_antisymm hab hba)

/-- The sorted keys are the keys of the sorted list. -/
theorem sortedBy_map (key : α → κ) (l : List α) :
    sortedBy id (l.map key) = (sortedBy key l).map key := by
  have hperm : (sortedBy id (l.map key)).Perm ((sortedBy key l).map key) :=
    (perm_sortedBy id _).trans ((perm_sortedBy key l).map key).symm
  refine hperm.eq_of_pairwise (fun a b _ _ hab hba => le_antisymm hab hba)
    (pairwise_sortedBy id _) ?_
  exact List.pairwise_map.mpr (pairwise_sortedBy key l)

end SortedBy

section SortedSet

variable {α : Type u} [LinearOrder α]

/-- `sorted(s)` of a set: `Finset.sort`, computed by insertion. -/
def sortedSet (s : Finset α) : List α :=
  Quotient.liftOn s.val (fun l => l.insertionSort (· ≤ ·)) fun l m h =>
    List.Perm.eq_of_pairwise' (List.pairwise_insertionSort _ l)
      (List.pairwise_insertionSort _ m)
      (((List.perm_insertionSort _ l).trans h).trans (List.perm_insertionSort _ m).symm)

@[simp] theorem mem_sortedSet {s : Finset α} {a : α} : a ∈ sortedSet s ↔ a ∈ s := by
  obtain ⟨m, hm⟩ := s
  induction m using Quotient.inductionOn with
  | h l => exact List.mem_insertionSort _

theorem pairwise_sortedSet (s : Finset α) : (sortedSet s).Pairwise (· ≤ ·) := by
  obtain ⟨m, hm⟩ := s
  induction m using Quotient.inductionOn with
  | h l => exact List.pairwise_insertionSort _ l

theorem nodup_sortedSet (s : Finset α) : (sortedSet s).Nodup := by
  obtain ⟨m, hm⟩ := s
  induction m using Quotient.inductionOn with
  | h l => exact (List.perm_insertionSort _ l).nodup_iff.mpr hm

/-- The set of what occurs in a list without repetition, sorted, is the list sorted. -/
theorem sortedSet_toFinset {l : List α} (h : l.Nodup) : sortedSet l.toFinset = sortedBy id l := by
  have hperm : (sortedSet l.toFinset).Perm (sortedBy id l) := by
    refine (List.perm_ext_iff_of_nodup (nodup_sortedSet _)
      ((perm_sortedBy id l).nodup_iff.mpr h)).mpr fun a => ?_
    rw [mem_sortedSet, mem_sortedBy, List.mem_toFinset]
  exact hperm.eq_of_pairwise (fun a b _ _ hab hba => le_antisymm hab hba) (pairwise_sortedSet _)
    (pairwise_sortedBy id l)

end SortedSet
