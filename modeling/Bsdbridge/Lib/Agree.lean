import Bsdbridge.Lib.Dict

/-!
# Mappings up to the order of their entries

`d == e` of the modelled language compares two mappings key by key and forgets the order their
walks have. `Dict.Agree` is that comparison, up to a relation of the values, so that nested
mappings are compared level by level. `foldl_perm` is the loop rule that goes with it: a loop whose
rounds commute up to a comparison ends, up to it, in the same state whatever the order of its
rounds.

The rule asks that the comparison is reflexive and transitive, that a round respects it, and that
two rounds of the list commute up to it. It is stated for a relation and not for equality because
dictionaries that were filled in different orders are never equal.
-/

set_option autoImplicit false

universe u v w

namespace Dict

variable {α : Type u} {β : Type v} {γ : Type w} [DecidableEq α]

/-- `d.update(e)`. -/
def update (d e : Dict α β) : Dict α β := e.entries.foldl (fun d kv => d.insert kv.1 kv.2) d

@[simp] theorem get?_update (d e : Dict α β) (k : α) :
    (d.update e).get? k = (e.get? k).or (d.get? k) := by
  obtain ⟨l, hl⟩ := e
  unfold update get?
  induction l generalizing d with
  | nil => rfl
  | cons a t ih =>
    obtain ⟨j, v⟩ := a
    obtain ⟨hj, ht⟩ := List.nodup_cons.mp hl
    have hrest := ih (d.insert j v) ht
    simp only at hrest ⊢
    rw [List.foldl_cons, hrest, List.lookup_cons]
    have hins := get?_insert d j k v
    unfold get? at hins
    rw [hins]
    by_cases hk : k = j
    · subst hk
      have hnone : t.lookup k = none := by
        rw [List.lookup_eq_none_iff]
        intro p hp
        rw [bne_iff_ne]
        intro hkp
        exact hj (List.mem_map.mpr ⟨p, hp, hkp.symm⟩)
      simp [hnone]
    · simp [hk, beq_eq_false_iff_ne.mpr hk]

/-- An update with one more entry. -/
theorem update_insert (d e : Dict α β) (k : α) (v : β) :
    d.update (e.insert k v) = (d.update e).insert k v := by
  unfold update
  by_cases hk : k ∈ e
  · obtain ⟨w, hw⟩ := mem_iff_entry.mp hk
    obtain ⟨l, m, hl⟩ := List.append_of_mem hw
    have hnd := e.nodup
    rw [hl, List.map_append, List.map_cons, List.nodup_middle, List.nodup_cons,
      List.mem_append, not_or] at hnd
    have hins : (e.insert k v).entries = l ++ (k, v) :: m := by
      show insertEntries e.entries k v = _
      rw [hl, insertEntries_mid hnd.1.1]
    rw [hins, hl, List.foldl_append, List.foldl_append, List.foldl_cons, List.foldl_cons,
      insert_foldl (mem_insert.mpr (.inl rfl)) hnd.1.2]
    congr 1
    exact Dict.ext (insertEntries_same _ _ _ _).symm
  · have hins : (e.insert k v).entries = e.entries ++ [(k, v)] := insertEntries_new hk
    rw [hins, List.foldl_append]
    rfl

/-- Updating with a dictionary made from pairs sets the pairs one after another. -/
theorem update_ofList (d : Dict α β) (l : List (α × β)) :
    d.update (ofList l) = l.foldl (fun d e => d.insert e.1 e.2) d := by
  induction l using List.reverseRecOn with
  | nil => rfl
  | append_singleton l e ih =>
    have hsnoc : ofList (l ++ [e]) = (ofList l).insert e.1 e.2 := by simp [ofList]
    rw [hsnoc, update_insert, ih, List.foldl_append]
    rfl

theorem ofList_append (l m : List (α × β)) : ofList (l ++ m) = (ofList l).update (ofList m) := by
  rw [update_ofList]
  exact List.foldl_append

/-- `d == e`, the values compared by `R`. -/
def Agree (R : β → γ → Prop) (d : Dict α β) (e : Dict α γ) : Prop :=
  ∀ k, Option.Rel R (d.get? k) (e.get? k)

section

variable {R : β → γ → Prop} {d : Dict α β} {e : Dict α γ}

theorem Agree.left (h : Agree R d e) {k : α} {v : β} (hv : d.get? k = some v) :
    ∃ w, e.get? k = some w ∧ R v w := by
  have hk := h k
  rw [hv] at hk
  cases hw : e.get? k with
  | none =>
    rw [hw] at hk
    cases hk
  | some w =>
    rw [hw] at hk
    cases hk with
    | some hR => exact ⟨w, rfl, hR⟩

theorem Agree.flip (h : Agree R d e) : Agree (fun w v => R v w) e d := by
  intro k
  have hk := h k
  generalize d.get? k = x at hk
  generalize e.get? k = y at hk
  cases hk with
  | none => exact .none
  | some hR => exact .some hR

theorem Agree.mem_iff (h : Agree R d e) {k : α} : k ∈ d ↔ k ∈ e := by
  constructor
  · intro hk
    obtain ⟨v, hv⟩ := mem_iff_get?.mp hk
    obtain ⟨w, hw, -⟩ := h.left hv
    exact mem_of_get? hw
  · intro hk
    obtain ⟨w, hw⟩ := mem_iff_get?.mp hk
    obtain ⟨v, hv, -⟩ := h.flip.left hw
    exact mem_of_get? hv

/-- To agree is to find in each what the other holds. -/
theorem agree_iff : Agree R d e ↔
    (∀ k v, d.get? k = some v → ∃ w, e.get? k = some w ∧ R v w) ∧
      ∀ k, k ∈ e → k ∈ d := by
  constructor
  · intro h
    exact ⟨fun k v hv => h.left hv, fun k hk => h.mem_iff.mpr hk⟩
  · rintro ⟨hl, hr⟩ k
    cases hd : d.get? k with
    | some v =>
      obtain ⟨w, hw, hR⟩ := hl k v hd
      rw [hw]
      exact .some hR
    | none =>
      have hk : k ∉ e := fun hm => get?_eq_none.mp hd (hr k hm)
      rw [get?_eq_none.mpr hk]
      exact .none

theorem Agree.insert (h : Agree R d e) {k : α} {v : β} {w : γ} (hR : R v w) :
    Agree R (d.insert k v) (e.insert k w) := by
  intro j
  rw [get?_insert, get?_insert]
  by_cases hj : j = k
  · rw [if_pos hj, if_pos hj]
    exact .some hR
  · rw [if_neg hj, if_neg hj]
    exact h j

end

section

variable {R : β → β → Prop} {d e f : Dict α β}

theorem Agree.refl (hR : ∀ v, R v v) (d : Dict α β) : Agree R d d := by
  intro k
  cases d.get? k with
  | none => exact .none
  | some v => exact .some (hR v)

theorem Agree.trans (hR : ∀ u v w, R u v → R v w → R u w) (hde : Agree R d e)
    (hef : Agree R e f) : Agree R d f := by
  intro k
  have h₁ := hde k
  have h₂ := hef k
  cases hv : d.get? k with
  | none =>
    rw [hv] at h₁
    cases hw : e.get? k with
    | none =>
      rw [hw] at h₂
      exact h₂
    | some w =>
      rw [hw] at h₁
      cases h₁
  | some v =>
    obtain ⟨w, hw, hvw⟩ := hde.left hv
    obtain ⟨u, hu, hwu⟩ := hef.left hw
    rw [hu]
    exact .some (hR _ _ _ hvw hwu)

/-- Mappings that look up alike agree. -/
theorem agree_eq : Agree Eq d e ↔ ∀ k, d.get? k = e.get? k := by
  constructor
  · intro h k
    cases hv : d.get? k with
    | none => exact (get?_eq_none.mpr fun hm => get?_eq_none.mp hv (h.mem_iff.mpr hm)).symm
    | some v =>
      obtain ⟨w, hw, rfl⟩ := h.left hv
      exact hw.symm
  · intro h k
    rw [h k]
    exact Agree.refl (fun _ => rfl) e k

/-- Entries of two keys can be written in either order. -/
theorem Agree.insert_comm (hR : ∀ v, R v v) {j k : α} {v w : β} (hjk : j ≠ k) :
    Agree R ((d.insert j v).insert k w) ((d.insert k w).insert j v) := by
  intro i
  simp only [get?_insert]
  by_cases hi : i = k
  · have hij : i ≠ j := fun h => hjk (h.symm.trans hi)
    rw [if_pos hi, if_neg hij, if_pos hi]
    exact .some (hR w)
  · by_cases hj : i = j
    · rw [if_neg hi, if_pos hj, if_pos hj]
      exact .some (hR v)
    · rw [if_neg hi, if_neg hj, if_neg hj, if_neg hi]
      exact Agree.refl hR d i

/-- Two entries of one key: the first is overwritten. -/
theorem Agree.insert_insert {k : α} {v v' w w' : β} (h : Agree R d e) (hR : R w w') :
    Agree R ((d.insert k v).insert k w) ((e.insert k v').insert k w') := by
  intro i
  simp only [get?_insert]
  by_cases hi : i = k
  · rw [if_pos hi, if_pos hi]
    exact .some hR
  · rw [if_neg hi, if_neg hi, if_neg hi, if_neg hi]
    exact h i

end

end Dict

section Foldl

variable {α : Type u} {σ : Type v} {R : σ → σ → Prop} {f : σ → α → σ}

/-- A loop whose rounds keep a comparison keeps it. -/
theorem foldl_congr (hcongr : ∀ a s s', R s s' → R (f s a) (f s' a)) (l : List α) {s s' : σ}
    (h : R s s') : R (l.foldl f s) (l.foldl f s') := by
  induction l generalizing s s' with
  | nil => exact h
  | cons a t ih => exact ih (hcongr a s s' h)

/-- **The order of the rounds does not matter** where any two of them can be exchanged. -/
theorem foldl_perm (hrefl : ∀ s, R s s) (htrans : ∀ s t u, R s t → R t u → R s u)
    (hcongr : ∀ a s s', R s s' → R (f s a) (f s' a)) {l m : List α} (h : l.Perm m)
    (hswap : ∀ a ∈ l, ∀ b ∈ l, ∀ s, R (f (f s a) b) (f (f s b) a)) (s : σ) :
    R (l.foldl f s) (m.foldl f s) := by
  induction h generalizing s with
  | nil => exact hrefl s
  | cons a _ ih =>
    exact ih (fun b hb c hc => hswap b (List.mem_cons_of_mem _ hb) c (List.mem_cons_of_mem _ hc))
      (f s a)
  | swap a b t =>
    have hab := hswap b List.mem_cons_self a (List.mem_cons_of_mem _ List.mem_cons_self) s
    exact foldl_congr hcongr t hab
  | trans h₁ _ ih₁ ih₂ =>
    refine htrans _ _ _ (ih₁ hswap s) (ih₂ (fun a ha b hb => ?_) s)
    exact hswap a (h₁.mem_iff.mpr ha) b (h₁.mem_iff.mpr hb)

end Foldl
