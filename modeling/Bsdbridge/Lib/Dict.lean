import Mathlib

/-!
# Insertion-ordered dictionaries

The mapping type of the modelled language: every key occurs once, a lookup is by key, and a walk
over the mapping visits the entries in the order their keys were first inserted.

`AList` of Mathlib forgets that order (its `insert` moves the key to the front), so it cannot model
a program whose output order is the order of such a walk. The invariant "every key occurs once" is
a field of `Dict`, so no later proof has to carry it.

Each operation comes with two kinds of lemma: what a lookup finds after it, and which entries there
are after it. Proofs about lookups use the first kind and never see the list; proofs about walks
use the second. A dictionary that a program text spells out is given by its list and a proof that
the keys differ.
-/

set_option autoImplicit false

universe u v w

/-- An insertion-ordered mapping. -/
structure Dict (α : Type u) (β : Type v) where
  entries : List (α × β)
  nodup : (entries.map Prod.fst).Nodup
  deriving DecidableEq

namespace Dict

variable {α : Type u} {β : Type v} {γ : Type w}

@[ext] theorem ext {d e : Dict α β} (h : d.entries = e.entries) : d = e := by
  cases d
  cases e
  subst h
  rfl

def empty : Dict α β := ⟨[], List.nodup_nil⟩

instance : EmptyCollection (Dict α β) := ⟨empty⟩

instance : Inhabited (Dict α β) := ⟨empty⟩

/-- `d.keys()`, in order. -/
def keys (d : Dict α β) : List α := d.entries.map Prod.fst

/-- `d.values()`, in order. -/
def values (d : Dict α β) : List β := d.entries.map Prod.snd

/-- `k in d`. -/
instance : Membership α (Dict α β) := ⟨fun d k => k ∈ d.keys⟩

instance [DecidableEq α] (k : α) (d : Dict α β) : Decidable (k ∈ d) :=
  inferInstanceAs (Decidable (k ∈ d.keys))

@[simp] theorem mem_keys {d : Dict α β} {k : α} : k ∈ d.keys ↔ k ∈ d := Iff.rfl

@[simp] theorem not_mem_empty (k : α) : k ∉ (∅ : Dict α β) := List.not_mem_nil

@[simp] theorem entries_empty : (∅ : Dict α β).entries = [] := rfl

theorem mem_iff_entry {d : Dict α β} {k : α} : k ∈ d ↔ ∃ v, (k, v) ∈ d.entries := by
  rw [← mem_keys, keys, List.mem_map]
  constructor
  · rintro ⟨⟨k', v⟩, hm, rfl⟩
    exact ⟨v, hm⟩
  · rintro ⟨v, hm⟩
    exact ⟨(k, v), hm, rfl⟩

theorem mem_of_entry {d : Dict α β} {k : α} {v : β} (h : (k, v) ∈ d.entries) : k ∈ d :=
  mem_iff_entry.mpr ⟨v, h⟩

/-- Two entries of one dictionary with one key are one entry. -/
theorem entry_unique {d : Dict α β} {k : α} {v w : β} (hv : (k, v) ∈ d.entries)
    (hw : (k, w) ∈ d.entries) : v = w := by
  have := List.inj_on_of_nodup_map d.nodup hv hw rfl
  simpa using this

section Lookup

variable [DecidableEq α]

/-- `d.get(k)`. -/
def get? (d : Dict α β) (k : α) : Option β := d.entries.lookup k

theorem get?_eq_some {d : Dict α β} {k : α} {v : β} :
    d.get? k = some v ↔ (k, v) ∈ d.entries := by
  obtain ⟨l, hl⟩ := d
  unfold get?
  induction l with
  | nil => simp
  | cons e t ih =>
    obtain ⟨j, w⟩ := e
    simp only [List.map_cons, List.nodup_cons] at hl
    simp only [List.lookup_cons, List.mem_cons, Prod.mk.injEq]
    by_cases hk : k = j
    · subst hk
      have hnot : (k, v) ∉ t := fun hm => hl.1 (List.mem_map_of_mem hm)
      simp [hnot, eq_comm]
    · have hb : (k == j) = false := by simpa using hk
      simpa [hb, hk] using ih hl.2

theorem get?_eq_none {d : Dict α β} {k : α} : d.get? k = none ↔ k ∉ d := by
  rw [mem_iff_entry, Option.eq_none_iff_forall_ne_some]
  simp only [ne_eq, get?_eq_some, not_exists]

theorem mem_iff_get? {d : Dict α β} {k : α} : k ∈ d ↔ ∃ v, d.get? k = some v := by
  simp only [mem_iff_entry, get?_eq_some]

theorem mem_of_get? {d : Dict α β} {k : α} {v : β} (h : d.get? k = some v) : k ∈ d :=
  mem_iff_get?.mpr ⟨v, h⟩

@[simp] theorem get?_empty (k : α) : (∅ : Dict α β).get? k = none := rfl

/-- `d[k]`, with `e` for the `KeyError`. -/
def getItem {ε : Type w} (d : Dict α β) (k : α) (e : ε) : Except ε β :=
  match d.get? k with
  | some v => .ok v
  | none => .error e

theorem getItem_eq_ok {ε : Type w} {d : Dict α β} {k : α} {e : ε} {v : β} :
    d.getItem k e = .ok v ↔ d.get? k = some v := by
  unfold getItem
  cases d.get? k <;> simp

end Lookup

section Update

variable [DecidableEq α]

/-- Replace the entry of `k` in place, or append one. -/
def insertEntries : List (α × β) → α → β → List (α × β)
  | [], k, v => [(k, v)]
  | (j, w) :: t, k, v => if j = k then (k, v) :: t else (j, w) :: insertEntries t k v

theorem keys_insertEntries (l : List (α × β)) (k : α) (v : β) :
    (insertEntries l k v).map Prod.fst =
      if k ∈ l.map Prod.fst then l.map Prod.fst else l.map Prod.fst ++ [k] := by
  induction l with
  | nil => simp [insertEntries]
  | cons e t ih =>
    obtain ⟨j, w⟩ := e
    by_cases hj : j = k
    · subst hj
      simp [insertEntries]
    · have hk : ¬ k = j := fun h => hj h.symm
      simp only [insertEntries, if_neg hj, List.map_cons, ih, List.mem_cons, hk, false_or]
      split <;> simp

theorem insertEntries_same (l : List (α × β)) (k : α) (v w : β) :
    insertEntries (insertEntries l k w) k v = insertEntries l k v := by
  induction l with
  | nil => simp [insertEntries]
  | cons e t ih =>
    obtain ⟨j, u⟩ := e
    by_cases hj : j = k
    · simp [insertEntries, hj]
    · simp [insertEntries, hj, ih]

/-- A key that is there keeps its place, whatever else is inserted. -/
theorem insertEntries_comm {l : List (α × β)} {j k : α} (hk : k ∈ l.map Prod.fst) (hj : j ≠ k)
    (u v : β) : insertEntries (insertEntries l j u) k v =
      insertEntries (insertEntries l k v) j u := by
  induction l with
  | nil => exact absurd hk List.not_mem_nil
  | cons e t ih =>
    obtain ⟨i, x⟩ := e
    by_cases hik : i = k
    · subst hik
      simp [insertEntries, Ne.symm hj]
    · have ht : k ∈ t.map Prod.fst := (List.mem_cons.mp hk).resolve_left fun h => hik h.symm
      by_cases hij : i = j
      · subst hij
        simp [insertEntries, hik]
      · simp [insertEntries, hik, hij, ih ht]

/-- `d[k] = v`. -/
def insert (d : Dict α β) (k : α) (v : β) : Dict α β where
  entries := insertEntries d.entries k v
  nodup := by
    rw [keys_insertEntries]
    split
    · exact d.nodup
    · rename_i hk
      exact List.nodup_append.mpr ⟨d.nodup, List.nodup_singleton k, fun a ha b hb hab => by
        rw [List.mem_singleton.mp hb] at hab
        exact hk (hab ▸ ha)⟩

theorem lookup_insertEntries (l : List (α × β)) (k j : α) (v : β) :
    (insertEntries l k v).lookup j = if j = k then some v else l.lookup j := by
  induction l with
  | nil =>
    by_cases hj : j = k
    · simp [insertEntries, hj]
    · simp [insertEntries, List.lookup_cons, beq_eq_false_iff_ne.mpr hj, hj]
  | cons e t ih =>
    obtain ⟨i, w⟩ := e
    by_cases hi : i = k
    · subst hi
      by_cases hj : j = i
      · simp [insertEntries, hj]
      · simp [insertEntries, List.lookup_cons, beq_eq_false_iff_ne.mpr hj, hj]
    · simp only [insertEntries, if_neg hi, List.lookup_cons, ih]
      by_cases hji : j = i
      · subst hji
        simp [hi]
      · have hb : (j == i) = false := by simpa using hji
        simp [hb]

@[simp] theorem get?_insert (d : Dict α β) (k j : α) (v : β) :
    (d.insert k v).get? j = if j = k then some v else d.get? j :=
  lookup_insertEntries d.entries k j v

@[simp] theorem mem_insert {d : Dict α β} {k j : α} {v : β} :
    j ∈ d.insert k v ↔ j = k ∨ j ∈ d := by
  simp only [mem_iff_get?, get?_insert]
  by_cases hj : j = k <;> simp [hj]

/-- An entry of `d[k] = v` is the new one, or an old one of another key. -/
theorem entry_insert {d : Dict α β} {k j : α} {v w : β} :
    (j, w) ∈ (d.insert k v).entries ↔ (j = k ∧ w = v) ∨ (j ≠ k ∧ (j, w) ∈ d.entries) := by
  rw [← get?_eq_some, get?_insert, ← get?_eq_some]
  by_cases hj : j = k
  · simp [hj, eq_comm]
  · simp [hj]

/-- A dictionary from a list of pairs: the last value of a key wins, at its first place. -/
def ofList (l : List (α × β)) : Dict α β := l.foldl (fun d e => d.insert e.1 e.2) ∅

theorem insertEntries_new {l : List (α × β)} {k : α} {v : β} (h : k ∉ l.map Prod.fst) :
    insertEntries l k v = l ++ [(k, v)] := by
  induction l with
  | nil => rfl
  | cons e t ih =>
    obtain ⟨j, w⟩ := e
    simp only [List.map_cons, List.mem_cons, not_or] at h
    rw [insertEntries, if_neg (Ne.symm h.1), ih h.2, List.cons_append]

/-- Pairs of distinct keys are the entries of their dictionary. -/
theorem entries_ofList {l : List (α × β)} (h : (l.map Prod.fst).Nodup) :
    (ofList l).entries = l := by
  have hgen : ∀ (m : List (α × β)) (d : Dict α β), (d.entries ++ m).map Prod.fst |>.Nodup →
      (m.foldl (fun d e => d.insert e.1 e.2) d).entries = d.entries ++ m := by
    intro m
    induction m with
    | nil => intro d _; simp
    | cons e t ih =>
      intro d hd
      have hnew : e.1 ∉ d.entries.map Prod.fst := by
        intro hm
        rw [List.map_append, List.nodup_append] at hd
        exact hd.2.2 e.1 hm e.1 List.mem_cons_self rfl
      have hins : (d.insert e.1 e.2).entries = d.entries ++ [e] := insertEntries_new hnew
      rw [List.foldl_cons, ih _ (by rw [hins, List.append_assoc]; exact hd), hins,
        List.append_assoc, List.singleton_append]
  exact hgen l ∅ h

/-- A key that is there is replaced where it stands. -/
theorem insertEntries_mid {l m : List (α × β)} {k : α} {v w : β} (h : k ∉ l.map Prod.fst) :
    insertEntries (l ++ (k, w) :: m) k v = l ++ (k, v) :: m := by
  induction l with
  | nil => simp [insertEntries]
  | cons e t ih =>
    obtain ⟨j, u⟩ := e
    simp only [List.map_cons, List.mem_cons, not_or] at h
    rw [List.cons_append, insertEntries, if_neg (Ne.symm h.1), ih h.2, List.cons_append]

/-- The last value of a key is the one it has. -/
theorem get?_ofList (l : List (α × β)) (k : α) : (ofList l).get? k = l.reverse.lookup k := by
  induction l using List.reverseRecOn with
  | nil => rfl
  | append_singleton l e ih =>
    have hsnoc : ofList (l ++ [e]) = (ofList l).insert e.1 e.2 := by simp [ofList]
    rw [hsnoc, get?_insert, ih, List.reverse_append, List.reverse_singleton,
      List.singleton_append, List.lookup_cons]
    by_cases hk : k = e.1
    · simp [hk]
    · simp [hk, beq_eq_false_iff_ne.mpr hk]

@[simp] theorem mem_ofList {l : List (α × β)} {k : α} :
    k ∈ ofList l ↔ k ∈ l.map Prod.fst := by
  induction l using List.reverseRecOn with
  | nil => exact Iff.rfl
  | append_singleton l e ih =>
    have hsnoc : ofList (l ++ [e]) = (ofList l).insert e.1 e.2 := by simp [ofList]
    rw [hsnoc, mem_insert, ih, List.map_append, List.mem_append, List.map_singleton,
      List.mem_singleton, or_comm]

/-- `d.pop(k, None)`. -/
def erase (d : Dict α β) (k : α) : Dict α β where
  entries := d.entries.filter fun e => e.1 ≠ k
  nodup := List.Nodup.sublist (List.Sublist.map _ List.filter_sublist) d.nodup

theorem entry_erase {d : Dict α β} {k j : α} {w : β} :
    (j, w) ∈ (d.erase k).entries ↔ j ≠ k ∧ (j, w) ∈ d.entries := by
  simp [erase, and_comm]

@[simp] theorem get?_erase (d : Dict α β) (k j : α) :
    (d.erase k).get? j = if j = k then none else d.get? j := by
  apply Option.ext
  intro w
  rw [get?_eq_some, entry_erase]
  by_cases hj : j = k <;> simp [hj, get?_eq_some]

@[simp] theorem mem_erase {d : Dict α β} {k j : α} : j ∈ d.erase k ↔ j ≠ k ∧ j ∈ d := by
  simp only [mem_iff_get?, get?_erase]
  by_cases hj : j = k <;> simp [hj]

/-! ### Many updates -/

theorem get?_foldl_insert_of_notMem {l : List (α × β)} {d : Dict α β} {k : α}
    (h : k ∉ l.map Prod.fst) : (l.foldl (fun d e => d.insert e.1 e.2) d).get? k = d.get? k := by
  induction l generalizing d with
  | nil => rfl
  | cons e t ih =>
    rw [List.map_cons, List.mem_cons, not_or] at h
    rw [List.foldl_cons, ih h.2, get?_insert, if_neg h.1]

/-- Of distinct keys, each gets its value. -/
theorem get?_foldl_insert {l : List (α × β)} {d : Dict α β} {k : α} {v : β}
    (hnd : (l.map Prod.fst).Nodup) (h : (k, v) ∈ l) :
    (l.foldl (fun d e => d.insert e.1 e.2) d).get? k = some v := by
  induction l generalizing d with
  | nil => exact absurd h List.not_mem_nil
  | cons e t ih =>
    rw [List.map_cons, List.nodup_cons] at hnd
    rw [List.foldl_cons]
    rcases List.mem_cons.mp h with rfl | h
    · rw [get?_foldl_insert_of_notMem hnd.1, get?_insert, if_pos rfl]
    · exact ih hnd.2 h

/-- A key of its own may as well be set first. -/
theorem insert_foldl {l : List (α × β)} {d : Dict α β} {k : α} {v : β} (hk : k ∈ d)
    (h : k ∉ l.map Prod.fst) : (l.foldl (fun d e => d.insert e.1 e.2) d).insert k v =
      l.foldl (fun d e => d.insert e.1 e.2) (d.insert k v) := by
  induction l generalizing d with
  | nil => rfl
  | cons e t ih =>
    rw [List.map_cons, List.mem_cons, not_or] at h
    have hswap : (d.insert e.1 e.2).insert k v = (d.insert k v).insert e.1 e.2 :=
      Dict.ext (insertEntries_comm hk (Ne.symm h.1) _ _)
    rw [List.foldl_cons, List.foldl_cons, ih (mem_insert.mpr (.inr hk)) h.2, hswap]

theorem get?_foldl_erase {γ : Type w} {f : γ → α} {l : List γ} {d : Dict α β} {k : α} :
    (l.foldl (fun d e => d.erase (f e)) d).get? k =
      if k ∈ l.map f then none else d.get? k := by
  induction l generalizing d with
  | nil => simp
  | cons e t ih =>
    rw [List.foldl_cons, ih, get?_erase, List.map_cons]
    by_cases hk : k = f e <;> simp [hk]

end Update

/-! ## Comprehensions

Mappings over all values, and filters: what the modelled language writes as `{k: f(v) for ...}`. -/

/-- `{k: f(k, v) for k, v in d.items()}`. -/
def mapVal (f : α → β → γ) (d : Dict α β) : Dict α γ where
  entries := d.entries.map fun e => (e.1, f e.1 e.2)
  nodup := by
    rw [List.map_map]
    exact d.nodup

theorem entry_mapVal {f : α → β → γ} {d : Dict α β} {k : α} {w : γ} :
    (k, w) ∈ (d.mapVal f).entries ↔ ∃ v, (k, v) ∈ d.entries ∧ f k v = w := by
  simp only [mapVal, List.mem_map, Prod.mk.injEq, Prod.exists]
  constructor
  · rintro ⟨k', v, hm, rfl, hw⟩
    exact ⟨v, hm, hw⟩
  · rintro ⟨v, hm, hw⟩
    exact ⟨k, v, hm, rfl, hw⟩

@[simp] theorem get?_mapVal [DecidableEq α] (f : α → β → γ) (d : Dict α β) (k : α) :
    (d.mapVal f).get? k = (d.get? k).map (f k) := by
  apply Option.ext
  intro w
  rw [get?_eq_some, entry_mapVal, Option.map_eq_some_iff]
  simp only [get?_eq_some]

@[simp] theorem mem_mapVal {f : α → β → γ} {d : Dict α β} {k : α} :
    k ∈ d.mapVal f ↔ k ∈ d := by
  simp only [mem_iff_entry, entry_mapVal]
  constructor
  · rintro ⟨w, v, hm, -⟩
    exact ⟨v, hm⟩
  · rintro ⟨v, hm⟩
    exact ⟨f k v, v, hm, rfl⟩

/-- `{k: v for k, v in d.items() if p(k, v)}`. -/
def filter (p : α → β → Bool) (d : Dict α β) : Dict α β where
  entries := d.entries.filter fun e => p e.1 e.2
  nodup := List.Nodup.sublist (List.Sublist.map _ List.filter_sublist) d.nodup

@[simp] theorem entry_filter {p : α → β → Bool} {d : Dict α β} {k : α} {v : β} :
    (k, v) ∈ (d.filter p).entries ↔ (k, v) ∈ d.entries ∧ p k v = true := by
  simp [filter]

end Dict

/-- An association list made of its keys. -/
theorem lookup_map_key {α : Type u} {β : Type v} [BEq α] [LawfulBEq α] {l : List α} {f : α → β}
    {k : α} (h : k ∈ l) : (l.map fun a => (a, f a)).lookup k = some (f k) := by
  induction l with
  | nil => exact absurd h List.not_mem_nil
  | cons a rest ih =>
    rw [List.map_cons, List.lookup_cons]
    by_cases hk : k = a
    · simp [hk]
    · rw [beq_eq_false_iff_ne.mpr hk]
      exact ih ((List.mem_cons.mp h).resolve_left hk)
