import Mathlib

/-!
# Walks that may raise

A program that may raise is an `Except`; a loop whose rounds may raise is `List.mapM`. The two
inversions below peel such a program apart without unfolding it: a successful bind is two
successful halves, a successful walk is one successful round per element, in order.

The relation between the elements and the results of a successful walk is `List.Forall₂`. Much of
what is proved about it afterwards is about that relation: members on either side have partners,
and what holds of every pair holds of a map. `RaisesOnly` and `Raises` are about the other outcome:
which exceptions a program can raise, and whether it raises one of some kind.
-/

set_option autoImplicit false

universe u v w

namespace Except

variable {ε : Type u} {α β : Type v}

theorem bind_eq_ok {x : Except ε α} {f : α → Except ε β} {b : β} :
    (x >>= f) = .ok b ↔ ∃ a, x = .ok a ∧ f a = .ok b := by
  cases x with
  | ok a => simp [bind, Except.bind]
  | error e => simp [bind, Except.bind]

/-- What each round of a loop that gets through keeps, the loop keeps. -/
theorem foldlM_keeps {f : α → β → Except ε α} {P : α → Prop}
    (hround : ∀ a b a', P a → f a b = .ok a' → P a') {l : List β} {a c : α}
    (h : l.foldlM f a = .ok c) (ha : P a) : P c := by
  induction l generalizing a with
  | nil =>
    rw [List.foldlM_nil] at h
    cases h
    exact ha
  | cons b t ih =>
    rw [List.foldlM_cons] at h
    obtain ⟨a', ha', hrest⟩ := bind_eq_ok.mp h
    exact ih hrest (hround a b a' ha ha')

theorem pure_eq_ok {a b : α} : (pure a : Except ε α) = .ok b ↔ a = b := by
  simp [pure, Except.pure]

@[simp] theorem ok_bind (a : α) (f : α → Except ε β) :
    ((.ok a : Except ε α) >>= f) = f a := rfl

@[simp] theorem error_bind (e : ε) (f : α → Except ε β) :
    ((.error e : Except ε α) >>= f) = .error e := rfl

/-- Every error of a program is one of a kind. -/
def RaisesOnly (Q : ε → Prop) (x : Except ε α) : Prop := ∀ e, x = .error e → Q e

section RaisesOnly

variable {Q : ε → Prop}

theorem RaisesOnly.ok {a : α} : RaisesOnly Q (.ok a) := by
  intro e h
  exact absurd h (by simp)

theorem RaisesOnly.error {e : ε} (h : Q e) : RaisesOnly Q (.error e : Except ε α) := by
  intro e' he
  cases he
  exact h

theorem RaisesOnly.bind {x : Except ε α} {f : α → Except ε β} (hx : RaisesOnly Q x)
    (hf : ∀ a, x = .ok a → RaisesOnly Q (f a)) : RaisesOnly Q (x >>= f) := by
  intro e he
  cases hxa : x with
  | error e' =>
    rw [hxa] at he
    cases he
    exact hx e hxa
  | ok a =>
    rw [hxa] at he
    exact hf a hxa e he

theorem RaisesOnly.mapM {f : α → Except ε β} {l : List α} (h : ∀ a ∈ l, RaisesOnly Q (f a)) :
    RaisesOnly Q (l.mapM f) := by
  induction l with
  | nil => exact RaisesOnly.ok
  | cons a t ih =>
    rw [List.mapM_cons]
    refine RaisesOnly.bind (h a List.mem_cons_self) fun b _ => ?_
    exact RaisesOnly.bind (ih fun c hc => h c (List.mem_cons_of_mem _ hc)) fun _ _ =>
      RaisesOnly.ok

/-- A program that raises one kind of error and does not return raises such an error. -/
theorem RaisesOnly.exists_error {x : Except ε α} (hx : RaisesOnly Q x) (hno : ∀ a, x ≠ .ok a) :
    ∃ e, x = .error e ∧ Q e := by
  cases hxa : x with
  | error e => exact ⟨e, rfl, hx e hxa⟩
  | ok a => exact absurd hxa (hno a)

end RaisesOnly

/-- A program raises an error of a kind. -/
def Raises (Q : ε → Prop) (x : Except ε α) : Prop := ∃ e, x = .error e ∧ Q e

section Raises

variable {Q : ε → Prop}

@[simp] theorem raises_ok {a : α} : ¬ Raises Q (.ok a) := by
  rintro ⟨e, he, -⟩
  cases he

@[simp] theorem raises_error {e : ε} : Raises Q (.error e : Except ε α) ↔ Q e := by
  constructor
  · rintro ⟨e', he, hq⟩
    cases he
    exact hq
  · intro hq
    exact ⟨e, rfl, hq⟩

/-- A sequence raises what its first half raises, or what its second does once the first is
through. -/
theorem raises_bind {x : Except ε α} {f : α → Except ε β} :
    Raises Q (x >>= f) ↔ Raises Q x ∨ ∃ a, x = .ok a ∧ Raises Q (f a) := by
  cases x with
  | ok a => simp
  | error e => simp

theorem raises_bind_pure {x : Except ε α} {f : α → β} :
    Raises Q (x >>= fun a => pure (f a)) ↔ Raises Q x := by
  cases x with
  | ok a => exact iff_of_false raises_ok raises_ok
  | error e => simp

/-- A loop raises what a round raises that the rounds before it let through. -/
theorem raises_foldlM {f : α → β → Except ε α} {a : α} {l : List β} :
    Raises Q (l.foldlM f a) ↔ ∃ before b after c, l = before ++ b :: after ∧
      before.foldlM f a = .ok c ∧ Raises Q (f c b) := by
  induction l generalizing a with
  | nil => simp [pure, Except.pure]
  | cons b t ih =>
    rw [List.foldlM_cons, raises_bind]
    constructor
    · rintro (hb | ⟨a', ha', ht⟩)
      · exact ⟨[], b, t, a, rfl, rfl, hb⟩
      · obtain ⟨before, b', after, c, rfl, hbefore, hraise⟩ := ih.mp ht
        refine ⟨b :: before, b', after, c, rfl, ?_, hraise⟩
        rw [List.foldlM_cons, ha']
        exact hbefore
    · rintro ⟨before, b', after, c, hsplit, hbefore, hraise⟩
      cases before with
      | nil =>
        obtain ⟨rfl, rfl⟩ := List.cons.inj hsplit
        obtain rfl := Except.pure_eq_ok.mp hbefore
        exact .inl hraise
      | cons x before =>
        obtain ⟨rfl, rfl⟩ := List.cons.inj hsplit
        rw [List.foldlM_cons] at hbefore
        obtain ⟨a', ha', hrest⟩ := Except.bind_eq_ok.mp hbefore
        exact .inr ⟨a', ha', ih.mpr ⟨before, b', after, c, rfl, hrest, hraise⟩⟩

/-- A walk raises what a round raises that the rounds before it let through. -/
theorem raises_mapM {f : α → Except ε β} {l : List α} :
    Raises Q (l.mapM f) ↔ ∃ before a after, l = before ++ a :: after ∧
      (∀ x ∈ before, ∃ y, f x = .ok y) ∧ Raises Q (f a) := by
  induction l with
  | nil => simp [pure, Except.pure]
  | cons a t ih =>
    rw [List.mapM_cons, raises_bind]
    simp only [raises_bind_pure]
    constructor
    · rintro (ha | ⟨b, hb, ht⟩)
      · exact ⟨[], a, t, rfl, fun _ h => absurd h List.not_mem_nil, ha⟩
      · obtain ⟨before, a', after, rfl, hbefore, hraise⟩ := ih.mp ht
        refine ⟨a :: before, a', after, rfl, ?_, hraise⟩
        intro x hx
        rcases List.mem_cons.mp hx with rfl | hx
        · exact ⟨b, hb⟩
        · exact hbefore x hx
    · rintro ⟨before, a', after, hsplit, hbefore, hraise⟩
      cases before with
      | nil =>
        obtain ⟨rfl, rfl⟩ := List.cons.inj hsplit
        exact .inl hraise
      | cons x before =>
        obtain ⟨rfl, rfl⟩ := List.cons.inj hsplit
        obtain ⟨b, hb⟩ := hbefore a List.mem_cons_self
        refine .inr ⟨b, hb, ih.mpr ⟨before, a', after, rfl, ?_, hraise⟩⟩
        exact fun x hx => hbefore x (List.mem_cons_of_mem _ hx)

end Raises

end Except

section MapM

variable {ε : Type u} {α β : Type v} {f : α → Except ε β}

theorem mapM_eq_ok {l : List α} {r : List β} :
    l.mapM f = .ok r ↔ List.Forall₂ (fun a b => f a = .ok b) l r := by
  induction l generalizing r with
  | nil =>
    rw [List.mapM_nil, Except.pure_eq_ok]
    constructor
    · rintro rfl
      exact List.Forall₂.nil
    · intro h
      cases h
      rfl
  | cons a t ih =>
    simp only [List.mapM_cons, Except.bind_eq_ok, Except.pure_eq_ok]
    constructor
    · rintro ⟨b, hb, s, hs, rfl⟩
      exact List.Forall₂.cons hb (ih.mp hs)
    · intro h
      cases h with
      | cons hb ht => exact ⟨_, hb, _, ih.mpr ht, rfl⟩

theorem exists_of_mem_left {R : α → β → Prop} {l : List α} {r : List β}
    (h : List.Forall₂ R l r) {a : α} (ha : a ∈ l) : ∃ b ∈ r, R a b := by
  induction h with
  | nil => exact absurd ha List.not_mem_nil
  | cons hb ht ih =>
    rcases List.mem_cons.mp ha with rfl | ha
    · exact ⟨_, List.mem_cons_self, hb⟩
    · obtain ⟨b, hm, hR⟩ := ih ha
      exact ⟨b, List.mem_cons_of_mem _ hm, hR⟩

theorem exists_of_mem_right {R : α → β → Prop} {l : List α} {r : List β}
    (h : List.Forall₂ R l r) {b : β} (hb : b ∈ r) : ∃ a ∈ l, R a b :=
  exists_of_mem_left h.flip hb

/-- Related lists are those related through a third. -/
theorem forall₂_exists_mid {γ : Type w} {R : α → β → Prop} {S : β → γ → Prop} {l : List α}
    {n : List γ} : List.Forall₂ (fun a c => ∃ b, R a b ∧ S b c) l n ↔
      ∃ m, List.Forall₂ R l m ∧ List.Forall₂ S m n := by
  constructor
  · intro h
    induction h with
    | nil => exact ⟨[], .nil, .nil⟩
    | cons hac _ ih =>
      obtain ⟨b, hR, hS⟩ := hac
      obtain ⟨m, hRm, hSm⟩ := ih
      exact ⟨b :: m, .cons hR hRm, .cons hS hSm⟩
  · rintro ⟨m, hR, hS⟩
    induction hR generalizing n with
    | nil =>
      cases hS
      exact .nil
    | cons hab _ ih =>
      cases hS with
      | cons hbc hrest => exact .cons ⟨_, hab, hbc⟩ (ih hrest)

theorem exists_forall₂ {R : α → β → Prop} {l : List α} (h : ∀ a ∈ l, ∃ b, R a b) :
    ∃ r, List.Forall₂ R l r := by
  induction l with
  | nil => exact ⟨[], .nil⟩
  | cons a t ih =>
    obtain ⟨b, hb⟩ := h a List.mem_cons_self
    obtain ⟨r, hr⟩ := ih fun x hx => h x (List.mem_cons_of_mem _ hx)
    exact ⟨b :: r, .cons hb hr⟩

/-- Related lists agree in what their related elements agree in. -/
theorem map_eq_of_forall₂ {γ : Type w} {R : α → β → Prop} {f : α → γ} {g : β → γ} {l : List α}
    {r : List β} (h : List.Forall₂ R l r) (hR : ∀ a ∈ l, ∀ b, R a b → f a = g b) :
    l.map f = r.map g := by
  induction h with
  | nil => rfl
  | cons hab _ ih =>
    rw [List.map_cons, List.map_cons, hR _ List.mem_cons_self _ hab,
      ih fun a ha => hR a (List.mem_cons_of_mem _ ha)]

theorem eq_map_of_forall₂ {g : α → β} {l : List α} {r : List β}
    (h : List.Forall₂ (fun a b => b = g a) l r) : r = l.map g := by
  induction h with
  | nil => rfl
  | cons hb _ ih => rw [List.map_cons, hb, ih]

theorem flatMap_of_forall₂ {γ : Type w} {l : List α} {r : List β} {f : α → List γ}
    {g : β → List γ} (h : List.Forall₂ (fun a b => f a = g b) l r) :
    r.flatMap g = l.flatMap f := by
  induction h with
  | nil => rfl
  | cons hb _ ih => rw [List.flatMap_cons, List.flatMap_cons, hb, ih]

/-- A walk whose rounds all succeed succeeds. -/
theorem exists_mapM_ok {l : List α} (h : ∀ a ∈ l, ∃ b, f a = .ok b) :
    ∃ r, l.mapM f = .ok r := by
  induction l with
  | nil => exact ⟨[], rfl⟩
  | cons a t ih =>
    obtain ⟨b, hb⟩ := h a List.mem_cons_self
    obtain ⟨r, hr⟩ := ih fun x hx => h x (List.mem_cons_of_mem _ hx)
    exact ⟨b :: r, by rw [List.mapM_cons, hb, hr]; rfl⟩

end MapM

/-! ## Walks that may have no answer

The same for `Option`. -/

namespace Option

variable {α : Type u} {β : Type v}

/-- A walk stops where one of its rounds does. -/
theorem mapM_eq_none {f : α → Option β} {l : List α} :
    l.mapM f = none ↔ ∃ a ∈ l, f a = none := by
  induction l with
  | nil => simp
  | cons a t ih =>
    rw [List.mapM_cons]
    cases ha : f a with
    | none => simp [ha]
    | some b => cases ht : t.mapM f <;> simp_all

/-- What such a walk collects was answered by some round. -/
theorem exists_of_mem_mapM {f : α → Option β} {l : List α} {r : List β} {b : β}
    (h : l.mapM f = some r) (hb : b ∈ r) : ∃ a ∈ l, f a = some b := by
  induction l generalizing r with
  | nil =>
    obtain rfl := Option.some.inj h
    exact absurd hb List.not_mem_nil
  | cons a t ih =>
    rw [List.mapM_cons] at h
    obtain ⟨c, hc, h⟩ := Option.bind_eq_some_iff.mp h
    obtain ⟨r', hr, h⟩ := Option.bind_eq_some_iff.mp h
    obtain rfl := Option.some.inj h
    rcases List.mem_cons.mp hb with rfl | hb
    · exact ⟨a, List.mem_cons_self, hc⟩
    · obtain ⟨x, hx, hf⟩ := ih hr hb
      exact ⟨x, List.mem_cons_of_mem _ hx, hf⟩

end Option
