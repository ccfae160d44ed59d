import Mathlib

/-!
# Programs that may stop

A program over a state, of which any step may be the last: its answer is `none` when it stopped,
and the state is then the one it stopped in, for nothing after the stop ran. A crash and an
exception nobody catches are both of this kind.

`Triple` has a postcondition for each of the two ends, as logics for crash-safe storage do. `Keeps`
is the triple of an invariant, which cannot tell the ends apart. Of a loop there are two rules:
what every round keeps (`keeps_forM`), and, when it ran to its end, what each round brought about
for its own item and no later round undid (`forM_each`).

`Prog` is `OptionT` over a state monad in which the state survives the stop. The other order, a
state monad over `Option`, would lose it, and with it everything there is to say about what a
stopped program has left behind. `exec` runs a program; the lemmas `exec_*` compute it step by
step.
-/

set_option autoImplicit false

/-- A program over `τ` that answers an `α`, or stops. -/
abbrev Prog (τ α : Type) := OptionT (StateM τ) α

namespace Prog

variable {τ α β : Type}

/-- Run a program. -/
def exec (p : Prog τ α) (t : τ) : Option α × τ := (OptionT.run p).run t

/-- A step that changes the state. -/
def update (f : τ → τ) : Prog τ Unit := OptionT.mk fun t => (some (), f t)

/-- A step that looks at the state. -/
def look (f : τ → α) : Prog τ α := OptionT.mk fun t => (some (f t), t)

/-- The end of a program that goes no further. -/
def stop : Prog τ α := OptionT.mk fun t => (none, t)

theorem exec_look (f : τ → α) (t : τ) : exec (look f) t = (some (f t), t) := rfl

theorem exec_bind (p : Prog τ α) (f : α → Prog τ β) (t : τ) : exec (p >>= f) t =
    match exec p t with
    | (some a, t') => exec (f a) t'
    | (none, t') => (none, t') := by
  show (OptionT.bind p f).run.run t = _
  unfold OptionT.bind exec
  rw [OptionT.run_mk]
  show (match (p.run.run t).1 with
    | some a => (f a).run
    | none => pure none).run (p.run.run t).2 = _
  generalize p.run.run t = r
  obtain ⟨a, t'⟩ := r
  cases a <;> rfl

/-- A run is what it answers and where it ends. -/
theorem eq_of_answer {r : Option α × τ} {a : α} (h : r.1 = some a) : r = (some a, r.2) := by
  rw [← h]

/-- A program that ran to its end ran its first part to the end. -/
theorem exec_bind_some {p : Prog τ α} {f : α → Prog τ β} {t t' : τ} {b : β} :
    exec (p >>= f) t = (some b, t') ↔
      ∃ a s, exec p t = (some a, s) ∧ exec (f a) s = (some b, t') := by
  rw [exec_bind]
  generalize exec p t = r
  obtain ⟨a, s⟩ := r
  cases a with
  | none => simp
  | some a => simp

/-! ## 1. Triples -/

/-- From `P`, the program ends in `Q`, or stops in `R`. -/
def Triple (P : τ → Prop) (p : Prog τ α) (Q : α → τ → Prop) (R : τ → Prop) : Prop :=
  ∀ t, P t → (∀ a t', exec p t = (some a, t') → Q a t') ∧ ∀ t', exec p t = (none, t') → R t'

variable {P P' : τ → Prop} {Q Q' : α → τ → Prop} {R R' : τ → Prop} {p : Prog τ α}

theorem triple_pure {a : α} (h : ∀ t, P t → Q a t) : Triple P (pure a) Q R := by
  intro t ht
  refine ⟨fun b t' hb => ?_, fun t' hn => ?_⟩
  · obtain ⟨hab, rfl⟩ := Prod.mk.inj hb
    obtain rfl := Option.some.inj hab
    exact h _ ht
  · exact absurd (Prod.mk.inj hn).1 (by simp)

theorem triple_update {Q : Unit → τ → Prop} {f : τ → τ} (h : ∀ t, P t → Q () (f t)) :
    Triple P (update f) Q R := by
  intro t ht
  refine ⟨fun b t' hb => ?_, fun t' hn => ?_⟩
  · obtain ⟨-, rfl⟩ := Prod.mk.inj hb
    exact h t ht
  · exact absurd (Prod.mk.inj hn).1 (by simp)

theorem triple_look {f : τ → α} (h : ∀ t, P t → Q (f t) t) : Triple P (look f) Q R := by
  intro t ht
  refine ⟨fun b t' hb => ?_, fun t' hn => ?_⟩
  · obtain ⟨hab, rfl⟩ := Prod.mk.inj hb
    obtain rfl := Option.some.inj hab
    exact h _ ht
  · exact absurd (Prod.mk.inj hn).1 (by simp)

theorem triple_stop (h : ∀ t, P t → R t) : Triple P (stop : Prog τ α) Q R := by
  intro t ht
  refine ⟨fun b t' hb => ?_, fun t' hn => ?_⟩
  · exact absurd (Prod.mk.inj hb).1 (by simp)
  · obtain ⟨-, rfl⟩ := Prod.mk.inj hn
    exact h _ ht

theorem Triple.bind {f : α → Prog τ β} {S : β → τ → Prop} (hp : Triple P p Q R)
    (hf : ∀ a, Triple (Q a) (f a) S R) : Triple P (p >>= f) S R := by
  intro t ht
  obtain ⟨hend, hstop⟩ := hp t ht
  rw [exec_bind]
  generalize exec p t = r at hend hstop
  obtain ⟨a, s⟩ := r
  cases a with
  | none =>
    refine ⟨fun b t' hb => absurd (Prod.mk.inj hb).1 (by simp), fun t' hn => ?_⟩
    obtain ⟨-, rfl⟩ := Prod.mk.inj hn
    exact hstop s rfl
  | some a => exact hf a s (hend a s rfl)

theorem Triple.mono (h : Triple P p Q R) (hpre : ∀ t, P' t → P t) (hpost : ∀ a t, Q a t → Q' a t)
    (hstop : ∀ t, R t → R' t) : Triple P' p Q' R' := by
  intro t ht
  obtain ⟨hend, hnone⟩ := h t (hpre t ht)
  exact ⟨fun a t' ha => hpost a t' (hend a t' ha), fun t' hn => hstop t' (hnone t' hn)⟩

theorem Triple.pre (h : Triple P p Q R) (hpre : ∀ t, P' t → P t) : Triple P' p Q R :=
  h.mono hpre (fun _ _ hq => hq) fun _ hr => hr

theorem Triple.and (h : Triple P p Q R) (h' : Triple P' p Q' R') :
    Triple (fun t => P t ∧ P' t) p (fun a t => Q a t ∧ Q' a t) fun t => R t ∧ R' t := by
  intro t ⟨ht, ht'⟩
  obtain ⟨hend, hnone⟩ := h t ht
  obtain ⟨hend', hnone'⟩ := h' t ht'
  exact ⟨fun a t' ha => ⟨hend a t' ha, hend' a t' ha⟩, fun t' hn => ⟨hnone t' hn, hnone' t' hn⟩⟩

/-- A program of which nothing is asked. -/
theorem triple_true : Triple P p (fun _ _ => True) fun _ => True :=
  fun _ _ => ⟨fun _ _ _ => trivial, fun _ _ => trivial⟩

/-- A fact about the state a program starts from may be used outside the program. -/
theorem triple_of_forall (h : ∀ t, P t → Triple (· = t) p Q R) : Triple P p Q R :=
  fun t ht => h t ht t rfl

/-! ## 2. Invariants -/

/-- The program keeps `I`, to its end or to wherever it stops. -/
def Keeps (I : τ → Prop) (p : Prog τ α) : Prop := Triple I p (fun _ => I) I

variable {I J : τ → Prop}

theorem keeps_iff : Keeps I p ↔ ∀ t, I t → I (exec p t).2 := by
  constructor
  · intro h t ht
    obtain ⟨hend, hnone⟩ := h t ht
    cases hr : exec p t with
    | mk a t' =>
      cases a with
      | none => exact hnone t' hr
      | some a => exact hend a t' hr
  · intro h t ht
    have hI := h t ht
    refine ⟨fun a t' ha => ?_, fun t' hn => ?_⟩
    · rw [ha] at hI
      exact hI
    · rw [hn] at hI
      exact hI

theorem Keeps.of_some (h : Keeps I p) {t t' : τ} {a : α} (ht : I t)
    (hrun : exec p t = (some a, t')) : I t' := (h t ht).1 a t' hrun

theorem keeps_pure {a : α} : Keeps I (pure a : Prog τ α) := triple_pure fun _ ht => ht

theorem keeps_update {f : τ → τ} (h : ∀ t, I t → I (f t)) : Keeps I (update f) := triple_update h

theorem keeps_look {f : τ → α} : Keeps I (look f) := triple_look fun _ ht => ht

theorem keeps_stop : Keeps I (stop : Prog τ α) := triple_stop fun _ ht => ht

theorem Keeps.bind {f : α → Prog τ β} (hp : Keeps I p) (hf : ∀ a, Keeps I (f a)) :
    Keeps I (p >>= f) := Triple.bind hp hf

theorem Keeps.and (h : Keeps I p) (h' : Keeps J p) : Keeps (fun t => I t ∧ J t) p :=
  Triple.and h h'

theorem keeps_forM {l : List α} {f : α → Prog τ Unit} (h : ∀ a ∈ l, Keeps I (f a)) :
    Keeps I (l.forM f) := by
  induction l with
  | nil => exact keeps_pure
  | cons a rest ih =>
    exact (h a List.mem_cons_self).bind fun _ => ih fun b hb => h b (List.mem_cons_of_mem _ hb)

/-! ## 3. Loops -/

theorem exec_forM_cons {f : α → Prog τ Unit} {a : α} {l : List α} {t : τ} :
    exec ((a :: l).forM f) t =
      match exec (f a) t with
      | (some _, t') => exec (l.forM f) t'
      | (none, t') => (none, t') := by
  show exec (f a >>= fun _ => l.forM f) t = _
  rw [exec_bind]
  generalize exec (f a) t = r
  obtain ⟨u, t'⟩ := r
  cases u <;> rfl

theorem exec_forM_append_some {f : α → Prog τ Unit} {l m : List α} {t t' : τ} :
    exec ((l ++ m).forM f) t = (some (), t') ↔
      ∃ s, exec (l.forM f) t = (some (), s) ∧ exec (m.forM f) s = (some (), t') := by
  induction l generalizing t with
  | nil =>
    constructor
    · exact fun h => ⟨t, rfl, h⟩
    · rintro ⟨s, hs, h⟩
      obtain ⟨-, rfl⟩ := Prod.mk.inj hs
      exact h
  | cons a rest ih =>
    rw [List.cons_append, exec_forM_cons, exec_forM_cons]
    generalize exec (f a) t = r
    obtain ⟨u, s⟩ := r
    cases u with
    | none => simp
    | some u => exact ih

/-- A loop whose rounds all end, seen through an observation that each round folds. -/
theorem exec_forM_fold {γ : Type} {f : α → Prog τ Unit} {l : List α} {o : τ → γ}
    {fold : γ → α → γ}
    (h : ∀ a ∈ l, ∀ t, ∃ t', exec (f a) t = (some (), t') ∧ o t' = fold (o t) a) (t : τ) :
    ∃ t', exec (l.forM f) t = (some (), t') ∧ o t' = l.foldl fold (o t) := by
  induction l generalizing t with
  | nil => exact ⟨t, rfl, rfl⟩
  | cons a rest ih =>
    obtain ⟨t₁, ha, hobs⟩ := h a List.mem_cons_self t
    obtain ⟨t', hrest, hfold⟩ := ih (fun b hb => h b (List.mem_cons_of_mem _ hb)) t₁
    refine ⟨t', ?_, ?_⟩
    · rw [exec_forM_cons, ha]
      exact hrest
    · rw [hfold, hobs, List.foldl_cons]

/-- The same for a loop that ended, of which only the rounds that end well are known. -/
theorem forM_fold_of_some {γ : Type} {f : α → Prog τ Unit} {l : List α} {o : τ → γ}
    {fold : γ → α → γ} {good : τ → Prop}
    (h : ∀ a ∈ l, ∀ t t', exec (f a) t = (some (), t') → good t' →
      good t ∧ o t' = fold (o t) a) {t t' : τ}
    (hrun : exec (l.forM f) t = (some (), t')) (hgood : good t') :
    good t ∧ o t' = l.foldl fold (o t) := by
  induction l generalizing t with
  | nil =>
    obtain ⟨-, rfl⟩ := Prod.mk.inj hrun
    exact ⟨hgood, rfl⟩
  | cons a rest ih =>
    rw [exec_forM_cons] at hrun
    cases ha : exec (f a) t with
    | mk u t₁ =>
      cases u with
      | none =>
        rw [ha] at hrun
        exact absurd (Prod.mk.inj hrun).1 (by simp)
      | some u =>
        rw [ha] at hrun
        obtain ⟨hgood₁, hobs⟩ := ih (fun b hb => h b (List.mem_cons_of_mem _ hb)) hrun
        obtain ⟨hgood₀, hobs₀⟩ := h a List.mem_cons_self t t₁ ha hgood₁
        exact ⟨hgood₀, by rw [hobs, hobs₀, List.foldl_cons]⟩

variable {f : α → Prog τ Unit} {l : List α}

/-- What each round of a loop that ran to its end brings about for its own item, and keeps for the
items before it. -/
theorem forM_each {t t' : τ} {G : α → τ → Prop} (ht : I t)
    (hrun : exec (l.forM f) t = (some (), t')) (hne : l.Pairwise fun a b => ∀ t, G a t →
      I t → ∀ t', exec (f b) t = (some (), t') → G a t')
    (step : ∀ a ∈ l, ∀ t t', I t → exec (f a) t = (some (), t') → I t' ∧ G a t') :
    I t' ∧ ∀ a ∈ l, G a t' := by
  -- the rounds that are over are carried along, each with what it brought about
  have hmain : ∀ (l : List α) (t : τ) (done : List α), I t →
      exec (l.forM f) t = (some (), t') → (∀ a ∈ done, G a t) →
      (∀ a ∈ done, ∀ b ∈ l, ∀ t, G a t → I t → ∀ t', exec (f b) t = (some (), t') → G a t') →
      (l.Pairwise fun a b => ∀ t, G a t → I t → ∀ t', exec (f b) t = (some (), t') → G a t') →
      (∀ a ∈ l, ∀ t t', I t → exec (f a) t = (some (), t') → I t' ∧ G a t') →
      I t' ∧ ∀ a ∈ done ++ l, G a t' := by
    intro l
    induction l with
    | nil =>
      intro t done ht hrun hdone _ _ _
      obtain ⟨-, rfl⟩ := Prod.mk.inj hrun
      exact ⟨ht, fun a ha => hdone a (by simpa using ha)⟩
    | cons b rest ih =>
      intro t done ht hrun hdone hkeep hpair step
      obtain ⟨u, s, hb, hrest⟩ := exec_bind_some.mp hrun
      obtain ⟨hpb, hprest⟩ := List.pairwise_cons.mp hpair
      obtain ⟨hs, hg⟩ := step b List.mem_cons_self t s ht hb
      have hall := ih s (done ++ [b]) hs hrest
        (fun a ha => by
          rcases List.mem_append.mp ha with ha | ha
          · exact hkeep a ha b List.mem_cons_self t (hdone a ha) ht s hb
          · obtain rfl := List.mem_singleton.mp ha
            exact hg)
        (fun a ha c hcm => by
          rcases List.mem_append.mp ha with ha | ha
          · exact hkeep a ha c (List.mem_cons_of_mem _ hcm)
          · obtain rfl := List.mem_singleton.mp ha
            exact hpb c hcm)
        hprest fun a ha => step a (List.mem_cons_of_mem _ ha)
      refine ⟨hall.1, fun a ha => hall.2 a ?_⟩
      simpa using ha
  have hall := hmain l t [] ht hrun (fun a ha => absurd ha List.not_mem_nil)
    (fun a ha => absurd ha List.not_mem_nil) hne step
  exact ⟨hall.1, fun a ha => hall.2 a ha⟩

end Prog
