import Mathlib

/-!
# Runs of a straight-line program

A program without branches is a list of steps, and running it is a left fold. Its two rules: what
every step keeps holds at the end (`foldl_keeps`), and what one step brings about while every step
keeps it holds at the end (`foldl_brings`). The second takes the fact the step works under as an
invariant of its own, so that "the step happens while its precondition holds" needs no splitting of
the program at the step.

`Before` asks a predicate of every step at the state it runs in. It is how a condition is put on a
run without naming its states, and it is kept by what the conditions imply.
-/

set_option autoImplicit false

universe u v

section

variable {σ : Type u} {ω : Type v} {f : σ → ω → σ} {s : σ} {l : List ω}

theorem foldl_keeps (P : σ → Prop) (hs : P s) (keep : ∀ a ∈ l, ∀ t, P t → P (f t a)) :
    P (l.foldl f s) := by
  induction l generalizing s with
  | nil => exact hs
  | cons a rest ih =>
    exact ih (keep a List.mem_cons_self s hs) fun b hb => keep b (List.mem_cons_of_mem _ hb)

/-- A step of the program brings `P` about under `J`, and every step keeps both. -/
theorem foldl_brings (J P : σ → Prop) (hs : J s) (keepJ : ∀ a ∈ l, ∀ t, J t → J (f t a))
    (keep : ∀ a ∈ l, ∀ t, P t → P (f t a)) (hex : ∃ a ∈ l, ∀ t, J t → P (f t a)) :
    P (l.foldl f s) := by
  obtain ⟨a, ha, hbring⟩ := hex
  obtain ⟨pre, post, rfl⟩ := List.append_of_mem ha
  rw [List.foldl_append, List.foldl_cons]
  have hJ : J (pre.foldl f s) :=
    foldl_keeps J hs fun b hb => keepJ b (List.mem_append_left _ hb)
  exact foldl_keeps P (hbring _ hJ) fun b hb =>
    keep b (List.mem_append_right _ (List.mem_cons_of_mem _ hb))

/-- Either `P` holds at the start, or a step brings it about. -/
theorem foldl_attains (J P : σ → Prop) (hs : J s) (keepJ : ∀ a ∈ l, ∀ t, J t → J (f t a))
    (keep : ∀ a ∈ l, ∀ t, P t → P (f t a))
    (hex : P s ∨ ∃ a ∈ l, ∀ t, J t → P (f t a)) : P (l.foldl f s) := by
  rcases hex with hP | hex
  · exact foldl_keeps P hP keep
  · exact foldl_brings J P hs keepJ keep hex

/-! ## What holds before a step -/

/-- Before each step of the program, the state and the step are in `P`. -/
def Before (f : σ → ω → σ) (P : σ → ω → Prop) : List ω → σ → Prop
  | [], _ => True
  | a :: l, s => P s a ∧ Before f P l (f s a)

variable {P : σ → ω → Prop}

theorem before_iff : Before f P l s ↔ ∀ pre a post, l = pre ++ a :: post → P (pre.foldl f s) a := by
  induction l generalizing s with
  | nil => simp [Before]
  | cons b rest ih =>
    rw [Before, ih]
    constructor
    · rintro ⟨hb, hrest⟩ pre a post hl
      cases pre with
      | nil =>
        obtain ⟨rfl, -⟩ := List.cons.inj hl
        exact hb
      | cons c pre =>
        obtain ⟨rfl, htail⟩ := List.cons.inj hl
        exact hrest pre a post htail
    · intro h
      exact ⟨h [] b rest rfl, fun pre a post hl => h (b :: pre) a post (by rw [hl]; rfl)⟩

theorem before_append {l' : List ω} :
    Before f P (l ++ l') s ↔ Before f P l s ∧ Before f P l' (l.foldl f s) := by
  induction l generalizing s with
  | nil => simp [Before]
  | cons b rest ih => rw [List.cons_append, Before, Before, ih, List.foldl_cons, and_assoc]

/-- What every step keeps that starts in `P`. -/
theorem Before.keeps {Q : σ → Prop} (hb : Before f P l s) (hs : Q s)
    (keep : ∀ a ∈ l, ∀ t, P t a → Q t → Q (f t a)) : Q (l.foldl f s) := by
  induction l generalizing s with
  | nil => exact hs
  | cons a rest ih =>
    obtain ⟨ha, hrest⟩ := hb
    exact ih hrest (keep a List.mem_cons_self s ha hs)
      fun c hc => keep c (List.mem_cons_of_mem _ hc)

/-- What a step brings about from `P`, or what holds at the start, and every step keeps. -/
theorem Before.attains {Q : σ → Prop} (hb : Before f P l s)
    (keep : ∀ a ∈ l, ∀ t, P t a → Q t → Q (f t a))
    (hex : Q s ∨ ∃ a ∈ l, ∀ t, P t a → Q (f t a)) : Q (l.foldl f s) := by
  rcases hex with hs | ⟨a, ha, hbring⟩
  · exact hb.keeps hs keep
  · obtain ⟨pre, post, rfl⟩ := List.append_of_mem ha
    rw [before_append] at hb
    obtain ⟨-, hat, hpost⟩ := hb
    rw [List.foldl_append, List.foldl_cons]
    exact hpost.keeps (hbring _ hat) fun c hc =>
      keep c (List.mem_append_right _ (List.mem_cons_of_mem _ hc))

/-- What the steps keep from the start on holds before each of them. -/
theorem Before.and_keeps {J : σ → Prop} (hb : Before f P l s) (hs : J s)
    (keep : ∀ a ∈ l, ∀ t, J t → J (f t a)) : Before f (fun t a => J t ∧ P t a) l s := by
  induction l generalizing s with
  | nil => trivial
  | cons a rest ih =>
    obtain ⟨ha, hrest⟩ := hb
    exact ⟨⟨hs, ha⟩, ih hrest (keep a List.mem_cons_self s hs)
      fun c hc => keep c (List.mem_cons_of_mem _ hc)⟩

theorem before_of_forall (h : ∀ a ∈ l, ∀ t, P t a) : Before f P l s := by
  induction l generalizing s with
  | nil => trivial
  | cons b rest ih =>
    exact ⟨h b List.mem_cons_self s, ih fun a ha => h a (List.mem_cons_of_mem _ ha)⟩

/-- Steps that change nothing, all from one state. -/
theorem foldl_still (h : ∀ a ∈ l, ∀ t, f t a = t) : l.foldl f s = s := by
  induction l generalizing s with
  | nil => rfl
  | cons b rest ih =>
    rw [List.foldl_cons, h b List.mem_cons_self s]
    exact ih fun a ha => h a (List.mem_cons_of_mem _ ha)

theorem before_still (h : ∀ a ∈ l, ∀ t, f t a = t) : Before f P l s ↔ ∀ a ∈ l, P s a := by
  induction l generalizing s with
  | nil => simp [Before]
  | cons b rest ih =>
    rw [Before, h b List.mem_cons_self s, ih fun a ha => h a (List.mem_cons_of_mem _ ha)]
    simp

end

/-! ## Programs with effects

A list of programs in a state monad, run one after the other. -/

section

variable {σ α β : Type} {f : α → StateM σ β} {s : σ}

theorem run_seq {x : StateM σ α} {g : α → StateM σ β} :
    (x >>= g).run s = (g (x.run s).1).run (x.run s).2 := rfl

theorem run_mapM_cons {a : α} {l : List α} :
    ((a :: l).mapM f).run s = (((f a).run s).1 :: ((l.mapM f).run ((f a).run s).2).1,
      ((l.mapM f).run ((f a).run s).2).2) := by
  rw [List.mapM_cons]
  rfl

theorem run_mapM_append {l l' : List α} :
    ((l ++ l').mapM f).run s = (((l.mapM f).run s).1 ++ ((l'.mapM f).run ((l.mapM f).run s).2).1,
      ((l'.mapM f).run ((l.mapM f).run s).2).2) := by
  induction l generalizing s with
  | nil => rfl
  | cons a l ih =>
    rw [List.cons_append, run_mapM_cons, ih, run_mapM_cons]
    rfl

/-- What a program leaves is the fold of what its steps leave. -/
theorem run_mapM_foldl {l : List α} :
    ((l.mapM f).run s).2 = l.foldl (fun t a => ((f a).run t).2) s := by
  induction l generalizing s with
  | nil => rfl
  | cons a l ih => rw [run_mapM_cons, List.foldl_cons, ih]

/-- What every answer of a program satisfies, step by step. -/
theorem forall_run_mapM {l : List α} {P : β → Prop} :
    (∀ r ∈ ((l.mapM f).run s).1, P r) ↔
      Before (fun t a => ((f a).run t).2) (fun t a => P ((f a).run t).1) l s := by
  induction l generalizing s with
  | nil => exact iff_of_true (fun r hr => absurd hr List.not_mem_nil) trivial
  | cons a l ih => rw [run_mapM_cons, List.forall_mem_cons, ih, Before]

theorem length_run_mapM {l : List α} : ((l.mapM f).run s).1.length = l.length := by
  induction l generalizing s with
  | nil => rfl
  | cons a l ih => rw [run_mapM_cons, List.length_cons, ih, List.length_cons]

/-- A program without answers is the fold of its steps. -/
theorem run_forM_foldl {l : List α} {f : α → StateM σ β} :
    ((l.forM fun a => do let _ ← f a).run s).2 = l.foldl (fun t a => ((f a).run t).2) s := by
  induction l generalizing s with
  | nil => rfl
  | cons a rest ih =>
    rw [List.foldl_cons, ← ih]
    rfl

end
