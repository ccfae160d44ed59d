import Bsdbridge.Proof.Rounds

/-!
# The teardown

The gc of `diff` is a fold, and `queued` makes what one path destroys depend on the paths before
it. The lemmas here turn the three walks of the fold into membership: an interface is destroyed by
a walk exactly when the walk reaches it unqueued, and the one dependence on order that stays is
`FirstHeld`, between unwanted bridges that hold each other.

An interface goes for one of three reasons, and the order of the walks decides which of them is
acted upon: it is a member of an owned bridge that goes, it is an owned member that a desired
bridge gives up, or it is an owned interface that nothing claims. Only the third asks what the
config claims, which is the subject of `Proof/Claimed`.

A bridge that is a member of a bridge cannot occur in a kernel. The planner does not know that, so
neither does this file; where it is assumed (`Proof/Once`, `Proof/View`) the condition becomes
simpler.
-/

set_option autoImplicit false

namespace Bsdbridge

namespace Planner

/-! ## 1. Why an interface goes -/

/-- An owned bridge outside the config. -/
def Unwanted (config : Config) (kernel : KernelInterfaces) (n : String) : Prop :=
  n ∉ config.bridge ∧
    ∃ i, kernel.interfaces.get? n = some i ∧ i.isBridge = true ∧ i.isOwned = true

/-- The first bridge of a walk that holds a name: the walk splits there, and no bridge of that
name comes before it. -/
def FirstHeld (gone : List (String × Interface)) (n : String) : Prop :=
  ∃ pre e post, gone = pre ++ e :: post ∧ n ∈ e.2.members ∧ n ∉ pre.map Prod.fst

/-- An owned member goes down with its bridge: the bridge is an unwanted one, and the name is
not that of an unwanted bridge the kernel lists before it. -/
def TornDown (config : Config) (kernel : KernelInterfaces) (n : String) : Prop :=
  kernel.ownedName n = true ∧ FirstHeld (unwanted config kernel) n

/-- The anchor of an interface is loaded, as the pass sees it. -/
def Loaded (pf : Option PfState) (n : String) : Prop :=
  ∃ anchors st, pf = some anchors ∧ anchors.get? n = some st ∧ st.isLoaded = true

section

variable {config : Config} {kernel : KernelInterfaces} {pf : Option PfState}

/-! ## 2. The walks

What is queued after a walk, and what the walk has appended for what it queued. -/

theorem mem_destroyOnce {g : Gc} {n : String} {x : Op} :
    x ∈ (destroyOnce pf g n).destroys ↔
      x ∈ g.destroys ∨
        (n ∉ g.queued ∧ (x = .destroyIface n ∨ (x = .flushAnchor n ∧ Loaded pf n))) := by
  unfold destroyOnce Loaded
  by_cases hq : n ∈ g.queued
  · simp [hq]
  · cases hpf : pf with
    | none => simp [hq]
    | some anchors =>
      cases hst : anchors.get? n with
      | none => simp [hq, hst]
      | some st =>
        cases hl : st.isLoaded <;> simp [hq, hst, hl, or_comm]

theorem queued_destroyOnce {g : Gc} {n k : String} :
    k ∈ (destroyOnce pf g n).queued ↔ k = n ∨ k ∈ g.queued := by
  unfold destroyOnce
  by_cases hq : n ∈ g.queued
  · simp only [hq, if_true]
    constructor
    · exact Or.inr
    · rintro (rfl | hk)
      · exact hq
      · exact hk
  · simp [hq]

theorem queued_foldl_destroyOnce {names : List String} {g : Gc} {k : String} :
    k ∈ (names.foldl (destroyOnce pf) g).queued ↔ k ∈ names ∨ k ∈ g.queued := by
  induction names generalizing g with
  | nil => simp
  | cons n rest ih =>
    rw [List.foldl_cons, ih, queued_destroyOnce, List.mem_cons]
    tauto

/-- A walk of `destroy_once` queues what was not queued before it. -/
theorem mem_foldl_destroyOnce {names : List String} {g : Gc} {x : Op} :
    x ∈ (names.foldl (destroyOnce pf) g).destroys ↔
      x ∈ g.destroys ∨ ∃ n ∈ names, n ∉ g.queued ∧
        (x = .destroyIface n ∨ (x = .flushAnchor n ∧ Loaded pf n)) := by
  induction names generalizing g with
  | nil => simp
  | cons n rest ih =>
    rw [List.foldl_cons, ih, mem_destroyOnce]
    constructor
    · rintro ((hx | ⟨hq, hx⟩) | ⟨k, hk, hq, hx⟩)
      · exact Or.inl hx
      · exact Or.inr ⟨n, List.mem_cons_self, hq, hx⟩
      · rw [queued_destroyOnce, not_or] at hq
        exact Or.inr ⟨k, List.mem_cons_of_mem _ hk, hq.2, hx⟩
    · rintro (hx | ⟨k, hk, hq, hx⟩)
      · exact Or.inl (Or.inl hx)
      · by_cases hkn : k = n
        · subst hkn
          exact Or.inl (Or.inr ⟨hq, hx⟩)
        · have hrest : k ∈ rest := (List.mem_cons.mp hk).resolve_left hkn
          refine Or.inr ⟨k, hrest, ?_, hx⟩
          rw [queued_destroyOnce, not_or]
          exact ⟨hkn, hq⟩

theorem queued_tearDown {g : Gc} {e : String × Interface} {k : String} :
    k ∈ (tearDown kernel pf g e).queued ↔
      k = e.1 ∨ (k ∈ e.2.members ∧ kernel.ownedName k = true) ∨ k ∈ g.queued := by
  simp [tearDown, queued_foldl_destroyOnce]

theorem mem_tearDown {g : Gc} {e : String × Interface} {x : Op} :
    x ∈ (tearDown kernel pf g e).destroys ↔
      x ∈ g.destroys ∨ x = .destroyBridge e.1 ∨
        ∃ n ∈ e.2.members, kernel.ownedName n = true ∧ n ∉ g.queued ∧
          (x = .destroyIface n ∨ (x = .flushAnchor n ∧ Loaded pf n)) := by
  simp only [tearDown, List.mem_append, mem_foldl_destroyOnce, List.mem_filter,
    List.mem_singleton, and_assoc]
  rw [or_right_comm, or_assoc]

theorem queued_foldl_tearDown {gone : List (String × Interface)} {g : Gc} {k : String} :
    k ∈ (gone.foldl (tearDown kernel pf) g).queued ↔
      k ∈ g.queued ∨ k ∈ gone.map Prod.fst ∨
        (kernel.ownedName k = true ∧ ∃ e ∈ gone, k ∈ e.2.members) := by
  induction gone generalizing g with
  | nil => simp
  | cons e rest ih =>
    rw [List.foldl_cons, ih, queued_tearDown]
    simp only [List.map_cons, List.mem_cons, exists_eq_or_imp]
    tauto

theorem firstHeld_cons {e : String × Interface} {gone : List (String × Interface)}
    {n : String} :
    FirstHeld (e :: gone) n ↔ n ∈ e.2.members ∨ (n ≠ e.1 ∧ FirstHeld gone n) := by
  constructor
  · rintro ⟨pre, e', post, hsplit, hm, hpre⟩
    cases pre with
    | nil =>
      simp only [List.nil_append, List.cons.injEq] at hsplit
      exact Or.inl (hsplit.1 ▸ hm)
    | cons f pre =>
      simp only [List.cons_append, List.cons.injEq] at hsplit
      obtain ⟨rfl, hrest⟩ := hsplit
      simp only [List.map_cons, List.mem_cons, not_or] at hpre
      exact Or.inr ⟨hpre.1, pre, e', post, hrest, hm, hpre.2⟩
  · rintro (hm | ⟨hne, pre, e', post, hsplit, hm, hpre⟩)
    · exact ⟨[], e, gone, rfl, hm, List.not_mem_nil⟩
    · refine ⟨e :: pre, e', post, by rw [hsplit]; rfl, hm, ?_⟩
      simp only [List.map_cons, List.mem_cons, not_or]
      exact ⟨hne, hpre⟩

theorem mem_foldl_tearDown {gone : List (String × Interface)} {g : Gc} {x : Op} :
    x ∈ (gone.foldl (tearDown kernel pf) g).destroys ↔
      x ∈ g.destroys ∨ (∃ e ∈ gone, x = .destroyBridge e.1) ∨
        ∃ n, n ∉ g.queued ∧ kernel.ownedName n = true ∧ FirstHeld gone n ∧
          (x = .destroyIface n ∨ (x = .flushAnchor n ∧ Loaded pf n)) := by
  induction gone generalizing g with
  | nil => simp [FirstHeld]
  | cons e rest ih =>
    rw [List.foldl_cons, ih, mem_tearDown]
    simp only [List.mem_cons, exists_eq_or_imp, firstHeld_cons, queued_tearDown, not_or]
    constructor
    · rintro ((hx | hx | ⟨n, hm, ho, hq, hx⟩) | hx | ⟨n, ⟨hne, hnm, hq⟩, ho, hf, hx⟩)
      · exact Or.inl hx
      · exact Or.inr (Or.inl (Or.inl hx))
      · exact Or.inr (Or.inr ⟨n, hq, ho, Or.inl hm, hx⟩)
      · exact Or.inr (Or.inl (Or.inr hx))
      · exact Or.inr (Or.inr ⟨n, hq, ho, Or.inr ⟨hne, hf⟩, hx⟩)
    · rintro (hx | (hx | hx) | ⟨n, hq, ho, hf, hx⟩)
      · exact Or.inl (Or.inl hx)
      · exact Or.inl (Or.inr (Or.inl hx))
      · exact Or.inr (Or.inl hx)
      · by_cases hm : n ∈ e.2.members
        · exact Or.inl (Or.inr (Or.inr ⟨n, hm, ho, hq, hx⟩))
        · obtain ⟨hne, hf⟩ := hf.resolve_left hm
          exact Or.inr (Or.inr ⟨n, ⟨hne, fun h => hm h.1, hq⟩, ho, hf, hx⟩)

theorem mem_unwanted {n : String}
    {i : Interface} :
    (n, i) ∈ unwanted config kernel ↔ n ∉ config.bridge ∧ kernel.interfaces.get? n = some i ∧
      i.isBridge = true ∧ i.isOwned = true := by
  unfold unwanted KernelInterfaces.bridges
  simp only [List.mem_filter, Dict.entry_filter, Bool.and_eq_true, decide_eq_true_eq,
    Dict.get?_eq_some]
  tauto

theorem mem_unwanted_names {n : String} :
    n ∈ (unwanted config kernel).map Prod.fst ↔ Unwanted config kernel n := by
  unfold Unwanted
  rw [List.mem_map]
  constructor
  · rintro ⟨⟨k, i⟩, hm, rfl⟩
    obtain ⟨hc, hrest⟩ := mem_unwanted.mp hm
    exact ⟨hc, i, hrest⟩
  · rintro ⟨hc, i, hrest⟩
    exact ⟨(n, i), mem_unwanted.mpr ⟨hc, hrest⟩, rfl⟩

/-- A name that is no unwanted bridge goes down with the first unwanted bridge that holds it. -/
theorem firstHeld_of_mem {n : String}
    {e : String × Interface} (hn : ¬ Unwanted config kernel n)
    (he : e ∈ unwanted config kernel) (hm : n ∈ e.2.members) :
    FirstHeld (unwanted config kernel) n := by
  obtain ⟨pre, post, hsplit⟩ := List.append_of_mem he
  refine ⟨pre, e, post, hsplit, hm, fun hpre => hn (mem_unwanted_names.mp ?_)⟩
  rw [hsplit, List.map_append]
  exact List.mem_append_left _ hpre

/-! ## 3. The flushes

A walk that destroys an interface flushes its anchor first, if it is loaded. -/

theorem mem_phases {p : Plan} {x : Op} :
    x ∈ p.ops ↔ x ∈ p.creates ∨ x ∈ p.removes ∨ x ∈ p.adds ∨ x ∈ p.destroys := by
  simp only [Plan.ops, List.mem_append, or_assoc]

theorem mem_flushed {ops : List Op} {n : String} : n ∈ flushed ops ↔ .flushAnchor n ∈ ops := by
  unfold flushed
  rw [List.mem_filterMap]
  constructor
  · rintro ⟨op, hop, hn⟩
    cases op with
    | flushAnchor k =>
      obtain rfl : k = n := Option.some.inj hn
      exact hop
    | _ => exact absurd hn (by simp)
  · intro hop
    exact ⟨_, hop, rfl⟩

theorem mem_staleAnchors {done : List String} {x : Op} :
    x ∈ staleAnchors config pf done ↔
      ∃ n, x = .flushAnchor n ∧ Loaded pf n ∧ n ∉ policied config ∧ n ∉ done := by
  unfold staleAnchors Loaded
  cases pf with
  | none => simp
  | some anchors =>
    simp only [List.mem_map, List.mem_filter, mem_sortedBy, Bool.and_eq_true, decide_eq_true_eq,
      and_assoc]
    constructor
    · rintro ⟨⟨n, st⟩, he, hl, hp, hd, hx⟩
      exact ⟨n, hx.symm, ⟨anchors, st, rfl, Dict.get?_eq_some.mpr he, hl⟩, hp, hd⟩
    · rintro ⟨n, hx, ⟨anchors', st, hpf, hst, hl⟩, hp, hd⟩
      obtain rfl : anchors = anchors' := Option.some.inj hpf
      exact ⟨(n, st), Dict.get?_eq_some.mp hst, hl, hp, hd, hx.symm⟩

end

end Planner

end Bsdbridge
