import Bsdbridge.Proof.Apply

/-!
# Histories of passes

The agent runs pass after pass, each over the config of its day, and any command of any pass may
fail. What holds over such a history is shown the way the history is made: what every invocation of
an op keeps, the op keeps (**`Writer.apply_keeps`**), and what every op keeps, the history keeps
(**`History.keeps`**).

A history has four parameters, so that each use can say what it needs. `run` is the runner, with
its environment; `sees` relates a state of it to the kernel view a pass may plan against, which can
be the exact view or any at all; `idle` is what may happen between passes; and `R` is asked of
every op at the state it runs in. Configs, and what a pass sees of the anchors, are free in every
pass.

The invariants that are carried are predicates on the runner's environment, the host included. They
are not predicates on plans: the plan of a pass follows from what it saw, and a property that
depends on it belongs to `R`.
-/

set_option autoImplicit false

namespace Bsdbridge

namespace Writer

/-! ## 1. The invocations of an op

`Issues` is every argument vector an op may issue, with the queries of a flush, a kill and a
destroy. It is larger than what one run issues, which suffices for invariants. -/

/-- The invocations an op may issue. -/
inductive Issues : Op → Argv → Prop
  | own (x : Op) : Issues x (argvFor x)
  | lock {b m mac : String} {argv : Argv} (h : argv ∈ lockArgvs b m mac) :
      Issues (.lockMemberMac b m mac) argv
  | recheckIface (n : String) : Issues (.destroyIface n) [IFCONFIG, n]
  | recheckBridge (n : String) : Issues (.destroyBridge n) [IFCONFIG, n]
  | list (x : Op) : Issues x [PFCTL, "-vvss"]
  | kill (x : Op) (id : String) : Issues x [PFCTL, "-k", "id", "-k", id]
  | reread (n : String) : Issues (.flushAnchor n) [PFCTL, "-a", Pf.anchorName n, "-sr"]

theorem argvFor_replaceTable (n t : String) (ms : List String) :
    ∃ args, argvFor (.replaceTable n t ms) = PFCTL :: args := by
  show ∃ args, (if ms = [] then _ else _) = _
  by_cases hms : ms = []
  · exact ⟨_, if_pos hms⟩
  · exact ⟨_, if_neg hms⟩

/-- Every invocation is one of ifconfig(8) or of pfctl(8). -/
theorem Issues.cases {x : Op} {argv : Argv} (h : Issues x argv) :
    (∃ args, argv = IFCONFIG :: args) ∨ ∃ args, argv = PFCTL :: args := by
  cases h with
  | own x =>
    cases x with
    | loadAnchor n f r c => exact Or.inr ⟨_, rfl⟩
    | replaceTable n t ms =>
      obtain ⟨args, hargs⟩ := argvFor_replaceTable n t ms
      exact Or.inr ⟨args, hargs⟩
    | flushAnchor n => exact Or.inr ⟨_, rfl⟩
    | _ => exact Or.inl ⟨_, rfl⟩
  | lock h =>
    unfold lockArgvs at h
    simp only [List.mem_cons, List.not_mem_nil, or_false] at h
    rcases h with rfl | rfl | rfl
    · exact Or.inl ⟨_, rfl⟩
    · exact Or.inl ⟨_, rfl⟩
    · exact Or.inl ⟨_, rfl⟩
  | recheckIface n => exact Or.inl ⟨_, rfl⟩
  | recheckBridge n => exact Or.inl ⟨_, rfl⟩
  | list x => exact Or.inr ⟨_, rfl⟩
  | kill x id => exact Or.inr ⟨_, rfl⟩
  | reread n => exact Or.inr ⟨_, rfl⟩

section

variable {σ : Type} {run : Runner σ} {s : σ} {I : σ → Prop}

/-- The invocations of a state kill. -/
theorem run_killPortStates (n : String) : ((Pf.killPortStates n run).run s).2 =
    let listing := (run [PFCTL, "-vvss"] none none).run s
    if listing.1.ok = true then
      (Pf.parseStateIds listing.1.out n).foldl
        (fun t id => ((run [PFCTL, "-k", "id", "-k", id] none none).run t).2) listing.2
    else listing.2 := by
  unfold Pf.killPortStates
  dsimp only
  rw [run_seq]
  split
  · rw [run_seq]
    exact run_forM_foldl
  · rfl

theorem killPortStates_keeps {n : String}
    (hlist : ∀ t, I t → I ((run [PFCTL, "-vvss"] none none).run t).2)
    (hkill : ∀ id t, I t → I ((run [PFCTL, "-k", "id", "-k", id] none none).run t).2) (hs : I s) :
    I ((Pf.killPortStates n run).run s).2 := by
  rw [run_killPortStates]
  have hlisted := hlist s hs
  dsimp only
  split
  · exact foldl_keeps I hlisted fun id _ t ht => hkill id t ht
  · exact hlisted

theorem ownedByKernel_keeps {n : String}
    (hkeep : ∀ t, I t → I ((run [IFCONFIG, n] none none).run t).2) (hs : I s) :
    I ((ownedByKernel run n).run s).2 := by
  unfold ownedByKernel
  rw [run_seq]
  have hquery := hkeep s hs
  split <;> exact hquery

theorem runLock_cons {op : Op} {first extra : Argv} {rest : List Argv} :
    (runLock run op first (extra :: rest)).run s =
      if ((run extra none none).run s).1.ok = true then
        (runLock run op first rest).run ((run extra none none).run s).2
      else (receiptOf op extra ((run extra none none).run s).1, ((run extra none none).run s).2) := by
  rw [runLock, run_seq]
  split <;> rfl

theorem runLock_keeps {op : Op} {first : Argv} {extras : List Argv}
    (hkeep : ∀ argv ∈ extras, ∀ t, I t → I ((run argv none none).run t).2) (hs : I s) :
    I ((runLock run op first extras).run s).2 := by
  induction extras generalizing s with
  | nil => exact hs
  | cons extra rest ih =>
    have hextra := hkeep extra List.mem_cons_self s hs
    rw [runLock_cons]
    split
    · exact ih (fun argv ha => hkeep argv (List.mem_cons_of_mem _ ha)) hextra
    · exact hextra

/-- What every invocation of an op keeps, the op keeps. -/
theorem apply_keeps {x : Op} (hkeep : ∀ argv timeout input t, Issues x argv → I t →
    I ((run argv timeout input).run t).2) (hs : I s) : I ((apply run false x).run s).2 := by
  have hown : ∀ timeout input t, I t → I ((run (argvFor x) timeout input).run t).2 :=
    fun timeout input t ht => hkeep _ timeout input t (.own x) ht
  have hlist : ∀ t, I t → I ((run [PFCTL, "-vvss"] none none).run t).2 :=
    fun t ht => hkeep _ none none t (.list x) ht
  have hkill : ∀ id t, I t → I ((run [PFCTL, "-k", "id", "-k", id] none none).run t).2 :=
    fun id t ht => hkeep _ none none t (.kill x id) ht
  unfold apply execute
  rw [if_neg Bool.false_ne_true]
  cases x with
  | lockMemberMac b m mac =>
    exact runLock_keeps (fun argv ha t ht => hkeep argv none none t (.lock ha) ht) hs
  | flushAnchor n =>
    simp only [run_seq]
    have hreread := hkeep _ none none _ (.reread n)
      (killPortStates_keeps (n := n) hlist hkill (hown none none s hs))
    split <;> exact hreread
  | loadAnchor n f r c =>
    simp only [run_seq]
    have hload := hown none (some r.text) s hs
    split
    · exact killPortStates_keeps hlist hkill hload
    · exact hload
  | destroyIface n =>
    simp only [run_seq]
    have hseen := ownedByKernel_keeps (fun t ht => hkeep _ none none t (.recheckIface n) ht) hs
    split
    · exact hseen
    · exact hseen
    · rw [run_seq]
      have hdone := hown (some DESTROY_TIMEOUT) none _ hseen
      split <;> exact hdone
  | destroyBridge n =>
    simp only [run_seq]
    have hseen := ownedByKernel_keeps (fun t ht => hkeep _ none none t (.recheckBridge n) ht) hs
    split
    · exact hseen
    · exact hseen
    · rw [run_seq]
      have hdone := hown (some DESTROY_TIMEOUT) none _ hseen
      split <;> exact hdone
  | _ =>
    simp only [run_seq]
    exact hown none none s hs

end

end Writer

namespace Reconcile

open Writer

/-! ## 2. A history

The induction over passes, with the one over the ops of a pass inside it (`Before`). -/

section

variable {σ : Type} {run : Runner σ} {s s₀ : σ}

/-- The environment after an op. -/
def afterOp (run : Runner σ) (s : σ) (x : Op) : σ := ((apply run false x).run s).2

theorem run_applyPlan {plan : Plan} :
    ((applyPlan run false plan).run s).2 = plan.ops.foldl (afterOp run) s := run_mapM_foldl

/-- Every receipt of a plan is ok, op by op. -/
theorem all_ok_iff {plan : Plan} : (∀ r ∈ ((applyPlan run false plan).run s).1, r.ok = true) ↔
    Before (afterOp run) (fun t x => ((apply run false x).run t).1.ok = true) plan.ops s :=
  forall_run_mapM

variable [Hashlib]

/-- The states a history of passes reaches. A pass diffs its config, whatever it is, against
what it sees of the kernel and of the anchors, and each of its ops meets `R` where it runs;
`idle` is what may happen between passes. -/
inductive History (run : Runner σ) (sees : σ → KernelInterfaces → Prop) (idle : σ → σ → Prop)
    (R : σ → Op → Prop) (s₀ : σ) : σ → Prop
  | start : History run sees idle R s₀ s₀
  | pass {s : σ} {config : Config} {kernel : KernelInterfaces} {pf : Option PfState} {plan : Plan}
      (before : History run sees idle R s₀ s) (hsees : sees s kernel)
      (hplan : Planner.diff config kernel pf = .ok plan) (hops : Before (afterOp run) R plan.ops s) :
      History run sees idle R s₀ ((applyPlan run false plan).run s).2
  | between {s s' : σ} (before : History run sees idle R s₀ s) (hidle : idle s s') :
      History run sees idle R s₀ s'

/-- What every op of a history keeps holds in every state it reaches. -/
theorem History.keeps {sees : σ → KernelInterfaces → Prop} {idle : σ → σ → Prop}
    {R : σ → Op → Prop} (hist : History run sees idle R s₀ s) {I : σ → Prop} (h₀ : I s₀)
    (hop : ∀ t x, R t x → I t → I (afterOp run t x)) (hidle : ∀ t t', idle t t' → I t → I t') :
    I s := by
  induction hist with
  | start => exact h₀
  | pass before hsees hplan hops ih =>
    rw [run_applyPlan]
    exact hops.keeps ih fun x _ t hR ht => hop t x hR ht
  | between before hidle' ih => exact hidle _ _ hidle' ih

end

end Reconcile

end Bsdbridge
