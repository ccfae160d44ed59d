import Bsdbridge.Lib.Run
import Bsdbridge.Proof.Shape

/-!
# Applying a plan under failures

The planner puts the load of a member's anchor before its membership, and one would like to read
that order as a guard: no rules, no bridge. It is none. `apply_plan` runs every op of a plan,
whatever the receipts before it say (its docstring says so, and a test holds it to that), so a
member joins its bridge also when its load has failed: `joined_without_policy`, at the end of this
file, is a pass where it does.

What the order and the receipts do give is **`load_failure_fails_pass`**, for every runner and every
pattern of failures:

* nothing is left out and nothing is taken back: the environment after the pass is the one that the
  ops of the plan leave, each issued in the environment the ops before it left;
* a failed load fails the pass: its receipt is neither ok nor parked, so `failed` names it and the
  pass is not reconciled.

The two readers are the caller's here, as in the source; nothing is assumed of what they answer.
What a failed command has done to the host is no matter of this file either (`Machine.lean` is
where a runner is tied to one).
-/

set_option autoImplicit false

namespace Bsdbridge

namespace Writer

section

variable {σ : Type} {run : Runner σ} {s : σ}

/-- The environment after a list of ops. -/
def after (run : Runner σ) (ops : List Op) (s : σ) : σ :=
  ((ops.mapM (apply run false)).run s).2

theorem after_snoc {ops : List Op} {op : Op} :
    after run (ops ++ [op]) s = ((apply run false op).run (after run ops s)).2 := by
  unfold after
  rw [run_mapM_append, run_mapM_cons]
  rfl

/-! ## 1. One receipt -/

theorem receiptOf_op {op : Op} {argv : Argv} {r : RunResult} : (receiptOf op argv r).op = op := by
  unfold receiptOf
  split <;> rfl

theorem receiptOf_ok {op : Op} {argv : Argv} {r : RunResult} :
    (receiptOf op argv r).ok = r.ok := by
  unfold receiptOf
  cases h : r.ok <;> simp

theorem receiptOf_parked {op : Op} {argv : Argv} {r : RunResult} :
    (receiptOf op argv r).parked = false := by
  unfold receiptOf
  split <;> rfl

theorem runLock_op {op : Op} {first : Argv} {extras : List Argv} :
    ((runLock run op first extras).run s).1.op = op := by
  induction extras generalizing s with
  | nil => rfl
  | cons extra rest ih =>
    rw [runLock, run_seq]
    split
    · exact ih
    · exact receiptOf_op

/-- A receipt is that of its op. -/
theorem apply_op {op : Op} : ((apply run false op).run s).1.op = op := by
  unfold apply execute
  rw [if_neg Bool.false_ne_true]
  cases op with
  | lockMemberMac b m mac => exact runLock_op
  | flushAnchor n =>
    simp only [run_seq]
    split <;> rfl
  | loadAnchor n f r c =>
    simp only [run_seq]
    split
    · rfl
    · exact receiptOf_op
  | destroyIface n =>
    simp only [run_seq]
    split
    · rfl
    · rfl
    · rw [run_seq]
      split
      · rfl
      · exact receiptOf_op
  | destroyBridge n =>
    simp only [run_seq]
    split
    · rfl
    · rfl
    · rw [run_seq]
      split
      · rfl
      · exact receiptOf_op
  | _ =>
    simp only [run_seq]
    exact receiptOf_op

variable (run s) in
/-- A load is as good as its command, and never parked. -/
theorem apply_load (n f c : String) (r : Pf.Ruleset) :
    ((apply run false (.loadAnchor n f r c)).run s).1.ok =
        ((run (argvFor (.loadAnchor n f r c)) none (some r.text)).run s).1.ok ∧
      ((apply run false (.loadAnchor n f r c)).run s).1.parked = false := by
  unfold apply execute
  rw [if_neg Bool.false_ne_true]
  simp only [run_seq]
  split
  next hok => exact ⟨hok.symm, rfl⟩
  next => exact ⟨receiptOf_ok, receiptOf_parked⟩

/-- A membership is its own command, and as good as it. -/
theorem apply_addMember {b m : String} : ((apply run false (.addMember b m)).run s).1.ok =
      ((run (argvFor (.addMember b m)) none none).run s).1.ok ∧
    ((apply run false (.addMember b m)).run s).2 =
      ((run (argvFor (.addMember b m)) none none).run s).2 := by
  unfold apply execute
  rw [if_neg Bool.false_ne_true]
  simp only [run_seq]
  exact ⟨receiptOf_ok, rfl⟩

/-! ## 2. The receipts of a plan -/

/-- One receipt for every op, in order. -/
theorem applyPlan_op {plan : Plan} :
    ((applyPlan run false plan).run s).1.map Receipt.op = plan.ops := by
  unfold applyPlan
  generalize plan.ops = ops
  induction ops generalizing s with
  | nil => rfl
  | cons op rest ih => rw [run_mapM_cons, List.map_cons, ih, apply_op]

variable (run s) in
/-- An op is applied in the environment the ops before it leave. -/
theorem applyPlan_at {plan : Plan} {pre post : List Op} {op : Op}
    (hops : plan.ops = pre ++ op :: post) :
    ((applyPlan run false plan).run s).1[pre.length]? =
      some ((apply run false op).run (after run pre s)).1 := by
  unfold applyPlan
  rw [hops, run_mapM_append, run_mapM_cons,
    List.getElem?_append_right (Nat.le_of_eq length_run_mapM), length_run_mapM, Nat.sub_self]
  rfl

end

end Writer

namespace Reconcile

/-- One failed receipt, and the pass is not reconciled. -/
theorem not_reconciled_of_failed {r : Result} {receipt : Receipt Op} (h : receipt ∈ r.failed) :
    r.reconciled = false := by
  obtain ⟨hmem, hbad⟩ := List.mem_filter.mp h
  rw [Bool.and_eq_true, Bool.not_eq_true'] at hbad
  exact List.all_eq_false.mpr ⟨receipt, hmem, by simp [hbad.1]⟩

/-! ## 3. The pass

A pass that returns has run three programs, one after the other: the reader of the kernel, the
reader of the anchors, and the writer. `reconcile_ok` names the environments between them, so that
what is said of the writer below is said of the one environment it really began in. -/

/-- Every op of a result was issued: in order, in the environment the ops before it left, with no
op after the last. The environment `s₀` is the one the writer began in, `s'` the one it left. -/
structure AllIssued {σ : Type} (run : Runner σ) (s₀ s' : σ) (r : Result) : Prop where
  ops : r.receipts.map Receipt.op = r.plan.ops
  left : s' = Writer.after run r.plan.ops s₀
  step : ∀ pre op post, r.plan.ops = pre ++ op :: post →
    r.receipts[pre.length]? =
        some ((Writer.apply run false op).run (Writer.after run pre s₀)).1 ∧
      Writer.after run (pre ++ [op]) s₀ =
        ((Writer.apply run false op).run (Writer.after run pre s₀)).2
  /-- A membership is issued as its own `addm`, and as good as that, whatever came before it. -/
  member : ∀ pre b m post, r.plan.ops = pre ++ .addMember b m :: post →
    ∃ receipt, r.receipts[pre.length]? = some receipt ∧
      receipt.ok = ((run (argvFor (.addMember b m)) none none).run
        (Writer.after run pre s₀)).1.ok ∧
      Writer.after run (pre ++ [.addMember b m]) s₀ =
        ((run (argvFor (.addMember b m)) none none).run (Writer.after run pre s₀)).2

section

variable [Hashlib] {σ : Type} {run : Runner σ} {reader : List String → StateM σ KernelInterfaces}
  {pfReader : List String → StateM σ (Option PfState)} {config : Config} {s s' : σ} {r : Result}

/-- A pass that returns applied the plan of what it read. -/
theorem reconcile_ok (h : (reconcile run false reader pfReader config).run s = (.ok r, s')) :
    ∃ names s₁ pf s₀, namesToCheck config = .ok names ∧ (reader names).run s = (r.kernel, s₁) ∧
      (pfReader (sortedSet (pfScope config r.kernel))).run s₁ = (pf, s₀) ∧
      Planner.diff config r.kernel pf = .ok r.plan ∧
      (Writer.applyPlan run false r.plan).run s₀ = (r.receipts, s') := by
  unfold reconcile at h
  split at h
  · exact absurd (Prod.mk.inj h).1 (by simp)
  · rename_i names hnames
    simp only [run_seq] at h
    split at h
    · exact absurd (Prod.mk.inj h).1 (by simp)
    · rename_i plan hplan
      simp only [run_seq] at h
      obtain ⟨hr, hs⟩ := Prod.mk.inj h
      cases hr
      exact ⟨names, _, _, _, hnames, rfl, rfl, hplan, Prod.ext rfl hs⟩

omit [Hashlib] in
/-- A plan that is applied is issued op by op. -/
theorem allIssued_of_applyPlan {s₀ : σ}
    (h : (Writer.applyPlan run false r.plan).run s₀ = (r.receipts, s')) : AllIssued run s₀ s' r := by
  have hreceipts : ((Writer.applyPlan run false r.plan).run s₀).1 = r.receipts :=
    congrArg Prod.fst h
  have hat : ∀ pre op post, r.plan.ops = pre ++ op :: post → r.receipts[pre.length]? =
      some ((Writer.apply run false op).run (Writer.after run pre s₀)).1 := by
    intro pre op post hops
    rw [← hreceipts]
    exact Writer.applyPlan_at run s₀ hops
  refine ⟨hreceipts ▸ Writer.applyPlan_op, ?_, ?_, ?_⟩
  · exact (congrArg Prod.snd h).symm
  · exact fun pre op post hops => ⟨hat pre op post hops, Writer.after_snoc⟩
  · intro pre b m post hops
    exact ⟨_, hat pre _ post hops, Writer.apply_addMember.1,
      Writer.after_snoc.trans Writer.apply_addMember.2⟩

/-- **A failed load fails the pass**, and nothing but the pass: of a plan that was made of what the
readers saw, every op is issued in the environment they left and nothing else is, a membership as
its own command says; and the receipt of a load whose command fails is neither ok nor parked. -/
theorem load_failure_fails_pass
    (h : (reconcile run false reader pfReader config).run s = (.ok r, s')) :
    ∃ names s₁ pf s₀, namesToCheck config = .ok names ∧ (reader names).run s = (r.kernel, s₁) ∧
      (pfReader (sortedSet (pfScope config r.kernel))).run s₁ = (pf, s₀) ∧
      Planner.diff config r.kernel pf = .ok r.plan ∧ AllIssued run s₀ s' r ∧
      ∀ pre m f ruleset c post, r.plan.ops = pre ++ .loadAnchor m f ruleset c :: post →
        ((run (argvFor (.loadAnchor m f ruleset c)) none (some ruleset.text)).run
          (Writer.after run pre s₀)).1.ok = false →
        ∃ receipt, r.receipts[pre.length]? = some receipt ∧ receipt.ok = false ∧
          receipt.parked = false ∧ receipt ∈ r.failed ∧ r.reconciled = false := by
  obtain ⟨names, s₁, pf, s₀, hnames, hread, hpf, hplan, happly⟩ := reconcile_ok h
  have hissued := allIssued_of_applyPlan happly
  refine ⟨names, s₁, pf, s₀, hnames, hread, hpf, hplan, hissued, ?_⟩
  intro pre m f ruleset c post hops hbad
  -- the receipt at the place of the load is that of the load, issued to the state left before it
  obtain ⟨hat, -⟩ := hissued.step pre _ post hops
  obtain ⟨hok, hparked⟩ := Writer.apply_load run (Writer.after run pre s₀) m f c ruleset
  have hfailed : ((Writer.apply run false (.loadAnchor m f ruleset c)).run
      (Writer.after run pre s₀)).1 ∈ r.failed :=
    List.mem_filter.mpr ⟨List.mem_of_getElem? hat, by rw [hok, hbad, hparked]; rfl⟩
  exact ⟨_, hat, hok.trans hbad, hparked, hfailed, not_reconciled_of_failed hfailed⟩

end

/-! ## 4. A membership after a failed load

The order read as a guard, and why it is none: on this host pfctl(8) does not work at all, and the
tap is on its bridge after the pass that could not close it. -/

/-- Every `pfctl` command fails, every other one succeeds. -/
def pfFails : Runner Unit := fun argv _ _ =>
  pure { rc := .code (if argv.head? = some PFCTL then 1 else 0) }

/-- The tap of port `0`, closed by a filter without rules. -/
def closedConfig : Config :=
  { bridge := ⟨[("pbaaa",
      { member := ⟨[("tap0", { type := some .tap, filter := some "sg-0" })], by decide⟩ })],
      by decide⟩
    filter := ⟨[("sg-0", {})], by decide⟩ }

/-- The tap exists, outside its bridge. -/
def closedKernel : KernelInterfaces :=
  { interfaces := ⟨[
      ("pbaaa", { name := "pbaaa", groups := ["bridge", OWNED_GROUP] }),
      ("tap0", { name := "tap0", groups := ["tap", OWNED_GROUP] })], by decide⟩
    owned := ["pbaaa", "tap0"] }

/-- The load of the tap's anchor. -/
def closedLoad [Hashlib] : Op := Planner.loadFor closedConfig "tap0"
  { type := some .tap, filter := some "sg-0" }

/-- The pass over it: the load fails, the membership succeeds. -/
def closedResult [Hashlib] : Result :=
  { plan := { adds := [closedLoad, .addMember "pbaaa" "tap0"] }
    receipts := [
      { op := closedLoad, argv := argvFor closedLoad, executed := true, ok := false },
      { op := .addMember "pbaaa" "tap0", argv := argvFor (.addMember "pbaaa" "tap0"),
        executed := true, ok := true }]
    kernel := closedKernel }

theorem reconcile_closed : @reconcile ⟨id⟩ Unit pfFails false (fun _ => pure closedKernel)
    (fun _ => pure none) closedConfig () = (.ok (@closedResult ⟨id⟩), ()) := rfl

/-- A policied member can join in a pass that could not load its anchor. -/
theorem joined_without_policy : ¬ ∀ (_ : Hashlib) (config : Config) (kernel : KernelInterfaces)
    (pf : Option PfState) (plan : Plan), Planner.diff config kernel pf = .ok plan →
    ∀ (σ : Type) (run : Runner σ) (s : σ) (pre mid post : List Op) (b m f c : String)
      (ruleset : Pf.Ruleset) (br : Bridge) (member : Member),
      (b, br) ∈ config.bridge.entries → (m, member) ∈ br.member.entries →
      Planner.Policied member →
      plan.ops = pre ++ .loadAnchor m f ruleset c :: (mid ++ .addMember b m :: post) →
      ((Writer.apply run false (.loadAnchor m f ruleset c)).run
        (Writer.after run pre s)).1.ok = false →
      ((Writer.apply run false (.addMember b m)).run (Writer.after run
        (pre ++ .loadAnchor m f ruleset c :: mid) s)).1.ok = false := by
  intro hall
  have hjoin := hall ⟨id⟩ closedConfig closedKernel none (@closedResult ⟨id⟩).plan rfl Unit pfFails
    () [] [] [] "pbaaa" "tap0" _ _ _ _ _ List.mem_cons_self List.mem_cons_self (Or.inl rfl) rfl rfl
  exact Bool.noConfusion hjoin

theorem load_failure_fails_pass_closed :
    ∃ names s₁ pf s₀, namesToCheck closedConfig = .ok names ∧
      (pure closedKernel : StateM Unit KernelInterfaces).run () =
        ((@closedResult ⟨id⟩).kernel, s₁) ∧
      (pure none : StateM Unit (Option PfState)).run s₁ = (pf, s₀) ∧
      @Planner.diff ⟨id⟩ closedConfig (@closedResult ⟨id⟩).kernel pf =
        .ok (@closedResult ⟨id⟩).plan ∧
      AllIssued pfFails s₀ () (@closedResult ⟨id⟩) ∧
      ∀ pre m f ruleset c post,
        (@closedResult ⟨id⟩).plan.ops = pre ++ .loadAnchor m f ruleset c :: post →
        ((pfFails (argvFor (.loadAnchor m f ruleset c)) none (some ruleset.text)).run
          (Writer.after pfFails pre s₀)).1.ok = false →
        ∃ receipt, (@closedResult ⟨id⟩).receipts[pre.length]? = some receipt ∧
          receipt.ok = false ∧ receipt.parked = false ∧
          receipt ∈ (@closedResult ⟨id⟩).failed ∧ (@closedResult ⟨id⟩).reconciled = false :=
  @load_failure_fails_pass ⟨id⟩ _ _ _ _ _ _ _ _ reconcile_closed

end Reconcile

end Bsdbridge
