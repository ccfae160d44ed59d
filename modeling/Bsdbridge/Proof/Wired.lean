import Bsdbridge.Proof.Alike
import Bsdbridge.Proof.Binding
import Bsdbridge.Proof.Converge
import Bsdbridge.Proof.Partial
import Bsdbridge.Proof.Policy
import Bsdbridge.Proof.Sync

/-!
# What the agent says is up is up

The agent tells the server which of its ports are up, and the server lets instances boot on the
word of it. What stands behind the word is a long way off: a pass that builds a config, reads a
part of the kernel, diffs, applies a plan whose destroys may block, and looks at the plan's notes.
This file goes the whole way (**`up_wired`**): a port reported up has its interface in the bridge
of its segment, its MAC locked, and the rules and tables of its policy in its anchor.

Each link is a result of its own, and this file is where their hypotheses meet. The partial read
plans what the whole kernel calls for (`Proof/Partial`); the plan of the whole kernel, run ideally,
brings about what the config says (`Proof/AfterPass`); the real run of it shows of each member what
the ideal one does (`Proof/Alike`); and the agent reports only what was rendered, did not fail and
is not awaited (`Proof/Sync`).

## What is asked

`Attempt` is a pass of the daemon that has run its reconcile, after any life whatsoever. The host
must be readable and its tools must do what they say they did (`Anchored`); commands may fail, as
long as the pass does not. The config must be in atoms (`Spelled`), or a load could not be told
from its text. `Placed` is about the port: its names are its own, and no owned bridge goes by the
name of its interface, which is the exception of `Proof/Converge`.

What the rules in the anchor *mean* is not repeated here; it is `built_anchor` in `Proof/Policy`.
-/

set_option autoImplicit false

namespace Bsdbridge

namespace Planner

open Host

/-! ## 1. Two plans of one host

The plan of what was read and the plan of the whole kernel have the same ops; their removes and
destroys may come in another order. -/

section

variable [Hashlib] {config : Config} {h : Host} {p q : Plan} {b m : String} {w : Prop}

omit [Hashlib] in
theorem SamePlan.mem_ops (hsame : SamePlan p q) (x : Op) : x ∈ p.ops ↔ x ∈ q.ops := by
  simp only [Plan.ops, List.mem_append, hsame.creates, hsame.adds, hsame.removes, hsame.destroys]

/-- The removes and the destroys of a plan only take things away. -/
theorem diff_takes {pf : Option PfState} (hq : diff config h.kernel pf = .ok q) {x : Op}
    (hx : x ∈ q.removes ∨ x ∈ q.destroys) : x.Takes := by
  obtain ⟨parts, hparts, rfl⟩ := diff_ok hq
  rcases hx with hx | hx
  · rcases (mem_removes_iff hparts).mp hx with ⟨b, m, rfl, -⟩ | ⟨n, rfl, -⟩
    · trivial
    · trivial
  · rcases (mem_destroys hparts).mp hx with ⟨n, -, rfl⟩ | ⟨n, -, rfl | ⟨rfl, -⟩⟩
    · trivial
    · trivial
    · trivial

/-- Plans with the same ops leave the same of a member they spare: only the removes and the
destroys may come in another order. -/
theorem SamePlan.alike (hsame : SamePlan p q) {pf : Option PfState}
    (hq : diff config h.kernel pf = .ok q) (hs : ∀ x ∈ q.ops, x.Spares b m w) :
    Alike b m w (h.run p.ops) (h.run q.ops) := by
  have key : ∀ r : Plan, r.creates = q.creates → r.adds = q.adds →
      (∀ x, x ∈ r.removes ↔ x ∈ q.removes) → (∀ x, x ∈ r.destroys ↔ x ∈ q.destroys) →
      Alike b m w (h.run r.ops) ((h.run q.creates).run q.adds) := by
    intro r hcreates hadds hremoves hdestroys
    have hrun : h.run r.ops = (((h.run r.creates).run r.removes).run r.adds).run r.destroys := by
      simp only [Plan.ops, run, List.foldl_append]
    rw [hrun, hcreates, hadds]
    have hgone : Alike b m w (h.run q.creates) ((h.run q.creates).run r.removes) :=
      alike_takes _ (fun x hx => diff_takes hq (Or.inl ((hremoves x).mp hx))) fun x hx => hs x (by
        simp only [Plan.ops, List.mem_append]
        exact Or.inl (Or.inl (Or.inr ((hremoves x).mp hx))))
    have hlast : ∀ t : Host, Alike b m w t (t.run r.destroys) := fun t =>
      alike_takes t (fun x hx => diff_takes hq (Or.inr ((hdestroys x).mp hx))) fun x hx => hs x (by
        simp only [Plan.ops, List.mem_append]
        exact Or.inr ((hdestroys x).mp hx))
    exact ((hlast _).symm).trans (hgone.symm.run q.adds)
  have hp := key p hsame.creates hsame.adds hsame.removes hsame.destroys
  have hq' := key q rfl rfl (fun _ => Iff.rfl) fun _ => Iff.rfl
  exact hp.trans hq'.symm

/-- A typeless member that is not there is noted as awaited. -/
theorem awaited {kernel : KernelInterfaces} {pf : Option PfState}
    (hq : diff config kernel pf = .ok q) {br : Bridge} {member : Member}
    (hb : (b, br) ∈ config.bridge.entries) (hm : (m, member) ∈ br.member.entries)
    (ht : member.type = none) (hk : m ∉ kernel) : awaiting m b ∈ q.notes := by
  obtain ⟨parts, hparts, rfl⟩ := diff_ok hq
  obtain ⟨part, hpart, hround⟩ := exists_of_mem_left hparts hb
  refine List.mem_flatMap.mpr ⟨part, hpart, ?_⟩
  unfold bridgePart at hround
  simp only [Except.bind_eq_ok] at hround
  obtain ⟨names, -, own, -, uplinks, -, members, hmembers, hround⟩ := hround
  obtain ⟨mpart, hmpart, hmok⟩ := exists_of_mem_left (mapM_eq_ok.mp hmembers) hm
  obtain ⟨-, load, tops, -, -, hnotes⟩ := memberPart_ok hmok
  rw [← Except.pure_eq_ok.mp hround]
  refine List.mem_append_left _ (List.mem_flatMap.mpr ⟨mpart, hmpart, ?_⟩)
  rw [hnotes, if_pos ⟨hk, ht⟩]
  exact List.mem_singleton_self _

namespace Pass

/-- The ops of a pass spare a claimed name in its bridge; its anchor, where it has a policy. -/
theorem spares (hp : Planner.Pass config h p) {br : Bridge} (hb : (b, br) ∈ config.bridge.entries)
    (hm : m ∈ claimsOf config b br) (hfree : ¬ HeldByBridge h m) (hw : w → m ∈ policied config)
    {x : Op} (hx : x ∈ p.ops) : x.Spares b m w where
  member := by
    rintro rfl
    obtain ⟨-, ⟨br', hb', hc⟩ | ⟨hc, -⟩⟩ := hp.issued hx
    · rw [← Dict.entry_unique hb hb'] at hc
      exact hc hm
    · exact hc (Dict.mem_of_entry hb)
  anchor := by
    rintro hpol rfl
    exact hp.not_flushed (hw hpol) hx
  iface := by
    intro n hn
    obtain ⟨hbi, hbb⟩ := hp.bridge_stays hb hx
    obtain ⟨hmi, hmb⟩ := hp.claimed_stays (mem_claimed.mpr ⟨b, br, hb, hm⟩) hfree hx
    constructor
    · rintro rfl
      exact hn.elim hbi hbb
    · rintro rfl
      exact hn.elim hmi hmb

end Pass

end

end Planner

namespace Reconcile

open Writer Planner

/-! ## 2. A pass through the tools -/

section

variable [Hashlib] {σ : Type} {run : Runner σ} {host : σ → Host} {config : Config} {s s' : σ}
  {result : Result}

/-- A host that can be read: it is one a kernel can present, and the queries change nothing and
print what there is. -/
structure Readable (run : Runner σ) (host : σ → Host) (s : σ) : Prop where
  consistent : Consistent (host s).kernel
  grouped : (host s).kernel.Grouped
  truthful : ∃ answer, ReadOnly run s answer ∧ Shows answer (host s).kernel (host s).anchors

/-- To read changes nothing. -/
theorem planned_still {answer : Argv → RunResult} (hr : ReadOnly run s answer) :
    ((planned run config).run s).2 = s := by
  cases hnames : namesToCheck config with
  | error e =>
    unfold planned
    rw [hnames]
    rfl
  | ok names =>
    have hplanned : planned run config = (do
        let kernel ← Ifconfig.readInterfaces run names
        let pfState ← pfReader run (sortedSet (pfScope config kernel))
        pure ((diff config kernel pfState).map fun plan => (plan, kernel))) := by
      unfold planned
      rw [hnames]
    rw [hplanned, StateT.run, bind_readOnly (readInterfaces_readOnly hr names),
      bind_readOnly (pfReader_readOnly hr _)]
    generalize diff config _ _ = x
    rfl

omit [Hashlib] in
/-- A receipt that did not fail is clean. -/
theorem clean_of_failed (hfailed : result.failed = []) {r : Receipt Op} (hr : r ∈ result.receipts) :
    Clean r := by
  have hnot := (List.filter_eq_nil_iff.mp hfailed) r hr
  unfold Clean
  cases hok : r.ok with
  | true => exact Or.inl rfl
  | false =>
    refine Or.inr ?_
    rw [hok] at hnot
    simpa using hnot

/-- What a config puts into the anchors of its members is made of atoms. The names and addresses of
a config come from the server; this is what is asked of them. -/
def Spelled (config : Config) : Prop :=
  ∀ e ∈ config.bridge.entries, ∀ f ∈ e.2.member.entries, HasPolicy config f.2 →
    Pf.Printable f.1 (filterOf config f.2) f.2.bind (tablesOf config f.2)

instance (config : Config) : Decidable (Spelled config) :=
  inferInstanceAs (Decidable (∀ e ∈ config.bridge.entries, ∀ f ∈ e.2.member.entries, _))

/-- The loads of a plan are rendered ones. -/
theorem rendered_of_diff (hspelled : Spelled config) {kernel : KernelInterfaces}
    {pf : Option PfState} {q : Plan} (hq : diff config kernel pf = .ok q) {x : Op}
    (hx : x ∈ q.ops) : Rendered x := by
  rintro n f r c rfl
  obtain ⟨b, br, member, hb, hm, hload, heq⟩ := (mem_ops hq).mp hx
  obtain ⟨-, -, rfl, rfl⟩ := Op.loadAnchor.inj heq
  exact ⟨_, _, _, hspelled (b, br) hb (n, member) hm hload.1, rfl⟩

/-- **A pass that does not fail**, through the tools: its plan is as good as the one of the whole
host, and what it leaves shows of a member its ops spare what the ideal run of that plan shows. -/
theorem reconcile_pass (hc : Checked config) (hshaped : Shaped config)
    (hset : Settled config (host s).kernel) (hread : Readable run host s)
    (hrec : (reconcile run false (Ifconfig.readInterfaces run) (pfReader run) config).run s =
      (.ok result, s')) (hfailed : result.failed = []) :
    ∃ q, Planner.Pass config (host s) q ∧ SamePlan result.plan q ∧
      Before (afterOp run) (fun t x => Clean ((apply run false x).run t).1) result.plan.ops s ∧
      s' = result.plan.ops.foldl (afterOp run) s := by
  obtain ⟨answer, hr, hshows⟩ := hread.truthful
  rw [reconcile_eq, run_seq, planned_still hr] at hrec
  have hcases := planned_cases hc hread.consistent hread.grouped hr hshows
  rcases hcases with ⟨⟨msg, hmsg⟩, -⟩ | ⟨p, view, q, hp, hq, hsame⟩
  · rw [hmsg] at hrec
    exact absurd (congrArg Prod.fst hrec) (by simp [applied])
  have happlied : (.ok result, s') = (Except.ok (ε := PlanExc)
      ({ plan := p, receipts := ((applyPlan run false p).run s).1, kernel := view } : Result),
      ((applyPlan run false p).run s).2) := by
    rw [← hrec, hp]
    rfl
  obtain ⟨hresult, hs'⟩ := Prod.mk.inj happlied
  obtain rfl := Except.ok.inj hresult
  refine ⟨q, ⟨hshaped, hread.consistent, hset, hq⟩, hsame, ?_, ?_⟩
  · exact forall_run_mapM.mp fun r hr' => clean_of_failed hfailed hr'
  · rw [hs']
    exact run_applyPlan

/-- What such a pass leaves of a claimed name. -/
theorem reconcile_alike (hc : Checked config) (hshaped : Shaped config)
    (hspelled : Spelled config) (hset : Settled config (host s).kernel)
    (hread : Readable run host s) (A : Anchored run host)
    (hrec : (reconcile run false (Ifconfig.readInterfaces run) (pfReader run) config).run s =
      (.ok result, s')) (hfailed : result.failed = []) :
    ∃ q, Planner.Pass config (host s) q ∧ SamePlan result.plan q ∧
      ∀ b br m (w : Prop), (b, br) ∈ config.bridge.entries → m ∈ claimsOf config b br →
        ¬ HeldByBridge (host s) m → (w → m ∈ policied config) →
        Host.Alike b m w (host s') ((host s).run q.ops) := by
  obtain ⟨q, hp, hsame, hclean, rfl⟩ := reconcile_pass hc hshaped hset hread hrec hfailed
  refine ⟨q, hp, hsame, fun b br m w hb hm hfree hw => ?_⟩
  have hspares : ∀ x ∈ q.ops, x.Spares b m w := fun x hx => hp.spares hb hm hfree hw hx
  have hreal := applyPlan_alike A
    (fun x hx => rendered_of_diff hspelled hp.planned ((hsame.mem_ops x).mp hx))
    (fun x hx => hspares x ((hsame.mem_ops x).mp hx)) hclean (.refl b m w _)
  exact hreal.trans (hsame.alike hp.planned hspares)

end

end Reconcile

namespace PortConfig

open Planner Reconcile

/-! ## 3. One port

`Wired` says it of the host after the pass, lock and anchor included where the port has them. -/

section

variable [Hashlib] {ports : List PortDetails} {sgInfo : SgInfo} {mappings : Dict String String}
  {config : Config} {devices : List String} {port : PortDetails}

/-- A built config has the builder's shape, once no name is claimed twice. -/
theorem shaped_of_build (hb : build ports sgInfo mappings = .ok (config, devices))
    (honce : ClaimedOnce config) : Shaped config := by
  obtain ⟨hsections, -, -⟩ := build_eq_ok.mp hb
  have hmember : ∀ e ∈ config.bridge.entries, ∀ f ∈ e.2.member.entries,
      ∃ p bind, bindOf p = .ok bind ∧ f.2 = memberOf p bind := by
    intro e he f hf
    obtain ⟨p, -, -, -, bind, hbind, hm⟩ :=
      (hsections.get?_bridge (Dict.get?_eq_some.mpr he)).1 f.1 f.2 (Dict.get?_eq_some.mpr hf)
    exact ⟨p, bind, hbind, hm⟩
  refine ⟨fun e he f hf => ?_, fun e he f hf htype => ?_, honce⟩
  · obtain ⟨p, bind, -, hm⟩ := hmember e he f hf
    rw [hm]
    unfold memberOf
    split <;> simp
  · obtain ⟨p, bind, hbind, hm⟩ := hmember e he f hf
    rw [hm] at htype ⊢
    have hservice : (serviceIf p).isSome = true := by
      by_contra hno
      simp [memberOf, hno] at htype
    have hplain : secured p = false := by
      unfold secured
      rw [Option.isSome_iff_exists] at hservice
      obtain ⟨f, hf⟩ := hservice
      rw [hf]
      rfl
    unfold bindOf at hbind
    rw [hplain] at hbind
    exact ⟨by simp [memberOf, hplain], (Except.ok.inj hbind).symm⟩

/-- A port works: its interface is in the bridge of its segment, and if the port carries a
policy, its MAC is locked and its anchor has the rules and the tables of its filter. -/
structure Wired (config : Config) (port : PortDetails) (h : Host) : Prop where
  joined : ifName port ∈ h.kernel.membersOf (bridgeOf port)
  locked : ∀ bind, bindOf port = .ok (some bind) →
    h.lock (bridgeOf port) (ifName port) = some bind.mac
  policed : secured port = true → ∃ filt bind tables st,
    config.filter.get? (Names.filterName port.portId) = some filt ∧ bindOf port = .ok bind ∧
      Pf.wantedTables (some filt) config = .ok tables ∧ h.anchor (ifName port) = some st ∧
      st.isLoaded = true ∧ st.cfgHash = some (Pf.render (ifName port) (some filt) bind tables).2 ∧
      ∀ t ∈ tables, t.2.toFinset = (st.tables.get? t.1).getD ∅

/-- What is asked of a port and the host it comes to: no other port takes its names, its interface
name has no colon, and no owned bridge goes by it. -/
structure Placed (ports : List PortDetails) (port : PortDetails) (h : Host) : Prop where
  mem : port ∈ ports
  own : Own ports port
  plain : ':' ∉ (ifName port).toList
  free : ¬ HeldByBridge h (ifName port)

/-- A member that is not awaited stands after the pass. -/
theorem standing {h : Host} {q : Plan} (hp : Planner.Pass config h q) {b m : String} {br : Bridge}
    {member : Member} (hb : (b, br) ∈ config.bridge.entries)
    (hm : (m, member) ∈ br.member.entries) (hfree : ¬ HeldByBridge h m)
    (hnote : awaiting m b ∉ q.notes) : m ∈ (h.run q.ops).kernel := by
  rw [Host.mem_kernel]
  cases ht : member.type with
  | some t =>
    exact hp.run_manufactured ⟨b, br, hb, Or.inl ⟨member, hm, by rw [ht]; rfl⟩⟩ hfree
  | none =>
    have hk : m ∈ h.kernel := by
      by_contra hk
      exact hnote (awaited hp.planned hb hm ht hk)
    refine foldl_keeps (fun t : Host => (t.look m).isSome = true) (Host.mem_kernel.mp hk)
      fun x hx t hlook => ?_
    obtain ⟨i, hi⟩ := Option.isSome_iff_exists.mp hlook
    have hcl : m ∈ claimed config :=
      mem_claimed.mpr ⟨b, br, hb, List.mem_append_right _ (Dict.mem_of_entry hm)⟩
    obtain ⟨hd, hd'⟩ := hp.claimed_stays hcl hfree hx
    obtain ⟨i', hi', -⟩ := Host.look_exec_some hi hd hd'
    rw [hi']
    rfl

omit [Hashlib] in
/-- The interface of a port is one of three that a report looks for among the awaited. -/
theorem ifName_cases (port : PortDetails) : ifName port = Names.tapName port.portId ∨
    ifName port = Names.dhcpIfName port.portId ∨ ifName port = Names.routerIfName port.portId := by
  unfold ifName serviceIf
  cases hs : SERVICE_IF_NAME.find? fun s =>
      Text.startsWith (port.deviceOwner.getD "") s.1 with
  | none => exact Or.inl rfl
  | some s =>
    have hmem := List.mem_of_find?_eq_some hs
    simp only [SERVICE_IF_NAME, List.mem_cons, List.not_mem_nil, or_false] at hmem
    rcases hmem with rfl | rfl | rfl
    · exact Or.inr (Or.inl rfl)
    · exact Or.inr (Or.inr rfl)
    · exact Or.inr (Or.inr rfl)

omit [Hashlib] in
/-- A port that is reported up is not awaited in any bridge. -/
theorem not_awaited {rendered notes : List String} (hplain : ':' ∉ (ifName port).toList)
    (hup : port.portId ∈ Sync.nowUp rendered notes) (b : String) :
    awaiting (ifName port) b ∉ notes := by
  intro hnote
  have hwait : ifName port ∈ Sync.waiting notes := by
    have htext : awaiting (ifName port) b =
        ifName port ++ String.ofList (':' :: (" awaiting-attach (" ++ b ++ ")").toList) := by
      refine String.toList_injective ?_
      simp [awaiting]
      rfl
    refine List.mem_map.mpr ⟨_, List.mem_filter.mpr ⟨hnote, ?_⟩, ?_⟩
    · rw [decide_eq_true_eq]
      refine ⟨(ifName port ++ ": ").toList, (" (" ++ b ++ ")").toList, ?_⟩
      simp [awaiting]
      rfl
    · rw [htext, Text.partition_append hplain]
  have hclear := (List.mem_filter.mp (List.mem_toFinset.mp hup)).2
  rw [decide_eq_true_eq] at hclear
  obtain ⟨htap, hdhcp, hrouter⟩ := hclear
  rcases ifName_cases port with h | h | h
  · exact htap (h ▸ hwait)
  · exact hdhcp (h ▸ hwait)
  · exact hrouter (h ▸ hwait)

/-- **A port that is not awaited is wired** by a pass that does not fail. -/
theorem wired_of_pass {σ : Type} {run : Runner σ} {host : σ → Host} {s s' : σ}
    {result : Reconcile.Result} (hb : build ports sgInfo mappings = .ok (config, devices))
    (honce : ClaimedOnce config) (hspelled : Spelled config)
    (hset : Settled config (host s).kernel) (hread : Readable run host s) (A : Anchored run host)
    (hrec : (reconcile run false (Ifconfig.readInterfaces run) (pfReader run) config).run s =
      (.ok result, s')) (hfailed : result.failed = []) (hport : Placed ports port (host s))
    (hnote : awaiting (ifName port) (bridgeOf port) ∉ result.plan.notes) :
    Wired config port (host s') := by
  obtain ⟨hsections, hdangling, -⟩ := build_eq_ok.mp hb
  have hchecked := hsections.checked hdangling
  have hshaped := shaped_of_build hb honce
  obtain ⟨q, hp, hsame, halike⟩ := reconcile_alike hchecked hshaped hspelled hset hread A hrec
    hfailed
  rw [hsame.notes] at hnote
  -- the port's own member; by `hlook` the host is left with what the planned ops make of it
  obtain ⟨br, bind, hbr, hbind, hm⟩ := hsections.member_own hport.own hport.mem
  have hbe := Dict.get?_eq_some.mp hbr
  have hme := Dict.get?_eq_some.mp hm
  have hclaim : ifName port ∈ claimsOf config (bridgeOf port) br :=
    List.mem_append_right _ (Dict.mem_of_entry hme)
  have hstand := standing hp hbe hme hport.free hnote
  have hlook : Host.Alike (bridgeOf port) (ifName port) False (host s') ((host s).run q.ops) :=
    halike _ br _ _ hbe hclaim hport.free False.elim
  refine ⟨?_, fun bd hbd => ?_, fun hs => ?_⟩
  · exact hlook.joined.mpr (hp.run_joined hbe hclaim hstand)
  · rw [hlook.lock]
    refine hp.run_lock hbe hme ?_ hport.free
    rw [hbind] at hbd
    exact Except.ok.inj hbd
  · obtain ⟨filt, hfilt, -⟩ := @Sections.filter_own _ _ _ _ _ _ hsections hport.own hport.mem hs bind
    have hpol : HasPolicy config (memberOf port bind) := Or.inl (by rw [hfilt]; rfl)
    have htyped := hp.typed_of_policy hbe hme hpol
    obtain ⟨st, hst, ⟨hl, hh⟩, htables⟩ := hp.run_anchor hbe hme htyped hpol
    have hanchor : Host.Alike (bridgeOf port) (ifName port) True (host s') ((host s).run q.ops) :=
      halike _ br _ _ hbe hclaim hport.free fun _ => policied_of_policy hbe hme hpol
    refine ⟨filt, bind, tablesOf config (memberOf port bind), st, ?_, hbind, ?_, ?_, hl, ?_, ?_⟩
    · obtain ⟨name, hname, hget⟩ := Option.bind_eq_some_iff.mp hfilt
      obtain ⟨hsome, -⟩ := truthy_eq_some.mp hname
      have hfilter : (memberOf port bind).filter = some (Names.filterName port.portId) := if_pos hs
      rw [hfilter] at hsome
      rw [Option.some.inj hsome]
      exact hget
    · rw [← hfilt]
      exact hchecked.tablesOf
    · rw [hanchor.anchor trivial, hst]
    · rw [hh, hashFor, hfilt]
      rfl
    · rintro ⟨name, ms⟩ ht
      exact htables name ms ht

end

end PortConfig

namespace Sync

open Planner Reconcile PortConfig

/-! ## 4. The daemon -/

section

variable [Hashlib] {mappings : Dict String String}

variable (mappings) in
/-- A pass that waits for its reconcile has built the config it reconciles. -/
def Builds (s : State) : Prop :=
  ∀ w config rendered, s.pc = .reconciling w config rendered →
    ∃ info, build w.details info mappings = .ok (config, rendered)

theorem builds_of_builtFrom {details : List PortDetails} {s : State}
    (h : BuiltFrom mappings details s) : Builds mappings s := by
  intro w config rendered hpc
  unfold BuiltFrom at h
  rw [hpc] at h
  obtain ⟨info, hb, -⟩ := h
  exact ⟨info, hb⟩

theorem step_builds {s s' : State} {e : Event} (h : step mappings s e = some s')
    (hs : Builds mappings s) : Builds mappings s' := by
  obtain ⟨a, pc⟩ := s
  cases e with
  | callback c =>
    cases pc with
    | done w => exact absurd h (by simp [step])
    | aborted => exact absurd h (by simp [step])
    | _ =>
      obtain rfl := Option.some.inj h
      exact hs
  | raised =>
    cases pc with
    | done w => exact absurd h (by simp [step])
    | aborted => exact absurd h (by simp [step])
    | _ =>
      obtain rfl := Option.some.inj h
      exact fun _ _ _ hpc => absurd hpc (by simp)
  | scanned found =>
    cases pc with
    | scanning =>
      obtain rfl := Option.some.inj h
      unfold snapshot
      dsimp only
      split
      · exact builds_of_builtFrom resolve_builtFrom
      · exact fun _ _ _ hpc => absurd hpc (by simp)
    | _ => exact absurd h (by simp [step])
  | details reply =>
    cases pc with
    | fetching devices =>
      obtain rfl := Option.some.inj h
      exact builds_of_builtFrom resolve_builtFrom
    | _ => exact absurd h (by simp [step])
  | groups info =>
    cases pc with
    | fetchingGroups w =>
      obtain rfl := Option.some.inj h
      exact builds_of_builtFrom desire_builtFrom
    | _ => exact absurd h (by simp [step])
  | reconciled result =>
    cases pc with
    | reconciling w config rendered =>
      obtain rfl := Option.some.inj h
      intro w' config' rendered' hpc
      unfold settle at hpc
      dsimp only at hpc
      split at hpc
      · exact absurd hpc (by simp)
      · split at hpc <;> exact absurd hpc (by simp)
    | _ => exact absurd h (by simp [step])
  | reported =>
    cases pc with
    | reporting w up =>
      obtain rfl := Option.some.inj h
      exact fun _ _ _ hpc => absurd hpc (by simp)
    | _ => exact absurd h (by simp [step])

theorem tick_builds {s s' : State} {t : Tick} (h : tick mappings s t = some s')
    (hs : Builds mappings s) : Builds mappings s' := by
  obtain ⟨a, pc⟩ := s
  cases t with
  | sync =>
    cases pc with
    | done w =>
      obtain rfl := Option.some.inj h
      exact fun _ _ _ hpc => absurd hpc (by simp [start])
    | aborted =>
      obtain rfl := Option.some.inj h
      exact fun _ _ _ hpc => absurd hpc (by simp [start])
    | _ => exact absurd h (by simp [tick])
  | event e =>
    cases pc with
    | done w =>
      cases e with
      | callback c =>
        obtain rfl := Option.some.inj h
        exact fun _ _ _ hpc => absurd hpc (by simp)
      | _ => exact absurd h (by simp [tick, step])
    | aborted =>
      cases e with
      | callback c =>
        obtain rfl := Option.some.inj h
        exact fun _ _ _ hpc => absurd hpc (by simp)
      | _ => exact absurd h (by simp [tick, step])
    | _ => exact step_builds h hs

/-- Whatever the daemon has lived through. -/
theorem life_builds {s s' : State} {ticks : List Tick} (h : life mappings s ticks = some s')
    (hs : Builds mappings s) : Builds mappings s' := by
  induction ticks generalizing s with
  | nil =>
    obtain rfl := Option.some.inj h
    exact hs
  | cons t rest ih =>
    unfold life at h
    rw [List.foldlM_cons] at h
    obtain ⟨u, hu, hrest⟩ := Option.bind_eq_some_iff.mp h
    exact ih hrest (tick_builds hu hs)

/-- A pass of the daemon that has run its reconcile: what it waits with was reached by the daemon,
and it reads and writes a host whose claimed interfaces sit in their own bridges if in any. -/
structure Attempt (mappings : Dict String String) {σ : Type} (run : Runner σ) (host : σ → Host)
    (a : Agent) (w : Work) (config : Config) (rendered : List String) (s : σ)
    (result : Reconcile.Result) (s' : σ) : Prop where
  reached : ∃ recovered ticks,
    life mappings (boot recovered) ticks = some ⟨a, .reconciling w config rendered⟩
  anchored : Anchored run host
  readable : Readable run host s
  once : ClaimedOnce config
  spelled : Spelled config
  settled : Settled config (host s).kernel
  reconciled : (reconcile run false (Ifconfig.readInterfaces run) (pfReader run) config).run s =
    (.ok result, s')

section

variable {σ : Type} {run : Runner σ} {host : σ → Host} {a a' : Agent} {w : Work}
  {config : Config} {rendered : List String} {s s' : σ} {result : Reconcile.Result}
  {up : Finset String} {port : PortDetails}

theorem Attempt.built (h : Attempt mappings run host a w config rendered s result s') :
    ∃ info, build w.details info mappings = .ok (config, rendered) := by
  obtain ⟨recovered, ticks, hlife⟩ := h.reached
  have hboot : Builds mappings (boot recovered) := fun _ _ _ hpc => absurd hpc (by simp [boot])
  exact life_builds hlife hboot w config rendered rfl

/-- A report follows a reconcile without failures, and leaves out what its notes await. -/
theorem reporting_of_settle
    (h : tick mappings ⟨a, .reconciling w config rendered⟩ (.event (.reconciled result)) =
      some ⟨a', .reporting w up⟩) : result.failed = [] ∧ up = nowUp rendered result.plan.notes := by
  have hsettle : settle a w rendered result = ⟨a', .reporting w up⟩ := Option.some.inj h
  unfold settle at hsettle
  dsimp only at hsettle
  split at hsettle
  · exact absurd hsettle (by simp)
  · rename_i hfailed
    refine ⟨not_not.mp hfailed, ?_⟩
    split at hsettle
    · exact ((Pc.reporting.inj (State.mk.inj hsettle).2).2).symm
    · exact absurd hsettle (by simp)

/-- What a pass of the daemon leaves of a port that it does not await. -/
theorem Attempt.wired (h : Attempt mappings run host a w config rendered s result s')
    (hfailed : result.failed = []) (hup : port.portId ∈ nowUp rendered result.plan.notes)
    (hport : Placed w.details port (host s)) : Wired config port (host s') := by
  obtain ⟨info, hb⟩ := h.built
  exact wired_of_pass hb h.once h.spelled h.settled h.readable h.anchored h.reconciled hfailed hport
    (not_awaited hport.plain hup _)

end

end

/-! ## 5. Two segments on an empty host

Three ports on two local networks, each with port security, in a group whose members may reach each
other: filters, binds, and a table of three addresses in every anchor. The host is empty, and its
tools are the silent ones. -/

/-- What the tools answer of an empty host. -/
def emptyAnswer (argv : Argv) : RunResult := (Silent.runner argv none none {}).1

theorem empty_readable : Readable Silent.runner id {} where
  consistent :=
    { bridgeless := fun _ _ _ _ hi => absurd hi (by simp)
      locked := by
        intro b m mac hl
        exact absurd hl (by simp [KernelInterfaces.staticLock, KernelInterfaces.lockIn]) }
  grouped := by
    intro n
    rw [KernelInterfaces.ownedName_iff]
    simp
  truthful := by
    refine ⟨emptyAnswer, ?_, ?_⟩
    · intro argv hq
      have hstill : (Silent.runner argv none none {}).2 = {} := by
        cases hq with
        | group => rfl
        | iface n => rfl
        | addr b => rfl
        | anchors => exact congrArg Prod.snd (Silent.run_pfctl {} _ none none)
        | rules n => exact congrArg Prod.snd (Silent.run_pfctl {} _ none none)
        | tables n => exact congrArg Prod.snd (Silent.run_pfctl {} _ none none)
        | table n t => exact congrArg Prod.snd (Silent.run_pfctl {} _ none none)
      exact Prod.ext rfl hstill
    · have hnone : ∀ n, loadedAt (∅ : PfState) n = none := fun n => by simp [loadedAt]
      have hrules : ∀ n, (emptyAnswer (Pf.rulesArgv n)).ok = false := by
        intro n
        show ((Silent.runner (PFCTL :: ["-a", Pf.anchorName n, "-sr"]) none none).run {}).1.ok = false
        rw [Silent.run_pfctl]
        rfl
      have hquery : ∀ n, (emptyAnswer (Ifconfig.ifaceArgv n)).ok = false := fun _ => rfl
      exact
        { group := by decide +kernel
          iface := fun _ _ hi => absurd hi (by simp)
          only := fun n hok => absurd hok (by rw [hquery]; decide)
          addr := fun _ _ hi => absurd hi (by simp)
          listing := fun n _ hl => absurd hl (by simp [hnone])
          rules := fun n _ hl => absurd hl (by simp [hnone])
          bare := fun n _ hok => absurd hok (by rw [hrules]; decide)
          tables := fun n _ hl => absurd hl (by simp [hnone])
          table := fun n _ _ _ hl => absurd hl (by simp [hnone]) }

/-- A digest that tells the two segments apart. -/
abbrev segmentHash : Hashlib where
  sha256 text := String.ofList (List.replicate 64
    (if text = "local/n0" then 'a' else if text = "local/n1" then 'b' else 'c'))

theorem segmentHash_digits (n : String) (filt : Option Filter) (bind : Option Bind) :
    Pf.HashDigits (@Pf.cfgHash segmentHash n filt bind) := by
  have htake : ∀ c : Char, isLowerHex c = true →
      Pf.HashDigits (Text.take (String.ofList (List.replicate 64 c)) 16) := by
    intro c hc
    unfold Pf.HashDigits Text.take
    simp only [String.toList_ofList, List.take_replicate, List.length_replicate]
    exact ⟨rfl, fun d hd => (List.eq_of_mem_replicate hd) ▸ hc⟩
  unfold Pf.cfgHash
  refine htake _ ?_
  split
  · decide
  · split <;> decide

def tenantPort (portId networkId mac ip : String) : PortDetails :=
  { portId, networkId, networkType := some "local", macAddress := some mac, fixedIps := [ip] }

def portA : PortDetails := tenantPort "p0" "n0" "FA:16:3E:00:00:01" "10.0.0.5"
def portB : PortDetails := tenantPort "p1" "n0" "FA:16:3E:00:00:02" "10.0.0.6"
def portC : PortDetails := tenantPort "p2" "n1" "FA:16:3E:00:00:03" "10.0.1.5"

/-- The members of the group may reach each other. -/
def groupRule : SgRule :=
  { direction := .ingress, ethertype := some "IPv4", remoteGroupId := some "g0" }

def groupInfo : SgInfo :=
  { securityGroups := ⟨[("g0", [groupRule])], by decide⟩
    devices := ⟨[("p0", ["g0"]), ("p1", ["g0"]), ("p2", ["g0"])], by decide⟩
    sgMemberIps := ⟨[("g0", { ipv4 := ["10.0.0.5", "10.0.0.6", "10.0.1.5"] })], by decide⟩ }

def tenantWork : Work := ⟨["p0", "p1", "p2"], [portA, portB, portC], ∅⟩

/-- What is built for them. -/
def tenantConfig : Config :=
  ((@build segmentHash tenantWork.details groupInfo ∅).toOption.map Prod.fst).getD {}

theorem build_tenant : @build segmentHash tenantWork.details groupInfo ∅ =
    .ok (tenantConfig, ["p0", "p1", "p2"]) := by
  have hok : (@build segmentHash tenantWork.details groupInfo ∅).toOption.any
      (fun r => decide (r.2 = ["p0", "p1", "p2"])) = true := by decide +kernel
  unfold tenantConfig
  cases hb : @build segmentHash tenantWork.details groupInfo ∅ with
  | error e =>
    rw [hb] at hok
    exact absurd hok (by simp [Except.toOption])
  | ok r =>
    obtain ⟨config, devices⟩ := r
    rw [hb] at hok
    obtain rfl : devices = ["p0", "p1", "p2"] := of_decide_eq_true hok
    rfl

theorem once_tenant : ClaimedOnce tenantConfig := by
  have hok : (namesToCheck tenantConfig).toOption.any (fun names => decide names.Nodup) = true := by
    decide +kernel
  cases hn : namesToCheck tenantConfig with
  | error e =>
    rw [hn] at hok
    exact absurd hok (by simp [Except.toOption])
  | ok names =>
    rw [hn] at hok
    exact ⟨names, hn, of_decide_eq_true hok⟩

theorem spelled_tenant : Spelled tenantConfig := by decide +kernel

def tenantAgent : Agent := { candidates := {"p0", "p1", "p2"}, dirty := false }

/-- The first pass of an agent that has recovered the three ports. -/
def tenantTicks : List Tick :=
  [.sync, .event (.scanned ∅),
    .event (.details { devices := [.bound portA, .bound portB, .bound portC] }),
    .event (.groups groupInfo)]

theorem life_tenant : @life segmentHash ∅ (boot {"p0", "p1", "p2"}) tenantTicks =
    some ⟨tenantAgent, .reconciling tenantWork tenantConfig ["p0", "p1", "p2"]⟩ := by
  show some (@desire segmentHash ∅ tenantAgent tenantWork groupInfo) = _
  unfold desire
  rw [build_tenant]

/-- Its reconcile on the empty host. -/
def tenantPass : Except PlanExc Result × Host :=
  (@reconcile segmentHash Host Silent.runner false (Ifconfig.readInterfaces Silent.runner)
    (pfReader Silent.runner) tenantConfig).run {}

/-- It goes through, and the three ports are up. -/
theorem tenant_pass : ∃ result, tenantPass.1 = .ok result ∧ result.failed = [] ∧
    nowUp ["p0", "p1", "p2"] result.plan.notes = {"p0", "p1", "p2"} := by
  have hgood : tenantPass.1.toOption.any (fun r =>
      decide (r.failed = [] ∧ nowUp ["p0", "p1", "p2"] r.plan.notes = {"p0", "p1", "p2"})) = true := by
    decide +kernel
  cases hp : tenantPass.1 with
  | error e =>
    rw [hp] at hgood
    exact absurd hgood Bool.false_ne_true
  | ok result =>
    rw [hp] at hgood
    exact ⟨result, rfl, of_decide_eq_true hgood⟩

theorem tenant_attempt {result : Result} (hresult : tenantPass.1 = .ok result) :
    @Attempt segmentHash ∅ Host Silent.runner id tenantAgent tenantWork tenantConfig
      ["p0", "p1", "p2"] {} result tenantPass.2 := by
  have hpair : ∀ p : Except PlanExc Result × Host, p.1 = .ok result → p = (.ok result, p.2) :=
    fun p hp => by rw [← hp]
  have hreached : ∃ recovered ticks, @life segmentHash ∅ (boot recovered) ticks =
      some ⟨tenantAgent, .reconciling tenantWork tenantConfig ["p0", "p1", "p2"]⟩ :=
    ⟨{"p0", "p1", "p2"}, tenantTicks, life_tenant⟩
  exact @Attempt.mk segmentHash _ _ _ _ _ _ _ _ _ _ _ hreached
    (@Silent.anchored segmentHash segmentHash_digits) empty_readable once_tenant spelled_tenant
    (fun _ _ _ _ hi => absurd hi (by simp)) (hpair tenantPass hresult)

theorem tenant_reports {result : Result} (hfailed : result.failed = [])
    (hup : nowUp ["p0", "p1", "p2"] result.plan.notes = {"p0", "p1", "p2"}) :
    @tick segmentHash ∅ ⟨tenantAgent, .reconciling tenantWork tenantConfig ["p0", "p1", "p2"]⟩
      (.event (.reconciled result)) =
        some ⟨tenantAgent, .reporting tenantWork {"p0", "p1", "p2"}⟩ := by
  show some (settle tenantAgent tenantWork ["p0", "p1", "p2"] result) = _
  unfold settle
  rw [if_neg (not_not.mpr hfailed)]
  dsimp only
  rw [hup, if_pos (Or.inl (by decide))]

theorem tenant_placed {port : PortDetails} (h : port ∈ tenantWork.details) :
    @Placed segmentHash tenantWork.details port {} := by
  have hnames : ∀ p ∈ tenantWork.details, ∀ q ∈ tenantWork.details,
      (ifName q = ifName p → q = p) ∧
        (Names.filterName q.portId = Names.filterName p.portId → q = p) := by decide +kernel
  refine @Placed.mk segmentHash _ _ _ h (@Own.mk segmentHash _ _ ?_ ?_) ?_ ?_
  · exact fun other ho _ => (hnames port h other ho).1
  · exact fun other ho _ => (hnames port h other ho).2
  · have hplain : ∀ p ∈ tenantWork.details, ':' ∉ (ifName p).toList := by decide +kernel
    exact hplain port h
  · rintro ⟨i, hi, -⟩
    exact absurd hi (by simp [Host.look])

end Sync

end Bsdbridge
