import Bsdbridge.Proof.Foreign
import Bsdbridge.Proof.Sync
import Bsdbridge.Proof.Total

/-!
# A device the server could not answer for

A pass keeps a failed device as pending, but builds its config from the resolved details alone. So
the planner sees the device's tap as any other owned interface, and takes it down unless some
resolved port happens to claim its name (**`failed_spared_iff`**).

The statement goes through three components, and each has its own section: the planner (when does
an owned interface stay?), the builder (which names does the config of some ports claim?) and the
agent (what does a pass build its config from?). The middle one is of use elsewhere as well.
`Sections.claims` says in terms of ports what a built config claims: the interface of a port on its
bridge, and the trunk, or a vlan of the trunk, of the port whose segment the bridge took.

## What the condition means

`Renders` looks at the details of the reply and at nothing else of the agent. It holds of a failed
device's tap when another port's interface has the same cut name, or when a trunk is called like
it. Neither is likely. The theorem keeps them, because an exact statement must, and because they
show what the pass does *not* consult: neither the pending set it has just filled nor the miss
counter decides about the tap.
-/

set_option autoImplicit false

namespace Bsdbridge

namespace Planner

/-! ## 1. When an owned interface is spared

From the planner's side: what stays is claimed, and no bridge takes it down with itself. -/

section

variable [Hashlib] {config : Config} {kernel : KernelInterfaces} {pf : Option PfState} {p : Plan}

/-- An owned interface that is no bridge stays exactly when some bridge of the config claims it,
and every owned bridge that holds it is one of those. -/
theorem spared_iff (hgroup : kernel.Grouped) (h : diff config kernel pf = .ok p) {n : String}
    {i : Interface} (hi : kernel.interfaces.get? n = some i) (ho : i.isOwned = true)
    (hb : i.isBridge = false) :
    Op.destroyIface n ∉ p.ops ↔
      (∃ b br, (b, br) ∈ config.bridge.entries ∧ n ∈ claimsOf config b br) ∧
        ∀ b, kernel.OwnedBridge b → n ∈ kernel.membersOf b →
          ∃ br, (b, br) ∈ config.bridge.entries ∧ n ∈ claimsOf config b br := by
  have hown : kernel.ownedName n = true := KernelInterfaces.ownedName_iff.mpr ⟨i, hi, ho⟩
  have hnu : ¬ Unwanted config kernel n := by
    intro ⟨_, i', hi', hb', _⟩
    obtain rfl := Option.some.inj (hi.symm.trans hi')
    exact absurd hb' (by simp [hb])
  rw [mem_ops h]
  show ¬ Destroyed config kernel n ↔ _
  constructor
  · intro hkept
    constructor
    · by_contra hno
      refine hkept (Or.inr (Or.inr ⟨(hgroup n).mpr hown, fun hc => hno ?_, i, hi, hb⟩))
      exact mem_claimed.mp hc
    · intro b ⟨j, hj, hjb, hjo⟩ hm
      have hmem : n ∈ j.members := by
        obtain ⟨j', hj', hm'⟩ := KernelInterfaces.exists_of_member hm
        obtain rfl := Option.some.inj (hj.symm.trans hj')
        exact hm'
      by_cases hin : b ∈ config.bridge
      · obtain ⟨br, hbr⟩ := Dict.mem_iff_get?.mp hin
        have he := Dict.get?_eq_some.mp hbr
        by_cases hc : n ∈ claimsOf config b br
        · exact ⟨br, he, hc⟩
        · exact absurd (Or.inr (Or.inl ⟨⟨hown, b, br, he, hm, hc⟩, hnu⟩)) hkept
      · have hgone := mem_unwanted.mpr ⟨hin, hj, hjb, hjo⟩
        exact absurd (Or.inl ⟨hown, firstHeld_of_mem hnu hgone hmem⟩) hkept
  · intro ⟨hclaim, hheld⟩ hd
    rcases hd with ⟨-, pre, ⟨b, j⟩, post, hsplit, hm, -⟩ | ⟨⟨-, b, br, he, hm, hc⟩, -⟩ | ⟨-, hc, -⟩
    · -- an unwanted bridge is outside the config
      have hgone : (b, j) ∈ unwanted config kernel := by simp [hsplit]
      obtain ⟨hout, hj, hjb, hjo⟩ := mem_unwanted.mp hgone
      have hmem : n ∈ kernel.membersOf b := by
        unfold KernelInterfaces.membersOf
        rw [hj]
        exact hm
      obtain ⟨br, he, -⟩ := hheld b ⟨j, hj, hjb, hjo⟩ hmem
      exact hout (Dict.mem_of_entry he)
    · obtain ⟨j, hj, -⟩ := KernelInterfaces.exists_of_member hm
      obtain ⟨br', he', hc'⟩ := hheld b ⟨j, hj, diff_bridge_owned h he hj⟩ hm
      obtain rfl := config.bridge.entry_unique he he'
      exact hc hc'
    · exact hc (mem_claimed.mpr hclaim)

end

end Planner

namespace PortConfig

/-! ## 2. What the config of some ports claims

The segment of a bridge is overwritten by each trunked port of it, so the last one holds it. -/

/-- The segment of a trunked port names its uplink: the trunk, or a vlan of it. -/
def uplinkOf (port : PortDetails) (trunk : String) : String :=
  match if port.networkType = some "vlan" then port.segmentationId else none with
  | some vid => trunk ++ "." ++ toString vid
  | none => trunk

/-- The vlan of a trunk has a longer name than an interface can have. -/
def LongUplink (port : PortDetails) (pn trunk : String) : Prop :=
  (segmentOf port pn).vlan.isSome = true ∧ IFNAME_MAX < (uplinkOf port trunk).length

/-- A trunked port's segment has one uplink, which the planner refuses to name when the name is
too long for a vlan. -/
theorem uplinkNames_cases {config : Config} {b pn trunk : String} {br : Bridge}
    {port : PortDetails} (hseg : br.segment = some (segmentOf port pn))
    (hp : config.physnet.get? pn = some { trunk }) :
    (¬ LongUplink port pn trunk ∧ Planner.uplinkNames b br config = .ok [uplinkOf port trunk]) ∨
      LongUplink port pn trunk ∧
        ∃ msg, Planner.uplinkNames b br config = .error (.planError msg) := by
  have htrunk : Planner.trunkOf config (segmentOf port pn) = .ok trunk := by
    show (config.physnet.getItem pn (PlanExc.keyError (some pn)) >>= fun physnet =>
      pure physnet.trunk) = Except.ok trunk
    rw [Dict.getItem_eq_ok.mpr hp]
    rfl
  have hname : uplinkOf port trunk = match (segmentOf port pn).vlan with
    | some vid => trunk ++ "." ++ toString vid
    | none => trunk := rfl
  have hvx : (segmentOf port pn).vxlan = none := rfl
  unfold LongUplink Planner.uplinkNames
  rw [hname, hseg]
  simp only [hvx, htrunk, Except.ok_bind]
  cases (segmentOf port pn).vlan with
  | none => exact Or.inl ⟨by simp, rfl⟩
  | some vid =>
    simp only [Option.isSome_some, true_and]
    by_cases hlong : IFNAME_MAX < (trunk ++ "." ++ toString vid).length
    · rw [if_pos hlong]
      exact Or.inr ⟨hlong, _, rfl⟩
    · rw [if_neg hlong]
      exact Or.inl ⟨hlong, rfl⟩

/-- The one uplink of a trunked port's segment, where the planner can name it. -/
theorem uplinkNames_segmentOf {config : Config} {b pn trunk : String} {br : Bridge}
    {port : PortDetails} {names : List String} (hseg : br.segment = some (segmentOf port pn))
    (hp : config.physnet.get? pn = some { trunk })
    (h : Planner.uplinkNames b br config = .ok names) : names = [uplinkOf port trunk] := by
  rcases @uplinkNames_cases config b _ _ _ _ hseg hp with ⟨-, hok⟩ | ⟨-, msg, herr⟩
  · exact Except.ok.inj (h.symm.trans hok)
  · exact absurd (h.symm.trans herr) (by simp)

section

variable [Hashlib]

/-- The port whose segment a bridge takes, and its trunk: the last trunked one of the bridge. -/
def segmentHolder (ports : List PortDetails) (mappings : Dict String String) (b : String) :
    Option (PortDetails × String × String) :=
  ports.reverse.findSome? fun port =>
    if bridgeOf port = b then (trunkFor port mappings).map (Prod.mk port) else none

/-- The ports render a name on a bridge: as a port's interface, or as the bridge's uplink. -/
def Renders (ports : List PortDetails) (mappings : Dict String String) (b n : String) : Prop :=
  (∃ port ∈ ports, bridgeOf port = b ∧ ifName port = n) ∨
    ∃ port pn trunk, segmentHolder ports mappings b = some (port, pn, trunk) ∧
      uplinkOf port trunk = n

variable {ports : List PortDetails} {sgInfo : SgInfo} {mappings : Dict String String}

theorem segmentHolder_mem {b pn trunk : String} {port : PortDetails}
    (h : segmentHolder ports mappings b = some (port, pn, trunk)) :
    port ∈ ports ∧ bridgeOf port = b ∧ trunkFor port mappings = some (pn, trunk) := by
  obtain ⟨port', hp, hsome⟩ := List.exists_of_findSome?_eq_some h
  split at hsome
  · rename_i hb
    obtain ⟨pt, hpt, heq⟩ := Option.map_eq_some_iff.mp hsome
    obtain ⟨rfl, rfl⟩ := Prod.mk.inj heq
    exact ⟨List.mem_reverse.mp hp, hb, hpt⟩
  · exact absurd hsome (by simp)

/-- A bridge's segment is that of its holder. -/
theorem stanza_segment {b : String} {st : Stanza}
    (h : (stanzas ports sgInfo mappings).bridges.get? b = some st) :
    st.segment = (segmentHolder ports mappings b).map fun s => segmentTree s.1 s.2.1 := by
  induction ports using List.reverseRecOn generalizing b st with
  | nil => exact absurd h (by simp [stanzas])
  | append_singleton ports last ih =>
    rw [stanzas_snoc] at h
    unfold addPort at h
    simp only [Dict.get?_insert] at h
    unfold segmentHolder
    rw [List.reverse_append, List.reverse_singleton, List.singleton_append, List.findSome?_cons]
    by_cases hb : b = bridgeOf last
    · subst hb
      rw [if_pos rfl] at h
      obtain rfl := Option.some.inj h
      rw [if_pos rfl]
      cases ht : trunkFor last mappings with
      | some pt => rfl
      | none =>
        show (((stanzas ports sgInfo mappings).bridges.get? (bridgeOf last)).getD {}).segment = _
        cases hprev : (stanzas ports sgInfo mappings).bridges.get? (bridgeOf last) with
        | some prev => exact ih hprev
        | none =>
          -- no port of the bridge came before
          have hnone : segmentHolder ports mappings (bridgeOf last) = none := by
            refine List.findSome?_eq_none_iff.mpr fun port hp => if_neg fun hb => ?_
            obtain ⟨st, hst, -⟩ := @member_of_port _ ports sgInfo mappings port
              (List.mem_reverse.mp hp)
            rw [hb, hprev] at hst
            exact absurd hst (by simp)
          show none = (segmentHolder ports mappings (bridgeOf last)).map _
          rw [hnone]
          rfl
    · rw [if_neg hb] at h
      rw [if_neg (Ne.symm hb)]
      exact ih h

/-- The bridges of the config are those of the ports. -/
theorem Sections.bridge_cases {config : Config}
    (h : Sections (stanzas ports sgInfo mappings) sgInfo config) {b : String} {br : Bridge}
    (hbr : config.bridge.get? b = some br) :
    (∀ n, n ∈ br.member ↔ ∃ port ∈ ports, bridgeOf port = b ∧ ifName port = n) ∧
      br.segment = (segmentHolder ports mappings b).map fun s => segmentOf s.1 s.2.1 := by
  constructor
  · intro n
    constructor
    · intro hn
      obtain ⟨m, hm⟩ := Dict.mem_iff_get?.mp hn
      obtain ⟨port, hp, hb, hi, -⟩ := (h.get?_bridge hbr).1 n m hm
      exact ⟨port, hp, hb, hi⟩
    · intro ⟨port, hp, hb, hi⟩
      obtain ⟨br', hbr', hmem⟩ := h.member_of_port hp
      rw [hb] at hbr'
      obtain rfl := Option.some.inj (hbr.symm.trans hbr')
      exact hi ▸ hmem
  · obtain ⟨st, hst, hread⟩ := (get?_of_readAs h.bridge).mp hbr
    obtain ⟨-, member, segment, -, hseg, rfl⟩ := fromTree_stanzaTree.mp hread
    have hholder := stanza_segment hst
    cases hs : segmentHolder ports mappings b with
    | none =>
      rw [hs] at hholder
      rw [hholder] at hseg
      exact hseg
    | some s =>
      rw [hs] at hholder
      rw [hholder] at hseg
      obtain ⟨seg, hsg, hres⟩ := Except.bind_eq_ok.mp hseg
      obtain rfl := Except.pure_eq_ok.mp hres
      rw [(fromTree_segmentTree.mp hsg).2.2]
      rfl

/-- The physnet of a trunked port is its trunk. -/
theorem Sections.get?_physnet {config : Config}
    (h : Sections (stanzas ports sgInfo mappings) sgInfo config) {port : PortDetails}
    (hp : port ∈ ports) {pn trunk : String} (ht : trunkFor port mappings = some (pn, trunk)) :
    config.physnet.get? pn = some { trunk } := by
  obtain ⟨t, hget⟩ := Dict.mem_iff_get?.mp (@physnet_mem _ ports sgInfo mappings _ _ _ hp ht)
  obtain ⟨other, -, hother⟩ := mem_physnets (Dict.get?_eq_some.mp hget)
  have hsame : t = trunk :=
    Option.some.inj ((trunkFor_eq hother).2.symm.trans (trunkFor_eq ht).2)
  subst hsame
  obtain ⟨p, hp⟩ := Dict.mem_iff_get?.mp ((mem_of_readAs h.physnet).mpr (Dict.mem_of_get? hget))
  obtain ⟨t', ht', hread⟩ := (get?_of_readAs h.physnet).mp hp
  obtain rfl := Option.some.inj (hget.symm.trans ht')
  rw [hp, (fromTree_physnet.mp hread).2]

/-- **What a config claims**, in terms of the ports it was built from. -/
theorem Sections.claims {config : Config}
    (h : Sections (stanzas ports sgInfo mappings) sgInfo config) {b n : String}
    (hups : ∀ br, (b, br) ∈ config.bridge.entries →
      ∃ names, Planner.uplinkNames b br config = .ok names) :
    (∃ br, (b, br) ∈ config.bridge.entries ∧ n ∈ Planner.claimsOf config b br) ↔
      Renders ports mappings b n := by
  have hentry : ∀ br, (b, br) ∈ config.bridge.entries →
      (n ∈ Planner.claimsOf config b br ↔ Renders ports mappings b n) := by
    intro br he
    obtain ⟨hmem, hseg⟩ := h.bridge_cases (Dict.get?_eq_some.mpr he)
    obtain ⟨names, hnames⟩ := hups br he
    -- the uplink is that of the last port that has a segment; `segmentHolder` finds it
    have hup : n ∈ Planner.uplinksOf config b br ↔ ∃ port pn trunk,
        segmentHolder ports mappings b = some (port, pn, trunk) ∧ uplinkOf port trunk = n := by
      rw [Planner.uplinksOf_ok hnames]
      cases hs : segmentHolder ports mappings b with
      | none =>
        rw [hs] at hseg
        unfold Planner.uplinkNames at hnames
        rw [hseg] at hnames
        obtain rfl := Except.ok.inj hnames
        simp
      | some s =>
        obtain ⟨port, pn, trunk⟩ := s
        obtain ⟨hp, -, ht⟩ := segmentHolder_mem hs
        rw [hs] at hseg
        rw [uplinkNames_segmentOf hseg (h.get?_physnet hp ht) hnames, List.mem_singleton]
        constructor
        · intro hn
          exact ⟨port, pn, trunk, rfl, hn.symm⟩
        · rintro ⟨port', pn', trunk', heq, hn⟩
          obtain ⟨rfl, rfl, rfl⟩ : port = port' ∧ pn = pn' ∧ trunk = trunk' := by simpa using heq
          exact hn.symm
    rw [Planner.claimsOf, List.mem_append, hup]
    unfold Renders
    rw [or_comm]
    exact or_congr_left (hmem n)
  constructor
  · rintro ⟨br, he, hn⟩
    exact (hentry br he).mp hn
  · intro hr
    have hin : ∃ br, (b, br) ∈ config.bridge.entries := by
      have hport : ∃ port ∈ ports, bridgeOf port = b := by
        rcases hr with ⟨port, hp, hb, -⟩ | ⟨port, pn, trunk, hs, -⟩
        · exact ⟨port, hp, hb⟩
        · obtain ⟨hp, hb, -⟩ := segmentHolder_mem hs
          exact ⟨port, hp, hb⟩
      obtain ⟨port, hp, rfl⟩ := hport
      obtain ⟨br, hbr, -⟩ := h.member_of_port hp
      exact ⟨br, Dict.get?_eq_some.mp hbr⟩
    obtain ⟨br, he⟩ := hin
    exact ⟨br, he, (hentry br he).mpr hr⟩

end

end PortConfig

/-! ## 3. The pass

The run is followed from the reply to the reconcile. What is kept on the way is that the locals
are those of the reply. -/

/-- The details of a reply. -/
def Reply.details (r : Reply) : List PortDetails :=
  r.devices.filterMap fun e => match e with
    | .bound d => some d
    | .unbound _ => none

theorem receive_details {a : Agent} {r : Reply} : (a.receive r).details = r.details := by
  have hmiss : ∀ (names : List String) (st : Intake),
      (names.foldl Intake.miss st).details = st.details := by
    intro names st
    refine foldl_keeps (fun t : Intake => t.details = st.details) rfl fun d _ t ht => ?_
    rw [← ht, Intake.miss_eq]
    split <;> rfl
  have hentry : ∀ (es : List Entry) (st : Intake), (es.foldl Intake.entry st).details =
      st.details ++ es.filterMap fun e => match e with
        | .bound d => some d
        | .unbound _ => none := by
    intro es
    induction es with
    | nil => intro st; simp
    | cons e rest ih =>
      intro st
      rw [List.foldl_cons, ih]
      cases e with
      | bound d => simp [Intake.entry]
      | unbound device =>
        cases device with
        | none => rfl
        | some d =>
          show (st.miss d).details ++ _ = _
          rw [show (st.miss d).details = st.details from hmiss [d] st]
          rfl
  unfold Agent.receive
  rw [hmiss, hentry]
  rfl

namespace Sync

section

variable [Hashlib] {mappings : Dict String String}

variable (mappings) in
/-- Past its reply, a pass works on these details, and builds its config from them. -/
def BuiltFrom (details : List PortDetails) (s : State) : Prop :=
  match s.pc with
  | .scanning | .fetching _ => False
  | .fetchingGroups w => w.details = details
  | .reconciling w config rendered =>
      ∃ info, PortConfig.build w.details info mappings = .ok (config, rendered) ∧
        w.details = details
  | .reporting _ _ | .done _ | .aborted => True

theorem desire_builtFrom {a : Agent} {w : Work} {info : SgInfo} :
    BuiltFrom mappings w.details (desire mappings a w info) := by
  unfold desire
  cases hb : PortConfig.build w.details info mappings with
  | error e => trivial
  | ok r => exact ⟨info, hb, rfl⟩

theorem resolve_builtFrom {a : Agent} {w : Work} :
    BuiltFrom mappings w.details (resolve mappings a w) := by
  unfold resolve
  split
  · exact desire_builtFrom
  · rfl

theorem step_builtFrom {details : List PortDetails} {s s' : State} {e : Event}
    (h : step mappings s e = some s') (hs : BuiltFrom mappings details s) :
    BuiltFrom mappings details s' := by
  obtain ⟨a, pc⟩ := s
  cases e with
  | callback c =>
    cases pc with
    | done w => exact absurd h (by simp [step])
    | aborted => exact absurd h (by simp [step])
    | _ =>
      obtain rfl := Option.some.inj h
      exact hs
  | raised =>
    cases pc with
    | done w => exact absurd h (by simp [step])
    | aborted => exact absurd h (by simp [step])
    | _ =>
      obtain rfl := Option.some.inj h
      trivial
  | scanned found =>
    cases pc with
    | scanning => exact absurd hs id
    | _ => exact absurd h (by simp [step])
  | details reply =>
    cases pc with
    | fetching devices => exact absurd hs id
    | _ => exact absurd h (by simp [step])
  | groups info =>
    cases pc with
    | fetchingGroups w =>
      obtain rfl := Option.some.inj h
      have hw : w.details = details := hs
      exact hw ▸ desire_builtFrom
    | _ => exact absurd h (by simp [step])
  | reconciled result =>
    cases pc with
    | reconciling w config rendered =>
      obtain rfl := Option.some.inj h
      show BuiltFrom mappings details (settle a w rendered result)
      unfold settle
      dsimp only
      split
      · trivial
      · split <;> trivial
    | _ => exact absurd h (by simp [step])
  | reported =>
    cases pc with
    | reporting w up =>
      obtain rfl := Option.some.inj h
      trivial
    | _ => exact absurd h (by simp [step])

theorem run_builtFrom {details : List PortDetails} {s s' : State} {evs : List Event}
    (h : run mappings s evs = some s') (hs : BuiltFrom mappings details s) :
    BuiltFrom mappings details s' := by
  induction evs generalizing s with
  | nil =>
    obtain rfl := Option.some.inj h
    exact hs
  | cons e rest ih =>
    rw [run_cons, Option.bind_eq_some_iff] at h
    obtain ⟨t, hstep, hrest⟩ := h
    exact ih hrest (step_builtFrom hstep hs)

variable (mappings) in
/-- A pass in which the server failed on a tracked device, up to the plan it made of the kernel
it read. -/
structure FailedPass (a : Agent) (pre post : List Event) (reply : Reply) (device : String)
    (kernel : KernelInterfaces) (pf : Option PfState) (plan : Plan) where
  /-- The agent the reply is read in, and the devices it is for. -/
  agent : Agent
  devices : List String
  asked : run mappings (start a) pre = some ⟨agent, .fetching devices⟩
  tracked : device ∈ agent.candidates
  below : agent.missCount device + 1 < BINDING_MISS_LIMIT
  failed : device ∈ reply.failedDevices
  /-- The end of the run, where the pass reconciles its config. -/
  last : Agent
  work : Work
  config : Config
  rendered : List String
  desired : run mappings ⟨agent, .fetching devices⟩ (.details reply :: post) =
    some ⟨last, .reconciling work config rendered⟩
  planned : Planner.diff config kernel pf = .ok plan

variable {a : Agent} {pre post : List Event} {reply : Reply} {device : String}
  {kernel : KernelInterfaces} {pf : Option PfState} {plan : Plan}

/-- The config of such a pass is built from the resolved details alone. -/
theorem FailedPass.built (h : FailedPass mappings a pre post reply device kernel pf plan) :
    ∃ info, PortConfig.build reply.details info mappings = .ok (h.config, h.rendered) := by
  have hrun := h.desired
  rw [run_cons, Option.bind_eq_some_iff] at hrun
  obtain ⟨t, hstep, hrest⟩ := hrun
  obtain rfl := Option.some.inj hstep
  have hstart : BuiltFrom mappings (h.agent.receive reply).details
      (received mappings h.agent h.devices reply) :=
    @resolve_builtFrom _ mappings (h.agent.receive reply).agent
      ⟨h.devices, (h.agent.receive reply).details, (h.agent.receive reply).pending⟩
  obtain ⟨info, hb, hdetails⟩ := run_builtFrom hrest hstart
  rw [receive_details] at hdetails
  exact ⟨info, hdetails ▸ hb⟩

/-- **A failed device's tap is spared exactly when the resolved ports claim its name**, on some
bridge and on every owned bridge that holds it. -/
theorem failed_spared_iff (h : FailedPass mappings a pre post reply device kernel pf plan)
    (hgroup : kernel.Grouped) {tap : Interface}
    (htap : kernel.interfaces.get? (Names.tapName device) = some tap) (ho : tap.isOwned = true)
    (hb : tap.isBridge = false) :
    Op.destroyIface (Names.tapName device) ∉ plan.ops ↔
      (∃ b, PortConfig.Renders reply.details mappings b (Names.tapName device)) ∧
        ∀ b, kernel.OwnedBridge b → Names.tapName device ∈ kernel.membersOf b →
          PortConfig.Renders reply.details mappings b (Names.tapName device) := by
  obtain ⟨info, hbuild⟩ := h.built
  obtain ⟨hsec, -, -⟩ := PortConfig.build_eq_ok.mp hbuild
  have hclaims : ∀ b, (∃ br, (b, br) ∈ h.config.bridge.entries ∧
      Names.tapName device ∈ Planner.claimsOf h.config b br) ↔
        PortConfig.Renders reply.details mappings b (Names.tapName device) := by
    intro b
    refine hsec.claims fun br he => ?_
    obtain ⟨part, hpart⟩ := Planner.diff_round h.planned he
    obtain ⟨names, _, _, _, hnames, -⟩ := Planner.bridgePart_ok hpart
    exact ⟨names, hnames⟩
  rw [Planner.spared_iff hgroup h.planned htap ho hb]
  simp only [hclaims]

end

/-! ## 4. A server error

One port, one tap, and a reply whose only content is the failure. The config is empty and the
plan takes the tap and its bridge down. -/

/-- The tap of a port, on its bridge. -/
def liveTap : Interface := { name := "tapp0", groups := ["tap", OWNED_GROUP] }

def liveKernel : KernelInterfaces :=
  { interfaces := ⟨[
      ("pbaaa", { name := "pbaaa", groups := ["bridge", OWNED_GROUP], members := ["tapp0"] }),
      ("tapp0", liveTap)], by decide⟩
    owned := ["pbaaa", "tapp0"] }

/-- The server fails on the one port of the host. -/
def errorReply : Reply := { failedDevices := ["p0"] }

/-- The pass that reads that reply desires nothing, and takes the port's tap down. -/
def downPlan : Plan :=
  { removes := [.removeMember "pbaaa" "tapp0"]
    destroys := [.destroyIface "tapp0", .destroyBridge "pbaaa"] }

/-- The agent waits for the reply, and then for the reconcile of an empty config. -/
def downPass : @FailedPass ⟨id⟩ ∅ { candidates := {"p0"} } [.scanned ∅] [] errorReply "p0"
    liveKernel none downPlan :=
  @FailedPass.mk ⟨id⟩ ∅ _ _ _ _ _ _ _ _ { candidates := {"p0"}, dirty := false } ["p0"] rfl
    (by decide) (by decide) (by decide)
    { candidates := {"p0"}, misses := ⟨[("p0", 1)], List.nodup_singleton _⟩, dirty := false }
    ⟨["p0"], [], {"p0"}⟩ {} [] rfl rfl

theorem grouped_live : liveKernel.Grouped := by
  intro n
  constructor
  · intro hn
    simp only [liveKernel, List.mem_cons, List.not_mem_nil, or_false] at hn
    rcases hn with rfl | rfl <;> rfl
  · intro hn
    obtain ⟨i, hi, -⟩ := KernelInterfaces.ownedName_iff.mp hn
    have hkey : n ∈ liveKernel.interfaces.keys := Dict.mem_of_get? hi
    exact hkey

/-- A server error can take a live port down. -/
theorem failed_destroyed : ¬ ∀ (inst : Hashlib) (mappings : Dict String String) (a : Agent)
    (pre post : List Event) (reply : Reply) (device : String) (kernel : KernelInterfaces)
    (pf : Option PfState) (plan : Plan) (tap : Interface),
    Nonempty (@FailedPass inst mappings a pre post reply device kernel pf plan) →
    kernel.Grouped → kernel.interfaces.get? (Names.tapName device) = some tap →
    tap.isOwned = true → tap.isBridge = false →
    Op.destroyIface (Names.tapName device) ∉ plan.ops := by
  intro h
  have hkept := h ⟨id⟩ ∅ { candidates := {"p0"} } [.scanned ∅] [] errorReply "p0" liveKernel none
    downPlan liveTap ⟨downPass⟩ grouped_live rfl (by decide) (by decide)
  exact hkept (by decide)

theorem failed_spared_iff_down :
    Op.destroyIface (Names.tapName "p0") ∉ downPlan.ops ↔
      (∃ b, @PortConfig.Renders ⟨id⟩ errorReply.details ∅ b (Names.tapName "p0")) ∧
        ∀ b, liveKernel.OwnedBridge b → Names.tapName "p0" ∈ liveKernel.membersOf b →
          @PortConfig.Renders ⟨id⟩ errorReply.details ∅ b (Names.tapName "p0") :=
  @failed_spared_iff ⟨id⟩ _ _ _ _ _ _ _ _ _ downPass grouped_live liveTap rfl (by decide)
    (by decide)

end Sync

end Bsdbridge
