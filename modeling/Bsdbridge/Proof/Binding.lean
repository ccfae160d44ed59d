import Bsdbridge.Mech
import Bsdbridge.Proof.Order
import Bsdbridge.Proof.Spared

/-!
# The driver and the agent agree

The mechanism driver runs in the server, the builder on the host, and nothing passes between them
but the segment of a port and the mappings the agent has reported. **`bound_as_told`**: a port the
driver bound is built into the bridge its VIF details name, and that bridge is given the segment's
uplink, so no port the driver accepts is rendered without one. The other side of the computed name
is **`Hosted.bridgeOf_iff`**: of the ports the driver bound, two are given one bridge exactly when
their segments are one.

Both names are digests cut short. What is asked of the digest is that the keys of these ports do
not collide, and of nothing else. The keys themselves are injective, which is proved from their
spelling: a key is a network type, a slash, and parts that a slash separates, and a physical
network may have slashes in its name.

A vlan whose derived interface name would be too long is bound by the driver all the same, and the
planner refuses it. `bound_as_told` says so in its last clause instead of assuming it away: either
the uplink is the one told, or the name is too long and deriving it raises.
-/

set_option autoImplicit false

namespace Bsdbridge

namespace PortConfig

open Mech

/-! ## 1. Bound ports -/

/-- The server describes a port by the segment it is bound to. -/
structure BoundTo (port : PortDetails) (segment : Mech.Segment) : Prop where
  networkType : port.networkType = some segment.networkType
  physicalNetwork : port.physicalNetwork = segment.physicalNetwork
  segmentationId : port.segmentationId = segment.segmentationId

/-- The driver has bound a port for an agent. -/
def Bound (agent : AgentReport) (port : PortDetails) : Prop :=
  ∃ segment, BoundTo port segment ∧ checkSegmentForAgent segment agent = true

/-- Which segment a port is on, as far as its network type tells. A local network is a segment of
its own. -/
def Shared (p q : PortDetails) : Prop :=
  p.networkType = q.networkType ∧
    (p.networkType = some "vlan" →
      p.physicalNetwork = q.physicalNetwork ∧ p.segmentationId = q.segmentationId) ∧
    (p.networkType = some "flat" → p.physicalNetwork = q.physicalNetwork) ∧
    (p.networkType = some "local" → p.networkId = q.networkId)

theorem Bound.cases {agent : AgentReport} {port : PortDetails} (h : Bound agent port) :
    port.networkType = some "local" ∨
      (port.networkType = some "vlan" ∨ port.networkType = some "flat") ∧
        ∃ pn trunk, port.physicalNetwork = some pn ∧ (getMappings agent).get? pn = some trunk := by
  obtain ⟨segment, hb, hok⟩ := h
  unfold checkSegmentForAgent at hok
  split at hok
  · exact absurd hok (by decide)
  rename_i hsup
  rw [not_not] at hsup
  split at hok
  · rename_i hlocal
    exact Or.inl (by rw [hb.networkType, hlocal])
  rename_i hlocal
  refine Or.inr ⟨?_, ?_⟩
  · rw [hb.networkType]
    simp only [getAllowedNetworkTypes, SUPPORTED_NETWORK_TYPES, List.mem_cons, List.not_mem_nil,
      or_false] at hsup
    rcases hsup with h | h | h
    · exact absurd h hlocal
    · exact Or.inr (congrArg some h)
    · exact Or.inl (congrArg some h)
  · rw [hb.physicalNetwork]
    cases hp : segment.physicalNetwork with
    | none =>
      rw [hp] at hok
      exact absurd hok (by simp)
    | some pn =>
      rw [hp, Option.any_some, decide_eq_true_eq] at hok
      obtain ⟨trunk, ht⟩ := Dict.mem_iff_get?.mp hok
      exact ⟨pn, trunk, rfl, ht⟩

/-- A bound port that is on no local network has a trunk. -/
theorem Bound.trunk {agent : AgentReport} {port : PortDetails} (h : Bound agent port)
    (hlocal : port.networkType ≠ some "local") :
    ∃ pn trunk, trunkFor port (getMappings agent) = some (pn, trunk) := by
  obtain ⟨htype, pn, trunk, hpn, htrunk⟩ := h.cases.resolve_left hlocal
  refine ⟨pn, trunk, ?_⟩
  unfold trunkFor
  rw [if_pos htype, hpn, Option.bind_some, htrunk]
  rfl

/-! ## 2. The key of a segment -/

/-- The network of a local port, as the key has it. -/
theorem segmentKey_local {port : PortDetails} (h : port.networkType = some "local")
    (hseg : port.segmentationId = none) :
    (segmentKey port).toList = "local/".toList ++ port.networkId.toList := by
  unfold segmentKey Names.bridgeKey
  rw [if_neg (by simp [h]), if_neg (by simp [h]), hseg, h]
  show ("local" ++ "/" ++ port.networkId).toList = _
  simp

/-- The first letter of a key tells the network type. -/
theorem segmentKey_head {agent : AgentReport} {port : PortDetails} (h : Bound agent port)
    (hseg : port.networkType = some "local" → port.segmentationId = none) :
    (port.networkType = some "local" ∧ (segmentKey port).toList.head? = some 'l') ∨
      (port.networkType = some "vlan" ∧ (segmentKey port).toList.head? = some 'v') ∨
      (port.networkType = some "flat" ∧ (segmentKey port).toList.head? = some 'f') := by
  rcases h.cases with hl | ⟨hv | hf, -⟩
  · exact Or.inl ⟨hl, by rw [segmentKey_local hl (hseg hl)]; rfl⟩
  · exact Or.inr (Or.inl ⟨hv, by rw [segmentKey_vlan hv]; rfl⟩)
  · exact Or.inr (Or.inr ⟨hf, by rw [segmentKey_flat hf]; rfl⟩)

/-- **The key of a segment tells it from every other.** -/
theorem segmentKey_iff {agent : AgentReport} {p q : PortDetails} (hp : Bound agent p)
    (hq : Bound agent q) (hps : p.networkType = some "local" → p.segmentationId = none)
    (hqs : q.networkType = some "local" → q.segmentationId = none) :
    segmentKey p = segmentKey q ↔ Shared p q := by
  have hphys : ∀ {port}, Bound agent port → port.networkType ≠ some "local" →
      ∃ pn, port.physicalNetwork = some pn := by
    intro port h hl
    obtain ⟨-, pn, -, hpn, -⟩ := h.cases.resolve_left hl
    exact ⟨pn, hpn⟩
  constructor
  · intro hkey
    have hlist : (segmentKey p).toList = (segmentKey q).toList := congrArg String.toList hkey
    -- the first letter tells the kind; equal keys are of one kind
    have hheads : (segmentKey p).toList.head? = (segmentKey q).toList.head? :=
      congrArg List.head? hlist
    rcases segmentKey_head hp hps with ⟨hpt, hph⟩ | ⟨hpt, hph⟩ | ⟨hpt, hph⟩ <;>
      rcases segmentKey_head hq hqs with ⟨hqt, hqh⟩ | ⟨hqt, hqh⟩ | ⟨hqt, hqh⟩ <;>
      rw [hph, hqh] at hheads <;>
      first
        | exact absurd (Option.some.inj hheads) (by decide)
        | refine ⟨hpt.trans hqt.symm, fun h => ?_, fun h => ?_, fun h => ?_⟩
    -- local
    · exact absurd (hpt.symm.trans h) (by decide)
    · exact absurd (hpt.symm.trans h) (by decide)
    · rw [segmentKey_local hpt (hps hpt), segmentKey_local hqt (hqs hqt)] at hlist
      exact String.toList_injective (List.append_cancel_left hlist)
    -- vlan
    · obtain ⟨pn, hpn⟩ := hphys hp (by rw [hpt]; decide)
      obtain ⟨qn, hqn⟩ := hphys hq (by rw [hqt]; decide)
      rw [segmentKey_vlan hpt, segmentKey_vlan hqt] at hlist
      obtain ⟨hname, hid⟩ := split_unique (slash_notMem_spell _) (slash_notMem_spell _)
        (List.append_cancel_left hlist)
      refine ⟨?_, spell_injective (String.toList_injective hid)⟩
      rw [hpn, hqn] at hname ⊢
      exact congrArg some (String.toList_injective hname)
    · exact absurd (hpt.symm.trans h) (by decide)
    · exact absurd (hpt.symm.trans h) (by decide)
    -- flat
    · exact absurd (hpt.symm.trans h) (by decide)
    · obtain ⟨pn, hpn⟩ := hphys hp (by rw [hpt]; decide)
      obtain ⟨qn, hqn⟩ := hphys hq (by rw [hqt]; decide)
      rw [segmentKey_flat hpt, segmentKey_flat hqt, hpn, hqn] at hlist
      rw [hpn, hqn]
      exact congrArg some (String.toList_injective (List.append_cancel_left hlist))
    · exact absurd (hpt.symm.trans h) (by decide)
  · rintro ⟨htype, hvlan, hflat, hloc⟩
    refine String.toList_injective ?_
    rcases hp.cases with hl | ⟨hv | hf, -⟩
    · have hl' := htype.symm.trans hl
      rw [segmentKey_local hl (hps hl), segmentKey_local hl' (hqs hl'), hloc hl]
    · rw [segmentKey_vlan hv, segmentKey_vlan (htype.symm.trans hv), (hvlan hv).1, (hvlan hv).2]
    · rw [segmentKey_flat hf, segmentKey_flat (htype.symm.trans hf), hflat hf]

/-- Ports on one segment have one key. -/
theorem segmentKey_bridge [Hashlib] {p q : PortDetails} (h : segmentKey p = segmentKey q) :
    bridgeOf p = bridgeOf q := by
  unfold bridgeOf Names.bridgeName
  unfold segmentKey at h
  rw [h]

section

variable [Hashlib] {ports : List PortDetails} {sgInfo : SgInfo} {agent : AgentReport}
  {config : Config} {devices : List String} {port : PortDetails}

/-- The keys of some ports do not collide under the digest. -/
def Collisionless (ports : List PortDetails) : Prop :=
  ∀ p ∈ ports, ∀ q ∈ ports, bridgeOf p = bridgeOf q → segmentKey p = segmentKey q

/-! ## 3. The bridge the VIF details name -/

theorem BoundTo.bridgeName {segment : Mech.Segment} (h : BoundTo port segment) :
    (getVifDetails port.networkId segment).bridgeName = bridgeOf port := by
  unfold bridgeOf
  rw [h.networkType, h.physicalNetwork, h.segmentationId]
  rfl

omit [Hashlib] in
/-- No port of a local network shares its key with a port that has a trunk. -/
theorem trunkless_of_local {other : PortDetails} {mappings : Dict String String}
    {pt : String × String} (hlocal : port.networkType = some "local")
    (ht : trunkFor other mappings = some pt) : segmentKey other ≠ segmentKey port := by
  have hword : ∀ rest : String, ("local" ++ "/" ++ rest).toList.head? = some 'l' := by
    intro rest
    rw [String.toList_append, String.toList_append]
    rfl
  have hhead : (segmentKey port).toList.head? = some 'l' := by
    unfold segmentKey Names.bridgeKey
    rw [if_neg (by simp [hlocal]), if_neg (by simp [hlocal]), hlocal]
    split <;> exact hword _
  intro hkey
  have hlist := congrArg String.toList hkey
  rcases network_of_trunk ht with hv | hf
  · rw [segmentKey_vlan hv] at hlist
    rw [← hlist] at hhead
    exact absurd (show some 'v' = some 'l' from hhead) (by decide)
  · rw [segmentKey_flat hf] at hlist
    rw [← hlist] at hhead
    exact absurd (show some 'f' = some 'l' from hhead) (by decide)

/-- A bridge one of whose ports has a trunk has a holder of its segment. -/
theorem segmentHolder_of_trunk {mappings : Dict String String} {pt : String × String}
    (hp : port ∈ ports) (ht : trunkFor port mappings = some pt) :
    ∃ s, segmentHolder ports mappings (bridgeOf port) = some s := by
  refine Option.isSome_iff_exists.mp (List.findSome?_isSome_iff.mpr ⟨port, ?_, ?_⟩)
  · exact List.mem_reverse.mpr hp
  · rw [if_pos rfl, ht]
    rfl

omit [Hashlib] in
/-- The segment a tree is read into is told by the tree. -/
theorem segmentOf_of_tree {p q : PortDetails} {pn qn : String}
    (h : segmentTree p pn = segmentTree q qn) : segmentOf p pn = segmentOf q qn := by
  unfold segmentTree at h
  unfold segmentOf
  by_cases hp : p.networkType = some "vlan" <;> by_cases hq : q.networkType = some "vlan"
  · simp only [hp, hq, if_true, List.cons_append, List.nil_append, Tree.dict.injEq,
      List.cons.injEq, Prod.mk.injEq, Tree.str.injEq, true_and, and_true] at h ⊢
    obtain ⟨rfl, hid⟩ := h
    cases hps : p.segmentationId <;> cases hqs : q.segmentationId <;> simp_all
  · simp [hp, hq] at h
  · simp [hp, hq] at h
  · simp only [hp, hq, if_false, List.append_nil, Tree.dict.injEq, List.cons.injEq,
      Prod.mk.injEq, Tree.str.injEq, true_and, and_true] at h ⊢
    rw [h]

/-- **A port the driver bound is built as the driver told**: its interface is a member of the
bridge of the VIF details, and the bridge has the uplink of the segment, none for a local one. A
vlan whose name would be too long for an interface has no uplink the planner could name, and a
pass over this config raises. -/
theorem bound_as_told {segment : Mech.Segment}
    (hb : build ports sgInfo (getMappings agent) = .ok (config, devices)) (hp : port ∈ ports)
    (hbound : BoundTo port segment) (hok : checkSegmentForAgent segment agent = true)
    (hkeys : Collisionless ports) :
    ∃ br, config.bridge.get? (getVifDetails port.networkId segment).bridgeName = some br ∧
      ifName port ∈ br.member ∧
      (segment.networkType = "local" → br.segment = none) ∧
      (segment.networkType ≠ "local" → ∃ pn trunk, segment.physicalNetwork = some pn ∧
        (getMappings agent).get? pn = some trunk ∧ br.segment = some (segmentOf port pn) ∧
        (¬ LongUplink port pn trunk ∧
            Planner.uplinkNames (bridgeOf port) br config = .ok [uplinkOf port trunk] ∨
          LongUplink port pn trunk ∧
            ∃ msg, Planner.uplinkNames (bridgeOf port) br config = .error (.planError msg))) := by
  obtain ⟨hsections, -, -⟩ := build_eq_ok.mp hb
  obtain ⟨br, hbr, hmem⟩ := hsections.member_of_port hp
  obtain ⟨-, hseg⟩ := hsections.bridge_cases hbr
  refine ⟨br, by rw [hbound.bridgeName]; exact hbr, hmem, fun hlocal => ?_, fun hlocal => ?_⟩
  · rw [hseg, Option.map_eq_none_iff]
    cases hs : segmentHolder ports (getMappings agent) (bridgeOf port) with
    | none => rfl
    | some s =>
      obtain ⟨other, pn, trunk⟩ := s
      obtain ⟨ho, hob, ht⟩ := segmentHolder_mem hs
      exact absurd (hkeys other ho port hp hob)
        (trunkless_of_local (by rw [hbound.networkType, hlocal]) ht)
  · have hne : port.networkType ≠ some "local" := by
      rw [hbound.networkType]
      exact fun h => hlocal (Option.some.inj h)
    obtain ⟨pn, trunk, htrunk⟩ := Bound.trunk ⟨segment, hbound, hok⟩ hne
    obtain ⟨hpn, hmap⟩ := trunkFor_eq htrunk
    refine ⟨pn, trunk, by rw [← hbound.physicalNetwork, hpn], hmap, ?_⟩
    -- the segment is that of the last port of the bridge, which is on the same segment
    obtain ⟨s, hs⟩ := segmentHolder_of_trunk hp htrunk
    obtain ⟨other, pn', trunk'⟩ := s
    obtain ⟨ho, hob, ht⟩ := segmentHolder_mem hs
    have htree := segmentTree_eq (hkeys other ho port hp hob) ht htrunk
    rw [hs] at hseg
    have hone : segmentOf other pn' = segmentOf port pn := segmentOf_of_tree htree
    have hsegment : br.segment = some (segmentOf port pn) := by rw [hseg, Option.map_some, hone]
    exact ⟨hsegment, uplinkNames_cases hsegment (hsections.get?_physnet hp htrunk)⟩

/-- A port on vlan 100 of a network whose trunk is em0. -/
def trunkPort : PortDetails :=
  { portId := "p0", networkId := "n0", networkType := some "vlan",
    physicalNetwork := some "physnet1", segmentationId := some 100,
    portSecurityEnabled := some false }

def trunkSegment : Mech.Segment :=
  { networkType := "vlan", physicalNetwork := some "physnet1", segmentationId := some 100 }

def trunkAgent : AgentReport :=
  { physicalInterfaceMappings := some ⟨[("physnet1", "em0")], List.nodup_singleton "physnet1"⟩ }

def trunkMember : Member := { type := some .tap, description := DESCRIPTION_PREFIX ++ "p0" }

def trunkBridge : Bridge :=
  { segment := some { physnet := some "physnet1", vlan := some 100 }
    member := ⟨[("tapp0", trunkMember)], List.nodup_singleton "tapp0"⟩ }

def trunkConfig : Config :=
  { physnet := ⟨[("physnet1", { trunk := "em0" })], List.nodup_singleton "physnet1"⟩
    bridge := ⟨[("pbvlan/physnet", trunkBridge)], List.nodup_singleton "pbvlan/physnet"⟩ }

omit [Hashlib] in
theorem bound_as_told_trunk : ∃ br,
    trunkConfig.bridge.get? (@getVifDetails ⟨id⟩ "n0" trunkSegment).bridgeName = some br ∧
      ifName trunkPort ∈ br.member ∧
      (trunkSegment.networkType = "local" → br.segment = none) ∧
      (trunkSegment.networkType ≠ "local" → ∃ pn trunk, trunkSegment.physicalNetwork = some pn ∧
        (getMappings trunkAgent).get? pn = some trunk ∧
        br.segment = some (segmentOf trunkPort pn) ∧
        (¬ LongUplink trunkPort pn trunk ∧
            Planner.uplinkNames (@bridgeOf ⟨id⟩ trunkPort) br trunkConfig =
              .ok [uplinkOf trunkPort trunk] ∨
          LongUplink trunkPort pn trunk ∧ ∃ msg,
            Planner.uplinkNames (@bridgeOf ⟨id⟩ trunkPort) br trunkConfig =
              .error (.planError msg))) := by
  refine @bound_as_told ⟨id⟩ [trunkPort] {} trunkAgent trunkConfig ["p0"] trunkPort trunkSegment
    rfl (List.mem_singleton_self _) ⟨rfl, rfl, rfl⟩ (by decide) ?_
  intro p hp q hq _
  rw [List.mem_singleton.mp hp, List.mem_singleton.mp hq]

/-! ## 4. Whose bridge is whose -/

/-- What is asked of the ports of a host: the driver has bound each of them, a local network has
no segmentation id, no two keys collide and no two ports share an interface name. -/
structure Hosted (agent : AgentReport) (ports : List PortDetails) : Prop where
  bound : ∀ port ∈ ports, Bound agent port
  unnumbered : ∀ port ∈ ports, port.networkType = some "local" → port.segmentationId = none
  collisionless : Collisionless ports
  named : ∀ p ∈ ports, ∀ q ∈ ports, ifName p = ifName q → p = q

theorem Hosted.bridgeOf_iff (h : Hosted agent ports) {p q : PortDetails} (hp : p ∈ ports)
    (hq : q ∈ ports) : bridgeOf p = bridgeOf q ↔ Shared p q := by
  rw [← segmentKey_iff (h.bound p hp) (h.bound q hq) (h.unnumbered p hp) (h.unnumbered q hq)]
  exact ⟨h.collisionless p hp q hq, segmentKey_bridge⟩

end

end PortConfig

end Bsdbridge
