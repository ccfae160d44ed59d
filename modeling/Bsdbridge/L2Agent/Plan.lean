import Bsdbridge.Ifconfig
import Bsdbridge.L2Agent.Pf

/-!
# `l2_agent/plan.py` — the planner

`diff` compares a desired `Config` with the kernel and the anchors and returns the ops of one pass.
The bridge loop of the source only appends, so it is the concatenation of one `BridgePart` per
bridge, and a bridge's part is in turn the concatenation of one `MemberPart` per member; the first
exception of the loop is the first exception of the walk. The teardown at the end is stateful
(`queued` decides whether an interface is destroyed again) and stays a fold.

The source keeps `current` and `desired_ifaces` in sets. Nothing but the order of the ops inside
one phase depends on how a set is walked; the model walks a bridge's members in kernel order.

An `Op` carries what its command needs, as the dataclasses of the source do, and the plan keeps the
phases apart in which the source collects them. Notes are texts, as the agent looks for some of
them again. An exception is a `PlanExc`: a planner error with its message, or the failed lookup
that Python would raise, which is kept apart so that it can be shown not to happen.

What is read of the kernel and of the anchors is an argument here. The planner runs no command and
has no state.
-/

set_option autoImplicit false

namespace Bsdbridge

/-- Every typed op. -/
inductive Op
  /-- Create a bridge with the ownership group and a maxaddr limit. -/
  | createBridge (name : String) (maxaddr : Int)
  /-- Create a vlan(4) child of a trunk interface. -/
  | createVlan (name parent : String) (vid : Int)
  /-- Create one point-to-point vxlan interface toward a peer. -/
  | createVxlan (name : String) (vni : Int) (local_ peer : String)
  /-- Create a tap interface with the ownership group. -/
  | createTap (name description : String)
  /-- Load a member's rendered ruleset into its per-port anchor. -/
  | loadAnchor (ifname filter : String) (ruleset : Pf.Ruleset) (cfgHash : String)
  /-- Atomically replace one table's members in a member's anchor. -/
  | replaceTable (ifname table : String) (members : List String)
  /-- Flush all content from a member's anchor. -/
  | flushAnchor (ifname : String)
  /-- Lock a member to one MAC on the bridge. -/
  | lockMemberMac (bridge member mac : String)
  /-- Add an interface to a bridge. -/
  | addMember (bridge member : String)
  /-- Remove an interface from a bridge. -/
  | removeMember (bridge member : String)
  /-- Destroy an owned non-bridge interface. -/
  | destroyIface (name : String)
  /-- Destroy an owned bridge. -/
  | destroyBridge (name : String)
  /-- Set a bridge's address-table limit. -/
  | setMaxaddr (bridge : String) (maxaddr : Int)
  deriving DecidableEq

/-- Ordered ops plus notes for what could not become ops. -/
structure Plan where
  creates : List Op := []
  removes : List Op := []
  adds : List Op := []
  destroys : List Op := []
  notes : List String := []
  deriving DecidableEq

/-- All ops in execution order. -/
def Plan.ops (p : Plan) : List Op := p.creates ++ p.removes ++ p.adds ++ p.destroys

namespace Planner

/-! ## Uplinks -/

/-- `VXLAN_UPLINK`. -/
def vxlanUplink (vni : Int) (idx : Nat) : String := s!"vx{vni}p{idx}"

/-- `config.physnet[seg.physnet].trunk`. -/
def trunkOf (config : Config) (seg : Segment) : Except PlanExc String :=
  match seg.physnet with
  | some p => do
      let physnet ← config.physnet.getItem p (.keyError (some p))
      pure physnet.trunk
  | none => .error (.keyError none)

/-- The derived member names a bridge's segment implies. -/
def uplinkNames (_bname : String) (bridge : Bridge) (config : Config) :
    Except PlanExc (List String) :=
  match bridge.segment with
  | none => .ok []
  | some seg =>
      match seg.vxlan with
      | some vx => .ok ((List.range vx.peers.length).map (vxlanUplink vx.vni))
      | none => do
          let trunk ← trunkOf config seg
          match seg.vlan with
          | some vid =>
              let name := trunk ++ "." ++ toString vid
              if IFNAME_MAX < name.length then
                .error (.planError ("derived vlan name \x27" ++ name ++
                  "\x27 exceeds IFNAMSIZ. Shorten the trunk name."))
              else .ok [name]
          -- flat: the physnet NIC itself joins
          | none => .ok [trunk]

/-- The ops to manufacture a segment's missing uplinks. -/
def uplinkCreates (seg : Segment) (names : List String) (kernel : KernelInterfaces) :
    Except PlanExc (List Op) :=
  match seg.vxlan with
  | some vx => .ok ((names.zip vx.peers).filterMap fun np =>
      if np.1 ∈ kernel then none else some (.createVxlan np.1 vx.vni vx.local_ np.2))
  | none =>
      match seg.vlan with
      | some vid =>
          match names with
          | name :: _ => .ok (if name ∈ kernel then [] else
              [.createVlan name (Text.beforeLast name '.') vid])
          | [] => .error .indexError
      -- flat: nothing to create, the NIC is attached hardware
      | none => .ok []

/-- `if seg is not None: plan.creates.extend(uplink_creates(..))`. -/
def segmentCreates (seg : Option Segment) (names : List String) (kernel : KernelInterfaces) :
    Except PlanExc (List Op) :=
  match seg with
  | some s => uplinkCreates s names kernel
  | none => .ok []

/-- A vlan or vxlan segment makes its uplinks. -/
def manufactures (seg : Option Segment) : Bool :=
  match seg with
  | some s => s.vlan.isSome || s.vxlan.isSome
  | none => false

/-! ## The pf plane of one member

What has to happen to one anchor: nothing, a load, or a repair for each table that differs. -/

/-- `config.filter.get(member.filter) if member.filter else None`. -/
def filterOf (config : Config) (member : Member) : Option Filter :=
  (truthy member.filter).bind config.filter.get?

section

variable [Hashlib]

/-- The ops one member's anchor needs, as the load and the table repairs. Without `pf_state`
the anchor loads only when the interface is manufactured. -/
def pfOpsFor (mname : String) (member : Member) (config : Config) (pfState : Option PfState) :
    Except PlanExc (Option Op × List Op) :=
  let filt := filterOf config member
  if filt.isNone && member.bind.isNone then .ok (none, [])
  else do
    let tables ← Pf.wantedTables filt config
    let (ruleset, hash) := Pf.render mname filt member.bind tables
    let load := Op.loadAnchor mname (member.filter.getD "") ruleset hash
    match pfState with
    | none => pure (some load, [])
    | some pf =>
        match pf.get? mname with
        | none => pure (some load, [])
        | some state =>
            if !state.isLoaded || state.cfgHash ≠ some hash then pure (some load, [])
            else
              pure (none, tables.filterMap fun t =>
                if t.2.toFinset ≠ (state.tables.get? t.1).getD ∅ then
                  some (.replaceTable mname t.1 t.2)
                else none)

/-! ## One bridge

Members in the order of the config, each with its presence, its policy and its lock. -/

def awaiting (name bname : String) : String := s!"{name}: awaiting-attach ({bname})"

/-- The ops, notes and still pending load that a member's presence decides. -/
structure Presence where
  adds : List Op := []
  notes : List String := []
  load : Option Op := none

/-- Create, load policy, then member, so the anchor exists before anything can open the tap. -/
def presence (kernel : KernelInterfaces) (bname : String) (current : List String)
    (mname : String) (member : Member) (load : Option Op) : Except PlanExc Presence :=
  let join := load.toList ++ [Op.addMember bname mname]
  match member.type with
  | some _ =>
      if mname ∈ kernel ∧ kernel.ownedName mname = false then
        .error (.planError (s!"desired member {mname} exists without the l2-neutron group. " ++
          "Remove or rename it by hand."))
      else if mname ∉ kernel then
        .ok { adds := .createTap mname member.description :: join }
      else if mname ∉ current then .ok { adds := join }
      else .ok { load }
  | none =>
      -- config may precede the attached hardware
      if mname ∉ kernel then .ok { notes := [awaiting mname bname] }
      else if mname ∉ current then .ok { adds := join }
      else .ok { load }

/-- The lock a bound member still needs. -/
def lockOps (kernel : KernelInterfaces) (bname mname : String) (member : Member) : List Op :=
  match member.bind with
  | some b =>
      if kernel.staticLock bname mname ≠ some b.mac then [.lockMemberMac bname mname b.mac]
      else []
  | none => []

structure MemberPart where
  adds : List Op
  notes : List String

def memberPart (config : Config) (kernel : KernelInterfaces) (pfState : Option PfState)
    (bname : String) (current : List String) (mname : String) (member : Member) :
    Except PlanExc MemberPart := do
  let (load, tableOps) ← pfOpsFor mname member config pfState
  let p ← presence kernel bname current mname member load
  -- policy drift on an otherwise reconciled member
  let drift := if pfState.isSome ∧ mname ∈ kernel then p.load.toList else []
  pure {
    adds := p.adds ++ drift ++ tableOps ++ lockOps kernel bname mname member
    notes := p.notes }

/-- Flat uplinks are actual attached hardware, other uplinks either exist or are created. -/
def uplinkPart (kernel : KernelInterfaces) (bname : String) (current : List String)
    (made : Bool) (name : String) : MemberPart :=
  if name ∈ current then ⟨[], []⟩
  else if made || decide (name ∈ kernel) then ⟨[.addMember bname name], []⟩
  else ⟨[], [awaiting name bname]⟩

/-- What one round of the bridge loop appends. -/
structure BridgePart where
  claims : List String
  creates : List Op
  removes : List Op
  adds : List Op
  notes : List String
  evicted : List String

/-- Never adopt: a foreign interface under a desired name is an error. -/
def bridgeOp (kernel : KernelInterfaces) (bname : String) (bridge : Bridge) :
    Except PlanExc (List Op) :=
  match kernel.interfaces.get? bname with
  | none => .ok [.createBridge bname bridge.maxAddresses]
  | some iface =>
      if !iface.isBridge then
        .error (.planError (s!"desired bridge {bname} exists in the kernel but is not a " ++
          "bridge. Remove or rename it by hand."))
      else if !iface.isOwned then
        .error (.planError (s!"desired bridge {bname} exists without the l2-neutron group. " ++
          "Remove or rename it by hand."))
      else
        match iface.maxaddr with
        | some n => .ok (if n ≠ bridge.maxAddresses then
            [.setMaxaddr bname bridge.maxAddresses] else [])
        | none => .ok []

/-- One bridge of the config. `current` and `current - desired_ifaces` are sets in the source, so
the order in which foreign members are removed, and evicted ones destroyed, is open there; it is
the kernel's here. No other phase and no later part reads that order. -/
def bridgePart (config : Config) (kernel : KernelInterfaces) (pfState : Option PfState)
    (bname : String) (bridge : Bridge) : Except PlanExc BridgePart := do
  let names ← uplinkNames bname bridge config
  let own ← bridgeOp kernel bname bridge
  let uplinks ← segmentCreates bridge.segment names kernel
  let current := (kernel.membersOf bname).dedup
  let members ← bridge.member.entries.mapM fun e =>
    memberPart config kernel pfState bname current e.1 e.2
  let ups := names.map (uplinkPart kernel bname current (manufactures bridge.segment))
  let wanted := names ++ bridge.member.keys
  -- foreign members are removed (don't destroy)
  let foreign := current.filter fun m => decide (m ∉ wanted)
  pure {
    claims := wanted
    creates := own ++ uplinks
    removes := foreign.map (.removeMember bname)
    adds := members.flatMap MemberPart.adds ++ ups.flatMap MemberPart.adds
    notes := members.flatMap MemberPart.notes ++ ups.flatMap MemberPart.notes
    evicted := foreign.filter kernel.ownedName }

/-! ## Teardown

The `Gc` is what the three walks share: the ops so far, and the names that are queued. -/

/-- The gc under way: what is queued, and the destroys phase so far. -/
structure Gc where
  queued : List String := []
  destroys : List Op := []

/-- Queue an interface's flush and destroy at most once. -/
def destroyOnce (pfState : Option PfState) (g : Gc) (name : String) : Gc :=
  if name ∈ g.queued then g
  else
    let flush := match pfState.bind (·.get? name) with
      | some state => if state.isLoaded then [Op.flushAnchor name] else []
      | none => []
    { queued := name :: g.queued, destroys := g.destroys ++ flush ++ [.destroyIface name] }

/-- One owned bridge the config does not desire: its owned members, then itself. -/
def tearDown (kernel : KernelInterfaces) (pfState : Option PfState) (g : Gc)
    (e : String × Interface) : Gc :=
  let g := (e.2.members.filter kernel.ownedName).foldl (destroyOnce pfState) g
  { queued := e.1 :: g.queued, destroys := g.destroys ++ [.destroyBridge e.1] }

/-- The owned bridges the config does not desire, in kernel order. -/
def unwanted (config : Config) (kernel : KernelInterfaces) : List (String × Interface) :=
  kernel.bridges.entries.filter fun e => e.2.isOwned && decide (e.1 ∉ config.bridge)

/-- The members some desired bridge gives a filter or a bind. -/
def policied (config : Config) : List String :=
  config.bridge.values.flatMap fun b =>
    (b.member.entries.filter fun e => (truthy e.2.filter).isSome || e.2.bind.isSome).map Prod.fst

/-- The interfaces an op list flushes. -/
def flushed (ops : List Op) : List String :=
  ops.filterMap fun op => match op with
    | .flushAnchor n => some n
    | _ => none

/-- The loaded anchors of interfaces without a policy, less those already flushed. -/
def staleAnchors (config : Config) (pfState : Option PfState) (done : List String) : List Op :=
  match pfState with
  | some pf => ((sortedBy Prod.fst pf.entries).filter fun e =>
      e.2.isLoaded && decide (e.1 ∉ policied config) && decide (e.1 ∉ done)).map fun e =>
        .flushAnchor e.1
  | none => []

/-- The owned interfaces nothing claims. -/
def orphans (kernel : KernelInterfaces) (desired : List String) : List String :=
  kernel.owned.filter fun n =>
    (kernel.interfaces.get? n).any (fun i => !i.isBridge) && decide (n ∉ desired)

/-- The plan of the collected rounds of the bridge loop: the destroys phase collects the owned
bridges the config does not desire, then the evicted members, then the orphans. -/
def assemble (config : Config) (kernel : KernelInterfaces) (pfState : Option PfState)
    (parts : List BridgePart) : Plan :=
  let gone := unwanted config kernel
  let gc := (parts.flatMap BridgePart.evicted).foldl (destroyOnce pfState)
    (gone.foldl (tearDown kernel pfState) {})
  let removes := parts.flatMap BridgePart.removes ++
    gone.flatMap fun e => e.2.members.map (.removeMember e.1)
  let stale := staleAnchors config pfState (flushed (removes ++ gc.destroys))
  let gc := (orphans kernel (parts.flatMap BridgePart.claims)).foldl (destroyOnce pfState) gc
  { creates := parts.flatMap BridgePart.creates
    removes := removes ++ stale
    adds := parts.flatMap BridgePart.adds
    destroys := gc.destroys
    notes := parts.flatMap BridgePart.notes }

/-- Diff a desired Config against the kernel into a Plan. -/
def diff (config : Config) (kernel : KernelInterfaces) (pfState : Option PfState) :
    Except PlanExc Plan := do
  let parts ← config.bridge.entries.mapM fun e => bridgePart config kernel pfState e.1 e.2
  pure (assemble config kernel pfState parts)

end

end Planner

end Bsdbridge
