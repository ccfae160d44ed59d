import Bsdbridge.L2Agent.Model

/-!
# `l2_agent/port_config.py` — the desired state of a host

`build` turns what the server says about the host's ports (their details and their security groups)
into a tree, and the tree into a validated `Config`. A Python dict whose keys the code computes is
a `Dict`; one whose keys it writes down is a list of items in the order it writes them.
`tables_used`, which the source passes down and fills, is returned instead.

The tree is the source's tree, field by field, and it is read back by `Config.from_tree` as any
document is. Building the `Config` directly would be shorter and would miss what the constructors
check: a rule whose port cannot be spelled refuses the whole build there and nowhere else.

The port loop writes into dicts under names that are cut short, so a later port may overwrite what
an earlier one wrote. `addPort` is one round of it; `Stanzas` is what the rounds share.
-/

set_option autoImplicit false

namespace Bsdbridge

/-! ## What the server sends

Only what the building reads. An absent key is an Option, and an empty text is not `None`. -/

inductive SgDirection | ingress | egress
  deriving DecidableEq

/-- One rule of a security group. -/
structure SgRule where
  direction : SgDirection
  ethertype : Option String := none
  protocol : Option String := none
  portRangeMin : Option Int := none
  portRangeMax : Option Int := none
  sourceIpPrefix : Option String := none
  destIpPrefix : Option String := none
  remoteGroupId : Option String := none
  deriving DecidableEq

/-- The member addresses of a security group. -/
structure SgMembers where
  ipv4 : List String := []
  ipv6 : List String := []
  deriving DecidableEq

/-- `security_group_info_for_devices`. -/
structure SgInfo where
  /-- `security_groups`: the rules of each group. -/
  securityGroups : Dict String (List SgRule) := ∅
  /-- `devices`: the groups of each port. -/
  devices : Dict String (List String) := ∅
  sgMemberIps : Dict String SgMembers := ∅

/-- The details of one port. -/
structure PortDetails where
  portId : String
  networkId : String
  networkType : Option String := none
  physicalNetwork : Option String := none
  segmentationId : Option Int := none
  deviceOwner : Option String := none
  portSecurityEnabled : Option Bool := none
  macAddress : Option String := none
  /-- The `ip_address` of each of the `fixed_ips`. -/
  fixedIps : List String := []
  deriving DecidableEq

namespace PortConfig

def PROTO : List (String × String) :=
  [("tcp", "tcp"), ("udp", "udp"), ("icmp", "icmp"), ("ipv6-icmp", "icmp6"), ("icmpv6", "icmp6"),
    ("icmp6", "icmp6")]

/-- Infra allowances occupy 10-90. -/
def SG_RULE_BASE : Nat := 100

/-- Service ports are epairs another agent manufactures, named by owner. -/
def SERVICE_IF_NAME : List (String × (String → String)) :=
  [(DEVICE_OWNER_DHCP, Names.dhcpIfName), (DEVICE_OWNER_ROUTER_INTF, Names.routerIfName),
    (DEVICE_OWNER_ROUTER_GW, Names.routerIfName)]

/-! ## Security groups -/

/-- A value of a rule body. -/
inductive Scalar
  | int (n : Int)
  | str (s : String)
  deriving DecidableEq

def Scalar.tree : Scalar → Tree
  | .int n => .int n
  | .str s => .str s

/-- `(isinstance(v, str), v)`. -/
def Scalar.key : Scalar → Lex (Int ⊕ String)
  | .int n => toLex (.inl n)
  | .str s => toLex (.inr s)

/-- A rule body: its items, as the source adds them. -/
abbrev Body := List (String × Scalar)

def bodyTree (b : Body) : Tree := .dict (b.map fun kv => (kv.1, kv.2.tree))

/-- `sorted((k, isinstance(v, str), v) for k, v in b.items())`. -/
def bodyKey (b : Body) : List (Lex (String × Lex (Int ⊕ String))) :=
  sortedBy id (b.map fun kv => toLex (kv.1, kv.2.key))

/-- An SG rule's port as an int, a range string, or nothing. -/
def portValue (rule : SgRule) : Option Scalar :=
  match rule.portRangeMin, rule.portRangeMax with
  | none, _ => none
  | some lo, none => some (.int lo)
  | some lo, some hi =>
      if lo = hi then some (.int lo) else some (.str (toString lo ++ "-" ++ toString hi))

/-- `PREFIX_KEY`: the sg rpc renames remote_ip_prefix by direction. -/
def prefixOf (rule : SgRule) : Option String :=
  match rule.direction with
  | .ingress => rule.sourceIpPrefix
  | .egress => rule.destIpPrefix

/-- An SG rule's remote as a CIDR, a table reference, or any. -/
def remote (rule : SgRule) : String :=
  match truthy (prefixOf rule) with
  | some p => p
  | none =>
      match truthy rule.remoteGroupId with
      | some g => "@" ++ Names.tableName g
      | none => "any"

/-- What `remote` adds to `tables_used`. -/
def tableUsed (rule : SgRule) : Option String :=
  match truthy (prefixOf rule) with
  | some _ => none
  | none => truthy rule.remoteGroupId

/-- Whether pf can express a rule; what it cannot is skipped, which blocks that traffic. -/
def expressible (rule : SgRule) : Bool :=
  match rule.protocol with
  | none => true
  | some p =>
      match PROTO.lookup p with
      | none => false
      | some w => !(rule.ethertype = some "IPv6" && w ≠ "icmp6")

def bodyOf (rule : SgRule) : Body :=
  [("action", .str "pass")] ++
    (match rule.protocol.bind fun p => PROTO.lookup p with
      | some w => [("proto", .str w)]
      | none => []) ++
    (match portValue rule with
      | some v => [("port", v)]
      | none => []) ++
    if remote rule = "any" then []
    else
      match rule.direction with
      | .ingress => [("from", .str (remote rule))]
      | .egress => [("to", .str (remote rule))]

/-- The rules of a port: membership comes from sg_info's devices map. -/
def rulesOf (portId : String) (sgInfo : SgInfo) : List SgRule :=
  ((sgInfo.devices.get? portId).getD []).flatMap fun g => (sgInfo.securityGroups.get? g).getD []

/-- The bodies one direction renders. -/
def bodies (dir : SgDirection) (rules : List SgRule) : List Body :=
  ((rules.filter expressible).filter fun r => decide (r.direction = dir)).map bodyOf

/-- Assign rule numbers to bodies in a canonical order: port mixes int and range str so type
ranks before value. -/
def numbered (bs : List Body) : List (String × Tree) :=
  (sortedBy bodyKey bs).zipIdx.map fun bi =>
    (toString (SG_RULE_BASE + 10 * bi.2), bodyTree bi.1)

/-- Flatten a port's SGs into numbered in and out rule tables. -/
def sgRulesForPort (portId : String) (sgInfo : SgInfo) :
    List (String × Tree) × List (String × Tree) :=
  (numbered (bodies .ingress (rulesOf portId sgInfo)),
    numbered (bodies .egress (rulesOf portId sgInfo)))

/-- The groups `sg_rules_for_port` adds to `tables_used`. -/
def tablesUsedBy (portId : String) (sgInfo : SgInfo) : List String :=
  ((rulesOf portId sgInfo).filter expressible).filterMap tableUsed

/-- The per-port allowances for DHCP client traffic and ICMPv6. -/
def infraRules : List (String × Tree) × List (String × Tree) :=
  let allow (dhcpPort : Int) : List (String × Tree) :=
    [("10", .dict [("action", .str "pass"), ("proto", .str "udp"), ("port", .int dhcpPort)]),
      ("20", .dict [("action", .str "pass"), ("proto", .str "icmp6")])]
  (allow 68, allow 67)

/-! ## `build` -/

/-- One bridge under construction. -/
structure Stanza where
  segment : Option Tree := none
  member : Dict String Tree := ∅

/-- The dicts `build` fills. -/
structure Stanzas where
  physnets : Dict String String := ∅
  bridges : Dict String Stanza := ∅
  filters : Dict String Tree := ∅
  tablesUsed : Finset String := ∅

/-- The epair name of a service port, by its owner. -/
def serviceIf (port : PortDetails) : Option (String → String) :=
  (SERVICE_IF_NAME.find? fun s => Text.startsWith (port.deviceOwner.getD "") s.1).map Prod.snd

/-- The interface of a port. -/
def ifName (port : PortDetails) : String := (serviceIf port).getD Names.tapName port.portId

/-- A port that carries a policy: not a service port, and port security not switched off. -/
def secured (port : PortDetails) : Bool :=
  (serviceIf port).isNone && port.portSecurityEnabled ≠ some false

/-- The physical network a port's trunk is looked up under, and the trunk. -/
def trunkFor (port : PortDetails) (mappings : Dict String String) : Option (String × String) :=
  if port.networkType = some "vlan" ∨ port.networkType = some "flat" then
    port.physicalNetwork.bind fun pn => (mappings.get? pn).map fun trunk => (pn, trunk)
  else none

def segmentTree (port : PortDetails) (physnet : String) : Tree :=
  .dict ([("physnet", .str physnet)] ++
    if port.networkType = some "vlan" then
      [("vlan", match port.segmentationId with | some n => .int n | none => .null)]
    else [])

/-- The first IPv4 address of a port. -/
def ipv4Of (port : PortDetails) : Option String :=
  port.fixedIps.find? fun ip => !Text.hasChar ip ':'

def bindItems (port : PortDetails) : List (String × Tree) :=
  match ipv4Of port, truthy port.macAddress with
  | some ip, some mac => [("bind", .dict [("mac", .str mac), ("address", .str ip)])]
  | _, _ => []

/-- A service epair is attached hardware with no policy. -/
def memberTree (port : PortDetails) : Tree :=
  .dict ([("description", .str (DESCRIPTION_PREFIX ++ port.portId))] ++
    if (serviceIf port).isSome then []
    else if port.portSecurityEnabled = some false then [("type", .str "tap")]
    else [("type", .str "tap"), ("filter", .str (Names.filterName port.portId))] ++ bindItems port)

def filterTree (port : PortDetails) (sgInfo : SgInfo) : Tree :=
  let rules := sgRulesForPort port.portId sgInfo
  .dict [("in", .dict (infraRules.1 ++ rules.1)), ("out", .dict (infraRules.2 ++ rules.2))]

section

variable [Hashlib]

/-- The bridge of a port's segment. -/
def bridgeOf (port : PortDetails) : String :=
  Names.bridgeName port.networkType port.physicalNetwork port.segmentationId port.networkId

/-- One round of the port loop. -/
def addPort (sgInfo : SgInfo) (mappings : Dict String String) (acc : Stanzas)
    (port : PortDetails) : Stanzas :=
  let trunk := trunkFor port mappings
  -- local networks get an isolated bridge
  let stanza := (acc.bridges.get? (bridgeOf port)).getD {}
  { physnets := match trunk with
      | some (pn, name) => acc.physnets.insert pn name
      | none => acc.physnets
    bridges := acc.bridges.insert (bridgeOf port)
      { segment := match trunk with
          | some (pn, _) => some (segmentTree port pn)
          | none => stanza.segment
        member := stanza.member.insert (ifName port) (memberTree port) }
    filters := if secured port then
        acc.filters.insert (Names.filterName port.portId) (filterTree port sgInfo)
      else acc.filters
    tablesUsed := if secured port then
        acc.tablesUsed ∪ (tablesUsedBy port.portId sgInfo).toFinset
      else acc.tablesUsed }

def stanzaTree (s : Stanza) : Tree :=
  .dict ([("member", .dict s.member.entries)] ++
    match s.segment with
    | some t => [("segment", t)]
    | none => [])

/-- The tables of the groups in use, by name; the members are IPv4 addresses. -/
def tables (used : Finset String) (sgInfo : SgInfo) : Dict String (List String) :=
  Dict.ofList ((sortedSet used).map fun g =>
    (Names.tableName g, sortedBy id ((sgInfo.sgMemberIps.get? g).getD {}).ipv4))

/-- A section of the document, left out where it is empty. -/
def part {α : Type} (key : String) (d : Dict String α) (tree : α → Tree) :
    List (String × Tree) :=
  if d.entries = [] then [] else [(key, .dict (d.entries.map fun e => (e.1, tree e.2)))]

def document (acc : Stanzas) (sgInfo : SgInfo) : Tree :=
  .dict (part "physnet" acc.physnets (fun trunk => .dict [("trunk", .str trunk)]) ++
    part "bridge" acc.bridges stanzaTree ++
    part "filter" acc.filters id ++
    part "table" (tables acc.tablesUsed sgInfo) fun ips =>
      .dict [("members", .list (ips.map .str))])

/-- The dicts after the port loop. -/
def stanzas (ports : List PortDetails) (sgInfo : SgInfo) (mappings : Dict String String) :
    Stanzas :=
  ports.foldl (addPort sgInfo mappings) {}

/-- Build a validated Config plus the sorted port uuids it covers. -/
def build (ports : List PortDetails) (sgInfo : SgInfo) (mappings : Dict String String) :
    Except SchemaError (Config × List String) := do
  let config ← Config.fromTree (document (stanzas ports sgInfo mappings) sgInfo)
  pure (config, sortedBy id (ports.map (·.portId)))

end

end PortConfig

end Bsdbridge
