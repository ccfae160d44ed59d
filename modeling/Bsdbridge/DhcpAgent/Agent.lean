import Bsdbridge.DhcpAgent.Dnsmasq
import Bsdbridge.L3Agent.Rpc

/-!
# `dhcp_agent/agent.py` — specs from RPC

The dictionaries of a `get_active_networks_info` reply, as far as a spec is built from them, and
the building. A key that may be absent is an `Option`. The ids are Neutron's: no two subnets of a
network share one, and none holds a comma, which is what separates the fields of an option line.
-/

set_option autoImplicit false

namespace Bsdbridge

namespace DhcpRpc

structure Subnet where
  id : String
  ipVersion : Option Nat
  cidr : String
  gatewayIp : Option String := none
  dnsNameservers : List String := []
  plain : PlainId id
  tag : ',' ∉ id.toList

structure FixedIp where
  subnetId : String
  ipAddress : String

structure Port where
  id : String
  deviceOwner : Option String := none
  macAddress : Option String := none
  fixedIps : List FixedIp := []

structure Network where
  id : String
  subnets : List Subnet := []
  ports : List Port := []
  plain : PlainId id
  distinct : (subnets.map Subnet.id).Nodup

end DhcpRpc

namespace Dhcp

/-- The subnets a pass serves: `v4` of `_sync`. -/
def v4Subnets (net : DhcpRpc.Network) : List DhcpRpc.Subnet :=
  net.subnets.filter fun s => s.ipVersion = some 4

/-- `subnet_by_id`. -/
def subnetById (v4 : List DhcpRpc.Subnet) : Dict String DhcpRpc.Subnet :=
  Dict.ofList (v4.map fun s => (s.id, s))

/-- The addresses of the dhcp port; none where a cidr has no prefix length. -/
def portIps (v4 : List DhcpRpc.Subnet) (port : DhcpRpc.Port) : Option (List (String × Nat)) :=
  let known := port.fixedIps.filterMap fun fixed =>
    ((subnetById v4).get? fixed.subnetId).map fun subnet => (fixed, subnet)
  known.mapM fun e => (Router.cidrPrefixlen e.2.cidr).map fun n => (e.1.ipAddress, n)

/-- The reservations of one port. A dhcp port has none, nor has a port without a mac. -/
def hostEntries (v4 : List DhcpRpc.Subnet) (other : DhcpRpc.Port) : List HostEntry :=
  if Text.startsWith (other.deviceOwner.getD "") DEVICE_OWNER_DHCP then []
  else
    let mac := other.macAddress.getD ""
    if mac = "" then []
    else
      let reserved := other.fixedIps.filter fun fixed =>
        decide (fixed.subnetId ∈ subnetById v4) && !Text.hasChar fixed.ipAddress ':'
      reserved.map fun fixed => { mac, ip := fixed.ipAddress }

/-- One subnet of the spec. -/
def specSubnet (s : DhcpRpc.Subnet) : Subnet :=
  { id := s.id, cidr := s.cidr, gatewayIp := s.gatewayIp, dns := s.dnsNameservers,
    plain := s.plain }

/-- The spec one network reconciles to; none where building it raises. -/
def specFor (net : DhcpRpc.Network) (v4 : List DhcpRpc.Subnet) (port : DhcpRpc.Port) :
    Option DhcpNetwork := do
  let ips ← portIps v4 port
  let hosts := net.ports.flatMap (hostEntries v4)
  let subnets := v4.map specSubnet
  let mac ← port.macAddress
  pure
    { networkId := net.id
      portId := port.id
      mac := String.ofList (mac.toList.map Char.toLower)
      ips
      subnets
      hosts := sortedBy (fun h => toLex (h.ip, h.mac)) hosts
      plain := net.plain }

/-- The spec of a network as a pass asks for it. -/
def specOf (net : DhcpRpc.Network) (port : DhcpRpc.Port) : Option DhcpNetwork :=
  specFor net (v4Subnets net) port

end Dhcp

end Bsdbridge
