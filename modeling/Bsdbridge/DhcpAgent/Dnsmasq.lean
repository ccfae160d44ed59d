import Bsdbridge.Files
import Bsdbridge.Lib.Ipv4

/-!
# `dnsmasq.py` — dnsmasq config rendering

What one network's dhcp server is given: two files and a command line. Networks and subnets are
named by Neutron's ids, UUIDs, of which the rendering needs that they name a file and hold no
blank; an id carries that much with it.
-/

set_option autoImplicit false

namespace Bsdbridge

/-- A text that names one entry of a directory, and is one word of a command line. -/
def PlainId (s : String) : Prop := '/' ∉ s.toList ∧ ' ' ∉ s.toList

instance (s : String) : Decidable (PlainId s) := inferInstanceAs (Decidable (_ ∧ _))

/-- One dhcp-enabled IPv4 subnet. -/
structure Subnet where
  id : String
  cidr : String
  gatewayIp : Option String := none
  dns : List String := []
  plain : PlainId id
  deriving DecidableEq

/-- One reservation: a port's allocation in one subnet. -/
structure HostEntry where
  mac : String
  ip : String
  deriving DecidableEq

/-- One network's desired dhcp service. -/
structure DhcpNetwork where
  networkId : String
  portId : String
  mac : String
  ips : List (String × Nat)
  subnets : List Subnet
  hosts : List HostEntry
  plain : PlainId networkId
  deriving DecidableEq

namespace DhcpNetwork

/-- The network's jail name. -/
def jail (net : DhcpNetwork) : String := Names.dhcpJailName net.networkId

/-- The host-side epair name. -/
def dhcpIf (net : DhcpNetwork) : String := Names.dhcpIfName net.portId

end DhcpNetwork

namespace Dnsmasq

def LEASE_TIME : String := "86400s"

/-- The per-network state directory path. -/
def stateDir (base networkId : String) : String := pathJoin (pathJoin base "dhcp") networkId

/-- Render the dhcp-hostsfile, one reservation per line. -/
def hostsText (net : DhcpNetwork) : String :=
  let lines := net.hosts.map fun e =>
    e.mac ++ ",host-" ++ Text.replaceChar e.ip '.' '-' ++ "," ++ e.ip
  String.join ((sortedBy (fun line => line) lines).map fun line => line ++ "\n")

/-- The options of one subnet. An option with no value makes dnsmasq send nothing instead of
itself. -/
def optLines (subnet : Subnet) : List String :=
  let router := match subnet.gatewayIp with
    | some ip => if ip ≠ "" then "," ++ ip else ""
    | none => ""
  let dns := if subnet.dns = [] then "" else "," ++ ",".intercalate subnet.dns
  ["tag:" ++ subnet.id ++ ",option:router" ++ router,
    "tag:" ++ subnet.id ++ ",option:dns-server" ++ dns]

/-- Render the dhcp-optsfile with per-subnet router and dns options. -/
def optsText (net : DhcpNetwork) : String :=
  String.join ((net.subnets.flatMap optLines).map fun line => line ++ "\n")

/-- The part of the command line that no subnet changes. -/
def fixedArgv (base networkId path : String) : Argv :=
  let directory := stateDir base networkId
  [path, "--conf-file=/dev/null", "--no-hosts", "--no-resolv", "--port=0",
    "--interface=" ++ DHCP_JAIL_IF, "--bind-interfaces", "--pid-file=" ++ directory ++ "/pid",
    "--dhcp-hostsfile=" ++ directory ++ "/hosts", "--dhcp-optsfile=" ++ directory ++ "/opts",
    "--dhcp-leasefile=" ++ directory ++ "/leases", "--dhcp-authoritative"]

/-- The range of one subnet; none where its cidr is no network. -/
def rangeArg (subnet : Subnet) : Option String :=
  (Ipv4.readNetwork true subnet.cidr).map fun network =>
    "--dhcp-range=set:" ++ subnet.id ++ "," ++ network.first ++ ",static," ++ network.netmask ++
      "," ++ LEASE_TIME

/-- The dnsmasq argv for one network. -/
def argv (net : DhcpNetwork) (base path : String) : Option Argv :=
  (net.subnets.mapM rangeArg).map fun ranges => fixedArgv base net.networkId path ++ ranges

end Dnsmasq

end Bsdbridge
