import Bsdbridge.Lib.Sorted
import Bsdbridge.Lib.Text

/-!
# `constants.py` and `names.py` — the names everything is keyed by

Every interface, filter and table name is derived from a Neutron id by cutting it short, and a
bridge name is a digest of its segment. The digest is `hashlib`'s; nothing in the agents depends on
which function it is, so it is a parameter (`Hashlib`) of the whole model.

The same goes for `uuid5` (`Uuid`), from which the device id of a dhcp port is made. Neither
parameter comes with a law. A statement that needs names to be distinct says so of the names it is
about, since a cut name or a digest can always collide and the code does not check.

The constants are those that the modelled functions use, under their own names.
-/

set_option autoImplicit false

namespace Bsdbridge

/-- `hashlib`, as far as the agents use it. -/
class Hashlib where
  /-- `hashlib.sha256(text.encode()).hexdigest()`. -/
  sha256 : String → String

/-- `uuid`, as far as the agents use it. -/
class Uuid where
  /-- `str(uuid.uuid5(uuid.NAMESPACE_DNS, name))`. -/
  uuid5 : String → String

/-! ## `constants.py` -/

def OWNED_GROUP : String := "l2-neutron"

def DHCP_GROUP : String := "dhcp-neutron"

def L3_GROUP : String := "l3-neutron"

def DESCRIPTION_PREFIX : String := "neutron port "

def DEVICE_OWNER_DHCP : String := "network:dhcp"

def DEVICE_OWNER_ROUTER_INTF : String := "network:router_interface"

def DEVICE_OWNER_ROUTER_GW : String := "network:router_gateway"

def IFCONFIG : String := "/sbin/ifconfig"

def PFCTL : String := "/sbin/pfctl"

def DHCP_JAIL_IF : String := "dhcp0"

def ROUTE : String := "/sbin/route"

def SYSCTL : String := "/sbin/sysctl"

def NETSTAT : String := "/usr/bin/netstat"

def JAIL : String := "/usr/sbin/jail"

def JEXEC : String := "/usr/sbin/jexec"

def JLS : String := "/usr/sbin/jls"

def KILL : String := "/bin/kill"

def PKILL : String := "/bin/pkill"

def PS : String := "/bin/ps"

def DNSMASQ : String := "/usr/local/sbin/dnsmasq"

/-! ## `names.py` -/

namespace Names

def BRIDGE_PREFIX : String := "pb"

def BRIDGE_HASH_LEN : Nat := 12

/-- `None` in an f-string. -/
def spell (s : Option String) : String := s.getD "None"

/-- The text `bridge_name` digests. -/
def bridgeKey (networkType physicalNetwork : Option String) (segmentationId : Option Int)
    (networkId : String) : String :=
  let seg := spell (segmentationId.map toString)
  if networkType = some "vlan" then s!"vlan/{spell physicalNetwork}/{seg}"
  else if networkType = some "flat" then s!"flat/{spell physicalNetwork}"
  else
    -- `segmentation_id or network_id`: a zero id is as good as none
    match segmentationId with
    | none | some 0 => s!"{spell networkType}/{networkId}"
    | some _ => s!"{spell networkType}/{seg}"

def bridgeName [Hashlib] (networkType physicalNetwork : Option String)
    (segmentationId : Option Int) (networkId : String) : String :=
  BRIDGE_PREFIX ++ Text.take
    (Hashlib.sha256 (bridgeKey networkType physicalNetwork segmentationId networkId))
    BRIDGE_HASH_LEN

def tapName (portId : String) : String := "tap" ++ Text.take portId 11

def filterName (portId : String) : String := "sg-" ++ Text.take portId 12

def tableName (sgId : String) : String := "rg-" ++ Text.take sgId 12

def dhcpIfName (portId : String) : String := "dh" ++ Text.take portId 13

def routerIfName (portId : String) : String := "rt" ++ Text.take portId 13

/-- `text.replace("-", "")[:12]`. -/
def jailSuffix (id : String) : String :=
  Text.take (String.ofList (id.toList.filter (· ≠ '-'))) 12

def dhcpJailName (networkId : String) : String := "qdhcp-" ++ jailSuffix networkId

def routerJailName (routerId : String) : String := "qrouter-" ++ jailSuffix routerId

def routerJailIfName (portId : String) (gateway : Bool) : String :=
  (if gateway then "qg-" else "qr-") ++ Text.take portId 11

/-- The device id of a host's dhcp port on a network, in Neutron's own convention. -/
def dhcpDeviceId [Uuid] (networkId host : String) : String :=
  let localHostname := (Text.partition host '.').1
  "dhcp" ++ Uuid.uuid5 localHostname ++ "-" ++ networkId

end Names

end Bsdbridge
