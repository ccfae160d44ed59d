import Bsdbridge.Names

/-!
# `mech.py` — the ML2 mechanism driver

The server's half. The driver binds a port to a segment when the agent of the host has reported
that it can carry it, and tells the compute service the bridge the interface goes into. It never
talks to the agent about the bridge: both compute the name.
-/

set_option autoImplicit false

namespace Bsdbridge

namespace Mech

def SUPPORTED_NETWORK_TYPES : List String := ["local", "flat", "vlan"]

/-- One segment of a network. -/
structure Segment where
  networkType : String
  physicalNetwork : Option String := none
  segmentationId : Option Int := none
  deriving DecidableEq

/-- What an agent reports of itself. -/
structure AgentReport where
  /-- `configurations["physical_interface_mappings"]`, if it is there. -/
  physicalInterfaceMappings : Option (Dict String String) := none

/-- The VIF details of a bound port. -/
structure VifDetails where
  portFilter : Bool := true
  bridgeName : String
  interfaceGroup : String := OWNED_GROUP
  deriving DecidableEq

/-- The network types the driver binds. -/
def getAllowedNetworkTypes : List String := SUPPORTED_NETWORK_TYPES

/-- The physnet to trunk mappings an agent advertised. -/
def getMappings (agent : AgentReport) : Dict String String :=
  agent.physicalInterfaceMappings.getD ∅

/-- Whether an agent can carry a segment. -/
def checkSegmentForAgent (segment : Segment) (agent : AgentReport) : Bool :=
  if segment.networkType ∉ getAllowedNetworkTypes then false
  else if segment.networkType = "local" then true
  else segment.physicalNetwork.any fun p => decide (p ∈ getMappings agent)

/-- The VIF details of a port of `networkId`, the computed bridge name included. -/
def getVifDetails [Hashlib] (networkId : String) (segment : Segment) : VifDetails :=
  { bridgeName := Names.bridgeName (some segment.networkType) segment.physicalNetwork
      segment.segmentationId networkId }

end Mech

end Bsdbridge
