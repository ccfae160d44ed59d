import Bsdbridge.DhcpAgent.Agent
import Bsdbridge.DhcpAgent.Reconcile
import Bsdbridge.Daemon

/-!
# `dhcp_agent/agent.py` — `_sync`

One pass of the dhcp agent: fetch the networks, see to this host's port on each of them, reconcile,
and report the ports that have become ready.

The pass is a program over the world of the agent: the disk, its memory and dirty flag, and what is
outside. Every call to the server and every command is a wait, in which casts are handled and the
pass may raise (`waits`). What the server has is not modelled; its answers are those of
`PluginApi`, and may be anything that the types of a reply allow.

What a pass gathers is in `Gathered`, and grows in the order of the reply. A network whose port
cannot be had is left out of it and does not stop the pass, as in the source.
-/

set_option autoImplicit false

namespace Bsdbridge

namespace DhcpRpc

/-- A port, with what tells whose it is. -/
structure OwnPort extends Port where
  deviceId : Option String := none

/-- A network of a reply. -/
structure ActiveNetwork where
  id : String
  adminStateUp : Bool := true
  projectId : String := ""
  subnets : List Subnet := []
  ports : List OwnPort := []
  plain : PlainId id
  distinct : (subnets.map Subnet.id).Nodup

/-- What `_spec_for` reads of it. -/
def ActiveNetwork.toNetwork (net : ActiveNetwork) : Network :=
  { id := net.id, subnets := net.subnets, ports := net.ports.map OwnPort.toPort,
    plain := net.plain, distinct := net.distinct }

/-- A reply of `get_active_networks_info`, in which no network comes twice. -/
structure Reply where
  networks : List ActiveNetwork := []
  apart : (networks.map ActiveNetwork.id).Nodup

/-- The body of a `create_dhcp_port`, its fixed ips by their subnets. -/
structure CreateBody where
  name : String
  adminStateUp : Bool
  deviceId : String
  networkId : String
  tenantId : String
  subnetIds : List String

/-- The body of an `update_dhcp_port`. -/
structure UpdateBody where
  networkId : String
  subnetIds : List String

/-- `DhcpPluginApi`. A call that raises stops. -/
structure PluginApi (ε : Type) where
  getActiveNetworksInfo : Prog ε Reply
  createDhcpPort : CreateBody → Prog ε (Option OwnPort)
  updateDhcpPort : String → UpdateBody → Prog ε (Option OwnPort)
  releaseDhcpPort : String → String → Prog ε Unit
  dhcpReadyOnPorts : List String → Prog ε Unit

end DhcpRpc

namespace Dhcp

open DhcpRpc

/-- What the server casts to the agent. -/
inductive Cast
  | networkCreateEnd
  | networkUpdateEnd
  | networkDeleteEnd
  | subnetCreateEnd
  | subnetUpdateEnd
  | subnetDeleteEnd
  | portCreateEnd
  | portUpdateEnd
  | portDeleteEnd
  | agentUpdated
  deriving DecidableEq

/-- What is outside the agent. -/
structure Outside (σ : Type) extends Daemon.Outside Cast σ where
  plugin : PluginApi (Site σ)

/-- `conf`, as far as the agent reads it. -/
structure Conf where
  host : String
  statePath : String
  dnsmasqPath : String := DNSMASQ

/-- What the passes of `BsdBridgeDhcpAgent` leave to each other. -/
structure Memory where
  ready : Finset String := ∅
  networkCount : Nat := 0

/-- The agent on its host. -/
abbrev World (σ : Type) := Daemon.World Memory σ

/-- A pass that has gone through some of the networks: `desired` and `ready` of `_sync`. -/
structure Gathered where
  desired : List DhcpNetwork := []
  ready : Finset String := ∅

section

variable {σ : Type}

variable (out : Outside σ)

/-- The agent waits for something outside. -/
def waits {α : Type} (p : Prog (Site σ) α) : Prog (World σ) α := Daemon.waits out.toOutside p

/-! ## 1. The dhcp port -/

section

variable [Uuid] (conf : Conf)

/-- `_own_port`. -/
def ownPort (net : ActiveNetwork) : Option OwnPort :=
  net.ports.find? fun port => port.deviceId = some (Names.dhcpDeviceId net.id conf.host)

/-- The subnets of a port, no matter which of its addresses are in them. -/
def subnetsOf (port : OwnPort) : Finset String := (port.fixedIps.map FixedIp.subnetId).toFinset

/-- The subnets the dhcp port of a network is to be on. -/
def wanted (v4 : List DhcpRpc.Subnet) : List String := sortedBy (fun sid => sid) (v4.map fun s => s.id)

/-- Whether a port is on these subnets, and on no others. -/
def fits (port : OwnPort) (subnetIds : List String) : Bool :=
  let have_ := sortedSet ((subnetsOf port).filter fun sid => sid ∈ subnetIds)
  let allHave := sortedSet (subnetsOf port)
  decide (have_ = subnetIds) && decide (allHave = subnetIds)

/-- `_ensure_port`: the network's dhcp port, created or refitted. -/
def ensurePort (net : ActiveNetwork) (v4 : List DhcpRpc.Subnet) :
    Prog (World σ) (Option OwnPort) :=
  match ownPort conf net with
  | none => waits out (out.plugin.createDhcpPort
      { name := "", adminStateUp := true, deviceId := Names.dhcpDeviceId net.id conf.host,
        networkId := net.id, tenantId := net.projectId, subnetIds := wanted v4 })
  | some port =>
      if fits port (wanted v4) then pure (some port)
      else do
        let updated ← waits out (out.plugin.updateDhcpPort port.id
          { networkId := net.id, subnetIds := wanted v4 })
        pure (some (updated.getD port))

/-! ## 2. The pass -/

/-- Whether a network is served: it has an IPv4 subnet and is up. -/
def served (net : ActiveNetwork) : Bool :=
  !(v4Subnets net.toNetwork).isEmpty && net.adminStateUp

/-- The ports of a network with an address in one of its IPv4 subnets. -/
def readyPorts (net : ActiveNetwork) : Finset String :=
  let v4Ids := (v4Subnets net.toNetwork).map fun s => s.id
  let ports := net.ports.filter fun p => p.fixedIps.any fun f => decide (f.subnetId ∈ v4Ids)
  (ports.map fun p => p.id).toFinset

/-- One network. A port of an unserved network is released. -/
def gatherOne (net : ActiveNetwork) (all : Gathered) : Prog (World σ) Gathered := do
  let v4 := v4Subnets net.toNetwork
  if !served net then do
    (if (ownPort conf net).isSome then
      waits out (out.plugin.releaseDhcpPort net.id (Names.dhcpDeviceId net.id conf.host))
    else pure ())
    pure all
  else
    match ← ensurePort out conf net v4 with
    | none => pure all
    | some port =>
        match specFor net.toNetwork v4 port.toPort with
        | none => Prog.stop
        | some spec =>
            pure { desired := all.desired ++ [spec], ready := all.ready ∪ readyPorts net }

/-- The networks, in order. -/
def gather : List ActiveNetwork → Gathered → Prog (World σ) Gathered
  | [], all => pure all
  | net :: rest, all => do
      let all ← gatherOne out conf net all
      gather rest all

/-- `self._reconcile`: the receipts of a reconcile that returns. -/
def reconciled (desired : List DhcpNetwork) : Prog (World σ) (List (Receipt String)) :=
  Daemon.reconciled out.toOutside fun cmd pause =>
    reconcile cmd pause conf.statePath conf.dnsmasqPath desired

/-- The report of the ports that have become ready, and the new memory of the agent. -/
def report (ready : Finset String) : Prog (World σ) Unit := do
  let known ← Prog.look fun w : World σ => w.rest.memory.ready
  let newlyReady := ready \ known
  (if newlyReady = ∅ then pure ()
  else waits out (out.plugin.dhcpReadyOnPorts (sortedSet newlyReady)))
  Prog.update fun w =>
    { w with rest := { w.rest with memory := { w.rest.memory with ready } } }

/-- `_sync`. -/
def sync : Prog (World σ) Unit := do
  let reply ← waits out out.plugin.getActiveNetworksInfo
  let all ← gather out conf reply.networks {}
  let receipts ← reconciled out conf all.desired
  if receipts.any fun r => !r.ok then Prog.stop
  else do
    Prog.update fun w =>
      { w with
        rest := { w.rest with memory := { w.rest.memory with networkCount := all.desired.length } } }
    report out all.ready

/-- `sync_if_needed`: whether a pass completed, and the world after it. -/
def syncIfNeeded (force : Bool) (w : World σ) : Bool × World σ :=
  Daemon.syncIfNeeded (sync out conf) force w

end

end

end Dhcp

end Bsdbridge
