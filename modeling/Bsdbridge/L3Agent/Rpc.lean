import Bsdbridge.L3Agent.Router

/-!
# `router.py` — specs from RPC

The dictionaries of a `sync_routers` reply, as far as a spec is built from them, and the building.
A key that may be absent is an `Option`. What raises is `none`: a destination or a cidr that does
not parse.
-/

set_option autoImplicit false

namespace Bsdbridge

namespace Rpc

structure Subnet where
  id : String
  cidr : String
  gatewayIp : Option String := none

structure FixedIp where
  subnetId : String
  ipAddress : String

structure Port where
  id : String
  macAddress : String
  subnets : List Subnet := []
  fixedIps : List FixedIp := []

structure FloatingIp where
  id : String
  floatingIpAddress : String
  fixedIpAddress : Option String := none

structure Router where
  id : String
  distributed : Bool := false
  ha : Bool := false
  gwPort : Option Port := none
  interfaces : List Port := []
  floatingips : List FloatingIp := []
  routes : List (String × String) := []
  enableSnat : Option Bool := none
  /-- `enable_snat` of `external_gateway_info`. -/
  gatewaySnat : Option Bool := none

end Rpc

namespace Router

/-- `int(cidr.split("/")[1])`. No cidr has a negative prefix length. -/
def cidrPrefixlen (cidr : String) : Option Nat :=
  match Text.splitOn cidr '/' with
  | _ :: len :: _ => (Text.readInt len).bind Int.toNat?
  | _ => none

/-- The fixed ips that are in a known subnet, and IPv4. -/
def fixedIpv4 (p : Rpc.Port) : List (Rpc.FixedIp × Rpc.Subnet) :=
  let subnets := Dict.ofList (p.subnets.map fun s => (s.id, s))
  p.fixedIps.filterMap fun fixed =>
    (subnets.get? fixed.subnetId).bind fun subnet =>
      if Text.hasChar fixed.ipAddress ':' then none else some (fixed, subnet)

/-- Build a port, or none without an IPv4 address. -/
def portFromRpc (p : Rpc.Port) : Option (Option Port) := do
  let ips ← (fixedIpv4 p).mapM fun e => (cidrPrefixlen e.2.cidr).map fun n => (e.1.ipAddress, n)
  if ips = [] then pure none
  else
    let subnets := (Dict.ofList (p.subnets.map fun s => (s.id, s))).values
    pure (some
      { id := p.id
        mac := String.ofList (p.macAddress.toList.map Char.toLower)
        ips
        cidrs := (sortedBy Rpc.Subnet.cidr (subnets.filter fun s => !Text.hasChar s.cidr ':')).map
          Rpc.Subnet.cidr
        gatewayIp := (fixedIpv4 p).findSome? fun e => e.2.gatewayIp })

/-- The floating ips that front an IPv4 address. -/
def floatingFromRpc (fips : List Rpc.FloatingIp) : List FloatingIp :=
  sortedBy FloatingIp.floating (fips.filterMap fun fip =>
    match fip.fixedIpAddress with
    | none => none
    | some fixed =>
        if fixed = "" || Text.hasChar fip.floatingIpAddress ':' then none
        else some { id := fip.id, floating := fip.floatingIpAddress, fixed })

/-- The IPv4 routes, their destinations normalised. -/
def routesFromRpc (routes : List (String × String)) : Option (List (String × String)) :=
  (routes.filter fun r => !(Text.hasChar r.1 ':' || Text.hasChar r.2 ':')).mapM fun r =>
    (normalizeDestination r.1).map fun d => (d, r.2)

theorem canonical_routesFromRpc {routes rs : List (String × String)}
    (h : routesFromRpc routes = some rs) : ∀ r ∈ sortedBy toLex rs, Canonical r.1 := by
  intro r hr
  obtain ⟨a, -, ha⟩ := Option.exists_of_mem_mapM h (mem_sortedBy.mp hr)
  obtain ⟨d, hd, rfl⟩ := Option.map_eq_some_iff.mp ha
  exact canonical_of_normalizeDestination hd

/-- Build the spec one `sync_routers` entry reconciles to. -/
def fromRpc (r : Rpc.Router) : Option Router := do
  let gateway ← match r.gwPort with
    | some p => portFromRpc p
    | none => some none
  let interfaces ← r.interfaces.mapM portFromRpc
  match h : routesFromRpc r.routes with
  | none => none
  | some rs =>
      some
        { id := r.id
          gateway
          interfaces := sortedBy Port.id interfaces.reduceOption
          floatingIps := floatingFromRpc r.floatingips
          routes := sortedBy toLex rs
          enableSnat := r.enableSnat.getD (r.gatewaySnat.getD true)
          canonical := canonical_routesFromRpc h }

end Router

end Bsdbridge
