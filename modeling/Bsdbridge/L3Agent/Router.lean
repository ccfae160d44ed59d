import Bsdbridge.Lib.Ipv4
import Bsdbridge.Files

/-!
# `router.py` — router specs

A router as `sync_routers` sends it, and the spec one such entry reconciles to. What raises on the
way is `none`. A spec's destinations are canonical prefixes: `from_rpc`, which makes them, has
normalised every one.

That is a field of `Router`, so a spec with a destination that a listing would spell differently
cannot be built. Names of interfaces and of the jail are functions of the ids, as in the source;
`pf_text` returns the text together with its digest, which is in the text's own last line.
-/

set_option autoImplicit false

namespace Bsdbridge

namespace Router

def CFG_LABEL : String := "l3-neutron:cfg:"

def DEFAULT_ROUTE : String := "0.0.0.0/0"

/-- A route destination as a canonical IPv4 prefix. -/
def normalizeDestination (text : String) : Option String :=
  if text = "default" then some DEFAULT_ROUTE else (Ipv4.readNetwork false text).map Ipv4.Network.show

/-- A destination spelled canonically. -/
def Canonical (text : String) : Prop := normalizeDestination text = some text

instance (text : String) : Decidable (Canonical text) :=
  inferInstanceAs (Decidable (normalizeDestination text = some text))

theorem canonical_default : Canonical DEFAULT_ROUTE := by decide +kernel

/-- A canonical destination stays as it is. -/
theorem canonical_of_normalizeDestination {text d : String}
    (h : normalizeDestination text = some d) : Canonical d := by
  unfold normalizeDestination at h
  split at h
  · obtain rfl := Option.some.inj h
    decide +kernel
  · obtain ⟨n, hn, rfl⟩ := Option.map_eq_some_iff.mp h
    have hne : n.show ≠ "default" := by
      intro heq
      have hslash : '/' ∈ n.show.toList := by
        unfold Ipv4.Network.show
        simp
      rw [heq] at hslash
      exact absurd hslash (by decide +kernel)
    unfold Canonical normalizeDestination
    rw [if_neg hne, Ipv4.readNetwork_show (Ipv4.readNetwork_normal hn)]
    rfl

end Router

/-- One router port: its addresses and the subnets behind it. -/
structure Port where
  id : String
  mac : String
  ips : List (String × Nat)
  cidrs : List String
  gatewayIp : Option String := none
  deriving DecidableEq

/-- The host-side epair name. -/
def Port.hostIf (p : Port) : String := Names.routerIfName p.id

/-- One floating ip and the fixed address it fronts. -/
structure FloatingIp where
  id : String
  floating : String
  fixed : String
  deriving DecidableEq

/-- One router's desired jail, ports, routes and translation. -/
structure Router where
  id : String
  gateway : Option Port
  interfaces : List Port
  floatingIps : List FloatingIp
  routes : List (String × String)
  enableSnat : Bool := true
  canonical : ∀ r ∈ routes, Router.Canonical r.1

namespace Router

def jail (r : Router) : String := Names.routerJailName r.id

/-- Every port with the gateway first, and whether it is the gateway. -/
def ports (r : Router) : List (Port × Bool) :=
  (r.gateway.toList.map fun p => (p, true)) ++ r.interfaces.map fun p => (p, false)

/-- A port's jail-side interface name. -/
def jailIf (p : Port × Bool) : String := Names.routerJailIfName p.1.id p.2

/-- The addresses one port carries. -/
def portIps (r : Router) (p : Port × Bool) : List (String × Nat) :=
  p.1.ips ++ if p.2 then r.floatingIps.map fun f => (f.floating, 32) else []

/-- Jail interface name to the addresses it carries. -/
def addresses (r : Router) : Dict String (List (String × Nat)) :=
  Dict.ofList (r.ports.map fun p => (jailIf p, r.portIps p))

/-- The gateway routes the jail must carry as (destination, nexthop). -/
def gatewayRoutes (r : Router) : Finset (String × String) :=
  let wanted := match r.gateway.bind Port.gatewayIp with
    | some ip => if ip ≠ "" then [(DEFAULT_ROUTE, ip)] else []
    | none => []
  (wanted ++ r.routes).toFinset

/-- The jail's pf.conf and its cfg hash. -/
def pfText [Hashlib] (r : Router) : Option (String × String) := do
  let lines ← match r.gateway with
    | none => some ["set skip on lo0"]
    | some gateway => do
        let qg := jailIf (gateway, true)
        let binat := r.floatingIps.map fun f =>
          "binat on " ++ qg ++ " inet from " ++ f.fixed ++ " to any -> " ++ f.floating
        let internal := sortedSet (r.interfaces.flatMap Port.cidrs).toFinset
        let nat ← if r.enableSnat && !internal.isEmpty then
            gateway.ips.head?.map fun a => ["nat on " ++ qg ++ " inet from \x7b " ++
              ", ".intercalate internal ++ " \x7d to any -> " ++ a.1]
          else some []
        pure ("set skip on lo0" :: binat ++ nat)
  let cfgHash := Text.take (Hashlib.sha256 ("\n".intercalate lines)) 16
  let pass := "pass quick all label \"" ++ CFG_LABEL ++ cfgHash ++ "\""
  pure ("\n".intercalate (lines ++ [pass]) ++ "\n", cfgHash)

/-- Every wanted destination is canonical, the default one included. -/
theorem canonical_gatewayRoutes {r : Router} {d g : String} (h : (d, g) ∈ r.gatewayRoutes) :
    Canonical d := by
  unfold gatewayRoutes at h
  rw [List.mem_toFinset, List.mem_append] at h
  rcases h with h | h
  · cases hg : r.gateway.bind Port.gatewayIp with
    | none =>
      rw [hg] at h
      exact absurd h List.not_mem_nil
    | some ip =>
      rw [hg] at h
      dsimp only at h
      split at h
      · obtain ⟨rfl, rfl⟩ := Prod.mk.inj (List.mem_singleton.mp h)
        exact canonical_default
      · exact absurd h List.not_mem_nil
  · exact r.canonical (d, g) h

end Router

end Bsdbridge
