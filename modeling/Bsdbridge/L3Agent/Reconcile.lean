import Bsdbridge.L3Agent.Router

/-!
# `l3_agent/reconcile.py` — router jails, epairs, addresses, routes and pf

One pass over the desired routers, then the collection of what is left over.

For each router: its jail and forwarding, an epair for each of its ports, their addresses, its
routes, and its pf rules. Routes wait until every port is complete, since a route needs its
interface; the rules do not wait. They are written in any case, and loaded when the digest in the
label of those that are loaded is not that of the router's text. A router whose jail cannot be made
is passed over.
-/

set_option autoImplicit false

namespace Bsdbridge

namespace L3

open Actions Regex

def FORWARDING : String := "net.inet.ip.forwarding"

def JAIL_RE : Regex := cat [lit "qrouter-", times 12 Ifconfig.lowerHex, .atEnd]

def CFG_RE : Regex :=
  cat [lit "label \"l3-neutron:cfg:", .group "hash" (times 16 Ifconfig.lowerHex), lit "\""]

def ROUTE_RE : Regex := cat
  [.group "dest" (some1 nonSpace), some1 space,
   .group "gw" (cat [some1 digit, lit ".", some1 digit, lit ".", some1 digit, lit ".", some1 digit]),
   some1 space, .group "flags" (some1 nonSpace)]

/-- `PF_ENABLED_RE.search(out)`. -/
def pfEnabled (out : String) : Bool :=
  (Text.splitOn out '\n').any fun line => Text.startsWith line "Status: Enabled"

/-- The gateway route a line of netstat(1) shows, if it shows one. -/
def gatewayRoute (line : String) : Option (String × String) :=
  match matchStart ROUTE_RE line with
  | none => none
  | some m =>
      if Text.hasChar (Ifconfig.textOf m "flags") 'G' then
        some (Ifconfig.textOf m "dest", Ifconfig.textOf m "gw")
      else none

/-- Parse netstat -rn -f inet output into the (destination, nexthop) set. -/
def parseRoutes (text : String) : Option (Finset (String × String)) :=
  (((Text.splitLines text).filterMap gatewayRoute).mapM fun e =>
    (Router.normalizeDestination e.1).map fun d => (d, e.2)).map List.toFinset

/-- A destination as route(8) spells it. -/
def routeArg (destination : String) : String :=
  if destination = Router.DEFAULT_ROUTE then "default" else destination

section

variable {ρ : Type} (cmd : Command (Site ρ)) (pause : Prog (Site ρ) Unit)

def forwarding (rtr : Router) : Prog (Pass (Site ρ)) Unit := do
  let r ← run cmd [JEXEC, rtr.jail, SYSCTL, "-n", FORWARDING]
  actIf cmd (!r.ok || Text.strip r.out ≠ "1") "EnableForwarding"
    [JEXEC, rtr.jail, SYSCTL, FORWARDING ++ "=1"]

/-- One port; false where it is not complete. -/
def port (rtr : Router) (p : Port × Bool) : Prog (Pass (Site ρ)) Bool := do
  let jailIf := Router.jailIf p
  match ← Jail.ensureEpair cmd rtr.jail p.1.hostIf jailIf p.1.id L3_GROUP with
  | none => pure false
  | some text => do
      Jail.ensureAddrs cmd rtr.jail jailIf text p.1.mac ((rtr.addresses.get? jailIf).getD [])
      pure true

/-- The ports, in order; false where one of them is not complete. -/
def portsFrom (rtr : Router) : List (Port × Bool) → Prog (Pass (Site ρ)) Bool
  | [] => pure true
  | p :: rest => do
      let ok ← port cmd rtr p
      let complete ← portsFrom rtr rest
      pure (ok && complete)

def deleteRoutes (rtr : Router) (l : List (Lex (String × String))) : Prog (Pass (Site ρ)) Unit :=
  l.forM fun e => act cmd "DeleteRoute"
    [JEXEC, rtr.jail, ROUTE, "-n", "delete", routeArg (ofLex e).1]

def addRoutes (rtr : Router) (l : List (Lex (String × String))) : Prog (Pass (Site ρ)) Unit :=
  l.forM fun e => act cmd "AddRoute"
    [JEXEC, rtr.jail, ROUTE, "-n", "add", routeArg (ofLex e).1, (ofLex e).2]

/-- Bring the gateway routes to the wanted ones. -/
def routes (rtr : Router) : Prog (Pass (Site ρ)) Unit := do
  let r ← run cmd [JEXEC, rtr.jail, NETSTAT, "-rn", "-f", "inet"]
  match if r.ok then parseRoutes r.out else some ∅ with
  | none => Prog.stop
  | some have_ => do
      let wanted := rtr.gatewayRoutes
      deleteRoutes cmd rtr (sortedSet ((have_ \ wanted).image toLex))
      addRoutes cmd rtr (sortedSet ((wanted \ have_).image toLex))

/-- The text of the jail's pf.conf. -/
def writePf (rtr : Router) (text cfgHash : String) : Prog (Pass (Site ρ)) Unit := do
  if ← Files.writeIfChanged pause rtr.id "pf.conf" text then
    note "WritePf" (rtr.id ++ ": " ++ cfgHash)
  else pure ()

/-- The hash of the loaded rules. -/
def loadedHash (r : RunResult) : Option String :=
  if r.ok then (search CFG_RE r.out).bind fun m => groupOf m "hash" else none

/-- Enable pf once, and load it on a changed hash. -/
def pf [Hashlib] (base : String) (rtr : Router) : Prog (Pass (Site ρ)) Unit :=
  match rtr.pfText with
  | none => Prog.stop
  | some (text, cfgHash) => do
      let path := pathJoin (pathJoin (pathJoin base "l3") rtr.id) "pf.conf"
      writePf pause rtr text cfgHash
      let status ← run cmd [JEXEC, rtr.jail, PFCTL, "-si"]
      actIf cmd (!status.ok || !pfEnabled status.out) "EnablePf" [JEXEC, rtr.jail, PFCTL, "-e"]
      let rules ← run cmd [JEXEC, rtr.jail, PFCTL, "-sr"]
      actIf cmd (loadedHash rules ≠ some cfgHash) "LoadPf" [JEXEC, rtr.jail, PFCTL, "-f", path]

/-- A router up to its ports, and whether they are complete; `none` is the `continue` of a jail
that cannot be made. -/
def upToPorts (rtr : Router) : Prog (Pass (Site ρ)) (Option Bool) := do
  Files.makedirs pause rtr.id
  if ← Jail.ensureJail cmd rtr.jail then do
    forwarding cmd rtr
    let complete ← portsFrom cmd rtr rtr.ports
    pure (some complete)
  else pure none

/-- The routes and pf of a router whose ports were gone through. -/
def afterPorts [Hashlib] (base : String) (rtr : Router) (complete : Bool) :
    Prog (Pass (Site ρ)) Unit := do
  -- a route needs its interface, so only once every port exists
  (if complete then routes cmd rtr else pure ())
  pf cmd pause base rtr

/-- One router. -/
def router [Hashlib] (base : String) (rtr : Router) : Prog (Pass (Site ρ)) Unit := do
  match ← upToPorts cmd pause rtr with
  | some complete => afterPorts cmd pause base rtr complete
  | none => pure ()

/-- What is there before the pass. -/
def opening : Prog (Pass (Site ρ)) Unit := do
  let jails ← Jail.listJails cmd JAIL_RE
  let l3Ifs ← Jail.listGroup cmd L3_GROUP
  Prog.update fun t => { t with jails := jails.toFinset, hostIfs := l3Ifs.toFinset }

def desiredJails (desired : List Router) : Finset String := (desired.map Router.jail).toFinset

def desiredIfs (desired : List Router) : Finset String :=
  (desired.flatMap fun rtr => rtr.ports.map fun p => p.1.hostIf).toFinset

/-- What nobody desires: processes, then epairs, then jails, then state directories. -/
def gc (desired : List Router) : Prog (Pass (Site ρ)) Unit := do
  Jail.collect cmd (desiredJails desired) (desiredIfs desired)
  Files.removeState pause (desired.map Router.id).toFinset

/-- Reconcile the l3 plane to a list of Router specs. -/
def reconcile [Hashlib] (base : String) (desired : List Router) : Prog (Pass (Site ρ)) Unit := do
  opening cmd
  desired.forM (router cmd pause base)
  gc cmd pause desired

end

end L3

end Bsdbridge
