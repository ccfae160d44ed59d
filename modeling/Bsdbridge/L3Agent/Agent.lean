import Bsdbridge.L3Agent.Rpc

/-!
# `l3_agent/agent.py` — `_sync` and its reports

A pass fetches the routers, reconciles them, and reports the statuses of their floating ips. It
talks to the server, and any of its calls may raise; a pass that raises is over, and the agent is
dirty again. Next to the agent runs what the server was delivered: the last status map of each
router. A dictionary is compared as the set of its items.

What a call answers is given beforehand here (`Calls`), one answer for each call a pass can make,
as the statements about this module quantify over them. Where the answers come from a host and a
server that change under the agent, the same pass is written as a program in `L3Agent/Sync`.
-/

set_option autoImplicit false

namespace Bsdbridge

namespace L3

/-- `FLOATINGIP_STATUS_ACTIVE` and `FLOATINGIP_STATUS_ERROR`. -/
inductive FipStatus
  | active
  | error
  deriving DecidableEq

/-- A status map, by floating ip. -/
abbrev Statuses := Finset (String × FipStatus)

/-- `BsdBridgeL3Agent`: what its passes share. -/
structure Agent where
  dirty : Bool := true
  fipStatuses : Dict String Statuses := ∅

/-- What becomes of a report: it returns, or it raises, delivered or not. -/
inductive Outcome
  | returned
  | raised (delivered : Bool)
  deriving DecidableEq

/-- What the calls of a pass answer. -/
structure Calls where
  /-- `get_routers`; none raises. -/
  routers : Option (List Rpc.Router)
  /-- Whether the reconcile returns without failed receipts. -/
  reconciled : Bool := true
  /-- The report of a router. -/
  report : String → Outcome := fun _ => .returned

/-- The routers a pass handles: `distributed` and `ha` routers are skipped. -/
def handled (routers : List Rpc.Router) : Option (List Router) :=
  (routers.filter fun r => !(r.distributed || r.ha)).mapM Router.fromRpc

/-- The statuses of a router's floating ips. -/
def statuses (spec : Router) : Statuses :=
  let status := if spec.gateway.isSome then FipStatus.active else .error
  (spec.floatingIps.map fun fip => (fip.id, status)).toFinset

/-- `fip_statuses`: the map of each router handled. -/
def statusMaps (desired : List Router) : Dict String Statuses :=
  Dict.ofList (desired.map fun spec => (spec.id, statuses spec))

/-- The map of a router, where one never reported has the empty one. -/
def lastOf (maps : Dict String Statuses) (routerId : String) : Statuses :=
  (maps.get? routerId).getD ∅

/-- The agent, and the last map delivered for each router. -/
structure World where
  agent : Agent := {}
  delivered : Dict String Statuses := ∅

/-- The reports, in order; none once one has raised. -/
def reportFrom (memory : Dict String Statuses) (report : String → Outcome) :
    List (String × Statuses) → Dict String Statuses → Bool × Dict String Statuses
  | [], delivered => (true, delivered)
  | (routerId, m) :: rest, delivered =>
      if lastOf memory routerId = m then reportFrom memory report rest delivered
      else
        match report routerId with
        | .returned => reportFrom memory report rest (delivered.insert routerId m)
        | .raised true => (false, delivered.insert routerId m)
        | .raised false => (false, delivered)

/-- `_retry`. -/
def Agent.retry (a : Agent) : Agent := { a with dirty := true }

/-- One pass; whether it completed, and the world after it. -/
def sync (calls : Calls) (w : World) : Bool × World :=
  match calls.routers.bind handled with
  | none => (false, { w with agent := w.agent.retry })
  | some desired =>
      if !calls.reconciled then (false, { w with agent := w.agent.retry })
      else
        let maps := statusMaps desired
        -- the server marks any fip left out of a router's report DOWN, so a router whose last
        -- fip went away reports an empty map once
        match reportFrom w.agent.fipStatuses calls.report maps.entries w.delivered with
        | (true, delivered) => (true, { agent := { w.agent with fipStatuses := maps }, delivered })
        | (false, delivered) => (false, { agent := w.agent.retry, delivered })

/-- `sync_if_needed`: whether a pass completed, and the world after it. -/
def syncIfNeeded (force : Bool) (calls : Calls) (w : World) : Bool × World :=
  if w.agent.dirty || force then sync calls { w with agent := { w.agent with dirty := false } }
  else (false, w)

end L3

end Bsdbridge
