import Bsdbridge.L2Agent.PortConfig
import Bsdbridge.L2Agent.Reconcile

/-!
# `l2_agent/agent.py` — `_sync` and its callbacks

The agent runs one pass at a time on green threads: a callback runs only while the pass waits for a
command or an RPC. So a pass is a sequence of atomic steps, one from each yield point to the next,
and between two of them any callbacks may run. `Pc` is the point a pass waits at, with the local
variables that are live there; `step` is what it does when the answer comes. The commands of the
service scan, and those of the reconcile, touch nothing of the agent, so each counts as one wait.

An exception anywhere ends the pass (`raised`, and a build or a reconcile that fails), and
`sync_if_needed` marks the agent dirty again.

The answers are events. What the server replies, what a scan finds and what a reconcile comes to is
brought in from outside and may be anything of its type; what makes sense of it (that a reply
mentions each device once, that a reconcile is the one of the config) is for a statement to ask. In
that way `run` has every interleaving of callbacks with a pass, and `life` every sequence of
passes, forced or not, with callbacks between them.

Logging is left out, and so are the fields of a reply that no step reads.
-/

set_option autoImplicit false

namespace Bsdbridge

/-- An unresolved candidate retries at loop speed, then on full syncs, then drops. -/
def FAST_RETRY_MISSES : Nat := 10

def BINDING_MISS_LIMIT : Nat := 60

/-- `BsdBridgeAgent`: what its callbacks and its passes share. -/
structure Agent where
  candidates : Finset String := ∅
  misses : Dict String Nat := ∅
  dirty : Bool := true
  devicesUp : Finset String := ∅
  deriving DecidableEq

/-! ## Callbacks -/

/-- The RPC callbacks, with the port id they are given. -/
inductive Callback
  | portUpdate (id : Option String)
  | portDelete (portId : Option String)
  | bindingActivate (portId : Option String)
  /-- `network_update`, the security group updates and `binding_deactivate`. -/
  | notify
  deriving DecidableEq

namespace Agent

/-- Track the port and mark state dirty. -/
def track (a : Agent) (id : Option String) : Agent :=
  { a with
    candidates := match truthy id with
      | some p => insert p a.candidates
      | none => a.candidates
    dirty := true }

/-- Drop the port and mark state dirty. -/
def portDelete (a : Agent) (portId : Option String) : Agent :=
  match truthy portId with
  | some p =>
      { a with candidates := a.candidates.erase p, misses := a.misses.erase p, dirty := true }
  | none => { a with dirty := true }

def callback (a : Agent) : Callback → Agent
  | .portUpdate id => a.track id
  | .portDelete id => a.portDelete id
  | .bindingActivate id => a.track id
  | .notify => { a with dirty := true }

/-- `_retry`. -/
def retry (a : Agent) : Agent := { a with dirty := true }

end Agent

/-! ## The details reply

The loop of `_sync` over the reply, with the miss counter. A failed device is one more entry
without details. -/

/-- An entry of the reply: an entry without a port_id is a bind still in flight. -/
inductive Entry
  | bound (details : PortDetails)
  | unbound (device : Option String)
  deriving DecidableEq

/-- `get_devices_details_list_and_failed_devices`. -/
structure Reply where
  devices : List Entry := []
  failedDevices : List String := []
  deriving DecidableEq

/-- A reply being read: the agent, the resolved details and the pending devices. -/
structure Intake where
  agent : Agent
  details : List PortDetails := []
  pending : Finset String := ∅
  deriving DecidableEq

namespace Intake

/-- Count a miss for a candidate, dropping it at the limit. -/
def miss (st : Intake) (device : String) : Intake :=
  let count := (st.agent.misses.get? device).getD 0 + 1
  if BINDING_MISS_LIMIT ≤ count then
    { st with agent := { st.agent with
        candidates := st.agent.candidates.erase device
        misses := st.agent.misses.erase device } }
  else
    { st with
      agent := { st.agent with misses := st.agent.misses.insert device count }
      pending := insert device st.pending }

def entry (st : Intake) : Entry → Intake
  | .bound d =>
      { st with
        agent := { st.agent with misses := st.agent.misses.erase d.portId }
        details := st.details ++ [d] }
  | .unbound (some device) => st.miss device
  | .unbound none => st

end Intake

/-- Read a reply. -/
def Agent.receive (a : Agent) (reply : Reply) : Intake :=
  reply.failedDevices.foldl Intake.miss (reply.devices.foldl Intake.entry { agent := a })

/-! ## A pass -/

/-- The locals of a pass once its details are in. -/
structure Work where
  /-- `devices`: the snapshot the server was asked about. -/
  devices : List String
  details : List PortDetails
  pending : Finset String
  deriving DecidableEq

/-- `our_devices`. -/
def Work.ourDevices (w : Work) : List String := w.details.map (·.portId)

/-- Where a pass waits. -/
inductive Pc
  /-- For the service interface scan. -/
  | scanning
  /-- For the details of the devices. -/
  | fetching (devices : List String)
  /-- For the security groups of the resolved devices. -/
  | fetchingGroups (work : Work)
  /-- For the commands of the reconcile. -/
  | reconciling (work : Work) (config : Config) (rendered : List String)
  /-- For the device report. -/
  | reporting (work : Work) (nowUp : Finset String)
  | done (work : Work)
  | aborted

structure State where
  agent : Agent
  pc : Pc

/-- What a waiting pass is answered, or a callback that runs while it waits. -/
inductive Event
  | callback (c : Callback)
  | scanned (found : Finset String)
  | details (reply : Reply)
  | groups (info : SgInfo)
  | reconciled (result : Reconcile.Result)
  | reported
  | raised

namespace Sync

/-- `sync_if_needed`: a pass starts on a clean agent. -/
def start (a : Agent) : State := ⟨{ a with dirty := false }, .scanning⟩

/-- The names a note says are still awaiting their attach. -/
def waiting (notes : List String) : List String :=
  (notes.filter fun n => decide ("awaiting-attach".toList <:+: n.toList)).map fun n =>
    (Text.partition n ':').1

/-- A member still awaiting-attach is not up. -/
def nowUp (rendered notes : List String) : Finset String :=
  (rendered.filter fun d => decide (Names.tapName d ∉ waiting notes ∧
    Names.dhcpIfName d ∉ waiting notes ∧ Names.routerIfName d ∉ waiting notes)).toFinset

/-- The end of a pass: keep candidates that arrived while the RPC calls yielded, or a port
announced mid-sync is silently orphaned. -/
def finish (a : Agent) (w : Work) (up : Finset String) : Agent :=
  { a with
    devicesUp := up
    candidates := w.ourDevices.toFinset ∪ (a.candidates ∩ up) ∪ w.pending ∪
      (a.candidates \ w.devices.toFinset)
    dirty := a.dirty ||
      decide (∃ d ∈ w.pending, (a.misses.get? d).getD 0 ≤ FAST_RETRY_MISSES) }

section

variable [Hashlib] (mappings : Dict String String)

/-- Build, up to the first command of the reconcile. -/
def desire (a : Agent) (w : Work) (info : SgInfo) : State :=
  match PortConfig.build w.details info mappings with
  | .ok (config, rendered) => ⟨a, .reconciling w config rendered⟩
  | .error _ => ⟨a.retry, .aborted⟩

/-- The security groups are fetched when there is a resolved device. -/
def resolve (a : Agent) (w : Work) : State :=
  if w.details = [] then desire mappings a w {} else ⟨a, .fetchingGroups w⟩

/-- The snapshot: the details are fetched when there is a device. -/
def snapshot (a : Agent) (found : Finset String) : State :=
  let a := { a with candidates := a.candidates ∪ found }
  if a.candidates = ∅ then resolve mappings a ⟨[], [], ∅⟩
  else ⟨a, .fetching (sortedSet a.candidates)⟩

/-- The reply is in. -/
def received (a : Agent) (devices : List String) (reply : Reply) : State :=
  let st := a.receive reply
  resolve mappings st.agent ⟨devices, st.details, st.pending⟩

/-- The reconcile is through; the report is sent when there is something to say. -/
def settle (a : Agent) (w : Work) (rendered : List String) (result : Reconcile.Result) : State :=
  if result.failed ≠ [] then ⟨a.retry, .aborted⟩
  else
    let up := nowUp rendered result.plan.notes
    if up ≠ ∅ ∨ a.devicesUp \ up ≠ ∅ then ⟨a, .reporting w up⟩
    else ⟨finish a w up, .done w⟩

/-- One atomic step. A pass that ended takes none. -/
def step (s : State) (e : Event) : Option State :=
  match s.pc, e with
  | .done _, _ | .aborted, _ => none
  | pc, .callback c => some ⟨s.agent.callback c, pc⟩
  | _, .raised => some ⟨s.agent.retry, .aborted⟩
  | .scanning, .scanned found => some (snapshot mappings s.agent found)
  | .fetching devices, .details reply => some (received mappings s.agent devices reply)
  | .fetchingGroups w, .groups info => some (desire mappings s.agent w info)
  | .reconciling w _ rendered, .reconciled result => some (settle s.agent w rendered result)
  | .reporting w up, .reported => some ⟨finish s.agent w up, .done w⟩
  | _, _ => none

/-- A run of steps. -/
def run (s : State) (evs : List Event) : Option State := evs.foldlM (step mappings) s

/-! ## Pass after pass -/

/-- A step of the daemon: a pass begins, or something happens to the agent. -/
inductive Tick
  | sync
  | event (e : Event)

/-- The agent as it is made, from the candidates it recovers. No pass is under way. -/
def boot (recovered : Finset String) : State := ⟨{ candidates := recovered }, .aborted⟩

/-- The daemon calls `sync_if_needed` in a loop, now and then forced, so a pass may begin whenever
none is under way; a callback may run then too. -/
def tick (s : State) (t : Tick) : Option State :=
  match s.pc, t with
  | .done _, .sync | .aborted, .sync => some (start s.agent)
  | _, .sync => none
  | .done w, .event (.callback c) => some ⟨s.agent.callback c, .done w⟩
  | .aborted, .event (.callback c) => some ⟨s.agent.callback c, .aborted⟩
  | _, .event e => step mappings s e

/-- A run of the daemon. -/
def life (s : State) (ticks : List Tick) : Option State := ticks.foldlM (tick mappings) s

end

end Sync

end Bsdbridge
