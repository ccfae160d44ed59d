import Bsdbridge.Daemon
import Bsdbridge.L3Agent.Agent
import Bsdbridge.L3Agent.Reconcile

/-!
# `l3_agent/agent.py` — the agent on its host

The pass of `L3.sync` once more, with its reconcile and the host under it: what the calls of a pass
answer is not given beforehand here, it is what the server and the commands come to.

The two are the same code. `L3Agent/Agent` is enough for what the server is told over runs; what is
loaded at the moment of telling needs the host as well. The reports are made one by one, with a
wait at each, and the memory is replaced after the last of them.
-/

set_option autoImplicit false

namespace Bsdbridge

namespace L3Agent

open L3

/-- What the server casts to the agent. -/
inductive Cast
  | routersUpdated
  | routerDeleted
  | routerAddedToAgent
  | routerRemovedFromAgent
  | networkUpdate
  | agentUpdated
  deriving DecidableEq

/-- `L3PluginApi`. A call that raises stops. -/
structure PluginApi (ε : Type) where
  getRouters : Prog ε (List Rpc.Router)
  updateFloatingipStatuses : String → Statuses → Prog ε Unit

/-- What is outside the agent. -/
structure Outside (σ : Type) extends Daemon.Outside Cast σ where
  plugin : PluginApi (Site σ)

/-- `_counts`. -/
structure Counts where
  routers : Nat := 0
  interfaces : Nat := 0
  floatingIps : Nat := 0

/-- What the passes of `BsdBridgeL3Agent` leave to each other. -/
structure Memory where
  fipStatuses : Dict String Statuses := ∅
  counts : Counts := {}

/-- The agent on its host. -/
abbrev World (σ : Type) := Daemon.World Memory σ

section

variable {σ : Type} (out : Outside σ)

/-- The agent waits for something outside. -/
def waits {α : Type} (p : Prog (Site σ) α) : Prog (World σ) α := Daemon.waits out.toOutside p

/-- `self._reconcile`: the receipts of a reconcile that returns. -/
def reconciled [Hashlib] (statePath : String) (desired : List Router) :
    Prog (World σ) (List (Receipt String)) :=
  Daemon.reconciled out.toOutside fun cmd pause => reconcile cmd pause statePath desired

/-- The report of one router, unless the agent remembers it. -/
def reportOne (e : String × Statuses) : Prog (World σ) Unit := do
  let known ← Prog.look fun w : World σ => w.rest.memory.fipStatuses
  if lastOf known e.1 = e.2 then pure ()
  else waits out (out.plugin.updateFloatingipStatuses e.1 e.2)

/-- The reports, and the new memory of the agent. -/
def report (maps : Dict String Statuses) : Prog (World σ) Unit := do
  maps.entries.forM (reportOne out)
  Prog.update fun w =>
    { w with rest := { w.rest with memory := { w.rest.memory with fipStatuses := maps } } }

def countsOf (desired : List Router) : Counts where
  routers := desired.length
  interfaces := (desired.map fun spec => spec.ports.length).sum
  floatingIps := (desired.map fun spec => spec.floatingIps.length).sum

/-- `_sync`. -/
def sync [Hashlib] (statePath : String) : Prog (World σ) Unit := do
  let routers ← waits out out.plugin.getRouters
  match handled routers with
  | none => Prog.stop
  | some desired => do
      let receipts ← reconciled out statePath desired
      if receipts.any fun r => !r.ok then Prog.stop
      else do
        Prog.update fun w =>
          { w with
            rest := { w.rest with memory := { w.rest.memory with counts := countsOf desired } } }
        report out (statusMaps desired)

/-- `sync_if_needed`: whether a pass completed, and the world after it. -/
def syncIfNeeded [Hashlib] (statePath : String) (force : Bool) (w : World σ) : Bool × World σ :=
  Daemon.syncIfNeeded (sync out statePath) force w

end

end L3Agent

end Bsdbridge
