import Bsdbridge.Files

/-!
# The loop of the dhcp and the l3 agent

Both agents are a `_sync` and a flag: a cast from the server marks the state dirty, and once a
second the main loop makes a pass if the state is dirty, or if the last forced pass is long past. A
pass that raises is logged and tried again. Every call to the server and every command is a place
where a pass may raise, and one where it waits, and the casts that come in meanwhile are handled
under its feet.

What is outside an agent is a parameter. `Outside` says what each command does to the disk and to a
state of its own, and which casts have come in by then. Casts are a list that grows; those that are
new after a wait are handled before the pass goes on, which is all a green thread can do.

Time is left out. A pass may be forced at any moment, so whatever holds of every run holds of those
in which the forced ones are an interval apart.
-/

set_option autoImplicit false

namespace Bsdbridge

namespace Daemon

/-- What is outside an agent, but for the calls of its server. `κ` are the casts it is sent. -/
structure Outside (κ σ : Type) where
  cmd : Command (Site σ)
  pause : Prog (Site σ) Unit
  /-- What goes on while the agent sleeps. -/
  sleep : Prog (Site σ) Unit
  /-- The casts that have come in. -/
  casts : σ → List κ

/-- An agent and what is outside of it. `memory` is what its passes leave to each other. -/
structure Agent (μ σ : Type) where
  dirty : Bool := true
  failures : Nat := 0
  memory : μ
  outside : σ

/-- The agent on its host. -/
abbrev World (μ σ : Type) := Site (Agent μ σ)

section

variable {κ μ σ : Type}

/-- Every callback marks the state dirty. -/
def Agent.handle (a : Agent μ σ) (_ : κ) : Agent μ σ := { a with dirty := true }

/-- The casts that came in between two states of the outside. -/
def Outside.fresh (out : Outside κ σ) (before after : σ) : List κ :=
  (out.casts after).drop (out.casts before).length

/-- The agent waits for something outside, and handles the casts that come in. -/
def waits {α : Type} (out : Outside κ σ) (p : Prog (Site σ) α) : Prog (World μ σ) α :=
  OptionT.mk fun w =>
    let (answer, s) := Prog.exec p { disk := w.disk, rest := w.rest.outside }
    let agent := (out.fresh w.rest.outside s.rest).foldl Agent.handle w.rest
    (answer, { disk := s.disk, rest := { agent with outside := s.rest } })

/-- The receipts of a reconcile that returns: `self._reconcile` with the agent's runner. -/
def reconciled (out : Outside κ σ)
    (reconcile : Command (World μ σ) → Prog (World μ σ) Unit → Prog (Pass (World μ σ)) Unit) :
    Prog (World μ σ) (List (Receipt String)) := OptionT.mk fun w =>
  let (returned, t) :=
    Prog.exec (reconcile (fun argv => waits out (out.cmd argv)) (waits out out.pause)) { env := w }
  (returned.map fun _ => t.receipts, t.env)

/-- `_retry`, less its sleep. -/
def retry (w : World μ σ) : World μ σ :=
  { w with rest := { w.rest with dirty := true, failures := w.rest.failures + 1 } }

/-- `sync_if_needed`: whether a pass completed, and the world after it. -/
def syncIfNeeded (sync : Prog (World μ σ) Unit) (force : Bool) (w : World μ σ) : Bool × World μ σ :=
  if w.rest.dirty || force then
    match Prog.exec sync { w with rest := { w.rest with dirty := false } } with
    | (some _, w') => (true, { w' with rest := { w'.rest with failures := 0 } })
    | (none, w') => (false, retry w')
  else (false, w)

/-- The agent of a new process. -/
def fresh (memory : μ) (disk : Disk) (outside : σ) : World μ σ :=
  { disk, rest := { memory, outside } }

end

end Daemon

end Bsdbridge
