import Bsdbridge.L2Agent.Plan

/-!
# `l2_agent/writer.py` — applying a plan

Each op becomes one invocation, or a few, of a runner; the runner answers, and the answer becomes
the op's receipt. What the commands do is the runner's affair (its state `σ`), so the same writer
runs against a scripted pattern of failures and against a host.

Some ops are more than their command. A lock is three commands, run until one fails. A destroy asks
the kernel first whether the interface still carries the agent's group; it is refused if not, and
parked if the command blocks. A flush is judged by a listing afterwards, since pfctl(8) may flush
and exit nonzero. A load that succeeds kills the states of its interface, and the commands that do
so do not count for its receipt.

The writer does not look at receipts. It goes through the ops of a plan and keeps what each
answered, whatever came before.
-/

set_option autoImplicit false

namespace Bsdbridge

/-- Destroying a held tap blocks in the ioctl until the holder exits. -/
def DESTROY_TIMEOUT : Nat := 5

/-- The invocation an op maps to. -/
def argvFor : Op → Argv
  | .createBridge name maxaddr =>
      [IFCONFIG, "bridge", "create", "name", name, "group", OWNED_GROUP, "maxaddr",
        toString maxaddr, "up"]
  | .createVlan name parent vid =>
      [IFCONFIG, "vlan", "create", "vlandev", parent, "vlan", toString vid, "name", name,
        "group", OWNED_GROUP, "up"]
  | .createVxlan name vni local_ peer =>
      [IFCONFIG, "vxlan", "create", "vxlanid", toString vni, "vxlanlocal", local_,
        "vxlanremote", peer, "name", name, "group", OWNED_GROUP, "up"]
  | .createTap name description =>
      [IFCONFIG, "tap", "create", "name", name] ++
        (if description = "" then [] else ["descr", description]) ++
        ["group", OWNED_GROUP, "up"]
  | .addMember bridge member => [IFCONFIG, bridge, "addm", member]
  | .removeMember bridge member => [IFCONFIG, bridge, "deletem", member]
  | .setMaxaddr bridge maxaddr => [IFCONFIG, bridge, "maxaddr", toString maxaddr]
  | .destroyIface name | .destroyBridge name => [IFCONFIG, name, "destroy"]
  | .loadAnchor ifname _ _ _ => [PFCTL, "-a", Pf.anchorName ifname, "-f", "-"]
  | .replaceTable ifname table members =>
      if members = [] then [PFCTL, "-a", Pf.anchorName ifname, "-t", table, "-T", "flush"]
      else [PFCTL, "-a", Pf.anchorName ifname, "-t", table, "-T", "replace"] ++ members
  | .flushAnchor ifname => [PFCTL, "-a", Pf.anchorName ifname, "-F", "all"]
  -- first of the three invocations `apply` runs
  | .lockMemberMac bridge member mac => [IFCONFIG, bridge, "static", member, mac]

/-- The three invocations of a lock, in order. -/
def lockArgvs (bridge member mac : String) : List Argv :=
  [[IFCONFIG, bridge, "static", member, mac], [IFCONFIG, bridge, "ifmaxaddr", member, "1"],
    [IFCONFIG, bridge, "sticky", member]]

namespace Writer

section

variable {σ : Type} (run : Runner σ)

/-- Whether the kernel marks an interface owned, or `none` if it is absent. -/
def ownedByKernel (name : String) : StateM σ (Option Bool) := do
  let r ← run [IFCONFIG, name] none none
  if r.ok then pure (some (((Ifconfig.parse r.out).get? name).any Interface.isOwned))
  else pure none

/-- The receipt of an invocation that may simply fail. -/
def receiptOf (op : Op) (argv : Argv) (r : RunResult) : Receipt Op :=
  if r.ok then { op, argv, executed := true, ok := true }
  else { op, argv, executed := true, ok := false, note := Text.strip r.err }

/-- Run the invocations of a lock until one fails. -/
def runLock (op : Op) (first : Argv) : List Argv → StateM σ (Receipt Op)
  | [] => pure { op, argv := first, executed := true, ok := true,
                 note := "static + ifmaxaddr 1 + sticky" }
  | extra :: rest => do
      let r ← run extra none none
      if r.ok then runLock op first rest else pure (receiptOf op extra r)

/-- Apply one op, executing it, and return its receipt. -/
def execute (op : Op) : StateM σ (Receipt Op) := do
  let argv := argvFor op
  match op with
  | .lockMemberMac bridge member mac => runLock run op argv (lockArgvs bridge member mac)
  | .flushAnchor ifname =>
      -- pfctl -F can exit nonzero after flushing so re-read instead
      let _ ← run argv none none
      let _ ← Pf.killPortStates ifname run
      let r ← run [PFCTL, "-a", Pf.anchorName ifname, "-sr"] none none
      if !r.ok || Text.strip r.out = "" then
        pure { op, argv, executed := true, ok := true }
      else
        pure { op, argv, executed := true, ok := false,
               note := "anchor still has content after flush" }
  | .loadAnchor ifname _ ruleset cfgHash =>
      let r ← run argv none (some ruleset.text)
      if r.ok then
        -- rule changes never touch established states
        let killed ← Pf.killPortStates ifname run
        pure { op, argv, executed := true, ok := true,
               note := s!"cfg:{cfgHash}, {killed} state(s) killed" }
      else pure (receiptOf op argv r)
  | .destroyIface name | .destroyBridge name =>
      -- re-check against the kernel, not the plan, before the one irreversible op
      match ← ownedByKernel run name with
      | none => pure { op, argv, executed := false, ok := true, note := "already absent" }
      | some false =>
          pure { op, argv, executed := false, ok := false,
                 note := s!"REFUSED: kernel does not mark {name} as owned" }
      | some true =>
          let r ← run argv (some DESTROY_TIMEOUT) none
          if r.rc = .timeout then
            pure { op, argv, executed := true, ok := false, parked := true,
                   note := "destroy blocked (interface held open)" }
          else pure (receiptOf op argv r)
  | _ =>
      let r ← run argv none none
      pure (receiptOf op argv r)

/-- Apply one op and return its receipt. -/
def apply (dryRun : Bool) (op : Op) : StateM σ (Receipt Op) :=
  if dryRun then pure { op, argv := argvFor op, executed := false, ok := true }
  else execute run op

/-- Apply every op in plan order without stopping early. -/
def applyPlan (dryRun : Bool) (plan : Plan) : StateM σ (List (Receipt Op)) :=
  plan.ops.mapM (apply run dryRun)

end

end Writer

end Bsdbridge
