import Bsdbridge.L2Agent.Writer

/-!
# `l2_agent/reconcile.py` — one pass

Read the kernel and the anchors, diff, apply. The readers are the caller's, as in the source.

A pass that refuses its config has issued no op: the exception of the planner comes before the
writer. One that returns has applied its whole plan, and its `Result` keeps the receipts. Which of
them make the pass fail is decided there: a receipt that is neither ok nor parked.
-/

set_option autoImplicit false

namespace Bsdbridge

namespace Reconcile

/-- Every interface name the config claims: uplinks too, or attached hardware reads as
awaiting-attach. -/
def namesToCheck (config : Config) : Except PlanExc (List String) := do
  let claims ← config.bridge.entries.mapM fun e => do
    let ups ← Planner.uplinkNames e.1 e.2 config
    pure (e.2.member.keys ++ ups)
  pure (config.bridge.keys ++ claims.flatten)

/-- One reconcile pass: the plan, its receipts, and the kernel it saw. -/
structure Result where
  plan : Plan
  receipts : List (Receipt Op)
  kernel : KernelInterfaces

/-- Whether every receipt reported ok. -/
def Result.reconciled (r : Result) : Bool := r.receipts.all (·.ok)

/-- The parked receipts. -/
def Result.parked (r : Result) : List (Receipt Op) := r.receipts.filter (·.parked)

/-- The receipts that failed outright. -/
def Result.failed (r : Result) : List (Receipt Op) :=
  r.receipts.filter fun x => !x.ok && !x.parked

/-- The interfaces whose anchors a pass must look at. -/
def pfScope (config : Config) (kernel : KernelInterfaces) : Finset String :=
  (Planner.policied config).toFinset ∪ (kernel.owned.filter fun n =>
    (kernel.interfaces.get? n).any fun i => !i.isBridge).toFinset

/-- Run one pass that reads the kernel, diffs, applies the plan. -/
def reconcile [Hashlib] {σ : Type} (run : Runner σ) (dryRun : Bool)
    (reader : List String → StateM σ KernelInterfaces)
    (pfReader : List String → StateM σ (Option PfState)) (config : Config) :
    StateM σ (Except PlanExc Result) :=
  match namesToCheck config with
  | .error e => pure (.error e)
  | .ok names => do
      let kernel ← reader names
      let pfState ← pfReader (sortedSet (pfScope config kernel))
      match Planner.diff config kernel pfState with
      | .error e => pure (.error e)
      | .ok plan => do
          let receipts ← Writer.applyPlan run dryRun plan
          pure (.ok { plan, receipts, kernel })

end Reconcile

end Bsdbridge
