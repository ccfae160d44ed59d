import Bsdbridge.Lib.Agree
import Bsdbridge.L2Agent.Reconcile

/-!
# Reading the kernel and the anchors

The readers of `ifconfig.py` and `l2_agent/pf.py`. A pass does not read the whole kernel: it asks
for the owned interfaces, for the names its config claims, and for the members of what it has found
so far, and of the anchors for those in its scope and those pf lists.

Each reader is a program over a runner, with the commands of the source in the source's order; a
command that fails is read as nothing, since that is what the source does with it. What the answers
look like is not assumed here. `Proof/Partial` says what a kernel's answers show, and that a pass
plans from them what it would plan from the kernel.
-/

set_option autoImplicit false

namespace Bsdbridge

/-! ## `ifconfig.py` -/

namespace Ifconfig

/-- Parse bridge addr output into (mac, member, static) entries. A MAC is ASCII. -/
def parseAddrList (text : String) : List (String × String × Bool) :=
  (Text.splitLines text).filterMap fun line =>
    match Text.words line with
    | mac :: _ :: member :: _ :: flags :: _ =>
        if Text.hasChar mac ':' then
          some (String.ofList (mac.toList.map Char.toLower), member,
            decide ("STATIC".toList <:+: flags.toList))
        else none
    | _ => none

/-- The argv that lists every owned interface. -/
def groupArgv : Argv := [IFCONFIG, "-g", OWNED_GROUP]

def ifaceArgv (name : String) : Argv := [IFCONFIG, name]

def addrArgv (name : String) : Argv := [IFCONFIG, name, "addr"]

section

variable {σ : Type} (run : Runner σ)

/-- Read and parse one interface, once. -/
def query (interfaces : Dict String Interface) (name : String) :
    StateM σ (Dict String Interface) :=
  if name ∈ interfaces then pure interfaces
  else do
    let r ← run (ifaceArgv name) none none
    pure (if r.ok then interfaces.update (parse r.out) else interfaces)

/-- One bridge's address table. -/
def queryAddrs (addrs : Dict String (List (String × String × Bool))) (e : String × Interface) :
    StateM σ (Dict String (List (String × String × Bool))) :=
  if e.2.isBridge then do
    let r ← run (addrArgv e.1) none none
    pure (addrs.insert e.1 (parseAddrList r.out))
  else pure addrs

/-- Read the owned interfaces plus the named ones. -/
def readInterfaces (names : List String) : StateM σ KernelInterfaces := do
  let r ← run groupArgv none none
  let owned := parseGroupList r.out
  let interfaces ← (owned ++ names).foldlM (query run) ∅
  -- foreign members too: the differ needs them present to remove them
  let interfaces ← (interfaces.values.flatMap Interface.members).foldlM (query run) interfaces
  let addrs ← interfaces.entries.foldlM (queryAddrs run) ∅
  pure { interfaces, owned, addrs }

end

end Ifconfig

/-! ## `pf.py` -/

namespace Pf

def CFG_RE : Regex :=
  Regex.cat [.lit "label \"l2-neutron:cfg:", .group "hash" (Regex.times 16 isLowerHex), .lit "\""]

/-- Parse pfctl -sr output into the loaded config hash. -/
def parseRulesHash (text : String) : Option String :=
  (Regex.search CFG_RE text).bind (Regex.groupOf · "hash")

/-- Parse pfctl -T show output into a set of member strings. -/
def parseTableShow (text : String) : Finset String :=
  (((Text.splitLines text).map Text.strip).filter (· ≠ "")).toFinset

def rulesArgv (ifname : String) : Argv := [PFCTL, "-a", anchorName ifname, "-sr"]

def tablesArgv (ifname : String) : Argv := [PFCTL, "-a", anchorName ifname, "-sT"]

def showArgv (ifname table : String) : Argv :=
  [PFCTL, "-a", anchorName ifname, "-t", table, "-T", "show"]

/-- `ANCHOR_PREFIX.rstrip("/")`. -/
def anchorsArgv : Argv := [PFCTL, "-a", "l2-neutron/port", "-sA"]

/-- The names of an anchor listing. -/
def parseAnchorList (text : String) : List String :=
  ((Text.splitLines text).map Text.strip).filterMap fun line =>
    if Text.startsWith line ANCHOR_PREFIX then some (Text.drop line ANCHOR_PREFIX.length) else none

section

variable {σ : Type} (run : Runner σ)

/-- One table of an anchor. -/
def readTable (ifname : String) (tables : Dict String (Finset String)) (name : String) :
    StateM σ (Dict String (Finset String)) := do
  let r ← run (showArgv ifname name) none none
  pure (if r.ok then tables.insert name (parseTableShow r.out) else tables)

/-- Read one anchor's state through pfctl. -/
def readAnchor (ifname : String) : StateM σ AnchorState := do
  let r ← run (rulesArgv ifname) none none
  let hash := parseRulesHash r.out
  if !r.ok || (hash.isNone && Text.blank r.out) then pure { isLoaded := false }
  else do
    let names ← run (tablesArgv ifname) none none
    let tables ← (Text.words names.out).foldlM (readTable run ifname) ∅
    pure { isLoaded := true, cfgHash := hash, tables }

/-- Read the AnchorState for each named interface. -/
def readAnchors (ifnames : List String) : StateM σ PfState :=
  ifnames.foldlM (fun (states : PfState) name => do
    let state ← readAnchor run name
    pure (states.insert name state)) ∅

/-- List the interfaces with a per-port anchor loaded right now: an anchor flushed empty
disappears from the listing. -/
def listAnchors : StateM σ (List String) := do
  let r ← run anchorsArgv none none
  pure (if r.ok then parseAnchorList r.out else [])

end

end Pf

/-! ## `reconcile.py` -/

namespace Reconcile

section

variable {σ : Type} (run : Runner σ)

/-- The anchors of the scope and those that are listed: what a pass reads without a
`pf_reader`. -/
def pfReader (scope : List String) : StateM σ (Option PfState) := do
  let listed ← Pf.listAnchors run
  let states ← Pf.readAnchors run (sortedSet (scope ++ listed).toFinset)
  pure (some states)

/-- The reading half of a pass: the plan it would apply. -/
def planned [Hashlib] (config : Config) : StateM σ (Except PlanExc (Plan × KernelInterfaces)) :=
  match namesToCheck config with
  | .error e => pure (.error e)
  | .ok names => do
      let kernel ← Ifconfig.readInterfaces run names
      let pfState ← pfReader run (sortedSet (pfScope config kernel))
      pure ((Planner.diff config kernel pfState).map fun plan => (plan, kernel))

/-- The writing half of a pass. -/
def applied (dryRun : Bool) (read : Except PlanExc (Plan × KernelInterfaces)) :
    StateM σ (Except PlanExc Result) :=
  match read with
  | .error e => pure (.error e)
  | .ok (plan, kernel) => do
      let receipts ← Writer.applyPlan run dryRun plan
      pure (.ok { plan, receipts, kernel })

/-- A pass applies the plan it reads. -/
theorem reconcile_eq [Hashlib] (dryRun : Bool) (config : Config) :
    reconcile run dryRun (Ifconfig.readInterfaces run) (pfReader run) config =
      planned run config >>= applied run dryRun := by
  unfold reconcile planned
  cases namesToCheck config with
  | error e => rfl
  | ok names =>
    simp only [bind_assoc, pure_bind]
    congr 1
    funext kernel
    congr 1
    funext pfState
    cases Planner.diff config kernel pfState with
    | error e => rfl
    | ok plan => rfl

end

end Reconcile

end Bsdbridge
