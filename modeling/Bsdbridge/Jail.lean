import Bsdbridge.Ifconfig
import Bsdbridge.Lib.Prog
import Bsdbridge.Utils

/-!
# `jail.py` — VNET jails and epairs

The plumbing the dhcp and the l3 reconcilers share. A pass runs commands against an environment,
and may stop at any of them: a crash, or an exception nothing catches. What it carries along is its
receipts and two sets of names, which it grows as it creates what was missing.

The environment is a parameter, and so is what a command answers and does to it (`Command`). The
functions are programs in the sense of `Lib/Prog`, written in the order of the source, so that what
they issue before a stop is what the source would have issued. A command that fails leaves a
receipt that failed, and the pass goes on; whether a step that depends on it still runs is the
source's decision, and is followed.

The sets are the source's `jails` and `host_ifs`, which are read from the kernel at the opening of
a pass and used by its collection.
-/

set_option autoImplicit false

namespace Bsdbridge

/-- `run(argv)` over an environment `ε`. -/
abbrev Command (ε : Type) := Argv → Prog ε RunResult

/-- A reconcile pass under way. -/
structure Pass (ε : Type) where
  receipts : List (Receipt String) := []
  jails : Finset String := ∅
  hostIfs : Finset String := ∅
  env : ε

namespace Pass

variable {ε : Type}

/-- `result.failed`. -/
def failed (t : Pass ε) : List (Receipt String) := t.receipts.filter fun r => !r.ok

/-- `result.changed`. -/
def changed (t : Pass ε) : Bool := !t.receipts.isEmpty

def record (t : Pass ε) (r : Receipt String) : Pass ε := { t with receipts := t.receipts ++ [r] }

def addJail (t : Pass ε) (name : String) : Pass ε := { t with jails := insert name t.jails }

def addHostIf (t : Pass ε) (name : String) : Pass ε := { t with hostIfs := insert name t.hostIfs }

def discardHostIf (t : Pass ε) (name : String) : Pass ε :=
  { t with hostIfs := t.hostIfs.erase name }

/-- What the environment does, as a step of the pass. -/
def zoom {α : Type} (p : Prog ε α) : Prog (Pass ε) α := OptionT.mk fun t =>
  let (answer, env) := Prog.exec p t.env
  (answer, { t with env })

end Pass

/-! ## 1. `Actions` -/

namespace Actions

variable {ε : Type} (cmd : Command ε)

/-- `acts.run`. -/
def run (argv : Argv) : Prog (Pass ε) RunResult := Pass.zoom (cmd argv)

/-- `rc in ok_rcs`. -/
def good (okRcs : List Int) (r : RunResult) : Bool := okRcs.any fun n => r.rc = .code n

/-- `acts.do`: run one argv and record its receipt. -/
def perform (label : String) (argv : Argv) (okRcs : List Int) : Prog (Pass ε) (Bool × String) := do
  let r ← run cmd argv
  let ok := good okRcs r
  Prog.update fun t => t.record
    { op := label, argv, executed := true, ok, note := if ok then "" else Text.strip r.err }
  pure (ok, r.out)

/-- `acts.do` of which nothing is made but the receipt. -/
def act (label : String) (argv : Argv) : Prog (Pass ε) Unit := do
  let _ ← perform cmd label argv [0]
  pure ()

/-- The same, on drift only. -/
def actIf (drift : Bool) (label : String) (argv : Argv) : Prog (Pass ε) Unit :=
  if drift then act cmd label argv else pure ()

/-- `acts.note`: a file action, as an ok receipt. -/
def note (label text : String) : Prog (Pass ε) Unit :=
  Prog.update fun t => t.record { op := label, argv := [], executed := true, ok := true, note := text }

end Actions

/-! ## 2. The functions -/

namespace Jail

open Actions

variable {ε : Type} (cmd : Command ε)

/-- The present jails whose name matches a pattern. -/
def listJails (pattern : Regex) : Prog (Pass ε) (List String) := do
  let r ← run cmd [JLS, "name"]
  pure (if r.ok then (Text.words r.out).filter fun n => (pattern.matchStart n).isSome else [])

/-- The host interfaces carrying an ownership group. -/
def listGroup (group : String) : Prog (Pass ε) (List String) := do
  let r ← run cmd [IFCONFIG, "-g", group]
  pure (if r.ok then Ifconfig.parseGroupList r.out else [])

/-- Create a persistent VNET jail when absent, and say whether it exists. -/
def ensureJail (name : String) : Prog (Pass ε) Bool := do
  let jails ← Prog.look Pass.jails
  if name ∈ jails then pure true
  else do
    let (ok, _) ← perform cmd "CreateJail" [JAIL, "-c", "name=" ++ name, "vnet", "persist", "path=/"]
      [0]
    if !ok then pure false
    else do
      Prog.update fun t => t.addJail name
      act cmd "JailLoopback" [JEXEC, name, IFCONFIG, "lo0", "up"]
      pure true

/-- The l2 agent discovers a port from the description of its host end. -/
def fixDescr (hostIf portId text : String) : Prog (Pass ε) Unit :=
  let wantedDescr := DESCRIPTION_PREFIX ++ portId
  match (Ifconfig.parse text).get? hostIf with
  | none => pure ()
  | some hostInfo =>
      actIf cmd (hostInfo.description ≠ wantedDescr) "FixEpairDescr"
        [IFCONFIG, hostIf, "descr", wantedDescr]

/-- `a_end[:-1] + "b"`. -/
def otherEnd (aEnd : String) : String := String.ofList aEnd.toList.dropLast ++ "b"

/-- Make the epair, up to the reading of its jail end; false where it cannot be made. -/
def makeEpair (jail hostIf jailIf portId group : String) : Prog (Pass ε) Bool := do
  let (ok, out) ← perform cmd "CreateEpair" [IFCONFIG, "epair", "create"] [0]
  if !ok then pure false
  else do
    let aEnd := Text.strip out
    let bEnd := otherEnd aEnd
    act cmd "NameHostIf"
      [IFCONFIG, aEnd, "name", hostIf, "descr", DESCRIPTION_PREFIX ++ portId, "group", group, "up"]
    Prog.update fun t => t.addHostIf hostIf
    act cmd "MoveJailIf" [IFCONFIG, bEnd, "vnet", jail]
    act cmd "NameJailIf" [JEXEC, jail, IFCONFIG, bEnd, "name", jailIf]
    pure true

/-- Read the two ends, and destroy what is left of half an epair, as destroying either end kills
the pair: the text of the jail end where the epair stands. -/
def repairEpair (jail hostIf jailIf portId : String) : Prog (Pass ε) (Option String) := do
  let host ← run cmd [IFCONFIG, hostIf]
  let inner ← run cmd [JEXEC, jail, IFCONFIG, jailIf]
  if host.ok && !inner.ok then do
    act cmd "DestroyBrokenEpair" [IFCONFIG, hostIf, "destroy"]
    Prog.update fun t => t.discardHostIf hostIf
    pure none
  else if host.ok then do
    fixDescr cmd hostIf portId host.out
    pure (some inner.out)
  else if inner.ok then do
    act cmd "DestroyBrokenJailIf" [JEXEC, jail, IFCONFIG, jailIf, "destroy"]
    pure none
  else pure none

/-- Ensure one epair spans the host and a jail: the text of the jail end. -/
def ensureEpair (jail hostIf jailIf portId group : String) : Prog (Pass ε) (Option String) := do
  match ← repairEpair cmd jail hostIf jailIf portId with
  | some text => pure (some text)
  | none =>
      if ← makeEpair cmd jail hostIf jailIf portId group then do
        let r ← run cmd [JEXEC, jail, IFCONFIG, jailIf]
        pure (if r.ok then some r.out else none)
      else pure none

/-- An address as ifconfig(8) takes it. -/
def inetArg (a : String × Nat) : String := a.1 ++ "/" ++ toString a.2

/-- Set the addresses that are not there; the first one of an interface brings it up. -/
def addInets (jail jailIf : String) (have_ : Finset (String × Nat)) :
    Bool → List (String × Nat) → Prog (Pass ε) Unit
  | _, [] => pure ()
  | first, a :: rest =>
      if a ∈ have_ then addInets jail jailIf have_ first rest
      else do
        act cmd "SetJailIfInet"
          [JEXEC, jail, IFCONFIG, jailIf, "inet", inetArg a, if first then "up" else "alias"]
        addInets jail jailIf have_ false rest

/-- Drop addresses. -/
def dropInets (jail jailIf : String) (l : List (Lex (String × Nat))) : Prog (Pass ε) Unit :=
  l.forM fun a => act cmd "DropJailIfInet"
    [JEXEC, jail, IFCONFIG, jailIf, "inet", inetArg (ofLex a), "-alias"]

/-- Set a jail interface's mac and inet addresses on drift only. -/
def ensureAddrs (jail jailIf text mac : String) (ips : List (String × Nat)) :
    Prog (Pass ε) Unit :=
  match (Ifconfig.parse text).get? jailIf with
  | none => pure ()
  | some info => do
      -- ether and inet cannot share one invocation, or the mac is silently not set
      actIf cmd (info.ether ≠ some mac) "SetJailIfMac" [JEXEC, jail, IFCONFIG, jailIf, "ether", mac]
      let have_ := info.inets.toFinset
      addInets cmd jail jailIf have_ info.inets.isEmpty ips
      dropInets cmd jail jailIf (sortedSet ((have_ \ ips.toFinset).image toLex))

/-- Kill what runs in a jail. -/
def killJailProcs (jail : String) : Prog (Pass ε) Unit := do
  let r ← run cmd [JLS, "-j", jail, "jid"]
  if r.ok && Text.strip r.out ≠ "" then do
    -- pkill exits 1 when nothing matched
    let _ ← perform cmd "KillJailProcs" [PKILL, "-j", Text.strip r.out] [0, 1]
    pure ()
  else pure ()

/-- Tear down undesired jails: processes, then epairs, then the jails. -/
def collect (desiredJails desiredIfs : Finset String) : Prog (Pass ε) Unit := do
  let jails ← Prog.look Pass.jails
  (sortedSet (jails \ desiredJails)).forM (killJailProcs cmd)
  let hostIfs ← Prog.look Pass.hostIfs
  (sortedSet (hostIfs \ desiredIfs)).forM fun name =>
    act cmd "DestroyEpair" [IFCONFIG, name, "destroy"]
  (sortedSet (jails \ desiredJails)).forM fun jail => act cmd "RemoveJail" [JAIL, "-r", jail]

end Jail

end Bsdbridge
