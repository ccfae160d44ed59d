import Bsdbridge.Lib.Text

/-!
# `utils.py` — commands and receipts

A runner executes one invocation and answers `(rc, stdout, stderr)`. It acts on a state of its
own type, so one model of the callers serves every environment: a scripted pattern of
failures, or a kernel.
-/

set_option autoImplicit false

namespace Bsdbridge

abbrev Argv := List String

/-- A return code, or the `TIMEOUT` a blocked command ends in. -/
inductive Rc
  | code (n : Int)
  | timeout
  deriving DecidableEq

/-- What one invocation answers. -/
structure RunResult where
  rc : Rc
  out : String := ""
  err : String := ""
  deriving DecidableEq

/-- `rc == 0`. -/
def RunResult.ok (r : RunResult) : Bool := decide (r.rc = .code 0)

/-- `run(argv, timeout, input)` over an environment `σ`. -/
abbrev Runner (σ : Type) := Argv → Option Nat → Option String → StateM σ RunResult

/-- What happened to one op. -/
structure Receipt (ω : Type) where
  op : ω
  argv : Argv
  executed : Bool
  ok : Bool
  parked : Bool := false
  note : String := ""
  deriving DecidableEq

/-- What planning can raise: its own refusal, or a lookup that finds nothing. -/
inductive PlanExc
  | planError (msg : String)
  | keyError (key : Option String)
  | indexError
  deriving DecidableEq

end Bsdbridge
