import Bsdbridge.L2Agent.Writer

/-!
# pf behind a runner

The other half of a host: the anchors as pf holds them, and the established states, each of one
interface. `PfKernel.pfctl` is what one invocation of pfctl(8) does. A `PfMachine` is a runner over
it: commands may fail, and between two commands traffic goes on, so states end, and new ones are
established where the anchor of their interface, as it is by then, passes them. What an anchor
passes is `passes`, pf's own reading of rules and tables, which nothing here depends on.

An anchor is the text it was loaded from and the tables that were replaced since. That differs from
`Host`, where it is a hash and tables: the question there is what a diff reads, and here what a
packet meets. The two are never used in one statement.

An interface without an anchor is passed by its absence: the agent's rules are what restricts a
port, and where there are none nothing is claimed.
-/

set_option autoImplicit false

namespace Bsdbridge

/-- An anchor: the ruleset last loaded, and the contents of the tables replaced since. -/
structure PfAnchor where
  text : String
  tables : Dict String (List String) := ∅
  deriving DecidableEq

/-- An established state. Its id is printed in hexadecimal, its interface in one word. -/
structure Established (T : Type) where
  id : String
  ifname : String
  traffic : T
  ifname_word : Text.Word ifname
  id_hex : id.toList ≠ [] ∧ ∀ c ∈ id.toList, isLowerHex c = true

/-- The anchors, by path, and the states. -/
structure PfKernel (T : Type) where
  anchors : Dict String PfAnchor := ∅
  states : List (Established T) := []

namespace PfKernel

variable {T : Type}

/-! ## 1. One invocation -/

/-- The anchor of an interface. -/
def anchorAt (k : PfKernel T) (ifname : String) : Option PfAnchor :=
  k.anchors.get? (Pf.anchorName ifname)

/-- Give a table of an anchor that exists new contents. -/
def setTable (k : PfKernel T) (path t : String) (members : List String) : PfKernel T :=
  match k.anchors.get? path with
  | some a =>
      let a := { a with tables := a.tables.insert t members }
      { k with anchors := k.anchors.insert path a }
  | none => k

/-- The effect of an invocation of pfctl(8); what is not a change is a query. A load makes its
text the anchor, whatever was there. -/
def pfctl (k : PfKernel T) (input : Option String) : List String → PfKernel T
  | ["-a", path, "-f", "-"] =>
      { k with anchors := k.anchors.insert path { text := input.getD "" } }
  | ["-a", path, "-F", "all"] => { k with anchors := k.anchors.erase path }
  | ["-a", path, "-t", t, "-T", "flush"] => k.setTable path t []
  | "-a" :: path :: "-t" :: t :: "-T" :: "replace" :: members => k.setTable path t members
  | ["-k", "id", "-k", id] => { k with states := k.states.filter fun st => st.id ≠ id }
  | _ => k

/-- A listing shows a state: a line headed by its interface, and among the indented lines under
it the one that gives its id. -/
def Lists (out : String) (st : Established T) : Prop :=
  ∃ pre under post rest more,
    Text.splitLines out = pre ++ (st.ifname ++ " " ++ rest) ::
      (under ++ ("   id: " ++ st.id ++ " " ++ more) :: post) ∧
    ∀ line ∈ under, ∃ text, line = "   " ++ text

/-! ## 2. Permission -/

variable (passes : PfAnchor → T → Prop)

/-- The anchor of a state's interface, if there is one, passes its traffic. -/
def Admits (k : PfKernel T) (st : Established T) : Prop :=
  ∀ a, k.anchorAt st.ifname = some a → passes a st.traffic

/-- No state has outlived its permission. -/
def Permitted (k : PfKernel T) : Prop := ∀ st ∈ k.states, k.Admits passes st

/-- Traffic goes on: the anchors stay, states end, and the new ones are admitted. -/
def Drifts (k k' : PfKernel T) : Prop :=
  k'.anchors = k.anchors ∧ ∀ st ∈ k'.states, st ∈ k.states ∨ k.Admits passes st

end PfKernel

/-! ## 3. A runner over pf

A flush is the one command that may take effect and fail. -/

open PfKernel

/-- A runner over pf: a pfctl(8) that succeeds has its effect, and one that fails has none, a
flush apart, which can exit nonzero after flushing. A state listing shows every state there is,
but those established since. No other command changes an anchor. -/
structure PfMachine {T σ : Type} (passes : PfAnchor → T → Prop) (run : Runner σ)
    (kernel : σ → PfKernel T) : Prop where
  effect : ∀ (args : List String) (timeout : Option Nat) (input : Option String) (s : σ),
    ((run (PFCTL :: args) timeout input).run s).1.ok = true →
      Drifts passes ((kernel s).pfctl input args)
        (kernel ((run (PFCTL :: args) timeout input).run s).2)
  failure : ∀ (args : List String) (timeout : Option Nat) (input : Option String) (s : σ),
    ((run (PFCTL :: args) timeout input).run s).1.ok = false →
      Drifts passes (kernel s) (kernel ((run (PFCTL :: args) timeout input).run s).2) ∨
        ∃ path, args = ["-a", path, "-F", "all"] ∧
          Drifts passes ((kernel s).pfctl input args)
            (kernel ((run (PFCTL :: args) timeout input).run s).2)
  listing : ∀ s, ((run [PFCTL, "-vvss"] none none).run s).1.ok = true →
    ∀ st ∈ (kernel ((run [PFCTL, "-vvss"] none none).run s).2).states,
      Lists ((run [PFCTL, "-vvss"] none none).run s).1.out st ∨ (kernel s).Admits passes st
  other : ∀ (args : List String) (timeout : Option Nat) (input : Option String) (s : σ),
    Drifts passes (kernel s) (kernel ((run (IFCONFIG :: args) timeout input).run s).2)

end Bsdbridge
