import Bsdbridge.L2Agent.Model
import Bsdbridge.Lib.Regex
import Bsdbridge.Utils

/-!
# `l2_agent/pf.py` — rendering an anchor, and what is read back

`render` turns a member's filter and bind into a ruleset and its cfg hash. The text `pfctl -f -` is
fed is `Ruleset.text`; the ruleset itself keeps the tables and the rule lines apart, because
loading an anchor sets both.

The rule lines are strings, as the source builds them, from the parts of a rule in the source's
order. Nothing in this file says what pf makes of them: that is read off the lines by
`Lib/QuickRules`, in `Proof/Reading` and `Proof/Verdict`. A direction is the workload's, and
`DIRECTION` is the table that turns it around for the host's side of the tap.

The tables an anchor is given are those its filter refers to, sorted by name; a reference to a
table that the config does not have is a failed lookup, as in the source.
-/

set_option autoImplicit false

namespace Bsdbridge

/-- A side of a filter, from the workload's view. -/
inductive Direction | in_ | out
  deriving DecidableEq

def Direction.word : Direction → String
  | .in_ => "in"
  | .out => "out"

def Action.word : Action → String
  | .pass => "pass"
  | .block => "block"

def Proto.word : Proto → String
  | .tcp => "tcp"
  | .udp => "udp"
  | .icmp => "icmp"
  | .icmp6 => "icmp6"

/-- `str(port)`. -/
def PortSpec.text : PortSpec → String
  | .one n => toString n
  | .range lo hi => s!"{lo}-{hi}"

namespace Pf

def ANCHOR_PREFIX : String := "l2-neutron/port/"

/-- The workload's view is the host side of the tap, reversed. -/
def DIRECTION : Direction → Direction
  | .in_ => .out
  | .out => .in_

/-- The label every pass rule on a port carries. -/
def stateLabel (ifname : String) : String := "l2-neutron:" ++ ifname

def anchorName (ifname : String) : String := ANCHOR_PREFIX ++ ifname

/-- An address as pf spells it: a table reference in angle brackets. -/
def renderRef (ref : String) : String :=
  match Config.tableRef ref with
  | some t => "<" ++ t ++ ">"
  | none => ref

/-- pf refuses a family/proto mismatch and fails the whole anchor load. -/
def familyOf (proto : Proto) : String := if proto = .icmp6 then "inet6" else "inet"

/-- Render one filter rule into a single pf rule line. -/
def renderRule (ifname : String) (direction : Direction) (rule : FilterRule) : String :=
  let head := [if rule.action = .pass then "pass" else "block drop",
    (DIRECTION direction).word, "quick", "on", ifname]
  let proto := match rule.proto with
    | some p => [familyOf p, "proto", p.word]
    | none => []
  let src := renderRef rule.from_
  let dst := renderRef rule.to_
  let body :=
    if rule.proto.isSome || src ≠ "any" || dst ≠ "any" || rule.port.isSome then
      ["from", src, "to", dst] ++
        match rule.port with
        -- pf spells ranges with a colon
        | some p => ["port", Text.replaceChar p.text '-' ':']
        | none => []
    else ["all"]
  let label :=
    if rule.action = .pass then
      ["keep", "state", "(if-bound)", "label", "\"" ++ stateLabel ifname ++ "\""]
    else []
  " ".intercalate (head ++ proto ++ body ++ label)

/-- The table names a filter's rules reference. -/
def tablesReferenced : Option Filter → Finset String
  | none => ∅
  | some filt =>
      ((filt.in_.values ++ filt.out.values).flatMap fun r =>
        [r.from_, r.to_].filterMap Config.tableRef).toFinset

/-- One anchor's content: its tables with their members, and its rule lines. -/
structure Ruleset where
  tables : List (String × List String)
  rules : List String
  deriving DecidableEq

/-- The text `pfctl -f -` reads. -/
def Ruleset.text (r : Ruleset) : String :=
  "\n".intercalate ((r.tables.map fun t =>
    "table <" ++ t.1 ++ "> persist \x7b " ++ ", ".intercalate t.2 ++ " \x7d") ++ r.rules) ++ "\n"

/-- The rules of one side, in increasing number. -/
def numbered (rules : Dict Int FilterRule) : List (Int × FilterRule) :=
  sortedBy Prod.fst rules.entries

/-- The lock of a bound port. The DHCP line must precede the source lock, as DISCOVER is
sourced from 0.0.0.0. -/
def bindLines (ifname : String) (bind : Bind) : List String :=
  ["pass in quick on " ++ ifname ++ " inet proto udp from 0.0.0.0 to 255.255.255.255 port 67 " ++
      "keep state (if-bound) label \"" ++ stateLabel ifname ++ "\"",
    "block drop in quick on " ++ ifname ++ " inet from ! " ++ bind.address]

def filterLines (ifname : String) (filt : Filter) : List String :=
  [(Direction.in_, filt.in_), (Direction.out, filt.out)].flatMap fun side =>
    (numbered side.2).map fun e => renderRule ifname side.1 e.2

/-- The rule lines the cfg hash is taken over: everything but the line that carries it. -/
def ruleLines (ifname : String) (filt : Option Filter) (bind : Option Bind) : List String :=
  (match bind with | some b => bindLines ifname b | none => []) ++
    (match filt with | some f => filterLines ifname f | none => []) ++
    ["block drop out quick on " ++ ifname ++ " all"]

def cfgHash [Hashlib] (ifname : String) (filt : Option Filter) (bind : Option Bind) : String :=
  Text.take (Hashlib.sha256 ("\n".intercalate (ruleLines ifname filt bind))) 16

/-- Render one member's anchor and its cfg hash. -/
def render [Hashlib] (ifname : String) (filt : Option Filter) (bind : Option Bind)
    (tables : List (String × List String)) : Ruleset × String :=
  let hash := cfgHash ifname filt bind
  ({ tables := (sortedSet (tablesReferenced filt)).map fun n => (n, (tables.lookup n).getD [])
     rules := ruleLines ifname filt bind ++
      ["block drop in quick on " ++ ifname ++ " all label \"l2-neutron:cfg:" ++ hash ++ "\""] },
    hash)

/-- Table name to canonical member list for a filter's references, in name order. -/
def wantedTables (filt : Option Filter) (config : Config) :
    Except PlanExc (List (String × List String)) :=
  (sortedSet (tablesReferenced filt)).mapM fun n => do
    let t ← config.table.getItem n (.keyError (some n))
    pure (n, t.members)

/-! ## Reading back

State ids and the kill of a port's states, which is a listing and a command for each id. -/

/-- Kernel state for one member's anchor. -/
structure AnchorState where
  isLoaded : Bool
  cfgHash : Option String := none
  tables : Dict String (Finset String) := ∅
  deriving DecidableEq

def STATE_HEAD_RE : Regex :=
  Regex.cat [.group "ifname" (.some1 Regex.nonSpace), .lit " "]

def STATE_ID_RE : Regex :=
  Regex.cat [.some1 Regex.space, .lit "id: ", .group "id" (.some1 isLowerHex), .lit " "]

/-- One line of the state listing: the interface of the state it belongs to, and the ids. -/
def stateLine (ifname : String) (st : Option String × List String) (line : String) :
    Option String × List String :=
  match line.toList with
  | [] => st
  | c :: _ =>
      if Text.isSpace c then
        if st.1 = some ifname then
          match (Regex.matchStart STATE_ID_RE line).bind (Regex.groupOf · "id") with
          | some id => (st.1, st.2 ++ [id])
          | none => st
        else st
      else ((Regex.matchStart STATE_HEAD_RE line).bind (Regex.groupOf · "ifname"), st.2)

/-- Parse pfctl -vvss output into the state ids bound to one interface. -/
def parseStateIds (text ifname : String) : List String :=
  ((Text.splitLines text).foldl (stateLine ifname) (none, [])).2

/-- Kill every state bound to a port's interface and return the count. -/
def killPortStates {σ : Type} (ifname : String) (run : Runner σ) : StateM σ Nat := do
  let r ← run [PFCTL, "-vvss"] none none
  if r.ok then do
    let ids := parseStateIds r.out ifname
    ids.forM fun id => do
      let _ ← run [PFCTL, "-k", "id", "-k", id] none none
    pure ids.length
  else pure 0

end Pf

/-- The anchors of a pass, by interface. -/
abbrev PfState := Dict String Pf.AnchorState

end Bsdbridge
