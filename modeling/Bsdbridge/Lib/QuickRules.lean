import Bsdbridge.Lib.Text

/-!
# Quick rules of a packet filter

The rule lines of a packet filter that decides by the first match: their syntax, as far as the
lines below need it, and what a list of them says of a packet. A packet is seen where it crosses an
interface, so it has a way (in or out of the host) beside its ends.

What an address text stands for is left to a parameter (`Meaning`); so is what a table holds.
`readRule` reads a line word by word.

Every rule here is quick and of one interface. Rules that are not quick, where the last match
counts, are not read, and neither are options that change what a rule matches; a line that has them
is `none` and so is the whole list (`evaluate`), so nothing can be concluded from a list that was
only partly understood. A label, and `keep state`, are read and dropped. A rule without a family
matches both, and one with a port matches packets that have one.
-/

set_option autoImplicit false

namespace PacketFilter

/-! ## Packets -/

inductive Family | inet | inet6
  deriving DecidableEq

inductive Addr
  | v4 (a : BitVec 32)
  | v6 (a : BitVec 128)
  deriving DecidableEq

/-- The source and the destination of a packet, of one family. -/
inductive Ends
  | v4 (src dst : BitVec 32)
  | v6 (src dst : BitVec 128)
  deriving DecidableEq

def Ends.family : Ends → Family
  | .v4 _ _ => .inet
  | .v6 _ _ => .inet6

def Ends.src : Ends → Addr
  | .v4 s _ => .v4 s
  | .v6 s _ => .v6 s

def Ends.dst : Ends → Addr
  | .v4 _ d => .v4 d
  | .v6 _ d => .v6 d

inductive Protocol
  | tcp | udp | icmp | icmp6
  | other (n : Nat)
  deriving DecidableEq

inductive Way | in_ | out
  deriving DecidableEq

structure Packet where
  iface : String
  way : Way
  ends : Ends
  protocol : Protocol
  /-- The destination port, where the protocol has ports. -/
  port : Option Int
  deriving DecidableEq

/-! ## Rules -/

inductive Verdict | pass | block
  deriving DecidableEq

/-- What an end of a rule names. -/
inductive Target
  | any
  | host (text : String)
  | table (name : String)
  deriving DecidableEq

structure End where
  negated : Bool := false
  target : Target := .any
  deriving DecidableEq

structure Rule where
  verdict : Verdict
  way : Way
  iface : String
  family : Option Family := none
  protocol : Option Protocol := none
  from_ : End := {}
  to_ : End := {}
  /-- The lowest and the highest port. -/
  port : Option (Int × Int) := none
  deriving DecidableEq

/-- What the texts of a rule set stand for. -/
structure Meaning where
  /-- Whether an address lies among the hosts a text stands for. -/
  lies : String → Addr → Bool
  /-- The host texts a table holds. -/
  table : String → List String

def Target.holds (m : Meaning) (a : Addr) : Target → Bool
  | .any => true
  | .host t => m.lies t a
  | .table n => (m.table n).any fun t => m.lies t a

def End.holds (m : Meaning) (a : Addr) (e : End) : Bool := e.negated ^^ e.target.holds m a

def Rule.matches (m : Meaning) (p : Packet) (r : Rule) : Bool :=
  decide (r.iface = p.iface) && decide (r.way = p.way) &&
    r.family.all (fun f => decide (f = p.ends.family)) &&
    r.protocol.all (fun q => decide (q = p.protocol)) &&
    r.from_.holds m p.ends.src && r.to_.holds m p.ends.dst &&
    r.port.all fun range => p.port.any fun d => decide (range.1 ≤ d ∧ d ≤ range.2)

/-- The first rule that matches decides. -/
def verdict (m : Meaning) (rules : List Rule) (p : Packet) : Verdict :=
  match rules.find? (Rule.matches m p) with
  | some r => r.verdict
  | none => .pass

/-! ## Reading a rule

Each reader takes the words it is for and returns the rest. -/

def readWay : String → Option Way
  | "in" => some .in_
  | "out" => some .out
  | _ => none

def readProtocol : String → Option Protocol
  | "tcp" => some .tcp
  | "udp" => some .udp
  | "icmp" => some .icmp
  | "icmp6" => some .icmp6
  | _ => none

/-- `any`, a table in angle brackets, or a host. -/
def readTarget (w : String) : Target :=
  if w = "any" then .any
  else
    match w.toList with
    | '<' :: cs => .table (String.ofList cs.dropLast)
    | _ => .host w

def readEnd : List String → Option (End × List String)
  | "!" :: w :: r => some (⟨true, readTarget w⟩, r)
  | w :: r => some (⟨false, readTarget w⟩, r)
  | [] => none

/-- A port, or two with a colon. -/
def readPort (w : String) : Option (Int × Int) :=
  let (lo, sep, hi) := Text.partition w ':'
  match Text.readInt lo, Text.readInt (if sep then hi else lo) with
  | some lo, some hi => some (lo, hi)
  | _, _ => none

def readFamily : List String → Option Family × List String
  | "inet" :: r => (some .inet, r)
  | "inet6" :: r => (some .inet6, r)
  | r => (none, r)

def readProto : List String → Option (Option Protocol × List String)
  | "proto" :: w :: r => (readProtocol w).map fun q => (some q, r)
  | r => some (none, r)

/-- The ports of the destination. -/
def readPorts : List String → Option (Option (Int × Int) × List String)
  | "port" :: w :: r => (readPort w).map fun range => (some range, r)
  | r => some (none, r)

/-- `to <end> [port <ports>]`, where it stands. -/
def readTo : List String → Option (End × Option (Int × Int) × List String)
  | "to" :: r => do
      let (dst, r) ← readEnd r
      let (ports, r) ← readPorts r
      pure (dst, ports, r)
  | r => some ({}, none, r)

/-- `all`, or `from <end> [to <end> [port <ports>]]`. -/
def readEnds : List String → Option (End × End × Option (Int × Int) × List String)
  | "all" :: r => some ({}, {}, none, r)
  | "from" :: r => do
      let (src, r) ← readEnd r
      let (dst, ports, r) ← readTo r
      pure (src, dst, ports, r)
  | _ => none

/-- A label ends a line. -/
def labelled : List String → Bool
  | [] => true
  | "label" :: _ :: _ => true
  | _ => false

/-- What follows the ends changes no match: keeping state, and a label. -/
def options : List String → Bool
  | "keep" :: "state" :: "(if-bound)" :: r => labelled r
  | r => labelled r

def readVerdict : List String → Option (Verdict × List String)
  | "pass" :: r => some (.pass, r)
  | "block" :: "drop" :: r => some (.block, r)
  | _ => none

/-- The words of a line, as a rule. -/
def readWords (words : List String) : Option Rule := do
  let (verdict, r) ← readVerdict words
  match r with
  | w :: "quick" :: "on" :: iface :: r => do
      let way ← readWay w
      let (family, r) := readFamily r
      let (protocol, r) ← readProto r
      let (from_, to_, port, r) ← readEnds r
      if options r then some { verdict, way, iface, family, protocol, from_, to_, port } else none
  | _ => none

/-- A line, as a rule. -/
def readRule (line : String) : Option Rule := readWords (Text.words line)

/-- What a list of rule lines says of a packet; `none` when a line is no rule. -/
def evaluate (m : Meaning) (lines : List String) (p : Packet) : Option Verdict :=
  (lines.mapM readRule).map fun rules => verdict m rules p

/-! ## Readings -/

/-- A word that is no negation is a whole end. -/
theorem readEnd_word {w : String} {r : List String} (h : w ≠ "!") :
    readEnd (w :: r) = some (⟨false, readTarget w⟩, r) := by
  unfold readEnd
  split
  · rename_i hcons
    exact absurd (List.cons.inj hcons).1 h
  · rename_i hcons
    obtain ⟨rfl, rfl⟩ := List.cons.inj hcons
    rfl
  · rename_i hcons
    exact absurd hcons (by simp)

theorem readPorts_port {w : String} {r : List String} {range : Int × Int}
    (h : readPort w = some range) : readPorts ("port" :: w :: r) = some (some range, r) := by
  simp [readPorts, h]

theorem readEnds_all {r : List String} : readEnds ("all" :: r) = some ({}, {}, none, r) := by
  simp [readEnds]

theorem readEnds_from {r r₁ r₂ r₃ : List String} {src dst : End} {ports : Option (Int × Int)}
    (hsrc : readEnd r = some (src, "to" :: r₁)) (hdst : readEnd r₁ = some (dst, r₂))
    (hports : readPorts r₂ = some (ports, r₃)) :
    readEnds ("from" :: r) = some (src, dst, ports, r₃) := by
  simp [readEnds, readTo, hsrc, hdst, hports]

theorem options_of_labelled {r : List String} (h : labelled r = true) : options r = true := by
  unfold labelled at h
  split at h
  · rfl
  · simp [options, labelled]
  · exact absurd h (by decide)

/-- The words of a line, part by part. -/
theorem readWords_of_parts {ws r r₁ r₂ r₃ : List String} {v : Verdict} {w iface : String}
    {way : Way} {family : Option Family} {protocol : Option Protocol} {from_ to_ : End}
    {port : Option (Int × Int)}
    (hv : readVerdict ws = some (v, w :: "quick" :: "on" :: iface :: r))
    (hw : readWay w = some way) (hf : readFamily r = (family, r₁))
    (hp : readProto r₁ = some (protocol, r₂)) (he : readEnds r₂ = some (from_, to_, port, r₃))
    (hopt : options r₃ = true) :
    readWords ws = some ⟨v, way, iface, family, protocol, from_, to_, port⟩ := by
  simp [readWords, hv, hw, hf, hp, he, hopt]

/-! ## Walks

A walk passes over rules that do not match; a list in front that matches nothing can be dropped. -/

section

variable {m : Meaning} {p : Packet}

/-- A rule at the head decides what it matches. -/
theorem verdict_cons {r : Rule} {rules : List Rule} :
    verdict m (r :: rules) p = if r.matches m p then r.verdict else verdict m rules p := by
  unfold verdict
  rw [List.find?_cons]
  cases h : r.matches m p <;> simp

/-- Rules that do not match are passed over. -/
theorem verdict_append_of_not {before rules : List Rule}
    (h : ∀ r ∈ before, r.matches m p = false) :
    verdict m (before ++ rules) p = verdict m rules p := by
  induction before with
  | nil => rfl
  | cons r rest ih =>
    rw [List.cons_append, verdict_cons, h r List.mem_cons_self,
      ih fun x hx => h x (List.mem_cons_of_mem _ hx)]
    simp

theorem evaluate_of_rules {lines : List String} {rules : List Rule}
    (h : List.Forall₂ (fun line rule => readRule line = some rule) lines rules) :
    evaluate m lines p = some (verdict m rules p) := by
  have hread : lines.mapM readRule = some rules := by
    induction h with
    | nil => rfl
    | cons hline _ ih => rw [List.mapM_cons, hline, ih]; rfl
  rw [evaluate, hread]
  rfl

end

end PacketFilter
