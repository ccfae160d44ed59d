import Bsdbridge.Lib.Regex
import Bsdbridge.Names
import Bsdbridge.Utils

/-!
# `ifconfig.py` — the kernel as `ifconfig(8)` reports it

The view the planner works on (`KernelInterfaces`), and the parser that builds it. A numeral too
long for `int` is read as an absent field.

The parser cuts a text at its header lines and goes through each block with the regular expressions
of the source, in their order; a later line of one kind overrides an earlier one where the source
assigns, and adds to it where the source appends. `parse` is total. `parseExc` is the same with the
`ValueError` that `int` raises at a numeral of too many digits, for the statements that are about
exceptions.
-/

set_option autoImplicit false

namespace Bsdbridge

/-- One kernel interface, as ifconfig reported it. -/
structure Interface where
  name : String
  flags : Finset String := ∅
  mtu : Option Int := none
  metric : Option Int := none
  ether : Option String := none
  inets : List (String × Nat) := []
  description : String := ""
  groups : List String := []
  status : Option String := none
  members : List String := []
  maxaddr : Option Int := none
  vlan : Option Int := none
  vlanParent : Option String := none
  deriving DecidableEq

namespace Interface

/-- Whether the interface carries the UP flag. -/
def up (i : Interface) : Bool := decide ("UP" ∈ i.flags)

/-- Whether the interface is in the bridge group. -/
def isBridge (i : Interface) : Bool := decide ("bridge" ∈ i.groups)

/-- Whether the interface carries the ownership group. -/
def isOwned (i : Interface) : Bool := decide (OWNED_GROUP ∈ i.groups)

end Interface

/-- The kernel's interfaces, owned names, and bridge address tables. -/
structure KernelInterfaces where
  interfaces : Dict String Interface := ∅
  owned : List String := []
  addrs : Dict String (List (String × String × Bool)) := ∅
  deriving DecidableEq

namespace KernelInterfaces

/-- The first statically locked MAC of a member in one bridge's address table. -/
def lockIn (table : List (String × String × Bool)) (member : String) : Option String :=
  (table.find? fun e => e.2.1 = member && e.2.2).map Prod.fst

/-- The statically locked MAC for a member. -/
def staticLock (k : KernelInterfaces) (bridge member : String) : Option String :=
  lockIn ((k.addrs.get? bridge).getD []) member

/-- The bridges by name. -/
def bridges (k : KernelInterfaces) : Dict String Interface :=
  k.interfaces.filter fun _ i => i.isBridge

/-- A bridge's member names, or none when it is absent. -/
def membersOf (k : KernelInterfaces) (bridge : String) : List String :=
  match k.interfaces.get? bridge with
  | some i => i.members
  | none => []

/-- Whether the kernel has an interface. -/
instance : Membership String KernelInterfaces := ⟨fun k n => n ∈ k.interfaces⟩

instance (n : String) (k : KernelInterfaces) : Decidable (n ∈ k) :=
  inferInstanceAs (Decidable (n ∈ k.interfaces))

/-- Whether the kernel has the interface under the ownership group. -/
def ownedName (k : KernelInterfaces) (n : String) : Bool :=
  (k.interfaces.get? n).any Interface.isOwned

@[simp] theorem mem_interfaces {k : KernelInterfaces} {n : String} :
    n ∈ k.interfaces ↔ n ∈ k := Iff.rfl

theorem ownedName_iff {k : KernelInterfaces} {n : String} :
    k.ownedName n = true ↔ ∃ i, k.interfaces.get? n = some i ∧ i.isOwned = true := by
  unfold ownedName
  cases k.interfaces.get? n <;> simp

end KernelInterfaces

/-! ## The parser -/

namespace Ifconfig

open Regex

def nameChar (c : Char) : Bool := c.isAlphanum || c == '_' || c == '.' || c == ':' || c == '-'

def hexX (c : Char) : Bool :=
  c.isDigit || ('a' ≤ c && c ≤ 'f') || ('A' ≤ c && c ≤ 'F') || c == 'x'

def lowerHex (c : Char) : Bool := c.isDigit || ('a' ≤ c && c ≤ 'f')

def HEADER_RE : Regex := cat
  [group "name" (some1 nameChar), lit ": flags=", many hexX, lit "<",
    group "flags" (many (· != '>')), lit ">",
    opt (cat [lit " metric ", group "metric" (some1 digit)]),
    opt (cat [lit " mtu ", group "mtu" (some1 digit)])]

def MEMBER_RE : Regex := cat
  [some1 space, lit "member: ", group "name" (some1 nonSpace), lit " flags="]

def VLAN_RE : Regex := cat
  [some1 space, lit "vlan: ", group "vid" (some1 digit), lit " ", many dot,
    lit "parent interface: ", group "parent" (some1 nonSpace)]

def MAXADDR_RE : Regex := cat
  [boundary, lit "maxaddr ", group "maxaddr" (some1 digit), boundary]

def ETHER_RE : Regex := cat
  [some1 space, lit "ether ", group "ether" (times 17 fun c => lowerHex c || c == ':')]

def INET_RE : Regex := cat
  [some1 space, lit "inet ", group "addr" (some1 nonSpace), lit " netmask ",
    group "mask" (cat [lit "0x", times 8 lowerHex])]

def GROUPS_RE : Regex := cat
  [some1 space, lit "groups: ", group "groups" (some1 dot), atEnd]

def DESCR_RE : Regex := cat
  [some1 space, lit "description: ", group "descr" (many dot), atEnd]

def STATUS_RE : Regex := cat
  [some1 space, lit "status: ", group "status" (some1 dot), atEnd]

/-- A group of a match, as text. -/
def textOf (m : List (String × List Char)) (name : String) : String :=
  (groupOf m name).getD ""

/-- A group of a match, as a number. -/
def intOf (m : List (String × List Char)) (name : String) : Option Int :=
  (groupOf m name).bind Text.readInt

/-- Split ifconfig output into per-interface line lists; what stands before the first header
is discarded. -/
def splitBlocks (text : String) : List (List String) :=
  ((Text.splitLines text).foldl (fun (blocks : List (List String)) line =>
    let header := match line.toList with
      | c :: _ => !Text.isSpace c && (matchStart HEADER_RE line).isSome
      | [] => false
    if header then [line] :: blocks
    else
      match blocks with
      | cur :: done => if Text.blank line then blocks else (cur ++ [line]) :: done
      | [] => []) []).reverse

/-- `bin(int(mask, 16)).count("1")` of a hex digit. -/
def hexOnes (c : Char) : Nat :=
  let v := if c.isDigit then c.toNat - '0'.toNat else c.toNat - 'a'.toNat + 10
  v % 2 + v / 2 % 2 + v / 4 % 2 + v / 8 % 2

/-- The network mask as a prefix length. -/
def prefixlen (mask : String) : Nat := ((Text.drop mask 2).toList.map hexOnes).sum

/-- One line of a block, by the first expression that matches it. -/
def parseLine (i : Interface) (line : String) : Interface :=
  match matchStart MEMBER_RE line with
  | some m => { i with members := i.members ++ [textOf m "name"] }
  | none =>
  match matchStart INET_RE line with
  | some m => { i with inets := i.inets ++ [(textOf m "addr", prefixlen (textOf m "mask"))] }
  | none =>
  match matchStart VLAN_RE line with
  | some m => { i with vlan := intOf m "vid", vlanParent := groupOf m "parent" }
  | none =>
  match matchStart ETHER_RE line with
  | some m => { i with ether := groupOf m "ether" }
  | none =>
  match matchStart GROUPS_RE line with
  | some m => { i with groups := Text.words (textOf m "groups") }
  | none =>
  match matchStart DESCR_RE line with
  | some m => { i with description := textOf m "descr" }
  | none =>
  match matchStart STATUS_RE line with
  | some m => { i with status := groupOf m "status" }
  | none =>
  match search MAXADDR_RE line with
  | some m =>
      if Text.startsWith (String.ofList (line.toList.dropWhile Text.isSpace)) "maxage" then
        { i with maxaddr := intOf m "maxaddr" }
      else i
  | none => i

/-- Parse one block of lines into an Interface. -/
def parseBlock (lines : List String) : Option Interface :=
  match lines with
  | [] => none
  | header :: rest =>
      (matchStart HEADER_RE header).map fun m =>
        rest.foldl parseLine
          { name := textOf m "name"
            flags := ((Text.splitOn (textOf m "flags") ',').filter (· ≠ "")).toFinset
            metric := intOf m "metric"
            mtu := intOf m "mtu" }

/-- Parse full or concatenated ifconfig output into a dictionary by name. -/
def parse (text : String) : Dict String Interface :=
  Dict.ofList (((splitBlocks text).filterMap parseBlock).map fun i => (i.name, i))

/-! ### What it raises

`int` refuses a numeral of more than `maxStrDigits` digits, and `parse` raises its `ValueError`. -/

/-- The line starts a block. -/
def isHeader (line : String) : Bool :=
  match line.toList with
  | c :: _ => !Text.isSpace c && (matchStart HEADER_RE line).isSome
  | [] => false

/-- `int(m.group(name))` raises, where the group has matched. -/
def intRaises (m : List (String × List Char)) (name : String) : Bool :=
  (groupOf m name).isSome && (intOf m name).isNone

/-- The line, read by the first expression that matches it, has such a numeral. -/
def lineRaises (line : String) : Bool :=
  (matchStart MEMBER_RE line).isNone && (matchStart INET_RE line).isNone &&
    match matchStart VLAN_RE line with
    | some m => intRaises m "vid"
    | none =>
        (matchStart ETHER_RE line).isNone && (matchStart GROUPS_RE line).isNone &&
          (matchStart DESCR_RE line).isNone && (matchStart STATUS_RE line).isNone &&
          match search MAXADDR_RE line with
          | some m => Text.startsWith (String.ofList (line.toList.dropWhile Text.isSpace)) "maxage" &&
              intRaises m "maxaddr"
          | none => false

def blockRaises : List String → Bool
  | [] => false
  | header :: rest =>
      ((matchStart HEADER_RE header).any fun m => intRaises m "metric" || intRaises m "mtu") ||
        rest.any lineRaises

/-- `parse(text)`; `none` is the `ValueError`. -/
def parseExc (text : String) : Option (Dict String Interface) :=
  if (splitBlocks text).any blockRaises then none else some (parse text)

/-- Parse ifconfig -g output into interface names, in kernel order. -/
def parseGroupList (text : String) : List String :=
  ((Text.splitLines text).map Text.strip).filter (· ≠ "")

end Ifconfig

end Bsdbridge
