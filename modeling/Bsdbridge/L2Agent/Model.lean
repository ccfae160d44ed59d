import Bsdbridge.Names

/-!
# `l2_agent/model.py` — the desired state

The model classes, their field checks, and the tree builder `Model.from_tree`. A tree is what a
JSON document can hold; a class is described by a `Schema` (its keys, aliases and nested models),
and `fromTree` is the one walk all of them share. A closed vocabulary (`ACTION_RE`, `PROTO_RE`,
`TYPE_RE`) is an inductive type, so a checked rule cannot hold another word.

`SchemaError` is kept as data: the constructor says which check refused, the arguments are the
label, path and value its message is made of.

The walk of the source is over `kwargs` that grow, and so is the walk here: an item is looked up,
checked against the keys seen so far, converted, and added. What the constructor of a class does is
a separate step, `make`, with the defaults of the class and the checks of its `__post_init__`, in
their order. So an error names what the source would have raised first.

Two exceptions come out of it. A `SchemaError` is what the source means to raise; a `ValueError` is
what it raises when it fails to print a value for its message, which `Tree.prints` decides. Values
that no field looks into stay trees.
-/

set_option autoImplicit false

namespace Bsdbridge

/-- A node of a document: what `from_tree` is given. -/
inductive Tree
  | null
  | bool (b : Bool)
  | int (n : Int)
  | str (s : String)
  | list (items : List Tree)
  | dict (items : List (String × Tree))

inductive SchemaError
  | expectedMapping (path : String) (got : Tree)
  | unknownKey (path key : String)
  | givenTwice (path key : String)
  | missingKey (path name : String)
  /-- `raise SchemaError(f"{where}: {exc}")`. -/
  | under (path : String) (err : SchemaError)
  | notMac (value : Tree)
  | badPort (value : Tree)
  | expectedString (label : String) (got : Tree)
  | shorter (label value : String) (bound : Nat)
  | longer (label value : String) (bound : Nat)
  | notOneOf (label value pattern : String)
  | expectedInt (label : String) (got : Tree)
  | less (label : String) (value bound : Int)
  | greater (label : String) (value bound : Int)
  | expectedList (label : String) (got : Tree)
  | vxlanAlsoNamed
  | vlanNeedsPhysnet
  | noRealization
  | memberName (name : String)
  | badRuleNumber (num : String)
  | duplicateRuleNumber (key : Int)
  | unknownPhysnet (bridge physnet : String)
  | unknownFilter (bridge member filter : String)
  | unknownTable (filter : String) (num : Int) (ref : String)

/-- IFNAMSIZ less the NUL. -/
def IFNAME_MAX : Nat := 15

/-! ## The models -/

/-- A physical fabric: its trunk parent interface. -/
structure Physnet where
  trunk : String
  description : String := ""
  deriving DecidableEq

/-- A vxlan realization: VNI, local endpoint, and peer endpoints. -/
structure VxlanSegment where
  vni : Int
  local_ : String
  peers : List String := []
  deriving DecidableEq

/-- A bridge's segment realization: vlan, flat, or vxlan. -/
structure Segment where
  physnet : Option String := none
  vlan : Option Int := none
  vxlan : Option VxlanSegment := none
  deriving DecidableEq

/-- Port security for one member: the locked MAC and address. -/
structure Bind where
  mac : String
  address : String
  deriving DecidableEq

/-- `TYPE_RE`. -/
inductive MemberType | tap | epair
  deriving DecidableEq

/-- One bridge member, manufactured if typed, attached hardware if not. -/
structure Member where
  type : Option MemberType := none
  filter : Option String := none
  description : String := ""
  bind : Option Bind := none
  deriving DecidableEq

/-- One bridge: segment realization plus its members. -/
structure Bridge where
  description : String := ""
  maxAddresses : Int := 2000
  segment : Option Segment := none
  member : Dict String Member := ∅
  deriving DecidableEq

/-- `ACTION_RE`. -/
inductive Action | pass | block
  deriving DecidableEq

/-- `PROTO_RE`. -/
inductive Proto | tcp | udp | icmp | icmp6
  deriving DecidableEq

/-- A canonical port: an int, or a `lo-hi` range string. -/
inductive PortSpec
  | one (n : Int)
  | range (lo hi : Int)
  deriving DecidableEq

/-- One first-match filter rule. -/
structure FilterRule where
  action : Action
  proto : Option Proto := none
  port : Option PortSpec := none
  from_ : String := "any"
  to_ : String := "any"
  deriving DecidableEq

/-- A named filter: numbered in and out rules, in the workload's view. -/
structure Filter where
  in_ : Dict Int FilterRule := ∅
  out : Dict Int FilterRule := ∅
  deriving DecidableEq

/-- A named address table. -/
structure Table where
  members : List String := []
  deriving DecidableEq

/-- The whole desired document. -/
structure Config where
  physnet : Dict String Physnet := ∅
  bridge : Dict String Bridge := ∅
  table : Dict String Table := ∅
  filter : Dict String Filter := ∅
  deriving DecidableEq

/-- A string that counts as set: not `None`, not empty. -/
def truthy : Option String → Option String
  | some "" | none => none
  | some s => some s

theorem truthy_eq_some {o : Option String} {s : String} :
    truthy o = some s ↔ o = some s ∧ s ≠ "" := by
  cases o with
  | none => simp [truthy]
  | some t =>
    by_cases ht : t = ""
    · subst ht
      refine iff_of_false (by simp [truthy]) ?_
      rintro ⟨hs, hne⟩
      exact hne (Option.some.inj hs).symm
    · have heq : truthy (some t) = some t := by
        unfold truthy
        split
        · rename_i h
          exact absurd (Option.some.inj h) ht
        · rename_i h
          exact absurd h (by simp)
        · rename_i h
          exact h.symm ▸ rfl
      rw [heq]
      constructor
      · intro h
        exact ⟨h, Option.some.inj h ▸ ht⟩
      · exact fun h => h.1

/-! ## Field checks -/

def isLowerHex (c : Char) : Bool := c.isDigit || ('a' ≤ c && c ≤ 'f')

/-- `MAC_RE`. -/
def isMac (l : List Char) : Bool :=
  l.length == 17 &&
    l.zipIdx.all fun ci => if ci.2 % 3 = 2 then ci.1 == ':' else isLowerHex ci.1

/-- Lowercase and validate a MAC address string. Only a string can spell one: `str` of any
other value holds a character no MAC has. -/
def canonicalMac : Tree → Except SchemaError String
  | .str s =>
      let mac := String.ofList ((Text.trim Text.isSpace s.toList).map Char.toLower)
      if isMac mac.toList then .ok mac else .error (.notMac (.str s))
  | v => .error (.notMac v)

/-- `lo if lo == hi else f"{lo}-{hi}"`, for bounds that make a range. -/
def portSpec (value : Tree) (lo hi : Int) : Except SchemaError (Option PortSpec) :=
  if 1 ≤ lo ∧ lo ≤ 65535 ∧ lo ≤ hi ∧ hi ≤ 65535 then
    .ok (some (if lo = hi then .one lo else .range lo hi))
  else .error (.badPort value)

/-- Canonicalize a port to an int or a lo-hi range string. -/
def canonicalPort : Tree → Except SchemaError (Option PortSpec)
  | .null => .ok none
  | .int n => portSpec (.int n) n n
  | .str s =>
      let (loS, sep, rest) := Text.partition s '-'
      let hiS := if sep then rest else loS
      match Text.readInt loS, Text.readInt hiS with
      | some lo, some hi => portSpec (.str s) lo hi
      | _, _ => .error (.badPort (.str s))
  | v => .error (.badPort v)

def checkStr (label : String) (minLength : Nat) (maxLength : Option Nat) :
    Tree → Except SchemaError String
  | .str s =>
      if s.length < minLength then .error (.shorter label s minLength)
      else
        match maxLength with
        | some m => if m < s.length then .error (.longer label s m) else .ok s
        | none => .ok s
  | v => .error (.expectedString label v)

/-- `check_str` against a closed vocabulary. -/
def checkWord {α : Type} (label pattern : String) (words : List (String × α)) :
    Tree → Except SchemaError α
  | .str s =>
      match words.lookup s with
      | some w => .ok w
      | none => .error (.notOneOf label s pattern)
  | v => .error (.expectedString label v)

def checkInt (label : String) (ge : Int) (le : Option Int) : Tree → Except SchemaError Int
  | .int n =>
      if n < ge then .error (.less label n ge)
      else
        match le with
        | some m => if m < n then .error (.greater label n m) else .ok n
        | none => .ok n
  | v => .error (.expectedInt label v)

def checkStrList (label : String) : Tree → Except SchemaError (List String)
  | .list items => items.mapM fun item =>
      match item with
      | .str s => .ok s
      | v => .error (.expectedString label v)
  | v => .error (.expectedList label v)

/-! ## `Model.from_tree` -/

/-- The keyword arguments `from_tree` collects for the fields that are not models. -/
abbrev Kwargs := String → Option Tree

/-- What `from_tree` reads off a class: its fields (and which have no default), its aliases,
how one value becomes an argument (`_child`), and the constructor with its checks. -/
structure Schema (κ α : Type) where
  cls : String
  fields : List (String × Bool)
  aliases : List (String × String) := []
  start : κ
  child : String → Tree → String → κ → Except SchemaError κ
  make : κ → Except SchemaError α

namespace Schema

variable {κ α : Type}

/-- One round of the key loop: the names given so far, and their arguments. -/
def step (S : Schema κ α) (path : String) (st : List String × κ) (item : String × Tree) :
    Except SchemaError (List String × κ) :=
  let name := (S.aliases.lookup item.1).getD item.1
  if (S.fields.lookup name).isNone then .error (.unknownKey path item.1)
  else if name ∈ st.1 then .error (.givenTwice path item.1)
  else do
    let kw ← S.child name item.2 (path ++ "." ++ item.1) st.2
    pure (name :: st.1, kw)

def fromTree (S : Schema κ α) (data : Tree) (path : String) : Except SchemaError α :=
  match data with
  | .dict items => do
      let (given, kw) ← items.foldlM (S.step path) ([], S.start)
      match S.fields.find? fun f => f.2 && !given.contains f.1 with
      | some f => .error (.missingKey path f.1)
      | none =>
          match S.make kw with
          | .ok m => .ok m
          | .error e => .error (.under path e)
  | v => .error (.expectedMapping path v)

end Schema

/-- A value that stays as the tree has it. -/
def rawChild (name : String) (value : Tree) (_path : String) (kw : Kwargs) :
    Except SchemaError Kwargs :=
  .ok fun n => if n = name then some value else kw n

/-- `_nested`: a nested model, or `None`. -/
def nestedChild {α : Type} (sub : Tree → String → Except SchemaError α) (value : Tree)
    (path : String) : Except SchemaError (Option α) :=
  match value with
  | .null => .ok none
  | v => do
      let m ← sub v path
      pure (some m)

/-- `_nested_map`: a mapping of nested models. -/
def nestedMapChild {α : Type} (sub : Tree → String → Except SchemaError α) (value : Tree)
    (path : String) : Except SchemaError (Dict String α) :=
  match value with
  | .null => .ok ∅
  | .dict items => do
      let pairs ← items.mapM fun e => do
        let m ← sub e.2 (path ++ "." ++ e.1)
        pure (e.1, m)
      pure (Dict.ofList pairs)
  | v => .error (.expectedMapping path v)

/-- A field whose default is `None`: `None` passes, anything else is checked. -/
def optionalField {α : Type} (check : Tree → Except SchemaError α) :
    Option Tree → Except SchemaError (Option α)
  | none | some .null => .ok none
  | some v => do
      let a ← check v
      pure (some a)

/-! ## The classes

One namespace for each, with its fields, its arguments as `from_tree` hands them over, and its
checks. -/

namespace Physnet

def make (kw : Kwargs) : Except SchemaError Physnet := do
  let trunk ← checkStr "Physnet.trunk" 1 (some IFNAME_MAX) ((kw "trunk").getD .null)
  let description ← checkStr "Physnet.description" 0 none ((kw "description").getD (.str ""))
  pure { trunk, description }

def schema : Schema Kwargs Physnet where
  cls := "Physnet"
  fields := [("trunk", true), ("description", false)]
  start := fun _ => none
  child := rawChild
  make := make

def fromTree : Tree → String → Except SchemaError Physnet := schema.fromTree

end Physnet

namespace VxlanSegment

def make (kw : Kwargs) : Except SchemaError VxlanSegment := do
  let vni ← checkInt "VxlanSegment.vni" 1 (some 16777215) ((kw "vni").getD .null)
  let local_ ← checkStr "VxlanSegment.local" 0 none ((kw "local").getD .null)
  let peers ← checkStrList "VxlanSegment.peers" ((kw "peers").getD (.list []))
  pure { vni, local_, peers }

def schema : Schema Kwargs VxlanSegment where
  cls := "VxlanSegment"
  fields := [("vni", true), ("local", true), ("peers", false)]
  start := fun _ => none
  child := rawChild
  make := make

def fromTree : Tree → String → Except SchemaError VxlanSegment := schema.fromTree

end VxlanSegment

namespace Segment

/-- The arguments of `Segment`: the plain ones, and the nested vxlan. -/
structure Args where
  raw : Kwargs
  vxlan : Option VxlanSegment

/-- Require exactly one realization form. -/
def check (s : Segment) : Except SchemaError Segment :=
  match s.vxlan with
  | some _ =>
      if (truthy s.physnet).isSome || (s.vlan.isSome && s.vlan ≠ some 0) then
        .error .vxlanAlsoNamed
      else .ok s
  | none =>
      if s.vlan.isSome then
        if (truthy s.physnet).isNone then .error .vlanNeedsPhysnet else .ok s
      else if (truthy s.physnet).isNone then .error .noRealization
      else .ok s

def make (kw : Args) : Except SchemaError Segment := do
  let physnet ← optionalField (checkStr "Segment.physnet" 0 none) (kw.raw "physnet")
  let vlan ← optionalField (checkInt "Segment.vlan" 1 (some 4094)) (kw.raw "vlan")
  check { physnet, vlan, vxlan := kw.vxlan }

def schema : Schema Args Segment where
  cls := "Segment"
  fields := [("physnet", false), ("vlan", false), ("vxlan", false)]
  start := ⟨fun _ => none, none⟩
  child := fun name value path kw =>
    if name = "vxlan" then do
      let v ← nestedChild VxlanSegment.fromTree value path
      pure { kw with vxlan := v }
    else do
      let r ← rawChild name value path kw.raw
      pure { kw with raw := r }
  make := make

def fromTree : Tree → String → Except SchemaError Segment := schema.fromTree

end Segment

namespace Bind

def make (kw : Kwargs) : Except SchemaError Bind := do
  let mac ← canonicalMac ((kw "mac").getD .null)
  let address ← checkStr "Bind.address" 0 none ((kw "address").getD .null)
  pure { mac, address }

def schema : Schema Kwargs Bind where
  cls := "Bind"
  fields := [("mac", true), ("address", true)]
  start := fun _ => none
  child := rawChild
  make := make

def fromTree : Tree → String → Except SchemaError Bind := schema.fromTree

end Bind

namespace Member

structure Args where
  raw : Kwargs
  bind : Option Bind

def make (kw : Args) : Except SchemaError Member := do
  let type ← optionalField
    (checkWord "Member.type" "tap|epair" [("tap", MemberType.tap), ("epair", MemberType.epair)])
    (kw.raw "type")
  let filter ← optionalField (checkStr "Member.filter" 0 none) (kw.raw "filter")
  let description ←
    checkStr "Member.description" 0 none ((kw.raw "description").getD (.str ""))
  pure { type, filter, description, bind := kw.bind }

def schema : Schema Args Member where
  cls := "Member"
  fields := [("type", false), ("filter", false), ("description", false), ("bind", false)]
  start := ⟨fun _ => none, none⟩
  child := fun name value path kw =>
    if name = "bind" then do
      let b ← nestedChild Bind.fromTree value path
      pure { kw with bind := b }
    else do
      let r ← rawChild name value path kw.raw
      pure { kw with raw := r }
  make := make

def fromTree : Tree → String → Except SchemaError Member := schema.fromTree

end Member

namespace Bridge

structure Args where
  raw : Kwargs
  segment : Option Segment
  member : Dict String Member

def make (kw : Args) : Except SchemaError Bridge := do
  let description ←
    checkStr "Bridge.description" 0 none ((kw.raw "description").getD (.str ""))
  let maxAddresses ←
    checkInt "Bridge.max_addresses" 1 none ((kw.raw "max_addresses").getD (.int 2000))
  match kw.member.keys.find? fun name => IFNAME_MAX < name.length with
  | some name => .error (.memberName name)
  | none => pure { description, maxAddresses, segment := kw.segment, member := kw.member }

def schema : Schema Args Bridge where
  cls := "Bridge"
  fields := [("description", false), ("max_addresses", false), ("segment", false),
    ("member", false)]
  aliases := [("max-addresses", "max_addresses")]
  start := ⟨fun _ => none, none, ∅⟩
  child := fun name value path kw =>
    if name = "segment" then do
      let s ← nestedChild Segment.fromTree value path
      pure { kw with segment := s }
    else if name = "member" then do
      let m ← nestedMapChild Member.fromTree value path
      pure { kw with member := m }
    else do
      let r ← rawChild name value path kw.raw
      pure { kw with raw := r }
  make := make

def fromTree : Tree → String → Except SchemaError Bridge := schema.fromTree

end Bridge

namespace FilterRule

def make (kw : Kwargs) : Except SchemaError FilterRule := do
  let action ← checkWord "FilterRule.action" "pass|block"
    [("pass", Action.pass), ("block", Action.block)] ((kw "action").getD .null)
  let proto ← optionalField
    (checkWord "FilterRule.proto" "tcp|udp|icmp|icmp6"
      [("tcp", Proto.tcp), ("udp", Proto.udp), ("icmp", Proto.icmp), ("icmp6", Proto.icmp6)])
    (kw "proto")
  let port ← canonicalPort ((kw "port").getD .null)
  let from_ ← checkStr "FilterRule.from_" 0 none ((kw "from_").getD (.str "any"))
  let to_ ← checkStr "FilterRule.to" 0 none ((kw "to").getD (.str "any"))
  pure { action, proto, port, from_, to_ }

def schema : Schema Kwargs FilterRule where
  cls := "FilterRule"
  fields := [("action", true), ("proto", false), ("port", false), ("from_", false),
    ("to", false)]
  aliases := [("from", "from_")]
  start := fun _ => none
  child := rawChild
  make := make

def fromTree : Tree → String → Except SchemaError FilterRule := schema.fromTree

end FilterRule

/-- Normalize a rule table, int-ifying numbers and refusing duplicates. -/
def intRules (rules : Dict String FilterRule) : Except SchemaError (Dict Int FilterRule) :=
  rules.entries.foldlM (fun out e =>
    match Text.readInt e.1 with
    | none => .error (.badRuleNumber e.1)
    | some key =>
        if key ∈ out then .error (.duplicateRuleNumber key) else .ok (out.insert key e.2)) ∅

namespace Filter

structure Args where
  in_ : Dict String FilterRule
  out : Dict String FilterRule

def make (kw : Args) : Except SchemaError Filter := do
  let in_ ← intRules kw.in_
  let out ← intRules kw.out
  pure { in_, out }

def schema : Schema Args Filter where
  cls := "Filter"
  fields := [("in_", false), ("out", false)]
  aliases := [("in", "in_")]
  start := ⟨∅, ∅⟩
  child := fun name value path kw => do
    let rules ← nestedMapChild FilterRule.fromTree value path
    pure (if name = "in_" then { kw with in_ := rules } else { kw with out := rules })
  make := make

def fromTree : Tree → String → Except SchemaError Filter := schema.fromTree

end Filter

namespace Table

/-- Sort and de-duplicate members. -/
def make (kw : Kwargs) : Except SchemaError Table := do
  let members ← checkStrList "Table.members" ((kw "members").getD (.list []))
  pure { members := sortedSet members.toFinset }

def schema : Schema Kwargs Table where
  cls := "Table"
  fields := [("members", false)]
  start := fun _ => none
  child := rawChild
  make := make

def fromTree : Tree → String → Except SchemaError Table := schema.fromTree

end Table

namespace Config

/-- The names a rule's addresses refer to: `ref[1:]` of a `@ref`. -/
def tableRef (ref : String) : Option String :=
  if Text.startsWith ref "@" then some (Text.drop ref 1) else none

/-- The first dangling reference of a filter's rules. -/
def danglingTable (tables : Dict String Table) (fname : String) (filt : Filter) :
    Option SchemaError :=
  (filt.in_.entries ++ filt.out.entries).findSome? fun e =>
    [e.2.from_, e.2.to_].findSome? fun ref =>
      match tableRef ref with
      | some t => if t ∈ tables then none else some (.unknownTable fname e.1 ref)
      | none => none

/-- The first dangling reference of a bridge: its physnet, then its members' filters. -/
def danglingBridge (c : Config) (bname : String) (bridge : Bridge) : Option SchemaError :=
  let seg := match bridge.segment with
    | some s =>
        match truthy s.physnet with
        | some p => if p ∈ c.physnet then none else some (SchemaError.unknownPhysnet bname p)
        | none => none
    | none => none
  seg <|> bridge.member.entries.findSome? fun e =>
    match truthy e.2.filter with
    | some f => if f ∈ c.filter then none else some (.unknownFilter bname e.1 f)
    | none => none

/-- The first dangling cross-reference. -/
def dangling (c : Config) : Option SchemaError :=
  (c.bridge.entries.findSome? fun e => danglingBridge c e.1 e.2) <|>
    c.filter.entries.findSome? fun e => danglingTable c.table e.1 e.2

/-- Refuse dangling cross-references. -/
def make (c : Config) : Except SchemaError Config :=
  match dangling c with
  | some e => .error e
  | none => .ok c

def schema : Schema Config Config where
  cls := "Config"
  fields := [("physnet", false), ("bridge", false), ("table", false), ("filter", false)]
  start := {}
  child := fun name value path kw =>
    if name = "physnet" then do
      let d ← nestedMapChild Physnet.fromTree value path
      pure { kw with physnet := d }
    else if name = "bridge" then do
      let d ← nestedMapChild Bridge.fromTree value path
      pure { kw with bridge := d }
    else if name = "table" then do
      let d ← nestedMapChild Table.fromTree value path
      pure { kw with table := d }
    else do
      let d ← nestedMapChild Filter.fromTree value path
      pure { kw with filter := d }
  make := make

def fromTree (data : Tree) : Except SchemaError Config := schema.fromTree data "Config"

end Config

/-! ## What `from_tree` raises

Every message quotes the value it refuses with `!r`, and `repr` prints no integer of more than
`maxStrDigits` digits: it raises a plain `ValueError`. A constructor's message is made inside
the `try` of `from_tree`, whose `except ValueError` turns that one into a `SchemaError` as
well. A message about a mapping is made outside it. The depth a `repr` can go to is not
modelled, no more than the memory it needs. -/

mutual

/-- `repr` prints the value. -/
def Tree.prints : Tree → Bool
  | .int n => n.natAbs < 10 ^ Text.maxStrDigits
  | .list items => printsAll items
  | .dict items => printsValues items
  | _ => true

def Tree.printsAll : List Tree → Bool
  | [] => true
  | v :: rest => v.prints && printsAll rest

def Tree.printsValues : List (String × Tree) → Bool
  | [] => true
  | (_, v) :: rest => v.prints && printsValues rest

end

/-- An exception of `Config.from_tree`. -/
inductive TreeExc
  | schemaError (err : SchemaError)
  /-- `ValueError`, of the `repr` of a value. -/
  | valueError (got : Tree)

/-- The exception a refusal comes out as. -/
def SchemaError.raised : SchemaError → TreeExc
  | .expectedMapping path got =>
      if got.prints then .schemaError (.expectedMapping path got) else .valueError got
  | err => .schemaError err

/-- `canonical_port(value)`, with the exception it raises when it is called by itself: the message
quotes the value. -/
def canonicalPortExc (value : Tree) : Except TreeExc (Option PortSpec) :=
  (canonicalPort value).mapError fun err =>
    if value.prints then .schemaError err else .valueError value

/-- `Config.from_tree(data)`, with the exception it raises. -/
def Config.fromTreeExc (data : Tree) : Except TreeExc Config :=
  (fromTree data).mapError SchemaError.raised

end Bsdbridge
