import Bsdbridge.Lib.Text

/-!
# Translation rules of a packet filter

The binat and nat lines of a packet filter, as far as the lines below need them, and what a list of
them makes of an address that leaves by an interface or comes in by it. A binat rule goes both ways
and before any nat rule; of one kind the first that applies decides. What an address text stands
for is left to a parameter.

Lines that are no translation rules are skipped, since a file holds filter rules as well. A rule is
of one interface, and what it says of another is nothing. Ports are left alone: nat rewrites the
address of a source and, in the kernel, its port, and only the first is read here.
-/

set_option autoImplicit false

namespace PacketFilter

/-- A translation rule of an interface, for packets to anywhere. -/
inductive Translation
  | binat (source target : String)
  | nat (sources : List String) (target : String)
  deriving DecidableEq

namespace Translation

/-! ## 1. What a rule does -/

section

variable {α : Type} (lies : String → α → Bool)

/-- The address a binat rule gives to a source. -/
def binatOut (s : α) : Translation → Option String
  | binat source target => if lies source s then some target else none
  | nat _ _ => none

/-- The address a nat rule gives to a source. -/
def natOut (s : α) : Translation → Option String
  | binat _ _ => none
  | nat sources target => if sources.any fun text => lies text s then some target else none

/-- The address a binat rule gives back to a destination. -/
def binatIn (d : α) : Translation → Option String
  | binat source target => if lies target d then some source else none
  | nat _ _ => none

/-- The source of a packet that goes out, if it is translated. -/
def outbound (rules : List Translation) (s : α) : Option String :=
  (rules.findSome? (binatOut lies s)).or (rules.findSome? (natOut lies s))

/-- The destination of a packet that comes in, if it is translated. -/
def inbound (rules : List Translation) (d : α) : Option String := rules.findSome? (binatIn lies d)

end

/-! ## 2. Lines -/

/-- A list of sources up to its closing brace, and the words after it. -/
def readSources : List String → Option (List String × List String)
  | [] => none
  | w :: r =>
      if w.toList.getLast? = some ',' then
        (readSources r).map fun p => (String.ofList w.toList.dropLast :: p.1, p.2)
      else if r.head? = some "\x7d" then some ([w], r.tail)
      else none

/-- The end of a line: `to any -> target`. -/
def readTarget : List String → Option String
  | ["to", "any", "->", target] => some target
  | _ => none

/-- The words of a line, as the interface and the rule. -/
def readWords : List String → Option (String × Translation)
  | "binat" :: "on" :: iface :: "inet" :: "from" :: source :: r =>
      (readTarget r).map fun target => (iface, binat source target)
  | "nat" :: "on" :: iface :: "inet" :: "from" :: "\x7b" :: r => do
      let (sources, r) ← readSources r
      (readTarget r).map fun target => (iface, nat sources target)
  | _ => none

/-- A line, as a rule of an interface. -/
def ruleOn (iface line : String) : Option Translation :=
  (readWords (Text.words line)).bind fun p => if p.1 = iface then some p.2 else none

/-- The translation rules a text has for an interface. -/
def rulesOn (iface text : String) : List Translation :=
  (Text.splitLines text).filterMap (ruleOn iface)

/-! ## 3. Readings -/

theorem readSources_last {w : String} {r : List String} (hw : ',' ∉ w.toList) :
    readSources (w :: "\x7d" :: r) = some ([w], r) := by
  unfold readSources
  rw [if_neg fun h => hw (List.mem_of_getLast? h), if_pos List.head?_cons, List.tail_cons]

theorem readSources_cons {w : String} {r : List String} :
    readSources ((w ++ ",") :: r) = (readSources r).map fun p => (w :: p.1, p.2) := by
  have hlist : (w ++ ",").toList = w.toList ++ [','] := by simp
  rw [readSources, if_pos (by rw [hlist]; exact List.getLast?_concat), hlist,
    List.dropLast_concat, String.ofList_toList]

/-- A line that begins otherwise is no translation rule. -/
theorem readWords_other {w : String} {r : List String} (hbinat : w ≠ "binat") (hnat : w ≠ "nat") :
    readWords (w :: r) = none := by
  unfold readWords
  split
  · rename_i heq
    exact absurd (List.cons.inj heq).1 hbinat
  · rename_i heq
    exact absurd (List.cons.inj heq).1 hnat
  · rfl

/-- The words of a list with commas. -/
def listed : List String → List String
  | [] => []
  | [w] => [w]
  | w :: rest => (w ++ ",") :: listed rest

theorem words_listed {l : List String} (h : ∀ w ∈ l, Text.Word w) :
    Text.words (", ".intercalate l) = listed l := by
  induction l with
  | nil => rfl
  | cons a rest ih =>
    have ha := h a List.mem_cons_self
    cases rest with
    | nil => rw [String.intercalate_singleton, Text.words_word ha]; rfl
    | cons b rest =>
      have hcomma : Text.Word (a ++ ",") := by
        refine ha.append fun c hc => ?_
        obtain rfl : c = ',' := by simpa using hc
        decide
      have hsplit : a ++ ", " ++ ", ".intercalate (b :: rest) =
          (a ++ ",") ++ " " ++ ", ".intercalate (b :: rest) := by
        refine String.toList_injective ?_
        simp
      rw [String.intercalate_cons_cons, hsplit, Text.words_append, Text.words_word hcomma,
        ih fun w hw => h w (List.mem_cons_of_mem _ hw)]
      rfl

/-- A list with commas is read back. -/
theorem readSources_listed {l r : List String} (hne : l ≠ []) (h : ∀ w ∈ l, ',' ∉ w.toList) :
    readSources (listed l ++ "\x7d" :: r) = some (l, r) := by
  induction l with
  | nil => exact absurd rfl hne
  | cons a rest ih =>
    cases rest with
    | nil => exact readSources_last (h a List.mem_cons_self)
    | cons b rest =>
      show readSources ((a ++ ",") :: (listed (b :: rest) ++ "\x7d" :: r)) = _
      rw [readSources_cons, ih (List.cons_ne_nil _ _) fun w hw => h w (List.mem_cons_of_mem _ hw)]
      rfl

theorem readWords_nat {iface target : String} {l : List String} (hne : l ≠ [])
    (h : ∀ w ∈ l, ',' ∉ w.toList) :
    readWords (["nat", "on", iface, "inet", "from", "\x7b"] ++ listed l ++
      ["\x7d", "to", "any", "->", target]) = some (iface, nat l target) := by
  show (readSources (listed l ++ ["\x7d", "to", "any", "->", target])).bind _ = _
  rw [readSources_listed hne h]
  rfl

/-! ## 4. Lists of rules -/

section

variable {α ι : Type} {lies : String → α → Bool} {source target : ι → String} {l : List ι}

theorem findSome?_if {p : ι → Bool} {f : ι → String} :
    l.findSome? (fun i => if p i then some (f i) else none) = (l.find? p).map f := by
  induction l with
  | nil => rfl
  | cons a rest ih =>
    rw [List.findSome?_cons, List.find?_cons]
    cases p a with
    | true => rfl
    | false => exact ih

/-- The binat rules come first, and a nat rule is for what is left. -/
theorem outbound_append {sources : List String} {addr : Option String} {s : α} :
    outbound lies ((l.map fun i => binat (source i) (target i)) ++
        addr.toList.map (nat sources)) s =
      ((l.find? fun i => lies (source i) s).map target).or
        (if sources.any fun text => lies text s then addr else none) := by
  have hbinat : (l.map fun i => binat (source i) (target i)).findSome? (natOut lies s) = none := by
    rw [List.findSome?_eq_none_iff]
    intro rule hrule
    obtain ⟨i, -, rfl⟩ := List.mem_map.mp hrule
    rfl
  have hnone : (addr.toList.map (nat sources)).findSome? (binatOut lies s) = none := by
    rw [List.findSome?_eq_none_iff]
    intro rule hrule
    obtain ⟨a, -, rfl⟩ := List.mem_map.mp hrule
    rfl
  have hnat : (addr.toList.map (nat sources)).findSome? (natOut lies s) =
      if sources.any fun text => lies text s then addr else none := by
    cases addr with
    | none => exact (ite_self _).symm
    | some a =>
      show [nat sources a].findSome? (natOut lies s) = _
      rw [List.findSome?_singleton]
      rfl
  unfold outbound
  rw [List.findSome?_append, List.findSome?_append, hbinat, hnone, hnat, List.findSome?_map,
    Option.or_none, Option.none_or]
  exact congrArg (fun o : Option String => o.or _) findSome?_if

theorem inbound_append {sources : List String} {addr : Option String} {d : α} :
    inbound lies ((l.map fun i => binat (source i) (target i)) ++
        addr.toList.map (nat sources)) d =
      (l.find? fun i => lies (target i) d).map source := by
  have hnat : (addr.toList.map (nat sources)).findSome? (binatIn lies d) = none := by
    rw [List.findSome?_eq_none_iff]
    intro rule hrule
    obtain ⟨a, -, rfl⟩ := List.mem_map.mp hrule
    rfl
  unfold inbound
  rw [List.findSome?_append, hnat, Option.or_none, List.findSome?_map]
  exact findSome?_if

end

end Translation

end PacketFilter
