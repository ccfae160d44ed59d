import Bsdbridge.Host
import Bsdbridge.Lib.Translation
import Bsdbridge.Proof.RuleLines

/-!
# What the text of an anchor loads

`pfctl -f -` is fed a text, and what it makes of the anchor is a matter of that text alone. The
model's `Host.load` says it of the `Ruleset` the text was printed from, which is only right where
the text determines the ruleset, and it does not always: a table of the two members `a` and `b`
prints like one of the single member `a, b`, and a table without members like one whose only
member is empty. A law that asked a runner to load every ruleset that prints a text would ask it
for two anchors at once, and no runner would keep it.

So the law that is asked (`Anchored`, in `Proof/Alike.lean`) is about rulesets made of *atoms*:
words that none of the punctuation of pf.conf(5) occurs in. This file is the check that the law
can be kept, by a runner that sees nothing but the text. `anchorIn` reads a text the way pf does,
line by line and word by word, and **`anchorIn_render`** says that it finds in the text of a
ruleset of atoms exactly what `Host.load` puts there: the tables with their members, and the hash
of the rules.

It is no parser of pf.conf(5). The rules themselves are not read here, since a host of this model
knows an anchor by the hash and the tables only; what the rule lines mean is the matter of
`Proof/Reading.lean`.
-/

set_option autoImplicit false

namespace Bsdbridge

namespace Pf

/-! ## 1. Atoms -/

/-- The characters that pf.conf(5) gives a meaning of their own. -/
def isPunct (c : Char) : Bool := c ∈ [',', '\x7b', '\x7d', '<', '>', '"', '#', '\\', '!', '(', ')']

/-- A word that stands for itself wherever it is put. -/
structure Atom (s : String) : Prop where
  word : Text.Word s
  plain : ∀ c ∈ s.toList, isPunct c = false

theorem atom_iff {s : String} :
    Atom s ↔ Text.Word s ∧ (s.toList.all fun c => !isPunct c) = true := by
  rw [List.all_eq_true]
  constructor
  · exact fun h => ⟨h.word, fun c hc => by rw [h.plain c hc]; rfl⟩
  · exact fun h => ⟨h.1, fun c hc => by simpa using h.2 c hc⟩

instance (s : String) : Decidable (Atom s) := decidable_of_iff' _ atom_iff

theorem Atom.free {s : String} (h : Atom s) {c : Char} (hc : isPunct c = true) : c ∉ s.toList :=
  fun hmem => absurd ((h.plain c hmem).symm.trans hc) (by decide)

theorem Atom.quiet {s : String} (h : Atom s) : Quiet s := by
  intro c hc
  refine ⟨?_, Text.oneLine_of_noSpace h.word.noSpace c hc⟩
  rintro rfl
  exact h.free (by decide) hc

/-- What an anchor is made of, in atoms: its interface, the ends of its rules, the address it is
locked to, and the members of the tables its rules refer to. -/
structure Printable (ifname : String) (filt : Option Filter) (bind : Option Bind)
    (tables : List (String × List String)) : Prop where
  iface : Atom ifname
  ends : ∀ f, filt = some f → ∀ r ∈ f.in_.values ++ f.out.values, Atom r.from_ ∧ Atom r.to_
  address : ∀ b, bind = some b → Atom b.address
  members : ∀ t ∈ tablesReferenced filt, ∀ m ∈ (tables.lookup t).getD [], Atom m

theorem printable_iff {ifname : String} {filt : Option Filter} {bind : Option Bind}
    {tables : List (String × List String)} : Printable ifname filt bind tables ↔
      Atom ifname ∧ (∀ f ∈ filt, ∀ r ∈ f.in_.values ++ f.out.values, Atom r.from_ ∧ Atom r.to_) ∧
        (∀ b ∈ bind, Atom b.address) ∧
        ∀ t ∈ tablesReferenced filt, ∀ m ∈ (tables.lookup t).getD [], Atom m :=
  ⟨fun h => ⟨h.iface, h.ends, h.address, h.members⟩, fun h => ⟨h.1, h.2.1, h.2.2.1, h.2.2.2⟩⟩

instance (ifname : String) (filt : Option Filter) (bind : Option Bind)
    (tables : List (String × List String)) : Decidable (Printable ifname filt bind tables) :=
  decidable_of_iff' _ printable_iff

theorem Printable.quiet {ifname : String} {filt : Option Filter} {bind : Option Bind}
    {tables : List (String × List String)} (h : Printable ifname filt bind tables) :
    QuietParts filt bind where
  ends := fun f hf r hr => ⟨(h.ends f hf r hr).1.quiet, (h.ends f hf r hr).2.quiet⟩
  address := fun b hb => (h.address b hb).quiet

/-- A table a rule refers to is named by what stands after the `@`. -/
theorem Printable.table {ifname : String} {filt : Option Filter} {bind : Option Bind}
    {tables : List (String × List String)} (h : Printable ifname filt bind tables) {t : String}
    (ht : t ∈ tablesReferenced filt) : ∀ c ∈ t.toList, Text.isSpace c = false := by
  have htail : ∀ ref, Atom ref → Config.tableRef ref = some t →
      ∀ c ∈ t.toList, Text.isSpace c = false := by
    intro ref hatom href c hc
    unfold Config.tableRef at href
    split at href
    · obtain rfl := Option.some.inj href
      rw [Text.drop, String.toList_ofList] at hc
      exact hatom.word.noSpace c (List.mem_of_mem_drop hc)
    · cases href
  cases filt with
  | none => exact absurd ht (by simp [tablesReferenced])
  | some f =>
    unfold tablesReferenced at ht
    rw [List.mem_toFinset, List.mem_flatMap] at ht
    obtain ⟨r, hr, hmem⟩ := ht
    obtain ⟨ref, href, heq⟩ := List.mem_filterMap.mp hmem
    obtain ⟨hfrom, hto⟩ := h.ends f rfl r hr
    simp only [List.mem_cons, List.not_mem_nil, or_false] at href
    rcases href with rfl | rfl
    · exact htail _ hfrom heq
    · exact htail _ hto heq

/-! ## 2. Reading a text

pf takes a text by its lines and a line by its words; the members of a table stand between braces,
with commas or blanks between them. -/

/-- The members of a table, up to the closing brace. -/
def membersIn : List String → List String
  | "\x7d" :: _ => []
  | words => ((PacketFilter.Translation.readSources words).map Prod.fst).getD []

/-- A line that defines a table. -/
def tableIn (line : String) : Option (String × List String) :=
  match Text.words line with
  | "table" :: name :: "persist" :: "\x7b" :: rest =>
      some (String.ofList (name.toList.drop 1).dropLast, membersIn rest)
  | _ => none

/-- The hash in the label of a line. -/
def hashIn (line : String) : Option String :=
  ((Text.splitOn line '"')[1]?).map fun label => Text.drop label "l2-neutron:cfg:".length

/-- The anchor a text makes when it is loaded. -/
def anchorIn (text : String) : AnchorState :=
  let lines := Text.splitLines text
  { isLoaded := true
    cfgHash := lines.getLast?.bind hashIn
    tables := Dict.ofList ((lines.filterMap tableIn).map fun t => (t.1, t.2.toFinset)) }

/-! ## 3. The lines of a ruleset, read back -/

def tableLine (t : String × List String) : String :=
  "table <" ++ t.1 ++ "> persist \x7b " ++ ", ".intercalate t.2 ++ " \x7d"

theorem text_eq {r : Ruleset} (hne : r.rules ≠ []) :
    r.text = Text.unlines (r.tables.map tableLine ++ r.rules) :=
  Text.intercalate_newline (by simp [hne])

open PacketFilter.Translation in
theorem membersIn_listed {ms : List String} (h : ∀ m ∈ ms, Atom m) :
    membersIn (listed ms ++ ["\x7d"]) = ms := by
  have hcomma : ∀ m ∈ ms, ',' ∉ m.toList := fun m hm => (h m hm).free (by decide)
  cases ms with
  | nil => rfl
  | cons m rest =>
    have hread := readSources_listed (r := []) (List.cons_ne_nil m rest) hcomma
    have hbrace : (listed (m :: rest) ++ ["\x7d"]).head? ≠ some "\x7d" := by
      have hm : '\x7d' ∉ m.toList := (h m List.mem_cons_self).free (by decide)
      cases rest with
      | nil =>
        intro heq
        obtain rfl : m = "\x7d" := Option.some.inj heq
        exact hm (by decide)
      | cons b rest =>
        intro heq
        have hlist := congrArg String.toList (Option.some.inj heq : m ++ "," = "\x7d")
        have hmem : ',' ∈ ("\x7d" : String).toList := by
          rw [← hlist]
          simp
        exact absurd hmem (by decide)
    unfold membersIn
    split
    · rename_i heq
      rw [heq] at hbrace
      exact absurd rfl hbrace
    · rw [hread]
      rfl

theorem tableIn_tableLine {t : String × List String}
    (ht : ∀ c ∈ t.1.toList, Text.isSpace c = false) (hms : ∀ m ∈ t.2, Atom m) :
    tableIn (tableLine t) = some t := by
  have hname : Text.Word ("<" ++ t.1 ++ ">") := by
    have hopen : Text.Word "<" := by decide +kernel
    refine (hopen.append ht).append fun c hc => ?_
    obtain rfl : c = '>' := by simpa using hc
    decide
  have hline : tableLine t = "table" ++ " " ++ ("<" ++ t.1 ++ ">") ++ " " ++ "persist \x7b" ++ " " ++
      ", ".intercalate t.2 ++ " " ++ "\x7d" := by
    apply String.toList_injective
    simp [tableLine]
  have hhead : Text.words "table" = ["table"] := rfl
  have hmid : Text.words "persist \x7b" = ["persist", "\x7b"] := rfl
  have hlast : Text.words "\x7d" = ["\x7d"] := rfl
  have hwords : Text.words (tableLine t) = "table" :: ("<" ++ t.1 ++ ">") :: "persist" :: "\x7b" ::
      (PacketFilter.Translation.listed t.2 ++ ["\x7d"]) := by
    rw [hline]
    simp only [Text.words_append, hhead, hmid, hlast, Text.words_word hname,
      PacketFilter.Translation.words_listed fun m hm => (hms m hm).word]
    simp
  have hinner : ("<" ++ t.1 ++ ">").toList = '<' :: (t.1.toList ++ ['>']) := by simp
  unfold tableIn
  rw [hwords]
  simp only [membersIn_listed hms, hinner, List.drop_one, List.tail_cons, List.dropLast_concat,
    String.ofList_toList]

theorem tableIn_tableLines {ts : List (String × List String)}
    (hts : ∀ t ∈ ts, (∀ c ∈ t.1.toList, Text.isSpace c = false) ∧ ∀ m ∈ t.2, Atom m) :
    (ts.map tableLine).filterMap tableIn = ts := by
  induction ts with
  | nil => rfl
  | cons t rest ih =>
    obtain ⟨hname, hms⟩ := hts t List.mem_cons_self
    rw [List.map_cons, List.filterMap_cons, tableIn_tableLine hname hms]
    simp only [ih fun u hu => hts u (List.mem_cons_of_mem _ hu)]

theorem tableLine_oneLine {t : String × List String}
    (ht : ∀ c ∈ t.1.toList, Text.isSpace c = false) (hms : ∀ m ∈ t.2, Atom m) :
    Text.OneLine (tableLine t) := by
  have hfront : Text.OneLine "table <" := by decide +kernel
  have hmid : Text.OneLine "> persist \x7b " := by decide +kernel
  have hback : Text.OneLine " \x7d" := by decide +kernel
  have hmembers : Text.OneLine (", ".intercalate t.2) :=
    Text.oneLine_intercalate (by decide +kernel) fun m hm => (hms m hm).quiet.oneLine
  exact (((hfront.append (Text.oneLine_of_noSpace ht)).append hmid).append hmembers).append hback

theorem tableIn_of_head {line : String} (h : (Text.words line).head? ≠ some "table") :
    tableIn line = none := by
  unfold tableIn
  split
  · rename_i heq
    rw [heq] at h
    exact absurd rfl h
  · rfl

/-- No rule line defines a table. -/
theorem tableIn_rule (ifname : String) (l : Line) : tableIn (l.text ifname) = none := by
  have hfirst : (Text.words (l.text ifname)).head? ≠ some "table" := by
    have hsplit : l.text ifname = (if l.action = .pass then "pass" else "block") ++ " " ++
        ((if l.action = .pass then "" else "drop ") ++ l.way.word ++ " " ++
          (("quick on " ++ ifname ++ " ") ++ (l.body ++ l.closing ifname))) := by
      rw [Line.text_parts]
      unfold Line.opening Line.verdict
      apply String.toList_injective
      split <;> simp
    have hpass : Text.words "pass" = ["pass"] := rfl
    have hblock : Text.words "block" = ["block"] := rfl
    rw [hsplit, Text.words_append]
    split
    · rw [hpass]
      simp
    · rw [hblock]
      simp
  exact tableIn_of_head hfirst

theorem hashLine_line (ifname hash : String) : hashLine ifname hash = "block" ++ " " ++
    ("drop in quick on " ++ ifname ++ " all label \"" ++ hashLabel hash ++ "\"") := by
  apply String.toList_injective
  simp [hashLine, labelled]

theorem tableIn_hashLine (ifname hash : String) : tableIn (hashLine ifname hash) = none := by
  have hblock : Text.words "block" = ["block"] := rfl
  apply tableIn_of_head
  rw [hashLine_line, Text.words_append, hblock]
  simp

theorem hashIn_hashLine {ifname hash : String} (hif : '"' ∉ ifname.toList)
    (hhash : HashDigits hash) : hashIn (hashLine ifname hash) = some hash := by
  have hbody : '"' ∉ ("block drop in quick on " ++ ifname ++ " all").toList := by
    have hfront : '"' ∉ "block drop in quick on ".toList := by simp
    have hback : '"' ∉ " all".toList := by simp
    simp only [String.toList_append, List.mem_append, not_or]
    exact ⟨⟨hfront, hif⟩, hback⟩
  have hlabel : '"' ∉ (hashLabel hash).toList := by
    have hfront : '"' ∉ "l2-neutron:cfg:".toList := by simp
    rw [hashLabel, String.toList_append, List.mem_append, not_or]
    exact ⟨hfront, fun hmem => quote_not_hex (hhash.2 _ hmem) rfl⟩
  have hdrop : Text.drop (hashLabel hash) "l2-neutron:cfg:".length = hash := by
    unfold Text.drop hashLabel
    rw [String.toList_append, ← String.length_toList, List.drop_left, String.ofList_toList]
  unfold hashIn hashLine
  rw [splitOn_labelled hbody hlabel]
  exact congrArg some hdrop

theorem hashLine_oneLine {ifname hash : String} (hif : Text.OneLine ifname)
    (hhash : HashDigits hash) : Text.OneLine (hashLine ifname hash) := by
  have hfront : Text.OneLine "block drop in quick on " := by decide +kernel
  have hmid : Text.OneLine " all label \"l2-neutron:cfg:" := by decide +kernel
  have hend : Text.OneLine "\"" := by decide +kernel
  rw [← hashLine_eq]
  refine ((((hfront.append hif).append hmid).append ?_).append hend)
  exact Text.oneLine_of_noSpace fun c hc => not_isSpace_of_isLowerHex (hhash.2 c hc)

/-! ## 4. A whole text -/

/-- **The text of a ruleset of atoms loads what the ruleset says**: its tables, and its hash. -/
theorem anchorIn_render [Hashlib] {ifname : String} {filt : Option Filter} {bind : Option Bind}
    {tables : List (String × List String)} (h : Printable ifname filt bind tables)
    (hhash : HashDigits (cfgHash ifname filt bind)) :
    anchorIn (render ifname filt bind tables).1.text =
      AnchorState.mk true (some (render ifname filt bind tables).2)
        (Dict.ofList ((render ifname filt bind tables).1.tables.map
          fun t => (t.1, t.2.toFinset))) := by
  have htables : ∀ t ∈ (render ifname filt bind tables).1.tables,
      (∀ c ∈ t.1.toList, Text.isSpace c = false) ∧ ∀ m ∈ t.2, Atom m := by
    intro t ht
    obtain ⟨n, hn, rfl⟩ := List.mem_map.mp ht
    exact ⟨h.table (mem_sortedSet.mp hn), h.members n (mem_sortedSet.mp hn)⟩
  have hrules : (render ifname filt bind tables).1.rules =
      (linesOf filt bind).map (Line.text ifname) ++
        [hashLine ifname (cfgHash ifname filt bind)] := by
    show ruleLines ifname filt bind ++ _ = _
    rw [ruleLines_eq, hashLine_eq]
  have hquote : '"' ∉ ifname.toList := h.iface.free (by decide)
  have hlines : ∀ line ∈ (render ifname filt bind tables).1.tables.map tableLine ++
      (render ifname filt bind tables).1.rules, Text.OneLine line := by
    intro line hline
    rw [hrules] at hline
    rcases List.mem_append.mp hline with hline | hline
    · obtain ⟨t, ht, rfl⟩ := List.mem_map.mp hline
      exact tableLine_oneLine (htables t ht).1 (htables t ht).2
    · rcases List.mem_append.mp hline with hline | hline
      · obtain ⟨l, hl, rfl⟩ := List.mem_map.mp hline
        exact Line.text_oneLine h.iface.quiet.oneLine (linesOf_quiet h.quiet l hl)
      · obtain rfl := List.mem_singleton.mp hline
        exact hashLine_oneLine h.iface.quiet.oneLine hhash
  have hread : ((render ifname filt bind tables).1.tables.map tableLine ++
      (render ifname filt bind tables).1.rules).filterMap tableIn =
        (render ifname filt bind tables).1.tables := by
    have hnone : ((linesOf filt bind).map (Line.text ifname)).filterMap tableIn = [] := by
      rw [List.filterMap_eq_nil_iff]
      intro line hline
      obtain ⟨l, -, rfl⟩ := List.mem_map.mp hline
      exact tableIn_rule ifname l
    rw [hrules, List.filterMap_append, List.filterMap_append, tableIn_tableLines htables, hnone,
      List.filterMap_cons, tableIn_hashLine]
    simp
  have hne : (render ifname filt bind tables).1.rules ≠ [] := by
    rw [hrules]
    simp
  have hend : ((render ifname filt bind tables).1.tables.map tableLine ++
      (render ifname filt bind tables).1.rules).getLast? =
        some (hashLine ifname (cfgHash ifname filt bind)) := by
    rw [hrules, ← List.append_assoc]
    exact List.getLast?_concat
  unfold anchorIn
  rw [text_eq hne, Text.splitLines_unlines hlines]
  simp only [hread, hend, Option.bind_some, hashIn_hashLine hquote hhash]
  rfl

end Pf

end Bsdbridge
