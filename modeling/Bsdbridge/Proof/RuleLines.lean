import Bsdbridge.Proof.Labels
import Bsdbridge.Proof.Listing

/-!
# The lines of an anchor

The hash of an anchor is taken of its rule lines, joined to one text. For it to stand for the
rules, the text must say which lines it is made of, and a line what it does:
**`ruleLines_of_join`** and **`Line.text_inj`**. The members of a table are in neither, but the
lines do say which tables are referred to: **`tablesReferenced_lines`**.

`Line` is a line without the interface's name: verdict, way, and the words between the name and the
label. All lines of an anchor are about one interface, and comparing two anchors of one interface
is what a reload decision does, so the name is passed in where text is made.

## Why the texts must be quiet

Joining lines with newlines is reversible only if no line has a newline in it, and labels end at a
quotation mark. References and addresses are strings that the model's constructors do not check for
either, so `QuietParts` asks it of what the anchor is made of. A config that was built from
Neutron's texts has it; one that was read from a document may not, and then two different anchors
can share their text.
-/

set_option autoImplicit false

namespace Bsdbridge

namespace Pf

/-! ## 1. The lines of an anchor

The renderer's lines again, as data; `linesOf` with `text` is what it writes. -/

/-- A rule line, but for the interface: what is done, which way, and what stands after the name. -/
structure Line where
  action : Action
  way : Direction
  body : String
  deriving DecidableEq

namespace Line

def verdict (l : Line) : String := if l.action = .pass then "pass" else "block drop"

/-- The line up to its label. -/
def head (ifname : String) (l : Line) : String :=
  l.verdict ++ " " ++ l.way.word ++ " quick on " ++ ifname ++ " " ++ l.body

/-- A line of an interface. Only a rule that passes is labelled. -/
def text (ifname : String) (l : Line) : String :=
  if l.action = .pass then labelled (l.head ifname ++ " keep state (if-bound)") (stateLabel ifname)
  else l.head ifname

end Line

def bindLinesOf (bind : Bind) : List Line :=
  [⟨.pass, .in_, "inet proto udp from 0.0.0.0 to 255.255.255.255 port 67"⟩,
    ⟨.block, .in_, "inet from ! " ++ bind.address⟩]

def ruleLineOf (direction : Direction) (rule : FilterRule) : Line :=
  ⟨rule.action, DIRECTION direction, " ".intercalate (protoText rule ++ endsText rule)⟩

def filterLinesOf (filt : Filter) : List Line :=
  [(Direction.in_, filt.in_), (Direction.out, filt.out)].flatMap fun side =>
    (numbered side.2).map fun e => ruleLineOf side.1 e.2

/-- The lines of an anchor, but for the interface and the line of the hash. -/
def linesOf (filt : Option Filter) (bind : Option Bind) : List Line :=
  (match bind with | some b => bindLinesOf b | none => []) ++
    (match filt with | some f => filterLinesOf f | none => []) ++ [⟨.block, .out, "all"⟩]

theorem endsText_ne_nil (rule : FilterRule) : endsText rule ≠ [] := by
  unfold endsText
  split <;> simp

theorem intercalate_append {sep : String} {l m : List String} (hl : l ≠ []) (hm : m ≠ []) :
    sep.intercalate (l ++ m) = sep.intercalate l ++ sep ++ sep.intercalate m := by
  induction l with
  | nil => exact absurd rfl hl
  | cons a rest ih =>
    cases rest with
    | nil =>
      obtain ⟨b, more, rfl⟩ := List.exists_cons_of_ne_nil hm
      rw [String.intercalate_singleton, List.singleton_append, String.intercalate_cons_cons]
    | cons b rest =>
      rw [List.cons_append, List.cons_append, String.intercalate_cons_cons,
        String.intercalate_cons_cons, ← List.cons_append, ih (List.cons_ne_nil b rest)]
      simp only [String.append_assoc]

theorem renderRule_text (ifname : String) (direction : Direction) (rule : FilterRule) :
    renderRule ifname direction rule = (ruleLineOf direction rule).text ifname := by
  obtain ⟨b, rest, hbody⟩ : ∃ b rest, protoText rule ++ endsText rule = b :: rest :=
    List.exists_cons_of_ne_nil (by simp [endsText_ne_nil rule])
  have hquick : " quick on " = " " ++ "quick" ++ " " ++ "on" ++ " " := rfl
  have hhead : " ".intercalate ((if rule.action = .pass then "pass" else "block drop") ::
      (DIRECTION direction).word :: "quick" :: "on" :: ifname :: b :: rest) =
        (ruleLineOf direction rule).head ifname := by
    unfold Line.head Line.verdict ruleLineOf
    rw [hbody, hquick]
    simp only [String.intercalate_cons_cons, String.append_assoc]
  rw [renderRule_eq, ← List.append_assoc (protoText rule), hbody]
  unfold Line.text labelText
  by_cases hact : rule.action = .pass
  · have hlabel : " keep state (if-bound)" = " " ++ "keep" ++ " " ++ "state" ++ " " ++
      "(if-bound)" := rfl
    have hquote : " label \"" = " " ++ "label" ++ " " ++ "\"" := rfl
    have hpass : (ruleLineOf direction rule).action = .pass := hact
    simp only [if_pos hact] at hhead ⊢
    rw [if_pos hpass, ← List.append_assoc, ← List.cons_append,
      intercalate_append (List.cons_ne_nil _ _) (List.cons_ne_nil _ _), labelled, hlabel, hquote,
      ← hhead]
    simp only [List.cons_append, List.nil_append, String.intercalate_cons_cons,
      String.intercalate_singleton, String.append_assoc]
  · have hblock : (ruleLineOf direction rule).action ≠ .pass := hact
    simp only [if_neg hact, List.append_nil] at hhead ⊢
    rw [if_neg hblock, ← hhead]
    rfl

theorem ruleLines_eq (ifname : String) (filt : Option Filter) (bind : Option Bind) :
    ruleLines ifname filt bind = (linesOf filt bind).map (Line.text ifname) := by
  have hfilter : ∀ f, filterLines ifname f = (filterLinesOf f).map (Line.text ifname) := by
    intro f
    unfold filterLines filterLinesOf
    simp only [List.map_flatMap, List.map_map, renderRule_text]
    rfl
  have hbind : ∀ b, bindLines ifname b = (bindLinesOf b).map (Line.text ifname) := by
    intro b
    unfold bindLines bindLinesOf
    rw [List.map_cons, List.map_singleton]
    congr 2
    · apply String.toList_injective
      simp [Line.head, Line.verdict, Direction.word]
    · apply String.toList_injective
      simp [Line.text, Line.head, Line.verdict, Direction.word]
  have htail : ["block drop out quick on " ++ ifname ++ " all"] =
      ([⟨.block, .out, "all"⟩] : List Line).map (Line.text ifname) := by
    rw [List.map_singleton]
    congr 1
    apply String.toList_injective
    simp [Line.text, Line.head, Line.verdict, Direction.word]
  unfold ruleLines linesOf
  rw [List.map_append, List.map_append, ← htail]
  congr 2
  · cases bind with
    | none => rfl
    | some b => exact hbind b
  · cases filt with
    | none => rfl
    | some f => exact hfilter f

/-- What the digits of a cfg hash look like. -/
def HashDigits (hash : String) : Prop :=
  hash.toList.length = 16 ∧ ∀ c ∈ hash.toList, isLowerHex c = true

def hashLabel (hash : String) : String := "l2-neutron:cfg:" ++ hash

def hashLine (ifname hash : String) : String :=
  labelled ("block drop in quick on " ++ ifname ++ " all") (hashLabel hash)

theorem hashLine_eq (ifname hash : String) : "block drop in quick on " ++ ifname ++
    " all label \"l2-neutron:cfg:" ++ hash ++ "\"" = hashLine ifname hash := by
  apply String.toList_injective
  simp [hashLine, labelled, hashLabel]

/-! ## 2. What the lines of an anchor say

A line begins with what is done and which way, and what comes after the body depends on these two
only, so the body is what is left. -/

namespace Line

def opening (l : Line) : String := l.verdict ++ " " ++ l.way.word ++ " "

def closing (ifname : String) (l : Line) : String :=
  if l.action = .pass then " keep state (if-bound) label \"" ++ stateLabel ifname ++ "\"" else ""

theorem text_parts (ifname : String) (l : Line) :
    l.text ifname =
      l.opening ++ (("quick on " ++ ifname ++ " ") ++ (l.body ++ l.closing ifname)) := by
  have hquick : " quick on " = " " ++ "quick on " := rfl
  unfold text head opening closing
  split
  · have hlabel :
        " keep state (if-bound) label \"" = " keep state (if-bound)" ++ " label \"" := rfl
    rw [labelled, hquick, hlabel]
    simp only [String.append_assoc]
  · rw [hquick, String.append_empty]
    simp only [String.append_assoc]

/-- A line begins with what is done and which way. -/
theorem opening_inj {l l' : Line} {x y : String} (h : l.opening ++ x = l'.opening ++ y) :
    l.action = l'.action ∧ l.way = l'.way ∧ x = y := by
  obtain ⟨action, way, body⟩ := l
  obtain ⟨action', way', body'⟩ := l'
  have hlist := congrArg String.toList h
  cases action <;> cases action' <;> cases way <;> cases way' <;>
    simp [opening, verdict, Direction.word] at hlist <;>
    simp [String.toList_injective hlist]

/-- **A line of an interface is written in one way only.** -/
theorem text_inj {ifname : String} {l l' : Line} (h : l.text ifname = l'.text ifname) : l = l' := by
  rw [text_parts, text_parts] at h
  obtain ⟨hact, hway, hrest⟩ := opening_inj h
  have hclosing : l.closing ifname = l'.closing ifname := by
    unfold closing
    rw [hact]
  have hlist := congrArg String.toList hrest
  rw [hclosing, String.toList_append (s := "quick on " ++ ifname ++ " "),
    String.toList_append (s := "quick on " ++ ifname ++ " ")] at hlist
  have hbody := List.append_cancel_left hlist
  rw [String.toList_append, String.toList_append] at hbody
  cases l
  cases l'
  simp only [mk.injEq]
  exact ⟨hact, hway, String.toList_injective (List.append_cancel_right hbody)⟩

end Line

theorem linesOf_inj {ifname : String} {filt filt' : Option Filter} {bind bind' : Option Bind}
    (h : ruleLines ifname filt bind = ruleLines ifname filt' bind') :
    linesOf filt bind = linesOf filt' bind' := by
  rw [ruleLines_eq, ruleLines_eq] at h
  exact List.map_injective_iff.mpr (fun l l' => Line.text_inj) h

/-- An end of a rule that is one word, and no bracket of its own. -/
def PlainRef (ref : String) : Prop := Text.Word ref ∧ Text.startsWith ref "<" = false

instance (ref : String) : Decidable (PlainRef ref) := inferInstanceAs (Decidable (_ ∧ _))

/-- The table between brackets. -/
def unbracket (word : String) : Option String :=
  if Text.startsWith word "<" then some (String.ofList (word.toList.drop 1).dropLast) else none

theorem unbracket_renderRef {ref : String} (h : PlainRef ref) :
    unbracket (renderRef ref) = Config.tableRef ref := by
  unfold renderRef
  cases href : Config.tableRef ref with
  | some t =>
    have hlist : ("<" ++ t ++ ">").toList = '<' :: (t.toList ++ ['>']) := by simp
    have hstart : Text.startsWith ("<" ++ t ++ ">") "<" = true :=
      Text.startsWith_iff.mpr ⟨_, hlist.symm⟩
    unfold unbracket
    simp only [hstart, if_true, hlist, List.drop_one, List.tail_cons, List.dropLast_concat,
      String.ofList_toList]
  | none =>
    unfold unbracket
    simp only [h.2, Bool.false_eq_true, if_false]

theorem renderRef_word {ref : String} (h : Text.Word ref) : Text.Word (renderRef ref) := by
  unfold renderRef Config.tableRef
  split
  · rename_i t ht
    split at ht
    · obtain rfl := Option.some.inj ht
      have hopen : Text.Word "<" := by decide +kernel
      have hclose : ∀ c ∈ ">".toList, Text.isSpace c = false := by
        intro c hc
        obtain rfl : c = '>' := by simpa using hc
        decide
      refine (hopen.append fun c hc => h.noSpace c ?_).append hclose
      rw [Text.drop, String.toList_ofList] at hc
      exact List.mem_of_mem_drop hc
    · cases ht
  · exact h

/-- The ends of a rule, by the words of its line. -/
def endsIn : List String → List String
  | "from" :: src :: "to" :: dst :: _ => [src, dst]
  | _ :: "proto" :: _ :: "from" :: src :: "to" :: dst :: _ => [src, dst]
  | _ => []

/-- The tables a rule line names. -/
def tablesIn (body : String) : List String := (endsIn (Text.words body)).filterMap unbracket

/-- The ends of every rule. -/
def PlainFilter (filt : Filter) : Prop :=
  ∀ r ∈ filt.in_.values ++ filt.out.values, PlainRef r.from_ ∧ PlainRef r.to_

theorem tablesIn_rule {direction : Direction} {rule : FilterRule} (hfrom : PlainRef rule.from_)
    (hto : PlainRef rule.to_) :
    tablesIn (ruleLineOf direction rule).body = [rule.from_, rule.to_].filterMap Config.tableRef := by
  have hends : [rule.from_, rule.to_].filterMap Config.tableRef =
      [renderRef rule.from_, renderRef rule.to_].filterMap unbracket := by
    simp only [List.filterMap_cons, List.filterMap_nil, unbracket_renderRef hfrom,
      unbracket_renderRef hto]
  have hproto : (protoText rule).flatMap Text.words = protoText rule := by
    unfold protoText
    cases rule.proto with
    | none => rfl
    | some p => cases p <;> rfl
  unfold tablesIn ruleLineOf
  rw [Text.words_intercalate, List.flatMap_append, hproto, hends]
  unfold endsText
  split
  · have hfromWord : Text.words "from" = ["from"] := rfl
    have htoWord : Text.words "to" = ["to"] := rfl
    simp only [List.cons_append, List.nil_append, List.flatMap_cons, hfromWord, htoWord,
      Text.words_word (renderRef_word hfrom.1), Text.words_word (renderRef_word hto.1)]
    unfold protoText
    cases rule.proto with
    | none => rfl
    | some p => cases p <;> rfl
  · rename_i hcond
    simp only [Bool.or_eq_true, decide_eq_true_eq, not_or, not_not, Option.isSome_iff_ne_none,
      ne_eq] at hcond
    obtain ⟨⟨⟨hnone, hany⟩, hany'⟩, -⟩ := hcond
    have hproto' : protoText rule = [] := by
      unfold protoText
      rw [hnone]
    rw [hproto', hany, hany']
    rfl

def tablesOn (lines : List Line) : List String := lines.flatMap fun l => tablesIn l.body

theorem tablesOn_append (l m : List Line) : tablesOn (l ++ m) = tablesOn l ++ tablesOn m :=
  List.flatMap_append

theorem tablesOn_bind (bind : Bind) : tablesOn (bindLinesOf bind) = [] := by
  have hdhcp : tablesIn "inet proto udp from 0.0.0.0 to 255.255.255.255 port 67" = [] := rfl
  have hlock : tablesIn ("inet from ! " ++ bind.address) = [] := by
    have heq : "inet from ! " ++ bind.address = "inet from !" ++ " " ++ bind.address := by
      apply String.toList_injective
      simp
    have hwords : Text.words "inet from !" = ["inet", "from", "!"] := rfl
    unfold tablesIn
    rw [heq, Text.words_append, hwords]
    rfl
  unfold tablesOn bindLinesOf
  rw [List.flatMap_cons, List.flatMap_singleton, hdhcp, hlock]
  rfl

theorem mem_filterLinesOf {filt : Filter} {l : Line} : l ∈ filterLinesOf filt ↔
    (∃ r ∈ filt.in_.values, l = ruleLineOf .in_ r) ∨
      ∃ r ∈ filt.out.values, l = ruleLineOf .out r := by
  have hside : ∀ direction (rules : Dict Int FilterRule),
      (l ∈ (numbered rules).map fun e => ruleLineOf direction e.2) ↔
        ∃ r ∈ rules.values, l = ruleLineOf direction r := by
    intro direction rules
    unfold numbered Dict.values
    simp only [List.mem_map, mem_sortedBy]
    constructor
    · rintro ⟨e, he, rfl⟩
      exact ⟨e.2, ⟨e, he, rfl⟩, rfl⟩
    · rintro ⟨r, ⟨e, he, rfl⟩, rfl⟩
      exact ⟨e, he, rfl⟩
  unfold filterLinesOf
  rw [List.flatMap_cons, List.flatMap_singleton, List.mem_append, hside, hside]

/-- **The lines of an anchor say which tables its rules refer to.** -/
theorem tablesReferenced_lines {filt : Option Filter} (bind : Option Bind)
    (h : ∀ f, filt = some f → PlainFilter f) :
    tablesReferenced filt = (tablesOn (linesOf filt bind)).toFinset := by
  have hbind : tablesOn (match bind with | some b => bindLinesOf b | none => []) = [] := by
    cases bind with
    | none => rfl
    | some b => exact tablesOn_bind b
  have hdeny : tablesOn [⟨.block, .out, "all"⟩] = [] := rfl
  unfold linesOf
  rw [tablesOn_append, tablesOn_append, hbind, hdeny, List.append_nil, List.nil_append]
  cases filt with
  | none => rfl
  | some f =>
    have hplain := h f rfl
    ext t
    unfold tablesReferenced tablesOn
    rw [List.mem_toFinset, List.mem_toFinset, List.mem_flatMap, List.mem_flatMap]
    constructor
    · rintro ⟨r, hr, ht⟩
      obtain ⟨hfrom, hto⟩ := hplain r hr
      rcases List.mem_append.mp hr with hr | hr
      · refine ⟨_, mem_filterLinesOf.mpr (.inl ⟨r, hr, rfl⟩), ?_⟩
        rwa [tablesIn_rule hfrom hto]
      · refine ⟨_, mem_filterLinesOf.mpr (.inr ⟨r, hr, rfl⟩), ?_⟩
        rwa [tablesIn_rule hfrom hto]
    · rintro ⟨l, hl, ht⟩
      rcases mem_filterLinesOf.mp hl with ⟨r, hr, rfl⟩ | ⟨r, hr, rfl⟩
      · obtain ⟨hfrom, hto⟩ := hplain r (List.mem_append_left _ hr)
        rw [tablesIn_rule hfrom hto] at ht
        exact ⟨r, List.mem_append_left _ hr, ht⟩
      · obtain ⟨hfrom, hto⟩ := hplain r (List.mem_append_right _ hr)
        rw [tablesIn_rule hfrom hto] at ht
        exact ⟨r, List.mem_append_right _ hr, ht⟩

/-! ## 3. Texts free of quotes and line breaks -/

/-- Free of quotes and line breaks. -/
def Quiet (s : String) : Prop := ∀ c ∈ s.toList, c ≠ '"' ∧ Text.isLineBreak c = false

instance (s : String) : Decidable (Quiet s) :=
  decidable_of_iff ((s.toList.all fun c => c != '"' && !Text.isLineBreak c) = true)
    (by simp [Quiet])

namespace Quiet

theorem append {a b : String} (ha : Quiet a) (hb : Quiet b) : Quiet (a ++ b) := by
  intro c hc
  rw [String.toList_append, List.mem_append] at hc
  rcases hc with hc | hc
  · exact ha c hc
  · exact hb c hc

theorem intercalate {l : List String} (h : ∀ w ∈ l, Quiet w) : Quiet (" ".intercalate l) := by
  induction l with
  | nil =>
    show Quiet ""
    simp [Quiet]
  | cons a rest ih =>
    cases rest with
    | nil =>
      rw [String.intercalate_singleton]
      exact h a List.mem_cons_self
    | cons b rest =>
      have hblank : Quiet " " := by simp [Quiet, Text.isLineBreak]
      rw [String.intercalate_cons_cons]
      exact ((h a List.mem_cons_self).append hblank).append
        (ih fun w hw => h w (List.mem_cons_of_mem _ hw))

theorem quote {s : String} (h : Quiet s) : '"' ∉ s.toList := fun hmem => (h _ hmem).1 rfl

theorem oneLine {s : String} (h : Quiet s) : Text.OneLine s := fun c hc => (h c hc).2

end Quiet

/-- A rule is printed in other words, with its label. -/
theorem Echoes.of_quiet {body text label : String} (hbody : Quiet body) (htext : Quiet text)
    (hlabel : Quiet label) : Echoes (labelled body label) (labelled text label) := by
  have hmid : Text.OneLine " label \"" := by simp [Text.OneLine, Text.isLineBreak]
  have hend : Text.OneLine "\"" := by simp [Text.OneLine, Text.isLineBreak]
  exact .label body text label (((hbody.oneLine.append hmid).append hlabel.oneLine).append hend)
    rfl hbody.quote hlabel.quote htext.quote rfl

theorem renderRef_quiet {ref : String} (h : Quiet ref) : Quiet (renderRef ref) := by
  unfold renderRef Config.tableRef
  split
  · rename_i t ht
    split at ht
    · obtain rfl := Option.some.inj ht
      have hopen : Quiet "<" := by simp [Quiet, Text.isLineBreak]
      have hclose : Quiet ">" := by simp [Quiet, Text.isLineBreak]
      refine (hopen.append fun c hc => h c ?_).append hclose
      rw [Text.drop, String.toList_ofList] at hc
      exact List.mem_of_mem_drop hc
    · cases ht
  · exact h

theorem quote_not_hex {c : Char} (h : isLowerHex c = true) : c ≠ '"' := by
  rintro rfl
  exact absurd h (by decide)

theorem portText_quiet (p : PortSpec) : Quiet (Text.replaceChar p.text '-' ':') := by
  have hint : ∀ {n : Int} {c : Char}, c ∈ (toString n).toList → c = '-' ∨ c.isDigit = true :=
    Text.mem_toString_int
  have hchar : ∀ c ∈ p.text.toList, c = '-' ∨ c.isDigit = true := by
    intro c hc
    cases p with
    | one n => exact hint hc
    | range lo hi =>
      have hc' : c ∈ (toString lo ++ "-" ++ toString hi).toList := hc
      simp only [String.toList_append, List.mem_append] at hc'
      rcases hc' with (hc' | hc') | hc'
      · exact hint hc'
      · exact .inl (by simpa using hc')
      · exact hint hc'
  intro c hc
  unfold Text.replaceChar at hc
  rw [String.toList_ofList, List.mem_map] at hc
  obtain ⟨d, hd, rfl⟩ := hc
  split
  · decide
  · rename_i hne
    have hhex : isLowerHex d = true := by simp [isLowerHex, (hchar d hd).resolve_left hne]
    refine ⟨quote_not_hex hhex, Bool.eq_false_iff.mpr fun hbreak => ?_⟩
    exact absurd ((Text.isSpace_of_isLineBreak hbreak).symm.trans (not_isSpace_of_isLowerHex hhex))
      (by decide)

theorem ruleLineOf_quiet {direction : Direction} {rule : FilterRule} (hfrom : Quiet rule.from_)
    (hto : Quiet rule.to_) : Quiet (ruleLineOf direction rule).body := by
  have hproto : ∀ w ∈ protoText rule, Quiet w := by
    unfold protoText
    cases rule.proto with
    | none => exact fun w hw => absurd hw List.not_mem_nil
    | some p => cases p <;> simp [familyOf, Proto.word, Quiet, Text.isLineBreak]
  have hends : ∀ w ∈ endsText rule, Quiet w := by
    unfold endsText portText
    intro w hw
    split at hw
    · simp only [List.mem_append, List.mem_cons, List.not_mem_nil, or_false] at hw
      rcases hw with (rfl | rfl | rfl | rfl) | hw
      · simp [Quiet, Text.isLineBreak]
      · exact renderRef_quiet hfrom
      · simp [Quiet, Text.isLineBreak]
      · exact renderRef_quiet hto
      · cases hp : rule.port with
        | none =>
          rw [hp] at hw
          exact absurd hw List.not_mem_nil
        | some p =>
          rw [hp] at hw
          simp only [List.mem_cons, List.not_mem_nil, or_false] at hw
          rcases hw with rfl | rfl
          · simp [Quiet, Text.isLineBreak]
          · exact portText_quiet p
    · obtain rfl := List.mem_singleton.mp hw
      simp [Quiet, Text.isLineBreak]
  refine Quiet.intercalate fun w hw => ?_
  rcases List.mem_append.mp hw with hw | hw
  · exact hproto w hw
  · exact hends w hw

/-- What an anchor is made of, free of quotes and line breaks. -/
structure QuietParts (filt : Option Filter) (bind : Option Bind) : Prop where
  ends : ∀ f, filt = some f → ∀ r ∈ f.in_.values ++ f.out.values, Quiet r.from_ ∧ Quiet r.to_
  address : ∀ b, bind = some b → Quiet b.address

theorem linesOf_quiet {filt : Option Filter} {bind : Option Bind} (h : QuietParts filt bind) :
    ∀ l ∈ linesOf filt bind, Quiet l.body := by
  intro l hl
  unfold linesOf at hl
  rw [List.mem_append, List.mem_append] at hl
  rcases hl with (hl | hl) | hl
  · cases bind with
    | none => exact absurd hl List.not_mem_nil
    | some b =>
      have hlock : Quiet "inet from ! " := by simp [Quiet, Text.isLineBreak]
      rcases List.mem_cons.mp hl with rfl | hl
      · show Quiet "inet proto udp from 0.0.0.0 to 255.255.255.255 port 67"
        simp [Quiet, Text.isLineBreak]
      · obtain rfl := List.mem_singleton.mp hl
        exact hlock.append (h.address b rfl)
  · cases filt with
    | none => exact absurd hl List.not_mem_nil
    | some f =>
      rcases mem_filterLinesOf.mp hl with ⟨r, hr, rfl⟩ | ⟨r, hr, rfl⟩
      · exact ruleLineOf_quiet (h.ends f rfl r (List.mem_append_left _ hr)).1
          (h.ends f rfl r (List.mem_append_left _ hr)).2
      · exact ruleLineOf_quiet (h.ends f rfl r (List.mem_append_right _ hr)).1
          (h.ends f rfl r (List.mem_append_right _ hr)).2
  · obtain rfl := List.mem_singleton.mp hl
    show Quiet "all"
    simp [Quiet, Text.isLineBreak]

theorem Line.text_oneLine {ifname : String} {l : Line} (hif : Text.OneLine ifname)
    (hbody : Quiet l.body) : Text.OneLine (l.text ifname) := by
  have hopening : Text.OneLine l.opening := by
    unfold Line.opening Line.verdict
    cases l.action <;> cases l.way <;>
      simp [Direction.word, Text.OneLine, Text.isLineBreak]
  have hquick : Text.OneLine "quick on " := by simp [Text.OneLine, Text.isLineBreak]
  have hblank : Text.OneLine " " := by simp [Text.OneLine, Text.isLineBreak]
  have hclosing : Text.OneLine (l.closing ifname) := by
    unfold Line.closing
    split
    · have hkeep : Text.OneLine " keep state (if-bound) label \"" := by simp [Text.OneLine, Text.isLineBreak]
      have hport : Text.OneLine "l2-neutron:" := by simp [Text.OneLine, Text.isLineBreak]
      have hquote : Text.OneLine "\"" := by simp [Text.OneLine, Text.isLineBreak]
      exact (hkeep.append (hport.append hif)).append hquote
    · simp [Text.OneLine]
  rw [Line.text_parts]
  exact hopening.append (((hquick.append hif).append hblank).append (hbody.oneLine.append hclosing))

/-- **The text the hash is taken of says which lines it is made of.** -/
theorem ruleLines_of_join {ifname : String} {filt filt' : Option Filter} {bind bind' : Option Bind}
    (hif : Text.OneLine ifname) (h : QuietParts filt bind) (h' : QuietParts filt' bind')
    (heq : "\n".intercalate (ruleLines ifname filt bind) =
      "\n".intercalate (ruleLines ifname filt' bind')) :
    ruleLines ifname filt bind = ruleLines ifname filt' bind' := by
  have hsplit : ∀ (f : Option Filter) (b : Option Bind), QuietParts f b →
      Text.splitOn ("\n".intercalate (ruleLines ifname f b)) '\n' = ruleLines ifname f b := by
    intro f b hq
    refine Text.splitOn_intercalate (c := '\n') ?_ ?_
    · unfold ruleLines
      simp
    · intro line hline hbreak
      rw [ruleLines_eq] at hline
      obtain ⟨l, hl, rfl⟩ := List.mem_map.mp hline
      exact absurd (Line.text_oneLine hif (linesOf_quiet hq l hl) _ hbreak) (by decide)
  rw [← hsplit filt bind h, heq, hsplit filt' bind' h']

end Pf

end Bsdbridge
