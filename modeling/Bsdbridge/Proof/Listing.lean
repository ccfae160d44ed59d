import Bsdbridge.L2Agent.Pf
import Bsdbridge.Lib.Run

/-!
# Which states of a listing are a port's

`pfctl -vvss` prints a state as a head line, which begins with its interface, and indented detail
lines, one of which gives the id. The reader carries the interface of the last head line along: a
detail line is that interface's until the next head line, so the ids it collects for a port are
those of the port's states and of no others, whatever the names of the interfaces have in common.
**`parseStateIds_listing`** says that of every listing.

The line that gives the id is told by how it begins. A detail line that begins so and is another
one would be read as well; pfctl(8) prints none. Two predicates are kept apart for that: `IdLine`
is the line as it is printed, `IdLead` what the reader's pattern looks at, and a listing in which
they differ is the example at the end, where a stray id is collected.

Nothing is assumed of the rest of a line. Head lines may name any interfaces, also one whose name
begins with another's, as long as the name is one word.
-/

set_option autoImplicit false

namespace Bsdbridge

namespace Pf

/-! ## 1. A listing

A state carries its own texts, so a listing is made of whatever detail lines pf prints in
between. -/

def Hex (s : String) : Prop := s.toList ≠ [] ∧ ∀ c ∈ s.toList, isLowerHex c = true

instance (s : String) : Decidable (Hex s) :=
  decidable_of_iff (s.toList ≠ [] ∧ s.toList.all isLowerHex = true) (by simp [Hex])

/-- `<spaces>id: <hex> creatorid: <hex>`. -/
def IdLine (line : String) : Prop := ∃ pad id creator, Text.Blanks pad ∧ Hex id ∧ Hex creator ∧
  line = pad ++ "id: " ++ id ++ " creatorid: " ++ creator

/-- A line that begins as that one does: `<spaces>id: <hex> `. -/
def IdLead (line : String) : Prop := ∃ pad id more, Text.Blanks pad ∧ Hex id ∧
  line = pad ++ "id: " ++ id ++ " " ++ more

/-- One state as the listing prints it: its head line, its id line, and the detail lines before
and after that. -/
structure Shown where
  ifname : String
  head : String
  before : List String
  pad : String
  id : String
  creator : String
  after : List String

namespace Shown

def idLine (s : Shown) : String := s.pad ++ "id: " ++ s.id ++ " creatorid: " ++ s.creator

def lines (s : Shown) : List String :=
  (s.ifname ++ " " ++ s.head) :: (s.before ++ s.idLine :: s.after)

/-- The interface is named in one word, every other line is led by a blank, and the id line is
the only one of its form. -/
structure Printed (s : Shown) : Prop where
  ifname : Text.Word s.ifname
  head : Text.OneLine s.head
  pad : Text.Blanks s.pad ∧ Text.OneLine s.pad
  id : Hex s.id
  creator : Hex s.creator
  led : ∀ line ∈ s.before ++ s.after,
    Text.OneLine line ∧ ∃ c, line.toList.head? = some c ∧ Text.isSpace c = true
  only : ∀ line ∈ s.before ++ s.after, ¬ IdLine line

end Shown

/-- The text `pfctl -vvss` prints. -/
def listing (states : List Shown) : String := Text.unlines (states.flatMap Shown.lines)

/-! ## 2. One line

Three kinds of line for the reader: one that names an interface, one that gives an id, and any
other. -/

variable {n : String} {st : Option String × List String} {line : String}

/-- A head line names the interface. -/
theorem stateLine_head {name rest : String} (hname : Text.Word name) :
    stateLine n st (name ++ " " ++ rest) = (some name, st.2) := by
  have hl : (name ++ " " ++ rest).toList = name.toList ++ (' ' :: rest.toList) := by simp
  have hne : name.toList ≠ [] := fun h => hname.nonempty (String.toList_injective h)
  have hreads : Regex.Reads STATE_HEAD_RE (name.toList ++ (" ".toList ++ [])) rest.toList
      ([] ++ ([] ++ [("ifname", name.toList)])) := by
    refine Regex.Reads.seq (Regex.Reads.group ?_) (Regex.reads_lit.seq Regex.reads_eps)
    refine Regex.reads_some1 hne (fun c hc => ?_) fun c hc => ?_
    · simp [Regex.nonSpace, hname.noSpace c hc]
    · obtain rfl : ' ' = c := by simpa using hc
      decide
  have hmatch := hreads.matchStart (t := name ++ " " ++ rest) (by simp)
  obtain ⟨c, cs, hcs⟩ := List.exists_cons_of_ne_nil hne
  have hc : Text.isSpace c = false := hname.noSpace c (by rw [hcs]; exact List.mem_cons_self)
  unfold stateLine
  rw [hmatch, hl, hcs]
  simp only [List.cons_append, hc, Bool.false_eq_true, if_false]
  rw [← hcs]
  simp [Regex.groupOf]

/-- The id line of a state gives the id, if its interface is the one asked for. -/
theorem stateLine_id {pad id more : String} (hpad : Text.Blanks pad) (hid : Hex id) :
    stateLine n st (pad ++ "id: " ++ id ++ " " ++ more) =
      (st.1, if st.1 = some n then st.2 ++ [id] else st.2) := by
  obtain ⟨c, cs, hcs⟩ := List.exists_cons_of_ne_nil hpad.1
  have hl : (pad ++ "id: " ++ id ++ " " ++ more).toList =
      c :: (cs ++ ("id: " ++ id ++ " " ++ more).toList) := by
    simp [hcs]
  have hsp : Text.isSpace c = true := hpad.2 c (by rw [hcs]; exact List.mem_cons_self)
  have hreads : Regex.Reads STATE_ID_RE
      (pad.toList ++ ("id: ".toList ++ (id.toList ++ (" ".toList ++ [])))) more.toList
      ((([] ++ []) ++ [("id", id.toList)]) ++ [] ++ []) := by
    have hblank : ∀ c ∈ ("id: ".toList ++ (id.toList ++ (" ".toList ++ [])) ++
        more.toList).head?, Regex.space c = false := by
      intro c hc
      obtain rfl : 'i' = c := by simpa using hc
      decide
    refine Regex.Reads.seq (Regex.reads_some1 hpad.1 hpad.2 hblank)
      (Regex.reads_lit.seq ((Regex.Reads.group ?_).seq (Regex.reads_lit.seq Regex.reads_eps)))
    refine Regex.reads_some1 hid.1 hid.2 fun c hc => ?_
    obtain rfl : ' ' = c := by simpa using hc
    decide
  have hmatch := hreads.matchStart (t := pad ++ "id: " ++ id ++ " " ++ more) (by simp)
  unfold stateLine
  rw [hl]
  simp only [hsp, if_true]
  split
  · rw [hmatch]
    simp [Regex.groupOf]
  · rfl

/-- What the id pattern takes. -/
theorem idLead_of_matchStart {m : List (String × List Char)}
    (h : Regex.matchStart STATE_ID_RE line = some m) : IdLead line := by
  obtain ⟨s, rest, hline, htakes⟩ := Regex.takes_of_matchStart h
  obtain ⟨pad, s, rfl, hpad, htakes⟩ := htakes
  obtain ⟨mark, s, rfl, hmark, htakes⟩ := htakes
  obtain ⟨id, s, rfl, hid, htakes⟩ := htakes
  obtain ⟨blank, s, rfl, hblank, rfl⟩ := htakes
  rw [Regex.takes_lit] at hmark hblank
  subst hmark hblank
  refine ⟨String.ofList pad, String.ofList id, String.ofList rest, ?_, ?_, ?_⟩
  · simpa [Text.Blanks, Regex.space] using Regex.takes_some1.mp hpad
  · simpa [Hex] using Regex.takes_some1.mp (Regex.takes_group.mp hid)
  · apply String.toList_injective
    simp [hline]

/-- Any other detail line changes nothing. -/
theorem stateLine_detail {c : Char} (hc : line.toList.head? = some c)
    (hsp : Text.isSpace c = true) (hlead : ¬ IdLead line) : stateLine n st line = st := by
  obtain ⟨cs, hcs⟩ : ∃ cs, line.toList = c :: cs := by
    cases hl : line.toList with
    | nil =>
      rw [hl] at hc
      exact absurd hc (by simp)
    | cons d cs =>
      rw [hl] at hc
      exact ⟨cs, by rw [Option.some.inj hc]⟩
  have hnone : Regex.matchStart STATE_ID_RE line = none :=
    Option.eq_none_iff_forall_ne_some.mpr fun m hm => hlead (idLead_of_matchStart hm)
  unfold stateLine
  rw [hcs]
  simp only [hsp, if_true, hnone, Option.bind_none, ite_self]

/-! ## 3. The listing

By induction over the states; what is carried along is the interface of the last head line. -/

theorem foldl_details {lines : List String} (h : ∀ line ∈ lines,
    (∃ c, line.toList.head? = some c ∧ Text.isSpace c = true) ∧ ¬ IdLead line) :
    lines.foldl (stateLine n) st = st := by
  induction lines with
  | nil => rfl
  | cons line rest ih =>
    obtain ⟨⟨c, hc, hsp⟩, hlead⟩ := h line List.mem_cons_self
    rw [List.foldl_cons, stateLine_detail hc hsp hlead]
    exact ih fun l hl => h l (List.mem_cons_of_mem _ hl)

/-- The lines of one state: its id is collected if its head names the interface. -/
theorem foldl_shown {s : Shown} (hs : s.Printed)
    (hlead : ∀ line ∈ s.before ++ s.after, ¬ IdLead line) :
    s.lines.foldl (stateLine n) st =
      (some s.ifname, if s.ifname = n then st.2 ++ [s.id] else st.2) := by
  have hdetail : ∀ line ∈ s.before ++ s.after,
      (∃ c, line.toList.head? = some c ∧ Text.isSpace c = true) ∧ ¬ IdLead line :=
    fun line hl => ⟨(hs.led line hl).2, hlead line hl⟩
  have hid : s.idLine = s.pad ++ "id: " ++ s.id ++ " " ++ ("creatorid: " ++ s.creator) := by
    unfold Shown.idLine
    apply String.toList_injective
    simp
  unfold Shown.lines
  rw [List.foldl_cons, stateLine_head hs.ifname, List.foldl_append,
    foldl_details fun line hl => hdetail line (List.mem_append_left _ hl), List.foldl_cons, hid,
    stateLine_id hs.pad.1 hs.id,
    foldl_details fun line hl => hdetail line (List.mem_append_right _ hl)]
  simp only [Option.some.injEq]

theorem foldl_listing {states : List Shown} (h : ∀ s ∈ states, s.Printed)
    (hlead : ∀ s ∈ states, ∀ line ∈ s.before ++ s.after, ¬ IdLead line) :
    ((states.flatMap Shown.lines).foldl (stateLine n) st).2 =
      st.2 ++ (states.filter fun s => s.ifname = n).map Shown.id := by
  induction states generalizing st with
  | nil => simp
  | cons s rest ih =>
    rw [List.flatMap_cons, List.foldl_append,
      foldl_shown (h s List.mem_cons_self) (hlead s List.mem_cons_self),
      ih (fun t ht => h t (List.mem_cons_of_mem _ ht))
        fun t ht => hlead t (List.mem_cons_of_mem _ ht)]
    by_cases hn : s.ifname = n
    · simp [hn]
    · simp [hn]

/-- No blank is a hex digit. -/
theorem not_isSpace_of_isLowerHex {c : Char} (hx : isLowerHex c = true) :
    Text.isSpace c = false := by
  simp only [isLowerHex, Char.isDigit, Bool.or_eq_true, Bool.and_eq_true, decide_eq_true_eq] at hx
  have hb : 48 ≤ c.toNat ∧ c.toNat ≤ 102 ∧ (c.toNat ≤ 57 ∨ 97 ≤ c.toNat) := by
    rcases hx with ⟨h1, h2⟩ | ⟨h1, h2⟩
    · have h3 : 48 ≤ c.toNat := h1
      have h4 : c.toNat ≤ 57 := h2
      omega
    · have h3 : 97 ≤ c.toNat := h1
      have h4 : c.toNat ≤ 102 := h2
      omega
  simp [Text.isSpace]
  omega

theorem Hex.oneLine {s : String} (h : Hex s) : Text.OneLine s :=
  Text.oneLine_of_noSpace fun c hc => not_isSpace_of_isLowerHex (h.2 c hc)

theorem Shown.Printed.oneLine {s : Shown} (hs : s.Printed) :
    ∀ line ∈ s.lines, Text.OneLine line := by
  intro line hl
  unfold Shown.lines at hl
  rcases List.mem_cons.mp hl with rfl | hl
  · have hname : Text.OneLine (s.ifname ++ " ") :=
      (Text.oneLine_of_noSpace hs.ifname.noSpace).append (by decide +kernel)
    exact hname.append hs.head
  · rcases List.mem_append.mp hl with hl | hl
    · exact (hs.led line (List.mem_append_left _ hl)).1
    · rcases List.mem_cons.mp hl with rfl | hl
      · have hmark : Text.OneLine (s.pad ++ "id: ") := hs.pad.2.append (by decide +kernel)
        have hid : Text.OneLine (s.pad ++ "id: " ++ s.id ++ " creatorid: ") :=
          (hmark.append hs.id.oneLine).append (by decide +kernel)
        exact hid.append hs.creator.oneLine
      · exact (hs.led line (List.mem_append_right _ hl)).1

/-- **The ids of a port** are those of the states whose head line names its interface, in
order. -/
theorem parseStateIds_listing {states : List Shown} {ifname : String}
    (h : ∀ s ∈ states, s.Printed)
    (hlead : ∀ s ∈ states, ∀ line ∈ s.before ++ s.after, ¬ IdLead line) :
    parseStateIds (listing states) ifname =
      (states.filter fun s => s.ifname = ifname).map Shown.id := by
  have hone : ∀ line ∈ states.flatMap Shown.lines, Text.OneLine line := by
    intro line hl
    obtain ⟨s, hs, hl⟩ := List.mem_flatMap.mp hl
    exact (h s hs).oneLine line hl
  unfold parseStateIds listing
  rw [Text.splitLines_unlines hone, foldl_listing h hlead]
  exact List.nil_append _

/-- Two interfaces, one named with the beginning of the other, with a detail line before and
after each id. -/
def twoStates : List Shown :=
  [{ ifname := "tap1", head := "tcp 10.0.0.5:22 <- 10.0.0.9:4711", before := ["   age 00:00:07"],
     pad := "   ", id := "a1", creator := "7f", after := ["   origif: tap10"] },
   { ifname := "tap10", head := "udp 10.0.0.6:53 <- 10.0.0.9:4712", before := ["   age 00:00:08"],
     pad := "   ", id := "a2", creator := "7f", after := [] }]

/-- A line without a `d` holds no id. -/
theorem not_idLead {line : String} (h : 'd' ∉ line.toList) : ¬ IdLead line := by
  rintro ⟨pad, id, more, -, -, rfl⟩
  exact h (by simp)

theorem IdLine.lead {line : String} (h : IdLine line) : IdLead line := by
  obtain ⟨pad, id, creator, hpad, hid, -, rfl⟩ := h
  refine ⟨pad, id, "creatorid: " ++ creator, hpad, hid, ?_⟩
  apply String.toList_injective
  simp

theorem twoStates_lead : ∀ s ∈ twoStates, ∀ line ∈ s.before ++ s.after, ¬ IdLead line := by
  have hd : ∀ s ∈ twoStates, ∀ line ∈ s.before ++ s.after, 'd' ∉ line.toList := by
    decide +kernel
  exact fun s hs line hl => not_idLead (hd s hs line hl)

theorem twoStates_printed : ∀ s ∈ twoStates, s.Printed := by
  intro s hs
  have hlead := twoStates_lead s hs
  simp only [twoStates, List.mem_cons, List.not_mem_nil, or_false] at hs
  rcases hs with rfl | rfl
  all_goals
    refine ⟨by decide +kernel, by decide +kernel, by decide +kernel, by decide +kernel,
      by decide +kernel, ?_, fun line hl hid => hlead line hl hid.lead⟩
    intro line hl
    simp only [List.append_nil, List.cons_append, List.nil_append, List.mem_cons,
      List.not_mem_nil, or_false] at hl
  · rcases hl with rfl | rfl
    · exact ⟨by decide +kernel, ' ', rfl, by decide⟩
    · exact ⟨by decide +kernel, ' ', rfl, by decide⟩
  · obtain rfl := hl
    exact ⟨by decide +kernel, ' ', rfl, by decide⟩

theorem parseStateIds_twoStates : parseStateIds (listing twoStates) "tap1" = ["a1"] :=
  (parseStateIds_listing twoStates_printed twoStates_lead).trans (by decide +kernel)

/-- A state with a second line that begins as its id line does. -/
def strayState : Shown :=
  { ifname := "tap1", head := "tcp", before := [], pad := "   ", id := "a1", creator := "7f",
    after := ["   id: b2 stray"] }

theorem strayState_printed : strayState.Printed where
  ifname := by decide +kernel
  head := by decide +kernel
  pad := by decide +kernel
  id := by decide +kernel
  creator := by decide +kernel
  led := by
    intro line hl
    obtain rfl : line = "   id: b2 stray" := List.mem_singleton.mp hl
    exact ⟨by decide +kernel, ' ', rfl, by decide⟩
  only := by
    rintro line hl ⟨pad, id, creator, -, -, -, hline⟩
    obtain rfl : line = "   id: b2 stray" := List.mem_singleton.mp hl
    have hc : 'c' ∈ "   id: b2 stray".toList := by
      rw [hline]
      simp
    exact absurd hc (by decide +kernel)

/-- That line is read as an id, too. -/
theorem stray_id_collected : ¬ ∀ (states : List Shown) (ifname : String),
    (∀ s ∈ states, s.Printed) → parseStateIds (listing states) ifname =
      (states.filter fun s => s.ifname = ifname).map Shown.id := by
  intro h
  have hread := h [strayState] "tap1" fun s hs => List.mem_singleton.mp hs ▸ strayState_printed
  exact absurd hread (by decide +kernel)

end Pf

end Bsdbridge
