import Bsdbridge.Lib.Run
import Bsdbridge.Proof.Routes

/-!
# Three spellings of a destination

A wanted route has its destination as a canonical prefix, `netstat(1)` shows it in its own way
(`default` for everything, a bare address for one host), and `route(8)` is given it in a third. All
three meet again in `normalize_destination`: what a listing shows is read as the routes it shows,
among whatever other lines, and what was just added is not seen as something else
(**`routes_round_trip`**).

A listing is made of entries. A route over a gateway is given by its numbers, and its line is
derived from them; any other line is one of the kinds the reader ignores, as text. So the theorem
quantifies over destinations and nexthops, not over strings that might be some, and the spacing of
the columns is free as long as it is blank.

Destinations are IPv4 and normal: a prefix without host bits, as the kernel shows it. A listing of
another family is not asked for by the agent.
-/

set_option autoImplicit false

namespace Bsdbridge

namespace L3

open Regex

/-! ## 1. A listing -/

/-- A destination as netstat(1) shows it. -/
def shownDest (n : Ipv4.Network) : String :=
  if n = ⟨0, 0⟩ then "default" else if n.prefixlen = 32 then n.first else n.show

/-- A gateway route as a line of the listing. -/
structure ShownRoute where
  dest : Ipv4.Network
  nexthop : Nat
  gap : String
  gap' : String
  flags : String
  rest : String
  dest_normal : dest.Normal
  nexthop_lt : nexthop < 2 ^ 32
  gap_blanks : Text.Blanks gap ∧ Text.OneLine gap
  gap'_blanks : Text.Blanks gap' ∧ Text.OneLine gap'
  flags_word : Text.Word flags
  flags_gateway : 'G' ∈ flags.toList
  rest_led : (∀ c ∈ rest.toList.head?, Text.isSpace c = true) ∧ Text.OneLine rest

namespace ShownRoute

def line (r : ShownRoute) : String :=
  shownDest r.dest ++ r.gap ++ Ipv4.showAddress r.nexthop ++ r.gap' ++ r.flags ++ r.rest

/-- The route it shows. -/
def pair (r : ShownRoute) : String × String := (r.dest.show, Ipv4.showAddress r.nexthop)

end ShownRoute

/-- A header line, the line of a route over a link, or one whose flags lack `G`. -/
def Ignored (line : String) : Prop :=
  Text.words line = [] ∨ Text.words line = ["Routing", "tables"] ∨
    Text.words line = ["Internet:"] ∨
    (∃ more, Text.words line = "Destination" :: "Gateway" :: "Flags" :: more) ∨
    (∃ dest n more, Text.words line = dest :: ("link#" ++ n) :: more) ∨
    ∃ dest gw flags more, Text.words line = dest :: gw :: flags :: more ∧ 'G' ∉ flags.toList

/-- A line of the listing. -/
inductive Entry
  | route (r : ShownRoute)
  | other (line : String) (h : Ignored line) (one : Text.OneLine line)

namespace Entry

def line : Entry → String
  | route r => r.line
  | other line _ _ => line

def pair? : Entry → Option (String × String)
  | route r => some r.pair
  | other _ _ _ => none

end Entry

/-- What `netstat -rn -f inet` prints. -/
def listing (entries : List Entry) : String := Text.unlines (entries.map Entry.line)

/-! ## 2. One line

The reader is a regular expression. `Parts` says what a line must be for it to match, and every
ignored kind has a reason why it does not. -/

/-- The nexthop pattern: four numerals, with dots between. -/
def GW_RE : Regex :=
  cat [some1 digit, lit ".", some1 digit, lit ".", some1 digit, lit ".", some1 digit]

/-- The texts it is for. -/
def Quad (s : List Char) : Prop := ∃ a b c d : List Char,
  s = a ++ (".".toList ++ (b ++ (".".toList ++ (c ++ (".".toList ++ (d ++ [])))))) ∧
    ∀ l ∈ [a, b, c, d], l ≠ [] ∧ ∀ x ∈ l, digit x = true

theorem not_digit_of_space {c : Char} (h : Text.isSpace c = true) : digit c = false := by
  have hmem : c.toNat ∈ [9, 10, 11, 12, 13, 28, 29, 30, 31, 32, 0x85, 0xa0, 0x1680, 0x2000,
      0x2001, 0x2002, 0x2003, 0x2004, 0x2005, 0x2006, 0x2007, 0x2008, 0x2009, 0x200a, 0x2028,
      0x2029, 0x202f, 0x205f, 0x3000] := by
    simp only [Text.isSpace, Bool.or_eq_true, Bool.and_eq_true, decide_eq_true_eq,
      beq_iff_eq] at h
    simp only [List.mem_cons, List.not_mem_nil, or_false]
    omega
  have hnone : ∀ n ∈ [9, 10, 11, 12, 13, 28, 29, 30, 31, 32, 0x85, 0xa0, 0x1680, 0x2000,
      0x2001, 0x2002, 0x2003, 0x2004, 0x2005, 0x2006, 0x2007, 0x2008, 0x2009, 0x200a, 0x2028,
      0x2029, 0x202f, 0x205f, 0x3000],
      (Text.digitZeros.find? fun z => z ≤ n && n < z + 10) = none := by decide +kernel
  unfold digit Text.digitVal
  rw [hnone _ hmem]
  rfl

/-- A numeral and the dot after it. -/
theorem reads_numeral {re : Regex} {s t rest : List Char} (hne : s ≠ [])
    (hs : ∀ x ∈ s, digit x = true) (h : Reads re t rest []) :
    Reads (.seq (some1 digit) (.seq (lit ".") re)) (s ++ (".".toList ++ t)) rest [] := by
  have hdot : ∀ x ∈ (".".toList ++ t ++ rest).head?, digit x = false := by
    intro x hx
    obtain rfl : '.' = x := by simpa using hx
    decide +kernel
  have htail : Reads (.seq (lit ".") re) (".".toList ++ t) rest [] := reads_lit.seq h
  exact (reads_some1 hne hs hdot).seq htail

/-- The pattern reads four numerals up to a blank. -/
theorem reads_gw {s rest : List Char} (hs : Quad s)
    (hrest : ∀ c ∈ rest.head?, Text.isSpace c = true) : Reads GW_RE s rest [] := by
  obtain ⟨a, b, c, d, rfl, hall⟩ := hs
  simp only [List.forall_mem_cons] at hall
  obtain ⟨ha, hb, hc, hd, -⟩ := hall
  have hlast : ∀ x ∈ ([] ++ rest).head?, digit x = false := fun x hx =>
    not_digit_of_space (hrest x hx)
  have hend : Reads (.seq (some1 digit) .eps) (d ++ []) rest [] :=
    (reads_some1 hd.1 hd.2 hlast).seq reads_eps
  exact reads_numeral ha.1 ha.2 (reads_numeral hb.1 hb.2 (reads_numeral hc.1 hc.2 hend))

/-- A line that shows a route through a gateway: a destination, the nexthop, the flags. -/
structure Parts (line dest gw flags : String) : Prop where
  split : ∃ gap gap' rest, line = dest ++ (gap ++ (gw ++ (gap' ++ (flags ++ rest)))) ∧
    Text.Blanks gap ∧ Text.Blanks gap' ∧ ∀ c ∈ rest.toList.head?, Text.isSpace c = true
  dest : Text.Word dest
  gw : Quad gw.toList
  flags : Text.Word flags

/-- The blanks before a word end where it begins. -/
theorem head?_word {w : String} (hw : Text.Word w) (rest : List Char) :
    ∀ c ∈ (w.toList ++ rest).head?, Text.isSpace c = false := by
  intro c hc
  cases hl : w.toList with
  | nil => exact absurd (String.toList_injective hl) hw.nonempty
  | cons d ds =>
    rw [hl] at hc
    obtain rfl : d = c := by simpa using hc
    exact hw.noSpace d (by rw [hl]; exact List.mem_cons_self)

theorem head?_blanks {gap : String} (hgap : Text.Blanks gap) (rest : List Char) :
    ∀ c ∈ (gap.toList ++ rest).head?, Text.isSpace c = true := by
  intro c hc
  obtain ⟨d, ds, hl⟩ := List.exists_cons_of_ne_nil hgap.1
  rw [hl] at hc
  obtain rfl : d = c := by simpa using hc
  exact hgap.2 d (by rw [hl]; exact List.mem_cons_self)

/-- A nexthop is a word. -/
theorem Quad.word {gw : String} (h : Quad gw.toList) : Text.Word gw := by
  obtain ⟨a, b, c, d, hsplit, hall⟩ := h
  simp only [List.forall_mem_cons] at hall
  obtain ⟨ha, hb, hc, hd, -⟩ := hall
  constructor
  · rintro rfl
    exact ha.1 (List.append_eq_nil_iff.mp hsplit.symm).1
  · intro x hx
    by_contra hsp
    rw [Bool.not_eq_false] at hsp
    have hdigit := not_digit_of_space hsp
    have hdot : x ≠ '.' := by
      rintro rfl
      exact absurd hsp (by decide)
    rw [hsplit] at hx
    simp only [List.mem_append, List.append_nil, String.reduceToList, List.mem_cons,
      List.not_mem_nil, or_false] at hx
    rcases hx with hx | hx | hx | hx | hx | hx | hx
    · exact absurd ((ha.2 x hx).symm.trans hdigit) (by decide)
    · exact hdot hx
    · exact absurd ((hb.2 x hx).symm.trans hdigit) (by decide)
    · exact hdot hx
    · exact absurd ((hc.2 x hx).symm.trans hdigit) (by decide)
    · exact hdot hx
    · exact absurd ((hd.2 x hx).symm.trans hdigit) (by decide)

section

variable {line dest gw flags : String}

theorem Parts.matchStart (h : Parts line dest gw flags) : matchStart ROUTE_RE line =
    some [("flags", flags.toList), ("gw", gw.toList), ("dest", dest.toList)] := by
  obtain ⟨gap, gap', rest, hsplit, hgap, hgap', hrest⟩ := h.split
  have hword : ∀ {w : String}, Text.Word w → w.toList ≠ [] := fun hw hnil =>
    hw.nonempty (String.toList_injective hnil)
  have hnon : ∀ {w : String}, Text.Word w → ∀ c ∈ w.toList, nonSpace c = true := fun hw c hc => by
    simp [nonSpace, hw.noSpace c hc]
  have hstop : ∀ {l : List Char}, (∀ c ∈ l.head?, Text.isSpace c = true) →
      ∀ c ∈ l.head?, nonSpace c = false := fun hl c hc => by
    simp [nonSpace, hl c hc]
  have hflags : Reads (cat [.group "flags" (some1 nonSpace)]) (flags.toList ++ []) rest.toList
      [("flags", flags.toList)] :=
    (reads_some1 (hword h.flags) (hnon h.flags) (hstop hrest)).group.seq reads_eps
  have hgap₂ : Reads (cat [some1 space, .group "flags" (some1 nonSpace)])
      (gap'.toList ++ (flags.toList ++ [])) rest.toList [("flags", flags.toList)] := by
    refine (reads_some1 hgap'.1 hgap'.2 ?_).seq hflags
    rw [List.append_nil]
    exact head?_word h.flags _
  have hgw : Reads (cat [.group "gw" GW_RE, some1 space, .group "flags" (some1 nonSpace)])
      (gw.toList ++ (gap'.toList ++ (flags.toList ++ []))) rest.toList
      [("flags", flags.toList), ("gw", gw.toList)] := by
    refine (reads_gw h.gw ?_).group.seq hgap₂
    rw [List.append_assoc]
    exact head?_blanks hgap' _
  have hgap₁ : Reads (cat [some1 space, .group "gw" GW_RE, some1 space,
      .group "flags" (some1 nonSpace)])
      (gap.toList ++ (gw.toList ++ (gap'.toList ++ (flags.toList ++ [])))) rest.toList
      [("flags", flags.toList), ("gw", gw.toList)] := by
    refine (reads_some1 hgap.1 hgap.2 ?_).seq hgw
    rw [List.append_assoc]
    exact head?_word h.gw.word _
  have hall : Reads ROUTE_RE
      (dest.toList ++ (gap.toList ++ (gw.toList ++ (gap'.toList ++ (flags.toList ++ [])))))
      rest.toList [("flags", flags.toList), ("gw", gw.toList), ("dest", dest.toList)] := by
    refine (reads_some1 (hword h.dest) (hnon h.dest) ?_).group.seq hgap₁
    rw [List.append_assoc]
    exact hstop (head?_blanks hgap _)
  refine hall.matchStart ?_
  rw [hsplit]
  simp

/-- What such a line shows. -/
theorem Parts.gatewayRoute (h : Parts line dest gw flags) : gatewayRoute line =
    if 'G' ∈ flags.toList then some (dest, gw) else none := by
  unfold L3.gatewayRoute
  rw [h.matchStart]
  simp [Ifconfig.textOf, groupOf, Text.hasChar, List.lookup]

/-- Its words. -/
theorem Parts.words (h : Parts line dest gw flags) :
    ∃ more, Text.words line = dest :: gw :: flags :: more := by
  obtain ⟨gap, gap', rest, rfl, hgap, hgap', hrest⟩ := h.split
  rw [Text.words_word_gap h.dest hgap, Text.words_word_gap h.gw.word hgap',
    Text.words_word_append h.flags hrest]
  exact ⟨_, rfl⟩

/-- Every line the pattern matches is of that kind. -/
theorem exists_parts {m : List (String × List Char)}
    (h : Regex.matchStart ROUTE_RE line = some m) : ∃ dest gw flags, Parts line dest gw flags := by
  obtain ⟨s, rest, hline, htakes⟩ := takes_of_matchStart h
  -- the pattern piece by piece: destination, blanks, gateway, blanks, flags
  obtain ⟨dest, s, rfl, hdest, gap, s, rfl, hgap, gw, s, rfl, hgw, gap', s, rfl, hgap', flags, s,
    rfl, hflags, rfl⟩ := htakes
  rw [takes_group, takes_some1] at hdest hflags
  rw [takes_some1] at hgap hgap'
  have hword : ∀ {l : List Char}, (l ≠ [] ∧ ∀ c ∈ l, nonSpace c = true) →
      Text.Word (String.ofList l) := by
    intro l hl
    constructor
    · intro hnil
      exact hl.1 (by simpa using congrArg String.toList hnil)
    · intro c hc
      simpa [nonSpace] using hl.2 c (by simpa using hc)
  -- a match may stop inside the last word; the word goes on to the next blank
  have hall : flags ++ rest.takeWhile nonSpace ≠ [] ∧
      ∀ c ∈ flags ++ rest.takeWhile nonSpace, nonSpace c = true := by
    refine ⟨by simp [hflags.1], fun c hc => ?_⟩
    rcases List.mem_append.mp hc with hc | hc
    · exact hflags.2 c hc
    · exact List.mem_takeWhile_imp hc
  refine ⟨String.ofList dest, String.ofList gw, String.ofList (flags ++ rest.takeWhile nonSpace),
    ⟨String.ofList gap, String.ofList gap', String.ofList (rest.dropWhile nonSpace), ?_, ?_, ?_, ?_⟩,
    hword hdest, ?_, hword hall⟩
  · apply String.toList_injective
    simp only [hline, String.toList_append, String.toList_ofList, List.append_assoc,
      List.append_nil, List.takeWhile_append_dropWhile]
  · simpa [Text.Blanks, Regex.space] using hgap
  · simpa [Text.Blanks, Regex.space] using hgap'
  · intro c hc
    rw [String.toList_ofList] at hc
    have hno := List.head?_dropWhile_not nonSpace rest
    rw [Option.mem_def.mp hc] at hno
    simpa [nonSpace] using hno
  · rw [String.toList_ofList]
    obtain ⟨a, u, rfl, ha, dot, u, rfl, hdot, b, u, rfl, hb, dot', u, rfl, hdot', c, u, rfl, hc,
      dot'', u, rfl, hdot'', d, u, rfl, hd, rfl⟩ := takes_group.mp hgw
    rw [takes_lit] at hdot hdot' hdot''
    rw [takes_some1] at ha hb hc hd
    subst hdot hdot' hdot''
    refine ⟨a, b, c, d, rfl, ?_⟩
    simp only [List.forall_mem_cons, List.not_mem_nil, false_imp_iff, implies_true, and_true]
    exact ⟨ha, hb, hc, hd⟩

/-- An ignored line shows no route. -/
theorem gatewayRoute_ignored (h : Ignored line) : gatewayRoute line = none := by
  cases hm : Regex.matchStart ROUTE_RE line with
  | none =>
    unfold gatewayRoute
    rw [hm]
  | some m =>
    obtain ⟨dest, gw, flags, hparts⟩ := exists_parts hm
    obtain ⟨more, hwords⟩ := hparts.words
    have hgw : ∀ {c : Char} {cs : List Char}, gw.toList = c :: cs → digit c = true := by
      obtain ⟨a, b, c, d, hsplit, hall⟩ := hparts.gw
      obtain ⟨⟨x, xs, rfl⟩, hx⟩ : (∃ x xs, a = x :: xs) ∧ ∀ y ∈ a, digit y = true :=
        ⟨List.exists_cons_of_ne_nil (hall a (by simp)).1, (hall a (by simp)).2⟩
      intro c cs hc
      obtain rfl : c = x := by
        rw [hsplit] at hc
        exact (List.cons.inj hc).1.symm
      exact hx c List.mem_cons_self
    unfold Ignored at h
    rw [hwords] at h
    rcases h with h | h | h | ⟨more', h⟩ | ⟨dest', n, more', h⟩ | ⟨dest', gw', flags', more', h, hG⟩
    · exact absurd h (by simp)
    · exact absurd h (by simp)
    · exact absurd h (by simp)
    · simp only [List.cons.injEq] at h
      exact absurd (hgw (by rw [h.2.1]; rfl)) (by decide +kernel)
    · simp only [List.cons.injEq] at h
      have hl : gw.toList = 'l' :: ("ink#" ++ n).toList := by
        rw [h.2.1]
        simp
      exact absurd (hgw hl) (by decide +kernel)
    · simp only [List.cons.injEq] at h
      rw [hparts.gatewayRoute, h.2.2.1, if_neg hG]

end

/-! ## 3. Destinations

Each of the spellings is one word, and is read as the destination it spells. -/

/-- Each way netstat(1) shows a destination is read as that destination. -/
theorem normalizeDestination_shownDest {n : Ipv4.Network} (h : n.Normal) :
    Router.normalizeDestination (shownDest n) = some n.show := by
  have hdef : ∀ s : String, 'd' ∉ s.toList → s ≠ "default" := by
    rintro s hs rfl
    exact hs (by decide +kernel)
  unfold shownDest
  by_cases h0 : n = ⟨0, 0⟩
  · rw [if_pos h0, h0]
    decide +kernel
  · rw [if_neg h0]
    by_cases h32 : n.prefixlen = 32
    · rw [if_pos h32]
      have hne : n.first ≠ "default" :=
        hdef _ (Ipv4.not_mem_showAddress (by decide) (by decide) _)
      unfold Router.normalizeDestination
      rw [if_neg hne]
      show (Ipv4.readNetwork false (Ipv4.showAddress n.address)).map _ = _
      rw [Ipv4.readNetwork_showAddress h.address, ← h32]
      rfl
    · rw [if_neg h32]
      have hne : n.show ≠ "default" := by
        refine hdef _ ?_
        unfold Ipv4.Network.show Ipv4.Network.first
        have hnum : 'd' ∉ (toString n.prefixlen).toList := Text.not_mem_toString_nat (by decide)
        rw [Text.toList_toString_nat] at hnum
        simp [Ipv4.not_mem_showAddress (x := 'd') (by decide) (by decide), hnum]
      unfold Router.normalizeDestination
      rw [if_neg hne, Ipv4.readNetwork_show h]
      rfl

theorem not_isSpace_of_digit {c : Char} (h : digit c = true) : Text.isSpace c = false := by
  by_contra hsp
  rw [Bool.not_eq_false] at hsp
  exact absurd (h.symm.trans (not_digit_of_space hsp)) (by decide)

/-- A printed number is a run of digits. -/
theorem digits_toString (n : Nat) :
    (toString n).toList ≠ [] ∧ ∀ c ∈ (toString n).toList, digit c = true := by
  rw [Text.toList_toString_nat]
  refine ⟨Nat.toDigits_ne_nil, fun c hc => ?_⟩
  unfold digit
  rw [Text.digitVal_of_isDigit (Text.isDigit_of_mem_toDigits hc)]
  rfl

theorem quad_showAddress (a : Nat) : Quad (Ipv4.showAddress a).toList := by
  refine ⟨(toString (Ipv4.octet a 3)).toList, (toString (Ipv4.octet a 2)).toList,
    (toString (Ipv4.octet a 1)).toList, (toString (Ipv4.octet a 0)).toList, ?_, ?_⟩
  · unfold Ipv4.showAddress Ipv4.dotted
    simp only [String.toList_append, List.append_assoc, List.append_nil]
  · simp only [List.forall_mem_cons, List.not_mem_nil, false_imp_iff, implies_true, and_true]
    exact ⟨digits_toString _, digits_toString _, digits_toString _, digits_toString _⟩

/-- What is shown is one word. -/
theorem word_shownDest (n : Ipv4.Network) : Text.Word (shownDest n) := by
  unfold shownDest
  split
  · decide +kernel
  · split
    · exact (quad_showAddress n.address).word
    · have hslash : ∀ c ∈ "/".toList, Text.isSpace c = false := by
        intro c hc
        obtain rfl : c = '/' := by simpa using hc
        decide
      exact ((quad_showAddress n.address).word.append hslash).append fun c hc =>
        not_isSpace_of_digit ((digits_toString n.prefixlen).2 c hc)

/-! ## 4. The listing -/

namespace ShownRoute

theorem line_parts (r : ShownRoute) :
    Parts r.line (shownDest r.dest) (Ipv4.showAddress r.nexthop) r.flags where
  split := by
    refine ⟨r.gap, r.gap', r.rest, ?_, r.gap_blanks.1, r.gap'_blanks.1, r.rest_led.1⟩
    unfold line
    simp only [String.append_assoc]
  dest := word_shownDest r.dest
  gw := quad_showAddress r.nexthop
  flags := r.flags_word

theorem oneLine (r : ShownRoute) : Text.OneLine r.line := by
  have hdest := Text.oneLine_of_noSpace (word_shownDest r.dest).noSpace
  have hgw := Text.oneLine_of_noSpace (quad_showAddress r.nexthop).word.noSpace
  have hflags := Text.oneLine_of_noSpace r.flags_word.noSpace
  exact ((((hdest.append r.gap_blanks.2).append hgw).append r.gap'_blanks.2).append hflags).append
    r.rest_led.2

end ShownRoute

theorem Entry.oneLine (e : Entry) : Text.OneLine e.line := by
  cases e with
  | route r => exact r.oneLine
  | other line h one => exact one

/-- A line of the listing shows its route, as it spells it. -/
theorem gatewayRoute_entry (e : Entry) : gatewayRoute e.line =
    match e with
    | .route r => some (shownDest r.dest, Ipv4.showAddress r.nexthop)
    | .other _ _ _ => none := by
  cases e with
  | route r =>
    show gatewayRoute r.line = _
    rw [r.line_parts.gatewayRoute, if_pos r.flags_gateway]
  | other line h one => exact gatewayRoute_ignored h

/-- **A listing is read as the routes it shows.** -/
theorem parseRoutes_listing (entries : List Entry) :
    parseRoutes (listing entries) = some (entries.filterMap Entry.pair?).toFinset := by
  have hlines : ∀ line ∈ entries.map Entry.line, Text.OneLine line := by
    intro line hl
    obtain ⟨e, -, rfl⟩ := List.mem_map.mp hl
    exact e.oneLine
  have hwalk : ∀ l : List Entry, ((l.map Entry.line).filterMap gatewayRoute).mapM
      (fun e => (Router.normalizeDestination e.1).map fun d => (d, e.2)) =
        some (l.filterMap Entry.pair?) := by
    intro l
    induction l with
    | nil => rfl
    | cons e rest ih =>
      rw [List.map_cons, List.filterMap_cons, List.filterMap_cons, gatewayRoute_entry]
      cases e with
      | other line h one => exact ih
      | route r =>
        simp only [Entry.pair?, List.mapM_cons, normalizeDestination_shownDest r.dest_normal, ih]
        rfl
  unfold parseRoutes listing
  rw [Text.splitLines_unlines hlines, hwalk]
  rfl

/-- **Three spellings, one destination.** -/
theorem routes_round_trip :
    (∀ entries : List Entry,
      parseRoutes (listing entries) = some (entries.filterMap Entry.pair?).toFinset ∧
        ∀ e ∈ entries.filterMap Entry.pair?, Router.Canonical e.1) ∧
    ∀ d c, Router.normalizeDestination d = some c →
      Router.normalizeDestination (routeArg c) = some c := by
  refine ⟨fun entries => ⟨parseRoutes_listing entries, fun e he => ?_⟩, fun d c h => ?_⟩
  · exact canonical_of_parseRoutes (parseRoutes_listing entries) (List.mem_toFinset.mpr he)
  · exact normalizeDestination_routeArg (Router.canonical_of_normalizeDestination h)

/-- The default route and a host route, under the header of the listing. -/
def sampleListing : List Entry :=
  [.other "Destination        Gateway            Flags     Netif Expire"
    (.inr (.inr (.inr (.inl ⟨["Netif", "Expire"], by decide +kernel⟩)))) (by decide +kernel),
   .route
    { dest := ⟨0, 0⟩, nexthop := 3405803777, gap := "            ", gap' := "        ",
      flags := "UGS", rest := "       qg-aa", dest_normal := ⟨by decide, by decide, by decide⟩,
      nexthop_lt := by decide, gap_blanks := by decide +kernel,
      gap'_blanks := by decide +kernel, flags_word := by decide +kernel,
      flags_gateway := by decide +kernel,
      rest_led := ⟨by rintro c ⟨⟩; decide, by decide +kernel⟩ },
   .route
    { dest := ⟨3232237833, 32⟩, nexthop := 167772169, gap := "        ", gap' := "           ",
      flags := "UGHS", rest := "", dest_normal := ⟨by decide, by decide, by decide⟩,
      nexthop_lt := by decide, gap_blanks := by decide +kernel,
      gap'_blanks := by decide +kernel, flags_word := by decide +kernel,
      flags_gateway := by decide +kernel, rest_led := ⟨by simp, by decide +kernel⟩ }]

theorem routes_round_trip_sample :
    parseRoutes (listing sampleListing) =
        some {("0.0.0.0/0", "203.0.113.1"), ("192.168.9.9/32", "10.0.0.9")} ∧
      Router.normalizeDestination (routeArg "10.1.0.0/16") = some "10.1.0.0/16" :=
  ⟨(routes_round_trip.1 sampleListing).1.trans (by decide +kernel),
    routes_round_trip.2 "10.1.2.3/255.255.0.0" "10.1.0.0/16" (by decide +kernel)⟩

end L3

end Bsdbridge
