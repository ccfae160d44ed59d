import Bsdbridge.Lib.Alnum
import Bsdbridge.Lib.Text

/-!
# Backtracking regular expressions

The fragment of `re` a line-oriented reader needs: repetition of one character class, greedy
options, named groups, `\b` and `$`. A run returns every way to match, most preferred first, so
`match`, `search` and `fullmatch` are the head of a list, and an expression is as structural as its
syntax.

Two predicates are used to say what an expression does on a text without running it. `Reads` says
that the preferred match of an expression takes a given beginning of a text, and `Takes` what a
match may have taken at all. The first proves that a reader finds what a line shows, the second
that it finds nothing in a line of another kind.

Repetition is of one class and not of an expression. That is what line formats use, and it keeps
the runs finite: a repetition of an expression that may take nothing would need a rule of its own.
-/

set_option autoImplicit false

inductive Regex
  | eps
  /-- One character of a class. -/
  | one (p : Char → Bool)
  /-- `[...]*`, greedy. -/
  | many (p : Char → Bool)
  | seq (a b : Regex)
  /-- `(?:a)?`, greedy. -/
  | opt (a : Regex)
  /-- `(?P<name>a)`. -/
  | group (name : String) (a : Regex)
  /-- `\b`. -/
  | boundary
  /-- `$`. -/
  | atEnd

namespace Regex

/-- A place in the text: the character before it, what is left, and the groups so far. -/
structure Cursor where
  before : Option Char
  rest : List Char
  groups : List (String × List Char)

/-- `\w`, of a pattern that is a text. -/
def isWord (c : Char) : Bool := Text.isAlnum c || c == '_'

/-- The places after some characters of a class, the longest run first. -/
def runMany (p : Char → Bool) (groups : List (String × List Char)) :
    Option Char → List Char → List Cursor
  | b, [] => [⟨b, [], groups⟩]
  | b, c :: cs => if p c then runMany p groups (some c) cs ++ [⟨b, c :: cs, groups⟩]
      else [⟨b, c :: cs, groups⟩]

/-- Every way to match, most preferred first. -/
def run : Regex → Cursor → List Cursor
  | .eps, k => [k]
  | .one p, k =>
      match k.rest with
      | c :: cs => if p c then [⟨some c, cs, k.groups⟩] else []
      | [] => []
  | .many p, k => runMany p k.groups k.before k.rest
  | .seq a b, k => (run a k).flatMap (run b)
  | .opt a, k => run a k ++ [k]
  | .group name a, k => (run a k).map fun k' =>
      { k' with groups := (name, k.rest.take (k.rest.length - k'.rest.length)) :: k'.groups }
  | .boundary, k =>
      if (k.before.any isWord) != (k.rest.head?.any isWord) then [k] else []
  | .atEnd, k => if k.rest = [] || k.rest = ['\n'] then [k] else []

/-- `re.match(text)`: the groups of the preferred match at the start. -/
def matchStart (re : Regex) (text : String) : Option (List (String × List Char)) :=
  (run re ⟨none, text.toList, []⟩).head?.map Cursor.groups

/-- `re.search(text)`, from a place on. -/
def searchFrom (re : Regex) : Option Char → List Char → Option (List (String × List Char))
  | b, [] => (run re ⟨b, [], []⟩).head?.map Cursor.groups
  | b, c :: cs =>
      match (run re ⟨b, c :: cs, []⟩).head? with
      | some k => some k.groups
      | none => searchFrom re (some c) cs

def search (re : Regex) (text : String) : Option (List (String × List Char)) :=
  searchFrom re none text.toList

/-- `m.group(name)`. -/
def groupOf (m : List (String × List Char)) (name : String) : Option String :=
  (m.lookup name).map String.ofList

/-! ## The usual abbreviations -/

/-- A text, literally. -/
def lit (s : String) : Regex :=
  s.toList.foldr (fun c r => .seq (.one (· == c)) r) .eps

/-- `[...]+`. -/
def some1 (p : Char → Bool) : Regex := .seq (.one p) (.many p)

/-- `[...]{n}`. -/
def times : Nat → (Char → Bool) → Regex
  | 0, _ => .eps
  | n + 1, p => .seq (.one p) (times n p)

/-- A sequence of parts. -/
def cat (parts : List Regex) : Regex := parts.foldr .seq .eps

/-- `\s`. -/
def space : Char → Bool := Text.isSpace

/-- `\S`. -/
def nonSpace : Char → Bool := fun c => !Text.isSpace c

/-- `\d`. -/
def digit : Char → Bool := fun c => (Text.digitVal c).isSome

/-- `.`. -/
def dot : Char → Bool := (· != '\n')

/-! ## The preferred match

`Reads` says what an expression takes first, whatever follows may still make it give back. It
composes: the preferred match of a sequence is the preferred match of its parts, as long as each
part goes on from where the one before it stopped. -/

/-- The preferred match of `re` on `s ++ rest` takes `s`, and adds the groups `gs`. -/
def Reads (re : Regex) (s rest : List Char) (gs : List (String × List Char)) : Prop :=
  ∀ before groups, ∃ before' others,
    run re ⟨before, s ++ rest, groups⟩ = ⟨before', rest, gs ++ groups⟩ :: others

variable {a b : Regex} {s t rest : List Char} {gs hs : List (String × List Char)}

theorem reads_eps : Reads .eps [] rest [] := fun before _ => ⟨before, [], rfl⟩

theorem reads_one {p : Char → Bool} {c : Char} (hc : p c = true) : Reads (.one p) [c] rest [] := by
  intro before groups
  refine ⟨some c, [], ?_⟩
  simp [run, hc]

/-- A repetition takes all it can. -/
theorem reads_many {p : Char → Bool} (hs : ∀ c ∈ s, p c = true)
    (hrest : ∀ c ∈ rest.head?, p c = false) : Reads (.many p) s rest [] := by
  intro before groups
  show ∃ before' others, runMany p groups before (s ++ rest) = ⟨before', rest, groups⟩ :: others
  induction s generalizing before with
  | nil =>
    cases rest with
    | nil => exact ⟨before, [], rfl⟩
    | cons c cs =>
      refine ⟨before, [], ?_⟩
      simp [runMany, hrest c rfl]
  | cons c cs ih =>
    obtain ⟨before', others, hrun⟩ := ih (fun d hd => hs d (List.mem_cons_of_mem _ hd)) (some c)
    refine ⟨before', others ++ [⟨before, c :: cs ++ rest, groups⟩], ?_⟩
    rw [List.cons_append, runMany, if_pos (hs c List.mem_cons_self), hrun]
    rfl

theorem Reads.seq (ha : Reads a s (t ++ rest) gs) (hb : Reads b t rest hs) :
    Reads (.seq a b) (s ++ t) rest (hs ++ gs) := by
  intro before groups
  obtain ⟨mid, others, hrun⟩ := ha before groups
  obtain ⟨before', others', hrun'⟩ := hb mid (gs ++ groups)
  refine ⟨before', others' ++ others.flatMap (run b), ?_⟩
  rw [run, List.append_assoc, hrun, List.flatMap_cons, hrun', List.append_assoc]
  rfl

theorem Reads.group {name : String} (ha : Reads a s rest gs) :
    Reads (.group name a) s rest ((name, s) :: gs) := by
  intro before groups
  obtain ⟨before', others, hrun⟩ := ha before groups
  refine ⟨before', others.map fun k' => { k' with
    groups := (name, (s ++ rest).take ((s ++ rest).length - k'.rest.length)) :: k'.groups }, ?_⟩
  rw [run, hrun, List.map_cons]
  simp

theorem reads_lit {w : String} : Reads (lit w) w.toList rest [] := by
  unfold lit
  generalize w.toList = cs
  induction cs with
  | nil => exact reads_eps
  | cons c cs ih => exact (reads_one (by simp)).seq ih

/-- `[...]+` on a text of the class, up to a character outside it. -/
theorem reads_some1 {p : Char → Bool} (hne : s ≠ []) (hs : ∀ c ∈ s, p c = true)
    (hrest : ∀ c ∈ rest.head?, p c = false) : Reads (some1 p) s rest [] := by
  obtain ⟨c, cs, rfl⟩ := List.exists_cons_of_ne_nil hne
  exact (reads_one (hs c List.mem_cons_self)).seq
    (reads_many (fun d hd => hs d (List.mem_cons_of_mem _ hd)) hrest)

/-- `[...]{n}` on as many characters of the class. -/
theorem reads_times {p : Char → Bool} (hs : ∀ c ∈ s, p c = true) :
    Reads (times s.length p) s rest [] := by
  induction s with
  | nil => exact reads_eps
  | cons c cs ih =>
    exact (reads_one (hs c List.mem_cons_self)).seq (ih fun d hd => hs d (List.mem_cons_of_mem _ hd))

theorem Reads.matchStart {t : String} (ha : Reads a s rest gs) (ht : t.toList = s ++ rest) :
    matchStart a t = some gs := by
  obtain ⟨before', others, hrun⟩ := ha none []
  unfold Regex.matchStart
  rw [ht, hrun]
  simp

/-! ## What a match may take

The other direction: whatever way an expression matches, what it takes is a text of its language.
`\b` and `$` take nothing, and are not asked for more here. -/

/-- The texts of an expression. -/
def Takes : Regex → List Char → Prop
  | .eps, s => s = []
  | .one p, s => ∃ c, s = [c] ∧ p c = true
  | .many p, s => ∀ c ∈ s, p c = true
  | .seq a b, s => ∃ u v, s = u ++ v ∧ Takes a u ∧ Takes b v
  | .opt a, s => s = [] ∨ Takes a s
  | .group _ a, s => Takes a s
  | .boundary, s => s = []
  | .atEnd, s => s = []

theorem takes_of_runMany {p : Char → Bool} {groups : List (String × List Char)}
    {before : Option Char} {l : List Char} {k : Cursor} (h : k ∈ runMany p groups before l) :
    ∃ s, l = s ++ k.rest ∧ ∀ c ∈ s, p c = true := by
  induction l generalizing before with
  | nil =>
    obtain rfl := List.mem_singleton.mp h
    exact ⟨[], rfl, fun c hc => absurd hc List.not_mem_nil⟩
  | cons c cs ih =>
    unfold runMany at h
    split at h
    · rename_i hc
      rcases List.mem_append.mp h with h | h
      · obtain ⟨s, hs, hp⟩ := ih h
        refine ⟨c :: s, by rw [hs]; rfl, fun d hd => ?_⟩
        rcases List.mem_cons.mp hd with rfl | hd
        · exact hc
        · exact hp d hd
      · obtain rfl := List.mem_singleton.mp h
        exact ⟨[], rfl, fun c hc => absurd hc List.not_mem_nil⟩
    · obtain rfl := List.mem_singleton.mp h
      exact ⟨[], rfl, fun c hc => absurd hc List.not_mem_nil⟩

theorem takes_of_run {re : Regex} {k k' : Cursor} (h : k' ∈ run re k) :
    ∃ s, k.rest = s ++ k'.rest ∧ Takes re s := by
  induction re generalizing k k' with
  | eps =>
    obtain rfl := List.mem_singleton.mp h
    exact ⟨[], rfl, rfl⟩
  | one p =>
    obtain ⟨before, rest, groups⟩ := k
    cases rest with
    | nil => exact absurd h List.not_mem_nil
    | cons c cs =>
      by_cases hc : p c = true
      · rw [run] at h
        simp only [hc, if_true] at h
        obtain rfl := List.mem_singleton.mp h
        exact ⟨[c], rfl, c, rfl, hc⟩
      · rw [run] at h
        simp only [hc] at h
        exact absurd h (by simp)
  | many p => exact takes_of_runMany h
  | seq a b iha ihb =>
    obtain ⟨mid, hmid, h⟩ := List.mem_flatMap.mp h
    obtain ⟨u, hu, ha⟩ := iha hmid
    obtain ⟨v, hv, hb⟩ := ihb h
    exact ⟨u ++ v, by rw [hu, hv, List.append_assoc], u, v, rfl, ha, hb⟩
  | opt a ih =>
    rcases List.mem_append.mp h with h | h
    · obtain ⟨s, hs, ha⟩ := ih h
      exact ⟨s, hs, .inr ha⟩
    · obtain rfl := List.mem_singleton.mp h
      exact ⟨[], rfl, .inl rfl⟩
  | group name a ih =>
    obtain ⟨mid, hmid, rfl⟩ := List.mem_map.mp h
    obtain ⟨s, hs, ha⟩ := ih hmid
    exact ⟨s, hs, ha⟩
  | boundary =>
    rw [run] at h
    split at h
    · obtain rfl := List.mem_singleton.mp h
      exact ⟨[], rfl, rfl⟩
    · exact absurd h List.not_mem_nil
  | atEnd =>
    rw [run] at h
    split at h
    · obtain rfl := List.mem_singleton.mp h
      exact ⟨[], rfl, rfl⟩
    · exact absurd h List.not_mem_nil

/-- A match at the start takes a text of the expression. -/
theorem takes_of_matchStart {re : Regex} {t : String} {m : List (String × List Char)}
    (h : matchStart re t = some m) : ∃ s rest, t.toList = s ++ rest ∧ Takes re s := by
  unfold matchStart at h
  obtain ⟨k, hk, -⟩ := Option.map_eq_some_iff.mp h
  obtain ⟨s, hs, htakes⟩ := takes_of_run (List.mem_of_mem_head? hk)
  exact ⟨s, k.rest, hs, htakes⟩

@[simp] theorem takes_eps {s : List Char} : Takes .eps s ↔ s = [] := Iff.rfl

@[simp] theorem takes_group {name : String} {s : List Char} :
    Takes (.group name a) s ↔ Takes a s := Iff.rfl

theorem takes_seq {s : List Char} :
    Takes (.seq a b) s ↔ ∃ u v, s = u ++ v ∧ Takes a u ∧ Takes b v := Iff.rfl

@[simp] theorem takes_lit {w : String} {s : List Char} : Takes (lit w) s ↔ s = w.toList := by
  unfold lit
  generalize w.toList = cs
  induction cs generalizing s with
  | nil => exact Iff.rfl
  | cons c cs ih =>
    rw [List.foldr_cons, takes_seq]
    constructor
    · rintro ⟨u, v, rfl, ⟨d, rfl, hd⟩, hv⟩
      rw [ih.mp hv, show d = c by simpa using hd]
      rfl
    · rintro rfl
      exact ⟨[c], cs, rfl, ⟨c, rfl, by simp⟩, ih.mpr rfl⟩

@[simp] theorem takes_some1 {p : Char → Bool} {s : List Char} :
    Takes (some1 p) s ↔ s ≠ [] ∧ ∀ c ∈ s, p c = true := by
  constructor
  · rintro ⟨u, v, rfl, ⟨c, rfl, hc⟩, hv⟩
    refine ⟨by simp, fun d hd => ?_⟩
    rcases List.mem_cons.mp hd with rfl | hd
    · exact hc
    · exact hv d hd
  · rintro ⟨hne, hs⟩
    obtain ⟨c, cs, rfl⟩ := List.exists_cons_of_ne_nil hne
    exact ⟨[c], cs, rfl, ⟨c, rfl, hs c List.mem_cons_self⟩,
      fun d hd => hs d (List.mem_cons_of_mem _ hd)⟩

@[simp] theorem takes_times {n : Nat} {p : Char → Bool} {s : List Char} :
    Takes (times n p) s ↔ s.length = n ∧ ∀ c ∈ s, p c = true := by
  induction n generalizing s with
  | zero =>
    show s = [] ↔ _
    rw [List.length_eq_zero_iff]
    exact ⟨fun h => ⟨h, by simp [h]⟩, And.left⟩
  | succ n ih =>
    constructor
    · rintro ⟨u, v, rfl, ⟨c, rfl, hc⟩, hv⟩
      obtain ⟨hlen, hall⟩ := ih.mp hv
      exact ⟨by simp [hlen], fun d hd => (List.mem_cons.mp hd).elim (· ▸ hc) (hall d)⟩
    · rintro ⟨hlen, hall⟩
      cases s with
      | nil => cases hlen
      | cons c cs =>
        exact ⟨[c], cs, rfl, ⟨c, rfl, hall c List.mem_cons_self⟩,
          ih.mpr ⟨Nat.succ.inj hlen, fun d hd => hall d (List.mem_cons_of_mem _ hd)⟩⟩

/-! ## What a search finds

A search stops at the first place where there is a match. Where every match anywhere says the
same, it does not matter which place that is. -/

/-- Where all matches at a place say the same, so does the preferred one. -/
theorem groups_of_reads {re : Regex} {gs : List (String × List Char)} {before : Option Char}
    {l : List Char} {k : Cursor}
    (hall : ∀ s rest, l = s ++ rest → Takes re s → Reads re s rest gs)
    (hk : (run re ⟨before, l, []⟩).head? = some k) : k.groups = gs := by
  obtain ⟨s, hs, htakes⟩ := takes_of_run (List.mem_of_mem_head? hk)
  obtain ⟨before', others, hrun⟩ := hall s k.rest hs htakes before []
  have hl : l = s ++ k.rest := hs
  rw [hl, hrun] at hk
  rw [← Option.some.inj hk]
  exact List.append_nil gs

theorem searchFrom_of_unique {re : Regex} {gs : List (String × List Char)} {l : List Char}
    (before : Option Char)
    (hall : ∀ pre s rest, l = pre ++ (s ++ rest) → Takes re s → Reads re s rest gs)
    (hsome : ∃ pre s rest, l = pre ++ (s ++ rest) ∧ Takes re s) :
    searchFrom re before l = some gs := by
  obtain ⟨pre, s, rest, hl, htakes⟩ := hsome
  induction l generalizing before pre with
  | nil =>
    obtain ⟨before', others, hrun⟩ := hall pre s rest hl htakes before []
    obtain ⟨-, hsr⟩ := List.append_eq_nil_iff.mp hl.symm
    rw [searchFrom, ← hsr, hrun]
    simp
  | cons c cs ih =>
    unfold searchFrom
    cases hk : (run re ⟨before, c :: cs, []⟩).head? with
    | some k => exact congrArg some (groups_of_reads (fun s rest => hall [] s rest) hk)
    | none =>
      cases pre with
      | nil =>
        obtain ⟨before', others, hrun⟩ := hall [] s rest hl htakes before []
        have hl' : c :: cs = s ++ rest := hl
        rw [hl', hrun] at hk
        cases hk
      | cons d pre =>
        obtain ⟨rfl, hcs⟩ := List.cons.inj hl
        exact ih (some c) (fun pre' s' rest' heq =>
          hall (c :: pre') s' rest' (by rw [heq]; rfl)) pre hcs

/-- Where all matches say the same, a search finds it. -/
theorem search_of_unique {re : Regex} {gs : List (String × List Char)} {t : String}
    (hall : ∀ pre s rest, t.toList = pre ++ (s ++ rest) → Takes re s → Reads re s rest gs)
    (hsome : ∃ pre s rest, t.toList = pre ++ (s ++ rest) ∧ Takes re s) :
    search re t = some gs := searchFrom_of_unique none hall hsome

end Regex
