import Bsdbridge.Lib.Dict

/-!
# Text, as the modelled language reads it

String slices, one-character partitions, and the decimal reader `int`. A string is a sequence of
code points, so every operation goes through `String.toList`.

`readInt` follows the documented grammar of `int(text)` in base ten: blanks on both sides, one
sign, decimal digits of any script, single underscores between digits, and at most `maxStrDigits`
digits. What the round trips below need is the one direction that a program printing its own
numbers depends on: `readInt` reads back what `toString` prints.

Blanks are Python's, which are more than ASCII's, and so are line breaks: `splitLines` cuts at
every character that `str.splitlines` does. `words` is `str.split()` without an argument. Three
predicates say what a text is free of: a `Word` has no blank and is not empty, a `OneLine` text has
no line break, and `Blanks` has nothing but blanks.
-/

set_option autoImplicit false

namespace Text

/-- `s[:n]`. -/
def take (s : String) (n : Nat) : String := String.ofList (s.toList.take n)

/-- `s[n:]`. -/
def drop (s : String) (n : Nat) : String := String.ofList (s.toList.drop n)

/-- `s.startswith(p)`. -/
def startsWith (s p : String) : Bool := p.toList.isPrefixOf s.toList

/-- `c in s`, for one character. -/
def hasChar (s : String) (c : Char) : Bool := decide (c ∈ s.toList)

/-- `s.replace(a, b)`, for single characters. -/
def replaceChar (s : String) (a b : Char) : String :=
  String.ofList (s.toList.map fun c => if c = a then b else c)

/-- `s.rsplit(c, 1)[0]`: what stands before the last `c`, and all of `s` when there is none. -/
def beforeLast (s : String) (c : Char) : String :=
  match s.toList.reverse.dropWhile (· ≠ c) with
  | [] => s
  | _ :: r => String.ofList r.reverse

/-- `s.partition(c)` for one character: what stands before the first `c`, whether there is
one, and what stands after it. -/
def partition (s : String) (c : Char) : String × Bool × String :=
  match s.toList.dropWhile (· ≠ c) with
  | [] => (s, false, "")
  | _ :: r => (String.ofList (s.toList.takeWhile (· ≠ c)), true, String.ofList r)

@[simp] theorem startsWith_iff {s p : String} :
    startsWith s p = true ↔ p.toList <+: s.toList := by
  simp [startsWith]

/-- The characters before the first `c` are those that differ from it. -/
theorem differ_of_not_mem {l : List Char} {c : Char} (h : c ∉ l) :
    ∀ x ∈ l, (decide (x ≠ c)) = true := by
  intro x hx
  have hne : x ≠ c := fun hxc => h (hxc ▸ hx)
  exact decide_eq_true hne

/-- What stands before the last `c` of two texts around it. -/
theorem beforeLast_append {a b : String} {c : Char} (h : c ∉ b.toList) :
    beforeLast (a ++ String.singleton c ++ b) c = a := by
  have hrev : (a ++ String.singleton c ++ b).toList.reverse =
      b.toList.reverse ++ c :: a.toList.reverse := by
    simp
  have hdrop : (a ++ String.singleton c ++ b).toList.reverse.dropWhile (· ≠ c) =
      c :: a.toList.reverse := by
    rw [hrev, List.dropWhile_append_of_pos fun x hx =>
      differ_of_not_mem h x (List.mem_reverse.mp hx)]
    simp
  unfold beforeLast
  rw [hdrop]
  show String.ofList a.toList.reverse.reverse = a
  rw [List.reverse_reverse, String.ofList_toList]

theorem partition_append {a b : String} {c : Char} (h : c ∉ a.toList) :
    partition (a ++ String.ofList (c :: b.toList)) c = (a, true, b) := by
  have hl : (a ++ String.ofList (c :: b.toList)).toList = a.toList ++ c :: b.toList := by simp
  have hd : (a.toList ++ c :: b.toList).dropWhile (· ≠ c) = c :: b.toList := by
    rw [List.dropWhile_append_of_pos (differ_of_not_mem h)]
    simp
  have ht : (a.toList ++ c :: b.toList).takeWhile (· ≠ c) = a.toList := by
    rw [List.takeWhile_append_of_pos (differ_of_not_mem h)]
    simp
  unfold partition
  rw [hl, hd, ht]
  simp

theorem partition_none {s : String} {c : Char} (h : c ∉ s.toList) :
    partition s c = (s, false, "") := by
  have hd : s.toList.dropWhile (· ≠ c) = [] :=
    List.dropWhile_eq_nil_iff.mpr (differ_of_not_mem h)
  unfold partition
  rw [hd]

/-! ## Blanks -/

/-- `str.isspace`, for one code point. -/
def isSpace (c : Char) : Bool :=
  let n := c.toNat
  (9 ≤ n && n ≤ 13) || (28 ≤ n && n ≤ 32) || n == 0x85 || n == 0xa0 || n == 0x1680 ||
    (0x2000 ≤ n && n ≤ 0x200a) || n == 0x2028 || n == 0x2029 || n == 0x202f || n == 0x205f ||
    n == 0x3000

/-- A text without the leading and trailing characters of one kind. -/
def trim (p : Char → Bool) (l : List Char) : List Char :=
  ((l.dropWhile p).reverse.dropWhile p).reverse

theorem trim_eq_self {p : Char → Bool} {l : List Char} (h : ∀ c ∈ l, p c = false) :
    trim p l = l := by
  have hd : ∀ m : List Char, (∀ c ∈ m, p c = false) → m.dropWhile p = m := by
    intro m hm
    cases m with
    | nil => rfl
    | cons a t => simp [hm a List.mem_cons_self]
  unfold trim
  rw [hd l h, hd l.reverse fun c hc => h c (List.mem_reverse.mp hc), List.reverse_reverse]

/-- `s.strip()`. -/
def strip (s : String) : String := String.ofList (trim isSpace s.toList)

/-! ## Lines and words

What a listing is made of: words in a line, lines in a text. Taking apart what was put together
is proved for each of the two. -/

/-- The line breaks of `str.splitlines`, `"\r\n"` apart. -/
def isLineBreak (c : Char) : Bool :=
  let n := c.toNat
  (10 ≤ n && n ≤ 13) || (28 ≤ n && n ≤ 30) || n == 0x85 || n == 0x2028 || n == 0x2029

/-- The lines of a text, with the characters of the line under way. -/
def linesFrom : List Char → List Char → List (List Char)
  | [], [] => []
  | [], cur => [cur.reverse]
  | '\r' :: '\n' :: cs, cur => cur.reverse :: linesFrom cs []
  | c :: cs, cur =>
      if isLineBreak c then cur.reverse :: linesFrom cs [] else linesFrom cs (c :: cur)

/-- `s.splitlines()`. -/
def splitLines (s : String) : List String := (linesFrom s.toList []).map String.ofList

/-- The maximal runs of characters outside a class, with the run under way. -/
def runsFrom (p : Char → Bool) : List Char → List Char → List (List Char)
  | [], cur => [cur.reverse]
  | c :: cs, cur => if p c then cur.reverse :: runsFrom p cs [] else runsFrom p cs (c :: cur)

/-- `s.split(c)` for one character. -/
def splitOn (s : String) (c : Char) : List String :=
  (runsFrom (· == c) s.toList []).map String.ofList

/-- `s.split()`. -/
def words (s : String) : List String :=
  ((runsFrom isSpace s.toList []).filter (· ≠ [])).map String.ofList

/-- A text of one word. -/
structure Word (s : String) : Prop where
  nonempty : s ≠ ""
  noSpace : ∀ c ∈ s.toList, isSpace c = false

theorem word_iff {s : String} :
    Word s ↔ (s.toList ≠ [] && s.toList.all fun c => !isSpace c) = true := by
  have hnil : s.toList ≠ [] ↔ s ≠ "" := by simp
  rw [Bool.and_eq_true, decide_eq_true_eq, List.all_eq_true, hnil]
  constructor
  · intro h
    exact ⟨h.nonempty, fun c hc => by simp [h.noSpace c hc]⟩
  · intro h
    exact ⟨h.1, fun c hc => by simpa using h.2 c hc⟩

instance (s : String) : Decidable (Word s) := decidable_of_iff' _ word_iff

/-- What stands around a word without blanks leaves it one. -/
theorem Word.append {a b : String} (ha : Word a) (hb : ∀ c ∈ b.toList, isSpace c = false) :
    Word (a ++ b) := by
  constructor
  · intro hnil
    have hl := congrArg String.toList hnil
    rw [String.toList_append] at hl
    exact ha.nonempty (String.toList_injective (List.append_eq_nil_iff.mp hl).1)
  · intro c hc
    rw [String.toList_append, List.mem_append] at hc
    rcases hc with hc | hc
    · exact ha.noSpace c hc
    · exact hb c hc

theorem runsFrom_none {p : Char → Bool} {l cur : List Char} (h : ∀ c ∈ l, p c = false) :
    runsFrom p l cur = [cur.reverse ++ l] := by
  induction l generalizing cur with
  | nil => rw [runsFrom, List.append_nil]
  | cons c cs ih =>
    have hc : p c = false := h c List.mem_cons_self
    rw [runsFrom, if_neg (by simp [hc]), ih fun x hx => h x (List.mem_cons_of_mem _ hx)]
    simp

/-- A separator ends the run under way. -/
theorem runsFrom_append {p : Char → Bool} {c : Char} (hc : p c = true) {l m cur : List Char} :
    runsFrom p (l ++ c :: m) cur = runsFrom p l cur ++ runsFrom p m [] := by
  induction l generalizing cur with
  | nil => simp [runsFrom, hc]
  | cons x xs ih =>
    rw [List.cons_append, runsFrom.eq_def p (x :: _), runsFrom.eq_def p (x :: xs)]
    dsimp only
    split
    · rw [ih, List.cons_append]
    · exact ih

theorem splitOn_none {s : String} {c : Char} (h : c ∉ s.toList) : splitOn s c = [s] := by
  have hp : ∀ x ∈ s.toList, (x == c) = false := by
    intro x hx
    exact beq_eq_false_iff_ne.mpr fun hxc => h (hxc ▸ hx)
  unfold splitOn
  rw [runsFrom_none hp]
  simp

/-- The text before the first separator is the first part. -/
theorem splitOn_append {a b : String} {c : Char} (h : c ∉ a.toList) :
    splitOn (a ++ String.singleton c ++ b) c = a :: splitOn b c := by
  have hl : (a ++ String.singleton c ++ b).toList = a.toList ++ c :: b.toList := by simp
  have ha := splitOn_none h
  unfold splitOn at ha ⊢
  rw [hl, runsFrom_append (p := (· == c)) (beq_self_eq_true c), List.map_append, ha,
    List.singleton_append]

/-- A text put together with a separator is taken apart again. -/
theorem splitOn_intercalate {c : Char} {l : List String} (hne : l ≠ [])
    (h : ∀ s ∈ l, c ∉ s.toList) : splitOn ((String.singleton c).intercalate l) c = l := by
  induction l with
  | nil => exact absurd rfl hne
  | cons a rest ih =>
    have ha := h a List.mem_cons_self
    cases rest with
    | nil => rw [String.intercalate_singleton, splitOn_none ha]
    | cons b rest =>
      rw [String.intercalate_cons_cons, splitOn_append ha,
        ih (List.cons_ne_nil b rest) fun s hs => h s (List.mem_cons_of_mem _ hs)]

/-- What stands between two separators is a part. -/
theorem mem_splitOn_between {c : Char} {s w : String} {l m : List Char} (hw : c ∉ w.toList)
    (hs : s.toList = l ++ c :: (w.toList ++ c :: m)) : w ∈ splitOn s c := by
  have hp : ∀ x ∈ w.toList, (x == c) = false := fun x hx =>
    beq_eq_false_iff_ne.mpr fun hxc => hw (hxc ▸ hx)
  unfold splitOn
  rw [hs, runsFrom_append (p := (· == c)) (beq_self_eq_true c),
    runsFrom_append (p := (· == c)) (beq_self_eq_true c), runsFrom_none hp]
  simp

theorem words_append {a b : String} : words (a ++ " " ++ b) = words a ++ words b := by
  have hl : (a ++ " " ++ b).toList = a.toList ++ ' ' :: b.toList := by simp
  unfold words
  rw [hl, runsFrom_append (by decide), List.filter_append, List.map_append]

theorem words_word {s : String} (h : Word s) : words s = [s] := by
  have hne : s.toList ≠ [] := fun hnil => h.nonempty (String.toList_injective hnil)
  unfold words
  rw [runsFrom_none h.noSpace]
  simp [hne]

theorem words_intercalate {l : List String} :
    words (" ".intercalate l) = l.flatMap words := by
  induction l with
  | nil => rfl
  | cons a rest ih =>
    cases rest with
    | nil => rw [String.intercalate_singleton]; simp
    | cons b rest =>
      rw [String.intercalate_cons_cons, words_append, ih]
      exact List.flatMap_cons.symm

/-- Words put together with blanks are read back. -/
theorem flatMap_words {l : List String} (h : ∀ w ∈ l, Word w) : l.flatMap words = l := by
  induction l with
  | nil => rfl
  | cons a rest ih =>
    rw [List.flatMap_cons, words_word (h a List.mem_cons_self),
      ih fun w hw => h w (List.mem_cons_of_mem _ hw)]
    rfl

/-- A character that is no blank stands in a word. -/
theorem mem_runsFrom {p : Char → Bool} {l cur : List Char} {c : Char} (hp : p c = false)
    (h : c ∈ l ∨ c ∈ cur) : ∃ run ∈ runsFrom p l cur, c ∈ run := by
  induction l generalizing cur with
  | nil => exact ⟨cur.reverse, List.mem_singleton_self _, by simpa using h⟩
  | cons x xs ih =>
    rw [runsFrom.eq_def]
    dsimp only
    split
    · rename_i hx
      rcases h with h | h
      · rcases List.mem_cons.mp h with rfl | h
        · rw [hp] at hx
          exact absurd hx (by decide)
        · obtain ⟨run, hr, hc⟩ := ih (Or.inl h)
          exact ⟨run, List.mem_cons_of_mem _ hr, hc⟩
      · exact ⟨cur.reverse, List.mem_cons_self, List.mem_reverse.mpr h⟩
    · refine ih ?_
      rcases h with h | h
      · rcases List.mem_cons.mp h with rfl | h
        · exact Or.inr List.mem_cons_self
        · exact Or.inl h
      · exact Or.inr (List.mem_cons_of_mem _ h)

theorem words_ne_nil {s : String} {c : Char} (hc : c ∈ s.toList) (hp : isSpace c = false) :
    words s ≠ [] := by
  obtain ⟨run, hr, hmem⟩ := mem_runsFrom hp (Or.inl hc)
  intro hnil
  have hin : String.ofList run ∈ words s :=
    List.mem_map_of_mem (List.mem_filter.mpr ⟨hr, by simpa using List.ne_nil_of_mem hmem⟩)
  rw [hnil] at hin
  exact absurd hin List.not_mem_nil

/-! ### The lines of a text -/

theorem linesFrom_cons {c : Char} {cs cur : List Char} (h : c ≠ '\r' ∨ cs.head? ≠ some '\n') :
    linesFrom (c :: cs) cur =
      if isLineBreak c then cur.reverse :: linesFrom cs [] else linesFrom cs (c :: cur) := by
  rw [linesFrom.eq_4]
  rintro cs' rfl rfl
  rcases h with h | h
  · exact h rfl
  · exact h rfl

/-- A newline ends a line, whatever stands before it. -/
theorem linesFrom_newline (m : List Char) : ∀ l cur : List Char,
    linesFrom (l ++ '\n' :: m) cur = linesFrom (l ++ ['\n']) cur ++ linesFrom m []
  | [], cur => by
    have hn : isLineBreak '\n' = true := by decide
    rw [List.nil_append, List.nil_append, linesFrom_cons (.inl (by decide)),
      linesFrom_cons (.inl (by decide)), if_pos hn, if_pos hn]
    rfl
  | '\r' :: '\n' :: cs, cur => by
    show cur.reverse :: linesFrom (cs ++ '\n' :: m) [] =
      cur.reverse :: (linesFrom (cs ++ ['\n']) [] ++ linesFrom m [])
    rw [linesFrom_newline m cs []]
  | [c], cur => by
    by_cases hc : c = '\r'
    · subst hc
      rfl
    · show linesFrom (c :: ([] ++ '\n' :: m)) cur = linesFrom (c :: ([] ++ ['\n'])) cur ++ _
      rw [linesFrom_cons (.inl hc), linesFrom_cons (.inl hc)]
      split
      · rw [linesFrom_newline m [] []]
        rfl
      · exact linesFrom_newline m [] (c :: cur)
  | c :: d :: cs, cur => by
    by_cases hcd : c = '\r' ∧ d = '\n'
    · obtain ⟨rfl, rfl⟩ := hcd
      show cur.reverse :: linesFrom (cs ++ '\n' :: m) [] =
        cur.reverse :: (linesFrom (cs ++ ['\n']) [] ++ linesFrom m [])
      rw [linesFrom_newline m cs []]
    · have hbreak : ∀ rest, c ≠ '\r' ∨ (d :: rest).head? ≠ some '\n' := by
        intro rest
        by_cases hc : c = '\r'
        · exact .inr fun hd => hcd ⟨hc, by simpa using hd⟩
        · exact .inl hc
      show linesFrom (c :: (d :: (cs ++ '\n' :: m))) cur =
        linesFrom (c :: (d :: (cs ++ ['\n']))) cur ++ _
      rw [linesFrom_cons (hbreak _), linesFrom_cons (hbreak _)]
      have ih := fun cur => linesFrom_newline m (d :: cs) cur
      simp only [List.cons_append] at ih
      split
      · rw [ih]
        rfl
      · exact ih (c :: cur)
  termination_by l => l.length

/-- A text with none of the line breaks. -/
def OneLine (s : String) : Prop := ∀ c ∈ s.toList, isLineBreak c = false

instance (s : String) : Decidable (OneLine s) :=
  decidable_of_iff ((s.toList.all fun c => !isLineBreak c) = true) (by simp [OneLine])

theorem OneLine.append {a b : String} (ha : OneLine a) (hb : OneLine b) : OneLine (a ++ b) := by
  intro c hc
  rw [String.toList_append, List.mem_append] at hc
  rcases hc with hc | hc
  · exact ha c hc
  · exact hb c hc

theorem linesFrom_oneLine {l : List Char} (h : ∀ c ∈ l, isLineBreak c = false) (m cur : List Char) :
    linesFrom (l ++ '\n' :: m) cur = (cur.reverse ++ l) :: linesFrom m [] := by
  induction l generalizing cur with
  | nil =>
    rw [List.nil_append, linesFrom_cons (.inl (by decide)), if_pos (by decide), List.append_nil]
  | cons c cs ih =>
    have hc : isLineBreak c = false := h c List.mem_cons_self
    have hr : c ≠ '\r' := by
      rintro rfl
      exact absurd hc (by decide)
    rw [List.cons_append, linesFrom_cons (.inl hr), if_neg (by simp [hc]),
      ih fun x hx => h x (List.mem_cons_of_mem _ hx)]
    simp

/-- One or more blanks. -/
def Blanks (s : String) : Prop := s.toList ≠ [] ∧ ∀ c ∈ s.toList, isSpace c = true

instance (s : String) : Decidable (Blanks s) :=
  decidable_of_iff (s.toList ≠ [] ∧ s.toList.all isSpace = true) (by simp [Blanks])

/-- Leading blanks belong to no word. -/
theorem words_blanks_append {gap s : String} (h : ∀ c ∈ gap.toList, isSpace c = true) :
    words (gap ++ s) = words s := by
  have hruns : ∀ l m : List Char, (∀ c ∈ l, isSpace c = true) →
      (runsFrom isSpace (l ++ m) []).filter (· ≠ []) =
        (runsFrom isSpace m []).filter (· ≠ []) := by
    intro l m hl
    induction l with
    | nil => rfl
    | cons c cs ih =>
      rw [List.cons_append, runsFrom, if_pos (hl c List.mem_cons_self)]
      exact ih fun x hx => hl x (List.mem_cons_of_mem _ hx)
  unfold words
  rw [String.toList_append, hruns _ _ h]

/-- A word ends where a blank begins, or the text ends. -/
theorem words_word_append {w rest : String} (hw : Word w)
    (hrest : ∀ c ∈ rest.toList.head?, isSpace c = true) :
    words (w ++ rest) = w :: words rest := by
  have hword := words_word hw
  cases hr : rest.toList with
  | nil =>
    obtain rfl : rest = "" := String.toList_injective hr
    rw [String.append_empty, hword]
    rfl
  | cons c cs =>
    have hc : isSpace c = true := hrest c (by rw [hr]; rfl)
    have hskip : words rest = words (String.ofList cs) := by
      have hcons : rest = String.singleton c ++ String.ofList cs :=
        String.toList_injective (by simp [hr])
      rw [hcons]
      exact words_blanks_append fun d hd => by
        obtain rfl : d = c := by simpa using hd
        exact hc
    rw [hskip]
    unfold words at hword ⊢
    rw [String.toList_append, hr, runsFrom_append hc, List.filter_append, List.map_append, hword,
      String.toList_ofList]
    rfl

/-- A word, blanks, and what follows them. -/
theorem words_word_gap {w gap rest : String} (hw : Word w) (hgap : Blanks gap) :
    words (w ++ (gap ++ rest)) = w :: words rest := by
  obtain ⟨c, cs, hcs⟩ := List.exists_cons_of_ne_nil hgap.1
  rw [words_word_append hw, words_blanks_append hgap.2]
  intro d hd
  rw [String.toList_append, hcs] at hd
  obtain rfl : c = d := by simpa using hd
  exact hgap.2 c (by rw [hcs]; exact List.mem_cons_self)

/-- A text of lines, each with its newline. -/
def unlines (lines : List String) : String := String.join (lines.map fun line => line ++ "\n")

theorem unlines_cons (line : String) (lines : List String) :
    unlines (line :: lines) = line ++ "\n" ++ unlines lines := by
  simp [unlines]

theorem unlines_append (l m : List String) : unlines (l ++ m) = unlines l ++ unlines m := by
  induction l with
  | nil => exact String.empty_append.symm
  | cons a rest ih =>
    rw [List.cons_append, unlines_cons, unlines_cons, ih]
    simp only [String.append_assoc]

/-- Words, one a line. -/
theorem words_unlines {l : List String} (h : ∀ w ∈ l, Word w) : words (unlines l) = l := by
  have hgap : Blanks "\n" := by decide +kernel
  induction l with
  | nil => rfl
  | cons a rest ih =>
    rw [unlines_cons, String.append_assoc, words_word_gap (h a List.mem_cons_self) hgap,
      ih fun w hw => h w (List.mem_cons_of_mem _ hw)]

/-- A word behind blanks. -/
theorem strip_blanks_append {gap w : String} (hgap : ∀ c ∈ gap.toList, isSpace c = true)
    (hw : Word w) : strip (gap ++ w) = w := by
  have hfirst : ∀ l : List Char, (∀ c ∈ l, isSpace c = false) → l.dropWhile isSpace = l := by
    intro l hl
    cases l with
    | nil => rfl
    | cons c cs => exact List.dropWhile_cons_of_neg (by simp [hl c List.mem_cons_self])
  unfold strip trim
  rw [String.toList_append, List.dropWhile_append_of_pos hgap, hfirst _ hw.noSpace,
    hfirst _ fun c hc => hw.noSpace c (List.mem_reverse.mp hc), List.reverse_reverse,
    String.ofList_toList]

theorem isSpace_of_isLineBreak {c : Char} (h : isLineBreak c = true) : isSpace c = true := by
  simp only [isLineBreak, Bool.or_eq_true, Bool.and_eq_true, decide_eq_true_eq,
    beq_iff_eq] at h
  simp only [isSpace, Bool.or_eq_true, Bool.and_eq_true, decide_eq_true_eq, beq_iff_eq]
  omega

theorem oneLine_of_noSpace {s : String} (h : ∀ c ∈ s.toList, isSpace c = false) : OneLine s := by
  intro c hc
  by_contra hno
  rw [Bool.not_eq_false] at hno
  exact absurd ((isSpace_of_isLineBreak hno).symm.trans (h c hc)) (by decide)

theorem oneLine_intercalate {sep : String} {l : List String} (hsep : OneLine sep)
    (h : ∀ s ∈ l, OneLine s) : OneLine (sep.intercalate l) := by
  induction l with
  | nil => exact fun c hc => absurd hc (by simp)
  | cons a rest ih =>
    have ha := h a List.mem_cons_self
    have hrest := ih fun s hs => h s (List.mem_cons_of_mem _ hs)
    cases rest with
    | nil => rw [String.intercalate_singleton]; exact ha
    | cons b rest => rw [String.intercalate_cons_cons]; exact (ha.append hsep).append hrest

/-- `"\n".join(lines) + "\n"`. -/
theorem intercalate_newline {l : List String} (hne : l ≠ []) :
    "\n".intercalate l ++ "\n" = unlines l := by
  induction l with
  | nil => exact absurd rfl hne
  | cons a rest ih =>
    cases rest with
    | nil => rw [String.intercalate_singleton, unlines_cons]; simp [unlines]
    | cons b rest =>
      rw [String.intercalate_cons_cons, unlines_cons, ← ih (List.cons_ne_nil _ _)]
      simp only [String.append_assoc]

theorem splitLines_unlines {lines : List String} (h : ∀ line ∈ lines, OneLine line) :
    splitLines (unlines lines) = lines := by
  induction lines with
  | nil => rfl
  | cons line rest ih =>
    have hl : (unlines (line :: rest)).toList = line.toList ++ '\n' :: (unlines rest).toList := by
      rw [unlines_cons]
      simp
    have hrest := ih fun s hs => h s (List.mem_cons_of_mem _ hs)
    unfold splitLines at hrest ⊢
    rw [hl, linesFrom_oneLine (h line List.mem_cons_self), List.map_cons, hrest]
    simp

/-- The lines of two texts, where the first ends with a newline. -/
theorem splitLines_append {a b : String} :
    splitLines (a ++ "\n" ++ b) = splitLines (a ++ "\n") ++ splitLines b := by
  have hab : (a ++ "\n" ++ b).toList = a.toList ++ '\n' :: b.toList := by simp
  have ha : (a ++ "\n").toList = a.toList ++ ['\n'] := by simp
  unfold splitLines
  rw [hab, ha, linesFrom_newline, List.map_append]

/-- The run under way goes on to the next separator. -/
theorem runsFrom_head (p : Char → Bool) (l cur : List Char) :
    ∃ more, runsFrom p l cur = (cur.reverse ++ l.takeWhile fun c => !p c) :: more := by
  induction l generalizing cur with
  | nil => exact ⟨[], by simp [runsFrom]⟩
  | cons c cs ih =>
    rw [runsFrom]
    by_cases hc : p c = true
    · exact ⟨runsFrom p cs [], by simp [hc]⟩
    · obtain ⟨more, hmore⟩ := ih (c :: cur)
      refine ⟨more, ?_⟩
      rw [if_neg hc, hmore]
      simp [hc]

/-- The first word of a text is what stands between its leading blanks and the next one. -/
theorem head?_words (s : String) : (words s).head? =
    match s.toList.dropWhile isSpace with
    | [] => none
    | c :: cs => some (String.ofList (c :: cs.takeWhile fun c => !isSpace c)) := by
  have hruns : ((runsFrom isSpace s.toList []).filter (· ≠ [])).head? =
      match s.toList.dropWhile isSpace with
      | [] => none
      | c :: cs => some (c :: cs.takeWhile fun c => !isSpace c) := by
    generalize s.toList = l
    induction l with
    | nil => rfl
    | cons c cs ih =>
      by_cases hc : isSpace c = true
      · rw [runsFrom, if_pos hc, List.dropWhile_cons_of_pos hc]
        exact ih
      · obtain ⟨more, hmore⟩ := runsFrom_head isSpace cs [c]
        rw [runsFrom, if_neg hc, hmore, List.dropWhile_cons_of_neg hc]
        simp
  unfold words
  rw [List.head?_map, hruns]
  cases s.toList.dropWhile isSpace <;> rfl

/-- The first word of a text that is written out up to the blank after it. -/
theorem head?_words_append {sp w rest : List Char} {c : Char} (hsp : ∀ c ∈ sp, isSpace c = true)
    (hne : w ≠ []) (hw : ∀ c ∈ w, isSpace c = false) (hc : isSpace c = true) {s : String}
    (hs : s.toList = sp ++ (w ++ c :: rest)) : (words s).head? = some (String.ofList w) := by
  obtain ⟨d, ds, rfl⟩ := List.exists_cons_of_ne_nil hne
  have hd : isSpace d = false := hw d List.mem_cons_self
  have hdrop : s.toList.dropWhile isSpace = d :: (ds ++ c :: rest) := by
    rw [hs, List.dropWhile_append_of_pos hsp, List.cons_append,
      List.dropWhile_cons_of_neg (by simp [hd])]
  have htake : (ds ++ c :: rest).takeWhile (fun c => !isSpace c) = ds := by
    rw [List.takeWhile_append_of_pos fun x hx => by simp [hw x (List.mem_cons_of_mem _ hx)],
      List.takeWhile_cons_of_neg (by simp [hc]), List.append_nil]
  rw [head?_words, hdrop]
  simp only
  rw [htake]

/-- `s.strip() == ""`. -/
def blank (s : String) : Bool := s.toList.all isSpace

/-! ## `int(text)` -/

/-- The code points of the decimal zeros: each begins a run of ten digits. -/
def digitZeros : List Nat :=
  [48, 1632, 1776, 1984, 2406, 2534, 2662, 2790, 2918, 3046, 3174, 3302, 3430, 3558, 3664,
    3792, 3872, 4160, 4240, 6112, 6160, 6470, 6608, 6784, 6800, 6992, 7088, 7232, 7248, 42528,
    43216, 43264, 43472, 43504, 43600, 44016, 65296, 66720, 68912, 69734, 69872, 69942, 70096,
    70384, 70736, 70864, 71248, 71360, 71472, 71904, 72016, 72784, 73040, 73120, 73552, 92768,
    92864, 93008, 120782, 120792, 120802, 120812, 120822, 123200, 123632, 124144, 125264,
    130032]

/-- The value of a decimal digit of any script. -/
def digitVal (c : Char) : Option Nat :=
  (digitZeros.find? fun z => z ≤ c.toNat && c.toNat < z + 10).map (c.toNat - ·)

/-- The digits after the first one, with single underscores between digits. -/
def readDigits : List Char → Nat → Option Nat
  | [], acc => some acc
  | '_' :: c :: cs, acc =>
      match digitVal c with
      | some d => readDigits cs (10 * acc + d)
      | none => none
  | c :: cs, acc =>
      match digitVal c with
      | some d => readDigits cs (10 * acc + d)
      | none => none

/-- `sys.get_int_max_str_digits()`, at its default. -/
def maxStrDigits : Nat := 4300

/-- An unsigned decimal numeral. -/
def readNat : List Char → Option Nat
  | [] => none
  | c :: cs =>
      if ((c :: cs).filter (· ≠ '_')).length ≤ maxStrDigits then
        match digitVal c with
        | some d => readDigits cs d
        | none => none
      else none

/-- The blanks `int` skips: those of `isSpace` less the four ASCII separators. -/
def isIntSpace (c : Char) : Bool := isSpace c && !(28 ≤ c.toNat && c.toNat ≤ 31)

/-- `int(text)`; `none` is the `ValueError`. -/
def readInt (s : String) : Option Int :=
  match trim isIntSpace s.toList with
  | '-' :: ds => (readNat ds).map fun n : Nat => -(n : Int)
  | '+' :: ds => (readNat ds).map fun n : Nat => (n : Int)
  | ds => (readNat ds).map fun n : Nat => (n : Int)

/-! ### Reading back a printed number -/

theorem digitVal_of_isDigit {c : Char} (h : c.isDigit = true) :
    digitVal c = some (c.toNat - '0'.toNat) := by
  have h48 : 48 ≤ c.toNat ∧ c.toNat ≤ 57 := by
    simp only [Char.isDigit, Bool.and_eq_true, decide_eq_true_eq] at h
    exact h
  unfold digitVal digitZeros
  rw [List.find?_cons_of_pos (by simp; omega)]
  rfl

theorem readDigits_of_isDigit {cs : List Char} (h : ∀ c ∈ cs, c.isDigit = true) (acc : Nat) :
    readDigits cs acc = some (Nat.ofDigitChars 10 cs acc) := by
  induction cs generalizing acc with
  | nil => simp [readDigits]
  | cons c cs ih =>
    have hc : c.isDigit = true := h c List.mem_cons_self
    have hus : c ≠ '_' := by
      rintro rfl
      exact absurd hc (by decide)
    have hstep : readDigits (c :: cs) acc =
        readDigits cs (10 * acc + (c.toNat - '0'.toNat)) := by
      rw [readDigits.eq_3 _ _ _ (fun c' cs' hu _ => hus hu), digitVal_of_isDigit hc]
    rw [hstep, ih fun c' hc' => h c' (List.mem_cons_of_mem _ hc'), Nat.ofDigitChars_cons]

theorem isDigit_of_mem_toDigits {n : Nat} {c : Char} (h : c ∈ Nat.toDigits 10 n) :
    c.isDigit = true :=
  Nat.isDigit_of_mem_toDigits (by decide) (by decide) h

/-- A number printed with at most `maxStrDigits` digits is read back. -/
theorem readNat_toDigits {n : Nat} (h : n < 10 ^ maxStrDigits) :
    readNat (Nat.toDigits 10 n) = some n := by
  have hlen : (Nat.toDigits 10 n).length ≤ maxStrDigits :=
    (Nat.length_toDigits_le_iff (by decide) (by decide)).mpr h
  cases hd : Nat.toDigits 10 n with
  | nil => exact absurd hd Nat.toDigits_ne_nil
  | cons c cs =>
    have hdig : ∀ c' ∈ c :: cs, c'.isDigit = true := fun c' hc' =>
      isDigit_of_mem_toDigits (n := n) (by rw [hd]; exact hc')
    have hf : ((c :: cs).filter (· ≠ '_')).length ≤ maxStrDigits :=
      le_trans (List.length_filter_le _ _) (by rw [← hd]; exact hlen)
    have hval : Nat.ofDigitChars 10 (c :: cs) 0 = n := by
      rw [← hd]
      exact Nat.ofDigitChars_ten_toDigits
    rw [Nat.ofDigitChars_cons] at hval
    rw [readNat, if_pos hf, digitVal_of_isDigit (hdig c List.mem_cons_self)]
    simp only
    rw [readDigits_of_isDigit fun c' hc' => hdig c' (List.mem_cons_of_mem _ hc')]
    simpa using hval

theorem toList_toString_nat (n : Nat) : (toString n).toList = Nat.toDigits 10 n := by simp

/-- A digit is no blank. -/
theorem not_isIntSpace_of_isDigit {c : Char} (h : c.isDigit = true) : isIntSpace c = false := by
  simp only [Char.isDigit, Bool.and_eq_true, decide_eq_true_eq] at h
  have : 48 ≤ c.toNat ∧ c.toNat ≤ 57 := h
  simp [isIntSpace, isSpace]
  omega

/-- A number printed with more digits is refused. -/
theorem readNat_toDigits_long {n : Nat} (h : 10 ^ maxStrDigits ≤ n) :
    readNat (Nat.toDigits 10 n) = none := by
  have hfilter : (Nat.toDigits 10 n).filter (· ≠ '_') = Nat.toDigits 10 n := by
    refine List.filter_eq_self.mpr fun c hc => ?_
    rw [decide_eq_true_eq]
    rintro rfl
    exact absurd (isDigit_of_mem_toDigits hc) (by decide)
  have hlong : ¬ (Nat.toDigits 10 n).length ≤ maxStrDigits := fun hle =>
    absurd ((Nat.length_toDigits_le_iff (by decide) (by decide)).mp hle) (Nat.not_lt.mpr h)
  cases hd : Nat.toDigits 10 n with
  | nil => exact absurd hd Nat.toDigits_ne_nil
  | cons c cs =>
    rw [hd] at hfilter hlong
    rw [readNat, hfilter, if_neg hlong]

/-- A printed natural number is read digit by digit. -/
theorem readInt_toString {n : Nat} :
    readInt (toString n) = (readNat (Nat.toDigits 10 n)).map fun m : Nat => (m : Int) := by
  have hdig : ∀ c ∈ Nat.toDigits 10 n, c.isDigit = true := fun c hc =>
    isDigit_of_mem_toDigits hc
  have htrim : trim isIntSpace (Nat.toDigits 10 n) = Nat.toDigits 10 n :=
    trim_eq_self fun c hc => not_isIntSpace_of_isDigit (hdig c hc)
  unfold readInt
  rw [toList_toString_nat, htrim]
  cases hd : Nat.toDigits 10 n with
  | nil => exact absurd hd Nat.toDigits_ne_nil
  | cons c cs =>
    have hc : c.isDigit = true := hdig c (by rw [hd]; exact List.mem_cons_self)
    have hm : c ≠ '-' := by
      rintro rfl
      exact absurd hc (by decide)
    have hp : c ≠ '+' := by
      rintro rfl
      exact absurd hc (by decide)
    simp [hm, hp]

theorem readInt_toString_nat {n : Nat} (h : n < 10 ^ maxStrDigits) :
    readInt (toString n) = some (n : Int) := by
  rw [readInt_toString, readNat_toDigits h]
  rfl

/-- A number read back is the number printed. -/
theorem eq_of_readNat_toDigits {n m : Nat} (h : readNat (Nat.toDigits 10 n) = some m) :
    n < 10 ^ maxStrDigits ∧ m = n := by
  by_cases hn : n < 10 ^ maxStrDigits
  · rw [readNat_toDigits hn] at h
    exact ⟨hn, (Option.some.inj h).symm⟩
  · rw [readNat_toDigits_long (Nat.not_lt.mp hn)] at h
    exact absurd h (by simp)

theorem eq_of_readInt_toString {n : Nat} {m : Int} (h : readInt (toString n) = some m) :
    n < 10 ^ maxStrDigits ∧ m = n := by
  rw [readInt_toString] at h
  obtain ⟨k, hk, rfl⟩ := Option.map_eq_some_iff.mp h
  obtain ⟨hn, rfl⟩ := eq_of_readNat_toDigits hk
  exact ⟨hn, rfl⟩

/-- So it is for a number with a sign. -/
theorem eq_of_readInt_toString_int {n m : Int} (h : readInt (toString n) = some m) : m = n := by
  cases n with
  | ofNat n => exact (eq_of_readInt_toString h).2
  | negSucc n =>
    have hlist : (toString (Int.negSucc n)).toList = '-' :: Nat.toDigits 10 (n + 1) := by
      show ("-" ++ toString (n + 1)).toList = _
      simp
    have htrim : trim isIntSpace ('-' :: Nat.toDigits 10 (n + 1)) =
        '-' :: Nat.toDigits 10 (n + 1) := by
      refine trim_eq_self fun c hc => ?_
      rcases List.mem_cons.mp hc with rfl | hc
      · decide
      · exact not_isIntSpace_of_isDigit (isDigit_of_mem_toDigits hc)
    unfold readInt at h
    rw [hlist, htrim] at h
    obtain ⟨k, hk, rfl⟩ := Option.map_eq_some_iff.mp h
    obtain ⟨-, rfl⟩ := eq_of_readNat_toDigits hk
    rfl

/-- A printed number holds no separator that is not a digit. -/
theorem not_mem_toString_nat {n : Nat} {c : Char} (h : c.isDigit = false) :
    c ∉ (toString n).toList := by
  rw [toList_toString_nat]
  intro hm
  rw [isDigit_of_mem_toDigits hm] at h
  exact absurd h (by decide)

/-- A printed number is made of digits, and a sign. -/
theorem mem_toString_int {n : Int} {c : Char} (h : c ∈ (toString n).toList) :
    c = '-' ∨ c.isDigit = true := by
  by_contra hno
  obtain ⟨hsign, hdigit⟩ := not_or.mp hno
  rw [Bool.not_eq_true] at hdigit
  cases n with
  | ofNat n => exact not_mem_toString_nat hdigit h
  | negSucc n =>
    have hspell : (toString (Int.negSucc n)).toList = '-' :: (toString (n + 1)).toList := by
      show ("-" ++ toString (n + 1)).toList = _
      rw [String.toList_append]
      rfl
    rw [hspell] at h
    rcases List.mem_cons.mp h with hc | hm
    · exact hsign hc
    · exact not_mem_toString_nat hdigit hm

end Text
