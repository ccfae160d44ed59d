import Bsdbridge.Host
import Bsdbridge.L2Agent.Reader
import Bsdbridge.Proof.Reading

/-!
# What pf prints of an anchor

What an anchor holds is read back from three listings: the rules, as pf prints them, with their
labels; the names of the tables; and the members of each. pf prints a rule in its own words, so
nothing can be read of the rules but their labels. This module says what the listings are, and that
the quotes of the first one tell its labels from all else.

`Echoes` is what is assumed of a printed rule, and it is little on purpose: one line for a rule,
the label as it was, and no quotation mark but those around the label. Which words stand before the
label is left open, as it differs between versions of pf and between what is loaded and what is
optimised. `Prints` adds the listings of table names and of table members.

`Loaded` is an anchor's content without a kernel around it, for statements about one anchor: a load
replaces all of it, a table replacement one table. Two contents are compared by `Same`, as the
order of tables is not pf's to keep. That what is read of such a listing is the hash that was
loaded is proved in `Proof/Readback`, from the cut at the quotes at the end of this file.
-/

set_option autoImplicit false

namespace Bsdbridge

namespace Pf

/-! ## 1. What pf holds and prints -/

/-- What an anchor holds. -/
structure Loaded where
  rules : List String
  tables : Dict String (Finset String)

namespace Loaded

/-- A ruleset, loaded. -/
def of (r : Ruleset) : Loaded where
  rules := r.rules
  tables := Dict.ofList (r.tables.map fun t => (t.1, t.2.toFinset))

/-- The effect of an op on the anchor it is for. -/
def exec (a : Loaded) : Op → Loaded
  | .loadAnchor _ _ r _ => of r
  | .replaceTable _ t members => { a with tables := a.tables.insert t members.toFinset }
  | _ => a

/-- The same rules, and the same members in every table. -/
def Same (a b : Loaded) : Prop :=
  a.rules = b.rules ∧ ∀ t, a.tables.get? t = b.tables.get? t

end Loaded

/-- A rule line with a label. -/
def labelled (body label : String) : String := body ++ " label \"" ++ label ++ "\""

/-- How pf prints a rule: in words of its own, the label as it was. A rule is one line, and the
only quotes in it are those of its label. -/
inductive Echoes (rule shown : String) : Prop
  | plain : Text.OneLine rule → '"' ∉ rule.toList → '"' ∉ shown.toList → Echoes rule shown
  | label (body text label : String) : Text.OneLine rule → rule = labelled body label →
      '"' ∉ body.toList → '"' ∉ label.toList → '"' ∉ text.toList →
      shown = labelled text label → Echoes rule shown

/-- pf prints what an anchor holds: its rules, a line each, its table names, a line each, and the
members of a table, an indented line each. -/
structure Prints (answer : Argv → RunResult) (ifname : String) (a : Loaded) : Prop where
  rules : (answer (rulesArgv ifname)).ok = true ∧ ∃ shown,
    (answer (rulesArgv ifname)).out = Text.unlines shown ∧ List.Forall₂ Echoes a.rules shown
  names : ∃ names, (answer (tablesArgv ifname)).out = Text.unlines names ∧
    (∀ t, t ∈ names ↔ t ∈ a.tables) ∧ ∀ t ∈ names, Text.Word t
  members : ∀ t ms, a.tables.get? t = some ms → (answer (showArgv ifname t)).ok = true ∧
    ∃ shown : List String,
      (answer (showArgv ifname t)).out = Text.unlines (shown.map ("   " ++ ·)) ∧
        shown.toFinset = ms ∧ ∀ m ∈ shown, Text.Word m

/-! ## 2. Labels -/

theorem toList_labelled (body label : String) : (labelled body label).toList =
    (body ++ " label ").toList ++ '"' :: (label.toList ++ ['"']) := by
  simp [labelled]

theorem count_labelled (body label : String) : (labelled body label).toList.count '"' =
    body.toList.count '"' + label.toList.count '"' + 2 := by
  have hmid : " label ".toList.count '"' = 0 := by simp
  rw [toList_labelled]
  simp only [String.toList_append, List.count_append, List.count_cons_self, List.count_nil, hmid]
  omega

theorem splitOn_labelled {body label : String} (hb : '"' ∉ body.toList)
    (hl : '"' ∉ label.toList) :
    Text.splitOn (labelled body label) '"' = [body ++ " label ", label, ""] := by
  have hhead : '"' ∉ (body ++ " label ").toList := by
    have hmid : '"' ∉ " label ".toList := by simp
    rw [String.toList_append, List.mem_append, not_or]
    exact ⟨hb, hmid⟩
  have heq : labelled body label = body ++ " label " ++ String.singleton '"' ++
      (label ++ String.singleton '"' ++ "") := by
    apply String.toList_injective
    rw [toList_labelled]
    simp
  rw [heq, Text.splitOn_append hhead, Text.splitOn_append hl]
  rfl

/-- A line of one label is written in one way only. -/
theorem labelled_inj {body body' label label' : String} (hb : '"' ∉ body.toList)
    (hl : '"' ∉ label.toList) (h : labelled body' label' = labelled body label) :
    body' = body ∧ label' = label := by
  have hcount := congrArg (fun s => s.toList.count '"') h
  simp only [count_labelled, List.count_eq_zero.mpr hb, List.count_eq_zero.mpr hl] at hcount
  have hb' : '"' ∉ body'.toList := List.count_eq_zero.mp (by omega)
  have hl' : '"' ∉ label'.toList := List.count_eq_zero.mp (by omega)
  have hparts := congrArg (fun s => Text.splitOn s '"') h
  simp only [splitOn_labelled hb hl, splitOn_labelled hb' hl', List.cons.injEq] at hparts
  refine ⟨?_, hparts.2.1⟩
  have hlist := congrArg String.toList hparts.1
  rw [String.toList_append, String.toList_append] at hlist
  exact String.toList_injective (List.append_cancel_right hlist)

theorem Echoes.oneLine {rule shown : String} (h : Echoes rule shown) : Text.OneLine rule := by
  cases h with
  | plain hone => exact hone
  | label body text label hone => exact hone

/-- A rule without a label. -/
theorem Echoes.of_plain {rule shown : String} (h : Echoes rule shown) (hr : '"' ∉ rule.toList) :
    '"' ∉ shown.toList := by
  cases h with
  | plain hone hrule hshown => exact hshown
  | label body text label hone hrule =>
    refine absurd ?_ hr
    rw [hrule, toList_labelled]
    simp

/-- A rule with a label. -/
theorem Echoes.of_labelled {body label shown : String} (h : Echoes (labelled body label) shown) :
    '"' ∉ body.toList ∧ '"' ∉ label.toList ∧ ∃ text, '"' ∉ text.toList ∧
      shown = labelled text label := by
  cases h with
  | plain hone hrule =>
    rw [toList_labelled] at hrule
    exact absurd hrule (by simp)
  | label body' text label' hone hrule hb hl htext hshown =>
    obtain ⟨rfl, rfl⟩ := labelled_inj hb hl hrule
    exact ⟨hb, hl, text, htext, hshown⟩

/-! ## 3. The parts of a listing

Every second part of a listing that is cut at its quotes is a label. The others end in a blank or
are empty, and that is how a hash in a label is told from one that is not. -/

/-- A part of a listing that is no label ends in a blank, or is empty. -/
def Gap (part : String) : Prop := ∀ c ∈ part.toList.getLast?, Text.isSpace c = true

/-- Cut at its quotes, a listing of rules is its labels and what stands between them. -/
theorem parts_listing {lines : List String} {L : String → Prop}
    (h : ∀ line ∈ lines, '"' ∉ line.toList ∨ ∃ text label, line = labelled text label ∧
      '"' ∉ text.toList ∧ '"' ∉ label.toList ∧ L label)
    {acc : String} (hacc : '"' ∉ acc.toList) (hgap : Gap acc) :
    ∀ part ∈ Text.splitOn (acc ++ Text.unlines lines) '"', L part ∨ Gap part := by
  induction lines generalizing acc with
  | nil =>
    intro part hpart
    have hnil : acc ++ Text.unlines [] = acc := String.append_empty
    rw [hnil, Text.splitOn_none hacc] at hpart
    obtain rfl := List.mem_singleton.mp hpart
    exact .inr hgap
  | cons line rest ih =>
    have hrest : ∀ l ∈ rest, '"' ∉ l.toList ∨ ∃ text label, l = labelled text label ∧
        '"' ∉ text.toList ∧ '"' ∉ label.toList ∧ L label := fun l hl =>
      h l (List.mem_cons_of_mem _ hl)
    rcases h line List.mem_cons_self with hplain | ⟨text, label, rfl, htext, hlabel, hL⟩
    · have heq : acc ++ Text.unlines (line :: rest) =
          acc ++ line ++ "\n" ++ Text.unlines rest := by
        rw [Text.unlines_cons]
        simp only [String.append_assoc]
      rw [heq]
      refine ih hrest ?_ ?_
      · have hnl : '"' ∉ "\n".toList := by simp
        simp only [String.toList_append, List.mem_append, not_or]
        exact ⟨⟨hacc, hplain⟩, hnl⟩
      · unfold Gap
        simp
        decide
    · have hhead : '"' ∉ (acc ++ (text ++ " label ")).toList := by
        have hmid : '"' ∉ " label ".toList := by simp
        simp only [String.toList_append, List.mem_append, not_or]
        exact ⟨hacc, htext, hmid⟩
      have heq : acc ++ Text.unlines (labelled text label :: rest) =
          acc ++ (text ++ " label ") ++ String.singleton '"' ++
            (label ++ String.singleton '"' ++ ("\n" ++ Text.unlines rest)) := by
        apply String.toList_injective
        rw [Text.unlines_cons]
        simp [labelled]
      intro part hpart
      rw [heq, Text.splitOn_append hhead, Text.splitOn_append hlabel, List.mem_cons,
        List.mem_cons] at hpart
      rcases hpart with rfl | rfl | hpart
      · refine .inr ?_
        unfold Gap
        simp
        decide
      · exact .inl hL
      · have hgap' : Gap "\n" := by
          unfold Gap
          simp
          decide
        exact ih hrest (by simp) hgap' part hpart

end Pf

end Bsdbridge
