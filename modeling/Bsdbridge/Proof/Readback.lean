import Bsdbridge.Proof.Anchors
import Bsdbridge.Proof.Partial
import Bsdbridge.Proof.RuleLines

/-!
# An anchor read back

The hash of an anchor is found by a search through the whole text of its rules. A port's other
labels carry its interface name, which is too short to look like a hash: **`anchorBy_loaded`** says
that what is read is the hash that was loaded, and the members that each table has. From there
**`drift_exact`** says what is planned for an anchor that was loaded from one setting and is to
have another.

pf does not print what it was given. It prints rules of its own words, with the labels as they
were, and table members one per line; `Echoes` and `Prints` in `Proof/Labels` are what is assumed
of that output, and a listing that has them may differ from the loaded text in everything else.

## What a hash stands for

`drift_exact` is about two settings of one interface, each a filter, a bind and tables. Nothing is
planned exactly when the lines and the tables that they refer to are the same, a load when the
lines differ, and repairs when only members do. The hash function is a parameter: that different
lines have different hashes is a hypothesis about these two texts, since a digest cut to sixteen
digits does collide somewhere. The numbers of rules are in no line, only their order is, so a
change of numbers alone is no drift.
-/

set_option autoImplicit false

namespace Bsdbridge

namespace Pf

/-! ## 1. The hash

The search is for sixteen hexadecimal digits behind the agent's prefix, anywhere in the text. -/

section

variable {ifname hash : String} {lines : List Line} {shown : List String}

/-- Every label of a listing is that of the hash or that of a port. -/
theorem labels_of_echoes (hbody : ∀ l ∈ lines, '"' ∉ l.body.toList)
    (h : List.Forall₂ Echoes (lines.map (Line.text ifname) ++ [hashLine ifname hash]) shown) :
    ∀ line ∈ shown, '"' ∉ line.toList ∨ ∃ text label, line = labelled text label ∧
      '"' ∉ text.toList ∧ '"' ∉ label.toList ∧
      (label = hashLabel hash ∨ label = stateLabel ifname) := by
  have hifname : '"' ∉ ifname.toList := by
    obtain ⟨line, -, hline⟩ := exists_of_mem_left h (List.mem_append_right _ List.mem_cons_self)
    obtain ⟨hhead, -⟩ := hline.of_labelled
    simp only [String.toList_append, List.mem_append, not_or] at hhead
    exact hhead.1.2
  intro line hline
  obtain ⟨rule, hrule, hecho⟩ := exists_of_mem_right h hline
  rcases List.mem_append.mp hrule with hrule | hrule
  · obtain ⟨l, hl, rfl⟩ := List.mem_map.mp hrule
    unfold Line.text at hecho
    split at hecho
    · obtain ⟨-, hlabel, text, htext, hshown⟩ := hecho.of_labelled
      exact .inr ⟨text, _, hshown, htext, hlabel, .inr rfl⟩
    · have hverdict : '"' ∉ l.verdict.toList := by
        unfold Line.verdict
        split <;> simp
      have hway : '"' ∉ l.way.word.toList := by cases l.way <;> simp [Direction.word]
      have hquick : '"' ∉ " quick on ".toList := by simp
      have hblank : '"' ∉ " ".toList := by simp
      refine .inl (hecho.of_plain ?_)
      unfold Line.head
      simp only [String.toList_append, List.mem_append, not_or]
      exact ⟨⟨⟨⟨⟨⟨hverdict, hblank⟩, hway⟩, hquick⟩, hifname⟩, hblank⟩,
        hbody l hl⟩
  · obtain rfl := List.mem_singleton.mp hrule
    obtain ⟨-, hlabel, text, htext, hshown⟩ := hecho.of_labelled
    exact .inr ⟨text, _, hshown, htext, hlabel, .inl rfl⟩

/-- **The hash read is the hash loaded.** -/
theorem parseRulesHash_echoes (hlen : ifname.length ≤ 15) (hhash : HashDigits hash)
    (hbody : ∀ l ∈ lines, '"' ∉ l.body.toList)
    (h : List.Forall₂ Echoes (lines.map (Line.text ifname) ++ [hashLine ifname hash]) shown) :
    parseRulesHash (Text.unlines shown) = some hash := by
  have hlabels := labels_of_echoes hbody h
  have hreads : ∀ rest, Regex.Reads CFG_RE
      ("label \"l2-neutron:cfg:".toList ++ (hash.toList ++ ("\"".toList ++ []))) rest
        [("hash", hash.toList)] := by
    intro rest
    have htimes : Regex.Reads (Regex.times hash.toList.length isLowerHex) hash.toList
      ("\"".toList ++ [] ++ rest) [] := Regex.reads_times hhash.2
    rw [hhash.1] at htimes
    exact Regex.reads_lit.seq (htimes.group.seq (Regex.reads_lit.seq Regex.reads_eps))
  have hfound : ∀ w, HashDigits w → (∃ pre rest, (Text.unlines shown).toList = pre ++
      ("label \"l2-neutron:cfg:".toList ++ (w.toList ++ ("\"".toList ++ [])) ++ rest)) →
        w = hash := by
    rintro w hw ⟨pre, rest, ht⟩
    have hquote : '"' ∉ (hashLabel w).toList := by
      have hfront : '"' ∉ "l2-neutron:cfg:".toList := by simp
      rw [hashLabel, String.toList_append, List.mem_append, not_or]
      exact ⟨hfront, fun hmem => quote_not_hex (hw.2 _ hmem) rfl⟩
    have hpart : hashLabel w ∈ Text.splitOn (Text.unlines shown) '"' := by
      refine Text.mem_splitOn_between (l := pre ++ "label ".toList) (m := rest) hquote ?_
      rw [ht]
      simp [hashLabel]
    have hempty : Gap "" := by simp [Gap]
    have hparts := parts_listing hlabels (by simp) hempty
    rw [String.empty_append] at hparts
    rcases hparts _ hpart with (heq | heq) | hgap
    · have hlist := congrArg String.toList heq
      rw [hashLabel, hashLabel, String.toList_append, String.toList_append] at hlist
      exact String.toList_injective (List.append_cancel_left hlist)
    · -- a port's label would need a name of twenty characters to look like this one
      have hlist := congrArg (fun s => s.toList.length) heq
      simp only [hashLabel, stateLabel, String.toList_append, List.length_append, hw.1] at hlist
      have hfront : "l2-neutron:cfg:".toList.length = 15 := rfl
      have hport : "l2-neutron:".toList.length = 11 := rfl
      rw [hfront, hport, String.length_toList] at hlist
      omega
    · obtain ⟨c, hc⟩ : ∃ c, w.toList.getLast? = some c := by
        cases hlast : w.toList.getLast? with
        | some c => exact ⟨c, rfl⟩
        | none =>
          have hnil := List.getLast?_eq_none_iff.mp hlast
          exact absurd hw.1 (by rw [hnil]; decide)
      have hlast : (hashLabel w).toList.getLast? = some c := by
        rw [hashLabel, String.toList_append, List.getLast?_append, hc]
        rfl
      have hspace := not_isSpace_of_isLowerHex (hw.2 c (List.mem_of_getLast? hc))
      exact absurd ((hgap c hlast).symm.trans hspace) (by decide)
  have hsearch : Regex.search CFG_RE (Text.unlines shown) = some [("hash", hash.toList)] := by
    refine Regex.search_of_unique (fun pre s rest ht htakes => ?_) ?_
    · obtain ⟨w, hw, rfl⟩ : ∃ w : String, HashDigits w ∧
          s = "label \"l2-neutron:cfg:".toList ++ (w.toList ++ ("\"".toList ++ [])) := by
        unfold CFG_RE Regex.cat at htakes
        simp only [List.foldr_cons, List.foldr_nil, Regex.takes_seq, Regex.takes_lit,
          Regex.takes_group, Regex.takes_times, Regex.takes_eps] at htakes
        obtain ⟨_, _, rfl, rfl, w, _, rfl, hw, _, _, rfl, rfl, rfl⟩ := htakes
        exact ⟨String.ofList w, by simpa [HashDigits] using hw, by simp⟩
      obtain rfl : w = hash := hfound w hw ⟨pre, rest, ht⟩
      exact hreads rest
    · obtain ⟨line, hline, hecho⟩ :=
        exists_of_mem_left h (List.mem_append_right _ List.mem_cons_self)
      obtain ⟨-, -, text, -, rfl⟩ := hecho.of_labelled
      obtain ⟨first, last, rfl⟩ := List.append_of_mem hline
      refine ⟨(Text.unlines first ++ text ++ " ").toList,
        "label \"l2-neutron:cfg:".toList ++ (hash.toList ++ ("\"".toList ++ [])),
        ("\n" ++ Text.unlines last).toList, ?_, ?_⟩
      · rw [Text.unlines_append, Text.unlines_cons]
        simp [labelled, hashLabel]
      · unfold CFG_RE Regex.cat
        simp only [List.foldr_cons, List.foldr_nil, Regex.takes_seq, Regex.takes_lit,
          Regex.takes_group, Regex.takes_times, Regex.takes_eps]
        exact ⟨_, _, rfl, rfl, _, _, rfl, hhash, _, _, rfl, rfl, rfl⟩
  unfold parseRulesHash
  rw [hsearch]
  simp [Regex.groupOf]

end

/-! ## 2. The tables, and the anchor -/

theorem parseTableShow_unlines {shown : List String} (h : ∀ m ∈ shown, Text.Word m) :
    parseTableShow (Text.unlines (shown.map ("   " ++ ·))) = shown.toFinset := by
  have hgap : ∀ c ∈ "   ".toList, Text.isSpace c = true := by simp [Text.isSpace]
  have hpad : Text.OneLine "   " := by simp [Text.OneLine, Text.isLineBreak]
  have hone : ∀ line ∈ shown.map ("   " ++ ·), Text.OneLine line := by
    intro line hline
    obtain ⟨m, hm, rfl⟩ := List.mem_map.mp hline
    exact hpad.append (Text.oneLine_of_noSpace (h m hm).noSpace)
  have hstrip : (shown.map ("   " ++ ·)).map Text.strip = shown := by
    rw [List.map_map]
    conv_rhs => rw [← List.map_id shown]
    exact List.map_congr_left fun m hm => Text.strip_blanks_append hgap (h m hm)
  unfold parseTableShow
  rw [Text.splitLines_unlines hone, hstrip, List.filter_eq_self.mpr]
  intro m hm
  exact decide_eq_true (h m hm).nonempty

/-- The tables read are the tables held. -/
theorem tables_read {answer : Argv → RunResult} {ifname : String} {a : Loaded}
    (h : Prints answer ifname a) (t : String) :
    ((Text.words (answer (tablesArgv ifname)).out).foldl
      (tableBy answer ifname) ∅).get? t = a.tables.get? t := by
  obtain ⟨names, hnames, hmem, hword⟩ := h.names
  rw [hnames, Text.words_unlines hword]
  have hfold := get?_foldl_insert (f := id)
    (v := fun t => parseTableShow (answer (showArgv ifname t)).out)
    (p := fun t => (answer (showArgv ifname t)).ok) (l := names)
    (d := (∅ : Dict String (Finset String))) (k := t)
  refine hfold.trans ?_
  cases hget : a.tables.get? t with
  | none =>
    rw [if_neg]
    · rfl
    · rintro ⟨c, hc, rfl, -⟩
      exact Dict.get?_eq_none.mp hget ((hmem _).mp hc)
  | some ms =>
    obtain ⟨hok, shown, hout, rfl, hwords⟩ := h.members t ms hget
    rw [if_pos ⟨t, (hmem t).mpr (Dict.mem_of_get? hget), rfl, hok⟩, hout,
      parseTableShow_unlines hwords]

/-- **What is read of a loaded anchor: its hash, and the members of its tables.** -/
theorem anchorBy_loaded {answer : Argv → RunResult} {ifname hash : String} {lines : List Line}
    {a : Loaded} (h : Prints answer ifname a) (hlen : ifname.length ≤ 15)
    (hhash : HashDigits hash) (hbody : ∀ l ∈ lines, '"' ∉ l.body.toList)
    (hrules : a.rules = lines.map (Line.text ifname) ++ [hashLine ifname hash]) :
    (anchorBy answer ifname).isLoaded = true ∧
      (anchorBy answer ifname).cfgHash = some hash ∧
      ∀ t, (anchorBy answer ifname).tables.get? t = a.tables.get? t := by
  obtain ⟨hok, shown, hout, hecho⟩ := h.rules
  rw [hrules] at hecho
  have hparse := parseRulesHash_echoes hlen hhash hbody hecho
  have htables := tables_read h
  unfold anchorBy
  simp only [hok, hout, hparse, Bool.not_true, Option.isNone_some, Bool.false_and, Bool.or_self,
    Bool.false_eq_true, if_false, true_and]
  exact htables

/-- A name in a line that is printed is free of line breaks. -/
theorem oneLine_of_prints {answer : Argv → RunResult} {ifname hash : String} {a : Loaded}
    (h : Prints answer ifname a) (hrule : hashLine ifname hash ∈ a.rules) :
    Text.OneLine ifname := by
  obtain ⟨-, shown, -, hecho⟩ := h.rules
  obtain ⟨line, -, hline⟩ := exists_of_mem_left hecho hrule
  intro c hc
  refine hline.oneLine c ?_
  unfold hashLine labelled
  simp only [String.toList_append, List.mem_append]
  exact .inl (.inl (.inl (.inl (.inr hc))))

end Pf

namespace Planner

/-! ## 3. The law -/

/-- What a member is to have: a filter or a bind, and every table the rules refer to. -/
structure Setting where
  config : Config
  member : Member
  policed : HasPolicy config member
  wanted : Pf.wantedTables (filterOf config member) config = .ok (tablesOf config member)

namespace Setting

variable (s : Setting)

def filt : Option Filter := filterOf s.config s.member

def bind : Option Bind := s.member.bind

def tables : List (String × List String) := tablesOf s.config s.member

def lines (ifname : String) : List String := Pf.ruleLines ifname s.filt s.bind

/-- Addresses free of quotes and line breaks, and ends of rules that are one word each and have
no bracket of their own. -/
structure Readable : Prop where
  quiet : Pf.QuietParts s.filt s.bind
  plain : ∀ f, s.filt = some f → Pf.PlainFilter f

theorem mem_tables {t : String} :
    t ∈ s.tables.map Prod.fst ↔ t ∈ Pf.tablesReferenced s.filt := by
  have hkeys : s.tables.map Prod.fst = sortedSet (Pf.tablesReferenced s.filt) :=
    wantedTables_keys s.wanted
  rw [hkeys, mem_sortedSet]

theorem referenced_of_lines {s s' : Setting} {ifname : String} (hs : s.Readable) (hs' : s'.Readable)
    (h : s.lines ifname = s'.lines ifname) :
    Pf.tablesReferenced s.filt = Pf.tablesReferenced s'.filt := by
  rw [Pf.tablesReferenced_lines s.bind hs.plain, Pf.tablesReferenced_lines s'.bind hs'.plain,
    Pf.linesOf_inj h]

variable [Hashlib]

/-- What an anchor holds once it is loaded. -/
def content (ifname : String) : Pf.Loaded := .of (Pf.render ifname s.filt s.bind s.tables).1

/-- The tables of an anchor are the setting's. -/
theorem get?_content (ifname t : String) (ms : Finset String) :
    (s.content ifname).tables.get? t = some ms ↔ ∃ l, (t, l) ∈ s.tables ∧ l.toFinset = ms := by
  have hnd : ((s.tables.map fun t => (t.1, t.2.toFinset)).map Prod.fst).Nodup := by
    rw [List.map_map]
    exact nodup_tables s.wanted
  have htables : (s.content ifname).tables =
      Dict.ofList (s.tables.map fun t => (t.1, t.2.toFinset)) := by
    unfold content Pf.Loaded.of filt bind tables
    rw [render_tables s.wanted]
  rw [htables, Dict.get?_eq_some, Dict.entries_ofList hnd, List.mem_map]
  constructor
  · rintro ⟨⟨k, l⟩, hl, he⟩
    obtain ⟨rfl, rfl⟩ := Prod.mk.inj he
    exact ⟨l, hl, rfl⟩
  · rintro ⟨l, hl, rfl⟩
    exact ⟨(t, l), hl, rfl⟩

theorem content_rules (ifname : String) : (s.content ifname).rules =
    (Pf.linesOf s.filt s.bind).map (Pf.Line.text ifname) ++
      [Pf.hashLine ifname (Pf.cfgHash ifname s.filt s.bind)] := by
  show Pf.ruleLines ifname s.filt s.bind ++ _ = _
  rw [Pf.ruleLines_eq, Pf.hashLine_eq]

end Setting

/-- The repairs of an anchor leave the rules and the other tables as they are. -/
theorem exec_repairs (ifname : String) {l : List (String × List String)}
    (hnd : (l.map Prod.fst).Nodup) (a : Pf.Loaded) :
    ((l.map fun t => Op.replaceTable ifname t.1 t.2).foldl Pf.Loaded.exec a).rules = a.rules ∧
      ∀ t, ((l.map fun t => Op.replaceTable ifname t.1 t.2).foldl Pf.Loaded.exec a).tables.get? t =
        ((l.lookup t).map List.toFinset).or (a.tables.get? t) := by
  induction l generalizing a with
  | nil => exact ⟨rfl, fun t => rfl⟩
  | cons e rest ih =>
    rw [List.map_cons, List.nodup_cons] at hnd
    obtain ⟨hrules, htables⟩ := ih hnd.2 (a.exec (.replaceTable ifname e.1 e.2))
    refine ⟨hrules, fun t => (htables t).trans ?_⟩
    rw [List.lookup_cons]
    by_cases ht : t = e.1
    · subst ht
      have hnone : rest.lookup e.1 = none := by
        rw [List.lookup_eq_none_iff]
        intro p hp
        exact bne_iff_ne.mpr fun heq => hnd.1 (List.mem_map.mpr ⟨p, hp, heq.symm⟩)
      rw [hnone]
      simp [Pf.Loaded.exec]
    · have hne : (t == e.1) = false := beq_eq_false_iff_ne.mpr ht
      rw [hne]
      simp [Pf.Loaded.exec, ht]

/-- The tables that do not have the members they are to have. -/
def Setting.differing [Hashlib] (new old : Setting) (ifname : String) :
    List (String × List String) :=
  new.tables.filter fun t => (old.content ifname).tables.get? t.1 ≠ some t.2.toFinset

theorem mem_differing [Hashlib] {new old : Setting} {ifname t : String} {ms : List String} :
    (t, ms) ∈ new.differing old ifname ↔
      (t, ms) ∈ new.tables ∧ (old.content ifname).tables.get? t ≠ some ms.toFinset := by
  unfold Setting.differing
  rw [List.mem_filter, decide_eq_true_eq]

/-- Where the same tables are referred to, the repairs are of those that differ. -/
theorem repairs_eq [Hashlib] {new old : Setting} {ifname : String} {st : Pf.AnchorState}
    (href : Pf.tablesReferenced new.filt = Pf.tablesReferenced old.filt)
    (htables : ∀ t, st.tables.get? t = (old.content ifname).tables.get? t) :
    repairs ifname new.tables st =
      (new.differing old ifname).map fun t => .replaceTable ifname t.1 t.2 := by
  have hheld : ∀ t ∈ new.tables, (t.2.toFinset ≠ (st.tables.get? t.1).getD ∅ ↔
      (old.content ifname).tables.get? t.1 ≠ some t.2.toFinset) := by
    intro t ht
    have hmem : t.1 ∈ old.tables.map Prod.fst := by
      rw [Setting.mem_tables, ← href, ← Setting.mem_tables]
      exact List.mem_map_of_mem ht
    obtain ⟨e, he, hfst⟩ := List.mem_map.mp hmem
    have hget := (old.get?_content ifname t.1 e.2.toFinset).mpr ⟨e.2, hfst ▸ he, rfl⟩
    rw [htables, hget]
    simp [eq_comm]
  unfold repairs Setting.differing
  rw [← List.filterMap_eq_map, List.filterMap_filter]
  refine List.filterMap_congr fun t ht => ?_
  simp only [hheld t ht, decide_eq_true_eq, Function.comp_apply]

theorem hash_of_lines [Hashlib] {s s' : Setting} {ifname : String}
    (h : s.lines ifname = s'.lines ifname) :
    Pf.cfgHash ifname s.filt s.bind = Pf.cfgHash ifname s'.filt s'.bind :=
  congrArg (fun l => Text.take (Hashlib.sha256 ("\n".intercalate l)) 16) h

/-- The repairs bring an anchor of the same rules to the new setting. -/
theorem repairs_same [Hashlib] {new old : Setting} {ifname : String}
    (hlines : new.lines ifname = old.lines ifname)
    (href : Pf.tablesReferenced new.filt = Pf.tablesReferenced old.filt) :
    (((new.differing old ifname).map fun t => Op.replaceTable ifname t.1 t.2).foldl
      Pf.Loaded.exec (old.content ifname)).Same (new.content ifname) := by
  have hnd : ((new.differing old ifname).map Prod.fst).Nodup :=
    (List.filter_sublist.map Prod.fst).nodup (nodup_tables new.wanted)
  have hlookup : ∀ t l, (new.differing old ifname).lookup t = some l ↔
      (t, l) ∈ new.differing old ifname := fun t l =>
    Dict.get?_eq_some (d := ⟨new.differing old ifname, hnd⟩)
  obtain ⟨hrules, htables⟩ := exec_repairs ifname hnd (old.content ifname)
  refine ⟨hrules.trans ?_, fun t => (htables t).trans ?_⟩
  · rw [Setting.content_rules, Setting.content_rules, hash_of_lines hlines,
      Pf.linesOf_inj hlines]
  · cases hnew : (new.content ifname).tables.get? t with
    | some ms =>
      obtain ⟨l, hl, rfl⟩ := (new.get?_content ifname t ms).mp hnew
      by_cases hsame : (old.content ifname).tables.get? t = some l.toFinset
      · -- nothing is repaired here
        have hnone : (new.differing old ifname).lookup t = none := by
          rw [Option.eq_none_iff_forall_ne_some]
          intro l' hl'
          obtain ⟨hmem, hne⟩ := mem_differing.mp ((hlookup t l').mp hl')
          have hget := (new.get?_content ifname t _).mpr ⟨l', hmem, rfl⟩
          rw [hnew] at hget
          exact hne (hsame.trans hget)
        rw [hnone, hsame]
        rfl
      · rw [(hlookup t l).mpr (mem_differing.mpr ⟨hl, hsame⟩)]
        rfl
    | none =>
      -- not a table of the new setting, so by `href` not one of the old either
      have hno : ∀ l, (t, l) ∉ new.tables := by
        intro l hl
        have hget := (new.get?_content ifname t _).mpr ⟨l, hl, rfl⟩
        rw [hnew] at hget
        cases hget
      have hnone : (new.differing old ifname).lookup t = none := by
        rw [Option.eq_none_iff_forall_ne_some]
        intro l hl
        exact hno l (mem_differing.mp ((hlookup t l).mp hl)).1
      have hold : (old.content ifname).tables.get? t = none := by
        rw [Option.eq_none_iff_forall_ne_some]
        intro ms hget
        obtain ⟨l, hl, -⟩ := (old.get?_content ifname t ms).mp hget
        have hmem : t ∈ new.tables.map Prod.fst := by
          rw [Setting.mem_tables, href, ← Setting.mem_tables]
          exact List.mem_map_of_mem hl
        obtain ⟨e, he, rfl⟩ := List.mem_map.mp hmem
        exact hno e.2 he
      rw [hnone, hold]
      rfl

/-- What is planned for an anchor that was loaded from one setting and is to have another: the
rules are loaded if they differ; otherwise each table whose members differ is repaired, once. -/
structure DriftExact [Hashlib] (old new : Setting) (ifname : String) (load : Option Op)
    (ops : List Op) : Prop where
  reloads : load ≠ none ↔ new.lines ifname ≠ old.lines ifname
  loaded : load ≠ none → load = some (loadFor new.config ifname new.member) ∧ ops = []
  repairs : load = none →
    ops = (new.differing old ifname).map fun t => .replaceTable ifname t.1 t.2
  once : (new.tables.map Prod.fst).Nodup
  tables : ∀ t, t ∈ new.tables.map Prod.fst ↔ t ∈ Pf.tablesReferenced new.filt
  applied : ((load.toList ++ ops).foldl Pf.Loaded.exec (old.content ifname)).Same
    (new.content ifname)
  quiet : new.filt = old.filt → new.bind = old.bind → new.tables = old.tables →
    load = none ∧ ops = []

/-- So it is whatever pf prints of the anchor. -/
def Detects [Hashlib] (ifname : String) (old new : Setting) : Prop :=
  ∀ (σ : Type) (run : Runner σ) (s : σ) (answer : Argv → RunResult) (pf : PfState),
    ReadOnly run s answer → Pf.Prints answer ifname (old.content ifname) →
    pf.get? ifname = some (Pf.readAnchor run ifname s).1 →
    ∃ load ops, pfOpsFor ifname new.member new.config (some pf) = .ok (load, ops) ∧
      DriftExact old new ifname load ops

/-- What `hexdigest()` returns. -/
def HexDigests (hash : Hashlib) : Prop :=
  ∀ text, (hash.sha256 text).length = 64 ∧ ∀ c ∈ (hash.sha256 text).toList, isLowerHex c = true

/-- The hash of the one setting is that of the other for the same text only. -/
def NoCollision [Hashlib] (ifname : String) (old new : Setting) : Prop :=
  Pf.cfgHash ifname new.filt new.bind = Pf.cfgHash ifname old.filt old.bind →
    "\n".intercalate (new.lines ifname) = "\n".intercalate (old.lines ifname)

/-- **The drift of an anchor is detected exactly.** -/
theorem drift_exact [hash : Hashlib] {ifname : String} {old new : Setting}
    (hdigest : HexDigests hash) (hcollision : NoCollision ifname old new)
    (hlen : ifname.length ≤ 15) (hold : old.Readable) (hnew : new.Readable) :
    Detects ifname old new := by
  intro σ run s answer pf hread hprints hpf
  have hnd : (new.tables.map Prod.fst).Nodup := nodup_tables new.wanted
  have hhash : Pf.HashDigits (Pf.cfgHash ifname old.filt old.bind) := by
    obtain ⟨hlen64, hhex⟩ := hdigest ("\n".intercalate (Pf.ruleLines ifname old.filt old.bind))
    unfold Pf.HashDigits Pf.cfgHash Text.take
    rw [String.toList_ofList]
    refine ⟨?_, fun c hc => hhex c (List.mem_of_mem_take hc)⟩
    rw [List.length_take, String.length_toList, hlen64]
    rfl
  obtain ⟨hloaded, hcfg, htables⟩ := Pf.anchorBy_loaded hprints hlen hhash
    (fun l hl => (Pf.linesOf_quiet hold.quiet l hl).quote) (old.content_rules ifname)
  have hif : Text.OneLine ifname := Pf.oneLine_of_prints hprints (by
    rw [old.content_rules]
    exact List.mem_append_right _ List.mem_cons_self)
  rw [readAnchor_readOnly hread] at hpf
  obtain ⟨⟨load, ops⟩, hops⟩ := pfOpsFor_total (some pf) ifname fun _ => new.wanted
  refine ⟨load, ops, hops, ?_⟩
  rcases pfOpsFor_ok hops with ⟨hno, -⟩ | ⟨-, -, hreload | hrepair⟩
  · exact absurd new.policed hno
  · -- loaded: were the lines the same, the hash read back would have been the one computed
    obtain ⟨hbare, hr⟩ := hreload
    obtain ⟨rfl, rfl⟩ := Prod.mk.inj hr
    have hdiffer : new.lines ifname ≠ old.lines ifname := by
      intro hlines
      refine hbare ⟨pf, _, rfl, hpf, hloaded, ?_⟩
      rw [hcfg, ← hash_of_lines hlines]
      rfl
    refine ⟨by simp [hdiffer], fun _ => ⟨rfl, rfl⟩, fun h => absurd h (by simp), hnd,
      fun t => new.mem_tables, ⟨rfl, fun t => rfl⟩, fun hfilt hbind _ => absurd ?_ hdiffer⟩
    unfold Setting.lines
    rw [hfilt, hbind]
  · -- repaired: equal hashes are equal lines, so only the members of tables can differ
    obtain ⟨anchors, st, hanchors, hst, -, hsame, hr⟩ := hrepair
    obtain rfl := Option.some.inj hanchors
    obtain ⟨rfl, rfl⟩ := Prod.mk.inj hr
    obtain rfl := Option.some.inj (hpf.symm.trans hst)
    have hlines : new.lines ifname = old.lines ifname := by
      rw [hcfg] at hsame
      exact Pf.ruleLines_of_join hif hnew.quiet hold.quiet (hcollision (Option.some.inj hsame).symm)
    have href := Setting.referenced_of_lines hnew hold hlines
    have hrepairs := repairs_eq href htables
    refine ⟨by simp [hlines], fun h => absurd rfl h, fun _ => hrepairs, hnd,
      fun t => new.mem_tables, ?_, fun _ _ htab => ⟨rfl, ?_⟩⟩
    · show (List.foldl Pf.Loaded.exec (old.content ifname) (repairs ifname new.tables _)).Same _
      rw [hrepairs]
      exact repairs_same hlines href
    · have hnone : new.differing old ifname = [] := by
        rw [List.eq_nil_iff_forall_not_mem]
        rintro ⟨t, l⟩ hl
        obtain ⟨hmem, hne⟩ := mem_differing.mp hl
        exact hne ((old.get?_content ifname t _).mpr ⟨l, htab ▸ hmem, rfl⟩)
      rw [hnone] at hrepairs
      exact hrepairs

/-- An anchor keeps a table that the new rules do not refer to, if the lines are the same. -/
theorem not_detects [Hashlib] {σ : Type} {run : Runner σ} {s : σ} {answer : Argv → RunResult}
    {ifname t : String} {old new : Setting} (hread : ReadOnly run s answer)
    (hprints : Pf.Prints answer ifname (old.content ifname))
    (hlines : new.lines ifname = old.lines ifname) (hold : t ∈ Pf.tablesReferenced old.filt)
    (hnew : t ∉ Pf.tablesReferenced new.filt) : ¬ Detects ifname old new := by
  intro h
  obtain ⟨load, ops, -, hexact⟩ :=
    h σ run s answer ((∅ : PfState).insert ifname (Pf.readAnchor run ifname s).1) hread hprints
      (by simp)
  have hno : ∀ l, (t, l) ∉ new.tables := fun l hl =>
    hnew (new.mem_tables.mp (List.mem_map_of_mem hl))
  have hload : load = none := by
    by_contra hne
    exact hexact.reloads.mp hne hlines
  have hops := hexact.repairs hload
  subst hload hops
  have hsame := hexact.applied.2 t
  have hnd : ((new.differing old ifname).map Prod.fst).Nodup :=
    (List.filter_sublist.map Prod.fst).nodup (nodup_tables new.wanted)
  obtain ⟨-, htables⟩ := exec_repairs ifname hnd (old.content ifname)
  obtain ⟨⟨t, l⟩, hl, rfl⟩ := List.mem_map.mp (old.mem_tables.mpr hold)
  rw [Option.toList_none, List.nil_append, htables,
    (old.get?_content ifname t l.toFinset).mpr ⟨l, hl, rfl⟩] at hsame
  cases hlookup : (new.differing old ifname).lookup t with
  | some l' =>
    have hmem := Dict.get?_eq_some (d := ⟨new.differing old ifname, hnd⟩).mp hlookup
    exact hno l' (mem_differing.mp hmem).1
  | none =>
    rw [hlookup] at hsame
    obtain ⟨l', hl', -⟩ := (new.get?_content ifname t l.toFinset).mp hsame.symm
    exact hno l' hl'

/-! ## 4. Settings of one rule -/

def webRule (src dst : String) : FilterRule := { action := .pass, from_ := src, to_ := dst }

def webConfig (src dst address : String) : Config :=
  { table := ⟨[("web", { members := [address] })], List.nodup_singleton _⟩
    filter := ⟨[("f", { in_ := ⟨[(1, webRule src dst)], List.nodup_singleton _⟩ })],
      List.nodup_singleton _⟩ }

/-- A tap with one rule, next to a table of one address. -/
def webSetting (src dst address : String)
    (h : Pf.wantedTables (filterOf (webConfig src dst address) { filter := some "f" })
      (webConfig src dst address) =
        .ok (tablesOf (webConfig src dst address) { filter := some "f" })) : Setting where
  config := webConfig src dst address
  member := { filter := some "f" }
  policed := .inl rfl
  wanted := h

theorem webSetting_quiet {src dst address : String} {h} (hsrc : Pf.Quiet src)
    (hdst : Pf.Quiet dst) :
    Pf.QuietParts (webSetting src dst address h).filt (webSetting src dst address h).bind where
  ends := by
    intro f hf r hr
    obtain rfl := Option.some.inj hf
    obtain rfl := List.mem_singleton.mp hr
    exact ⟨hsrc, hdst⟩
  address := fun b hb => nomatch hb

/-- The SHA-256 of two texts. -/
abbrev sampleHash : Hashlib where
  sha256 text :=
    if text = "pass out quick on tap0 from <web> to any keep state (if-bound) " ++
        "label \"l2-neutron:tap0\"\nblock drop out quick on tap0 all" then
      "52a2b3d2d835aa536a433fd096f6aef6a7a21c90d1af1f3bc733b57fd2e23f75"
    else if text = "pass out quick on tap0 from x to y to <web> keep state (if-bound) " ++
        "label \"l2-neutron:tap0\"\nblock drop out quick on tap0 all" then
      "2ebaf473995966843c2e53b19b111050514536bbf0a52c0d32fb0645c5498f70"
    else "0000000000000000000000000000000000000000000000000000000000000000"

theorem sampleHash_digests : HexDigests sampleHash := by
  intro text
  have hhex : ∀ s : String, (s.length = 64 ∧ s.toList.all isLowerHex = true) →
      s.length = 64 ∧ ∀ c ∈ s.toList, isLowerHex c = true :=
    fun s h => ⟨h.1, List.all_eq_true.mp h.2⟩
  refine hhex _ ?_
  unfold sampleHash
  simp only
  split
  · decide +kernel
  · split
    · decide +kernel
    · decide +kernel

/-- pf prints the three rules of a tap, and the one table. -/
def webAnswer (ends hash : String) (argv : Argv) : RunResult :=
  if argv = Pf.rulesArgv "tap0" then
    ⟨.code 0, Text.unlines
      [Pf.labelled ("pass out quick on tap0 from " ++ ends ++ " flags S/SA keep state (if-bound)")
          "l2-neutron:tap0",
        "block drop out quick on tap0 all", Pf.hashLine "tap0" hash], ""⟩
  else if argv = Pf.tablesArgv "tap0" then ⟨.code 0, "web\n", ""⟩
  else if argv = Pf.showArgv "tap0" "web" then ⟨.code 0, "   10.0.0.1\n", ""⟩
  else ⟨.code 1, "", ""⟩

def webRun (ends hash : String) : Runner Unit := fun argv _ _ => pure (webAnswer ends hash argv)

/-- What pf prints of a setting of one rule: the rules in words of its own, the labels as loaded. -/
theorem webAnswer_prints {src dst shown hash : String} {h}
    (hrules : (@Setting.content (webSetting src dst "10.0.0.1" h) sampleHash "tap0").rules =
      [Pf.labelled ("pass out quick on tap0 from " ++ shown ++ " keep state (if-bound)")
          "l2-neutron:tap0",
        "block drop out quick on tap0 all", Pf.hashLine "tap0" hash])
    (htables : (@Setting.content (webSetting src dst "10.0.0.1" h) sampleHash "tap0").tables =
      ⟨[("web", {"10.0.0.1"})], List.nodup_singleton _⟩)
    (hshown : Pf.Quiet shown) (hhash : Pf.Quiet hash) :
    Pf.Prints (webAnswer shown hash) "tap0"
      (@Setting.content (webSetting src dst "10.0.0.1" h) sampleHash "tap0") where
  rules := by
    refine ⟨rfl, _, rfl, ?_⟩
    rw [hrules]
    have hfront : Pf.Quiet "pass out quick on tap0 from " := by simp [Pf.Quiet, Text.isLineBreak]
    have hback : Pf.Quiet " keep state (if-bound)" := by simp [Pf.Quiet, Text.isLineBreak]
    have hflags : Pf.Quiet " flags S/SA keep state (if-bound)" := by simp [Pf.Quiet, Text.isLineBreak]
    have hport : Pf.Quiet "l2-neutron:tap0" := by simp [Pf.Quiet, Text.isLineBreak]
    have hdeny : Pf.Quiet "block drop out quick on tap0 all" := by simp [Pf.Quiet, Text.isLineBreak]
    have hlast : Pf.Quiet ("block drop in quick on " ++ "tap0" ++ " all") := by simp [Pf.Quiet, Text.isLineBreak]
    have hcfg : Pf.Quiet "l2-neutron:cfg:" := by simp [Pf.Quiet, Text.isLineBreak]
    exact .cons (Pf.Echoes.of_quiet ((hfront.append hshown).append hback)
        ((hfront.append hshown).append hflags) hport)
      (.cons (.plain hdeny.oneLine hdeny.quote hdeny.quote)
        (.cons (Pf.Echoes.of_quiet hlast hlast (hcfg.append hhash)) .nil))
  names := by
    refine ⟨["web"], rfl, ?_, by decide +kernel⟩
    intro t
    rw [htables]
    exact Iff.rfl
  members := by
    intro t ms hget
    rw [htables] at hget
    obtain ⟨rfl, rfl⟩ := Prod.mk.inj (List.mem_singleton.mp (Dict.get?_eq_some.mp hget))
    exact ⟨rfl, ["10.0.0.1"], rfl, rfl, by decide +kernel⟩

theorem webSetting_readable {src dst address : String} {h} (hsrc : Pf.Quiet src)
    (hdst : Pf.Quiet dst) (hsrc' : Pf.PlainRef src) (hdst' : Pf.PlainRef dst) :
    (webSetting src dst address h).Readable where
  quiet := webSetting_quiet hsrc hdst
  plain := by
    intro f hf r hr
    obtain rfl := Option.some.inj hf
    obtain rfl := List.mem_singleton.mp hr
    exact ⟨hsrc', hdst'⟩

/-- A table is to have another member. -/
def oldWeb : Setting := webSetting "@web" "any" "10.0.0.1" rfl

def newWeb : Setting := webSetting "@web" "any" "10.0.0.2" rfl

theorem oldWeb_prints : Pf.Prints (webAnswer "<web> to any" "52a2b3d2d835aa53") "tap0"
    (@Setting.content oldWeb sampleHash "tap0") :=
  webAnswer_prints (by decide +kernel) (by decide +kernel) (by simp [Pf.Quiet, Text.isLineBreak])
    (by simp [Pf.Quiet, Text.isLineBreak])

theorem web_readable (address : String) (h) : (webSetting "@web" "any" address h).Readable :=
  webSetting_readable (by simp [Pf.Quiet, Text.isLineBreak]) (by simp [Pf.Quiet, Text.isLineBreak])
    (by decide) (by decide)

theorem web_lines : newWeb.lines "tap0" = oldWeb.lines "tap0" := by decide +kernel

theorem drift_exact_web : ∃ load ops,
    @pfOpsFor sampleHash "tap0" newWeb.member newWeb.config (some ((∅ : PfState).insert "tap0"
      (Pf.readAnchor (webRun "<web> to any" "52a2b3d2d835aa53") "tap0" ()).1)) =
        .ok (load, ops) ∧
      @DriftExact sampleHash oldWeb newWeb "tap0" load ops :=
  @drift_exact sampleHash "tap0" oldWeb newWeb sampleHash_digests
    (fun _ => congrArg "\n".intercalate web_lines) (by decide)
    (web_readable "10.0.0.1" rfl) (web_readable "10.0.0.2" rfl) Unit
    (webRun "<web> to any" "52a2b3d2d835aa53") () (webAnswer "<web> to any" "52a2b3d2d835aa53")
    _ (fun _ _ => rfl) oldWeb_prints (by simp)

/-- A table, and an end that is spelled as the table is printed. -/
def bracketedWeb : Setting := webSetting "<web>" "any" "10.0.0.1" rfl

theorem bracketed_missed : ¬ @Detects sampleHash "tap0" oldWeb bracketedWeb :=
  @not_detects sampleHash Unit (webRun "<web> to any" "52a2b3d2d835aa53") ()
    (webAnswer "<web> to any" "52a2b3d2d835aa53") "tap0" "web" oldWeb bracketedWeb (fun _ _ => rfl)
    oldWeb_prints (by decide +kernel) (by decide) (by decide)

/-- Two pairs of ends with blanks, put together to one text. -/
def oldWords : Setting := webSetting "x to y" "@web" "10.0.0.1" rfl

def newWords : Setting := webSetting "x" "y to <web>" "10.0.0.1" rfl

theorem oldWords_prints : Pf.Prints (webAnswer "x to y to <web>" "2ebaf47399596684") "tap0"
    (@Setting.content oldWords sampleHash "tap0") :=
  webAnswer_prints (by decide +kernel) (by decide +kernel) (by simp [Pf.Quiet, Text.isLineBreak])
    (by simp [Pf.Quiet, Text.isLineBreak])

theorem words_missed : ¬ @Detects sampleHash "tap0" oldWords newWords :=
  @not_detects sampleHash Unit (webRun "x to y to <web>" "2ebaf47399596684") ()
    (webAnswer "x to y to <web>" "2ebaf47399596684") "tap0" "web" oldWords newWords
    (fun _ _ => rfl) oldWords_prints (by decide +kernel) (by decide) (by decide)

/-- Ends free of quotes and line breaks are not enough: neither where they begin with a bracket,
nor where they are more than a word. -/
theorem drift_missed :
    (¬ ∀ (hash : Hashlib) (ifname : String) (old new : Setting), HexDigests hash →
      NoCollision ifname old new → ifname.length ≤ 15 → Pf.QuietParts old.filt old.bind →
      Pf.QuietParts new.filt new.bind → Detects ifname old new) ∧
    ¬ ∀ (hash : Hashlib) (ifname : String) (old new : Setting), HexDigests hash →
      NoCollision ifname old new → ifname.length ≤ 15 → Pf.QuietParts old.filt old.bind →
      Pf.QuietParts new.filt new.bind →
      (∀ setting ∈ [old, new], ∀ f, setting.filt = some f →
        ∀ r ∈ f.in_.values ++ f.out.values,
          Text.startsWith r.from_ "<" = false ∧ Text.startsWith r.to_ "<" = false) →
      Detects ifname old new := by
  constructor
  · intro h
    refine bracketed_missed (h sampleHash "tap0" oldWeb bracketedWeb sampleHash_digests
      (fun _ => ?_) (by decide) (webSetting_quiet ?_ ?_) (webSetting_quiet ?_ ?_))
    · have hlines : bracketedWeb.lines "tap0" = oldWeb.lines "tap0" := by decide +kernel
      exact congrArg "\n".intercalate hlines
    all_goals simp [Pf.Quiet, Text.isLineBreak]
  · intro h
    refine words_missed (h sampleHash "tap0" oldWords newWords sampleHash_digests
      (fun _ => ?_) (by decide) (webSetting_quiet ?_ ?_) (webSetting_quiet ?_ ?_) ?_)
    · have hlines : newWords.lines "tap0" = oldWords.lines "tap0" := by decide +kernel
      exact congrArg "\n".intercalate hlines
    · simp [Pf.Quiet, Text.isLineBreak]
    · simp [Pf.Quiet, Text.isLineBreak]
    · simp [Pf.Quiet, Text.isLineBreak]
    · simp [Pf.Quiet, Text.isLineBreak]
    · intro setting hs f hf r hr
      simp only [List.mem_cons, List.not_mem_nil, or_false] at hs
      rcases hs with rfl | rfl
      · obtain rfl := Option.some.inj hf
        obtain rfl := List.mem_singleton.mp hr
        decide
      · obtain rfl := Option.some.inj hf
        obtain rfl := List.mem_singleton.mp hr
        decide

end Planner

end Bsdbridge
