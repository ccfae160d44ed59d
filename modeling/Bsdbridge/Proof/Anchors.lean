import Bsdbridge.Host
import Bsdbridge.Proof.Returns

/-!
# What an anchor carries

`wanted_tables` and `render` walk the same sorted set of references, so the ruleset of a load holds
exactly the tables the config has for the member: loading it makes the anchor carry the member's
rules and every one of its tables.

`Carries` compares hashes, as the planner does, and `TableOk` compares members as sets. Neither
looks at rules. That equal hashes mean equal rules is not assumed here; what the hash is taken of,
and what follows from it, is in `Proof/RuleLines` and `Proof/Readback`.
-/

set_option autoImplicit false

/-- A list of pairs of distinct keys, read back key by key. -/
theorem map_lookup_keys {α β : Type} [DecidableEq α] {l : List (α × β)} {d : β}
    (h : (l.map Prod.fst).Nodup) :
    (l.map Prod.fst).map (fun k => (k, (l.lookup k).getD d)) = l := by
  rw [List.map_map]
  conv_rhs => rw [← List.map_id l]
  refine List.map_congr_left fun e he => ?_
  have hl : l.lookup e.1 = some e.2 := (Dict.get?_eq_some (d := ⟨l, h⟩)).mpr he
  simp [hl]

namespace Bsdbridge

namespace Planner

section

variable {config : Config} {member : Member}

theorem wantedTables_keys {filt : Option Filter} {tables : List (String × List String)}
    (h : Pf.wantedTables filt config = .ok tables) :
    tables.map Prod.fst = sortedSet (Pf.tablesReferenced filt) := by
  have hall := mapM_eq_ok.mp h
  clear h
  generalize sortedSet (Pf.tablesReferenced filt) = refs at hall
  induction hall with
  | nil => rfl
  | cons hn _ ih =>
    obtain ⟨t, -, ht⟩ := Except.bind_eq_ok.mp hn
    rw [List.map_cons, ih, ← Except.pure_eq_ok.mp ht]

/-- A wanted table is the config's. -/
theorem mem_wantedTables {filt : Option Filter} {tables : List (String × List String)}
    (h : Pf.wantedTables filt config = .ok tables) {n : String} {ms : List String}
    (hn : (n, ms) ∈ tables) : ∃ t, config.table.get? n = some t ∧ ms = t.members := by
  obtain ⟨k, -, hk⟩ := exists_of_mem_right (mapM_eq_ok.mp h) hn
  obtain ⟨t, ht, hr⟩ := Except.bind_eq_ok.mp hk
  obtain ⟨rfl, rfl⟩ := Prod.mk.inj (Except.pure_eq_ok.mp hr)
  exact ⟨t, Dict.getItem_eq_ok.mp ht, rfl⟩

/-- A table as the config has it. -/
def ConfigTable (config : Config) (name : String) (ms : List String) : Prop :=
  ∃ t, config.table.get? name = some t ∧ ms = t.members

theorem ConfigTable.unique {name : String} {ms ms' : List String}
    (h : ConfigTable config name ms) (h' : ConfigTable config name ms') : ms = ms' := by
  obtain ⟨t, ht, rfl⟩ := h
  obtain ⟨t', ht', rfl⟩ := h'
  rw [ht] at ht'
  rw [Option.some.inj ht']

theorem configTable_of_mem {member : Member} {name : String} {ms : List String}
    (h : (name, ms) ∈ tablesOf config member) : ConfigTable config name ms := by
  unfold tablesOf at h
  split at h
  · rename_i tables htab
    exact mem_wantedTables htab h
  · exact absurd h List.not_mem_nil

/-- The tables of a member are listed once each. -/
theorem nodup_tables
    (h : Pf.wantedTables (filterOf config member) config = .ok (tablesOf config member)) :
    ((tablesOf config member).map Prod.fst).Nodup := by
  rw [wantedTables_keys h]
  exact nodup_sortedSet _

variable [Hashlib]

theorem render_tables {m : String}
    (h : Pf.wantedTables (filterOf config member) config = .ok (tablesOf config member)) :
    (Pf.render m (filterOf config member) member.bind (tablesOf config member)).1.tables =
      tablesOf config member := by
  have hkeys := wantedTables_keys h
  have hnd := nodup_tables h
  unfold Pf.render
  rw [← hkeys]
  exact map_lookup_keys hnd

/-- The anchor of a member carries the member's rules. -/
def Carries (config : Config) (m : String) (member : Member) (st : Pf.AnchorState) : Prop :=
  st.isLoaded = true ∧ st.cfgHash = some (hashFor config m member)

/-- One table of an anchor is as the config has it. -/
def TableOk (name : String) (ms : List String) (st : Pf.AnchorState) : Prop :=
  ms.toFinset = (st.tables.get? name).getD ∅

/-- After its load, a member's anchor carries the rules and every table. -/
theorem load_carries {h : Host} {m : String}
    (htab : Pf.wantedTables (filterOf config member) config = .ok (tablesOf config member)) :
    ∃ st, (h.exec (loadFor config m member)).anchor m = some st ∧
      Carries config m member st ∧
      ∀ name ms, (name, ms) ∈ tablesOf config member → TableOk name ms st := by
  refine ⟨_, by rw [loadFor, Host.exec, Host.anchor_load, if_pos rfl], ⟨rfl, rfl⟩, ?_⟩
  intro name ms hn
  rw [render_tables htab]
  unfold TableOk
  have hnd : (((tablesOf config member).map fun t => (t.1, t.2.toFinset)).map Prod.fst).Nodup := by
    rw [List.map_map]
    exact nodup_tables htab
  have hget : (Dict.ofList ((tablesOf config member).map fun t => (t.1, t.2.toFinset))).get? name =
      some ms.toFinset := by
    rw [Dict.get?_eq_some, Dict.entries_ofList hnd]
    exact List.mem_map.mpr ⟨(name, ms), hn, rfl⟩
  rw [hget]
  rfl

variable (config) in
/-- After a repair, the repaired table is as the op says and the others are as before. -/
theorem replace_tableOk (member : Member) (name t : String) (ms ts : List String) {h : Host}
    {m : String} {st : Pf.AnchorState} (hst : h.anchor m = some st) :
    ∃ st', (h.exec (.replaceTable m t ts)).anchor m = some st' ∧
      (Carries config m member st → Carries config m member st') ∧
      ((t = name ∧ ts = ms) ∨ (t ≠ name ∧ TableOk name ms st) → TableOk name ms st') := by
  refine ⟨{ st with tables := st.tables.insert t ts.toFinset }, ?_, fun hc => hc, ?_⟩
  · rw [Host.exec, Host.anchor_setTable, if_pos rfl, hst]
    rfl
  · unfold TableOk
    rintro (⟨rfl, rfl⟩ | ⟨hne, hok⟩)
    · simp
    · simpa [Ne.symm hne] using hok

end

end Planner

end Bsdbridge
