import Bsdbridge.Proof.Sides

/-!
# What `build` builds

The port loop first: what each of the dicts it fills holds, in terms of the ports. Names are cut
short, so two ports may share a filter, and two groups a table; the last one wins. Then the whole
document: which `Config` it is read into, and when it is refused.

Nothing here assumes that names are distinct. `holder` is the port whose filter stands under a
name, and `groupOf` the group whose members a table holds, and both are found by going through the
input backwards, as later writes replace earlier ones. Files that want a port's *own* filter ask
for it as a hypothesis (`Proof/Policy`), and those that want to know what goes wrong without it
have the words for that here.

The document is never looked at as text. `build` hands its tree to `Config.from_tree`, which reads
it section by section, and `Sections` says of each section that its entries are the images of the
entries the loop wrote, in their order. The cross-references between the sections are checked after
that, so `Sections` holds even where the build is refused by them.
-/

set_option autoImplicit false

namespace Bsdbridge

namespace PortConfig

/-! ## 1. The port loop

By induction over the ports from the back, since the last port is the one whose write stays. -/

/-- The port whose rules a filter name stands for: the last secured one of that name. -/
def holder (ports : List PortDetails) (fname : String) : Option PortDetails :=
  ports.reverse.find? fun port => secured port && decide (Names.filterName port.portId = fname)

theorem holder_mem {ports : List PortDetails} {fname : String} {port : PortDetails}
    (h : holder ports fname = some port) :
    port ∈ ports ∧ secured port = true ∧ Names.filterName port.portId = fname := by
  have hp := List.find?_some h
  rw [Bool.and_eq_true, decide_eq_true_eq] at hp
  exact ⟨List.mem_reverse.mp (List.mem_of_find?_eq_some h), hp⟩

/-- A secured port's filter name has a holder, if not the port itself. -/
theorem holder_of_secured {ports : List PortDetails} {port : PortDetails} (h : port ∈ ports)
    (hs : secured port = true) :
    ∃ other, holder ports (Names.filterName port.portId) = some other := by
  refine Option.isSome_iff_exists.mp (List.find?_isSome.mpr ⟨port, List.mem_reverse.mpr h, ?_⟩)
  rw [hs, Bool.true_and, decide_eq_true_eq]

section

variable [Hashlib] {ports : List PortDetails} {sgInfo : SgInfo} {mappings : Dict String String}
  {port : PortDetails}

theorem stanzas_snoc : stanzas (ports ++ [port]) sgInfo mappings =
    addPort sgInfo mappings (stanzas ports sgInfo mappings) port := by
  simp [stanzas]

/-- Every physnet is the trunk of some port. -/
theorem mem_physnets {pn trunk : String}
    (h : (pn, trunk) ∈ (stanzas ports sgInfo mappings).physnets.entries) :
    ∃ port ∈ ports, trunkFor port mappings = some (pn, trunk) := by
  induction ports using List.reverseRecOn with
  | nil => exact absurd h List.not_mem_nil
  | append_singleton ports last ih =>
    rw [stanzas_snoc] at h
    unfold addPort at h
    cases ht : trunkFor last mappings with
    | none =>
      simp only [ht] at h
      obtain ⟨port, hp, hport⟩ := ih h
      exact ⟨port, List.mem_append_left _ hp, hport⟩
    | some pt =>
      simp only [ht] at h
      rcases Dict.entry_insert.mp h with ⟨rfl, rfl⟩ | ⟨-, h⟩
      · exact ⟨last, List.mem_append_right _ (List.mem_singleton_self _), ht⟩
      · obtain ⟨port, hp, hport⟩ := ih h
        exact ⟨port, List.mem_append_left _ hp, hport⟩

theorem physnet_mem {pn trunk : String} (hp : port ∈ ports)
    (ht : trunkFor port mappings = some (pn, trunk)) :
    pn ∈ (stanzas ports sgInfo mappings).physnets := by
  induction ports using List.reverseRecOn with
  | nil => exact absurd hp List.not_mem_nil
  | append_singleton ports last ih =>
    rw [stanzas_snoc]
    unfold addPort
    rcases List.mem_append.mp hp with hp | hp
    · cases trunkFor last mappings with
      | none => exact ih hp
      | some pt => exact Dict.mem_insert.mpr (Or.inr (ih hp))
    · obtain rfl := List.mem_singleton.mp hp
      simp only [ht]
      exact Dict.mem_insert.mpr (Or.inl rfl)

/-- What a bridge under construction holds comes from its ports. -/
structure StanzaOf (ports : List PortDetails) (mappings : Dict String String) (bname : String)
    (st : Stanza) : Prop where
  segment : ∀ t, st.segment = some t → ∃ port ∈ ports, ∃ pn trunk,
    trunkFor port mappings = some (pn, trunk) ∧ t = segmentTree port pn
  member : ∀ n t, (n, t) ∈ st.member.entries → ∃ port ∈ ports,
    bridgeOf port = bname ∧ ifName port = n ∧ t = memberTree port

theorem StanzaOf.mono {more : List PortDetails} {bname : String} {st : Stanza}
    (h : StanzaOf ports mappings bname st) : StanzaOf (ports ++ more) mappings bname st := by
  constructor
  · intro t ht
    obtain ⟨port, hp, hport⟩ := h.segment t ht
    exact ⟨port, List.mem_append_left _ hp, hport⟩
  · intro n t hm
    obtain ⟨port, hp, hport⟩ := h.member n t hm
    exact ⟨port, List.mem_append_left _ hp, hport⟩

theorem stanza_of {bname : String} {st : Stanza}
    (h : (bname, st) ∈ (stanzas ports sgInfo mappings).bridges.entries) :
    StanzaOf ports mappings bname st := by
  induction ports using List.reverseRecOn generalizing bname st with
  | nil => exact absurd h List.not_mem_nil
  | append_singleton ports last ih =>
    rw [stanzas_snoc] at h
    unfold addPort at h
    rcases Dict.entry_insert.mp h with ⟨rfl, rfl⟩ | ⟨-, h⟩
    · -- the bridge of the last port: its own stanza, over what the others left
      have hlast : last ∈ ports ++ [last] :=
        List.mem_append_right _ (List.mem_singleton_self _)
      have hprev : StanzaOf (ports ++ [last]) mappings (bridgeOf last)
          (((stanzas ports sgInfo mappings).bridges.get? (bridgeOf last)).getD {}) := by
        cases hg : (stanzas ports sgInfo mappings).bridges.get? (bridgeOf last) with
        | none => exact ⟨fun t ht => absurd ht (by simp), fun n t hm => absurd hm (by simp)⟩
        | some prev => exact (ih (Dict.get?_eq_some.mp hg)).mono
      constructor
      · intro t ht
        cases htr : trunkFor last mappings with
        | none =>
          simp only [htr] at ht
          exact hprev.segment t ht
        | some pt =>
          simp only [htr] at ht
          exact ⟨last, hlast, pt.1, pt.2, htr, (Option.some.inj ht).symm⟩
      · intro n t hm
        rcases Dict.entry_insert.mp hm with ⟨rfl, rfl⟩ | ⟨-, hm⟩
        · exact ⟨last, hlast, rfl, rfl, rfl⟩
        · exact hprev.member n t hm
    · exact (ih h).mono

/-- Every port is a member of its bridge. -/
theorem member_of_port (hp : port ∈ ports) :
    ∃ st, (stanzas ports sgInfo mappings).bridges.get? (bridgeOf port) = some st ∧
      ifName port ∈ st.member := by
  induction ports using List.reverseRecOn with
  | nil => exact absurd hp List.not_mem_nil
  | append_singleton ports last ih =>
    rw [stanzas_snoc]
    unfold addPort
    simp only [Dict.get?_insert]
    by_cases hb : bridgeOf port = bridgeOf last
    · rw [if_pos hb]
      refine ⟨_, rfl, Dict.mem_insert.mpr ?_⟩
      rcases List.mem_append.mp hp with hp | hp
      · obtain ⟨st, hst, hmem⟩ := ih hp
        rw [hb] at hst
        rw [hst]
        exact Or.inr hmem
      · obtain rfl := List.mem_singleton.mp hp
        exact Or.inl rfl
    · rw [if_neg hb]
      rcases List.mem_append.mp hp with hp | hp
      · exact ih hp
      · obtain rfl := List.mem_singleton.mp hp
        exact absurd rfl hb

/-- **A filter holds the rules** of the last secured port of its name. -/
theorem get?_filters {fname : String} :
    (stanzas ports sgInfo mappings).filters.get? fname =
      (holder ports fname).map fun port => filterTree port sgInfo := by
  induction ports using List.reverseRecOn with
  | nil => rfl
  | append_singleton ports last ih =>
    rw [stanzas_snoc]
    unfold addPort holder
    rw [List.reverse_append, List.reverse_singleton, List.singleton_append, List.find?_cons]
    by_cases hs : secured last = true
    · simp only [hs, if_true, Dict.get?_insert, Bool.true_and]
      by_cases hf : Names.filterName last.portId = fname
      · simp [hf]
      · rw [if_neg (Ne.symm hf), ih]
        simp [hf, holder]
    · simp only [hs]
      exact ih

theorem mem_tablesUsed {g : String} :
    g ∈ (stanzas ports sgInfo mappings).tablesUsed ↔
      ∃ port ∈ ports, secured port = true ∧ g ∈ tablesUsedBy port.portId sgInfo := by
  induction ports using List.reverseRecOn with
  | nil =>
    refine iff_of_false (by simp [stanzas]) ?_
    rintro ⟨port, hp, -⟩
    exact absurd hp List.not_mem_nil
  | append_singleton ports last ih =>
    rw [stanzas_snoc]
    unfold addPort
    by_cases hs : secured last = true
    · simp only [hs, if_true, Finset.mem_union, ih, List.mem_toFinset, List.mem_append,
        List.mem_singleton]
      constructor
      · rintro (⟨port, hp, hport⟩ | hg)
        · exact ⟨port, Or.inl hp, hport⟩
        · exact ⟨last, Or.inr rfl, hs, hg⟩
      · rintro ⟨port, hp | rfl, hport⟩
        · exact Or.inl ⟨port, hp, hport⟩
        · exact Or.inr hport.2
    · simp only [if_neg hs, ih, List.mem_append, List.mem_singleton]
      constructor
      · rintro ⟨port, hp, hport⟩
        exact ⟨port, Or.inl hp, hport⟩
      · rintro ⟨port, hp | rfl, hport⟩
        · exact ⟨port, hp, hport⟩
        · exact absurd hport.1 hs

end

/-! ## 2. Tables

Table names are collected as a set and written in the order of the sorted group ids. -/

/-- The group whose members a table holds: the last one of that name. -/
def groupOf (used : Finset String) (table : String) : Option String :=
  (sortedSet used).reverse.find? fun g => decide (Names.tableName g = table)

theorem groupOf_mem {used : Finset String} {table g : String} (h : groupOf used table = some g) :
    g ∈ used ∧ Names.tableName g = table :=
  ⟨mem_sortedSet.mp (List.mem_reverse.mp (List.mem_of_find?_eq_some h)),
    of_decide_eq_true (List.find?_some (p := fun g => decide (Names.tableName g = table)) h)⟩

theorem get?_tables {used : Finset String} {sgInfo : SgInfo} {table : String} :
    (tables used sgInfo).get? table = (groupOf used table).map fun g =>
      sortedBy id ((sgInfo.sgMemberIps.get? g).getD {}).ipv4 := by
  unfold tables groupOf
  rw [Dict.get?_ofList, ← List.map_reverse]
  induction (sortedSet used).reverse with
  | nil => rfl
  | cons g rest ih =>
    rw [List.map_cons, List.lookup_cons, List.find?_cons]
    by_cases hg : Names.tableName g = table
    · simp [hg]
    · simp [hg, beq_eq_false_iff_ne.mpr (Ne.symm hg), ih]

theorem mem_tables {used : Finset String} {sgInfo : SgInfo} {g : String} (h : g ∈ used) :
    Names.tableName g ∈ tables used sgInfo := by
  have hfind : (groupOf used (Names.tableName g)).isSome :=
    List.find?_isSome.mpr ⟨g, List.mem_reverse.mpr (mem_sortedSet.mpr h), by simp⟩
  obtain ⟨g', hg'⟩ := Option.isSome_iff_exists.mp hfind
  exact Dict.mem_of_get? (get?_tables.trans (by rw [hg']; rfl))

/-! ## 3. The document

Entry by entry, with the two lookups that everything after uses: a filter and a table of the
config by name. -/

/-- What a filter is read into: each side item by item. -/
structure FilterOf (port : PortDetails) (sgInfo : SgInfo) (path : String) (filt : Filter) :
    Prop where
  in_ : List.Forall₂ (SideRead (path ++ "." ++ "in"))
    (sideItems .ingress (rulesOf port.portId sgInfo)) filt.in_.entries
  out : List.Forall₂ (SideRead (path ++ "." ++ "out"))
    (sideItems .egress (rulesOf port.portId sgInfo)) filt.out.entries

theorem filterTree_ok {port : PortDetails} {sgInfo : SgInfo} {path : String} {filt : Filter} :
    Filter.fromTree (filterTree port sgInfo) path = .ok filt ↔
      FilterOf port sgInfo path filt := by
  have hsides : filterTree port sgInfo =
      .dict [("in", .dict (sideItems .ingress (rulesOf port.portId sgInfo))),
        ("out", .dict (sideItems .egress (rulesOf port.portId sgInfo)))] := rfl
  rw [hsides, fromTree_filter]
  constructor
  · rintro ⟨di, do_, hdi, hdo, hi, ho⟩
    exact ⟨side_ok.mp ⟨di, hdi, hi⟩, side_ok.mp ⟨do_, hdo, ho⟩⟩
  · rintro ⟨hi, ho⟩
    obtain ⟨di, hdi, hi⟩ := side_ok.mpr hi
    obtain ⟨do_, hdo, ho⟩ := side_ok.mpr ho
    exact ⟨di, do_, hdi, hdo, hi, ho⟩

/-- A filter can be built when both its sides can. -/
def Spellable (port : PortDetails) (sgInfo : SgInfo) : Prop :=
  ∀ dir, (∀ rule ∈ rulesOf port.portId sgInfo, expressible rule = true → rule.direction = dir →
    ∃ spec, portOf rule = .ok spec) ∧
      Numberable (bodies dir (rulesOf port.portId sgInfo)).length

theorem filter_total {port : PortDetails} {sgInfo : SgInfo} {path : String} :
    (∃ filt, Filter.fromTree (filterTree port sgInfo) path = .ok filt) ↔
      Spellable port sgInfo := by
  simp only [filterTree_ok]
  constructor
  · rintro ⟨filt, h⟩ dir
    cases dir with
    | ingress => exact side_total.mp ⟨_, h.in_⟩
    | egress => exact side_total.mp ⟨_, h.out⟩
  · intro h
    obtain ⟨i, hi⟩ := side_total.mpr (h .ingress)
    obtain ⟨o, ho⟩ := side_total.mpr (h .egress)
    exact ⟨⟨i, o⟩, hi, ho⟩

section

variable [Hashlib] {ports : List PortDetails} {sgInfo : SgInfo} {mappings : Dict String String}
  {config : Config}

/-- How the sections of a document are read, before its cross-references are checked. -/
structure Sections (acc : Stanzas) (sgInfo : SgInfo) (config : Config) : Prop where
  physnet : List.Forall₂ (ReadAs Physnet.fromTree "Config.physnet")
    (itemsOf acc.physnets fun trunk => .dict [("trunk", .str trunk)]) config.physnet.entries
  bridge : List.Forall₂ (ReadAs Bridge.fromTree "Config.bridge")
    (itemsOf acc.bridges stanzaTree) config.bridge.entries
  filter : List.Forall₂ (ReadAs Filter.fromTree "Config.filter")
    (itemsOf acc.filters id) config.filter.entries
  table : List.Forall₂ (ReadAs Table.fromTree "Config.table")
    (itemsOf (tables acc.tablesUsed sgInfo) fun ips =>
      .dict [("members", .list (ips.map .str))]) config.table.entries

theorem build_eq_ok {devices : List String} :
    build ports sgInfo mappings = .ok (config, devices) ↔
      Sections (stanzas ports sgInfo mappings) sgInfo config ∧
        Config.dangling config = none ∧ devices = sortedBy id (ports.map (·.portId)) := by
  unfold build
  simp only [Except.bind_eq_ok, Except.pure_eq_ok, fromTree_document,
    nestedMapChild_ok nodup_itemsOf]
  constructor
  · rintro ⟨c, ⟨hp, hb, hf, ht, hd⟩, hres⟩
    obtain ⟨rfl, rfl⟩ := Prod.mk.inj hres
    exact ⟨⟨hp, hb, hf, ht⟩, hd, rfl⟩
  · rintro ⟨⟨hp, hb, hf, ht⟩, hd, rfl⟩
    exact ⟨config, ⟨hp, hb, hf, ht, hd⟩, rfl⟩

section

variable (h : Sections (stanzas ports sgInfo mappings) sgInfo config)

include h

/-- **A filter of the config** is the filter of the port that holds its name. -/
theorem Sections.get?_filter {fname : String} {filt : Filter} :
    config.filter.get? fname = some filt ↔
      ∃ port, holder ports fname = some port ∧
        FilterOf port sgInfo ("Config.filter" ++ "." ++ fname) filt := by
  rw [get?_of_readAs h.filter]
  simp only [get?_filters, Option.map_eq_some_iff, id]
  constructor
  · rintro ⟨t, ⟨port, hport, rfl⟩, hread⟩
    exact ⟨port, hport, filterTree_ok.mp hread⟩
  · rintro ⟨port, hport, hread⟩
    exact ⟨_, ⟨port, hport, rfl⟩, filterTree_ok.mpr hread⟩

theorem Sections.mem_filter {fname : String} :
    fname ∈ config.filter ↔ ∃ port, holder ports fname = some port := by
  rw [mem_of_readAs h.filter, Dict.mem_iff_get?]
  simp only [get?_filters, Option.map_eq_some_iff]
  constructor
  · rintro ⟨_, port, hport, -⟩
    exact ⟨port, hport⟩
  · rintro ⟨port, hport⟩
    exact ⟨_, port, hport, rfl⟩

/-- **A table of the config** holds the addresses of the group its name stands for. -/
theorem Sections.get?_table {t : String} :
    config.table.get? t = (groupOf (stanzas ports sgInfo mappings).tablesUsed t).map fun g =>
      { members := sortedSet
          (sortedBy id ((sgInfo.sgMemberIps.get? g).getD {}).ipv4).toFinset } := by
  apply Option.ext
  intro table
  rw [get?_of_readAs h.table]
  simp only [get?_tables, Option.map_eq_some_iff, fromTree_table, Except.ok.injEq]
  constructor
  · rintro ⟨_, ⟨g, hg, rfl⟩, rfl⟩
    exact ⟨g, hg, rfl⟩
  · rintro ⟨g, hg, rfl⟩
    exact ⟨_, ⟨g, hg, rfl⟩, rfl⟩

/-- A bridge of the config: what each of its fields was read from. -/
theorem Sections.get?_bridge {bname : String} {br : Bridge}
    (hbr : config.bridge.get? bname = some br) :
    (∀ n m, br.member.get? n = some m → ∃ port ∈ ports, bridgeOf port = bname ∧
      ifName port = n ∧ ∃ bind, bindOf port = .ok bind ∧ m = memberOf port bind) ∧
    ∀ s, br.segment = some s → ∃ port ∈ ports, ∃ pn trunk,
      trunkFor port mappings = some (pn, trunk) ∧ s = segmentOf port pn := by
  obtain ⟨st, hst, hread⟩ := (get?_of_readAs h.bridge).mp hbr
  have hof := stanza_of (Dict.get?_eq_some.mp hst)
  obtain ⟨-, member, segment, hmem, hseg, rfl⟩ := fromTree_stanzaTree.mp hread
  constructor
  · intro n m hm
    have hreads := (nestedMapChild_ok st.member.nodup).mp hmem
    rw [← itemsOf_id] at hreads
    obtain ⟨t, ht, hsub⟩ := (get?_of_readAs hreads).mp hm
    obtain ⟨port, hp, hb, hn, rfl⟩ := hof.member n t (Dict.get?_eq_some.mp ht)
    exact ⟨port, hp, hb, hn, fromTree_memberTree.mp hsub⟩
  · intro s hs
    cases hsg : st.segment with
    | none =>
      rw [hsg] at hseg
      exact absurd (hseg.symm.trans hs) (by simp)
    | some t =>
      rw [hsg] at hseg
      obtain ⟨port, hp, pn, trunk, htr, rfl⟩ := hof.segment t hsg
      refine ⟨port, hp, pn, trunk, htr, ?_⟩
      obtain ⟨s', hs', hres⟩ := Except.bind_eq_ok.mp hseg
      obtain rfl := Option.some.inj ((Except.pure_eq_ok.mp hres).trans hs)
      exact (fromTree_segmentTree.mp hs').2.2

/-- Every port is a member of its bridge in the config. -/
theorem Sections.member_of_port {port : PortDetails} (hp : port ∈ ports) :
    ∃ br, config.bridge.get? (bridgeOf port) = some br ∧ ifName port ∈ br.member := by
  obtain ⟨st, hst, hmem⟩ := @PortConfig.member_of_port _ ports sgInfo mappings port hp
  have hin : bridgeOf port ∈ config.bridge :=
    (mem_of_readAs h.bridge).mpr (Dict.mem_of_get? hst)
  obtain ⟨br, hbr⟩ := Dict.mem_iff_get?.mp hin
  refine ⟨br, hbr, ?_⟩
  obtain ⟨st', hst', hread⟩ := (get?_of_readAs h.bridge).mp hbr
  obtain rfl := Option.some.inj (hst.symm.trans hst')
  obtain ⟨-, member, segment, hmembers, -, rfl⟩ := fromTree_stanzaTree.mp hread
  have hreads := (nestedMapChild_ok st.member.nodup).mp hmembers
  rw [← itemsOf_id] at hreads
  exact (mem_of_readAs hreads).mpr hmem

end

end

end PortConfig

end Bsdbridge
