import Bsdbridge.Proof.Anchors
import Bsdbridge.Proof.Refusal
import Bsdbridge.Proof.Total
import Bsdbridge.Proof.Verdict

/-!
# The policy of a built port

What `build` gives one port: its member, the filter that stands under the port's filter name, and
the anchor rendered from the two. The names of a port are cut short, so a port is followed here as
long as no other one takes them (`Own`).

**`built_anchor`** is the end of a long chain, and what the later files start from: it says that
the anchor a pass would load for the port exists, that its filter is the one of the port's rules,
and that pf's verdict over its lines is the reading of the filter and the lock (`means`). The links
are the builder (`Proof/Build`), the reader of its document (`Proof/FromTree`), the planner's
lookups (`anchorOf`), the renderer (`Proof/Verdict`), and the spelling of what the builder puts
into a rule (`Spelled`).

`Texts` is what is asked of the strings that come from the server: ids without blanks, and remote
prefixes that are words of their own. A group id with a blank in it would make a table name of two
words, and pf would read another rule. Nothing is asked of the address ranges themselves: what lies
in them is the parameter `lies`, and only the two texts of the DHCP line are fixed (`ReadsDhcp`).
-/

set_option autoImplicit false

namespace Bsdbridge

open PacketFilter (Addr)

namespace PortConfig

open Pf

/-! ## 1. Filters

Every rule of a built filter passes, so what it says of a packet is whether some rule matches. -/

/-- The SG direction of a side. -/
def sgDirection : Direction → SgDirection
  | .in_ => .ingress
  | .out => .egress

theorem FilterOf.side {port : PortDetails} {sgInfo : SgInfo} {path : String} {filt : Filter}
    (h : FilterOf port sgInfo path filt) (d : Direction) :
    List.Forall₂ (SideRead (path ++ "." ++ d.word))
      (sideItems (sgDirection d) (rulesOf port.portId sgInfo)) (Pf.side filt d).entries := by
  cases d with
  | in_ => exact h.in_
  | out => exact h.out

/-- A rule of a built filter is an allowance, or a rule of the port's groups. -/
theorem FilterOf.rule_cases {port : PortDetails} {sgInfo : SgInfo} {path : String}
    {filt : Filter} (h : FilterOf port sgInfo path filt) {d : Direction} {o : Int × FilterRule}
    (ho : o ∈ (Pf.side filt d).entries) :
    o ∈ infraOf (sgDirection d) ∨ (SG_RULE_BASE : Int) ≤ o.1 ∧
      ∃ rule ∈ rulesOf port.portId sgInfo, expressible rule = true ∧
        rule.direction = sgDirection d ∧
        ∃ spec, portOf rule = .ok spec ∧ o.2 = filterRule rule spec :=
  rule_of_entry (h.side d) ho

/-- Every rule of a built filter passes. -/
theorem FilterOf.passes {port : PortDetails} {sgInfo : SgInfo} {path : String}
    {filt : Filter} (h : FilterOf port sgInfo path filt) {d : Direction} {o : Int × FilterRule}
    (ho : o ∈ (Pf.side filt d).entries) : o.2.action = .pass := by
  rcases h.rule_cases ho with hinfra | ⟨-, rule, -, -, -, spec, -, hrule⟩
  · have hall : ∀ e ∈ infraOf (sgDirection d), e.2.action = .pass := by
      cases d <;> decide
    exact hall o hinfra
  · rw [hrule]
    rfl

/-- So a built filter passes what some rule of the packet's side matches. -/
theorem FilterOf.means_pass {port : PortDetails} {sgInfo : SgInfo} {path : String}
    {filt : Filter} (h : FilterOf port sgInfo path filt) {lies : String → Addr → Bool}
    {tables : List (String × List String)} {f : Flow} :
    filterMeans lies tables (some filt) f = .pass ↔
      ∃ o ∈ (Pf.side filt f.direction).entries, ruleHolds lies tables f o.2 = true := by
  unfold filterMeans
  rw [Option.bind_some]
  cases hd : deciding lies tables filt f with
  | some e =>
    obtain ⟨hmem, hrule, -⟩ := deciding_iff.mp hd
    exact iff_of_true (h.passes hmem) ⟨e, hmem, hrule⟩
  | none =>
    refine iff_of_false (by decide) ?_
    intro ⟨o, ho, hrule⟩
    rw [deciding_eq_none.mp hd o ho] at hrule
    exact absurd hrule (by decide)

/-! ## 2. The member and its anchor

`anchorOf` is what the planner renders when it loads the member, as an `Option` because every
lookup in it can miss. -/

section

variable [Hashlib]

/-- No other port takes a port's tap on its bridge, or the name of its filter. -/
structure Own (ports : List PortDetails) (port : PortDetails) : Prop where
  tap : ∀ other ∈ ports, bridgeOf other = bridgeOf port → ifName other = ifName port →
    other = port
  filter : ∀ other ∈ ports, secured other = true →
    Names.filterName other.portId = Names.filterName port.portId → other = port

/-- The anchor of a member of a config: what a pass would load for it. -/
def anchorOf (config : Config) (bname mname : String) : Option Pf.Ruleset := do
  let bridge ← config.bridge.get? bname
  let member ← bridge.member.get? mname
  let filt := Planner.filterOf config member
  let tables ← (Pf.wantedTables filt config).toOption
  some (Pf.render mname filt member.bind tables).1

variable {ports : List PortDetails} {sgInfo : SgInfo} {mappings : Dict String String}
  {config : Config} {port : PortDetails}

theorem Own.holder (h : Own ports port) (hp : port ∈ ports) (hs : secured port = true) :
    holder ports (Names.filterName port.portId) = some port := by
  obtain ⟨other, hother⟩ := holder_of_secured hp hs
  obtain ⟨hmem, hsec, hname⟩ := holder_mem hother
  rw [hother, h.filter other hmem hsec hname]

/-- The member of a port. -/
theorem Sections.member_own (h : Sections (stanzas ports sgInfo mappings) sgInfo config)
    (hown : Own ports port) (hp : port ∈ ports) :
    ∃ br bind, config.bridge.get? (bridgeOf port) = some br ∧ bindOf port = .ok bind ∧
      br.member.get? (ifName port) = some (memberOf port bind) := by
  obtain ⟨br, hbr, hmem⟩ := h.member_of_port hp
  obtain ⟨m, hm⟩ := Dict.mem_iff_get?.mp hmem
  obtain ⟨other, ho, hb, hn, bind, hbind, rfl⟩ := (h.get?_bridge hbr).1 _ m hm
  obtain rfl := hown.tap other ho hb hn
  exact ⟨br, bind, hbr, hbind, hm⟩

/-- The filter of a secured port's member. -/
theorem Sections.filter_own (h : Sections (stanzas ports sgInfo mappings) sgInfo config)
    (hown : Own ports port) (hp : port ∈ ports) (hs : secured port = true)
    {bind : Option Bind} :
    ∃ filt, Planner.filterOf config (memberOf port bind) = some filt ∧
      FilterOf port sgInfo ("Config.filter" ++ "." ++ Names.filterName port.portId) filt := by
  have hholder := hown.holder hp hs
  obtain ⟨filt, hfilt⟩ := Dict.mem_iff_get?.mp (h.mem_filter.mpr ⟨port, hholder⟩)
  obtain ⟨port', hport', hof⟩ := h.get?_filter.mp hfilt
  obtain rfl := Option.some.inj (hholder.symm.trans hport')
  refine ⟨filt, ?_, hof⟩
  have hname : truthy (memberOf port bind).filter = some (Names.filterName port.portId) := by
    refine truthy_eq_some.mpr ⟨if_pos hs, ?_⟩
    intro hnil
    have := congrArg String.length hnil
    simp [Names.filterName] at this
  unfold Planner.filterOf
  rw [hname]
  exact hfilt

/-- What `build` returns has passed the checks of the model's constructors. -/
theorem Sections.checked (h : Sections (stanzas ports sgInfo mappings) sgInfo config)
    (hdangling : Config.dangling config = none) : Planner.Checked config := by
  refine ⟨hdangling, ?_⟩
  intro b br seg he hseg
  obtain ⟨st, hst, hread⟩ := (get?_of_readAs h.bridge).mp (Dict.get?_eq_some.mpr he)
  obtain ⟨-, member, segment, -, hsegment, rfl⟩ := fromTree_stanzaTree.mp hread
  obtain rfl : segment = some seg := hseg
  cases hsg : st.segment with
  | none =>
    rw [hsg] at hsegment
    exact absurd hsegment (by simp)
  | some t =>
    rw [hsg] at hsegment
    obtain ⟨port, -, pn, trunk, -, rfl⟩ := (stanza_of (Dict.get?_eq_some.mp hst)).segment t hsg
    obtain ⟨s, hs, hres⟩ := Except.bind_eq_ok.mp hsegment
    obtain rfl := Option.some.inj (Except.pure_eq_ok.mp hres)
    obtain ⟨hne, -, rfl⟩ := fromTree_segmentTree.mp hs
    have ht : truthy (some pn) = some pn := truthy_eq_some.mpr ⟨rfl, hne⟩
    have hvx : (segmentOf port pn).vxlan = none := rfl
    have hpn : (segmentOf port pn).physnet = some pn := rfl
    unfold Segment.check
    simp [hvx, hpn, ht]

omit [Hashlib] in
/-- A table a filter refers to is listed with the members the config gives it. -/
theorem lookup_wantedTables {filt : Filter} {tables : List (String × List String)}
    (h : Pf.wantedTables (some filt) config = .ok tables) {t : String}
    (ht : t ∈ tablesReferenced (some filt)) :
    ∃ table, config.table.get? t = some table ∧ tables.lookup t = some table.members := by
  have hkeys := Planner.wantedTables_keys h
  have hkey : t ∈ tables.map Prod.fst := by
    rw [hkeys]
    exact mem_sortedSet.mpr ht
  have hnd : (tables.map Prod.fst).Nodup := by
    rw [hkeys]
    exact nodup_sortedSet _
  obtain ⟨⟨t', ms⟩, hm, rfl⟩ := List.mem_map.mp hkey
  obtain ⟨table, htable, rfl⟩ := Planner.mem_wantedTables h hm
  exact ⟨table, htable, (Dict.get?_eq_some (d := ⟨_, hnd⟩)).mpr hm⟩

/-! ## 3. What pf reads -/

/-- The texts Neutron sends: ids without blanks, and address ranges as remote prefixes. -/
structure Texts (port : PortDetails) (sgInfo : SgInfo) : Prop where
  id : ∀ c ∈ port.portId.toList, Text.isSpace c = false
  ranges : ∀ rule ∈ rulesOf port.portId sgInfo, ∀ p, truthy (prefixOf rule) = some p →
    HostText p ∧ Config.tableRef p = none
  groups : ∀ rule ∈ rulesOf port.portId sgInfo, ∀ g, rule.remoteGroupId = some g →
    ∀ c ∈ g.toList, Text.isSpace c = false

omit [Hashlib] in
theorem noSpace_take {s : String} {n : Nat} (h : ∀ c ∈ s.toList, Text.isSpace c = false) :
    ∀ c ∈ (Text.take s n).toList, Text.isSpace c = false := by
  intro c hc
  rw [Text.take, String.toList_ofList] at hc
  exact h c (List.mem_of_mem_take hc)

omit [Hashlib] in
theorem Texts.ifName (h : Texts port sgInfo) : Text.Word (ifName port) := by
  have hhead : ∀ (head : String) (n : Nat), Text.Word head →
      Text.Word (head ++ Text.take port.portId n) := by
    intro head n hw
    exact hw.append (noSpace_take h.id)
  unfold PortConfig.ifName
  cases hs : serviceIf port with
  | none => exact hhead "tap" 11 (by decide +kernel)
  | some f =>
    obtain ⟨⟨owner, g⟩, hfind, rfl⟩ := Option.map_eq_some_iff.mp hs
    have hmem := List.mem_of_find?_eq_some hfind
    simp only [SERVICE_IF_NAME, List.mem_cons, Prod.mk.injEq, List.not_mem_nil, or_false] at hmem
    rcases hmem with ⟨-, rfl⟩ | ⟨-, rfl⟩ | ⟨-, rfl⟩
    · exact hhead "dh" 13 (by decide +kernel)
    · exact hhead "rt" 13 (by decide +kernel)
    · exact hhead "rt" 13 (by decide +kernel)

omit [Hashlib] in
/-- The remote of a rule is a reference. -/
theorem Texts.remote (h : Texts port sgInfo) {rule : SgRule}
    (hr : rule ∈ rulesOf port.portId sgInfo) : Reference (remote rule) := by
  unfold PortConfig.remote
  cases hp : truthy (prefixOf rule) with
  | some p =>
    obtain ⟨hhost, hno⟩ := h.ranges rule hr p hp
    exact Or.inr (Or.inr ⟨hno, hhost⟩)
  | none =>
    cases hg : truthy rule.remoteGroupId with
    | none => exact Or.inl rfl
    | some g =>
      refine Or.inr (Or.inl ⟨Names.tableName g, ?_, ?_⟩)
      · have hat : Text.startsWith ("@" ++ Names.tableName g) "@" = true :=
          Text.startsWith_iff.mpr ⟨(Names.tableName g).toList, by simp⟩
        unfold Config.tableRef
        rw [if_pos hat]
        exact congrArg some (String.toList_injective (by simp [Text.drop]))
      · have hword : Text.Word "rg-" := by decide +kernel
        exact (hword.append (noSpace_take (h.groups rule hr g (truthy_eq_some.mp hg).1))).noSpace

omit [Hashlib] in
/-- The rules of a built filter are spelled as pf reads them. -/
theorem FilterOf.readable {path : String} {filt : Filter}
    (h : FilterOf port sgInfo path filt) (ht : Texts port sgInfo) : Readable (some filt) := by
  intro f hf d e he
  obtain rfl := Option.some.inj hf
  rcases h.rule_cases he with hinfra | ⟨-, rule, hr, -, -, spec, hspec, hrule⟩
  · have hall : ∀ o ∈ infraOf (sgDirection d), o.2.from_ = "any" ∧ o.2.to_ = "any" ∧
        ∀ p ∈ o.2.port, p = .one 67 ∨ p = .one 68 := by
      cases d <;> decide
    obtain ⟨hfrom, hto, hport⟩ := hall e hinfra
    refine ⟨Or.inl hfrom, Or.inl hto, fun p hp => ?_⟩
    rcases hport p hp with rfl | rfl
    · exact ⟨by decide, by decide⟩
    · exact ⟨by decide, by decide⟩
  · rw [hrule]
    refine ⟨?_, ?_, fun p hp => ?_⟩
    · show Reference (if rule.direction = .ingress then PortConfig.remote rule else "any")
      split
      · exact ht.remote hr
      · exact Or.inl rfl
    · show Reference (if rule.direction = .egress then PortConfig.remote rule else "any")
      split
      · exact ht.remote hr
      · exact Or.inl rfl
    · have hsome : spec = some p := hp
      rw [hsome] at hspec
      exact canonicalPort_canonical hspec

/-- **The anchor of a built port**, as pf reads its lines. -/
theorem built_anchor {devices : List String} (hb : build ports sgInfo mappings = .ok (config, devices))
    (hown : Own ports port) (hp : port ∈ ports) (hs : secured port = true)
    (ht : Texts port sgInfo) (haddr : ∀ ip, ipv4Of port = some ip → HostText ip)
    {lies : String → Addr → Bool} (hdhcp : ReadsDhcp lies) :
    ∃ bind filt anchor, bindOf port = .ok bind ∧
      anchorOf config (bridgeOf port) (ifName port) = some anchor ∧
      FilterOf port sgInfo ("Config.filter" ++ "." ++ Names.filterName port.portId) filt ∧
      ∀ f : Flow, PacketFilter.evaluate (meaningOf lies anchor.tables) anchor.rules
          (f.packet (ifName port)) =
        some (verdictOf (means lies (Planner.tablesOf config (memberOf port bind)) (some filt)
          bind f)) := by
  obtain ⟨hsec, hdangling, -⟩ := build_eq_ok.mp hb
  obtain ⟨br, bind, hbr, hbind, hm⟩ := hsec.member_own hown hp
  obtain ⟨filt, hfilt, hof⟩ := @Sections.filter_own _ _ _ _ _ _ hsec hown hp hs bind
  have hwanted := @Planner.Checked.tablesOf _ (hsec.checked hdangling) (memberOf port bind)
  -- the lock's address is the port's first IPv4 address, a host by `haddr`
  have hhost : ∀ b, bind = some b → HostText b.address := by
    intro b hbnd
    rw [hbnd] at hbind
    unfold bindOf at hbind
    rw [if_pos hs] at hbind
    cases hip : ipv4Of port with
    | none =>
      rw [hip] at hbind
      exact absurd hbind (by simp)
    | some ip =>
      rw [hip] at hbind
      cases hmac : truthy port.macAddress with
      | none =>
        rw [hmac] at hbind
        exact absurd hbind (by simp)
      | some mac =>
        rw [hmac] at hbind
        simp only at hbind
        cases hcan : canonicalMac (.str mac) with
        | error e =>
          rw [hcan] at hbind
          exact absurd hbind (by simp [Except.map])
        | ok m =>
          rw [hcan] at hbind
          obtain rfl := Option.some.inj (Except.ok.inj hbind)
          exact haddr ip hip
  refine ⟨bind, filt, (render (ifName port) (some filt) bind
    (Planner.tablesOf config (memberOf port bind))).1, hbind, ?_, hof, fun f => ?_⟩
  · unfold anchorOf
    rw [hfilt] at hwanted
    simp only [hbr, hm, Option.bind_eq_bind, Option.bind_some, hwanted, hfilt]
    rfl
  · rw [evaluate_render hdhcp ht.ifName (hof.readable ht) hhost f, means_render]

end

end PortConfig

end Bsdbridge
