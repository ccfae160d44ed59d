import Bsdbridge.Proof.Build

/-!
# When the builder refuses

`build` is given what Neutron has already validated, so it should never raise, and `pf` should
never refuse what it builds. Both fail on one kind of rule: an ICMP rule keeps its type and code
where a TCP rule keeps its ports, and the builder spells them as ports.

This file has the first half. **`build_total`** says when the builder returns: exactly when every
filter it keeps can be spelled. The rest of the document cannot be refused under what Neutron
promises, and that is most of the work: names fit, MACs are MACs, no reference dangles. What pf
takes of the result is in `Proof/Refused`.

## What Neutron promises

`ValidRule` follows Neutron's own validation of a rule, by protocol: ports from 1 to 65535 in
order, types and codes from 0 to 255, and no port fields for anything else. `WellFormed` is about
the port, and `Trunks` about the agent's own setting. These are promises of callers, stated once
and never strengthened; in particular nothing is promised about which rules pf can express.
-/

set_option autoImplicit false

namespace Bsdbridge

namespace PortConfig

/-! ## 1. What Neutron promises -/

/-- Six pairs of hexadecimal digits, of either case. -/
def MacText (mac : String) : Prop := isMac (mac.toList.map Char.toLower) = true

/-- A port whose MAC and segment are well formed. -/
structure WellFormed (port : PortDetails) : Prop where
  mac : ∀ mac, port.macAddress = some mac → MacText mac
  vlan : VlanId port
  physnet : port.physicalNetwork ≠ some ""

/-- Every trunk is an interface name. -/
def Trunks (mappings : Dict String String) : Prop :=
  ∀ pn trunk, mappings.get? pn = some trunk → 1 ≤ trunk.length ∧ trunk.length ≤ IFNAME_MAX

/-- Neutron's rules for the port fields of a rule, which mean ports, or a type and a code. -/
structure ValidRule (rule : SgRule) : Prop where
  /-- A remote prefix is an address range, no table reference. -/
  cidr : ∀ p, prefixOf rule = some p → Text.startsWith p "@" = false
  ports : (rule.protocol = some "tcp" ∨ rule.protocol = some "udp") →
    rule.portRangeMin = none ∧ rule.portRangeMax = none ∨
      ∃ lo hi, rule.portRangeMin = some lo ∧ rule.portRangeMax = some hi ∧
        1 ≤ lo ∧ lo ≤ hi ∧ hi ≤ 65535
  icmp : rule.protocol ∈ [some "icmp", some "ipv6-icmp", some "icmpv6", some "icmp6"] →
    rule.portRangeMin = none ∧ rule.portRangeMax = none ∨
      ∃ type, rule.portRangeMin = some type ∧ 0 ≤ type ∧ type ≤ 255 ∧
        ∀ code, rule.portRangeMax = some code → 0 ≤ code ∧ code ≤ 255
  others : rule.protocol ∉ [some "tcp", some "udp", some "icmp", some "ipv6-icmp",
    some "icmpv6", some "icmp6"] → rule.portRangeMin = none ∧ rule.portRangeMax = none

/-! ## 2. What is read without fail

One lemma for each check of the model's constructors that a built document must pass. -/

/-- No blank spells a character of a MAC. -/
theorem not_isSpace_of_mac {c : Char} (h : isLowerHex c.toLower = true ∨ c.toLower = ':') :
    Text.isSpace c = false := by
  by_contra hspace
  rw [Bool.not_eq_false] at hspace
  have hcode : c.toNat ≤ 32 ∨ 0x85 ≤ c.toNat := by
    simp [Text.isSpace] at hspace
    omega
  have hlow : c.toLower = c := by
    unfold Char.toLower
    rw [dif_neg]
    intro hup
    have : 65 ≤ c.toNat ∧ c.toNat ≤ 90 := ⟨hup.1, hup.2⟩
    omega
  rw [hlow] at h
  rcases h with h | rfl
  · simp only [isLowerHex, Char.isDigit, Bool.or_eq_true, Bool.and_eq_true,
      decide_eq_true_eq] at h
    have : 48 ≤ c.toNat ∧ c.toNat ≤ 57 ∨ 97 ≤ c.toNat ∧ c.toNat ≤ 102 := h
    omega
  · exact absurd hspace (by decide)

theorem isMac_chars {l : List Char} (h : isMac l = true) :
    ∀ c ∈ l, isLowerHex c = true ∨ c = ':' := by
  intro c hc
  unfold isMac at h
  rw [Bool.and_eq_true, List.all_eq_true] at h
  obtain ⟨i, hi⟩ := List.mem_iff_getElem?.mp hc
  have hci := h.2 (c, i) (List.mk_mem_zipIdx_iff_getElem?.mpr hi)
  by_cases hmod : i % 3 = 2
  · right
    simpa [hmod] using hci
  · left
    simpa [hmod] using hci

theorem canonicalMac_ok {mac : String} (h : MacText mac) :
    ∃ m, canonicalMac (.str mac) = .ok m := by
  have htrim : Text.trim Text.isSpace mac.toList = mac.toList :=
    Text.trim_eq_self fun c hc =>
      not_isSpace_of_mac (isMac_chars h c.toLower (List.mem_map_of_mem hc))
  have hmac : isMac (String.ofList (mac.toList.map Char.toLower)).toList = true := by
    rw [String.toList_ofList]
    exact h
  refine ⟨String.ofList (mac.toList.map Char.toLower), ?_⟩
  rw [canonicalMac, htrim]
  exact if_pos hmac

theorem bindOf_ok {port : PortDetails} (h : WellFormed port) :
    ∃ bind, bindOf port = .ok bind := by
  unfold bindOf
  by_cases hs : secured port = true
  · rw [if_pos hs]
    cases ipv4Of port with
    | none => exact ⟨none, rfl⟩
    | some ip =>
      cases hmac : truthy port.macAddress with
      | none => exact ⟨none, rfl⟩
      | some mac =>
        obtain ⟨m, hm⟩ := canonicalMac_ok (h.mac mac (truthy_eq_some.mp hmac).1)
        exact ⟨some ⟨m, ip⟩, by simp only [hm]; rfl⟩
  · rw [if_neg hs]
    exact ⟨none, rfl⟩

/-- Every interface name fits. -/
theorem length_ifName {port : PortDetails} : (ifName port).length ≤ IFNAME_MAX := by
  have hcut : ∀ (p s : String) (n : Nat), (p ++ Text.take s n).length ≤ p.length + n := by
    intro p s n
    simp only [Text.take, String.length_append, String.length_ofList, List.length_take]
    omega
  unfold ifName
  cases hs : serviceIf port with
  | none => exact (hcut "tap" _ 11).trans (by decide)
  | some f =>
    obtain ⟨⟨owner, g⟩, hfind, rfl⟩ := Option.map_eq_some_iff.mp hs
    have hmem := List.mem_of_find?_eq_some hfind
    simp only [SERVICE_IF_NAME, List.mem_cons, Prod.mk.injEq, List.not_mem_nil, or_false] at hmem
    rcases hmem with ⟨-, rfl⟩ | ⟨-, rfl⟩ | ⟨-, rfl⟩
    · exact (hcut "dh" _ 13).trans (by decide)
    · exact (hcut "rt" _ 13).trans (by decide)
    · exact (hcut "rt" _ 13).trans (by decide)

theorem trunkFor_eq {port : PortDetails} {mappings : Dict String String} {pn trunk : String}
    (h : trunkFor port mappings = some (pn, trunk)) :
    port.physicalNetwork = some pn ∧ mappings.get? pn = some trunk := by
  unfold trunkFor at h
  split at h
  · obtain ⟨pn', hpn, hmap⟩ := Option.bind_eq_some_iff.mp h
    obtain ⟨trunk', htr, heq⟩ := Option.map_eq_some_iff.mp hmap
    obtain ⟨rfl, rfl⟩ := Prod.mk.inj heq
    exact ⟨hpn, htr⟩
  · exact absurd h (by simp)

/-- A remote refers to a table that was noted, or to none. -/
theorem tableRef_remote {rule : SgRule} {t : String}
    (hcidr : ∀ p, prefixOf rule = some p → Text.startsWith p "@" = false)
    (h : Config.tableRef (remote rule) = some t) :
    ∃ g, tableUsed rule = some g ∧ t = Names.tableName g := by
  unfold remote at h
  unfold tableUsed
  cases hp : truthy (prefixOf rule) with
  | some p =>
    simp only [hp, Config.tableRef, hcidr p (truthy_eq_some.mp hp).1] at h
    exact absurd h (by simp)
  | none =>
    simp only [hp] at h
    cases hg : truthy rule.remoteGroupId with
    | none =>
      simp only [hg] at h
      have hany : Config.tableRef "any" = none := by decide
      exact absurd (hany.symm.trans h) (by simp)
    | some g =>
      simp only [hg] at h
      have hat : Text.startsWith ("@" ++ Names.tableName g) "@" = true :=
        Text.startsWith_iff.mpr ⟨(Names.tableName g).toList, by simp⟩
      have hdrop : Text.drop ("@" ++ Names.tableName g) 1 = Names.tableName g :=
        String.toList_injective (by simp [Text.drop])
      rw [Config.tableRef, if_pos hat, hdrop] at h
      exact ⟨g, rfl, (Option.some.inj h).symm⟩

/-- The references of a side: none, or the remote of one of its rules. -/
theorem ref_of_entry {dir : SgDirection} {rules : List SgRule} {path : String}
    {out : Dict Int FilterRule}
    (h : List.Forall₂ (SideRead path) (sideItems dir rules) out.entries)
    {o : Int × FilterRule} (ho : o ∈ out.entries) {ref : String}
    (href : ref ∈ [o.2.from_, o.2.to_]) :
    ref = "any" ∨ ∃ rule ∈ rules, expressible rule = true ∧ ref = remote rule := by
  simp only [List.mem_cons, List.not_mem_nil, or_false] at href
  rcases rule_of_entry h ho with hinfra | ⟨-, rule, hr, hexp, -, port, -, hrule⟩
  · have hany : ∀ e ∈ infraOf dir, e.2.from_ = "any" ∧ e.2.to_ = "any" := by
      cases dir <;> decide
    obtain ⟨hf, ht⟩ := hany o hinfra
    left
    rcases href with rfl | rfl
    · exact hf
    · exact ht
  · have hrefs : ∀ r ∈ [(filterRule rule port).from_, (filterRule rule port).to_],
        r = "any" ∨ r = remote rule := by
      intro r hr
      unfold filterRule at hr
      simp only [List.mem_cons, List.not_mem_nil, or_false] at hr
      rcases hr with rfl | rfl
      · by_cases hd : rule.direction = .ingress
        · exact Or.inr (if_pos hd)
        · exact Or.inl (if_neg hd)
      · by_cases hd : rule.direction = .egress
        · exact Or.inr (if_pos hd)
        · exact Or.inl (if_neg hd)
    rw [hrule] at href
    rcases hrefs ref (by simpa using href) with hany | hrem
    · exact Or.inl hany
    · exact Or.inr ⟨rule, hr, hexp, hrem⟩

/-- A bridge dangles neither by its physnet nor by a filter. -/
theorem danglingBridge_eq_none {config : Config} {bname : String} {br : Bridge}
    (hseg : ∀ s p, br.segment = some s → truthy s.physnet = some p → p ∈ config.physnet)
    (hfil : ∀ n m f, (n, m) ∈ br.member.entries → truthy m.filter = some f →
      f ∈ config.filter) : Config.danglingBridge config bname br = none := by
  unfold Config.danglingBridge
  refine (Option.orElse_eq_none _ _).mpr ⟨?_, List.findSome?_eq_none_iff.mpr fun m hm => ?_⟩
  · cases hs : br.segment with
    | none => rfl
    | some s =>
      cases hp : truthy s.physnet with
      | none => simp [hp]
      | some p => simp [hp, hseg s p hs hp]
  · cases hf : truthy m.2.filter with
    | none => rfl
    | some f => exact if_pos (hfil m.1 m.2 f hm hf)

/-! ## 3. When it returns

A config is refused for its sections or for its cross-references. The second cannot happen,
because every name that is referred to was written down on the way. -/

section

variable [Hashlib] {ports : List PortDetails} {sgInfo : SgInfo} {mappings : Dict String String}

/-- A bridge of well-formed ports can be read. -/
theorem bridge_total (hports : ∀ port ∈ ports, WellFormed port) {bname path : String}
    {st : Stanza} (h : StanzaOf ports mappings bname st) :
    ∃ br, Bridge.fromTree (stanzaTree st) path = .ok br := by
  obtain ⟨member, hmember⟩ := @nestedMapChild_total _ Member.fromTree st.member.entries
    (path ++ "." ++ "member") fun e he => by
      obtain ⟨port, hp, -, -, ht⟩ := h.member e.1 e.2 he
      obtain ⟨bind, hbind⟩ := bindOf_ok (hports port hp)
      exact ⟨_, ht ▸ fromTree_memberTree.mpr ⟨bind, hbind, rfl⟩⟩
  have hlen : ∀ n ∈ member, n.length ≤ IFNAME_MAX := by
    intro n hn
    have hreads := (nestedMapChild_ok st.member.nodup).mp hmember
    rw [← itemsOf_id] at hreads
    obtain ⟨t, ht⟩ := Dict.mem_iff_entry.mp ((mem_of_readAs hreads).mp hn)
    obtain ⟨port, -, -, rfl, -⟩ := h.member n t ht
    exact length_ifName
  cases hseg : st.segment with
  | none =>
    exact ⟨_, fromTree_stanzaTree.mpr ⟨hlen, member, none, hmember, by rw [hseg], rfl⟩⟩
  | some t =>
    obtain ⟨port, hp, pn, trunk, htr, rfl⟩ := h.segment t hseg
    have hpn := (trunkFor_eq htr).1
    have hread : Segment.fromTree (segmentTree port pn) (path ++ "." ++ "segment") =
        .ok (segmentOf port pn) := by
      refine fromTree_segmentTree.mpr ⟨?_, (hports port hp).vlan, rfl⟩
      rintro rfl
      exact (hports port hp).physnet hpn
    refine ⟨_, fromTree_stanzaTree.mpr ⟨hlen, member, some (segmentOf port pn), hmember, ?_, rfl⟩⟩
    rw [hseg]
    exact Except.bind_eq_ok.mpr ⟨_, hread, rfl⟩

/-- **No cross-reference dangles**: whatever is referred to was noted on the way. -/
theorem Sections.dangling_none {config : Config}
    (h : Sections (stanzas ports sgInfo mappings) sgInfo config)
    (hcidr : ∀ port ∈ ports, ∀ rule ∈ rulesOf port.portId sgInfo, ∀ p,
      prefixOf rule = some p → Text.startsWith p "@" = false) :
    Config.dangling config = none := by
  have hbridges : (config.bridge.entries.findSome? fun e =>
      Config.danglingBridge config e.1 e.2) = none := by
    refine List.findSome?_eq_none_iff.mpr fun e he => ?_
    obtain ⟨hmembers, hsegment⟩ := h.get?_bridge (Dict.get?_eq_some.mpr he)
    apply danglingBridge_eq_none
    · intro s p hs hp
      obtain ⟨port, hport, pn, trunk, htr, rfl⟩ := hsegment s hs
      obtain rfl := Option.some.inj (truthy_eq_some.mp hp).1
      exact (mem_of_readAs h.physnet).mpr (physnet_mem hport htr)
    · intro n m f hm hf
      obtain ⟨port, hport, -, -, bind, -, rfl⟩ := hmembers n m (Dict.get?_eq_some.mpr hm)
      have hfil := (truthy_eq_some.mp hf).1
      unfold memberOf at hfil
      by_cases hs : secured port = true
      · simp only [if_pos hs] at hfil
        obtain rfl := Option.some.inj hfil
        exact h.mem_filter.mpr (holder_of_secured hport hs)
      · simp only [if_neg hs] at hfil
        exact absurd hfil (by simp)
  have htables : (config.filter.entries.findSome? fun e =>
      Config.danglingTable config.table e.1 e.2) = none := by
    refine List.findSome?_eq_none_iff.mpr fun e he => ?_
    obtain ⟨port, hport, hfil⟩ := h.get?_filter.mp (Dict.get?_eq_some.mpr he)
    obtain ⟨hmem, hsec, -⟩ := holder_mem hport
    unfold Config.danglingTable
    refine List.findSome?_eq_none_iff.mpr fun o ho => ?_
    refine List.findSome?_eq_none_iff.mpr fun ref href => ?_
    cases ht : Config.tableRef ref with
    | none => rfl
    | some t =>
      have hrule : ref = "any" ∨ ∃ rule ∈ rulesOf port.portId sgInfo,
          expressible rule = true ∧ ref = remote rule := by
        rcases List.mem_append.mp ho with ho | ho
        · exact ref_of_entry hfil.in_ ho href
        · exact ref_of_entry hfil.out ho href
      rcases hrule with rfl | ⟨rule, hr, hexp, rfl⟩
      · have hany : Config.tableRef "any" = none := by decide
        exact absurd (hany.symm.trans ht) (by simp)
      · obtain ⟨g, hg, rfl⟩ := tableRef_remote (hcidr port hmem rule hr) ht
        have hused : g ∈ (stanzas ports sgInfo mappings).tablesUsed :=
          mem_tablesUsed.mpr ⟨port, hmem, hsec, List.mem_filterMap.mpr
            ⟨rule, List.mem_filter.mpr ⟨hr, hexp⟩, hg⟩⟩
        exact if_pos ((mem_of_readAs h.table).mpr (mem_tables hused))
  unfold Config.dangling
  rw [hbridges, htables]
  rfl

/-- **The builder returns** exactly when every filter it keeps can be spelled. -/
theorem build_total (hports : ∀ port ∈ ports, WellFormed port) (htrunks : Trunks mappings)
    (hcidr : ∀ port ∈ ports, ∀ rule ∈ rulesOf port.portId sgInfo, ∀ p,
      prefixOf rule = some p → Text.startsWith p "@" = false) :
    (∃ config devices, build ports sgInfo mappings = .ok (config, devices)) ↔
      ∀ fname port, holder ports fname = some port → Spellable port sgInfo := by
  constructor
  · -- a config there is has a filter for each holder, and the filter was spelled
    rintro ⟨config, devices, hbuild⟩ fname port hport
    obtain ⟨hsec, -, -⟩ := build_eq_ok.mp hbuild
    obtain ⟨filt, hfilt⟩ := Dict.mem_iff_get?.mp (hsec.mem_filter.mpr ⟨port, hport⟩)
    obtain ⟨port', hport', hof⟩ := hsec.get?_filter.mp hfilt
    obtain rfl := Option.some.inj (hport.symm.trans hport')
    exact filter_total.mp ⟨filt, filterTree_ok.mpr hof⟩
  · -- physnets, bridges and tables never fail; the filters are what `hspell` is about
    intro hspell
    obtain ⟨dp, hdp⟩ := @nestedMapChild_total _ Physnet.fromTree
      (itemsOf (stanzas ports sgInfo mappings).physnets fun trunk => .dict [("trunk", .str trunk)])
      "Config.physnet" fun e he => by
        obtain ⟨⟨pn, trunk⟩, hm, rfl⟩ := List.mem_map.mp he
        obtain ⟨port, -, htr⟩ := mem_physnets hm
        exact ⟨_, fromTree_physnet.mpr ⟨htrunks pn trunk (trunkFor_eq htr).2, rfl⟩⟩
    obtain ⟨db, hdb⟩ := @nestedMapChild_total _ Bridge.fromTree
      (itemsOf (stanzas ports sgInfo mappings).bridges stanzaTree) "Config.bridge"
      fun e he => by
        obtain ⟨⟨bname, st⟩, hm, rfl⟩ := List.mem_map.mp he
        exact bridge_total hports (stanza_of hm)
    obtain ⟨df, hdf⟩ := @nestedMapChild_total _ Filter.fromTree
      (itemsOf (stanzas ports sgInfo mappings).filters id) "Config.filter" fun e he => by
        obtain ⟨⟨fname, t⟩, hm, rfl⟩ := List.mem_map.mp he
        have hget := Dict.get?_eq_some.mpr hm
        rw [get?_filters] at hget
        obtain ⟨port, hport, rfl⟩ := Option.map_eq_some_iff.mp hget
        exact filter_total.mpr (hspell fname port hport)
    obtain ⟨dt, hdt⟩ := @nestedMapChild_total _ Table.fromTree
      (itemsOf (tables (stanzas ports sgInfo mappings).tablesUsed sgInfo) fun ips =>
        .dict [("members", .list (ips.map .str))]) "Config.table" fun e he => by
        obtain ⟨⟨t, ips⟩, -, rfl⟩ := List.mem_map.mp he
        exact ⟨_, fromTree_table⟩
    have hsections : Sections (stanzas ports sgInfo mappings) sgInfo
        { physnet := dp, bridge := db, filter := df, table := dt } :=
      ⟨(nestedMapChild_ok nodup_itemsOf).mp hdp, (nestedMapChild_ok nodup_itemsOf).mp hdb,
        (nestedMapChild_ok nodup_itemsOf).mp hdf, (nestedMapChild_ok nodup_itemsOf).mp hdt⟩
    exact ⟨_, _, build_eq_ok.mpr ⟨hsections, hsections.dangling_none hcidr, rfl⟩⟩

end

end PortConfig

end Bsdbridge
