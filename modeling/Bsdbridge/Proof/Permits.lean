import Bsdbridge.Proof.Policy

/-!
# Security groups and what a built filter passes

A filter is made of the rules of the port's groups, but a rule does not carry its ethertype into
the filter, tables are named by a cut group id, and the filter itself by a cut port id.
**`sound_iff`** says that these are the only ways a filter passes more than the groups allow: it is
sound exactly when each packet that strays through them is permitted by another rule.

Two readings of one rule stand side by side for that. `Permits` is what Neutron means by it:
direction, ethertype, protocol, ports and remote, the members of a remote group taken from the
server's answer. `Rendered` is what pf makes of it: no ethertype, the one family pf gives a
protocol, and for a remote group the table its cut name leads to. They are stated field by field in
the same order, so that each difference between them is one line.

## What this file does **not** say

That the filter passes *enough*: `Proof/Complete` has that direction, for one port. That the text
in the kernel means this filter: `Proof/Policy`. The allowances for DHCP and ICMPv6 that every
filter begins with are left out of the comparison (`Allowance`), since no group states them. How an
address lies in a range, and how a protocol is named, are parameters: the theorem holds of every
reading of those words, and the ports at the end of this file fix one.
-/

set_option autoImplicit false

namespace Bsdbridge

open PacketFilter (Addr Family Protocol)

namespace PortConfig

open Pf

/-! ## 1. What a rule permits

`Permits` and `Rendered` are predicates on a rule and a packet alone. Neither asks which rule of
the filter decides: all rules of the groups pass, so only whether *some* rule matches counts. -/

/-- The ethertype of a family. -/
def ethertypeOf : Family → String
  | .inet => "IPv4"
  | .inet6 => "IPv6"

/-- The far end of a packet. -/
def remoteEnd (f : Flow) : Addr :=
  match f.direction with
  | .in_ => f.ends.src
  | .out => f.ends.dst

/-- The addresses of a group's members. -/
def groupIps (sgInfo : SgInfo) (g : String) : List String :=
  ((sgInfo.sgMemberIps.get? g).getD {}).ipv4 ++ ((sgInfo.sgMemberIps.get? g).getD {}).ipv6

/-- `named` knows the protocols `PROTO` lists. -/
def ReadsProtocols (named : String → Protocol → Bool) : Prop :=
  ∀ p w x, PROTO.lookup p = some w → protoWords.lookup w = some x →
    ∀ q, named p q = true ↔ q = protocolOf x

section

variable (lies : String → Addr → Bool) (named : String → Protocol → Bool) (sgInfo : SgInfo)

/-- The port range of a rule, if any, holds the destination port. -/
def InPorts (rule : SgRule) (f : Flow) : Prop :=
  ∀ lo hi, portRange rule = some (lo, hi) → ∃ d, f.port = some d ∧ lo ≤ d ∧ d ≤ hi

/-- A rule of a security group permits a packet. -/
structure Permits (rule : SgRule) (f : Flow) : Prop where
  direction : rule.direction = sgDirection f.direction
  ethertype : rule.ethertype = some (ethertypeOf f.ends.family)
  protocol : ∀ p, rule.protocol = some p → named p f.protocol = true
  ports : InPorts rule f
  remote : (truthy (prefixOf rule) = none ∧ truthy rule.remoteGroupId = none) ∨
    (∃ p, truthy (prefixOf rule) = some p ∧ lies p (remoteEnd f) = true) ∨
    ∃ g, truthy rule.remoteGroupId = some g ∧ ∃ ip ∈ groupIps sgInfo g, lies ip (remoteEnd f) = true

/-- The groups whose members the config of some ports holds in tables. -/
def notedGroups (ports : List PortDetails) : Finset String :=
  ((ports.filter fun port => secured port).flatMap fun port =>
    tablesUsedBy port.portId sgInfo).toFinset

/-- The addresses of the table that carries the name of a group. -/
def tableIps (ports : List PortDetails) (g : String) : List String :=
  match groupOf (notedGroups sgInfo ports) (Names.tableName g) with
  | some g' => ((sgInfo.sgMemberIps.get? g').getD {}).ipv4
  | none => []

/-- The rendering of a rule matches a packet, whatever the rule's ethertype. -/
structure Rendered (ports : List PortDetails) (rule : SgRule) (f : Flow) : Prop where
  expressible : expressible rule = true
  direction : rule.direction = sgDirection f.direction
  /-- A protocol comes with the one family pf gives it. -/
  protocol : ∀ x, protoOf rule = some x → f.ends.family = familyNamed x ∧
    f.protocol = protocolOf x
  inPorts : InPorts rule f
  remote : (truthy (prefixOf rule) = none ∧ truthy rule.remoteGroupId = none) ∨
    (∃ p, truthy (prefixOf rule) = some p ∧ lies p (remoteEnd f) = true) ∨
    truthy (prefixOf rule) = none ∧ ∃ g, truthy rule.remoteGroupId = some g ∧
      ∃ ip ∈ tableIps sgInfo ports g, lies ip (remoteEnd f) = true

/-- A packet that a rendered rule of another port, of another ethertype, or of a group that
only shares its table's name lets through. -/
def Strays (portId : String) (rule : SgRule) (f : Flow) : Prop :=
  rule ∉ rulesOf portId sgInfo ∨ rule.ethertype ≠ some (ethertypeOf f.ends.family) ∨
    truthy (prefixOf rule) = none ∧ ∃ g, truthy rule.remoteGroupId = some g ∧
      ∀ ip ∈ groupIps sgInfo g, lies ip (remoteEnd f) = false

end

/-- The allowances every filter begins with: DHCP for IPv4, and ICMPv6. -/
def Allowance (f : Flow) : Prop :=
  match f.direction with
  | .in_ => protoHolds f .udp = true ∧ f.port = some 68 ∨ protoHolds f .icmp6 = true
  | .out => protoHolds f .udp = true ∧ f.port = some 67 ∨ protoHolds f .icmp6 = true

/-! ## 2. What a rendered rule matches

The fields of a rendered rule, taken one by one. The remote is the one with an argument in it,
because a prefix wins over a group and a group goes through a table that may be another's. -/

/-- Remote prefixes are address ranges: no table, and not the word for any. -/
def Ranges (port : PortDetails) (sgInfo : SgInfo) : Prop :=
  ∀ rule ∈ rulesOf port.portId sgInfo, ∀ p, truthy (prefixOf rule) = some p →
    p ≠ "any" ∧ Config.tableRef p = none

theorem tableRef_group {g : String} :
    Config.tableRef ("@" ++ Names.tableName g) = some (Names.tableName g) := by
  have hat : Text.startsWith ("@" ++ Names.tableName g) "@" = true :=
    Text.startsWith_iff.mpr ⟨(Names.tableName g).toList, by simp⟩
  unfold Config.tableRef
  rw [if_pos hat]
  exact congrArg some (String.toList_injective (by simp [Text.drop]))

theorem inPorts_iff {rule : SgRule} {spec : Option PortSpec} (hspec : portOf rule = .ok spec)
    {f : Flow} :
    (spec.all fun p => f.port.any fun d => portHolds d p) = true ↔ InPorts rule f := by
  have hrange := portOf_ok.mp hspec
  unfold InPorts
  cases hr : portRange rule with
  | none =>
    rw [hr] at hrange
    obtain rfl : spec = none := hrange
    simp
  | some range =>
    obtain ⟨lo, hi⟩ := range
    rw [hr] at hrange
    obtain ⟨-, -, -, rfl⟩ := hrange
    have hport : ∀ d, portHolds d (if lo = hi then .one lo else .range lo hi) = true ↔
        lo ≤ d ∧ d ≤ hi := by
      intro d
      by_cases heq : lo = hi
      · rw [if_pos heq]
        show decide (d = lo) = true ↔ _
        rw [decide_eq_true_eq]
        omega
      · rw [if_neg heq]
        exact decide_eq_true_iff
    cases hp : f.port with
    | none =>
      refine iff_of_false (by simp) fun h => ?_
      obtain ⟨d, hd, -⟩ := h lo hi rfl
      exact absurd hd (by simp)
    | some d =>
      simp only [Option.all_some, Option.any_some, hport]
      constructor
      · intro hd lo' hi' heq
        obtain ⟨rfl, rfl⟩ := Prod.mk.inj (Option.some.inj heq)
        exact ⟨d, rfl, hd⟩
      · intro h
        obtain ⟨d', hd', hle⟩ := h lo hi rfl
        obtain rfl := Option.some.inj hd'
        exact hle

section

variable {lies : String → Addr → Bool} {sgInfo : SgInfo} {ports : List PortDetails}
  {tables : List (String × List String)}

/-- The remote of a rule, as an end of its rendering. -/
theorem remote_holds {rule : SgRule}
    (hrange : ∀ p, truthy (prefixOf rule) = some p → p ≠ "any" ∧ Config.tableRef p = none)
    (htable : ∀ g, tableUsed rule = some g → ∀ a,
      (((tables.lookup (Names.tableName g)).getD []).any fun m => lies m a) = true ↔
        ∃ ip ∈ tableIps sgInfo ports g, lies ip a = true) {a : Addr} :
    refHolds lies tables (remote rule) a = true ↔
      (truthy (prefixOf rule) = none ∧ truthy rule.remoteGroupId = none) ∨
      (∃ p, truthy (prefixOf rule) = some p ∧ lies p a = true) ∨
      truthy (prefixOf rule) = none ∧ ∃ g, truthy rule.remoteGroupId = some g ∧
        ∃ ip ∈ tableIps sgInfo ports g, lies ip a = true := by
  unfold remote
  unfold tableUsed at htable
  cases hp : truthy (prefixOf rule) with
  | some p =>
    obtain ⟨hany, hno⟩ := hrange p hp
    rw [refHolds_eq]
    simp [hno, hany]
  | none =>
    rw [hp] at htable
    cases hg : truthy rule.remoteGroupId with
    | none =>
      have hany : refHolds lies tables "any" a = true := rfl
      simp [hany]
    | some g =>
      rw [refHolds_eq]
      simp only [tableRef_group]
      rw [htable g hg a]
      simp

/-- **A rendered rule matches** what `Rendered` says. -/
theorem ruleHolds_iff {rule : SgRule} {spec : Option PortSpec} (hspec : portOf rule = .ok spec)
    (hexp : expressible rule = true)
    (hrange : ∀ p, truthy (prefixOf rule) = some p → p ≠ "any" ∧ Config.tableRef p = none)
    (htable : ∀ g, tableUsed rule = some g → ∀ a,
      (((tables.lookup (Names.tableName g)).getD []).any fun m => lies m a) = true ↔
        ∃ ip ∈ tableIps sgInfo ports g, lies ip a = true) {f : Flow}
    (hd : rule.direction = sgDirection f.direction) :
    ruleHolds lies tables f (filterRule rule spec) = true ↔ Rendered lies sgInfo ports rule f := by
  have hproto : (protoOf rule).all (protoHolds f) = true ↔
      ∀ x, protoOf rule = some x → f.ends.family = familyNamed x ∧
        f.protocol = protocolOf x := by
    cases protoOf rule with
    | none => simp
    | some x =>
      have hone : protoHolds f x = true ↔ f.ends.family = familyNamed x ∧
          f.protocol = protocolOf x := by
        cases x <;> exact decide_eq_true_iff
      simp [hone]
  have hends : refHolds lies tables (filterRule rule spec).from_ f.ends.src = true ∧
      refHolds lies tables (filterRule rule spec).to_ f.ends.dst = true ↔
        refHolds lies tables (remote rule) (remoteEnd f) = true := by
    have hany : ∀ a, refHolds lies tables "any" a = true := fun a => rfl
    unfold filterRule remoteEnd
    cases hf : f.direction <;> rw [hf] at hd <;> simp [hd, sgDirection, hany]
  unfold ruleHolds
  simp only [Bool.and_eq_true, and_assoc]
  constructor
  · intro ⟨hp, hs, ht, hports⟩
    exact ⟨hexp, hd, hproto.mp hp, (inPorts_iff hspec).mp hports,
      (remote_holds hrange htable).mp (hends.mp ⟨hs, ht⟩)⟩
  · intro h
    obtain ⟨hs, ht⟩ := hends.mpr ((remote_holds hrange htable).mpr h.remote)
    exact ⟨hproto.mpr h.protocol, hs, ht, (inPorts_iff hspec).mpr h.inPorts⟩

/-- The rendering of a rule lets nothing through but what the rule permits, and what strays. -/
theorem permits_of_rendered {named : String → Protocol → Bool} (hnamed : ReadsProtocols named)
    {portId : String} {rule : SgRule} {f : Flow} (h : Rendered lies sgInfo ports rule f)
    (hstray : ¬ Strays lies sgInfo portId rule f) :
    rule ∈ rulesOf portId sgInfo ∧ Permits lies named sgInfo rule f := by
  unfold Strays at hstray
  simp only [not_or, not_not] at hstray
  obtain ⟨hmem, hether, hgroup⟩ := hstray
  refine ⟨hmem, h.direction, hether, ?_, h.inPorts, ?_⟩
  · intro p hp
    have hexp := h.expressible
    unfold expressible at hexp
    rw [hp] at hexp
    cases hw : PROTO.lookup p with
    | none =>
      simp only [hw] at hexp
      exact absurd hexp (by decide)
    | some w =>
      have hword : ∃ x, protoOf rule = some x ∧ protoWords.lookup w = some x := by
        have hboth := @protoOf_word rule
        rw [hp, Option.bind_some, hw] at hboth
        cases hx : protoOf rule with
        | none =>
          rw [hx] at hboth
          exact absurd hboth (by simp)
        | some x =>
          rw [hx] at hboth
          exact ⟨x, rfl, by simpa using hboth⟩
      obtain ⟨x, hx, hlook⟩ := hword
      exact (hnamed p w x hw hlook f.protocol).mpr (h.protocol x hx).2
  · rcases h.remote with hnone | hpre | ⟨hnone, g, hg, -⟩
    · exact Or.inl hnone
    · exact Or.inr (Or.inl hpre)
    · refine Or.inr (Or.inr ⟨g, hg, ?_⟩)
      by_contra hno
      refine hgroup ⟨hnone, g, hg, fun ip hip => ?_⟩
      by_contra hl
      exact hno ⟨ip, hip, by simpa using hl⟩

end

/-! ## 3. What a built filter passes

The filter that stands under a port's name belongs to the first port with that name (`holder`),
which is why the condition of `sound_iff` speaks of two ports. -/

/-- The allowances of a direction, as `build` writes them. -/
def infraItems : SgDirection → List (String × Tree)
  | .ingress => infraRules.1
  | .egress => infraRules.2

/-- The allowances stand in every built filter. -/
theorem FilterOf.infra {port : PortDetails} {sgInfo : SgInfo} {path : String} {filt : Filter}
    (h : FilterOf port sgInfo path filt) {d : Direction} {o : Int × FilterRule}
    (ho : o ∈ infraOf (sgDirection d)) : o ∈ (Pf.side filt d).entries := by
  have hread : ∀ n : Nat, ∀ t : Tree, (n = 10 ∨ n = 20) →
      (toString n, t) ∈ infraItems (sgDirection d) →
      ∃ o' ∈ (Pf.side filt d).entries, o' ∈ infraOf (sgDirection d) ∧ o'.1 = n := by
    intro n t hn he
    obtain ⟨o', ho', hr⟩ := exists_of_mem_left (h.side d) (List.mem_append_left _ he)
    exact ⟨o', ho', sideRead_infra he hr, (Text.eq_of_readInt_toString hr.1).2⟩
  have hnums : ∀ o ∈ infraOf (sgDirection d), ∀ o' ∈ infraOf (sgDirection d),
      o.1 = o'.1 → o = o' := by
    cases d <;> decide
  have hpick : ∃ n : Nat, ∃ t : Tree, o.1 = n ∧ (n = 10 ∨ n = 20) ∧
      (toString n, t) ∈ infraItems (sgDirection d) := by
    cases d with
    | in_ =>
      rcases List.mem_cons.mp ho with rfl | ho
      · exact ⟨10, _, rfl, Or.inl rfl, List.mem_cons_self⟩
      · obtain rfl := List.mem_singleton.mp ho
        exact ⟨20, _, rfl, Or.inr rfl, List.mem_cons_of_mem _ List.mem_cons_self⟩
    | out =>
      rcases List.mem_cons.mp ho with rfl | ho
      · exact ⟨10, _, rfl, Or.inl rfl, List.mem_cons_self⟩
      · obtain rfl := List.mem_singleton.mp ho
        exact ⟨20, _, rfl, Or.inr rfl, List.mem_cons_of_mem _ List.mem_cons_self⟩
  obtain ⟨n, t, hon, hn, he⟩ := hpick
  obtain ⟨o', ho', hinfra, hnum⟩ := hread n t hn he
  obtain rfl := hnums o ho o' hinfra (hon.trans hnum.symm)
  exact ho'

section

variable {lies : String → Addr → Bool} {tables : List (String × List String)} {f : Flow}

theorem allowance_iff : Allowance f ↔
    ∃ o ∈ infraOf (sgDirection f.direction), ruleHolds lies tables f o.2 = true := by
  have hany : ∀ a, refHolds lies tables "any" a = true := fun a => rfl
  have hudp : ∀ n : Int, ruleHolds lies tables f
      { action := .pass, proto := some .udp, port := some (.one n) } = true ↔
        protoHolds f .udp = true ∧ f.port = some n := by
    intro n
    have hport : (f.port.any fun d => portHolds d (.one n)) = true ↔ f.port = some n := by
      cases f.port <;> simp [portHolds]
    simp [ruleHolds, hany, hport]
  have hicmp : ruleHolds lies tables f { action := .pass, proto := some .icmp6 } = true ↔
      protoHolds f .icmp6 = true := by
    simp [ruleHolds, hany]
  unfold Allowance
  cases f.direction <;> simp [infraOf, sgDirection, hudp, hicmp]

/-- A built filter decides by a rule of the groups exactly when no allowance matches. -/
theorem FilterOf.deciding_groups {port : PortDetails} {sgInfo : SgInfo} {path : String}
    {filt : Filter} (h : FilterOf port sgInfo path filt) {e : Int × FilterRule}
    (he : deciding lies tables filt f = some e) :
    (e.1 ≠ 10 ∧ e.1 ≠ 20) ↔ ¬ Allowance f := by
  have hnums : ∀ o ∈ infraOf (sgDirection f.direction), o.1 = 10 ∨ o.1 = 20 := by
    cases f.direction <;> decide
  obtain ⟨hmem, hrule, hfirst⟩ := deciding_iff.mp he
  have hallow : Allowance f ↔
      ∃ o ∈ infraOf (sgDirection f.direction), ruleHolds lies tables f o.2 = true := allowance_iff
  rw [hallow]
  constructor
  · intro ⟨h10, h20⟩ ⟨o, ho, hholds⟩
    rcases h.rule_cases hmem with hinfra | ⟨hbase, -⟩
    · rcases hnums e hinfra with h' | h'
      · exact h10 h'
      · exact h20 h'
    · have hlt : o.1 < e.1 := by
        unfold SG_RULE_BASE at hbase
        rcases hnums o ho with h' | h' <;> omega
      rw [hfirst o (h.infra ho) hlt] at hholds
      exact absurd hholds (by decide)
  · intro hno
    rcases h.rule_cases hmem with hinfra | ⟨hbase, -⟩
    · exact absurd ⟨e, hinfra, hrule⟩ hno
    · unfold SG_RULE_BASE at hbase
      constructor <;> omega

end

section

variable [Hashlib] {ports : List PortDetails} {sgInfo : SgInfo} {mappings : Dict String String}
  {config : Config} {devices : List String}

theorem tablesUsed_eq : (stanzas ports sgInfo mappings).tablesUsed = notedGroups sgInfo ports := by
  ext g
  rw [mem_tablesUsed]
  unfold notedGroups
  simp only [List.mem_toFinset, List.mem_flatMap, List.mem_filter, and_assoc]

/-- The table of a rule of a filter holds the addresses `tableIps` says. -/
theorem Sections.table_holds (h : Sections (stanzas ports sgInfo mappings) sgInfo config)
    {port : PortDetails} {path : String} {filt : Filter} (hof : FilterOf port sgInfo path filt)
    {tables : List (String × List String)}
    (hwanted : Pf.wantedTables (some filt) config = .ok tables) {rule : SgRule}
    (hr : rule ∈ rulesOf port.portId sgInfo) (hexp : expressible rule = true) {g : String}
    (hg : tableUsed rule = some g) {lies : String → Addr → Bool} (a : Addr) :
    (((tables.lookup (Names.tableName g)).getD []).any fun m => lies m a) = true ↔
      ∃ ip ∈ tableIps sgInfo ports g, lies ip a = true := by
  have hremote : remote rule = "@" ++ Names.tableName g := by
    unfold tableUsed at hg
    unfold remote
    cases hp : truthy (prefixOf rule) with
    | some p =>
      rw [hp] at hg
      exact absurd hg (by simp)
    | none =>
      rw [hp] at hg
      simp only at hg
      simp [hg]
  have href : Names.tableName g ∈ tablesReferenced (some filt) := by
    have hdir : ∃ d, rule.direction = sgDirection d := by
      cases rule.direction with
      | ingress => exact ⟨.in_, rfl⟩
      | egress => exact ⟨.out, rfl⟩
    obtain ⟨d, hd⟩ := hdir
    obtain ⟨o, ho, -, spec, -, hrule⟩ := entry_of_rule (hof.side d) hr hexp hd
    have hend : remote rule ∈ [o.2.from_, o.2.to_] := by
      rw [hrule]
      unfold filterRule
      cases d <;> simp [hd, sgDirection]
    exact mem_tablesReferenced ho hend (hremote ▸ tableRef_group)
  obtain ⟨table, htable, hlookup⟩ := lookup_wantedTables hwanted href
  rw [h.get?_table, tablesUsed_eq] at htable
  obtain ⟨g', hg', rfl⟩ := Option.map_eq_some_iff.mp htable
  unfold tableIps
  rw [hlookup, hg', Option.getD_some, List.any_eq_true]
  simp only [mem_sortedSet, List.mem_toFinset, mem_sortedBy]

/-- **A built filter passes no more than the groups allow** exactly when each packet that the
rendering of a rule matches, of the port that holds the filter's name, is permitted by some rule
of the port's groups. The rules it can fail at are those of `Strays` (`permits_of_rendered`). -/
theorem sound_iff (hb : build ports sgInfo mappings = .ok (config, devices))
    (hranges : ∀ port ∈ ports, Ranges port sgInfo) {port : PortDetails} (hp : port ∈ ports)
    (hs : secured port = true) {lies : String → Addr → Bool}
    {named : String → Protocol → Bool} :
    ∃ keeper filt tables, holder ports (Names.filterName port.portId) = some keeper ∧
      config.filter.get? (Names.filterName port.portId) = some filt ∧
      Pf.wantedTables (some filt) config = .ok tables ∧
      ((∀ (f : Flow) (e : Int × FilterRule), deciding lies tables filt f = some e →
          e.2.action = .pass → e.1 ≠ 10 → e.1 ≠ 20 →
          ∃ rule ∈ rulesOf port.portId sgInfo, Permits lies named sgInfo rule f) ↔
        ∀ (f : Flow), ¬ Allowance f → ∀ rule ∈ rulesOf keeper.portId sgInfo,
          Rendered lies sgInfo ports rule f →
          ∃ other ∈ rulesOf port.portId sgInfo, Permits lies named sgInfo other f) := by
  obtain ⟨hsec, hdangling, -⟩ := build_eq_ok.mp hb
  obtain ⟨keeper, hkeeper⟩ := holder_of_secured hp hs
  obtain ⟨filt, hfilt⟩ := Dict.mem_iff_get?.mp (hsec.mem_filter.mpr ⟨keeper, hkeeper⟩)
  obtain ⟨keeper', hkeeper', hof⟩ := hsec.get?_filter.mp hfilt
  obtain rfl := Option.some.inj (hkeeper.symm.trans hkeeper')
  have hfilterOf : Planner.filterOf config (memberOf port none) = some filt := by
    have hname : truthy (memberOf port none).filter = some (Names.filterName port.portId) := by
      refine truthy_eq_some.mpr ⟨if_pos hs, fun hnil => ?_⟩
      have := congrArg String.length hnil
      simp [Names.filterName] at this
    unfold Planner.filterOf
    rw [hname]
    exact hfilt
  have hwanted := @Planner.Checked.tablesOf _ (hsec.checked hdangling) (memberOf port none)
  rw [hfilterOf] at hwanted
  refine ⟨keeper, filt, _, hkeeper, hfilt, hwanted, ?_⟩
  -- the rendering of a rule of the keeper, in the filter's tables
  have hrendered : ∀ {rule : SgRule} {spec : Option PortSpec} {f : Flow},
      rule ∈ rulesOf keeper.portId sgInfo → expressible rule = true →
      portOf rule = .ok spec → rule.direction = sgDirection f.direction →
      (ruleHolds lies (Planner.tablesOf config (memberOf port none)) f (filterRule rule spec) =
        true ↔ Rendered lies sgInfo ports rule f) := by
    intro rule spec f hr hexp hspec hd
    refine ruleHolds_iff hspec hexp ?_ ?_ hd
    · exact hranges keeper (holder_mem hkeeper).1 rule hr
    · intro g hg a
      exact hsec.table_holds hof hwanted hr hexp hg a
  constructor
  · -- a rendered rule holds, so some rule of the filter decides, and it is none of the allowances
    intro hsound f hno rule hr hren
    obtain ⟨o, ho, -, spec, hspec, hrule⟩ :=
      entry_of_rule (hof.side f.direction) hr hren.expressible hren.direction
    have hholds := (hrendered hr hren.expressible hspec hren.direction).mpr hren
    rw [← hrule] at hholds
    cases hd : deciding lies (Planner.tablesOf config (memberOf port none)) filt f with
    | none =>
      rw [deciding_eq_none.mp hd o ho] at hholds
      exact absurd hholds (by decide)
    | some e =>
      obtain ⟨h10, h20⟩ := (hof.deciding_groups hd).mpr hno
      exact hsound f e hd (hof.passes (deciding_iff.mp hd).1) h10 h20
  · -- what decides is an allowance, which the groups shut out, or a rule of the keeper
    intro hpermitted f e hd _ h10 h20
    have hno := (hof.deciding_groups hd).mp ⟨h10, h20⟩
    obtain ⟨hmem, hholds, -⟩ := deciding_iff.mp hd
    rcases hof.rule_cases hmem with hinfra | ⟨-, rule, hr, hexp, hdir, spec, hspec, hrule⟩
    · exact absurd (allowance_iff.mpr ⟨e, hinfra, hholds⟩) hno
    · rw [hrule] at hholds
      exact hpermitted f hno rule hr ((hrendered hr hexp hspec hdir).mp hholds)

end

/-! ## 4. An IPv6 rule that lets IPv4 in

One port with one rule, "any IPv6 traffic from anywhere". Rendered without its ethertype, it is a
rule without a family, and an IPv4 packet meets it. -/

/-- Any IPv6 traffic from anywhere. -/
def sixRule : SgRule := { direction := .ingress, ethertype := some "IPv6" }

def sixInfo : SgInfo :=
  { securityGroups := ⟨[("g0", [sixRule])], List.nodup_singleton _⟩
    devices := ⟨[("p0", ["g0"])], List.nodup_singleton _⟩ }

def sixPort : PortDetails := { portId := "p0", networkId := "n0" }

/-- An IPv4 packet to the port. -/
def fourFlow : Flow :=
  { direction := .in_, ends := .v4 0x0a000009 0x0a000007, protocol := .tcp, port := some 22 }

/-- The protocols by the names `PROTO` lists. -/
def protoNamed (p : String) (q : Protocol) : Bool :=
  ((PROTO.lookup p).bind fun w => protoWords.lookup w).any fun x => decide (q = protocolOf x)

theorem protoNamed_reads : ReadsProtocols protoNamed := by
  intro p w x hp hw q
  unfold protoNamed
  rw [hp, Option.bind_some, hw, Option.any_some, decide_eq_true_eq]

theorem ranges_six : ∀ port ∈ [sixPort], Ranges port sixInfo := by
  intro port hp rule hr p hpre
  obtain rfl := List.mem_singleton.mp hp
  obtain rfl := List.mem_singleton.mp hr
  exact absurd hpre (by simp [prefixOf, sixRule, truthy])

/-- What the build of that port makes. -/
def sixConfig : Config := ((@build ⟨id⟩ [sixPort] sixInfo ∅).toOption.map Prod.fst).getD {}

theorem build_six : ∃ devices, @build ⟨id⟩ [sixPort] sixInfo ∅ = .ok (sixConfig, devices) := by
  have hok : (@build ⟨id⟩ [sixPort] sixInfo ∅).toOption.isSome = true := by decide +kernel
  unfold sixConfig
  cases hb : @build ⟨id⟩ [sixPort] sixInfo ∅ with
  | error e =>
    rw [hb] at hok
    exact absurd hok (by simp [Except.toOption])
  | ok r => exact ⟨r.2, rfl⟩

/-- The packet meets the rendering of the IPv6 rule. -/
theorem six_decides : ∃ filt tables e,
    sixConfig.filter.get? (Names.filterName "p0") = some filt ∧
      Pf.wantedTables (some filt) sixConfig = .ok tables ∧
      deciding (fun _ _ => false) tables filt fourFlow = some e ∧ e.2.action = .pass ∧
      e.1 = 100 := by
  have hall : ((sixConfig.filter.get? (Names.filterName "p0")).bind fun filt =>
      (Pf.wantedTables (some filt) sixConfig).toOption.bind fun tables =>
        (deciding (fun _ _ => false) tables filt fourFlow).map fun e => (e.2.action, e.1)) =
      some (.pass, 100) := by
    decide +kernel
  obtain ⟨filt, hfilt, hrest⟩ := Option.bind_eq_some_iff.mp hall
  obtain ⟨tables, htables, hrest⟩ := Option.bind_eq_some_iff.mp hrest
  obtain ⟨e, he, heq⟩ := Option.map_eq_some_iff.mp hrest
  obtain ⟨hact, hnum⟩ := Prod.mk.inj heq
  refine ⟨filt, tables, e, hfilt, ?_, he, hact, hnum⟩
  cases hw : Pf.wantedTables (some filt) sixConfig with
  | error x =>
    rw [hw] at htables
    exact absurd htables (by simp [Except.toOption])
  | ok ts =>
    rw [hw] at htables
    rw [Option.some.inj htables]

/-- A built filter can pass what no group permits. -/
theorem ethertype_dropped : ¬ ∀ (inst : Hashlib) (ports : List PortDetails) (sgInfo : SgInfo)
    (mappings : Dict String String) (config : Config) (devices : List String)
    (port : PortDetails) (lies : String → Addr → Bool) (named : String → Protocol → Bool)
    (filt : Filter) (tables : List (String × List String)),
    @build inst ports sgInfo mappings = .ok (config, devices) →
    (∀ port ∈ ports, Ranges port sgInfo) → port ∈ ports → secured port = true →
    ReadsProtocols named → config.filter.get? (Names.filterName port.portId) = some filt →
    Pf.wantedTables (some filt) config = .ok tables →
    ∀ (f : Flow) (e : Int × FilterRule), deciding lies tables filt f = some e →
      e.2.action = .pass → e.1 ≠ 10 → e.1 ≠ 20 →
      ∃ rule ∈ rulesOf port.portId sgInfo, Permits lies named sgInfo rule f := by
  intro h
  obtain ⟨devices, hb⟩ := build_six
  obtain ⟨filt, tables, e, hfilt, hwanted, he, hact, hnum⟩ := six_decides
  obtain ⟨rule, hr, hpermits⟩ := h ⟨id⟩ [sixPort] sixInfo ∅ sixConfig devices sixPort
    (fun _ _ => false) protoNamed filt tables hb ranges_six List.mem_cons_self (by decide)
    protoNamed_reads hfilt hwanted fourFlow e he hact (by omega) (by omega)
  obtain rfl := List.mem_singleton.mp hr
  exact absurd hpermits.ethertype (by decide)

theorem sound_iff_six : ∃ keeper filt tables,
    holder [sixPort] (Names.filterName sixPort.portId) = some keeper ∧
      sixConfig.filter.get? (Names.filterName sixPort.portId) = some filt ∧
      Pf.wantedTables (some filt) sixConfig = .ok tables ∧
      ((∀ (f : Flow) (e : Int × FilterRule), deciding (fun _ _ => false) tables filt f = some e →
          e.2.action = .pass → e.1 ≠ 10 → e.1 ≠ 20 →
          ∃ rule ∈ rulesOf sixPort.portId sixInfo,
            Permits (fun _ _ => false) protoNamed sixInfo rule f) ↔
        ∀ (f : Flow), ¬ Allowance f → ∀ rule ∈ rulesOf keeper.portId sixInfo,
          Rendered (fun _ _ => false) sixInfo [sixPort] rule f →
          ∃ other ∈ rulesOf sixPort.portId sixInfo,
            Permits (fun _ _ => false) protoNamed sixInfo other f) := by
  obtain ⟨devices, hb⟩ := build_six
  exact @sound_iff ⟨id⟩ _ _ _ _ _ hb ranges_six _ List.mem_cons_self (by decide) _ _

end PortConfig

end Bsdbridge
