import Bsdbridge.Proof.Lock
import Bsdbridge.Proof.Permits

/-!
# What the groups permit gets through

`Proof.Permits` bounds what a port's filter lets through; a filter that passes nothing meets that
bound. This file is the other direction, and on the anchor as pf evaluates it rather than on the
filter: **`anchor_pass_iff`** says which packets it passes, in terms of the port's rules, its lock
and the allowances, and **`permitted_passes`** that an IPv4 packet a rule of the port's groups
permits is one of them, once its source is the port's own.

What a rule says and its rendering does not is left out by name: a protocol pf has no word for
(`expressible`), and the IPv6 members of a group, which no table holds. IPv6 packets are left out
altogether, and so is ICMPv6 in an IPv4 packet, which no rendering has a line for.

## Its hypotheses

They are those under which the port's names and texts are its own (`Own`, `Texts`, `Tabled`), and
one that Neutron checks: a rule has a prefix or a group, not both. A rule with both would be
rendered with its prefix alone, and what the group permits in addition would be blocked. Where two
groups share the cut name of a table, the table holds the members of one of them; `Tabled` excludes
that, and the converse direction in `Proof/Permits` has to live with it.
-/

set_option autoImplicit false

namespace Bsdbridge

open PacketFilter (Addr Family Protocol)

namespace PortConfig

open Pf

/-! ## 1. The lock -/

section

variable (lies : String → Addr → Bool)

/-- The lock of a port lets a packet by: it is not an outbound IPv4 packet, or it comes from the
address of the bind, or there is no bind. -/
def Admitted (port : PortDetails) (f : Flow) : Prop :=
  f.direction = .out → f.ends.family = .inet → ∀ bind, bindOf port = .ok (some bind) →
    lies bind.address f.ends.src = true

end

/-- A DHCP request is one of the allowances of its direction. -/
theorem allowance_of_request {f : Flow} (hd : f.direction = .out) (h : dhcpRequest f = true) :
    Allowance f := by
  unfold dhcpRequest at h
  obtain ⟨hends, hproto, hport⟩ := of_decide_eq_true h
  unfold Allowance
  rw [hd]
  refine Or.inl ⟨?_, hport⟩
  simp [protoHolds, hends, hproto, PacketFilter.Ends.family]

section

variable {lies : String → Addr → Bool} {tables : List (String × List String)} {filt : Filter}
  {port : PortDetails} {bind : Option Bind}

/-- What a filter behind a lock passes. -/
theorem means_pass_iff (hbind : bindOf port = .ok bind) {f : Flow} :
    means lies tables (some filt) bind f = .pass ↔
      (f.direction = .out ∧ f.ends.family = .inet ∧ bind.isSome = true ∧ dhcpRequest f = true) ∨
        (Admitted lies port f ∧ filterMeans lies tables (some filt) f = .pass) := by
  have hadmitted : Admitted lies port f ↔ (f.direction = .out → f.ends.family = .inet →
      ∀ b, bind = some b → lies b.address f.ends.src = true) := by
    unfold Admitted
    rw [hbind]
    simp only [Except.ok.injEq]
  rw [hadmitted]
  unfold means
  cases bind with
  | none => simp
  | some b =>
    by_cases hout : f.direction = .out ∧ f.ends.family = .inet
    · simp only [hout, and_self, if_true, Option.isSome_some, true_and, Option.some.injEq,
        forall_eq', forall_const]
      cases dhcpRequest f <;> cases lies b.address f.ends.src <;> simp
    · simp only [hout, if_false]
      have hno : ∀ q : Prop, ¬ (f.direction = .out ∧ f.ends.family = .inet ∧ q) := by tauto
      simp only [hno, false_or, iff_and_self]
      intro _ hd hf
      exact absurd ⟨hd, hf⟩ hout

end

/-! ## 2. The anchor

An `iff`, so that both directions can be read off: nothing else passes, and all of this does. -/

section

variable [Hashlib] {ports : List PortDetails} {sgInfo : SgInfo} {mappings : Dict String String}
  {config : Config} {devices : List String} {port : PortDetails} {lies : String → Addr → Bool}

/-- A built filter passes the allowances, and what the rendering of a rule of the port matches. -/
theorem Sections.filterMeans_pass_iff
    (h : Sections (stanzas ports sgInfo mappings) sgInfo config) {path : String} {filt : Filter}
    (hof : FilterOf port sgInfo path filt) (hranges : Ranges port sgInfo)
    {tables : List (String × List String)}
    (hwanted : Pf.wantedTables (some filt) config = .ok tables) {f : Flow} :
    filterMeans lies tables (some filt) f = .pass ↔
      Allowance f ∨ ∃ rule ∈ rulesOf port.portId sgInfo, Rendered lies sgInfo ports rule f := by
  have hrendered : ∀ {rule : SgRule} {spec : Option PortSpec},
      rule ∈ rulesOf port.portId sgInfo → expressible rule = true → portOf rule = .ok spec →
      rule.direction = sgDirection f.direction →
      (ruleHolds lies tables f (filterRule rule spec) = true ↔
        Rendered lies sgInfo ports rule f) := by
    intro rule spec hr hexp hspec hd
    exact ruleHolds_iff hspec hexp (hranges rule hr)
      (fun g hg a => h.table_holds hof hwanted hr hexp hg a) hd
  rw [hof.means_pass]
  constructor
  · rintro ⟨o, ho, hholds⟩
    rcases hof.rule_cases ho with hinfra | ⟨-, rule, hr, hexp, hd, spec, hspec, hrule⟩
    · exact Or.inl (allowance_iff.mpr ⟨o, hinfra, hholds⟩)
    · rw [hrule] at hholds
      exact Or.inr ⟨rule, hr, (hrendered hr hexp hspec hd).mp hholds⟩
  · rintro (hallow | ⟨rule, hr, hren⟩)
    · obtain ⟨o, hinfra, hholds⟩ := allowance_iff.mp hallow
      exact ⟨o, hof.infra hinfra, hholds⟩
    · obtain ⟨o, ho, -, spec, hspec, hrule⟩ :=
        entry_of_rule (hof.side f.direction) hr hren.expressible hren.direction
      refine ⟨o, ho, ?_⟩
      rw [hrule]
      exact (hrendered hr hren.expressible hspec hren.direction).mpr hren

omit [Hashlib] in
theorem Texts.ranges_of (ht : Texts port sgInfo) : Ranges port sgInfo := by
  intro rule hr p hp
  obtain ⟨htext, hno⟩ := ht.ranges rule hr p hp
  exact ⟨htext.notAny, hno⟩

/-- **The anchor of a built port passes** a packet that its lock lets by and that is one of the
allowances or matches the rendering of a rule of the port, and no other packet. -/
theorem anchor_pass_iff (hb : build ports sgInfo mappings = .ok (config, devices))
    (hp : port ∈ ports) (hown : Own ports port) (hs : secured port = true)
    (ht : Texts port sgInfo) (haddr : ∀ ip, ipv4Of port = some ip → HostText ip)
    (hdhcp : ReadsDhcp lies) :
    ∃ anchor, anchorOf config (bridgeOf port) (ifName port) = some anchor ∧
      ∀ f : Flow, PacketFilter.evaluate (meaningOf lies anchor.tables) anchor.rules
          (f.packet (ifName port)) = some .pass ↔
        (f.direction = .out ∧ f.ends.family = .inet ∧ dhcpRequest f = true) ∨
          (Admitted lies port f ∧ (Allowance f ∨
            ∃ rule ∈ rulesOf port.portId sgInfo, Rendered lies sgInfo ports rule f)) := by
  obtain ⟨bind, filt, anchor, hbind, hanchor, hof, heval⟩ :=
    built_anchor hb hown hp hs ht haddr hdhcp
  obtain ⟨hsections, hdangling, -⟩ := build_eq_ok.mp hb
  have hwanted := @Planner.Checked.tablesOf _ (hsections.checked hdangling) (memberOf port bind)
  obtain ⟨filt', hfilt', hof'⟩ := @Sections.filter_own _ _ _ _ _ _ hsections hown hp hs bind
  -- one tree is read as one filter
  have hone : filt' = filt :=
    Except.ok.inj ((filterTree_ok.mpr hof').symm.trans (filterTree_ok.mpr hof))
  rw [hfilt', hone] at hwanted
  have hverdict : ∀ a : Action, some (verdictOf a) = some PacketFilter.Verdict.pass ↔
      a = .pass := by
    intro a
    cases a <;> decide
  refine ⟨anchor, hanchor, fun f => ?_⟩
  rw [heval, hverdict, means_pass_iff hbind,
    hsections.filterMeans_pass_iff hof ht.ranges_of hwanted]
  constructor
  · rintro (⟨hd, hf, -, hreq⟩ | hrest)
    · exact Or.inl ⟨hd, hf, hreq⟩
    · exact Or.inr hrest
  · rintro (⟨hd, hf, hreq⟩ | hrest)
    · cases hbind' : bind with
      | some b => exact Or.inl ⟨hd, hf, rfl, hreq⟩
      | none =>
        refine Or.inr ⟨?_, Or.inl (allowance_of_request hd hreq)⟩
        intro _ _ b hb'
        rw [hbind, hbind'] at hb'
        exact absurd (Except.ok.inj hb') (by simp)
    · exact Or.inr hrest

/-! ## 3. The groups

From what a rule permits to what its rendering matches, remote by remote. -/

/-- What Neutron checks of a rule: it has a prefix or a group, not both. -/
def OneRemote (portId : String) (sgInfo : SgInfo) : Prop :=
  ∀ rule ∈ rulesOf portId sgInfo,
    truthy (prefixOf rule) = none ∨ truthy rule.remoteGroupId = none

/-- The groups in use do not share table names, and none of their IPv6 members is the spelling of
an IPv4 address. -/
structure Tabled (lies : String → Addr → Bool) (ports : List PortDetails) (sgInfo : SgInfo) :
    Prop where
  named : ∀ g ∈ notedGroups sgInfo ports, ∀ g' ∈ notedGroups sgInfo ports,
    Names.tableName g = Names.tableName g' → g = g'
  six : ∀ g, ∀ ip ∈ ((sgInfo.sgMemberIps.get? g).getD {}).ipv6, ∀ x, lies ip (.v4 x) = false

omit [Hashlib] in
/-- The table of a group in use holds the IPv4 members of the group. -/
theorem Tabled.tableIps_eq (h : Tabled lies ports sgInfo) {g : String}
    (hg : g ∈ notedGroups sgInfo ports) :
    tableIps sgInfo ports g = ((sgInfo.sgMemberIps.get? g).getD {}).ipv4 := by
  have hfound : (groupOf (notedGroups sgInfo ports) (Names.tableName g)).isSome = true := by
    unfold groupOf
    rw [List.find?_isSome]
    exact ⟨g, List.mem_reverse.mpr (mem_sortedSet.mpr hg), by simp⟩
  obtain ⟨g', hg'⟩ := Option.isSome_iff_exists.mp hfound
  obtain ⟨hmem, hname⟩ := groupOf_mem hg'
  unfold tableIps
  rw [hg', h.named g' hmem g hg hname]

omit [Hashlib] in
/-- What a rule permits of IPv4, its rendering matches, where pf has a word for it. -/
theorem rendered_of_permits {named : String → Protocol → Bool} (hnamed : ReadsProtocols named)
    (htabled : Tabled lies ports sgInfo) (hone : OneRemote port.portId sgInfo) (hp : port ∈ ports)
    (hs : secured port = true) {rule : SgRule} (hr : rule ∈ rulesOf port.portId sgInfo)
    (hexp : expressible rule = true) {f : Flow} (hf : f.ends.family = .inet)
    (hicmp : f.protocol ≠ .icmp6) (h : Permits lies named sgInfo rule f) :
    Rendered lies sgInfo ports rule f := by
  refine ⟨hexp, h.direction, fun x hx => ?_, h.ports, ?_⟩
  · obtain ⟨w, hw, hword⟩ := Option.bind_eq_some_iff.mp hx
    obtain ⟨p, hproto, hlookup⟩ := Option.bind_eq_some_iff.mp hw
    have hsame := (hnamed p w x hlookup hword f.protocol).mp (h.protocol p hproto)
    refine ⟨?_, hsame⟩
    rw [hf]
    cases x with
    | icmp6 => exact absurd hsame hicmp
    | _ => rfl
  · rcases h.remote with hany | hprefix | ⟨g, hg, ip, hip, hlies⟩
    · exact Or.inl hany
    · exact Or.inr (Or.inl hprefix)
    · have hnone : truthy (prefixOf rule) = none := by
        rcases hone rule hr with hpre | hgroup
        · exact hpre
        · rw [hg] at hgroup
          exact absurd hgroup (by simp)
      have hused : tableUsed rule = some g := by
        unfold tableUsed
        rw [hnone]
        exact hg
      -- the group is noted for this port's rule, so build has rendered its table
      have hnoted : g ∈ notedGroups sgInfo ports := by
        refine List.mem_toFinset.mpr (List.mem_flatMap.mpr ⟨port, ?_, ?_⟩)
        · exact List.mem_filter.mpr ⟨hp, hs⟩
        · exact List.mem_filterMap.mpr ⟨rule, List.mem_filter.mpr ⟨hr, hexp⟩, hused⟩
      refine Or.inr (Or.inr ⟨hnone, g, hg, ip, ?_, hlies⟩)
      rw [htabled.tableIps_eq hnoted]
      rcases List.mem_append.mp hip with hfour | hsix
      · exact hfour
      · obtain ⟨x, hx⟩ : ∃ x, remoteEnd f = .v4 x := by
          unfold remoteEnd
          cases he : f.ends with
          | v4 s d => cases f.direction <;> exact ⟨_, rfl⟩
          | v6 s d =>
            rw [he] at hf
            exact absurd hf (by simp [PacketFilter.Ends.family])
        rw [hx, htabled.six g ip hsix x] at hlies
        exact absurd hlies (by decide)

/-- **What the groups permit gets through**: an IPv4 packet that some rule of the port's groups
permits, one that pf can express, passes the port's anchor when the port's lock lets it by. -/
theorem permitted_passes (hb : build ports sgInfo mappings = .ok (config, devices))
    (hp : port ∈ ports) (hown : Own ports port) (hs : secured port = true)
    (ht : Texts port sgInfo) (haddr : ∀ ip, ipv4Of port = some ip → HostText ip)
    (hdhcp : ReadsDhcp lies) {named : String → Protocol → Bool} (hnamed : ReadsProtocols named)
    (htabled : Tabled lies ports sgInfo) (hone : OneRemote port.portId sgInfo) :
    ∃ anchor, anchorOf config (bridgeOf port) (ifName port) = some anchor ∧
      ∀ f : Flow, f.ends.family = .inet → f.protocol ≠ .icmp6 → Admitted lies port f →
        (∃ rule ∈ rulesOf port.portId sgInfo, expressible rule = true ∧
          Permits lies named sgInfo rule f) →
        PacketFilter.evaluate (meaningOf lies anchor.tables) anchor.rules
          (f.packet (ifName port)) = some .pass := by
  obtain ⟨anchor, hanchor, hpass⟩ := anchor_pass_iff hb hp hown hs ht haddr hdhcp
  refine ⟨anchor, hanchor, ?_⟩
  rintro f hf hicmp hadm ⟨rule, hr, hexp, hpermits⟩
  refine (hpass f).mpr (Or.inr ⟨hadm, Or.inr ⟨rule, hr, ?_⟩⟩)
  exact rendered_of_permits hnamed htabled hone hp hs hr hexp hf hicmp hpermits

end

/-! ## 4. Two groups of clients

The port is open to one group on a port of tcp, and to another on anything. -/

def friendRules : List SgRule :=
  [{ direction := .ingress, ethertype := some "IPv4", protocol := some "tcp"
     portRangeMin := some 80, portRangeMax := some 80, remoteGroupId := some "g1" },
   { direction := .ingress, ethertype := some "IPv4", remoteGroupId := some "g2" }]

def friendInfo : SgInfo :=
  { securityGroups := Dict.ofList [("g0", friendRules)]
    devices := Dict.ofList [("p0", ["g0"])]
    sgMemberIps := Dict.ofList [("g1", { ipv4 := ["10.0.0.8"], ipv6 := ["fd00::8"] }),
      ("g2", { ipv4 := ["10.0.0.9"] })] }

/-- The config of the port. -/
def friendConfig : Config :=
  ((@build ⟨id⟩ [twoPort] friendInfo ∅).toOption.map Prod.fst).getD {}

theorem build_friend : ∃ devices,
    @build ⟨id⟩ [twoPort] friendInfo ∅ = .ok (friendConfig, devices) := by
  have hok : (@build ⟨id⟩ [twoPort] friendInfo ∅).toOption.isSome = true := by decide +kernel
  unfold friendConfig
  cases hb : @build ⟨id⟩ [twoPort] friendInfo ∅ with
  | error e =>
    rw [hb] at hok
    exact absurd hok (by simp [Except.toOption])
  | ok r => exact ⟨r.2, rfl⟩

theorem texts_friend : Texts twoPort friendInfo := by
  have hid : Text.Word "p0" := by decide +kernel
  have hrules : ∀ rule ∈ rulesOf twoPort.portId friendInfo, truthy (prefixOf rule) = none ∧
      ∀ g, rule.remoteGroupId = some g → Text.Word g := by decide +kernel
  refine ⟨hid.noSpace, ?_, ?_⟩
  · intro rule hr p hp
    rw [(hrules rule hr).1] at hp
    exact absurd hp (by simp)
  · intro rule hr g hg
    exact ((hrules rule hr).2 g hg).noSpace

theorem tabled_friend : Tabled quadLies [twoPort] friendInfo where
  named := by
    have hnoted : notedGroups friendInfo [twoPort] = {"g1", "g2"} := by decide +kernel
    rw [hnoted]
    decide +kernel
  six := by
    have hall : ∀ e ∈ friendInfo.sgMemberIps.entries, ∀ ip ∈ e.2.ipv6, quads.lookup ip = none := by
      decide
    intro g ip hip x
    cases hget : friendInfo.sgMemberIps.get? g with
    | none =>
      rw [hget] at hip
      exact absurd hip List.not_mem_nil
    | some ms =>
      rw [hget] at hip
      unfold quadLies
      rw [hall (g, ms) (Dict.get?_eq_some.mp hget) ip hip]
      rfl

/-- A member of either group gets through to what its group is let in to. -/
theorem permitted_passes_two :
    ∃ anchor, @anchorOf ⟨id⟩ friendConfig (@bridgeOf ⟨id⟩ twoPort) (ifName twoPort) =
        some anchor ∧
      PacketFilter.evaluate (meaningOf quadLies anchor.tables) anchor.rules
        ((webRequest 0x0a000008).packet (ifName twoPort)) = some .pass ∧
      ∀ f : Flow, f.ends.family = .inet → f.protocol ≠ .icmp6 → Admitted quadLies twoPort f →
        (∃ rule ∈ rulesOf twoPort.portId friendInfo, expressible rule = true ∧
          Permits quadLies protoNamed friendInfo rule f) →
        PacketFilter.evaluate (meaningOf quadLies anchor.tables) anchor.rules
          (f.packet (ifName twoPort)) = some .pass := by
  obtain ⟨devices, hb⟩ := build_friend
  have haddr : ∀ ip, ipv4Of twoPort = some ip → HostText ip := by
    intro ip hip
    rw [ipv4Of_eq] at hip
    exact (addr_two ip (List.mem_of_mem_head? hip)).1
  have hone : OneRemote twoPort.portId friendInfo := by
    intro rule hr
    exact Or.inl ((by decide : ∀ r ∈ friendRules, truthy (prefixOf r) = none) rule hr)
  obtain ⟨anchor, hanchor, hpass⟩ := @permitted_passes ⟨id⟩ _ _ _ _ _ _ _ hb List.mem_cons_self
    own_two (by decide) texts_friend haddr quadLies_reads _ protoNamed_reads tabled_friend hone
  refine ⟨anchor, hanchor, hpass _ rfl (by decide) (fun hd => absurd hd (by decide)) ?_, hpass⟩
  refine ⟨_, List.mem_cons_self, by decide, rfl, rfl, fun p hp => ?_, fun lo hi hports => ?_, ?_⟩
  · obtain rfl := Option.some.inj hp
    decide
  · obtain ⟨rfl, rfl⟩ := Prod.mk.inj (Option.some.inj hports)
    exact ⟨80, rfl, by decide, by decide⟩
  · exact Or.inr (Or.inr ⟨"g1", by decide, "10.0.0.8", by decide, by decide⟩)

end PortConfig

end Bsdbridge
