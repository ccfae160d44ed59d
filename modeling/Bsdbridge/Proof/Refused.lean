import Bsdbridge.Proof.Total

/-!
# Which rules break the host

With what Neutron promises, a filter that cannot be spelled and a rule pf cannot load both come
from an ICMP rule with a type: the type is taken for a port, and a port it is not.
**`built_loadable_iff`** states the two together: the builder returns and pf takes every filter of
the config exactly when no rule that ends up in a filter keeps a type where ports are kept.

The two failures differ in their reach, and neither is confined to its rule. A type that is no port
number refuses the whole build, and no port of the host is configured: 0, say, or 8 with the code
0, which spells a range the wrong way round. Any other type is spelled as a port; the config is
built, and pf refuses the anchor of that one port, since it takes a port with TCP and UDP only
(`Loadable`).

Only the rules of `holder`s count, since a filter that is overwritten by another port's under the
same cut name is never read. The second clause of the condition is about the numerals of rule
numbers (`Numberable`).
-/

set_option autoImplicit false

namespace Bsdbridge

namespace PortConfig

/-- pf takes a port with TCP and UDP only, and rejects the whole anchor otherwise. -/
def Loadable (filt : Filter) : Prop :=
  ∀ e ∈ filt.in_.entries ++ filt.out.entries, e.2.port.isSome = true →
    e.2.proto = some .tcp ∨ e.2.proto = some .udp

/-- Only a TCP or UDP rule names ports. -/
def PortsOnly (rule : SgRule) : Prop :=
  rule.portRangeMin.isSome = true →
    rule.protocol = some "tcp" ∨ rule.protocol = some "udp"

theorem protoOf_ports {rule : SgRule} :
    (protoOf rule = some .tcp ∨ protoOf rule = some .udp) ↔
      rule.protocol = some "tcp" ∨ rule.protocol = some "udp" := by
  unfold protoOf
  cases hp : rule.protocol with
  | none => simp
  | some p =>
    by_cases h1 : p = "tcp"
    · subst h1
      decide
    by_cases h2 : p = "udp"
    · subst h2
      decide
    have hother : ∀ w, PROTO.lookup p = some w → w = "icmp" ∨ w = "icmp6" := by
      intro w hw
      unfold PROTO at hw
      simp only [List.lookup_cons, List.lookup_nil, beq_eq_false_iff_ne.mpr h1,
        beq_eq_false_iff_ne.mpr h2] at hw
      repeat' split at hw
      all_goals simp_all
    refine iff_of_false ?_ (by simp [h1, h2])
    cases hw : PROTO.lookup p with
    | none => simp [hw]
    | some w =>
      simp only [Option.bind_some, hw]
      rcases hother w hw with rfl | rfl <;> decide

/-- A rule names a port exactly when it has a lower bound. -/
theorem portOf_isSome {rule : SgRule} {spec : Option PortSpec} (h : portOf rule = .ok spec) :
    spec.isSome = rule.portRangeMin.isSome := by
  have hspec := portOf_ok.mp h
  unfold portRange at hspec
  cases hmin : rule.portRangeMin with
  | none =>
    simp only [hmin, Option.map_none] at hspec
    rw [hspec]
    rfl
  | some lo =>
    simp only [hmin, Option.map_some] at hspec
    rw [hspec.2.2.2]
    rfl

/-- What Neutron accepted can be spelled, if its ports are ports. -/
theorem portOf_total {rule : SgRule} (hvalid : ValidRule rule) (hports : PortsOnly rule) :
    ∃ spec, portOf rule = .ok spec := by
  cases hmin : rule.portRangeMin with
  | none => exact ⟨none, portOf_ok.mpr (by simp [portRange, hmin])⟩
  | some lo =>
    have htcp := hports (by rw [hmin]; rfl)
    rcases hvalid.ports htcp with ⟨hnone, -⟩ | ⟨lo', hi, hlo, hhi, h1, h2, h3⟩
    · exact absurd (hmin.symm.trans hnone) (by simp)
    · obtain rfl := Option.some.inj (hmin.symm.trans hlo)
      refine ⟨some (if lo = hi then .one lo else .range lo hi), portOf_ok.mpr ?_⟩
      simpa [portRange, hmin, hhi] using ⟨h1, h2, h3⟩

/-- The rules of a built side: an allowance, or a rule of the port's groups. -/
theorem loadable_side {dir : SgDirection} {rules : List SgRule} {path : String}
    {out : Dict Int FilterRule}
    (h : List.Forall₂ (SideRead path) (sideItems dir rules) out.entries) :
    (∀ e ∈ out.entries, e.2.port.isSome = true →
        e.2.proto = some .tcp ∨ e.2.proto = some .udp) ↔
      ∀ rule ∈ rules, expressible rule = true → rule.direction = dir → PortsOnly rule := by
  constructor
  · intro hload rule hr hexp hd hmin
    obtain ⟨o, ho, -, spec, hspec, hrule⟩ := entry_of_rule h hr hexp hd
    have hported := hload o ho
    rw [hrule] at hported
    exact protoOf_ports.mp (hported ((portOf_isSome hspec).trans hmin))
  · intro honly e he hsome
    rcases rule_of_entry h he with hinfra | ⟨-, rule, hr, hexp, hd, spec, hspec, hrule⟩
    · have hudp : ∀ e ∈ infraOf dir, e.2.port.isSome = true → e.2.proto = some .udp := by
        cases dir <;> decide
      exact Or.inr (hudp e hinfra hsome)
    · rw [hrule] at hsome ⊢
      exact protoOf_ports.mpr (honly rule hr hexp hd ((portOf_isSome hspec).symm.trans hsome))

theorem mem_rulesOf {portId : String} {sgInfo : SgInfo} {rule : SgRule}
    (h : rule ∈ rulesOf portId sgInfo) :
    ∃ g rules, sgInfo.securityGroups.get? g = some rules ∧ rule ∈ rules := by
  obtain ⟨g, -, hg⟩ := List.mem_flatMap.mp h
  cases hget : sgInfo.securityGroups.get? g with
  | none =>
    rw [hget] at hg
    exact absurd hg List.not_mem_nil
  | some rules =>
    rw [hget] at hg
    exact ⟨g, rules, hget, hg⟩

/-- **The builder keeps the host running** exactly when no rule of a port that holds a filter
keeps an ICMP type where ports are kept (and no filter has more rules than numbers). -/
theorem built_loadable_iff [Hashlib] {ports : List PortDetails} {sgInfo : SgInfo}
    {mappings : Dict String String} (hports : ∀ port ∈ ports, WellFormed port)
    (htrunks : Trunks mappings)
    (hrules : ∀ g rules, sgInfo.securityGroups.get? g = some rules →
      ∀ rule ∈ rules, ValidRule rule) :
    (∃ config devices, build ports sgInfo mappings = .ok (config, devices) ∧
        ∀ fname filt, config.filter.get? fname = some filt → Loadable filt) ↔
      ∀ fname port, holder ports fname = some port →
        (∀ rule ∈ rulesOf port.portId sgInfo, expressible rule = true → PortsOnly rule) ∧
          ∀ dir, Numberable (bodies dir (rulesOf port.portId sgInfo)).length := by
  have hvalid : ∀ portId, ∀ rule ∈ rulesOf portId sgInfo, ValidRule rule := by
    intro portId rule hr
    obtain ⟨g, rules, hget, hmem⟩ := mem_rulesOf hr
    exact hrules g rules hget rule hmem
  have htotal := build_total hports htrunks
    fun port _ rule hr => (hvalid port.portId rule hr).cidr
  constructor
  · rintro ⟨config, devices, hbuild, hload⟩ fname port hport
    have hspell := htotal.mp ⟨config, devices, hbuild⟩ fname port hport
    obtain ⟨hsec, -, -⟩ := build_eq_ok.mp hbuild
    obtain ⟨filt, hfilt⟩ := Dict.mem_iff_get?.mp (hsec.mem_filter.mpr ⟨port, hport⟩)
    obtain ⟨port', hport', hof⟩ := hsec.get?_filter.mp hfilt
    obtain rfl := Option.some.inj (hport.symm.trans hport')
    have hboth := hload fname filt hfilt
    refine ⟨fun rule hr hexp => ?_, fun dir => (hspell dir).2⟩
    cases hd : rule.direction with
    | ingress =>
      exact (loadable_side hof.in_).mp (fun e he => hboth e (List.mem_append_left _ he))
        rule hr hexp hd
    | egress =>
      exact (loadable_side hof.out).mp (fun e he => hboth e (List.mem_append_right _ he))
        rule hr hexp hd
  · -- the ports of the rules can be spelled and the rules numbered, which is all that build asks
    intro h
    obtain ⟨config, devices, hbuild⟩ := htotal.mpr fun fname port hport dir => by
      obtain ⟨honly, hnums⟩ := h fname port hport
      exact ⟨fun rule hr hexp _ => portOf_total (hvalid _ rule hr) (honly rule hr hexp),
        hnums dir⟩
    refine ⟨config, devices, hbuild, fun fname filt hfilt e he => ?_⟩
    obtain ⟨hsec, -, -⟩ := build_eq_ok.mp hbuild
    obtain ⟨port, hport, hof⟩ := hsec.get?_filter.mp hfilt
    obtain ⟨honly, -⟩ := h fname port hport
    rcases List.mem_append.mp he with he | he
    · exact (loadable_side hof.in_).mpr (fun rule hr hexp _ => honly rule hr hexp) e he
    · exact (loadable_side hof.out).mpr (fun rule hr hexp _ => honly rule hr hexp) e he

/-! ## The failing rule

An echo reply is type 0, which is as ordinary a rule as there is. -/

/-- A tenant's port: one security group, one rule. -/
def onePort : PortDetails :=
  { portId := "6ba7b810-9dad-11d1", networkId := "net", networkType := some "flat"
    physicalNetwork := some "physnet1", macAddress := some "FA:16:3e:00:00:01"
    fixedIps := ["10.0.0.5"] }

def oneRule (rule : SgRule) : SgInfo :=
  { securityGroups := Dict.ofList [("group", [rule])]
    devices := Dict.ofList [("6ba7b810-9dad-11d1", ["group"])] }

def oneTrunk : Dict String String := Dict.ofList [("physnet1", "vtnet0")]

theorem wellFormed_onePort : WellFormed onePort := by
  constructor
  · intro mac hmac
    obtain rfl := Option.some.inj hmac
    unfold MacText
    decide
  · intro hvlan
    exact absurd hvlan (by decide)
  · decide

theorem trunks_oneTrunk : Trunks oneTrunk := by
  intro pn trunk h
  have hm : (pn, trunk) ∈ [("physnet1", "vtnet0")] := Dict.get?_eq_some.mp h
  obtain ⟨rfl, rfl⟩ := Prod.mk.inj (List.mem_singleton.mp hm)
  decide

theorem mem_oneRule {rule : SgRule} {g : String} {rules : List SgRule}
    (h : (oneRule rule).securityGroups.get? g = some rules) : rules = [rule] := by
  have hm : (g, rules) ∈ [("group", [rule])] := Dict.get?_eq_some.mp h
  exact (Prod.mk.inj (List.mem_singleton.mp hm)).2

/-- An echo reply is type 0. -/
def echoReply : SgRule :=
  { direction := .ingress, ethertype := some "IPv4", protocol := some "icmp"
    portRangeMin := some 0 }

def webRule : SgRule :=
  { direction := .ingress, ethertype := some "IPv4", protocol := some "tcp"
    portRangeMin := some 80, portRangeMax := some 443, sourceIpPrefix := some "0.0.0.0/0" }

/-- A web server's rule keeps the host running. -/
theorem built_loadable_web : ∃ config devices,
    @build ⟨id⟩ [onePort] (oneRule webRule) oneTrunk = .ok (config, devices) ∧
      ∀ fname filt, config.filter.get? fname = some filt → Loadable filt := by
  refine (@built_loadable_iff ⟨id⟩ [onePort] (oneRule webRule) oneTrunk ?_ trunks_oneTrunk
    ?_).mpr ?_
  · intro port hp
    exact List.mem_singleton.mp hp ▸ wellFormed_onePort
  · intro g rules hg rule hr
    obtain rfl := List.mem_singleton.mp (mem_oneRule hg ▸ hr)
    constructor
    · intro p hp
      obtain rfl := Option.some.inj hp
      decide
    · exact fun _ => Or.inr ⟨80, 443, rfl, rfl, by decide, by decide, by decide⟩
    · exact fun h => absurd h (by decide)
    · exact fun h => absurd h (by decide)
  · intro fname port hport
    obtain rfl := List.mem_singleton.mp (holder_mem hport).1
    have hrules : rulesOf onePort.portId (oneRule webRule) = [webRule] := by decide
    rw [hrules]
    refine ⟨fun rule hr _ _ => ?_, fun dir i hi => ?_⟩
    · obtain rfl := List.mem_singleton.mp hr
      exact Or.inl rfl
    · have hone : (bodies dir [webRule]).length ≤ 1 := by cases dir <;> decide
      have hpow : 10 ^ 5 ≤ 10 ^ Text.maxStrDigits :=
        Nat.pow_le_pow_right (by decide) (by decide)
      unfold SG_RULE_BASE
      omega

/-- An echo reply stops it: its type is no port, and the whole build is refused. -/
theorem echo_reply_refused : ¬ ∀ (_ : Hashlib) (ports : List PortDetails) (sgInfo : SgInfo)
    (mappings : Dict String String), (∀ port ∈ ports, WellFormed port) → Trunks mappings →
    (∀ g rules, sgInfo.securityGroups.get? g = some rules → ∀ rule ∈ rules, ValidRule rule) →
    ∃ config devices, build ports sgInfo mappings = .ok (config, devices) ∧
      ∀ fname filt, config.filter.get? fname = some filt → Loadable filt := by
  intro h
  obtain ⟨config, devices, hbuild, -⟩ := h ⟨id⟩ [onePort] (oneRule echoReply) oneTrunk
    (fun port hp => List.mem_singleton.mp hp ▸ wellFormed_onePort) trunks_oneTrunk
    (fun g rules hg rule hr => by
      obtain rfl := List.mem_singleton.mp (mem_oneRule hg ▸ hr)
      constructor
      · exact fun p hp => absurd hp (by simp [prefixOf, echoReply])
      · exact fun h => absurd h (by decide)
      · exact fun _ => Or.inr ⟨0, rfl, by decide, by decide, fun code hc =>
          absurd hc (by simp [echoReply])⟩
      · exact fun h => absurd h (by decide))
  have hrefused : (@build ⟨id⟩ [onePort] (oneRule echoReply) oneTrunk).toOption = none := by
    decide +kernel
  rw [hbuild] at hrefused
  exact absurd hrefused (by simp [Except.toOption])

end PortConfig

end Bsdbridge
