import Bsdbridge.Proof.Policy

/-!
# The source lock of a port

A bind holds one address, the first IPv4 one of the port, and there is no bind without one. So the
anchor of a port whose groups allow all egress admits exactly the port's own addresses when they
are one address (**`lock_exact_iff`**): further addresses are blocked, and a port with no IPv4
address at all may send from any.

The packets in question are IPv4 and go out, as seen from the workload; the lock says nothing about
the others. All egress is allowed, so that what is blocked is blocked by the lock and by nothing
else. DHCP requests are let by before the lock, from no address at all, and are excepted on both
sides of the statement.

An address text is `Spells`ed to stand for one IPv4 address, which is what makes "one address" a
statement about addresses rather than about strings: two spellings of one address are one. How
addresses are spelled stays a parameter. The port must keep its names (`Own`), as everywhere past
`Proof/Policy`.
-/

set_option autoImplicit false

namespace Bsdbridge

open PacketFilter (Addr)

namespace PortConfig

open Pf

/-! ## 1. Addresses and egress -/

/-- The IPv4 addresses among the fixed ips. -/
def ipv4s (port : PortDetails) : List String :=
  port.fixedIps.filter fun ip => !Text.hasChar ip ':'

/-- An address text stands for one IPv4 address. -/
def Spells (lies : String → Addr → Bool) (text : String) (x : BitVec 32) : Prop :=
  ∀ a, lies text a = true ↔ a = .v4 x

/-- A rule that lets every IPv4 packet out. -/
structure AllowsEgress (lies : String → Addr → Bool) (rule : SgRule) : Prop where
  egress : rule.direction = .egress
  protocol : rule.protocol = none
  ports : rule.portRangeMin = none
  remote : remote rule = "any" ∨
    ∃ p, truthy (prefixOf rule) = some p ∧ ∀ x, lies p (.v4 x) = true

theorem ipv4Of_eq {port : PortDetails} : ipv4Of port = (ipv4s port).head? := by
  unfold ipv4Of ipv4s
  rw [List.head?_filter]

/-- The bind of a secured port with a MAC address. -/
theorem bindOf_secured {port : PortDetails} {bind : Option Bind} {mac : String}
    (hs : secured port = true) (hmac : truthy port.macAddress = some mac)
    (h : bindOf port = .ok bind) :
    bind.map (·.address) = (ipv4s port).head? := by
  unfold bindOf at h
  rw [if_pos hs, hmac, ipv4Of_eq] at h
  cases hip : (ipv4s port).head? with
  | none =>
    rw [hip] at h
    obtain rfl := Except.ok.inj h
    rfl
  | some ip =>
    rw [hip] at h
    simp only at h
    cases hcan : canonicalMac (.str mac) with
    | error e =>
      rw [hcan] at h
      exact absurd h (by simp [Except.map])
    | ok m =>
      rw [hcan] at h
      obtain rfl := Except.ok.inj h
      rfl

/-- A filter of groups that allow all egress passes every outbound IPv4 packet. -/
theorem egress_pass {port : PortDetails} {sgInfo : SgInfo} {path : String} {filt : Filter}
    (h : FilterOf port sgInfo path filt) (ht : Texts port sgInfo)
    {lies : String → Addr → Bool} {tables : List (String × List String)}
    (hallow : ∃ rule ∈ rulesOf port.portId sgInfo, AllowsEgress lies rule) {f : Flow}
    (hd : f.direction = .out) (hf : f.ends.family = .inet) :
    filterMeans lies tables (some filt) f = .pass := by
  obtain ⟨rule, hr, ha⟩ := hallow
  have hexp : expressible rule = true := by
    unfold expressible
    rw [ha.protocol]
  have hside := h.side .out
  obtain ⟨o, ho, -, spec, hspec, hrule⟩ := entry_of_rule hside hr hexp ha.egress
  have hnone : spec = none := by
    have hrange := portOf_ok.mp hspec
    unfold portRange at hrange
    rw [ha.ports] at hrange
    exact hrange
  have hdst : refHolds lies tables (remote rule) f.ends.dst = true := by
    have hany : Config.tableRef "any" = none := by decide
    rw [refHolds_eq]
    rcases ha.remote with hrem | ⟨p, hp, hall⟩
    · rw [hrem, hany]
      rfl
    · have hrem : remote rule = p := by
        unfold remote
        rw [hp]
      rw [hrem, (ht.ranges rule hr p hp).2]
      cases he : f.ends with
      | v4 s d =>
        show (decide (p = "any") || lies p (.v4 d)) = true
        rw [hall d, Bool.or_true]
      | v6 s d =>
        rw [he] at hf
        exact absurd hf (by simp [PacketFilter.Ends.family])
  refine h.means_pass.mpr ⟨o, ?_, ?_⟩
  · rw [hd]
    exact ho
  · have hany : ∀ a, refHolds lies tables "any" a = true := fun a => rfl
    rw [hrule, hnone]
    unfold ruleHolds filterRule protoOf
    simp [ha.egress, ha.protocol, hdst, hany]

section

variable [Hashlib] {ports : List PortDetails} {sgInfo : SgInfo} {mappings : Dict String String}
  {config : Config} {port : PortDetails} {devices : List String}

/-! ## 2. The lock

With no address there is no bind and every source passes, with two the second is blocked, and
with one the lock is what it says. -/

/-- **The lock admits exactly the port's addresses when they are one address.** -/
theorem lock_exact_iff (hb : build ports sgInfo mappings = .ok (config, devices))
    (hp : port ∈ ports) (hown : Own ports port) (hs : secured port = true) {mac : String}
    (hmac : truthy port.macAddress = some mac) (ht : Texts port sgInfo)
    {lies : String → Addr → Bool} (hdhcp : ReadsDhcp lies)
    (hallow : ∃ rule ∈ rulesOf port.portId sgInfo, AllowsEgress lies rule)
    (haddr : ∀ ip ∈ ipv4s port, HostText ip ∧ ∃ x, Spells lies ip x) :
    ∃ anchor, anchorOf config (bridgeOf port) (ifName port) = some anchor ∧
      ((∀ f : Flow, f.direction = .out → f.ends.family = .inet →
          (PacketFilter.evaluate (meaningOf lies anchor.tables) anchor.rules
              (f.packet (ifName port)) = some .pass ↔
            (∃ ip ∈ ipv4s port, lies ip f.ends.src = true) ∨ dhcpRequest f = true)) ↔
        ipv4s port ≠ [] ∧ ∃ x, ∀ ip ∈ ipv4s port, Spells lies ip x) := by
  have hfirst : ∀ ip, ipv4Of port = some ip → HostText ip := by
    intro ip hip
    rw [ipv4Of_eq] at hip
    exact (haddr ip (List.mem_of_mem_head? hip)).1
  obtain ⟨bind, filt, anchor, hbind, hanchor, hof, heval⟩ :=
    built_anchor hb hown hp hs ht hfirst hdhcp
  refine ⟨anchor, hanchor, ?_⟩
  have hbound := bindOf_secured hs hmac hbind
  -- what pf says of an outbound IPv4 packet
  have hpass : ∀ f : Flow, f.direction = .out → f.ends.family = .inet →
      (PacketFilter.evaluate (meaningOf lies anchor.tables) anchor.rules
          (f.packet (ifName port)) = some .pass ↔
        dhcpRequest f = true ∨ ∀ ip ∈ (ipv4s port).head?, lies ip f.ends.src = true) := by
    intro f hd hf
    have hall : filterMeans lies (Planner.tablesOf config (memberOf port bind)) (some filt) f =
        .pass := egress_pass hof ht hallow hd hf
    have hverdict : ∀ a : Action, some (verdictOf a) = some PacketFilter.Verdict.pass ↔
        a = .pass := by
      intro a
      cases a <;> decide
    rw [heval, hverdict, ← hbound]
    unfold means
    cases bind with
    | none => simp [hall]
    | some b =>
      simp only [hd, hf, and_self, if_true, hall]
      cases dhcpRequest f <;> cases hl : lies b.address f.ends.src <;> simp [hl]
  constructor
  · intro hall
    cases hips : ipv4s port with
    | nil =>
      -- without a bind every source passes
      have hone := hall ⟨.out, .v4 0 0, .tcp, none⟩ rfl rfl
      rw [hpass _ rfl rfl, hips] at hone
      have hno := hone.mp (Or.inr fun ip hip => absurd hip (by simp))
      rcases hno with ⟨ip, hip, -⟩ | hdh
      · exact absurd hip List.not_mem_nil
      · exact absurd hdh (by decide)
    | cons first rest =>
      obtain ⟨-, x, hx⟩ := haddr first (by rw [hips]; exact List.mem_cons_self)
      refine ⟨by simp, x, fun ip hip => ?_⟩
      obtain ⟨-, y, hy⟩ := haddr ip (by rw [hips]; exact hip)
      -- a packet from the other address
      have hone := hall ⟨.out, .v4 y 0, .tcp, none⟩ rfl rfl
      rw [hpass _ rfl rfl, hips] at hone
      have hmem : ∃ ip ∈ first :: rest, lies ip (.v4 y) = true := ⟨ip, hip, (hy _).mpr rfl⟩
      rcases hone.mpr (Or.inl hmem) with hdh | hlies
      · exact absurd hdh (by simp [dhcpRequest])
      · have hxy : Addr.v4 y = .v4 x := (hx _).mp (hlies first rfl)
        obtain rfl := PacketFilter.Addr.v4.inj hxy
        exact hy
  · intro ⟨hne, x, hx⟩ f hd hf
    rw [hpass f hd hf, or_comm]
    refine or_congr_left ?_
    obtain ⟨first, rest, hips⟩ := List.exists_cons_of_ne_nil hne
    have hfirst : first ∈ ipv4s port := by
      rw [hips]
      exact List.mem_cons_self
    constructor
    · intro hlies
      exact ⟨first, hfirst, hlies first (by rw [hips]; rfl)⟩
    · intro ⟨ip, hip, hlies⟩ ip' hip'
      rw [(hx ip hip f.ends.src).mp hlies]
      exact (hx ip' (List.mem_of_mem_head? hip') _).mpr rfl

end

/-! ## 3. Two addresses

The smallest failing port, and the packet from its second address that its anchor blocks. -/

/-- A port of two IPv4 addresses. -/
def twoPort : PortDetails :=
  { portId := "p0", networkId := "n0", macAddress := some "fa:16:3e:00:00:01"
    fixedIps := ["10.0.0.7", "10.0.0.8"] }

/-- A group that allows all egress. -/
def egressRule : SgRule := { direction := .egress, ethertype := some "IPv4" }

def egressInfo : SgInfo :=
  { securityGroups := ⟨[("g0", [egressRule])], by decide⟩
    devices := ⟨[("p0", ["g0"])], by decide⟩ }

/-- The config of the one port. -/
def twoConfig : Config :=
  ((@build ⟨id⟩ [twoPort] egressInfo ∅).toOption.map Prod.fst).getD {}

theorem build_two : ∃ devices, @build ⟨id⟩ [twoPort] egressInfo ∅ = .ok (twoConfig, devices) := by
  have hok : (@build ⟨id⟩ [twoPort] egressInfo ∅).toOption.isSome = true := by decide +kernel
  unfold twoConfig
  cases hb : @build ⟨id⟩ [twoPort] egressInfo ∅ with
  | error e =>
    rw [hb] at hok
    exact absurd hok (by simp [Except.toOption])
  | ok r => exact ⟨r.2, rfl⟩

theorem own_two : @Own ⟨id⟩ [twoPort] twoPort :=
  @Own.mk ⟨id⟩ _ _ (fun _ ho _ _ => List.mem_singleton.mp ho)
    fun _ ho _ _ => List.mem_singleton.mp ho

theorem texts_two : Texts twoPort egressInfo := by
  have hid : Text.Word "p0" := by decide +kernel
  refine ⟨hid.noSpace, ?_, ?_⟩
  · intro rule hr p hp
    obtain rfl := List.mem_singleton.mp hr
    exact absurd hp (by simp [prefixOf, egressRule, truthy])
  · intro rule hr g hg
    obtain rfl := List.mem_singleton.mp hr
    exact absurd hg (by simp [egressRule])

theorem allows_two : ∃ rule ∈ rulesOf twoPort.portId egressInfo, AllowsEgress quadLies rule :=
  ⟨egressRule, List.mem_singleton_self _, rfl, rfl, rfl, Or.inl (by decide)⟩

theorem addr_two : ∀ ip ∈ ipv4s twoPort, HostText ip ∧ ∃ x, Spells quadLies ip x := by
  intro ip hip
  have hips : ipv4s twoPort = ["10.0.0.7", "10.0.0.8"] := by decide
  rw [hips] at hip
  simp only [List.mem_cons, List.not_mem_nil, or_false] at hip
  rcases hip with rfl | rfl
  · refine ⟨⟨by decide +kernel, by decide, by decide, by decide⟩, 0x0a000007, fun a => ?_⟩
    simp [quadLies, quads, List.lookup_cons]
  · refine ⟨⟨by decide +kernel, by decide, by decide, by decide⟩, 0x0a000008, fun a => ?_⟩
    simp [quadLies, quads, List.lookup_cons]

/-- A packet from the second address. -/
def secondFlow : Flow :=
  { direction := .out, ends := .v4 0x0a000008 0x0a000009, protocol := .tcp, port := some 80 }

theorem second_blocked : ∃ devices anchor,
    @build ⟨id⟩ [twoPort] egressInfo ∅ = .ok (twoConfig, devices) ∧
      @anchorOf ⟨id⟩ twoConfig (@bridgeOf ⟨id⟩ twoPort) (ifName twoPort) = some anchor ∧
      PacketFilter.evaluate (meaningOf quadLies anchor.tables) anchor.rules
        (secondFlow.packet (ifName twoPort)) = some .block := by
  obtain ⟨devices, hb⟩ := build_two
  have hfirst : ∀ ip, ipv4Of twoPort = some ip → HostText ip := by
    intro ip hip
    rw [ipv4Of_eq] at hip
    exact (addr_two ip (List.mem_of_mem_head? hip)).1
  obtain ⟨bind, filt, anchor, hbind, hanchor, -, heval⟩ := @built_anchor ⟨id⟩ _ _ _ _ _ _ hb own_two
    List.mem_cons_self (by decide) texts_two hfirst _ quadLies_reads
  refine ⟨devices, anchor, hb, hanchor, ?_⟩
  have hbound := @bindOf_secured twoPort bind _ (by decide) rfl hbind
  have hhead : (ipv4s twoPort).head? = some "10.0.0.7" := by decide
  rw [hhead] at hbound
  obtain ⟨b, rfl, haddr⟩ := Option.map_eq_some_iff.mp hbound
  have hother : quadLies b.address secondFlow.ends.src = false := by
    rw [haddr]
    decide
  have hdhcp : dhcpRequest secondFlow = false := by decide
  have hlock : secondFlow.direction = .out ∧ secondFlow.ends.family = .inet := by decide
  rw [heval]
  simp [means, hlock, hdhcp, hother, verdictOf]

/-- The lock blocks a port's second address. -/
theorem lock_not_exact : ¬ ∀ (inst : Hashlib) (ports : List PortDetails) (sgInfo : SgInfo)
    (mappings : Dict String String) (config : Config) (devices : List String)
    (port : PortDetails) (mac : String) (lies : String → Addr → Bool) (anchor : Pf.Ruleset),
    @build inst ports sgInfo mappings = .ok (config, devices) → port ∈ ports →
    @Own inst ports port → secured port = true → truthy port.macAddress = some mac →
    Texts port sgInfo → ReadsDhcp lies →
    (∃ rule ∈ rulesOf port.portId sgInfo, AllowsEgress lies rule) →
    (∀ ip ∈ ipv4s port, HostText ip ∧ ∃ x, Spells lies ip x) →
    @anchorOf inst config (@bridgeOf inst port) (ifName port) = some anchor →
    ∀ f : Flow, f.direction = .out → f.ends.family = .inet →
      (PacketFilter.evaluate (meaningOf lies anchor.tables) anchor.rules
          (f.packet (ifName port)) = some .pass ↔
        (∃ ip ∈ ipv4s port, lies ip f.ends.src = true) ∨ dhcpRequest f = true) := by
  intro h
  obtain ⟨devices, anchor, hb, hanchor, hblocked⟩ := second_blocked
  have hpass := (h ⟨id⟩ [twoPort] egressInfo ∅ twoConfig devices twoPort _ quadLies anchor hb
    List.mem_cons_self own_two (by decide) rfl texts_two quadLies_reads allows_two addr_two
    hanchor secondFlow rfl rfl).mpr (Or.inl ⟨"10.0.0.8", by decide, by decide⟩)
  rw [hpass] at hblocked
  exact absurd hblocked (by decide)

theorem lock_exact_iff_two :
    ∃ anchor, @anchorOf ⟨id⟩ twoConfig (@bridgeOf ⟨id⟩ twoPort) (ifName twoPort) = some anchor ∧
      ((∀ f : Flow, f.direction = .out → f.ends.family = .inet →
          (PacketFilter.evaluate (meaningOf quadLies anchor.tables) anchor.rules
              (f.packet (ifName twoPort)) = some .pass ↔
            (∃ ip ∈ ipv4s twoPort, quadLies ip f.ends.src = true) ∨ dhcpRequest f = true)) ↔
        ipv4s twoPort ≠ [] ∧ ∃ x, ∀ ip ∈ ipv4s twoPort, Spells quadLies ip x) := by
  obtain ⟨devices, hb⟩ := build_two
  exact @lock_exact_iff ⟨id⟩ _ _ _ _ _ _ hb List.mem_cons_self own_two (by decide) _ rfl
    texts_two _ quadLies_reads allows_two addr_two

end PortConfig

end Bsdbridge
