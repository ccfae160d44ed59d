import Bsdbridge.DhcpAgent.Agent

/-!
# What a network renders to, and the order of its lists

A pass restarts dnsmasq when its command line differs from the stored one, and reloads it when one
of its two files does. The server promises no order for the lists of a network, so what is rendered
should not follow theirs.

The hosts file does not: its lines are sorted. The options file and the command line take the
subnets as they come, so two of them in the other order are another text:
**`orderIndependent_iff`**. A network that serves at most one subnet is rendered alike in whatever
order it comes, and one that cannot be rendered in one order cannot in any.

`Reordered` says what may differ between two replies about one network: the order of its subnets,
of its ports, and of the fixed ips of each port. Everything else is the same, the dhcp port
included. `render` is the three artifacts that a pass compares with what is stored, as texts; what
a process does with them does not matter.

The exact condition comes from one text. The options file begins with the tag of the first served
subnet, so with two of them there is an order that shows, and it shows whatever else the network
has.
-/

set_option autoImplicit false

namespace Bsdbridge

namespace Dhcp

/-! ## 1. Reordering, and what is rendered -/

/-- The same port, its fixed ips in any order. -/
structure PortReordered (p q : DhcpRpc.Port) : Prop where
  id : q.id = p.id
  deviceOwner : q.deviceOwner = p.deviceOwner
  macAddress : q.macAddress = p.macAddress
  fixedIps : q.fixedIps.Perm p.fixedIps

theorem PortReordered.refl (p : DhcpRpc.Port) : PortReordered p p := ⟨rfl, rfl, rfl, .refl _⟩

/-- The same network, each of its lists in any order. -/
structure Reordered (net other : DhcpRpc.Network) : Prop where
  id : other.id = net.id
  subnets : other.subnets.Perm net.subnets
  ports : ∃ ports, List.Forall₂ PortReordered net.ports ports ∧ ports.Perm other.ports

/-- The three artifacts of a spec. -/
structure Rendered where
  hosts : String
  opts : String
  argv : Option Argv

def render (base path : String) (net : DhcpNetwork) : Rendered :=
  { hosts := Dnsmasq.hostsText net, opts := Dnsmasq.optsText net,
    argv := Dnsmasq.argv net base path }

/-- No reordering of the network's lists shows in what is rendered. -/
def OrderIndependent (net : DhcpRpc.Network) (port : DhcpRpc.Port) : Prop :=
  ∀ base path other, Reordered net other →
    (specOf other port).map (render base path) = (specOf net port).map (render base path)

/-- The dhcp port has no mac, or an address in a served subnet whose cidr has no prefix length. -/
def Unbuildable (net : DhcpRpc.Network) (port : DhcpRpc.Port) : Prop :=
  port.macAddress = none ∨ ∃ fixed ∈ port.fixedIps, ∃ s ∈ v4Subnets net,
    s.id = fixed.subnetId ∧ Router.cidrPrefixlen s.cidr = none

/-! ## 2. The subnets by id -/

theorem distinct_v4 (net : DhcpRpc.Network) :
    ((v4Subnets net).map fun s => (s.id, s)).map Prod.fst |>.Nodup := by
  have hsub : ((v4Subnets net).map DhcpRpc.Subnet.id).Sublist (net.subnets.map DhcpRpc.Subnet.id) :=
    List.filter_sublist.map _
  have hnd := net.distinct.sublist hsub
  simpa [Function.comp_def] using hnd

theorem get?_subnetById {net : DhcpRpc.Network} {i : String} {s : DhcpRpc.Subnet} :
    (subnetById (v4Subnets net)).get? i = some s ↔ s ∈ v4Subnets net ∧ s.id = i := by
  rw [Dict.get?_eq_some, subnetById, Dict.entries_ofList (distinct_v4 net), List.mem_map]
  constructor
  · rintro ⟨t, ht, heq⟩
    obtain ⟨rfl, rfl⟩ := Prod.mk.inj heq
    exact ⟨ht, rfl⟩
  · rintro ⟨hs, rfl⟩
    exact ⟨s, hs, rfl⟩

/-- Where the served subnets stand in the list does not matter for finding one. -/
theorem get?_subnetById_perm {net other : DhcpRpc.Network} (h : (v4Subnets other).Perm (v4Subnets net))
    (i : String) : (subnetById (v4Subnets other)).get? i = (subnetById (v4Subnets net)).get? i := by
  apply Option.ext
  intro s
  rw [get?_subnetById, get?_subnetById, h.mem_iff]

theorem v4Subnets_perm {net other : DhcpRpc.Network} (h : Reordered net other) :
    (v4Subnets other).Perm (v4Subnets net) := h.subnets.filter _

/-! ## 3. What the order of the lists leaves alone -/

theorem portIps_perm {net other : DhcpRpc.Network} (h : (v4Subnets other).Perm (v4Subnets net))
    (port : DhcpRpc.Port) : portIps (v4Subnets other) port = portIps (v4Subnets net) port := by
  unfold portIps
  simp only [get?_subnetById_perm h]

theorem hostEntries_perm {net other : DhcpRpc.Network} (h : (v4Subnets other).Perm (v4Subnets net))
    {p q : DhcpRpc.Port} (hpq : PortReordered p q) :
    (hostEntries (v4Subnets other) q).Perm (hostEntries (v4Subnets net) p) := by
  have hmem : ∀ i, i ∈ subnetById (v4Subnets other) ↔ i ∈ subnetById (v4Subnets net) := by
    intro i
    rw [← not_iff_not, ← Dict.get?_eq_none, ← Dict.get?_eq_none, get?_subnetById_perm h]
  unfold hostEntries
  rw [hpq.deviceOwner, hpq.macAddress]
  simp only [hmem]
  split_ifs
  · exact .refl _
  · exact .refl _
  · exact (hpq.fixedIps.filter _).map _

/-- The reservations of the ports are the same ones, whatever the order. -/
theorem hosts_perm {net other : DhcpRpc.Network} (h : Reordered net other) :
    (other.ports.flatMap (hostEntries (v4Subnets other))).Perm
      (net.ports.flatMap (hostEntries (v4Subnets net))) := by
  obtain ⟨ports, heach, hperm⟩ := h.ports
  have hflat : ∀ {l m : List DhcpRpc.Port}, List.Forall₂ PortReordered l m →
      (m.flatMap (hostEntries (v4Subnets other))).Perm
        (l.flatMap (hostEntries (v4Subnets net))) := by
    intro l m hlm
    induction hlm with
    | nil => exact .refl _
    | cons hpq _ ih => exact (hostEntries_perm (v4Subnets_perm h) hpq).append ih
  exact (hperm.symm.flatMap_right _).trans (hflat heach)

/-- The lines of the hosts file are sorted, so the order of the entries does not show. -/
theorem hostsText_perm {a b : DhcpNetwork} (h : a.hosts.Perm b.hosts) :
    Dnsmasq.hostsText a = Dnsmasq.hostsText b := by
  have hlines := h.map fun e => e.mac ++ ",host-" ++ Text.replaceChar e.ip '.' '-' ++ "," ++ e.ip
  unfold Dnsmasq.hostsText
  simp only [sortedBy_perm (fun _ _ _ _ heq => heq) hlines]

/-! ## 4. The spec that is built -/

/-- The spec of a network whose dhcp port has these addresses and this mac. -/
def built (net : DhcpRpc.Network) (port : DhcpRpc.Port) (ips : List (String × Nat))
    (mac : String) : DhcpNetwork :=
  { networkId := net.id
    portId := port.id
    mac := String.ofList (mac.toList.map Char.toLower)
    ips
    subnets := (v4Subnets net).map specSubnet
    hosts := sortedBy (fun h => toLex (h.ip, h.mac))
      (net.ports.flatMap (hostEntries (v4Subnets net)))
    plain := net.plain }

theorem specOf_eq_some {net : DhcpRpc.Network} {port : DhcpRpc.Port} {spec : DhcpNetwork} :
    specOf net port = some spec ↔ ∃ ips mac, portIps (v4Subnets net) port = some ips ∧
      port.macAddress = some mac ∧ spec = built net port ips mac := by
  unfold specOf specFor
  simp only [Option.bind_eq_bind, Option.bind_eq_some_iff, Option.pure_def, Option.some.injEq]
  constructor
  · rintro ⟨ips, hips, mac, hmac, rfl⟩
    exact ⟨ips, mac, hips, hmac, rfl⟩
  · rintro ⟨ips, mac, hips, hmac, rfl⟩
    exact ⟨ips, hips, mac, hmac, rfl⟩

theorem portIps_eq_none {net : DhcpRpc.Network} {port : DhcpRpc.Port} :
    portIps (v4Subnets net) port = none ↔ ∃ fixed ∈ port.fixedIps, ∃ s ∈ v4Subnets net,
      s.id = fixed.subnetId ∧ Router.cidrPrefixlen s.cidr = none := by
  unfold portIps
  simp only [Option.mapM_eq_none, List.mem_filterMap, Option.map_eq_some_iff, Option.map_eq_none_iff]
  constructor
  · rintro ⟨-, ⟨fixed, hfixed, s, hs, rfl⟩, hlen⟩
    obtain ⟨hmem, hid⟩ := get?_subnetById.mp hs
    exact ⟨fixed, hfixed, s, hmem, hid, hlen⟩
  · rintro ⟨fixed, hfixed, s, hs, hid, hlen⟩
    exact ⟨(fixed, s), ⟨fixed, hfixed, s, get?_subnetById.mpr ⟨hs, hid⟩, rfl⟩, hlen⟩

/-- **The hosts file never follows the order of a list**, nor does anything else of the spec but
its subnets. -/
theorem specOf_reordered {net other : DhcpRpc.Network} {port : DhcpRpc.Port} {spec : DhcpNetwork}
    (h : Reordered net other) (hspec : specOf net port = some spec) :
    ∃ ips mac, spec = built net port ips mac ∧ specOf other port = some (built other port ips mac) ∧
      Dnsmasq.hostsText (built other port ips mac) = Dnsmasq.hostsText spec := by
  obtain ⟨ips, mac, hips, hmac, rfl⟩ := specOf_eq_some.mp hspec
  refine ⟨ips, mac, rfl, specOf_eq_some.mpr ⟨ips, mac, ?_, hmac, rfl⟩, hostsText_perm ?_⟩
  · rw [portIps_perm (v4Subnets_perm h), hips]
  · exact ((perm_sortedBy _ _).trans (hosts_perm h)).trans (perm_sortedBy _ _).symm

theorem specOf_eq_none {net : DhcpRpc.Network} {port : DhcpRpc.Port} :
    specOf net port = none ↔ Unbuildable net port := by
  unfold Unbuildable
  rw [← portIps_eq_none]
  unfold specOf specFor
  cases hips : portIps (v4Subnets net) port with
  | none => simp
  | some ips => cases hmac : port.macAddress <;> simp

theorem Unbuildable.reordered {net other : DhcpRpc.Network} {port : DhcpRpc.Port}
    (h : Reordered net other) (hnet : Unbuildable net port) : Unbuildable other port := by
  rcases hnet with hmac | ⟨fixed, hfixed, s, hs, hid, hlen⟩
  · exact .inl hmac
  · exact .inr ⟨fixed, hfixed, s, (v4Subnets_perm h).mem_iff.mpr hs, hid, hlen⟩

/-! ## 5. The options file tells the first subnet -/

theorem optLines_head (s : Subnet) : ∃ value lines,
    Dnsmasq.optLines s = ("tag:" ++ s.id ++ ("," ++ value)) :: lines := by
  have hcomma : ",option:router" = "," ++ "option:router" := rfl
  unfold Dnsmasq.optLines
  simp only [hcomma, String.append_assoc]
  exact ⟨_, _, rfl⟩

/-- The options file up to its first comma is the tag of the first subnet. -/
theorem optsText_head {net : DhcpNetwork} {s : Subnet} {rest : List Subnet}
    (hnet : net.subnets = s :: rest) (hs : ',' ∉ s.id.toList) :
    (Dnsmasq.optsText net).toList.takeWhile (· ≠ ',') = "tag:".toList ++ s.id.toList := by
  obtain ⟨tail, htail⟩ : ∃ tail, Dnsmasq.optsText net = "tag:" ++ s.id ++ ("," ++ tail) := by
    obtain ⟨value, lines, hlines⟩ := optLines_head s
    refine ⟨value ++ ("\n" ++ Text.unlines (lines ++ rest.flatMap Dnsmasq.optLines)), ?_⟩
    show Text.unlines (net.subnets.flatMap Dnsmasq.optLines) = _
    rw [hnet, List.flatMap_cons, hlines, List.cons_append, Text.unlines_cons]
    simp only [String.append_assoc]
  have hno : ∀ c ∈ "tag:".toList ++ s.id.toList, decide (c ≠ ',') = true := by
    intro c hc
    rcases List.mem_append.mp hc with hc | hc
    · have hlit : c ∈ ['t', 'a', 'g', ':'] := hc
      fin_cases hlit <;> decide
    · exact decide_eq_true fun heq => hs (heq ▸ hc)
  rw [htail, String.toList_append, String.toList_append, String.toList_append,
    List.takeWhile_append_of_pos hno]
  simp

/-- The network with the served subnets in this order, the others after them. -/
def withServed (net : DhcpRpc.Network) (v4 : List DhcpRpc.Subnet)
    (h : v4.Perm (v4Subnets net)) : DhcpRpc.Network :=
  { id := net.id
    subnets := v4 ++ net.subnets.filter fun s => !decide (s.ipVersion = some 4)
    ports := net.ports
    plain := net.plain
    distinct := by
      have hperm := (h.append_right _).trans
        (List.filter_append_perm (fun s => decide (s.ipVersion = some 4)) net.subnets)
      exact (hperm.map _).nodup_iff.mpr net.distinct }

theorem v4Subnets_withServed {net : DhcpRpc.Network} {v4 : List DhcpRpc.Subnet}
    (h : v4.Perm (v4Subnets net)) : v4Subnets (withServed net v4 h) = v4 := by
  have hv4 : ∀ s ∈ v4, decide (s.ipVersion = some 4) = true := fun s hs =>
    (List.mem_filter.mp (h.mem_iff.mp hs)).2
  show (v4 ++ net.subnets.filter fun s => !decide (s.ipVersion = some 4)).filter _ = v4
  rw [List.filter_append, List.filter_eq_self.mpr hv4, List.filter_filter]
  simp

theorem reordered_withServed {net : DhcpRpc.Network} {v4 : List DhcpRpc.Subnet}
    (h : v4.Perm (v4Subnets net)) : Reordered net (withServed net v4 h) where
  id := rfl
  subnets := (h.append_right _).trans
    (List.filter_append_perm (fun s : DhcpRpc.Subnet => decide (s.ipVersion = some 4)) _)
  ports := ⟨net.ports, List.forall₂_same.mpr fun p _ => .refl p, .refl _⟩

/-! ## 6. When the order of the lists does not show -/

/-- Two served subnets the other way round are another options file. -/
theorem optsText_swap {net : DhcpRpc.Network} {s t : DhcpRpc.Subnet}
    {rest : List DhcpRpc.Subnet} (hv4 : v4Subnets net = s :: t :: rest) : ∃ other,
    Reordered net other ∧ ∀ port ips mac, Dnsmasq.optsText (built other port ips mac) ≠
      Dnsmasq.optsText (built net port ips mac) := by
  have hperm : (t :: s :: rest).Perm (v4Subnets net) := hv4 ▸ List.Perm.swap s t rest
  refine ⟨withServed net (t :: s :: rest) hperm, reordered_withServed hperm, ?_⟩
  intro port ips mac heq
  have hother : (built (withServed net (t :: s :: rest) hperm) port ips mac).subnets =
      specSubnet t :: (s :: rest).map specSubnet := by
    show (v4Subnets (withServed net (t :: s :: rest) hperm)).map specSubnet = _
    rw [v4Subnets_withServed hperm, List.map_cons]
  have hsame : (built net port ips mac).subnets = specSubnet s :: (t :: rest).map specSubnet := by
    show (v4Subnets net).map specSubnet = _
    rw [hv4, List.map_cons]
  have htag := optsText_head hother t.tag
  rw [heq, optsText_head hsame s.tag] at htag
  have hid : s.id = t.id := String.toList_injective (List.append_cancel_left htag)
  have hnd := distinct_v4 net
  rw [hv4] at hnd
  simp [hid] at hnd

/-- **What a network renders to ignores the order of the lists exactly when the network serves at
most one subnet**, or its spec cannot be built at all. -/
theorem orderIndependent_iff {net : DhcpRpc.Network} {port : DhcpRpc.Port} :
    OrderIndependent net port ↔ Unbuildable net port ∨ (v4Subnets net).length ≤ 1 := by
  constructor
  · intro hind
    by_contra hcon
    obtain ⟨hbuild, hlen⟩ := not_or.mp hcon
    obtain ⟨spec, hspec⟩ := Option.ne_none_iff_exists'.mp (mt specOf_eq_none.mp hbuild)
    obtain ⟨s, t, rest, hv4⟩ : ∃ s t rest, v4Subnets net = s :: t :: rest := by
      match hl : v4Subnets net with
      | [] => simp [hl] at hlen
      | [s] => simp [hl] at hlen
      | s :: t :: rest => exact ⟨s, t, rest, rfl⟩
    obtain ⟨other, hother, hopts⟩ := optsText_swap hv4
    obtain ⟨ips, mac, rfl, hspec', -⟩ := specOf_reordered hother hspec
    have heq := hind "" "" other hother
    rw [hspec, hspec', Option.map_some, Option.map_some, Option.some.injEq] at heq
    exact hopts port ips mac (congrArg Rendered.opts heq)
  · rintro hcond base path other hother
    cases hspec : specOf net port with
    | none =>
      have hbuild := (specOf_eq_none.mp hspec).reordered hother
      rw [specOf_eq_none.mpr hbuild]
    | some spec =>
      have hlen : (v4Subnets net).length ≤ 1 := by
        rcases hcond with hun | hlen
        · rw [specOf_eq_none.mpr hun] at hspec
          cases hspec
        · exact hlen
      -- a list of at most one element has one order
      have hv4 : v4Subnets other = v4Subnets net := by
        have hperm := v4Subnets_perm hother
        match hl : v4Subnets net with
        | [] => rwa [hl, List.perm_nil] at hperm
        | [s] => rwa [hl, List.perm_singleton] at hperm
        | _ :: _ :: _ => simp [hl] at hlen
      obtain ⟨ips, mac, rfl, hspec', hhosts⟩ := specOf_reordered hother hspec
      have hsubnets : (built other port ips mac).subnets = (built net port ips mac).subnets := by
        show (v4Subnets other).map specSubnet = (v4Subnets net).map specSubnet
        rw [hv4]
      have hid : (built other port ips mac).networkId = (built net port ips mac).networkId :=
        hother.id
      rw [hspec', Option.map_some, Option.map_some, Option.some.injEq]
      unfold render Dnsmasq.optsText Dnsmasq.argv
      rw [hhosts, hsubnets, hid]

def subnetA : DhcpRpc.Subnet :=
  { id := "daa048b5", ipVersion := some 4, cidr := "10.99.0.0/24",
    gatewayIp := some "10.99.0.1", plain := by decide +kernel, tag := by decide +kernel }

def subnetB : DhcpRpc.Subnet :=
  { id := "5e1e2a70", ipVersion := some 4, cidr := "10.99.1.0/24",
    gatewayIp := some "10.99.1.1", plain := by decide +kernel, tag := by decide +kernel }

/-- A network of two IPv4 subnets. -/
def twoSubnets : DhcpRpc.Network :=
  { id := "1feae23c", subnets := [subnetA, subnetB], plain := by decide +kernel,
    distinct := by decide +kernel }

/-- The same network, its subnets the other way round. -/
def twoSwapped : DhcpRpc.Network :=
  { id := "1feae23c", subnets := [subnetB, subnetA], plain := by decide +kernel,
    distinct := by decide +kernel }

def twoPort : DhcpRpc.Port :=
  { id := "8f7bca7e", deviceOwner := some "network:dhcp", macAddress := some "fa:16:3e:00:00:01",
    fixedIps := [⟨"daa048b5", "10.99.0.2"⟩, ⟨"5e1e2a70", "10.99.1.2"⟩] }

/-- Two subnets in the other order are another options file and another command line, so the pass
that sees them so restarts dnsmasq. -/
theorem twoSubnets_reordered : ¬ OrderIndependent twoSubnets twoPort ∧
    ((specOf twoSwapped twoPort).bind fun spec => Dnsmasq.argv spec "/var" "dnsmasq") ≠
      (specOf twoSubnets twoPort).bind fun spec => Dnsmasq.argv spec "/var" "dnsmasq" := by
  refine ⟨fun h => ?_, by decide +kernel⟩
  have hswap : Reordered twoSubnets twoSwapped :=
    ⟨rfl, .swap subnetA subnetB [], [], .nil, .refl _⟩
  have hopts := congrArg (Option.map Rendered.opts) (h "/var" "dnsmasq" twoSwapped hswap)
  exact absurd hopts (by decide +kernel)

end Dhcp

end Bsdbridge
