import Bsdbridge.Proof.Anchors
import Bsdbridge.Proof.Shape
import Bsdbridge.Proof.Refusal

/-!
# What an empty plan says

A pass that finds nothing to do is taken for a host in order. The ops cover what the config adds,
and what it takes away of the policy plane. Two things no op repairs: the lock of a member whose
bind was withdrawn, and a vlan uplink that is not on the vlan its name says.
**`empty_conforms_iff`** says that these two are all.

`Conforms` is written from what the config means for a host and not from the planner's tests:
bridges with their limits, member lists, policies with their tables, no policy where none is asked
for, and the locks. Where the planner compares names it asks for interfaces; where the planner
compares hashes it asks for `Carries`, the hash of what the member would be given now, so how far a
hash stands for rules is left to `Proof/Readback`.

The kernel view is `Whole`: it lists the members of its bridges, and a member has one static MAC at
most. A view that leaves interfaces out could make a plan empty by hiding what is wrong, and
`Proof/Partial` is where reading less than everything is shown to make no difference.
-/

set_option autoImplicit false

namespace Bsdbridge

namespace KernelInterfaces

/-- A bridge's address table has a static entry of a member. -/
def HasStatic (k : KernelInterfaces) (b m mac : String) : Prop :=
  (mac, m, true) ∈ (k.addrs.get? b).getD []

variable {k : KernelInterfaces} {b m : String}

theorem hasStatic_of_lock {mac : String} (h : k.staticLock b m = some mac) :
    k.HasStatic b m mac := by
  unfold staticLock lockIn at h
  obtain ⟨⟨mac', m', st⟩, hfind, rfl⟩ := Option.map_eq_some_iff.mp h
  have hp := List.find?_some hfind
  simp only [Bool.and_eq_true, decide_eq_true_eq] at hp
  obtain ⟨rfl, rfl⟩ := hp
  exact List.mem_of_find?_eq_some hfind

end KernelInterfaces

namespace Planner

/-- A kernel view of which nothing is missing. -/
structure Whole (k : KernelInterfaces) : Prop extends Consistent k where
  grouped : k.Grouped
  /-- A bridge's members are interfaces. -/
  present : ∀ b m, m ∈ k.membersOf b → m ∈ k
  /-- A member has one static MAC at most. -/
  single : ∀ b m mac mac', k.HasStatic b m mac → k.HasStatic b m mac' → mac = mac'

/-- A member without a bind is not locked. -/
def Unlocked (config : Config) (kernel : KernelInterfaces) : Prop :=
  ∀ b br m member, (b, br) ∈ config.bridge.entries → (m, member) ∈ br.member.entries →
    member.bind = none → ∀ mac, ¬ kernel.HasStatic b m mac

/-- A vlan uplink is on its vlan, of its trunk. -/
def OnVlan (config : Config) (kernel : KernelInterfaces) : Prop :=
  ∀ b br seg vid trunk n i, (b, br) ∈ config.bridge.entries → br.segment = some seg →
    seg.vxlan = none → seg.vlan = some vid → trunkOf config seg = .ok trunk →
    n ∈ uplinksOf config b br → kernel.interfaces.get? n = some i →
    i.vlan = some vid ∧ i.vlanParent = some trunk

/-- A host as the config wants it. -/
structure Conforms [Hashlib] (config : Config) (kernel : KernelInterfaces) (pf : PfState) :
    Prop where
  bridges : ∀ b br, (b, br) ∈ config.bridge.entries → ∃ i, kernel.interfaces.get? b = some i ∧
    i.isBridge = true ∧ i.isOwned = true ∧ ∀ v, i.maxaddr = some v → v = br.maxAddresses
  members : ∀ b br, (b, br) ∈ config.bridge.entries → ∀ n,
    n ∈ kernel.membersOf b ↔ n ∈ claimsOf config b br ∧ n ∈ kernel
  policies : ∀ b br m member, (b, br) ∈ config.bridge.entries →
    (m, member) ∈ br.member.entries → m ∈ kernel → Policied member →
    ∃ st, pf.get? m = some st ∧ Carries config m member st ∧
      ∀ t ms, (t, ms) ∈ tablesOf config member → TableOk t ms st
  unpoliced : ∀ n st, pf.get? n = some st → st.isLoaded = true → n ∈ policied config
  locks : ∀ b br m member bd, (b, br) ∈ config.bridge.entries →
    (m, member) ∈ br.member.entries → m ∈ kernel → member.bind = some bd →
    ∀ mac, kernel.HasStatic b m mac ↔ mac = bd.mac
  unlocked : Unlocked config kernel
  vlans : OnVlan config kernel
  owned : ∀ n, kernel.ownedName n = true → n ∈ config.bridge ∨ n ∈ claimed config

/-- A filter of a checked config is there, so a policied member has a policy. -/
theorem Checked.hasPolicy {config : Config} (hc : Checked config) {b m : String} {br : Bridge}
    {member : Member} (hb : (b, br) ∈ config.bridge.entries)
    (hm : (m, member) ∈ br.member.entries) (hpol : Policied member) :
    HasPolicy config member := by
  rcases hpol with hf | hbind
  · left
    obtain ⟨f, hf⟩ := Option.isSome_iff_exists.mp hf
    have hdangling := hc.dangling
    unfold Config.dangling at hdangling
    obtain ⟨hbridges, -⟩ := (Option.orElse_eq_none _ _).mp hdangling
    have hbridge := List.findSome?_eq_none_iff.mp hbridges (b, br) hb
    unfold Config.danglingBridge at hbridge
    obtain ⟨-, hmembers⟩ := (Option.orElse_eq_none _ _).mp hbridge
    have hmember := List.findSome?_eq_none_iff.mp hmembers (m, member) hm
    have hmem : f ∈ config.filter := by
      by_contra hno
      simp [hf, hno] at hmember
    obtain ⟨filt, hget⟩ := Dict.mem_iff_get?.mp hmem
    unfold filterOf
    rw [hf, Option.bind_some, hget]
    rfl
  · exact Or.inr hbind

section

variable [Hashlib] {config : Config} {kernel : KernelInterfaces} {pf : PfState} {p : Plan}

/-- Nothing is issued by an empty plan. -/
theorem not_issued (h : diff config kernel (some pf) = .ok p) (hempty : p.ops = []) (x : Op) :
    ¬ Issued config kernel (some pf) x := by
  intro hx
  have hin := (mem_ops h).mpr hx
  rw [hempty] at hin
  exact absurd hin List.not_mem_nil

section

variable (hno : ∀ x, ¬ Issued config kernel (some pf) x)

include hno

/-- A desired bridge is there, with its limit. -/
theorem bridge_of_empty (h : diff config kernel (some pf) = .ok p) {b : String} {br : Bridge}
    (hb : (b, br) ∈ config.bridge.entries) : ∃ i, kernel.interfaces.get? b = some i ∧
      i.isBridge = true ∧ i.isOwned = true ∧ ∀ v, i.maxaddr = some v → v = br.maxAddresses := by
  cases hi : kernel.interfaces.get? b with
  | none =>
    exact absurd ⟨br, hb, Dict.get?_eq_none.mp hi, rfl⟩ (hno (.createBridge b br.maxAddresses))
  | some i =>
    obtain ⟨hbridge, howned⟩ := diff_bridge_owned h hb hi
    refine ⟨i, rfl, hbridge, howned, fun v hv => ?_⟩
    by_contra hne
    exact hno (.setMaxaddr b br.maxAddresses) ⟨br, i, v, hb, hi, hv, hne, rfl⟩

/-- A bridge has the claimed names that exist, and no others. -/
theorem members_of_empty (hpresent : ∀ b m, m ∈ kernel.membersOf b → m ∈ kernel) {b : String}
    {br : Bridge} (hb : (b, br) ∈ config.bridge.entries) (n : String) :
    n ∈ kernel.membersOf b ↔ n ∈ claimsOf config b br ∧ n ∈ kernel := by
  constructor
  · intro hn
    refine ⟨?_, hpresent b n hn⟩
    by_contra hclaim
    exact hno (.removeMember b n) ⟨hn, Or.inl ⟨br, hb, hclaim⟩⟩
  · rintro ⟨hclaim, hk⟩
    by_contra hout
    apply hno (.addMember b n)
    refine ⟨br, hb, ?_⟩
    rcases List.mem_append.mp hclaim with hup | hmem
    · exact Or.inr ⟨hup, hout, Or.inr hk⟩
    · obtain ⟨member, hm⟩ := Dict.mem_iff_entry.mp hmem
      exact Or.inl ⟨member, hm, Or.inr ⟨hk, hout⟩⟩

/-- An existing member with a policy has its rules and tables loaded. -/
theorem policy_of_empty {b m : String} {br : Bridge} {member : Member}
    (hb : (b, br) ∈ config.bridge.entries) (hm : (m, member) ∈ br.member.entries)
    (hk : m ∈ kernel) (hpol : HasPolicy config member) :
    ∃ st, pf.get? m = some st ∧ Carries config m member st ∧
      ∀ t ms, (t, ms) ∈ tablesOf config member → TableOk t ms st := by
  have hsurvives : Surviving config (some pf) m member := by
    by_contra hnot
    refine hno (loadFor config m member) ?_
    show ∃ b' br' member', (b', br') ∈ config.bridge.entries ∧
      (m, member') ∈ br'.member.entries ∧ Loads config kernel (some pf) b' m member' ∧
      loadFor config m member = loadFor config m member'
    exact ⟨b, br, member, hb, hm, ⟨hpol, hnot, Or.inr ⟨hk, rfl⟩⟩, rfl⟩
  obtain ⟨anchors, st, hpf, hst, hloaded, hhash⟩ := hsurvives
  obtain rfl := Option.some.inj hpf
  refine ⟨st, hst, ⟨hloaded, hhash⟩, fun t ms htab => ?_⟩
  by_contra hdiffer
  exact hno (.replaceTable m t ms) ⟨b, br, member, hb, hm, hpol, htab, pf, st, rfl, hst,
    hloaded, hhash, hdiffer⟩

/-- Whatever is owned is claimed. -/
theorem owned_of_empty (hgroup : kernel.Grouped) {n : String} (hn : kernel.ownedName n = true) :
    n ∈ config.bridge ∨ n ∈ claimed config := by
  obtain ⟨i, hi, howned⟩ := KernelInterfaces.ownedName_iff.mp hn
  by_contra hneither
  rw [not_or] at hneither
  cases hbridge : i.isBridge with
  | true => exact hno (.destroyBridge n) ⟨hneither.1, i, hi, hbridge, howned⟩
  | false =>
    exact hno (.destroyIface n)
      (Or.inr (Or.inr ⟨(hgroup n).mpr hn, hneither.2, i, hi, hbridge⟩))

end

/-- **An empty plan means the kernel conforms**, exactly when no withdrawn bind left its lock
behind and every vlan uplink is on its vlan. -/
theorem empty_conforms_iff (hc : Checked config) (hw : Whole kernel)
    (h : diff config kernel (some pf) = .ok p) (hempty : p.ops = []) :
    Conforms config kernel pf ↔ Unlocked config kernel ∧ OnVlan config kernel := by
  have hno := not_issued h hempty
  constructor
  · intro hconf
    exact ⟨hconf.unlocked, hconf.vlans⟩
  · rintro ⟨hunlocked, hvlans⟩
    exact {
      bridges := fun b br hb => bridge_of_empty hno h hb
      members := fun b br hb n => members_of_empty hno hw.present hb n
      policies := fun b br m member hb hm hk hpol =>
        policy_of_empty hno hb hm hk (hc.hasPolicy hb hm hpol)
      unpoliced := by
        intro n st hst hloaded
        by_contra hnot
        exact hno (.flushAnchor n) ⟨⟨pf, st, rfl, hst, hloaded⟩, Or.inr hnot⟩
      locks := by
        intro b br m member bd hb hm _ hbind mac
        have hlock : kernel.staticLock b m = some bd.mac := by
          by_contra hne
          exact hno (.lockMemberMac b m bd.mac) ⟨br, member, bd, hb, hm, hbind, hne, rfl⟩
        have hhas := KernelInterfaces.hasStatic_of_lock hlock
        constructor
        · intro hmac
          exact hw.single b m mac bd.mac hmac hhas
        · rintro rfl
          exact hhas
      unlocked := hunlocked
      vlans := hvlans
      owned := fun n hn => owned_of_empty hno hw.grouped hn }

end

/-! ## A lock that stays

A port that lost its address keeps the tap and has no bind any more. The planner locks members
with a bind and unlocks nobody, so the plan is empty and the old MAC stays. -/

/-- A tap whose port has no address to be locked to. -/
def looseConfig : Config :=
  { bridge := ⟨[("pbaaa",
      { member := ⟨[("tap0", { type := some .tap })], List.nodup_singleton "tap0"⟩ })],
      List.nodup_singleton "pbaaa"⟩ }

def lockedBridge : Interface :=
  { name := "pbaaa", groups := ["bridge", OWNED_GROUP], members := ["tap0"] }

def lockedTap : Interface := { name := "tap0", groups := ["tap", OWNED_GROUP] }

/-- It is still locked to the MAC it had. -/
def lockedKernel : KernelInterfaces :=
  { interfaces := ⟨[("pbaaa", lockedBridge), ("tap0", lockedTap)], by decide⟩
    owned := ["pbaaa", "tap0"]
    addrs := ⟨[("pbaaa", [("fa:16:3e:00:00:01", "tap0", true)])], by decide⟩ }

theorem diff_loose (inst : Hashlib) : diff looseConfig lockedKernel (some ∅) = .ok {} := rfl

theorem checked_loose : Checked looseConfig where
  dangling := rfl
  segments := by
    intro b br seg hb hseg
    obtain ⟨rfl, rfl⟩ := Prod.mk.inj (List.mem_singleton.mp hb)
    exact absurd hseg (by simp)

/-- Every interface of the view, by name. -/
theorem lockedKernel_cases {n : String} {i : Interface}
    (h : lockedKernel.interfaces.get? n = some i) :
    (n = "pbaaa" ∧ i = lockedBridge) ∨ (n = "tap0" ∧ i = lockedTap) := by
  have hm := Dict.get?_eq_some.mp h
  simpa [lockedKernel] using hm

theorem lockedKernel_static {b m mac : String} (h : lockedKernel.HasStatic b m mac) :
    b = "pbaaa" ∧ m = "tap0" ∧ mac = "fa:16:3e:00:00:01" := by
  unfold KernelInterfaces.HasStatic at h
  cases hg : lockedKernel.addrs.get? b with
  | none =>
    rw [hg] at h
    exact absurd h List.not_mem_nil
  | some t =>
    rw [hg] at h
    have hm := Dict.get?_eq_some.mp hg
    obtain ⟨rfl, rfl⟩ : b = "pbaaa" ∧ t = [("fa:16:3e:00:00:01", "tap0", true)] := by
      simpa [lockedKernel] using hm
    simpa [and_comm] using h

theorem lockedKernel_member {b m : String} (h : m ∈ lockedKernel.membersOf b) :
    b = "pbaaa" ∧ m = "tap0" := by
  obtain ⟨i, hi, hm⟩ := KernelInterfaces.exists_of_member h
  rcases lockedKernel_cases hi with ⟨rfl, rfl⟩ | ⟨rfl, rfl⟩
  · exact ⟨rfl, List.mem_singleton.mp hm⟩
  · exact absurd hm List.not_mem_nil

theorem whole_locked : Whole lockedKernel where
  bridgeless := by
    intro b i m j hi _ hm hj
    rcases lockedKernel_cases hi with ⟨rfl, rfl⟩ | ⟨rfl, rfl⟩
    · obtain rfl := List.mem_singleton.mp hm
      rcases lockedKernel_cases hj with ⟨h, -⟩ | ⟨-, rfl⟩
      · exact absurd h (by decide)
      · decide
    · exact absurd hm List.not_mem_nil
  locked := by
    intro b m mac h
    obtain ⟨rfl, rfl, -⟩ := lockedKernel_static (KernelInterfaces.hasStatic_of_lock h)
    decide
  grouped := by
    intro n
    rw [KernelInterfaces.ownedName_iff]
    constructor
    · intro hn
      have hmem : n = "pbaaa" ∨ n = "tap0" := by simpa [lockedKernel] using hn
      rcases hmem with rfl | rfl <;> exact ⟨_, rfl, by decide⟩
    · rintro ⟨i, hi, -⟩
      rcases lockedKernel_cases hi with ⟨rfl, -⟩ | ⟨rfl, -⟩ <;> decide
  present := by
    intro b m h
    obtain ⟨-, rfl⟩ := lockedKernel_member h
    decide
  single := by
    intro b m mac mac' h h'
    rw [(lockedKernel_static h).2.2, (lockedKernel_static h').2.2]

theorem empty_conforms_iff_loose : @Conforms ⟨id⟩ looseConfig lockedKernel ∅ ↔
    Unlocked looseConfig lockedKernel ∧ OnVlan looseConfig lockedKernel :=
  @empty_conforms_iff ⟨id⟩ _ _ _ {} checked_loose whole_locked (diff_loose ⟨id⟩) rfl

/-- A withdrawn bind is no drift. -/
theorem empty_not_conforming : ¬ ∀ (_ : Hashlib) (config : Config) (kernel : KernelInterfaces)
    (pf : PfState) (p : Plan), Checked config → Whole kernel →
      diff config kernel (some pf) = .ok p → p.ops = [] → Conforms config kernel pf := by
  intro h
  have hconf := h ⟨id⟩ looseConfig lockedKernel ∅ {} checked_loose whole_locked
    (diff_loose ⟨id⟩) rfl
  exact @Conforms.unlocked ⟨id⟩ _ _ _ hconf "pbaaa" _ "tap0" _ (List.mem_singleton_self _)
    (List.mem_singleton_self _) rfl "fa:16:3e:00:00:01" (List.mem_singleton_self _)

end Planner

end Bsdbridge
