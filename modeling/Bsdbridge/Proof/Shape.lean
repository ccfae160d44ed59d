import Bsdbridge.L2Agent.Reconcile
import Bsdbridge.Proof.Claimed

/-!
# Configs of the builder's shape

`port_config.build` writes taps with a policy, service epairs without one, and never one name
twice. A config of that shape has, for every name, one owner: these are the facts a pass over a
whole host rests on. Of the kernel view only two things are asked.

The shape is stated for configs and not for what built them, so that a config from a document can
have it too. `Proof/Wired` shows that what `build` returns has it, once no name is claimed twice;
that last part is not `build`'s to see to, since names are cut short.

`ClaimedOnce` is the clause that most results need and it is spelled as the reader of names spells
it: the list of the names to check has no duplicates. From there each use is a lemma: one bridge
for a member, no member that is an uplink, one entry for a name.
-/

set_option autoImplicit false

namespace Bsdbridge

namespace Planner

/-- Every name is claimed once: a bridge, a member, an uplink. -/
def ClaimedOnce (config : Config) : Prop :=
  ∃ names, Reconcile.namesToCheck config = .ok names ∧ names.Nodup

/-- The shape of a built config. -/
structure Shaped (config : Config) : Prop where
  /-- Typed members are taps. -/
  taps : ∀ e ∈ config.bridge.entries, ∀ f ∈ e.2.member.entries, f.2.type ≠ some .epair
  /-- Typeless members carry neither filter nor bind. -/
  bare : ∀ e ∈ config.bridge.entries, ∀ f ∈ e.2.member.entries,
    f.2.type = none → f.2.filter = none ∧ f.2.bind = none
  /-- Every name is claimed once. -/
  once : ∃ names, Reconcile.namesToCheck config = .ok names ∧ names.Nodup

/-- A kernel view as a kernel can present it: a bridge is nobody's member, and a static entry
is that of a member. -/
structure Consistent (k : KernelInterfaces) : Prop where
  bridgeless : ∀ b i m j, k.interfaces.get? b = some i → i.isBridge = true → m ∈ i.members →
    k.interfaces.get? m = some j → j.isBridge = false
  locked : ∀ b m mac, k.staticLock b m = some mac → m ∈ k.membersOf b

/-- No claimed interface sits in a bridge other than the one claiming it. -/
def Settled (config : Config) (k : KernelInterfaces) : Prop :=
  ∀ n ∈ claimed config, ∀ b i, k.interfaces.get? b = some i → i.isBridge = true →
    n ∈ i.members → ∃ br, (b, br) ∈ config.bridge.entries ∧ n ∈ claimsOf config b br

/-- A member with a filter or a bind. -/
def Policied (member : Member) : Prop :=
  (truthy member.filter).isSome = true ∨ member.bind.isSome = true

section Policied

variable {config : Config}

theorem policied_of_mem {b m : String} {br : Bridge} {member : Member}
    (hb : (b, br) ∈ config.bridge.entries) (hm : (m, member) ∈ br.member.entries)
    (hpol : Policied member) : m ∈ policied config := by
  refine List.mem_flatMap.mpr ⟨br, List.mem_map.mpr ⟨(b, br), hb, rfl⟩, ?_⟩
  refine List.mem_map.mpr ⟨(m, member), List.mem_filter.mpr ⟨hm, ?_⟩, rfl⟩
  rwa [Bool.or_eq_true]

theorem policied_of_policy {b m : String} {br : Bridge} {member : Member}
    (hb : (b, br) ∈ config.bridge.entries) (hm : (m, member) ∈ br.member.entries)
    (hpol : HasPolicy config member) : m ∈ policied config := by
  refine policied_of_mem hb hm (hpol.imp_left fun hf => ?_)
  unfold filterOf at hf
  cases ht : truthy member.filter with
  | none => rw [ht] at hf; exact absurd hf Bool.false_ne_true
  | some f => rfl

theorem claimed_of_policied {m : String} (hm : m ∈ policied config) : m ∈ claimed config := by
  unfold policied at hm
  obtain ⟨br, hbr, hm⟩ := List.mem_flatMap.mp hm
  obtain ⟨⟨b, br'⟩, hb, rfl⟩ := List.mem_map.mp hbr
  obtain ⟨⟨m', member⟩, hmem, rfl⟩ := List.mem_map.mp hm
  exact mem_claimed.mpr ⟨b, br', hb,
    List.mem_append_right _ (Dict.mem_of_entry (List.mem_filter.mp hmem).1)⟩

end Policied

namespace ClaimedOnce

variable {config : Config}

/-- The names of a config, as one list without repetition. -/
theorem names (hs : ClaimedOnce config) :
    (config.bridge.keys ++ (config.bridge.entries.map fun e =>
      e.2.member.keys ++ uplinksOf config e.1 e.2).flatten).Nodup ∧
    ∀ b br, (b, br) ∈ config.bridge.entries →
      uplinkNames b br config = .ok (uplinksOf config b br) := by
  obtain ⟨names, hnames, hnodup⟩ := hs
  unfold Reconcile.namesToCheck at hnames
  obtain ⟨lists, hl, h⟩ := Except.bind_eq_ok.mp hnames
  have hforall := mapM_eq_ok.mp hl
  have heach : List.Forall₂ (fun (e : String × Bridge) l =>
      uplinkNames e.1 e.2 config = .ok (uplinksOf config e.1 e.2) ∧
        l = e.2.member.keys ++ uplinksOf config e.1 e.2) config.bridge.entries lists := by
    refine hforall.imp fun e l hel => ?_
    obtain ⟨ups, hups, hl⟩ := Except.bind_eq_ok.mp hel
    rw [uplinksOf_ok hups]
    exact ⟨hups, (Except.pure_eq_ok.mp hl).symm⟩
  have hlists : lists = config.bridge.entries.map fun e =>
      e.2.member.keys ++ uplinksOf config e.1 e.2 :=
    eq_map_of_forall₂ (heach.imp fun _ _ he => he.2)
  constructor
  · rw [← hlists, Except.pure_eq_ok.mp h]
    exact hnodup
  · intro b br hb
    obtain ⟨l, -, hup, -⟩ := exists_of_mem_left heach hb
    exact hup

/-- The names of a config, round by round. -/
theorem rounds (hs : ClaimedOnce config) :
    (config.bridge.entries.flatMap fun e => e.1 :: claimsOf config e.1 e.2).Nodup := by
  have hperm : (config.bridge.entries.flatMap fun e => e.1 :: claimsOf config e.1 e.2).Perm
      (config.bridge.keys ++ (config.bridge.entries.map fun e =>
        e.2.member.keys ++ uplinksOf config e.1 e.2).flatten) := by
    have hkeys : config.bridge.keys = config.bridge.entries.flatMap fun e => [e.1] :=
      List.map_eq_flatMap
    rw [hkeys, ← List.flatMap_def]
    refine List.Perm.trans ?_ (List.flatMap_append_perm _ _ _).symm
    refine List.Perm.flatMap_left _ fun e _ => ?_
    exact (@List.perm_append_comm _ (uplinksOf config e.1 e.2) _).cons _
  exact hperm.nodup_iff.mpr hs.names.1

/-- The claims of every bridge, as `claimsOf` lists them. -/
theorem mem_names {b n : String} {br : Bridge} :
    n ∈ br.member.keys ++ uplinksOf config b br ↔ n ∈ claimsOf config b br := by
  rw [claimsOf, List.mem_append, List.mem_append, or_comm]

/-- A bridge's name is claimed by no bridge. -/
theorem not_claimed (hs : ClaimedOnce config) {n : String} (hn : n ∈ config.bridge) :
    n ∉ claimed config := by
  intro hc
  obtain ⟨b, br, hb, hm⟩ := mem_claimed.mp hc
  have hdis := (List.nodup_append.mp hs.names.1).2.2
  refine hdis n hn n ?_ rfl
  exact List.mem_flatten.mpr ⟨_, List.mem_map.mpr ⟨(b, br), hb, rfl⟩, mem_names.mpr hm⟩

/-- Two bridges that claim one name are one bridge. -/
theorem one_bridge (hs : ClaimedOnce config) {b b' n : String} {br br' : Bridge}
    (hb : (b, br) ∈ config.bridge.entries) (hb' : (b', br') ∈ config.bridge.entries)
    (hn : n ∈ claimsOf config b br) (hn' : n ∈ claimsOf config b' br') :
    b = b' ∧ br = br' := by
  by_cases heq : (b, br) = (b', br')
  · exact Prod.mk.inj heq
  · have hpw := (List.nodup_flatten.mp (List.nodup_append.mp hs.names.1).2.1).2
    rw [List.pairwise_map] at hpw
    have hsymm : Std.Symm fun e e' : String × Bridge =>
        (e.2.member.keys ++ uplinksOf config e.1 e.2).Disjoint
          (e'.2.member.keys ++ uplinksOf config e'.1 e'.2) := ⟨fun _ _ h => h.symm⟩
    exact absurd (mem_names.mpr hn') (hpw.forall hb hb' heq (mem_names.mpr hn))

/-- A member is no uplink of its bridge. -/
theorem member_not_uplink (hs : ClaimedOnce config) {b n : String} {br : Bridge}
    (hb : (b, br) ∈ config.bridge.entries) (hn : n ∈ br.member.keys) :
    n ∉ uplinksOf config b br := by
  intro hu
  have hnd := (List.nodup_flatten.mp (List.nodup_append.mp hs.names.1).2.1).1
    (br.member.keys ++ uplinksOf config b br) (List.mem_map.mpr ⟨(b, br), hb, rfl⟩)
  exact (List.nodup_append.mp hnd).2.2 n hn n hu rfl

/-- A member name stands for one member of one bridge. -/
theorem one_member (hs : ClaimedOnce config) {b b' n : String} {br br' : Bridge}
    {member member' : Member} (hb : (b, br) ∈ config.bridge.entries)
    (hb' : (b', br') ∈ config.bridge.entries) (hn : (n, member) ∈ br.member.entries)
    (hn' : (n, member') ∈ br'.member.entries) : b = b' ∧ member = member' := by
  have hc : n ∈ claimsOf config b br := List.mem_append_right _ (Dict.mem_of_entry hn)
  have hc' : n ∈ claimsOf config b' br' := List.mem_append_right _ (Dict.mem_of_entry hn')
  obtain ⟨rfl, rfl⟩ := hs.one_bridge hb hb' hc hc'
  exact ⟨rfl, Dict.entry_unique hn hn'⟩

end ClaimedOnce

theorem Shaped.claimedOnce {config : Config} (hs : Shaped config) : ClaimedOnce config := hs.once

end Planner

end Bsdbridge
