import Bsdbridge.Proof.Claimed
import Bsdbridge.Proof.Frames
import Bsdbridge.Proof.Returns

/-!
# What a plan leaves alone

The host's other interfaces are not the agent's business. A plan may take a foreign interface out
of a bridge the agent owns, and that is all: it edits owned bridges only, destroys owned interfaces
only, and makes nothing under a name that is taken. **`leaves_foreign`** says so for every config,
every kernel view and every view of the anchors.

Ownership is the interface group, as the reader sees it, and a name is owned when it carries the
group. The planner asks the same question in two spellings, by the set of owned names it is given
and by the groups of an interface; `Grouped` says that a view answers them alike, as the reader
builds it. It is the one hypothesis.

Nothing is said about foreign interfaces *joining* an owned bridge. They may: a typeless member is
one by design, and `Proof/Refusal` has the uplink that becomes one by omission.
-/

set_option autoImplicit false

namespace Bsdbridge

namespace KernelInterfaces

/-- The kernel has an owned bridge of this name. -/
def OwnedBridge (k : KernelInterfaces) (b : String) : Prop :=
  ∃ i, k.interfaces.get? b = some i ∧ i.isBridge = true ∧ i.isOwned = true

/-- The owned names are those of the interfaces that carry the ownership group. -/
def Grouped (k : KernelInterfaces) : Prop := ∀ n, n ∈ k.owned ↔ k.ownedName n = true

theorem OwnedBridge.owned {k : KernelInterfaces} {b : String} (h : k.OwnedBridge b) :
    k.ownedName b = true := by
  obtain ⟨i, hi, -, ho⟩ := h
  exact ownedName_iff.mpr ⟨i, hi, ho⟩

/-- A bridge with a member is there. -/
theorem exists_of_member {k : KernelInterfaces} {b m : String} (h : m ∈ k.membersOf b) :
    ∃ i, k.interfaces.get? b = some i ∧ m ∈ i.members := by
  unfold membersOf at h
  cases hb : k.interfaces.get? b with
  | none =>
    rw [hb] at h
    exact absurd h List.not_mem_nil
  | some i =>
    rw [hb] at h
    exact ⟨i, rfl, h⟩

end KernelInterfaces

namespace Planner

/-! ## 1. Foreign interfaces

Each clause of `LeavesForeign` is read off `Issued`, so there is one case per kind of op. -/

/-- A plan that keeps to the agent's own interfaces. -/
structure LeavesForeign (kernel : KernelInterfaces) (p : Plan) : Prop where
  /-- What is destroyed is owned. -/
  destroys : ∀ n, .destroyIface n ∈ p.ops ∨ .destroyBridge n ∈ p.ops → kernel.ownedName n = true
  /-- A bridge that is edited is owned. -/
  edits : ∀ b, (∃ m, .removeMember b m ∈ p.ops) ∨ (∃ v, .setMaxaddr b v ∈ p.ops) →
    kernel.OwnedBridge b
  /-- A bridge that is joined is owned, or made by the plan. -/
  joins : ∀ b m, .addMember b m ∈ p.ops ∨ (∃ mac, .lockMemberMac b m mac ∈ p.ops) →
    kernel.OwnedBridge b ∨ ∃ v, .createBridge b v ∈ p.ops
  /-- What is made was absent. -/
  creates : ∀ x ∈ p.ops, ∀ i, x.made = some i → i.name ∉ kernel

section

variable {config : Config} {kernel : KernelInterfaces}

theorem Unwanted.ownedBridge {n : String} (h : Unwanted config kernel n) :
    kernel.OwnedBridge n := h.2

/-- Whatever is destroyed is owned. -/
theorem Destroyed.owned (hgroup : kernel.Grouped) {n : String}
    (h : Destroyed config kernel n) : kernel.ownedName n = true := by
  rcases h with ht | ⟨hev, -⟩ | ho
  · exact ht.1
  · exact hev.1
  · exact (hgroup n).mp ho.1

variable [Hashlib] {pf : Option PfState} {p : Plan}

/-- A desired bridge is owned, or the plan makes it. -/
theorem bridge_owned_or_made (h : diff config kernel pf = .ok p) {b : String} {br : Bridge}
    (hb : (b, br) ∈ config.bridge.entries) :
    kernel.OwnedBridge b ∨ ∃ v, .createBridge b v ∈ p.ops := by
  cases hi : kernel.interfaces.get? b with
  | some i => exact Or.inl ⟨i, hi, diff_bridge_owned h hb hi⟩
  | none =>
    right
    refine ⟨br.maxAddresses, (mem_ops h).mpr ?_⟩
    show ∃ br', (b, br') ∈ config.bridge.entries ∧ b ∉ kernel ∧ br.maxAddresses = br'.maxAddresses
    exact ⟨br, hb, Dict.get?_eq_none.mp hi, rfl⟩

/-- What an op makes was absent. -/
theorem Issued.made_absent {x : Op} (hx : Issued config kernel pf x) {i : Interface}
    (hi : x.made = some i) : i.name ∉ kernel := by
  cases x with
  | createBridge b v =>
    obtain ⟨br, -, hk, -⟩ := hx
    cases hi
    exact hk
  | createVlan n parent vid =>
    obtain ⟨b, br, seg, -, -, -, -, -, hk, -⟩ := hx
    cases hi
    exact hk
  | createVxlan n vni ep peer =>
    obtain ⟨b, br, seg, vx, -, -, -, -, hk, -⟩ := hx
    cases hi
    exact hk
  | createTap m d =>
    obtain ⟨b, br, member, -, -, hk, -⟩ := hx
    cases hi
    exact hk
  | _ => exact absurd hi (by simp [Op.made])

/-- **Foreign state is left alone.** -/
theorem leaves_foreign (hgroup : kernel.Grouped) (h : diff config kernel pf = .ok p) :
    LeavesForeign kernel p where
  destroys := by
    intro n hn
    rcases hn with hn | hn
    · have hd : Destroyed config kernel n := (mem_ops h).mp hn
      exact hd.owned hgroup
    · have hu : Unwanted config kernel n := (mem_ops h).mp hn
      exact hu.ownedBridge.owned
  edits := by
    intro b hb
    rcases hb with ⟨m, hm⟩ | ⟨v, hv⟩
    · obtain ⟨hmem, ⟨br, hbr, -⟩ | hu⟩ := (mem_ops h).mp hm
      · obtain ⟨i, hi, -⟩ := KernelInterfaces.exists_of_member hmem
        exact ⟨i, hi, diff_bridge_owned h hbr hi⟩
      · exact hu.ownedBridge
    · obtain ⟨br, i, n, hbr, hi, -⟩ := (mem_ops h).mp hv
      exact ⟨i, hi, diff_bridge_owned h hbr hi⟩
  joins := by
    intro b m hm
    rcases hm with hm | ⟨mac, hm⟩
    · obtain ⟨br, hbr, -⟩ := (mem_ops h).mp hm
      exact bridge_owned_or_made h hbr
    · obtain ⟨br, member, bd, hbr, -⟩ := (mem_ops h).mp hm
      exact bridge_owned_or_made h hbr
  creates := by
    intro x hx i hi
    exact ((mem_ops h).mp hx).made_absent hi

end

/-- The two bridges and the tap of `movedKernel` are left to their owner. -/
theorem leaves_foreign_moved : LeavesForeign movedKernel movedPlan := by
  refine @leaves_foreign movedConfig movedKernel ⟨id⟩ none movedPlan ?_ (diff_moved ⟨id⟩)
  intro n
  rw [KernelInterfaces.ownedName_iff]
  constructor
  · intro hn
    have hall : ∀ k ∈ movedKernel.owned, ∃ i, movedKernel.interfaces.get? k = some i ∧
        i.isOwned = true := by
      intro k hk
      simp only [movedKernel, List.mem_cons, List.not_mem_nil, or_false] at hk
      rcases hk with rfl | rfl | rfl <;> exact ⟨_, rfl, by decide⟩
    exact hall n hn
  · rintro ⟨i, hi, -⟩
    have hkeys : movedKernel.interfaces.keys = movedKernel.owned := rfl
    exact hkeys ▸ Dict.mem_of_get? hi

end Planner

end Bsdbridge
