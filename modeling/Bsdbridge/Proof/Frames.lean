import Bsdbridge.Host

/-!
# What one op leaves alone

One lemma for each thing a host is read for, saying what an op does to it by naming the only ops
that touch it: an interface that is there (`look_exec_some`), a name that is free
(`look_exec_none`), a lock, an anchor. A fact that a whole plan keeps is then a matter of which ops
the plan does not have.

The hypotheses are inequations between ops (`x ≠ .destroyIface n`), not cases. A plan satisfies
them by what `Issued` says of it, op by op, and the same lemma serves a plan that has no such op
and a stretch of a plan in front of one. All ops work here: this is `Host.exec`, and what a runner
makes of an op is `Proof/Settings` and `Proof/Alike`.
-/

set_option autoImplicit false

namespace Bsdbridge

/-- The interface an op makes. -/
def Op.made : Op → Option Interface
  | .createBridge n v => some (Host.bridgeIface n v)
  | .createVlan n parent vid => some (Host.vlanIface n parent vid)
  | .createVxlan n _ _ _ => some (Host.vxlanIface n)
  | .createTap n d => some (Host.tapIface n d)
  | _ => none

theorem Op.made_owned {x : Op} {i : Interface} (hx : x.made = some i) : i.isOwned = true := by
  cases x <;> simp only [made, reduceCtorEq, Option.some.injEq] at hx <;> subst hx <;> rfl

theorem Op.made_members {x : Op} {i : Interface} (hx : x.made = some i) : i.members = [] := by
  cases x <;> simp only [made, reduceCtorEq, Option.some.injEq] at hx <;> subst hx <;> rfl

namespace Host

variable {h : Host} {x : Op}

/-! ## Interfaces -/

/-- An interface that no op destroys stays, with its groups; its `maxaddr` changes only by a
`SetMaxaddr`, its members only by the ops that name them. -/
theorem look_exec_some {n : String} {i : Interface} (hi : h.look n = some i)
    (hd : x ≠ .destroyIface n) (hd' : x ≠ .destroyBridge n) :
    ∃ i', (h.exec x).look n = some i' ∧ i'.groups = i.groups ∧
      ((∀ v, x ≠ .setMaxaddr n v) → i'.maxaddr = i.maxaddr) ∧
      ∀ m, m ∈ i'.members ↔ (m ∈ i.members ∨ x = .addMember n m) ∧ x ≠ .removeMember n m ∧
        x ≠ .destroyIface m ∧ x ≠ .destroyBridge m := by
  have same : ∀ (y : Interface), h.look n = some i → (h.create y).look n = some i := by
    intro y hi
    rw [look_create]
    split
    · rename_i hc
      rw [hc.1, hc.2] at hi
      exact absurd hi (by simp)
    · exact hi
  cases x with
  | createBridge k v => exact ⟨i, same _ hi, rfl, fun _ => rfl, by simp⟩
  | createVlan k p v => exact ⟨i, same _ hi, rfl, fun _ => rfl, by simp⟩
  | createVxlan k v l p => exact ⟨i, same _ hi, rfl, fun _ => rfl, by simp⟩
  | createTap k d => exact ⟨i, same _ hi, rfl, fun _ => rfl, by simp⟩
  | loadAnchor k f r c => exact ⟨i, hi, rfl, fun _ => rfl, by simp⟩
  | replaceTable k t ms =>
    exact ⟨i, by rw [exec, look_setTable]; exact hi, rfl, fun _ => rfl, by simp⟩
  | flushAnchor k => exact ⟨i, hi, rfl, fun _ => rfl, by simp⟩
  | lockMemberMac b m mac => exact ⟨i, hi, rfl, fun _ => rfl, by simp⟩
  | addMember b m =>
    by_cases hb : n = b
    · subst hb
      refine ⟨{ i with members := if m ∈ i.members then i.members else i.members ++ [m] },
        by simp [exec, hi], rfl, fun _ => rfl, fun m' => ?_⟩
      by_cases hm : m ∈ i.members
      · simp only [hm, if_true]
        by_cases hm' : m' = m
        · simp [hm', hm]
        · simp [Ne.symm hm']
      · simp [hm, eq_comm]
    · exact ⟨i, by simp [exec, hb, hi], rfl, fun _ => rfl, by simp [Ne.symm hb]⟩
  | removeMember b m =>
    by_cases hb : n = b
    · subst hb
      refine ⟨without i m, by simp [exec, hi], rfl, fun _ => rfl, fun m' => ?_⟩
      simp only [without, List.mem_filter, decide_eq_true_eq]
      simp [ne_comm]
    · exact ⟨i, by simp [exec, hb, hi], rfl, fun _ => rfl, by simp [Ne.symm hb]⟩
  | destroyIface k =>
    have hk : n ≠ k := fun hk => hd (by rw [hk])
    refine ⟨without i k, by simp [exec, hk, hi], rfl, fun _ => rfl, fun m' => ?_⟩
    simp only [without, List.mem_filter, decide_eq_true_eq]
    simp [ne_comm]
  | destroyBridge k =>
    have hk : n ≠ k := fun hk => hd' (by rw [hk])
    refine ⟨without i k, by simp [exec, hk, hi], rfl, fun _ => rfl, fun m' => ?_⟩
    simp only [without, List.mem_filter, decide_eq_true_eq]
    simp [ne_comm]
  | setMaxaddr b v =>
    by_cases hb : n = b
    · subst hb
      exact ⟨{ i with maxaddr := some v }, by simp [exec, hi], rfl,
        fun hv => absurd rfl (hv v), by simp⟩
    · exact ⟨i, by simp [exec, hb, hi], rfl, fun _ => rfl, by simp⟩

/-- A free name stays free until an op makes an interface under it. -/
theorem look_exec_none {n : String} (hn : h.look n = none)
    (hm : ∀ i, x.made = some i → i.name ≠ n) : (h.exec x).look n = none := by
  have other : ∀ y : Interface, y.name ≠ n → (h.create y).look n = none := by
    intro y hy
    rw [look_create, if_neg fun hc => hy hc.1.symm, hn]
  cases x with
  | createBridge k v => exact other _ (hm _ rfl)
  | createVlan k p v => exact other _ (hm _ rfl)
  | createVxlan k v l p => exact other _ (hm _ rfl)
  | createTap k d => exact other _ (hm _ rfl)
  | loadAnchor k f r c => exact hn
  | replaceTable k t ms => rw [exec, look_setTable]; exact hn
  | flushAnchor k => exact hn
  | lockMemberMac b m mac => exact hn
  | addMember b m => rcases eq_or_ne n b with rfl | hb <;> simp [exec, *]
  | removeMember b m => rcases eq_or_ne n b with rfl | hb <;> simp [exec, *]
  | destroyIface k => simp [exec, hn]
  | destroyBridge k => simp [exec, hn]
  | setMaxaddr b v => rcases eq_or_ne n b with rfl | hb <;> simp [exec, *]

/-- An op that makes an interface under a free name. -/
theorem look_exec_made {i : Interface} (hx : x.made = some i) (hn : h.look i.name = none) :
    (h.exec x).look i.name = some i := by
  have here : (h.create i).look i.name = some i := by
    rw [look_create, if_pos ⟨rfl, hn⟩]
  cases x <;> simp only [Op.made, reduceCtorEq, Option.some.injEq] at hx <;> subst hx <;>
    exact here

/-- An op that makes an interface leaves one of that name. -/
theorem isSome_exec_made {i : Interface} (hx : x.made = some i) :
    ((h.exec x).look i.name).isSome = true := by
  have here : ((h.create i).look i.name).isSome = true := by
    rw [look_create]
    split
    · rfl
    · rename_i hc
      rw [Option.isSome_iff_ne_none]
      exact fun hn => hc ⟨rfl, hn⟩
  cases x <;> simp only [Op.made, reduceCtorEq, Option.some.injEq] at hx <;> subst hx <;>
    exact here

/-- Where an interface comes from: an op made it under a free name, or it stood there. -/
theorem look_exec_inv {n : String} {i' : Interface} (hi' : (h.exec x).look n = some i') :
    (x.made = some i' ∧ i'.name = n ∧ h.look n = none) ∨
      ∃ i, h.look n = some i ∧ i'.groups = i.groups ∧
        (x ≠ .destroyIface n ∧ x ≠ .destroyBridge n) ∧
        ∀ m, m ∈ i'.members ↔ (m ∈ i.members ∨ x = .addMember n m) ∧ x ≠ .removeMember n m ∧
          x ≠ .destroyIface m ∧ x ≠ .destroyBridge m := by
  cases hn : h.look n with
  | none =>
    by_cases hm : ∃ i, x.made = some i ∧ i.name = n
    · obtain ⟨i, hx, rfl⟩ := hm
      rw [look_exec_made hx hn, Option.some.injEq] at hi'
      subst hi'
      exact Or.inl ⟨hx, rfl, rfl⟩
    · rw [look_exec_none hn fun i hx hname => hm ⟨i, hx, hname⟩] at hi'
      exact absurd hi' (by simp)
  | some i =>
    have hd : x ≠ .destroyIface n := by
      rintro rfl
      simp [exec] at hi'
    have hd' : x ≠ .destroyBridge n := by
      rintro rfl
      simp [exec] at hi'
    obtain ⟨j, hj, hgroups, -, hmem⟩ := look_exec_some hn hd hd'
    rw [hj, Option.some.injEq] at hi'
    subst hi'
    exact Or.inr ⟨i, rfl, hgroups, ⟨hd, hd'⟩, hmem⟩

/-- A name becomes owned only when an interface is made under it. -/
theorem mem_owned_exec {n : String} (hn : n ∈ (h.exec x).kernel.owned) :
    n ∈ h.kernel.owned ∨ ∃ i, x.made = some i ∧ i.name = n ∧ h.look n = none := by
  have made : ∀ i : Interface, n ∈ (h.create i).kernel.owned →
      n ∈ h.kernel.owned ∨ (i.name = n ∧ h.look n = none) := by
    intro i hi
    rcases mem_owned_create.mp hi with hi | ⟨rfl, hnone⟩
    · exact Or.inl hi
    · exact Or.inr ⟨rfl, hnone⟩
  cases x with
  | createBridge k v => exact (made _ hn).imp_right fun h => ⟨_, rfl, h⟩
  | createVlan k p v => exact (made _ hn).imp_right fun h => ⟨_, rfl, h⟩
  | createVxlan k v l p => exact (made _ hn).imp_right fun h => ⟨_, rfl, h⟩
  | createTap k d => exact (made _ hn).imp_right fun h => ⟨_, rfl, h⟩
  | loadAnchor k f r c => exact Or.inl hn
  | replaceTable k t ms => rw [exec, owned_setTable] at hn; exact Or.inl hn
  | flushAnchor k => exact Or.inl hn
  | lockMemberMac b m mac => exact Or.inl hn
  | addMember b m => exact Or.inl (by simpa [exec, addm] using hn)
  | removeMember b m => exact Or.inl (by simpa [exec, deletem, forget] using hn)
  | destroyIface k => exact Or.inl (mem_owned_destroy.mp hn).1
  | destroyBridge k => exact Or.inl (mem_owned_destroy.mp hn).1
  | setMaxaddr b v => exact Or.inl (by simpa [exec, setMaxaddr] using hn)

/-! ## Locks -/

/-- A lock on a standing bridge stays while its member stays and no op locks another MAC. -/
theorem lock_exec_some {b m mac : String} (hl : h.lock b m = some mac)
    (hb : (h.look b).isSome = true) (hr : x ≠ .removeMember b m)
    (hdb : x ≠ .destroyIface b ∧ x ≠ .destroyBridge b)
    (hdm : x ≠ .destroyIface m ∧ x ≠ .destroyBridge m)
    (hlock : ∀ mac', x = .lockMemberMac b m mac' → mac' = mac) :
    (h.exec x).lock b m = some mac := by
  have same : ∀ y : Interface, (h.create y).lock b m = some mac := by
    intro y
    rw [lock_create]
    split
    · rename_i hc
      rw [hc.1, hc.2] at hb
      exact absurd hb (by simp)
    · exact hl
  cases x with
  | createBridge k v => exact same _
  | createVlan k p v => exact same _
  | createVxlan k v l p => exact same _
  | createTap k d => exact same _
  | loadAnchor k f r c => exact hl
  | replaceTable k t ms => rw [exec, lock_setTable]; exact hl
  | flushAnchor k => exact hl
  | lockMemberMac b' m' mac' =>
    simp only [exec, lock_setSticky, lock_setCapped, lock_setStatic]
    split
    · rename_i hc
      rw [hlock mac' (by rw [hc.1, hc.2])]
    · exact hl
  | addMember b' m' => rw [exec, lock_addm]; exact hl
  | removeMember b' m' =>
    rw [exec, lock_deletem, if_neg fun hc => hr (by rw [hc.1, hc.2])]
    exact hl
  | destroyIface k =>
    rw [exec, lock_destroy, if_neg]
    · exact hl
    · rintro (rfl | rfl)
      · exact hdb.1 rfl
      · exact hdm.1 rfl
  | destroyBridge k =>
    rw [exec, lock_destroy, if_neg]
    · exact hl
    · rintro (rfl | rfl)
      · exact hdb.2 rfl
      · exact hdm.2 rfl
  | setMaxaddr b' v => rw [exec, lock_setMaxaddr]; exact hl

/-! ## Anchors -/

/-- An anchor changes only by the ops that name it. -/
theorem anchor_exec {n : String} (hload : ∀ f r c, x ≠ .loadAnchor n f r c)
    (htab : ∀ t ms, x ≠ .replaceTable n t ms) (hfl : x ≠ .flushAnchor n) :
    (h.exec x).anchor n = h.anchor n := by
  cases x with
  | loadAnchor k f r c =>
    rw [exec, anchor_load, if_neg]
    rintro rfl
    exact hload f r c rfl
  | replaceTable k t ms =>
    rw [exec, anchor_setTable, if_neg]
    rintro rfl
    exact htab t ms rfl
  | flushAnchor k =>
    rw [exec, anchor_flush, if_neg]
    rintro rfl
    exact hfl rfl
  | _ => simp [exec]

end Host

end Bsdbridge
