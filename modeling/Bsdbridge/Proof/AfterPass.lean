import Bsdbridge.Proof.Anchors
import Bsdbridge.Proof.Pass

/-!
# What holds after a pass

One theorem for each thing a diff reads: the bridges and interfaces that stand, the members of a
bridge, its locks, the anchors, and what is gone. Each names a fact, shows that every op of the
plan keeps it, and finds the op that brings it about (`foldl_attains`); which ops the plan has is
`mem_ops`.

All of them are about `Host.run`, where every op has its effect, and about the plan of a `Pass`.
That every command of the real writer can fail does not matter here: these are the facts against
which the *second* diff is read, and the second diff of a failed pass is a different question
(`Proof/Retry`, `Proof/States`). A fact that holds before the pass is either kept by all ops, or
its negation is planned against; so most theorems begin with the two cases of the planner's test.

One name has no theorem of that shape. A claimed name that an owned bridge goes by is free after
the pass (`run_held`), since the bridge is destroyed at the end whether or not the name was to be
manufactured. Every theorem about a manufactured name carries that exception.
-/

set_option autoImplicit false

namespace Bsdbridge

namespace Planner

namespace Pass

open Host

variable [Hashlib] {config : Config} {h : Host} {p : Plan}

/-! ## 1. Interfaces

A bridge of the config is made or was there; in either case the limit is set where it differed. -/

/-- A claimed name that an owned bridge goes by is free after the pass. -/
theorem run_held (hp : Pass config h p) {n : String} (hn : n ∈ claimed config)
    (hheld : HeldByBridge h n) : (h.run p.ops).look n = none := by
  have hnot : n ∉ config.bridge := fun hb => hp.shaped.claimedOnce.not_claimed hb hn
  refine run_free (fun x hx i hi hname => ?_) (Or.inr ?_)
  · obtain ⟨hnone, -⟩ := hp.made_free hx hi
    obtain ⟨j, hj, -⟩ := hheld
    rw [hname, hj] at hnone
    exact absurd hnone (by simp)
  · exact (mem_ops hp.planned).mpr ⟨hnot, hheld⟩

/-- Every desired bridge stands after the pass, owned and with its limit. -/
theorem run_bridge (hp : Pass config h p) {b : String} {br : Bridge}
    (hb : (b, br) ∈ config.bridge.entries) : Stands b br (h.run p.ops) := by
  have keep : ∀ x ∈ p.ops, ∀ t, Stands b br t → Stands b br (exec t x) := by
    intro x hx t ht
    refine ht.exec (hp.bridge_stays hb hx) ?_
    rintro v rfl
    obtain ⟨br', _, _, hb', -, -, -, rfl⟩ := hp.issued hx
    rw [Dict.entry_unique hb hb']
  cases hi : h.look b with
  | none =>
    have hk : b ∉ h.kernel := by rw [mem_kernel, hi]; simp
    have hcreate : .createBridge b br.maxAddresses ∈ p.ops :=
      (mem_ops hp.planned).mpr ⟨br, hb, hk, rfl⟩
    have hmake : ∀ t : Host, t.look b = none →
        Stands b br (exec t (.createBridge b br.maxAddresses)) := fun t ht =>
      ⟨_, look_exec_made (i := bridgeIface b br.maxAddresses) rfl ht, ⟨rfl, rfl⟩,
        fun n hn => (Option.some.inj hn).symm⟩
    refine foldl_brings (fun t => t.look b = none ∨ Stands b br t) (Stands b br) (Or.inl hi)
      (fun x hx t ht => ?_) keep ⟨_, hcreate, fun t ht => ?_⟩
    · rcases ht with ht | ht
      · by_cases hm : ∃ i, x.made = some i ∧ i.name = b
        · obtain ⟨i, hxi, rfl⟩ := hm
          rcases (hp.made_free hx hxi).2 with ⟨br', hb', rfl⟩ | ⟨-, hman⟩
          · rw [← Dict.entry_unique hb hb']
            exact Or.inr (hmake t ht)
          · exact absurd (claimed_of_manufactured hman)
              (hp.shaped.claimedOnce.not_claimed (Dict.mem_of_entry hb))
        · exact Or.inl (look_exec_none ht fun i hxi hname => hm ⟨i, hxi, hname⟩)
      · exact Or.inr (keep x hx t ht)
    · rcases ht with ht | ht
      · exact hmake t ht
      · exact keep _ hcreate t ht
  | some i =>
    have howned := diff_bridge_owned hp.planned hb hi
    by_cases hmax : ∀ n, i.maxaddr = some n → n = br.maxAddresses
    · exact foldl_keeps (Stands b br) ⟨i, hi, howned, hmax⟩ keep
    · simp only [not_forall] at hmax
      obtain ⟨n, hn, hne⟩ := hmax
      refine foldl_brings (fun t => HeldByBridge t b) (Stands b br) ⟨i, hi, howned⟩
        (fun x hx t ht => ht.exec (hp.bridge_stays hb hx)) keep
        ⟨.setMaxaddr b br.maxAddresses,
          (mem_ops hp.planned).mpr ⟨br, i, n, hb, hi, hn, hne, rfl⟩, fun t ⟨j, hj, hjo⟩ => ?_⟩
      exact ⟨{ j with maxaddr := some br.maxAddresses }, by simp [exec, hj], hjo,
        fun n hn => (Option.some.inj hn).symm⟩

/-- A typed member that stands after the pass is owned. -/
theorem run_owned (hp : Pass config h p) {b m : String} {br : Bridge} {member : Member}
    (hb : (b, br) ∈ config.bridge.entries) (hm : (m, member) ∈ br.member.entries)
    (ht : member.type.isSome = true) {i : Interface} (hi : (h.run p.ops).look m = some i) :
    i.isOwned = true := by
  refine foldl_keeps (fun t : Host => ∀ i, t.look m = some i → i.isOwned = true)
    (fun i hi => ?_) (fun x _ t hown i' hi' => ?_) i hi
  · have hk : m ∈ h.kernel := by rw [mem_kernel, hi]; rfl
    obtain ⟨j, hj, ho⟩ :=
      KernelInterfaces.ownedName_iff.mp (diff_member_owned hp.planned hb hm ht hk)
    rw [look, hj, Option.some.injEq] at hi
    exact hi ▸ ho
  · rcases look_exec_inv hi' with ⟨hx, -, -⟩ | ⟨j, hj, hgroups, -, -⟩
    · exact Op.made_owned hx
    · rw [Interface.isOwned, hgroups]
      exact hown j hj

/-- A manufactured name stands after the pass, unless an owned bridge went by it. -/
theorem run_manufactured (hp : Pass config h p) {n : String} (hn : Manufactured config n)
    (hfree : ¬ HeldByBridge h n) : ((h.run p.ops).look n).isSome = true := by
  refine foldl_attains (fun _ => True) (fun t : Host => (t.look n).isSome = true) trivial
    (fun _ _ _ _ => trivial) (fun x hx t ht => ?_) ?_
  · obtain ⟨i, hi⟩ := Option.isSome_iff_exists.mp ht
    obtain ⟨hd, hd'⟩ := hp.claimed_stays (claimed_of_manufactured hn) hfree hx
    obtain ⟨i', hi', -⟩ := look_exec_some hi hd hd'
    rw [hi']
    rfl
  · by_cases hk : n ∈ h.kernel
    · exact Or.inl (mem_kernel.mp hk)
    · obtain ⟨x, hx, i, hi, rfl⟩ := exists_made (some h.anchors) hp.shaped.claimedOnce hn hk
      exact Or.inr ⟨x, (mem_ops hp.planned).mpr hx, fun t _ => isSome_exec_made hi⟩

/-! ## 2. Members

The member list of a bridge after the pass is exactly what the config claims of what stands. The
two inclusions are separate, as removes and adds are separate phases. -/

/-- A desired bridge has no member it does not claim. -/
theorem run_foreign (hp : Pass config h p) {b m : String} {br : Bridge}
    (hb : (b, br) ∈ config.bridge.entries) (hm : m ∉ claimsOf config b br) :
    m ∉ (h.run p.ops).kernel.membersOf b := by
  have key : ∀ i, (h.run p.ops).look b = some i → m ∉ i.members := by
    refine foldl_attains (fun _ => True)
      (fun t : Host => ∀ i, t.look b = some i → m ∉ i.members) trivial (fun _ _ _ _ => trivial)
      (fun x hx t hnot i' hi' => ?_) ?_
    · rcases look_exec_inv hi' with ⟨hmade, -, -⟩ | ⟨i, hi, -, -, hmem⟩
      · rw [Op.made_members hmade]
        exact List.not_mem_nil
      · intro hin
        rcases ((hmem m).mp hin).1 with hin | rfl
        · exact hnot i hi hin
        · obtain ⟨br', hb', hwhy⟩ := hp.issued hx
          rw [← Dict.entry_unique hb hb'] at hwhy
          rcases hwhy with ⟨member, hmm, -⟩ | ⟨hu, -⟩
          · exact hm (List.mem_append_right _ (Dict.mem_of_entry hmm))
          · exact hm (List.mem_append_left _ hu)
    · by_cases hin : m ∈ h.kernel.membersOf b
      · refine Or.inr ⟨.removeMember b m,
          (mem_ops hp.planned).mpr ⟨hin, Or.inl ⟨br, hb, hm⟩⟩, fun t _ i hi => ?_⟩
        rcases look_exec_inv hi with ⟨hmade, -⟩ | ⟨_, -, -, -, hmem⟩
        · rw [Op.made_members hmade]
          exact List.not_mem_nil
        · exact fun hin => ((hmem m).mp hin).2.1 rfl
      · refine Or.inl fun i hi hmi => hin ?_
        rw [membersOf_eq, hi]
        exact hmi
  rw [membersOf_eq]
  cases hi : (h.run p.ops).look b with
  | none => exact List.not_mem_nil
  | some i => exact key i hi

/-- A name in its bridge's member list, or added to it, is there after the pass. -/
theorem run_member (hp : Pass config h p) {b n : String} {br : Bridge}
    (hb : (b, br) ∈ config.bridge.entries) (hn : n ∈ claimsOf config b br)
    (hfree : ¬ HeldByBridge h n)
    (hin : n ∈ h.kernel.membersOf b ∨ .addMember b n ∈ p.ops) :
    n ∈ (h.run p.ops).kernel.membersOf b := by
  have hcl : n ∈ claimed config := mem_claimed.mpr ⟨b, br, hb, hn⟩
  have hkeep : ∀ x ∈ p.ops, ∀ t : Host, ∀ i, t.look b = some i →
      ∃ i', (exec t x).look b = some i' ∧ (n ∈ i.members ∨ x = .addMember b n → n ∈ i'.members) := by
    intro x hx t i hi
    obtain ⟨hd, hd'⟩ := hp.bridge_stays hb hx
    obtain ⟨i', hi', -, -, hmem⟩ := look_exec_some hi hd hd'
    obtain ⟨hn1, hn2⟩ := hp.claimed_stays hcl hfree hx
    refine ⟨i', hi', fun hi => (hmem n).mpr ⟨hi, ?_, hn1, hn2⟩⟩
    rintro rfl
    obtain ⟨-, ⟨br', hb', hc⟩ | ⟨hc, -⟩⟩ := hp.issued hx
    · rw [← Dict.entry_unique hb hb'] at hc
      exact hc hn
    · exact hc (Dict.mem_of_entry hb)
  have key := attains_after_creates (h := h) (p := p) (J := fun t => (t.look b).isSome = true)
    (P := fun t => ∃ i, t.look b = some i ∧ n ∈ i.members) ?_ ?_ ?_ ?_
  · obtain ⟨-, i, hi, hni⟩ := key
    rw [membersOf_eq, hi]
    exact hni
  · exact hp.bridge_created hb
  · exact fun x hx => hp.bridge_kept hb hx
  · rintro x hx t - ⟨i, hi, hni⟩
    obtain ⟨i', hi', hmem⟩ := hkeep x hx t i hi
    exact ⟨i', hi', hmem (Or.inl hni)⟩
  · rcases hin with hin | hin
    · rw [membersOf_eq] at hin
      cases hi : h.look b with
      | none => rw [hi] at hin; exact absurd hin List.not_mem_nil
      | some i =>
        rw [hi] at hin
        exact Or.inl ⟨rfl, i, rfl, hin⟩
    · refine Or.inr ⟨_, hin, ?_, fun t ht => ?_⟩
      · intro hc
        rcases hp.made_of_creates hc with hmade | ⟨_, _, hset⟩
        · exact absurd hmade Bool.false_ne_true
        · exact absurd hset (by simp)
      · obtain ⟨i, hi⟩ := Option.isSome_iff_exists.mp ht
        obtain ⟨i', hi', hmem⟩ := hkeep _ hin t i hi
        exact ⟨i', hi', hmem (Or.inr rfl)⟩

/-! ## 3. Locks and anchors

An anchor is followed from its last load on. Nothing after the load flushes it, because the
flushes of a pass are those of stale anchors and of interfaces that go. -/

/-- Every bind is locked after the pass. -/
theorem run_lock (hp : Pass config h p) {b m : String} {br : Bridge} {member : Member}
    {bd : Bind} (hb : (b, br) ∈ config.bridge.entries) (hm : (m, member) ∈ br.member.entries)
    (hbd : member.bind = some bd) (hfree : ¬ HeldByBridge h m) :
    (h.run p.ops).lock b m = some bd.mac := by
  have hc : m ∈ claimsOf config b br := List.mem_append_right _ (Dict.mem_of_entry hm)
  have hcl : m ∈ claimed config := mem_claimed.mpr ⟨b, br, hb, hc⟩
  refine (attains_after_creates (J := fun t => (t.look b).isSome = true)
    (P := fun t => t.lock b m = some bd.mac) (hp.bridge_created hb)
    (fun x hx => hp.bridge_kept hb hx) ?_ ?_).2
  · intro x hx t ht hl
    refine lock_exec_some hl ht ?_ (hp.bridge_stays hb hx) (hp.claimed_stays hcl hfree hx) ?_
    · rintro rfl
      obtain ⟨-, ⟨br', hb', hc'⟩ | ⟨hc', -⟩⟩ := hp.issued hx
      · rw [← Dict.entry_unique hb hb'] at hc'
        exact hc' hc
      · exact hc' (Dict.mem_of_entry hb)
    · rintro mac rfl
      obtain ⟨br', member', bd', hb', hm', hbd', -, rfl⟩ := hp.issued hx
      obtain ⟨-, rfl⟩ := hp.shaped.claimedOnce.one_member hb hb' hm hm'
      rw [hbd] at hbd'
      rw [Option.some.inj hbd']
  · by_cases hl : h.kernel.staticLock b m = some bd.mac
    · refine Or.inl ⟨?_, hl⟩
      -- a lock is that of a member, so its bridge stands
      have hmem := hp.consistent.locked b m bd.mac hl
      rw [membersOf_eq] at hmem
      cases hi : h.look b with
      | none => rw [hi] at hmem; exact absurd hmem List.not_mem_nil
      | some i => rfl
    · have hx : .lockMemberMac b m bd.mac ∈ p.ops :=
        (mem_ops hp.planned).mpr ⟨br, member, bd, hb, hm, hbd, hl, rfl⟩
      refine Or.inr ⟨_, hx, fun hc => ?_, fun t _ => by simp [exec]⟩
      rcases hp.made_of_creates hc with hmade | ⟨_, _, hset⟩
      · exact absurd hmade Bool.false_ne_true
      · exact absurd hset (by simp)

/-- No op of the plan flushes the anchor of a policied member. -/
theorem not_flushed (hp : Pass config h p) {m : String} (hm : m ∈ policied config) :
    .flushAnchor m ∉ p.ops := by
  intro hx
  obtain ⟨-, hd | hd⟩ := hp.issued hx
  · exact hp.not_displaced (claimed_of_policied hm)
      ((destroyIface_claimed hp.planned (claimed_of_policied hm)).mp
        ((mem_ops hp.planned (x := .destroyIface m)).mpr hd))
  · exact hd hm

/-- The anchor of a typed member with a policy carries its rules and its tables after the
pass. -/
theorem run_anchor (hp : Pass config h p) {b m : String} {br : Bridge} {member : Member}
    (hb : (b, br) ∈ config.bridge.entries) (hm : (m, member) ∈ br.member.entries)
    (ht : member.type.isSome = true) (hpol : HasPolicy config member) :
    ∃ st, (h.run p.ops).anchor m = some st ∧ Carries config m member st ∧
      ∀ name ms, (name, ms) ∈ tablesOf config member → TableOk name ms st := by
  have htab := diff_tables hp.planned hb hm hpol
  have hnofl := hp.not_flushed (policied_of_policy hb hm hpol)
  -- what an op of the plan can do to the anchor
  have hcases : ∀ x ∈ p.ops, ∀ t : Host, (exec t x).anchor m = t.anchor m ∨
      x = loadFor config m member ∨
      ∃ name ms, x = .replaceTable m name ms ∧ (name, ms) ∈ tablesOf config member := by
    intro x hx t
    by_cases hl : ∃ f r c, x = .loadAnchor m f r c
    · obtain ⟨f, r, c, rfl⟩ := hl
      obtain ⟨b', br', member', hb', hm', -, heq⟩ := hp.issued hx
      obtain ⟨-, rfl⟩ := hp.shaped.claimedOnce.one_member hb hb' hm hm'
      exact Or.inr (Or.inl heq)
    · by_cases hr : ∃ name ms, x = .replaceTable m name ms
      · obtain ⟨name, ms, rfl⟩ := hr
        obtain ⟨b', br', member', hb', hm', -, hin, -⟩ := hp.issued hx
        obtain ⟨-, rfl⟩ := hp.shaped.claimedOnce.one_member hb hb' hm hm'
        exact Or.inr (Or.inr ⟨name, ms, rfl, hin⟩)
      · refine Or.inl (anchor_exec (fun f r c hx => hl ⟨f, r, c, hx⟩)
          (fun name ms hx => hr ⟨name, ms, hx⟩) ?_)
        rintro rfl
        exact hnofl hx
  have keepJ : ∀ x ∈ p.ops, ∀ t : Host,
      (∃ st, t.anchor m = some st ∧ Carries config m member st) →
      ∃ st, (exec t x).anchor m = some st ∧ Carries config m member st := by
    rintro x hx t ⟨st, hst, hc⟩
    rcases hcases x hx t with hsame | rfl | ⟨name, ms, rfl, -⟩
    · exact ⟨st, hsame.trans hst, hc⟩
    · obtain ⟨st', hst', hc', -⟩ := load_carries (h := t) (m := m) htab
      exact ⟨st', hst', hc'⟩
    · obtain ⟨st', hst', hc', -⟩ := replace_tableOk config member name name ms ms hst
      exact ⟨st', hst', hc' hc⟩
  have keep : ∀ name ms, (name, ms) ∈ tablesOf config member → ∀ x ∈ p.ops, ∀ t : Host,
      (∃ st, t.anchor m = some st ∧ Carries config m member st ∧ TableOk name ms st) →
      ∃ st, (exec t x).anchor m = some st ∧ Carries config m member st ∧ TableOk name ms st := by
    rintro name ms hin x hx t ⟨st, hst, hc, hok⟩
    rcases hcases x hx t with hsame | rfl | ⟨name', ms', rfl, hin'⟩
    · exact ⟨st, hsame.trans hst, hc, hok⟩
    · obtain ⟨st', hst', hc', hok'⟩ := load_carries (h := t) (m := m) htab
      exact ⟨st', hst', hc', hok' name ms hin⟩
    · obtain ⟨st', hst', hc', hok'⟩ := replace_tableOk config member name name' ms ms' hst
      refine ⟨st', hst', hc' hc, hok' ?_⟩
      by_cases hn : name' = name
      · subst hn
        exact Or.inl ⟨rfl, Dict.entry_unique (d := ⟨_, nodup_tables htab⟩) hin' hin⟩
      · exact Or.inr ⟨hn, hok⟩
  have hloads : ¬ Surviving config (some h.anchors) m member → loadFor config m member ∈ p.ops := by
    intro hs
    refine (mem_ops hp.planned).mpr ⟨b, br, member, hb, hm, ⟨hpol, hs, ?_⟩, rfl⟩
    by_cases hk : m ∈ h.kernel
    · exact Or.inr ⟨hk, rfl⟩
    · exact Or.inl (Or.inl ⟨hk, ht⟩)
  have hcarry : ∃ st, (h.run p.ops).anchor m = some st ∧ Carries config m member st := by
    refine foldl_attains (fun _ => True)
      (fun t : Host => ∃ st, t.anchor m = some st ∧ Carries config m member st) trivial
      (fun _ _ _ _ => trivial) keepJ ?_
    by_cases hs : Surviving config (some h.anchors) m member
    · obtain ⟨anchors, st, hpf, hst, hl, hh⟩ := hs
      cases hpf
      exact Or.inl ⟨st, hst, hl, hh⟩
    · refine Or.inr ⟨_, hloads hs, fun t _ => ?_⟩
      obtain ⟨st, hst, hc, -⟩ := load_carries (h := t) (m := m) htab
      exact ⟨st, hst, hc⟩
  obtain ⟨st, hst, hc⟩ := hcarry
  refine ⟨st, hst, hc, fun name ms hin => ?_⟩
  have htable : ∃ st, (h.run p.ops).anchor m = some st ∧ Carries config m member st ∧
      TableOk name ms st := by
    by_cases hs : Surviving config (some h.anchors) m member
    · obtain ⟨anchors, st₀, hpf, hst₀, hl, hh⟩ := hs
      cases hpf
      refine foldl_attains (fun t : Host => ∃ st, t.anchor m = some st ∧
        Carries config m member st) _ ⟨st₀, hst₀, hl, hh⟩ keepJ (keep name ms hin) ?_
      by_cases hok : TableOk name ms st₀
      · exact Or.inl ⟨st₀, hst₀, ⟨hl, hh⟩, hok⟩
      · refine Or.inr ⟨.replaceTable m name ms, (mem_ops hp.planned).mpr ⟨b, br, member, hb, hm,
          hpol, hin, _, st₀, rfl, hst₀, hl, hh, hok⟩, fun t ⟨st, hst, hc⟩ => ?_⟩
        obtain ⟨st', hst', hc', hok'⟩ := replace_tableOk config member name name ms ms hst
        exact ⟨st', hst', hc' hc, hok' (Or.inl ⟨rfl, rfl⟩)⟩
    · refine foldl_brings (fun _ => True) _ trivial (fun _ _ _ _ => trivial) (keep name ms hin)
        ⟨_, hloads hs, fun t _ => ?_⟩
      obtain ⟨st, hst, hc, hok⟩ := load_carries (h := t) (m := m) htab
      exact ⟨st, hst, hc, hok name ms hin⟩
  obtain ⟨st', hst', -, hok⟩ := htable
  rw [hst] at hst'
  exact Option.some.inj hst' ▸ hok

/-! ## 4. What is gone

Teardown has four paths, and what it misses would be seen by the next diff: owned bridges, owned
interfaces, and loaded anchors that nothing claims. -/

/-- No owned bridge outside the config is left. -/
theorem run_unwanted (hp : Pass config h p) {n : String} (hn : n ∉ config.bridge) :
    ¬ HeldByBridge (h.run p.ops) n := by
  have key : ∀ i, (h.run p.ops).look n = some i → ¬ (i.isBridge = true ∧ i.isOwned = true) := by
    refine foldl_attains (fun _ => True)
      (fun t : Host => ∀ i, t.look n = some i → ¬ (i.isBridge = true ∧ i.isOwned = true)) trivial
      (fun _ _ _ _ => trivial) (fun x hx t hno i' hi' => ?_) ?_
    · rcases look_exec_inv hi' with ⟨hmade, rfl, -⟩ | ⟨i, hi, hgroups, -, -⟩
      · rcases (hp.made_free hx hmade).2 with ⟨br, hb, -⟩ | ⟨hnb, -⟩
        · exact absurd (Dict.mem_of_entry hb) hn
        · rw [hnb]
          exact fun h => absurd h.1 (by decide)
      · rw [Interface.isBridge, Interface.isOwned, hgroups]
        exact hno i hi
    · by_cases hheld : HeldByBridge h n
      · refine Or.inr ⟨.destroyBridge n, (mem_ops hp.planned).mpr ⟨hn, hheld⟩, fun t _ i hi => ?_⟩
        simp [exec] at hi
      · exact Or.inl fun i hi hbo => hheld ⟨i, hi, hbo⟩
  rintro ⟨i, hi, hbo⟩
  exact key i hi hbo

/-- No owned interface outside the claims is left. -/
theorem run_orphan (hp : Pass config h p) {n : String} (hn : n ∉ claimed config)
    (ho : n ∈ (h.run p.ops).kernel.owned) {i : Interface}
    (hi : (h.run p.ops).look n = some i) : i.isBridge = true := by
  refine foldl_attains (fun _ => True)
    (fun t : Host => n ∈ t.kernel.owned → ∀ i, t.look n = some i → i.isBridge = true) trivial
    (fun _ _ _ _ => trivial) (fun x hx t hok ho i' hi' => ?_) ?_ ho i hi
  · -- what is made under an unclaimed name is a bridge
    have hmade : ∀ j, x.made = some j → j.name = n → j.isBridge = true := by
      rintro j hj rfl
      rcases (hp.made_free hx hj).2 with ⟨br, -, rfl⟩ | ⟨-, hman⟩
      · rw [← Option.some.inj hj]
        rfl
      · exact absurd (claimed_of_manufactured hman) hn
    rcases look_exec_inv hi' with ⟨hm, hname, -⟩ | ⟨j, hj, hgroups, -, -⟩
    · exact hmade i' hm hname
    · rcases mem_owned_exec ho with ho | ⟨_, -, -, hnone⟩
      · rw [Interface.isBridge, hgroups]
        exact hok ho j hj
      · rw [hj] at hnone
        exact absurd hnone (by simp)
  · by_cases horph : Orphan config h.kernel n
    · refine Or.inr ⟨.destroyIface n, (mem_ops hp.planned).mpr (Or.inr (Or.inr horph)),
        fun t _ _ i hi => ?_⟩
      simp [exec] at hi
    · refine Or.inl fun ho i hi => ?_
      by_contra hnb
      exact horph ⟨ho, hn, i, hi, by simpa using hnb⟩

/-- No anchor without a policy is left loaded. -/
theorem run_stale (hp : Pass config h p) {n : String} (hn : n ∉ policied config)
    {st : Pf.AnchorState} (hst : (h.run p.ops).anchor n = some st) : st.isLoaded = false := by
  refine foldl_attains (fun _ => True)
    (fun t : Host => ∀ st, t.anchor n = some st → st.isLoaded = false) trivial
    (fun _ _ _ _ => trivial) (fun x hx t hno st hst => ?_) ?_ st hst
  · by_cases hfl : x = .flushAnchor n
    · subst hfl
      simp [exec] at hst
    · rw [anchor_exec ?_ ?_ hfl] at hst
      · exact hno st hst
      · rintro f r c rfl
        obtain ⟨b, br, member, hb, hm, ⟨hpol, -⟩, -⟩ := hp.issued hx
        exact hn (policied_of_policy hb hm hpol)
      · rintro name ms rfl
        obtain ⟨b, br, member, hb, hm, hpol, -⟩ := hp.issued hx
        exact hn (policied_of_policy hb hm hpol)
  · by_cases hl : Loaded (some h.anchors) n
    · exact Or.inr ⟨.flushAnchor n, (mem_ops hp.planned).mpr ⟨hl, Or.inr hn⟩,
        fun t _ st hst => by simp [exec] at hst⟩
    · refine Or.inl fun st hst => ?_
      by_contra hnl
      exact hl ⟨h.anchors, st, rfl, hst, by simpa using hnl⟩

end Pass

end Planner

end Bsdbridge
