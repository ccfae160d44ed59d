import Bsdbridge.Proof.AfterPass

/-!
# One pass converges

Run the ops of a plan on the host it was made for, and diff again: **`converges_iff`** says when
nothing is left to do. The second diff is read through `Issued`, so the proof is one case per op:
each names what `Proof.AfterPass` says against it.

The one way a pass of a shaped config fails to converge is a name that the config manufactures and
the kernel holds by an owned bridge: the teardown does not look at the claims, destroys the bridge,
and the next pass has to make the interface. It is a condition on the config and the kernel, both
as they are before the pass.

## What is assumed of a pass

`Pass` collects it: the config is `Shaped` as the agent's own configs are (taps only, no policy on
a typeless member, each name claimed once), the kernel is consistent, a claimed interface that is
in a bridge is in its own, and the plan is what the diff of the host made. Every command works,
which is what running the ops with `Host.run` says; that a real runner comes to the same host when
none of its commands fail is `Proof/Alike`. Nothing happens between the two diffs, and the second
one is given the anchors of the host after the run, so a load that the first pass left out because
the hash was right is left out again.
-/

set_option autoImplicit false

namespace Bsdbridge

namespace Planner

section

variable [Hashlib]

namespace Pass

open Host

variable {config : Config} {h : Host} {p : Plan}

/-! ## 1. The second diff

Which op is issued is known by cases (`Issued`), and each case has its reason not to be: the
interface is there, the member is in, the lock is set, the anchor is loaded, the orphan is gone. -/

/-- The second diff returns. -/
theorem rediff (hp : Pass config h p) :
    ∃ q, diff config (h.run p.ops).kernel (some (h.run p.ops).anchors) = .ok q := by
  refine diff_total hp.planned _ _ (fun b br hb i hi => ?_) (fun b br m member hb hm ht hk => ?_)
  · obtain ⟨j, hj, howned, -⟩ := hp.run_bridge hb
    rw [look, hi, Option.some.injEq] at hj
    exact hj ▸ howned
  · rw [mem_kernel] at hk
    obtain ⟨i, hi⟩ := Option.isSome_iff_exists.mp hk
    exact KernelInterfaces.ownedName_iff.mpr ⟨i, hi, hp.run_owned hb hm ht hi⟩

/-- A claimed name that stands after the pass is in its bridge, unless it is a manufactured one
that an owned bridge went by. -/
theorem run_joined (hp : Pass config h p) {b n : String} {br : Bridge}
    (hb : (b, br) ∈ config.bridge.entries) (hn : n ∈ claimsOf config b br)
    (hk : n ∈ (h.run p.ops).kernel) : n ∈ (h.run p.ops).kernel.membersOf b := by
  have hcl : n ∈ claimed config := mem_claimed.mpr ⟨b, br, hb, hn⟩
  by_cases hheld : HeldByBridge h n
  · rw [mem_kernel, hp.run_held hcl hheld] at hk
    exact absurd hk (by decide)
  refine hp.run_member hb hn hheld ?_
  by_cases hin : n ∈ h.kernel.membersOf b
  · exact Or.inl hin
  refine Or.inr ((mem_ops hp.planned).mpr ⟨br, hb, ?_⟩)
  -- a name that stands after the pass stood before it, or was made in it
  have hwhy : n ∈ h.kernel ∨ Manufactured config n := by
    by_contra hno
    rw [not_or] at hno
    have hfree : h.look n = none := by
      rw [mem_kernel] at hno
      simpa using hno.1
    rw [mem_kernel, run_free (fun x hx i hi hname => ?_) (Or.inl hfree)] at hk
    · exact absurd hk (by decide)
    · rcases (hp.made_free hx hi).2 with ⟨br', hb', -⟩ | ⟨-, hman⟩
      · rw [hname] at hb'
        exact hp.shaped.claimedOnce.not_claimed (Dict.mem_of_entry hb') hcl
      · rw [hname] at hman
        exact hno.2 hman
  rcases List.mem_append.mp hn with hu | hm
  · refine Or.inr ⟨hu, hin, ?_⟩
    rcases hwhy with hk | ⟨b', br', hb', ⟨member, hm, -⟩ | ⟨hmade, hu'⟩⟩
    · exact Or.inr hk
    · -- a member of some bridge is not an uplink of this one
      obtain ⟨rfl, rfl⟩ := hp.shaped.claimedOnce.one_bridge hb hb' hn
        (List.mem_append_right _ (Dict.mem_of_entry hm))
      exact absurd hu (hp.shaped.claimedOnce.member_not_uplink hb (Dict.mem_of_entry hm))
    · obtain ⟨rfl, rfl⟩ := hp.shaped.claimedOnce.one_bridge hb hb' hn (List.mem_append_left _ hu')
      exact Or.inl hmade
  · obtain ⟨member, hm⟩ := Dict.mem_iff_entry.mp hm
    refine Or.inl ⟨member, hm, ?_⟩
    by_cases hk' : n ∈ h.kernel
    · exact Or.inr ⟨hk', hin⟩
    · refine Or.inl ⟨hk', ?_⟩
      obtain ⟨b', br', hb', ⟨member', hm', ht⟩ | ⟨-, hu'⟩⟩ := hwhy.resolve_left hk'
      · obtain ⟨-, rfl⟩ := hp.shaped.claimedOnce.one_member hb hb' hm hm'
        exact ht
      · obtain ⟨rfl, rfl⟩ := hp.shaped.claimedOnce.one_bridge hb hb' hn (List.mem_append_left _ hu')
        exact absurd hu' (hp.shaped.claimedOnce.member_not_uplink hb (Dict.mem_of_entry hm))

/-- A typeless member has no policy, so a member with one is typed. -/
theorem typed_of_policy (hp : Pass config h p) {b m : String} {br : Bridge} {member : Member}
    (hb : (b, br) ∈ config.bridge.entries) (hm : (m, member) ∈ br.member.entries)
    (hpol : HasPolicy config member) : member.type.isSome = true := by
  cases ht : member.type with
  | some t => rfl
  | none =>
    obtain ⟨hf, hbd⟩ := hp.shaped.bare (b, br) hb (m, member) hm ht
    rcases hpol with hpol | hpol
    · rw [filterOf, hf] at hpol
      exact absurd hpol Bool.false_ne_true
    · rw [hbd] at hpol
      exact absurd hpol Bool.false_ne_true

/-- Nothing is left to issue when no owned bridge goes by a manufactured name. -/
theorem nothing_issued (hp : Pass config h p)
    (hfree : ∀ n, Manufactured config n → ¬ HeldByBridge h n) (x : Op) :
    ¬ Issued config (h.run p.ops).kernel (some (h.run p.ops).anchors) x := by
  have hstands : ∀ n, Manufactured config n → n ∈ (h.run p.ops).kernel := fun n hn =>
    mem_kernel.mpr (hp.run_manufactured hn (hfree n hn))
  have hgone : ∀ n, ¬ Unwanted config (h.run p.ops).kernel n := fun n ⟨hn, hheld⟩ =>
    hp.run_unwanted hn hheld
  -- whichever way an interface comes to be destroyed, it has been already
  have hdestroy : ∀ n, ¬ Destroyed config (h.run p.ops).kernel n := by
    rintro n (⟨-, pre, e, post, hsplit, -⟩ | ⟨⟨-, b, br, hb, hm, hc⟩, -⟩ | ⟨ho, hc, i, hi, hnb⟩)
    · refine hgone e.1 (mem_unwanted_names.mp ?_)
      rw [hsplit, List.map_append, List.map_cons]
      exact List.mem_append_right _ List.mem_cons_self
    · exact hp.run_foreign hb hc hm
    · rw [hp.run_orphan hc ho hi] at hnb
      exact absurd hnb (by decide)
  -- for each op, what the second diff would have to find and the pass has left no more
  cases x with
  | createBridge b v =>
    rintro ⟨br, hb, hk, -⟩
    obtain ⟨i, hi, -⟩ := hp.run_bridge hb
    exact hk (mem_kernel.mpr (by rw [hi]; rfl))
  | setMaxaddr b v =>
    rintro ⟨br, i, n, hb, hi, hn, hne, -⟩
    obtain ⟨j, hj, -, hmax⟩ := hp.run_bridge hb
    rw [look, hi, Option.some.injEq] at hj
    exact hne (hmax n (hj ▸ hn))
  | createVlan n parent vid =>
    rintro ⟨b, br, seg, hb, hseg, -, hvid, hhead, hk, -⟩
    exact hk (hstands n ⟨b, br, hb, Or.inr ⟨by simp [manufactures, hseg, hvid],
      List.mem_of_head? hhead⟩⟩)
  | createVxlan n vni ep peer =>
    rintro ⟨b, br, seg, vx, hb, hseg, hvx, hz, hk, -⟩
    exact hk (hstands n ⟨b, br, hb, Or.inr ⟨by simp [manufactures, hseg, hvx],
      (List.of_mem_zip hz).1⟩⟩)
  | createTap m d =>
    rintro ⟨b, br, member, hb, hm, hk, ht, -⟩
    exact hk (hstands m ⟨b, br, hb, Or.inl ⟨member, hm, ht⟩⟩)
  | loadAnchor m f r c =>
    rintro ⟨b, br, member, hb, hm, ⟨hpol, hs, -⟩, -⟩
    obtain ⟨st, hst, ⟨hl, hh⟩, -⟩ := hp.run_anchor hb hm (hp.typed_of_policy hb hm hpol) hpol
    exact hs ⟨_, st, rfl, hst, hl, hh⟩
  | replaceTable m t ms =>
    rintro ⟨b, br, member, hb, hm, hpol, hin, anchors, st, hpf, hst, -, -, hne⟩
    cases hpf
    obtain ⟨st', hst', -, hok⟩ := hp.run_anchor hb hm (hp.typed_of_policy hb hm hpol) hpol
    rw [anchor, hst, Option.some.injEq] at hst'
    exact hne (hst' ▸ hok t ms hin)
  | lockMemberMac b m mac =>
    rintro ⟨br, member, bd, hb, hm, hbd, hne, -⟩
    -- a bound member is typed, so it was manufactured or there, and locked
    have ht := hp.typed_of_policy hb hm (Or.inr (by rw [hbd]; rfl))
    exact hne (hp.run_lock hb hm hbd (hfree m ⟨b, br, hb, Or.inl ⟨member, hm, ht⟩⟩))
  | addMember b m =>
    rintro ⟨br, hb, ⟨member, hm, ⟨hk, ht⟩ | ⟨hk, hin⟩⟩ | ⟨hu, hin, hmade | hk⟩⟩
    · exact hk (hstands m ⟨b, br, hb, Or.inl ⟨member, hm, ht⟩⟩)
    · exact hin (hp.run_joined hb (List.mem_append_right _ (Dict.mem_of_entry hm)) hk)
    · exact hin (hp.run_joined hb (List.mem_append_left _ hu)
        (hstands m ⟨b, br, hb, Or.inr ⟨hmade, hu⟩⟩))
    · exact hin (hp.run_joined hb (List.mem_append_left _ hu) hk)
  | removeMember b m =>
    rintro ⟨hm, ⟨br, hb, hc⟩ | hu⟩
    · exact hp.run_foreign hb hc hm
    · exact hgone b hu
  | flushAnchor n =>
    rintro ⟨⟨anchors, st, hpf, hst, hl⟩, hd | hn⟩
    · exact hdestroy n hd
    · cases hpf
      rw [hp.run_stale hn hst] at hl
      exact absurd hl (by decide)
  | destroyIface n => exact hdestroy n
  | destroyBridge n => exact hgone n

end Pass

/-- **One pass converges**, exactly when no owned bridge goes by a name the config
manufactures: the second diff returns, and its plan has no ops. -/
theorem converges_iff {config : Config} {h : Host} {p : Plan} (hp : Pass config h p) :
    (∃ q, diff config (h.run p.ops).kernel (some (h.run p.ops).anchors) = .ok q ∧ q.ops = []) ↔
      ∀ n, Manufactured config n → ¬ HeldByBridge h n := by
  constructor
  · rintro ⟨q, hq, hempty⟩ n hn hheld
    have hfree := hp.run_held (claimed_of_manufactured hn) hheld
    have hk : n ∉ (h.run p.ops).kernel := by
      rw [Host.mem_kernel, hfree]
      decide
    obtain ⟨x, hx, -⟩ := exists_made (some (h.run p.ops).anchors) hp.shaped.claimedOnce hn hk
    have hmem := (mem_ops hq).mpr hx
    rw [hempty] at hmem
    exact absurd hmem List.not_mem_nil
  · intro hfree
    obtain ⟨q, hq⟩ := hp.rediff
    refine ⟨q, hq, List.eq_nil_iff_forall_not_mem.mpr fun x hx => ?_⟩
    exact hp.nothing_issued hfree x ((mem_ops hq).mp hx)

end

/-! ## 2. A tap's name held by a bridge

The smallest such host, and the pass that leaves its tap to be made. -/

/-- One tap on one bridge. -/
def heldConfig : Config :=
  { bridge := ⟨[("pbaaa",
      { member := ⟨[("tap0", { type := some .tap })], List.nodup_singleton "tap0"⟩ })],
      List.nodup_singleton "pbaaa"⟩ }

/-- An owned bridge goes by the tap's name. -/
def heldHost : Host :=
  { kernel :=
      { interfaces := ⟨[("tap0", { name := "tap0", groups := ["bridge", OWNED_GROUP] })],
          by decide⟩
        owned := ["tap0"] } }

/-- The tap is taken for there, and its name torn down. -/
def heldPlan : Plan :=
  { creates := [.createBridge "pbaaa" 2000]
    adds := [.addMember "pbaaa" "tap0"]
    destroys := [.destroyBridge "tap0"] }

theorem held_pass (inst : Hashlib) : Pass heldConfig heldHost heldPlan where
  shaped :=
    { taps := by decide
      bare := by decide
      once := ⟨["pbaaa", "tap0"], rfl, by decide⟩ }
  consistent :=
    { bridgeless := by
        intro b i m j hi _ hm
        rw [Dict.get?_eq_some] at hi
        simp [heldHost] at hi
        simp [hi.2] at hm
      locked := by simp [heldHost, KernelInterfaces.staticLock, KernelInterfaces.lockIn] }
  settled := by
    intro n _ b i hi _ hm
    rw [Dict.get?_eq_some] at hi
    simp [heldHost] at hi
    simp [hi.2] at hm
  planned := rfl

/-- The pass leaves the tap to be made by the next one. -/
theorem pass_not_enough : ¬ ∀ (_ : Hashlib) (config : Config) (h : Host) (p : Plan),
    Pass config h p → ∃ q,
      diff config (h.run p.ops).kernel (some (h.run p.ops).anchors) = .ok q ∧ q.ops = [] := by
  intro hall
  obtain ⟨q, hq, hempty⟩ := hall ⟨id⟩ heldConfig heldHost heldPlan (held_pass ⟨id⟩)
  have hq' : @diff ⟨id⟩ heldConfig (heldHost.run heldPlan.ops).kernel
      (some (heldHost.run heldPlan.ops).anchors) =
      .ok { adds := [.createTap "tap0" "", .addMember "pbaaa" "tap0"] } := rfl
  rw [hq'] at hq
  cases hq
  exact absurd hempty (by decide)

theorem converges_iff_held :
    (∃ q, @diff ⟨id⟩ heldConfig (heldHost.run heldPlan.ops).kernel
        (some (heldHost.run heldPlan.ops).anchors) = .ok q ∧ q.ops = []) ↔
      ∀ n, Manufactured heldConfig n → ¬ HeldByBridge heldHost n :=
  @converges_iff ⟨id⟩ _ _ _ (held_pass ⟨id⟩)

end Planner

end Bsdbridge
