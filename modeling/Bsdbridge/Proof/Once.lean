import Bsdbridge.Lib.Distinct
import Bsdbridge.Proof.Frames
import Bsdbridge.Proof.Precedence

/-!
# Every op once

The teardown of `diff` remembers what it has queued and what it has flushed, so that four paths
over the same interfaces issue nothing twice. Where every name is claimed once the other phases
cannot repeat an op either: a round of the bridge loop is about the names its bridge claims
(`round_names`), and the destroys phase is about names that were not queued (`Gc.Once`). What is
left is the anchor of an interface that is flushed as a stale anchor and again with its interface:
the stale anchors are collected before the orphans are. **`repeats_nothing_iff`** says that this is
the one way an op comes twice.

`RepeatsNothing` asks for more than distinct ops. Two ops can destroy one interface and differ (one
as a bridge and one as an interface), so what is created, what is destroyed and what is flushed is
looked at by name as well.

## Why phases

Distinctness of a whole plan is proved from the distinctness of its parts, and for that the parts
must not share ops. An op's constructor gives the phase it is issued in (`Op.phase`), with the one
exception of flushes, which two phases issue; they are counted apart. The hypotheses are that each
name is claimed once, which is what the agent's own configs do, and that the kernel view lists each
member once and no bridge as a member.
-/

set_option autoImplicit false

namespace Bsdbridge

/-! ## 1. What an op is about -/

/-- The interface an op destroys. -/
def Op.destroyed : Op → Option String
  | .destroyIface n | .destroyBridge n => some n
  | _ => none

/-- The interface an op creates. -/
def Op.created (x : Op) : Option String := x.made.map Interface.name

/-- The name an op is issued for: the bridge of a removal, the member of another op between a
bridge and a member. -/
def Op.subject : Op → String
  | .createBridge n _ | .createVlan n _ _ | .createVxlan n _ _ _ | .createTap n _ => n
  | .loadAnchor n _ _ _ | .replaceTable n _ _ | .flushAnchor n => n
  | .lockMemberMac _ m _ | .addMember _ m => m
  | .removeMember b _ | .setMaxaddr b _ => b
  | .destroyIface n | .destroyBridge n => n

/-- The phase an op is issued in; a flush is issued in two. -/
inductive Phase | creates | removes | adds | destroys | flushes
  deriving DecidableEq

def Op.phase : Op → Phase
  | .createBridge .. | .createVlan .. | .createVxlan .. | .setMaxaddr .. => .creates
  | .removeMember .. => .removes
  | .createTap .. | .loadAnchor .. | .replaceTable .. | .lockMemberMac .. | .addMember .. => .adds
  | .destroyIface .. | .destroyBridge .. => .destroys
  | .flushAnchor .. => .flushes

theorem Op.subject_of_created {x : Op} {n : String} (h : x.created = some n) : n = x.subject := by
  cases x <;> simp only [created, made, Option.map_some, Option.map_none, Option.some.injEq,
    reduceCtorEq] at h <;> exact h.symm

namespace Planner

/-- A consistent kernel view whose bridges hold interfaces, and each of them once. -/
structure Regular (k : KernelInterfaces) : Prop extends Consistent k where
  present : ∀ b m, m ∈ k.membersOf b → m ∈ k
  distinct : ∀ b, (k.membersOf b).Nodup

/-- No op comes twice, and no interface is created, destroyed or flushed twice. -/
structure RepeatsNothing (ops : List Op) : Prop where
  distinct : ops.Nodup
  creates : (ops.filterMap Op.created).Nodup
  destroys : (ops.filterMap Op.destroyed).Nodup
  flushes : (flushed ops).Nodup

/-! ## 2. The creates of a round

A round makes its bridge, its uplink and its taps, or sets the limit of the bridge. These are
names the round claims, which other rounds do not. -/

section Creates

variable {config : Config} {kernel : KernelInterfaces} {pf : Option PfState}

theorem bridgeOp_names {b : String} {br : Bridge} {own : List Op}
    (h : bridgeOp kernel b br = .ok own) : (own.map Op.subject).Sublist [b] := by
  unfold bridgeOp at h
  split at h
  · cases h
    exact List.Sublist.refl _
  · split at h
    · exact absurd h (by simp)
    · split at h
      · exact absurd h (by simp)
      · split at h
        · cases h
          split
          · exact List.Sublist.refl _
          · exact List.nil_sublist _
        · cases h
          exact List.nil_sublist _

theorem segmentCreates_names {seg : Option Segment} {names : List String} {ups : List Op}
    (h : segmentCreates seg names kernel = .ok ups) : (ups.map Op.subject).Sublist names := by
  cases seg with
  | none =>
    cases h
    exact List.nil_sublist _
  | some s =>
    unfold segmentCreates uplinkCreates at h
    cases hvx : s.vxlan with
    | some vx =>
      simp only [hvx, Except.ok.injEq] at h
      subst h
      -- the zip walks a prefix of the names, and drops those the kernel has
      have hzip : ∀ (ns peers : List String), (((ns.zip peers).filterMap fun np =>
          if np.1 ∈ kernel then none
          else some (Op.createVxlan np.1 vx.vni vx.local_ np.2)).map Op.subject).Sublist ns := by
        intro ns
        induction ns with
        | nil => exact fun _ => List.Sublist.refl _
        | cons n ns ih =>
          intro peers
          cases peers with
          | nil => exact List.nil_sublist _
          | cons q peers =>
            rw [List.zip_cons_cons]
            by_cases hn : n ∈ kernel
            · rw [List.filterMap_cons_none (by rw [if_pos hn])]
              exact (ih peers).cons _
            · rw [List.filterMap_cons_some (by rw [if_neg hn]), List.map_cons]
              exact (ih peers).cons_cons _
      exact hzip names vx.peers
    | none =>
      cases hvl : s.vlan with
      | none =>
        simp only [hvx, hvl, Except.ok.injEq] at h
        subst h
        exact List.nil_sublist _
      | some vid =>
        cases names with
        | nil => simp [hvx, hvl] at h
        | cons n rest =>
          simp only [hvx, hvl, Except.ok.injEq] at h
          subst h
          split
          · exact List.nil_sublist _
          · exact List.Sublist.cons_cons _ (List.nil_sublist _)

variable [Hashlib]

/-- What one member creates. -/
theorem memberPart_created {b m : String} {member : Member} {part : MemberPart}
    (h : memberPart config kernel pf b (kernel.membersOf b).dedup m member = .ok part) :
    (part.adds.filterMap Op.created).Sublist [m] := by
  obtain ⟨-, load, tops, hpf, hadds, -⟩ := memberPart_ok h
  have hload : ∀ x, load = some x → x.created = none := by
    intro x hx
    rw [((pfOpsFor_load hpf).mp hx).2.2]
    rfl
  have htops : tops.filterMap Op.created = [] := by
    rw [List.filterMap_eq_nil_iff]
    intro x hx
    obtain ⟨t, ms, rfl, -⟩ := (pfOpsFor_tables hpf).mp hx
    rfl
  have hlocks : (lockOps kernel b m member).filterMap Op.created = [] := by
    rw [List.filterMap_eq_nil_iff]
    intro x hx
    obtain ⟨bd, -, -, rfl⟩ := mem_lockOps.mp hx
    rfl
  have hloads : load.toList.filterMap Op.created = [] := by
    rw [List.filterMap_eq_nil_iff]
    intro x hx
    exact hload x (Option.mem_toList.mp hx)
  rw [hadds, List.filterMap_append, List.filterMap_append, htops, hlocks, List.append_nil,
    List.append_nil]
  unfold joinOps
  split
  · split
    · have htap : Op.created (.createTap m member.description) = some m := rfl
      rw [List.filterMap_cons_some htap, List.filterMap_append, hloads]
      exact List.Sublist.refl _
    · exact List.nil_sublist _
  · split
    · rw [List.filterMap_append, hloads]
      exact List.nil_sublist _
    · split
      · rw [hloads]
        exact List.nil_sublist _
      · exact List.nil_sublist _

/-- What a round creates or limits goes by names of the round, each of them once. -/
theorem round_names {b : String} {br : Bridge} {part : BridgePart}
    (h : bridgePart config kernel pf b br = .ok part) :
    (part.creates.map Op.subject ++ part.adds.filterMap Op.created).Sublist
      (b :: claimsOf config b br) := by
  obtain ⟨names, own, uplinks, members, hn, hown, hups, hmembers, -, hcr, -, hadds, -⟩ :=
    bridgePart_ok h
  have htaps : (members.flatMap MemberPart.adds).filterMap Op.created =
      members.flatMap fun mp => mp.adds.filterMap Op.created := by
    rw [List.filterMap_flatMap]
  have hjoins : ((names.map (uplinkPart kernel b (kernel.membersOf b).dedup
      (manufactures br.segment))).flatMap MemberPart.adds).filterMap Op.created = [] := by
    rw [List.filterMap_eq_nil_iff]
    intro x hx
    obtain ⟨n, -, -, -, rfl⟩ := mem_uplinkParts.mp hx
    rfl
  rw [hcr, hadds, List.map_append, List.filterMap_append, htaps, hjoins, List.append_nil,
    List.append_assoc]
  have hkeys : (members.flatMap fun mp => mp.adds.filterMap Op.created).Sublist
      (br.member.entries.flatMap fun e => [e.1]) :=
    sublist_flatMap_of_forall₂ (hmembers.imp fun _ _ hmp => memberPart_created hmp)
  have hmembers' : (br.member.entries.flatMap fun e => [e.1]) = br.member.keys := by
    exact List.map_eq_flatMap.symm
  rw [hmembers'] at hkeys
  unfold claimsOf
  rw [uplinksOf_ok hn]
  exact (bridgeOp_names hown).append ((segmentCreates_names hups).append hkeys)

end Creates

/-! ## 3. The adds of a round

An add is about its subject; two adds of one member differ in what they do to it. -/

section Adds

variable {config : Config} {kernel : KernelInterfaces} {pf : Option PfState}

theorem uplinkAdds_nodup {b : String} {br : Bridge} (hnd : (uplinksOf config b br).Nodup) :
    (uplinkAdds config kernel (b, br)).Nodup := by
  unfold uplinkAdds
  rw [List.flatMap_map]
  refine nodup_flatMap_of_names (fun n => [n]) Op.subject ?_ fun n _ => ?_
  · rw [List.flatMap_singleton']
    exact hnd
  · unfold uplinkPart
    split
    · exact ⟨List.nodup_nil, fun x hx => absurd hx List.not_mem_nil⟩
    · split
      · refine ⟨List.nodup_singleton _, fun x hx => ?_⟩
        rw [List.mem_singleton.mp hx]
        exact List.mem_singleton_self _
      · exact ⟨List.nodup_nil, fun x hx => absurd hx List.not_mem_nil⟩

theorem repairs_nodup {m : String} {tables : List (String × List String)}
    {st : Pf.AnchorState} (hnd : (tables.map Prod.fst).Nodup) :
    (repairs m tables st).Nodup := by
  unfold repairs
  refine List.Nodup.filterMap (fun t t' x hx hx' => ?_) hnd.of_map
  simp only [Option.mem_def] at hx hx'
  split at hx
  · split at hx'
    · obtain rfl := Option.some.inj hx
      have heq := Option.some.inj hx'
      simp only [Op.replaceTable.injEq, true_and] at heq
      exact (Prod.ext heq.1 heq.2).symm
    · exact absurd hx' (by simp)
  · exact absurd hx (by simp)

theorem joinOps_nodup {b m : String} {member : Member} {load : Option Op}
    (hload : ∀ x, load = some x → ∃ f r c, x = .loadAnchor m f r c) :
    (joinOps kernel pf b m member load).Nodup := by
  cases load with
  | none =>
    unfold joinOps
    by_cases hm : m ∈ kernel <;> by_cases hc : m ∈ kernel.membersOf b <;>
      by_cases ht : member.type.isSome = true <;> simp [hm, hc, ht]
  | some x =>
    obtain ⟨f, r, c, rfl⟩ := hload x rfl
    unfold joinOps
    by_cases hm : m ∈ kernel <;> by_cases hc : m ∈ kernel.membersOf b <;>
      by_cases ht : member.type.isSome = true <;> by_cases hp : pf.isSome = true <;>
        simp [hm, hc, ht, hp]

variable [Hashlib]

theorem tops_nodup {m : String} {member : Member} {load : Option Op} {tops : List Op}
    (h : pfOpsFor m member config pf = .ok (load, tops)) : tops.Nodup := by
  rcases pfOpsFor_ok h with
    ⟨-, hr⟩ | ⟨-, htab, ⟨-, hr⟩ | ⟨anchors, st, -, -, -, -, hr⟩⟩
  · obtain ⟨-, rfl⟩ := Prod.mk.inj hr
    exact List.nodup_nil
  · obtain ⟨-, rfl⟩ := Prod.mk.inj hr
    exact List.nodup_nil
  · obtain ⟨-, rfl⟩ := Prod.mk.inj hr
    exact repairs_nodup (nodup_tables htab)

theorem memberAdds_nodup {b : String} {e : String × Member} :
    (memberAdds config kernel pf b e).Nodup ∧
      ∀ x ∈ memberAdds config kernel pf b e, x.subject = e.1 := by
  unfold memberAdds
  cases hpart : memberPart config kernel pf b (kernel.membersOf b).dedup e.1 e.2 with
  | error _ => exact ⟨List.nodup_nil, fun x hx => absurd hx List.not_mem_nil⟩
  | ok part =>
    refine ⟨?_, fun x hx => ?_⟩
    · obtain ⟨-, load, tops, hpf, hadds, -⟩ := memberPart_ok hpart
      have hload : ∀ x, load = some x → ∃ f r c, x = .loadAnchor e.1 f r c := fun x hx =>
        ⟨_, _, _, ((pfOpsFor_load hpf).mp hx).2.2⟩
      have hlocks : (lockOps kernel b e.1 e.2).Nodup := by
        unfold lockOps
        split
        · split
          · exact List.nodup_singleton _
          · exact List.nodup_nil
        · exact List.nodup_nil
      show part.adds.Nodup
      rw [hadds]
      refine List.nodup_append'.mpr ⟨List.nodup_append'.mpr
        ⟨joinOps_nodup hload, tops_nodup hpf, ?_⟩, hlocks, ?_⟩
      · intro x hj ht
        obtain ⟨t, ms, rfl, -⟩ := (pfOpsFor_tables hpf).mp ht
        rcases mem_joinOps.mp hj with ⟨hx, -⟩ | ⟨hx, -⟩ | ⟨hx, -⟩
        · exact absurd hx (by simp)
        · obtain ⟨f, r, c, hx⟩ := hload _ hx
          exact absurd hx (by simp)
        · exact absurd hx (by simp)
      · intro x hj hl
        obtain ⟨bd, -, -, rfl⟩ := mem_lockOps.mp hl
        rcases List.mem_append.mp hj with hj | ht
        · rcases mem_joinOps.mp hj with ⟨hx, -⟩ | ⟨hx, -⟩ | ⟨hx, -⟩
          · exact absurd hx (by simp)
          · obtain ⟨f, r, c, hx⟩ := hload _ hx
            exact absurd hx (by simp)
          · exact absurd hx (by simp)
        · obtain ⟨t, ms, hx, -⟩ := (pfOpsFor_tables hpf).mp ht
          exact absurd hx (by simp)
    · rcases (mem_memberPart hpart).mp hx with ⟨rfl, -⟩ | ⟨rfl, -⟩ | ⟨rfl, -⟩ | ⟨t, ms, rfl, -⟩ |
        ⟨bd, -, -, rfl⟩ <;> rfl

theorem bridgeAdds_nodup {b : String} {br : Bridge} {part : BridgePart}
    (h : bridgePart config kernel pf b br = .ok part) (hnd : (claimsOf config b br).Nodup) :
    (bridgeAdds config kernel pf (b, br)).Nodup ∧
      ∀ x ∈ bridgeAdds config kernel pf (b, br), x.subject ∈ claimsOf config b br := by
  obtain ⟨hups, hkeys, hdis⟩ := List.nodup_append'.mp hnd
  have hmem : ∀ x ∈ br.member.entries.flatMap (memberAdds config kernel pf b),
      x.subject ∈ br.member.keys := by
    intro x hx
    obtain ⟨e, he, hx⟩ := List.mem_flatMap.mp hx
    rw [memberAdds_nodup.2 x hx]
    exact Dict.mem_of_entry he
  have hup : ∀ x ∈ uplinkAdds config kernel (b, br), x.subject ∈ uplinksOf config b br := by
    intro x hx
    obtain ⟨n, hn, -, -, rfl⟩ := mem_uplinkParts.mp hx
    exact hn
  rw [bridgeAdds_eq h]
  refine ⟨List.nodup_append'.mpr ⟨?_, uplinkAdds_nodup hups, ?_⟩, fun x hx => ?_⟩
  · refine nodup_flatMap_of_names (fun e : String × Member => [e.1])
      Op.subject ?_ fun e _ => ⟨memberAdds_nodup.1, fun x hx => ?_⟩
    · rw [← List.map_eq_flatMap]
      exact hkeys
    · rw [memberAdds_nodup.2 x hx]
      exact List.mem_singleton_self _
  · exact fun x hm hu => hdis (hup x hu) (hmem x hm)
  · rcases List.mem_append.mp hx with hx | hx
    · exact List.mem_append_right _ (hmem x hx)
    · exact List.mem_append_left _ (hup x hx)

end Adds

/-! ## 4. The destroys phase

`Gc.Once` is the invariant of the four walks: destroyed once, flushed once, and everything that
was is in `queued`. A walk that asks `queued` before it acts keeps it. -/

/-- A gc that has destroyed and flushed nothing twice, and only what it queued. -/
structure Gc.Once (g : Gc) : Prop where
  destroyed : (g.destroys.filterMap Op.destroyed).Nodup
  flushes : (flushed g.destroys).Nodup
  queued : ∀ n, n ∈ g.destroys.filterMap Op.destroyed ∨ n ∈ flushed g.destroys → n ∈ g.queued

section Teardown

variable {config : Config} {kernel : KernelInterfaces} {pf : Option PfState} {g : Gc}

theorem flushed_append {ops ops' : List Op} :
    flushed (ops ++ ops') = flushed ops ++ flushed ops' := by
  unfold flushed
  rw [List.filterMap_append]

variable (pf) in
/-- A name that is not queued is flushed, if its anchor is loaded, and destroyed. -/
theorem destroyOnce_new {n : String} (hq : n ∉ g.queued) :
    ∃ flush, (flush = [] ∨ flush = [Op.flushAnchor n]) ∧ destroyOnce pf g n =
      { queued := n :: g.queued, destroys := g.destroys ++ flush ++ [.destroyIface n] } := by
  unfold destroyOnce
  rw [if_neg hq]
  refine ⟨_, ?_, rfl⟩
  split
  · split
    · exact Or.inr rfl
    · exact Or.inl rfl
  · exact Or.inl rfl

variable (pf) in
theorem destroyOnce_once (hg : g.Once) (n : String) : (destroyOnce pf g n).Once := by
  by_cases hq : n ∈ g.queued
  · unfold destroyOnce
    rw [if_pos hq]
    exact hg
  · have hnew : n ∉ g.destroys.filterMap Op.destroyed ∧ n ∉ flushed g.destroys :=
      ⟨fun h => hq (hg.queued n (Or.inl h)), fun h => hq (hg.queued n (Or.inr h))⟩
    obtain ⟨flush, hcases, heq⟩ := destroyOnce_new pf hq
    have hdes : (destroyOnce pf g n).destroys.filterMap Op.destroyed =
        g.destroys.filterMap Op.destroyed ++ [n] := by
      rw [heq, List.append_assoc, List.filterMap_append]
      rcases hcases with rfl | rfl <;> rfl
    have hfl : flushed (destroyOnce pf g n).destroys = flushed g.destroys ++ flushed flush := by
      rw [heq, flushed_append, flushed_append]
      exact List.append_nil _
    have hqueue : (destroyOnce pf g n).queued = n :: g.queued := by rw [heq]
    have hflush : ∀ k ∈ flushed flush, k = n := by
      intro k hk
      rcases hcases with rfl | rfl
      · exact absurd hk List.not_mem_nil
      · exact List.mem_singleton.mp hk
    refine ⟨?_, ?_, fun k hk => ?_⟩
    · rw [hdes]
      exact List.nodup_append'.mpr ⟨hg.destroyed, List.nodup_singleton n,
        List.disjoint_singleton.mpr hnew.1⟩
    · rw [hfl]
      refine List.nodup_append'.mpr ⟨hg.flushes, ?_, fun k hk hk' => ?_⟩
      · rcases hcases with rfl | rfl
        · exact List.nodup_nil
        · exact List.nodup_singleton n
      · exact hnew.2 (hflush k hk' ▸ hk)
    · rw [hdes, hfl, List.mem_append, List.mem_append, List.mem_singleton] at hk
      rw [hqueue]
      rcases hk with (hk | rfl) | (hk | hk)
      · exact List.mem_cons_of_mem _ (hg.queued k (Or.inl hk))
      · exact List.mem_cons_self
      · exact List.mem_cons_of_mem _ (hg.queued k (Or.inr hk))
      · exact List.mem_cons.mpr (Or.inl (hflush k hk))

theorem foldl_destroyOnce_once (hg : g.Once) (names : List String) :
    (names.foldl (destroyOnce pf) g).Once :=
  foldl_keeps Gc.Once hg fun n _ _ ht => destroyOnce_once pf ht n

theorem tearDown_once (hg : g.Once) {e : String × Interface} (hq : e.1 ∉ g.queued)
    (hm : e.1 ∉ e.2.members) : (tearDown kernel pf g e).Once := by
  unfold tearDown
  have hmid : ((e.2.members.filter kernel.ownedName).foldl (destroyOnce pf) g).Once :=
    foldl_destroyOnce_once hg _
  have hnot : e.1 ∉ ((e.2.members.filter kernel.ownedName).foldl (destroyOnce pf) g).queued := by
    rw [queued_foldl_destroyOnce]
    rintro (h | h)
    · exact hm (List.mem_filter.mp h).1
    · exact hq h
  generalize (e.2.members.filter kernel.ownedName).foldl (destroyOnce pf) g = g' at hmid hnot
  have hdes : (g'.destroys ++ [Op.destroyBridge e.1]).filterMap Op.destroyed =
      g'.destroys.filterMap Op.destroyed ++ [e.1] := by
    rw [List.filterMap_append]
    rfl
  have hfl : flushed (g'.destroys ++ [Op.destroyBridge e.1]) = flushed g'.destroys := by
    rw [flushed_append]
    exact List.append_nil _
  refine ⟨?_, ?_, fun k hk => ?_⟩
  · show ((g'.destroys ++ [Op.destroyBridge e.1]).filterMap Op.destroyed).Nodup
    rw [hdes]
    exact List.nodup_append'.mpr ⟨hmid.destroyed, List.nodup_singleton _,
      List.disjoint_singleton.mpr fun h => hnot (hmid.queued _ (Or.inl h))⟩
  · show (flushed (g'.destroys ++ [Op.destroyBridge e.1])).Nodup
    rw [hfl]
    exact hmid.flushes
  · change k ∈ (g'.destroys ++ [Op.destroyBridge e.1]).filterMap Op.destroyed ∨
      k ∈ flushed (g'.destroys ++ [Op.destroyBridge e.1]) at hk
    rw [hdes, hfl, List.mem_append, List.mem_singleton] at hk
    rcases hk with (hk | rfl) | hk
    · exact List.mem_cons_of_mem _ (hmid.queued k (Or.inl hk))
    · exact List.mem_cons_self
    · exact List.mem_cons_of_mem _ (hmid.queued k (Or.inr hk))

/-- Bridges that hold no bridge are torn down once each. -/
theorem foldl_tearDown_once {gone : List (String × Interface)} (hg : g.Once)
    (hnd : (gone.map Prod.fst).Nodup) (hnew : ∀ e ∈ gone, e.1 ∉ g.queued)
    (hflat : ∀ e ∈ gone, ∀ e' ∈ gone, e.1 ∉ e'.2.members) :
    (gone.foldl (tearDown kernel pf) g).Once := by
  induction gone generalizing g with
  | nil => exact hg
  | cons e rest ih =>
    obtain ⟨he, hrest⟩ := List.nodup_cons.mp hnd
    refine ih (tearDown_once hg (hnew e List.mem_cons_self)
      (hflat e List.mem_cons_self e List.mem_cons_self)) hrest (fun e' he' => ?_)
      fun a ha b hb => hflat a (List.mem_cons_of_mem _ ha) b (List.mem_cons_of_mem _ hb)
    rw [queued_tearDown]
    rintro (h | ⟨h, -⟩ | h)
    · exact he (List.mem_map.mpr ⟨e', he', h⟩)
    · exact hflat e' (List.mem_cons_of_mem _ he') e List.mem_cons_self h
    · exact hnew e' (List.mem_cons_of_mem _ he') h

theorem unwanted_nodup : ((unwanted config kernel).map Prod.fst).Nodup := by
  unfold unwanted
  exact kernel.bridges.nodup.sublist (List.filter_sublist.map Prod.fst)

/-- An unwanted bridge is no bridge's member. -/
theorem unwanted_flat (hk : Regular kernel) : ∀ e ∈ unwanted config kernel,
    ∀ e' ∈ unwanted config kernel, e.1 ∉ e'.2.members := by
  intro e he e' he' hm
  obtain ⟨-, hi, hb, -⟩ := mem_unwanted.mp he
  obtain ⟨-, hi', hb', -⟩ := mem_unwanted.mp he'
  have := hk.bridgeless e'.1 e'.2 e.1 e.2 hi' hb' hm hi
  rw [hb] at this
  exact absurd this (by decide)

theorem gone_once (hk : Regular kernel) :
    ((unwanted config kernel).foldl (tearDown kernel pf) {}).Once :=
  foldl_tearDown_once ⟨List.nodup_nil, List.nodup_nil, by simp [flushed]⟩ unwanted_nodup
    (fun _ _ => List.not_mem_nil) (unwanted_flat hk)

end Teardown

/-! ## 5. The plan

From the parts to the plan. `flushed_twice_iff` singles out the one overlap. -/

section Plan

variable [Hashlib] {config : Config} {kernel : KernelInterfaces} {pf : Option PfState} {p : Plan}

/-- The phases of a plan: its creates, its adds, and what it removes and destroys. -/
theorem phase_creates (h : diff config kernel pf = .ok p) {x : Op} (hx : x ∈ p.creates) :
    x.phase = .creates := by
  obtain ⟨parts, hparts, rfl⟩ := diff_ok h
  obtain ⟨b, br, -, hx⟩ := (mem_creates hparts).mp hx
  rcases hx with ⟨-, rfl⟩ | ⟨_, _, -, -, -, rfl⟩ | ⟨_, _, _, -, -, -, -, -, rfl⟩ |
    ⟨_, _, _, _, -, -, -, -, rfl⟩ <;> rfl

theorem phase_removes (h : diff config kernel pf = .ok p) {x : Op} (hx : x ∈ p.removes) :
    x.phase = .removes ∨ x.phase = .flushes := by
  obtain ⟨parts, hparts, rfl⟩ := diff_ok h
  rcases mem_removes hparts hx with ⟨b, m, rfl, -⟩ | ⟨n, rfl, -⟩
  · exact Or.inl rfl
  · exact Or.inr rfl

theorem phase_adds (h : diff config kernel pf = .ok p) {x : Op} (hx : x ∈ p.adds) :
    x.phase = .adds := by
  obtain ⟨parts, hparts, rfl⟩ := diff_ok h
  obtain ⟨b, br, -, hx⟩ := (mem_adds hparts).mp hx
  rcases hx with ⟨m, member, -, ⟨rfl, -⟩ | ⟨rfl, -⟩ | ⟨rfl, -⟩ | ⟨t, ms, rfl, -⟩ |
    ⟨bd, -, -, rfl⟩⟩ | ⟨n, -, rfl⟩ <;> rfl

theorem phase_destroys (h : diff config kernel pf = .ok p) {x : Op} (hx : x ∈ p.destroys) :
    x.phase = .destroys ∨ x.phase = .flushes := by
  obtain ⟨parts, hparts, rfl⟩ := diff_ok h
  rcases (mem_destroys hparts).mp hx with ⟨n, -, rfl⟩ | ⟨n, -, rfl | ⟨rfl, -⟩⟩
  · exact Or.inl rfl
  · exact Or.inl rfl
  · exact Or.inr rfl

/-- The creates and the taps of a plan go by names that are claimed once. -/
theorem created_names (h : diff config kernel pf = .ok p) (honce : ClaimedOnce config) :
    (p.creates.map Op.subject ++ p.adds.filterMap Op.created).Nodup := by
  obtain ⟨parts, hparts, rfl⟩ := diff_ok h
  have hsub : (parts.flatMap fun part =>
      part.creates.map Op.subject ++ part.adds.filterMap Op.created).Sublist
        (config.bridge.entries.flatMap fun e => e.1 :: claimsOf config e.1 e.2) :=
    sublist_flatMap_of_forall₂ (hparts.imp fun _ _ hpart => round_names hpart)
  have hperm := List.flatMap_append_perm parts (fun part => part.creates.map Op.subject)
    fun part => part.adds.filterMap Op.created
  have heq : (assemble config kernel pf parts).creates.map Op.subject ++
      (assemble config kernel pf parts).adds.filterMap Op.created =
      (parts.flatMap fun part => part.creates.map Op.subject) ++
        parts.flatMap fun part => part.adds.filterMap Op.created := by
    unfold assemble
    rw [List.map_flatMap, List.filterMap_flatMap]
  rw [heq]
  exact hperm.nodup_iff.mpr (honce.rounds.sublist hsub)

theorem adds_nodup (h : diff config kernel pf = .ok p) (honce : ClaimedOnce config) :
    p.adds.Nodup := by
  rw [adds_eq h]
  refine nodup_flatMap_of_names _ Op.subject honce.rounds fun e he => ?_
  obtain ⟨part, hpart⟩ := diff_round h he
  have hround := (List.nodup_flatMap.mp honce.rounds).1 e he
  obtain ⟨hnd, hnames⟩ := bridgeAdds_nodup hpart (List.nodup_cons.mp hround).2
  exact ⟨hnd, fun x hx => List.mem_cons_of_mem _ (hnames x hx)⟩

/-- The removals of a plan and its flushes of stale anchors. -/
theorem removes_nodup (hk : Regular kernel) (h : diff config kernel pf = .ok p) :
    p.removes.Nodup := by
  obtain ⟨parts, hparts, rfl⟩ := diff_ok h
  have hloop : parts.flatMap BridgePart.removes = config.bridge.entries.flatMap fun e =>
      ((kernel.membersOf e.1).dedup.filter fun m =>
        decide (m ∉ claimsOf config e.1 e.2)).map (.removeMember e.1) := by
    refine flatMap_of_forall₂ (hparts.imp fun e part hpart => ?_)
    obtain ⟨_, _, _, _, -, -, -, -, -, -, hrem, -⟩ := bridgePart_ok hpart
    exact hrem.symm
  have hinj : ∀ b : String, Function.Injective (Op.removeMember b) :=
    fun b m m' hm => (Op.removeMember.inj hm).2
  -- three parts: members leaving a bridge of the config, members of a bridge that goes, flushes
  have hdesired : (parts.flatMap BridgePart.removes).Nodup := by
    rw [hloop]
    refine nodup_flatMap_of_names (fun e : String × Bridge => [e.1])
      Op.subject ?_ fun e _ => ⟨?_, fun x hx => ?_⟩
    · rw [← List.map_eq_flatMap]
      exact config.bridge.nodup
    · exact ((List.nodup_dedup _).filter _).map (hinj e.1)
    · obtain ⟨m, -, rfl⟩ := List.mem_map.mp hx
      exact List.mem_singleton_self _
  have hgone : ((unwanted config kernel).flatMap fun e =>
      e.2.members.map (Op.removeMember e.1)).Nodup := by
    refine nodup_flatMap_of_names (fun e : String × Interface => [e.1])
      Op.subject ?_ fun e he => ⟨?_, fun x hx => ?_⟩
    · rw [← List.map_eq_flatMap]
      exact unwanted_nodup
    · obtain ⟨-, hi, -⟩ := mem_unwanted.mp he
      have hmembers : kernel.membersOf e.1 = e.2.members := by
        rw [KernelInterfaces.membersOf, hi]
      rw [← hmembers]
      exact (hk.distinct e.1).map (hinj e.1)
    · obtain ⟨m, -, rfl⟩ := List.mem_map.mp hx
      exact List.mem_singleton_self _
  have hstale : ∀ done, (staleAnchors config pf done).Nodup := by
    intro done
    unfold staleAnchors
    cases pf with
    | none => exact List.nodup_nil
    | some anchors =>
      have hkeys : ((sortedBy Prod.fst anchors.entries).map Prod.fst).Nodup :=
        ((perm_sortedBy Prod.fst anchors.entries).map Prod.fst).nodup_iff.mpr anchors.nodup
      refine List.Nodup.of_map Op.subject ?_
      rw [List.map_map]
      exact hkeys.sublist (List.filter_sublist.map Prod.fst)
  refine List.nodup_append'.mpr ⟨List.nodup_append'.mpr ⟨hdesired, hgone, ?_⟩, hstale _, ?_⟩
  · -- a bridge is of the config or not
    intro x hx hx'
    rw [hloop] at hx
    obtain ⟨e, he, hx⟩ := List.mem_flatMap.mp hx
    obtain ⟨m, -, rfl⟩ := List.mem_map.mp hx
    obtain ⟨e', he', hx'⟩ := List.mem_flatMap.mp hx'
    obtain ⟨m', -, heq⟩ := List.mem_map.mp hx'
    obtain ⟨hb, -⟩ := Op.removeMember.inj heq
    exact (mem_unwanted.mp he').1 (hb ▸ Dict.mem_of_entry he)
  · intro x hx hx'
    obtain ⟨n, rfl, -⟩ := mem_staleAnchors.mp hx'
    obtain ⟨b, m, heq, -⟩ := (mem_removals hparts).mp hx
    exact absurd heq (by simp)

theorem destroys_once (hk : Regular kernel) (h : diff config kernel pf = .ok p) :
    (p.destroys.filterMap Op.destroyed).Nodup ∧ (flushed p.destroys).Nodup := by
  obtain ⟨parts, hparts, rfl⟩ := diff_ok h
  have hgone : ((unwanted config kernel).foldl (tearDown kernel pf) {}).Once := gone_once hk
  have hevicted := @foldl_destroyOnce_once pf _ hgone (parts.flatMap BridgePart.evicted)
  have hgc := @foldl_destroyOnce_once pf _ hevicted
    (orphans kernel (parts.flatMap BridgePart.claims))
  exact ⟨hgc.destroyed, hgc.flushes⟩

theorem destroys_nodup (hk : Regular kernel) (h : diff config kernel pf = .ok p) :
    p.destroys.Nodup := by
  obtain ⟨hdes, hfl⟩ := destroys_once hk h
  refine List.nodup_iff_sublist.mpr fun x hx => ?_
  have hphase := phase_destroys h (hx.subset List.mem_cons_self)
  cases x with
  | destroyIface n => exact ne_twice_of_filterMap hdes (b := n) rfl hx
  | destroyBridge n => exact ne_twice_of_filterMap hdes (b := n) rfl hx
  | flushAnchor n => exact ne_twice_of_filterMap hfl (b := n) rfl hx
  | _ => exact absurd hphase (by simp [Op.phase])

/-- Ops that are not flushed both as a stale anchor and with an interface come once. -/
theorem filter_ops_nodup (honce : ClaimedOnce config) (hk : Regular kernel)
    (h : diff config kernel pf = .ok p) {q : Op → Bool}
    (hq : ∀ n, q (.flushAnchor n) = true → .flushAnchor n ∈ p.removes →
      .flushAnchor n ∉ p.destroys) : (p.ops.filter q).Nodup := by
  have hcreates : p.creates.Nodup :=
    (List.nodup_append'.mp (created_names h honce)).1.of_map
  unfold Plan.ops
  simp only [List.filter_append]
  refine List.nodup_append'.mpr ⟨List.nodup_append'.mpr ⟨List.nodup_append'.mpr
    ⟨hcreates.filter _, (removes_nodup hk h).filter _, ?_⟩, (adds_nodup h honce).filter _, ?_⟩,
    (destroys_nodup hk h).filter _, ?_⟩
  · -- the phases are told apart by the kind of op, a flush excepted
    intro x hc hr
    have hphase := phase_creates h (List.mem_filter.mp hc).1
    rcases phase_removes h (List.mem_filter.mp hr).1 with hx | hx <;> rw [hx] at hphase <;>
      exact absurd hphase (by decide)
  · intro x hcr ha
    have hphase := phase_adds h (List.mem_filter.mp ha).1
    rcases List.mem_append.mp hcr with hc | hr
    · rw [phase_creates h (List.mem_filter.mp hc).1] at hphase
      exact absurd hphase (by decide)
    · rcases phase_removes h (List.mem_filter.mp hr).1 with hx | hx <;> rw [hx] at hphase <;>
        exact absurd hphase (by decide)
  · intro x hcra hd
    obtain ⟨hd, hqx⟩ := List.mem_filter.mp hd
    have hphase := phase_destroys h hd
    rcases List.mem_append.mp hcra with hcr | ha
    · rcases List.mem_append.mp hcr with hc | hr
      · rw [phase_creates h (List.mem_filter.mp hc).1] at hphase
        exact absurd hphase (by decide)
      · obtain ⟨hr, -⟩ := List.mem_filter.mp hr
        rcases phase_removes h hr with hx | hx
        · rw [hx] at hphase
          exact absurd hphase (by decide)
        · -- a flush is in the removes and the destroys; `hq` lets it be in one of them only
          obtain ⟨n, rfl⟩ : ∃ n, x = .flushAnchor n := by
            cases x with
            | flushAnchor n => exact ⟨n, rfl⟩
            | _ => exact absurd hx (by simp [Op.phase])
          exact hq n hqx hr hd
    · rw [phase_adds h (List.mem_filter.mp ha).1] at hphase
      exact absurd hphase (by decide)

/-- An op that is no flush is issued at one place. -/
theorem issued_once (honce : ClaimedOnce config) (hk : Regular kernel)
    (h : diff config kernel pf = .ok p) {pre post : List Op} {x : Op}
    (hx : x.phase ≠ .flushes) (hsplit : p.ops = pre ++ x :: post) : x ∉ pre ∧ x ∉ post := by
  have hnd := filter_ops_nodup honce hk h (q := fun y => decide (y.phase ≠ .flushes))
    fun n hq => absurd hq (by simp [Op.phase])
  rw [hsplit, List.filter_append, List.filter_cons_of_pos (by simpa using hx)] at hnd
  obtain ⟨-, hpost, hdis⟩ := List.nodup_append'.mp hnd
  constructor
  · intro hin
    exact hdis (List.mem_filter.mpr ⟨hin, by simpa using hx⟩) List.mem_cons_self
  · intro hin
    exact (List.nodup_cons.mp hpost).1 (List.mem_filter.mpr ⟨hin, by simpa using hx⟩)

/-- An anchor is flushed twice when it is an orphan's that no earlier path queued. -/
theorem flushed_twice_iff (h : diff config kernel pf = .ok p) {n : String} :
    (.flushAnchor n ∈ p.removes ∧ .flushAnchor n ∈ p.destroys) ↔
      Orphan config kernel n ∧ Loaded pf n ∧
        ¬ (TornDown config kernel n ∨ Evicted config kernel n) := by
  obtain ⟨parts, hparts, rfl⟩ := diff_ok h
  have horph : n ∈ orphans kernel (parts.flatMap BridgePart.claims) ↔ Orphan config kernel n := by
    unfold orphans Orphan
    simp only [List.mem_filter, Bool.and_eq_true, decide_eq_true_eq, mem_claims hparts]
    cases kernel.interfaces.get? n <;> simp [and_comm]
  -- what the first two paths of the teardown have destroyed, and queued
  generalize hgc : (parts.flatMap BridgePart.evicted).foldl (destroyOnce pf)
    ((unwanted config kernel).foldl (tearDown kernel pf) {}) = gc
  have hqueued : n ∈ gc.queued ↔ Evicted config kernel n ∨ Unwanted config kernel n ∨
      (kernel.ownedName n = true ∧ ∃ e ∈ unwanted config kernel, n ∈ e.2.members) := by
    rw [← hgc, queued_foldl_destroyOnce, queued_foldl_tearDown, mem_evicted hparts,
      mem_unwanted_names]
    simp
  have hremoves : .flushAnchor n ∈ (assemble config kernel pf parts).removes ↔
      Loaded pf n ∧ n ∉ policied config ∧ .flushAnchor n ∉ gc.destroys := by
    have hstale : .flushAnchor n ∈ (assemble config kernel pf parts).removes ↔
        .flushAnchor n ∈ staleAnchors config pf (flushed (parts.flatMap BridgePart.removes ++
          (unwanted config kernel).flatMap (fun e => e.2.members.map (.removeMember e.1)) ++
          gc.destroys)) := by
      rw [← hgc]
      refine List.mem_append.trans (or_iff_right fun hr => ?_)
      obtain ⟨b, m, heq, -⟩ := (mem_removals hparts).mp hr
      exact absurd heq (by simp)
    rw [hstale, mem_staleAnchors]
    constructor
    · rintro ⟨k, heq, hl, hp, hd⟩
      obtain rfl := Op.flushAnchor.inj heq
      exact ⟨hl, hp, fun hin => hd (mem_flushed.mpr (List.mem_append_right _ hin))⟩
    · rintro ⟨hl, hp, hd⟩
      refine ⟨n, rfl, hl, hp, fun hin => ?_⟩
      rcases List.mem_append.mp (mem_flushed.mp hin) with hr | hin
      · obtain ⟨b, m, heq, -⟩ := (mem_removals hparts).mp hr
        exact absurd heq (by simp)
      · exact hd hin
  have hdestroys : .flushAnchor n ∈ (assemble config kernel pf parts).destroys ↔
      .flushAnchor n ∈ gc.destroys ∨
        (Orphan config kernel n ∧ n ∉ gc.queued ∧ Loaded pf n) := by
    unfold assemble
    simp only [hgc]
    rw [mem_foldl_destroyOnce]
    refine or_congr Iff.rfl ⟨?_, ?_⟩
    · rintro ⟨k, hk, hq, heq | ⟨heq, hl⟩⟩
      · exact absurd heq (by simp)
      · obtain rfl := Op.flushAnchor.inj heq
        exact ⟨horph.mp hk, hq, hl⟩
    · rintro ⟨ho, hq, hl⟩
      exact ⟨n, horph.mpr ho, hq, Or.inr ⟨rfl, hl⟩⟩
  rw [hremoves, hdestroys]
  constructor
  · rintro ⟨⟨hl, -, hnot⟩, hin | ⟨ho, hq, -⟩⟩
    · exact absurd hin hnot
    · refine ⟨ho, hl, fun hearly => hq (hqueued.mpr ?_)⟩
      rcases hearly with ⟨hown, pre, e, post, hsplit, hm, -⟩ | hev
      · refine Or.inr (Or.inr ⟨hown, e, ?_, hm⟩)
        rw [hsplit]
        exact List.mem_append_right _ List.mem_cons_self
      · exact Or.inl hev
  · rintro ⟨ho, hl, hearly⟩
    have hnotunwanted : ¬ Unwanted config kernel n := by
      rintro ⟨-, i, hi, hb, -⟩
      obtain ⟨-, -, i', hi', hb'⟩ := ho
      rw [hi, Option.some.injEq] at hi'
      rw [hi', hb'] at hb
      exact absurd hb (by decide)
    have hq : n ∉ gc.queued := by
      rw [hqueued]
      rintro (hev | hu | ⟨hown, e, he, hm⟩)
      · exact hearly (Or.inr hev)
      · exact hnotunwanted hu
      · exact hearly (Or.inl ⟨hown, firstHeld_of_mem hnotunwanted he hm⟩)
    refine ⟨⟨hl, fun hp => ho.2.1 (claimed_of_policied hp), fun hin => hq ?_⟩,
      Or.inr ⟨ho, hq, hl⟩⟩
    rw [← hgc, mem_foldl_destroyOnce, mem_foldl_tearDown] at hin
    rw [← hgc, queued_foldl_destroyOnce, queued_foldl_tearDown]
    rcases hin with (hin | ⟨e, -, heq⟩ | ⟨k, -, hown, ⟨pre, e, post, hsplit, hm, -⟩, hx⟩) |
      ⟨k, hk, -, hx⟩
    · exact absurd hin List.not_mem_nil
    · exact absurd heq (by simp)
    · rcases hx with heq | ⟨heq, -⟩
      · exact absurd heq (by simp)
      · obtain rfl := Op.flushAnchor.inj heq
        refine Or.inr (Or.inr (Or.inr ⟨hown, e, ?_, hm⟩))
        rw [hsplit]
        exact List.mem_append_right _ List.mem_cons_self
    · rcases hx with heq | ⟨heq, -⟩
      · exact absurd heq (by simp)
      · obtain rfl := Op.flushAnchor.inj heq
        exact Or.inl hk

/-- The destroys come last. -/
theorem phase_front (h : diff config kernel pf = .ok p) {x : Op}
    (hx : x ∈ p.creates ++ p.removes ++ p.adds) : x.phase ≠ .destroys := by
  rcases List.mem_append.mp hx with hx | hx
  · rcases List.mem_append.mp hx with hx | hx
    · rw [phase_creates h hx]
      decide
    · rcases phase_removes h hx with hx | hx <;> rw [hx] <;> decide
  · rw [phase_adds h hx]
    decide

/-- No interface is destroyed twice. -/
theorem destroyed_nodup (hk : Regular kernel) (h : diff config kernel pf = .ok p) :
    (p.ops.filterMap Op.destroyed).Nodup := by
  have hfront : (p.creates ++ p.removes ++ p.adds).filterMap Op.destroyed = [] := by
    rw [List.filterMap_eq_nil_iff]
    intro x hx
    have hphase := phase_front h hx
    cases x <;> first | rfl | exact absurd rfl hphase
  unfold Plan.ops
  rw [List.filterMap_append, hfront, List.nil_append]
  exact (destroys_once hk h).1

/-- A plan without an op that comes twice creates, destroys and flushes nothing twice. -/
theorem repeatsNothing_of_nodup (hk : Regular kernel) (honce : ClaimedOnce config)
    (h : diff config kernel pf = .ok p) (hnd : p.ops.Nodup) : RepeatsNothing p.ops := by
  refine ⟨hnd, ?_, ?_, ?_⟩
  · have hremoves : p.removes.filterMap Op.created = [] := by
      rw [List.filterMap_eq_nil_iff]
      intro x hx
      have hphase := phase_removes h hx
      cases x <;> first | rfl | exact absurd hphase (by simp [Op.phase])
    have hdestroys : p.destroys.filterMap Op.created = [] := by
      rw [List.filterMap_eq_nil_iff]
      intro x hx
      have hphase := phase_destroys h hx
      cases x <;> first | rfl | exact absurd hphase (by simp [Op.phase])
    have hsub : (p.creates.filterMap Op.created).Sublist (p.creates.map Op.subject) :=
      filterMap_sublist_map fun x _ n hx => Op.subject_of_created hx
    unfold Plan.ops
    rw [List.filterMap_append, List.filterMap_append, List.filterMap_append, hremoves,
      hdestroys, List.append_nil, List.append_nil]
    exact (created_names h honce).sublist (hsub.append_right _)
  · exact destroyed_nodup hk h
  · unfold flushed
    refine List.Nodup.filterMap (fun x y n hx hy => ?_) hnd
    cases x with
    | flushAnchor k =>
      cases y with
      | flushAnchor l =>
        rw [Option.some.inj (Option.mem_def.mp hx), Option.some.inj (Option.mem_def.mp hy)]
      | _ => exact absurd hy (by simp)
    | _ => exact absurd hx (by simp)

/-- **Where every name is claimed once, the plan of a regular kernel repeats nothing exactly when
the loaded anchor of every orphan is that of an interface an earlier path of the gc queued**: a
member of a bridge on its way out, or of a desired bridge that gives it up. -/
theorem repeats_nothing_iff (honce : ClaimedOnce config) (hk : Regular kernel)
    (h : diff config kernel pf = .ok p) :
    RepeatsNothing p.ops ↔ ∀ n, Orphan config kernel n → Loaded pf n →
      TornDown config kernel n ∨ Evicted config kernel n := by
  constructor
  · intro hrep n ho hl
    by_contra hearly
    obtain ⟨hr, hd⟩ := (flushed_twice_iff h).mpr ⟨ho, hl, hearly⟩
    have hnd := hrep.distinct
    unfold Plan.ops at hnd
    exact (List.nodup_append'.mp hnd).2.2
      (List.mem_append_left _ (List.mem_append_right _ hr)) hd
  · intro hearly
    refine repeatsNothing_of_nodup hk honce h ?_
    have hnd := filter_ops_nodup honce hk h (q := fun _ => true) fun n _ hr hd => by
      obtain ⟨ho, hl, hnot⟩ := (flushed_twice_iff h).mp ⟨hr, hd⟩
      exact hnot (hearly n ho hl)
    rwa [List.filter_true] at hnd

end Plan

/-! ## 6. An orphan with an anchor

A tap of an earlier config, outside every bridge, with its rules still loaded. -/

/-- A tap of an earlier config, outside every bridge. -/
def orphanKernel : KernelInterfaces :=
  { interfaces := ⟨[("tap0", { name := "tap0", groups := ["tap", OWNED_GROUP] })], by decide⟩
    owned := ["tap0"] }

/-- Its anchor is still loaded. -/
def orphanAnchors : PfState := ⟨[("tap0", { isLoaded := true, cfgHash := some "old" })], by decide⟩

/-- The anchor is stale, and then flushed with the tap. -/
def orphanPlan : Plan :=
  { removes := [.flushAnchor "tap0"]
    destroys := [.flushAnchor "tap0", .destroyIface "tap0"] }

theorem diff_orphan (inst : Hashlib) :
    diff {} orphanKernel (some orphanAnchors) = .ok orphanPlan := rfl

theorem once_empty : ClaimedOnce {} := ⟨[], rfl, List.nodup_nil⟩

theorem membersOf_orphan (b : String) : orphanKernel.membersOf b = [] := by
  unfold KernelInterfaces.membersOf
  cases hi : orphanKernel.interfaces.get? b with
  | none => rfl
  | some i =>
    rw [Dict.get?_eq_some] at hi
    obtain ⟨-, rfl⟩ := Prod.mk.inj (List.mem_singleton.mp hi)
    rfl

theorem regular_orphan : Regular orphanKernel where
  bridgeless := by
    intro b i m j hi _ hm
    have hnone := membersOf_orphan b
    rw [KernelInterfaces.membersOf, hi] at hnone
    rw [show i.members = [] from hnone] at hm
    exact absurd hm List.not_mem_nil
  locked := by simp [orphanKernel, KernelInterfaces.staticLock, KernelInterfaces.lockIn]
  present := by
    intro b m hm
    rw [membersOf_orphan] at hm
    exact absurd hm List.not_mem_nil
  distinct := by
    intro b
    rw [membersOf_orphan]
    exact List.nodup_nil

/-- An anchor can be flushed twice. -/
theorem anchor_flushed_twice : ¬ ∀ (_ : Hashlib) (config : Config) (kernel : KernelInterfaces)
    (pf : Option PfState) (p : Plan), ClaimedOnce config → Regular kernel →
      diff config kernel pf = .ok p → RepeatsNothing p.ops := fun h =>
  absurd (h ⟨id⟩ {} orphanKernel (some orphanAnchors) orphanPlan once_empty regular_orphan
    (diff_orphan ⟨id⟩)).distinct (by decide)

theorem repeats_nothing_iff_orphan :
    RepeatsNothing orphanPlan.ops ↔ ∀ n, Orphan {} orphanKernel n →
      Loaded (some orphanAnchors) n → TornDown {} orphanKernel n ∨ Evicted {} orphanKernel n :=
  @repeats_nothing_iff ⟨id⟩ _ _ _ _ once_empty regular_orphan (diff_orphan ⟨id⟩)

end Planner

end Bsdbridge
