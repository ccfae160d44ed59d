import Bsdbridge.Proof.Pass
import Bsdbridge.Proof.Foreign

/-!
# When `diff` refuses

The planner never adopts: a foreign interface under a name it would make itself is an error. The
checks stand in three places of the bridge loop, and one is missing. An uplink of a vlan or vxlan
segment is taken as it is found, whoever made it.

Two exact statements come first, because the third needs to know what else can end a diff.
**`diff_ok_iff`** and **`diff_refused_iff`** say that for a config its constructors accepted a diff
either returns or raises a `PlanError`, and which kernels it refuses: `Refused` has the foreign
bridge, the foreign tap, and a vlan of a trunk whose name grows too long for an interface. Lookups
that would raise something else (a missing physnet, a missing table) cannot fail by then; that is
`Checked`, and `Proof/Acceptance` shows that reading a document establishes it.

**`foreign_refused_iff`** is then the statement about foreign names: a diff that should have
refused one does so exactly when the name is no manufactured uplink's, or when something else in
the config is refused anyway. The second disjunct is no virtue of the planner, but it is what the
code does, and leaving it out would make the statement false.
-/

set_option autoImplicit false

namespace Bsdbridge

namespace Planner

/-! ## 1. A config that was built

What the constructors have checked, as the planner's lookups use it. -/

/-- What the constructors of the model have checked. -/
structure Checked (config : Config) : Prop where
  dangling : Config.dangling config = none
  segments : ∀ b br seg, (b, br) ∈ config.bridge.entries → br.segment = some seg →
    Segment.check seg = .ok seg

namespace Checked

variable {config : Config}

/-- A segment without vxlan names a physnet of the config. -/
theorem physnet (hc : Checked config) {b : String} {br : Bridge} {seg : Segment}
    (hb : (b, br) ∈ config.bridge.entries) (hseg : br.segment = some seg)
    (hvx : seg.vxlan = none) :
    ∃ p physnet, seg.physnet = some p ∧ config.physnet.get? p = some physnet := by
  have hcheck := hc.segments b br seg hb hseg
  have htruthy : ∃ p, truthy seg.physnet = some p := by
    unfold Segment.check at hcheck
    rw [hvx] at hcheck
    cases hp : truthy seg.physnet with
    | some p => exact ⟨p, rfl⟩
    | none => cases hvl : seg.vlan <;> simp [hp, hvl] at hcheck
  obtain ⟨p, hp⟩ := htruthy
  have hdangling := hc.dangling
  unfold Config.dangling at hdangling
  obtain ⟨hbridges, -⟩ := (Option.orElse_eq_none _ _).mp hdangling
  have hbridge := List.findSome?_eq_none_iff.mp hbridges (b, br) hb
  unfold Config.danglingBridge at hbridge
  obtain ⟨hphys, -⟩ := (Option.orElse_eq_none _ _).mp hbridge
  have hmem : p ∈ config.physnet := by
    by_contra hno
    simp [hseg, hp, hno] at hphys
  obtain ⟨physnet, hget⟩ := Dict.mem_iff_get?.mp hmem
  exact ⟨p, physnet, (truthy_eq_some.mp hp).1, hget⟩

/-- Every table a filter of the config refers to is there. -/
theorem table (hc : Checked config) {fname t : String} {filt : Filter}
    (hf : config.filter.get? fname = some filt) (ht : t ∈ Pf.tablesReferenced (some filt)) :
    t ∈ config.table := by
  have hdangling := hc.dangling
  unfold Config.dangling at hdangling
  obtain ⟨-, hfilters⟩ := (Option.orElse_eq_none _ _).mp hdangling
  have hfilter := List.findSome?_eq_none_iff.mp hfilters (fname, filt) (Dict.get?_eq_some.mp hf)
  unfold Pf.tablesReferenced at ht
  rw [List.mem_toFinset, List.mem_flatMap] at ht
  obtain ⟨rule, hrule, href⟩ := ht
  obtain ⟨ref, href, hname⟩ := List.mem_filterMap.mp href
  unfold Dict.values at hrule
  rw [← List.map_append] at hrule
  obtain ⟨e, he, rfl⟩ := List.mem_map.mp hrule
  have hside := List.findSome?_eq_none_iff.mp hfilter e he
  have hone := List.findSome?_eq_none_iff.mp hside ref href
  by_contra hno
  simp [hname, hno] at hone

theorem tablesOf (hc : Checked config) {member : Member} :
    Pf.wantedTables (filterOf config member) config =
      .ok (Planner.tablesOf config member) := by
  have htotal : ∃ tables, Pf.wantedTables (filterOf config member) config = .ok tables := by
    unfold Pf.wantedTables
    apply exists_mapM_ok
    intro t ht
    rw [mem_sortedSet] at ht
    have hmem : t ∈ config.table := by
      cases hf : filterOf config member with
      | none =>
        rw [hf] at ht
        exact absurd ht (by simp [Pf.tablesReferenced])
      | some filt =>
        obtain ⟨fname, -, hget⟩ := Option.bind_eq_some_iff.mp hf
        exact hc.table hget (hf ▸ ht)
    obtain ⟨table, hget⟩ := Dict.mem_iff_get?.mp hmem
    exact ⟨(t, table.members), by rw [Dict.getItem_eq_ok.mpr hget]; rfl⟩
  obtain ⟨tables, htables⟩ := htotal
  rw [Planner.tablesOf, htables]

end Checked

/-! ## 2. What refuses a pass

One lemma for each loop says when it raises and what. The walk over the bridges stops at the
first error, which is why `Refused` asks for *some* bridge and says nothing about the message. -/

/-- A vlan uplink whose derived name is too long for an interface. -/
def LongUplink (config : Config) (br : Bridge) : Prop :=
  ∃ seg vid p physnet, br.segment = some seg ∧ seg.vxlan = none ∧ seg.vlan = some vid ∧
    seg.physnet = some p ∧ config.physnet.get? p = some physnet ∧
    IFNAME_MAX < (physnet.trunk ++ "." ++ toString vid).length

/-- The kernel state a pass refuses: something else under the name of a bridge, a foreign
interface under that of a typed member, or a name that cannot be derived. -/
def Refused (config : Config) (kernel : KernelInterfaces) : Prop :=
  ∃ b br, (b, br) ∈ config.bridge.entries ∧
    ((b ∈ kernel ∧ ¬ kernel.OwnedBridge b) ∨
      (∃ m member, (m, member) ∈ br.member.entries ∧ member.type.isSome = true ∧ m ∈ kernel ∧
        kernel.ownedName m = false) ∨
      LongUplink config br)

/-- A planner error, as opposed to a failed lookup. -/
def IsPlanError (e : PlanExc) : Prop := ∃ msg, e = .planError msg

section

variable {config : Config} {kernel : KernelInterfaces} {b : String} {br : Bridge}

/-- The uplink names of a bridge, unless one is too long. -/
theorem uplinkNames_cases (hc : Checked config) (hb : (b, br) ∈ config.bridge.entries) :
    (¬ LongUplink config br ∧ ∃ names, uplinkNames b br config = .ok names) ∨
      (LongUplink config br ∧ ∃ msg, uplinkNames b br config = .error (.planError msg)) := by
  cases hseg : br.segment with
  | none =>
    left
    refine ⟨?_, [], by unfold uplinkNames; rw [hseg]⟩
    rintro ⟨seg, vid, p, physnet, hs, -⟩
    exact absurd (hseg.symm.trans hs) (by simp)
  | some seg =>
    cases hvx : seg.vxlan with
    | some vx =>
      left
      constructor
      · rintro ⟨seg', vid, p, physnet, hs, hno, -⟩
        obtain rfl := Option.some.inj (hseg.symm.trans hs)
        exact absurd (hvx.symm.trans hno) (by simp)
      · unfold uplinkNames
        simp only [hseg, hvx]
        exact ⟨_, rfl⟩
    | none =>
      obtain ⟨p, physnet, hp, hget⟩ := hc.physnet hb hseg hvx
      have htrunk : trunkOf config seg = .ok physnet.trunk := by
        unfold trunkOf
        rw [hp]
        simp only
        rw [Dict.getItem_eq_ok.mpr hget]
        rfl
      cases hvl : seg.vlan with
      | none =>
        left
        refine ⟨?_, [physnet.trunk], ?_⟩
        · rintro ⟨seg', vid, p', physnet', hs, -, hno, -⟩
          obtain rfl := Option.some.inj (hseg.symm.trans hs)
          exact absurd (hvl.symm.trans hno) (by simp)
        · unfold uplinkNames
          simp only [hseg, hvx, htrunk, hvl, Except.ok_bind]
      | some vid =>
        by_cases hlong : IFNAME_MAX < (physnet.trunk ++ "." ++ toString vid).length
        · right
          refine ⟨⟨seg, vid, p, physnet, hseg, hvx, hvl, hp, hget, hlong⟩, ?_⟩
          unfold uplinkNames
          simp only [hseg, hvx, htrunk, hvl, Except.ok_bind, if_pos hlong]
          exact ⟨_, rfl⟩
        · left
          refine ⟨?_, [physnet.trunk ++ "." ++ toString vid], ?_⟩
          · rintro ⟨seg', vid', p', physnet', hs, -, hv, hp', hg, hl⟩
            obtain rfl := Option.some.inj (hseg.symm.trans hs)
            obtain rfl := Option.some.inj (hvl.symm.trans hv)
            obtain rfl := Option.some.inj (hp.symm.trans hp')
            obtain rfl := Option.some.inj (hget.symm.trans hg)
            exact hlong hl
          · unfold uplinkNames
            simp only [hseg, hvx, htrunk, hvl, Except.ok_bind, if_neg hlong]

/-- A vlan segment has a first uplink, so its creation finds a name. -/
theorem segmentCreates_ok (kernel : KernelInterfaces) {names : List String}
    (h : uplinkNames b br config = .ok names) :
    ∃ ups, segmentCreates br.segment names kernel = .ok ups := by
  unfold uplinkNames at h
  unfold segmentCreates uplinkCreates
  cases hseg : br.segment with
  | none => exact ⟨[], rfl⟩
  | some seg =>
    cases hvx : seg.vxlan with
    | some vx =>
      simp only [hvx]
      exact ⟨_, rfl⟩
    | none =>
      cases hvl : seg.vlan with
      | none =>
        simp only [hvx, hvl]
        exact ⟨_, rfl⟩
      | some vid =>
        simp only [hseg, hvx, hvl, Except.bind_eq_ok] at h
        obtain ⟨trunk, -, h⟩ := h
        split at h
        · exact absurd h (by simp)
        · cases h
          simp only [hvx, hvl]
          exact ⟨_, rfl⟩

theorem bridgeOp_raises : Except.RaisesOnly IsPlanError (bridgeOp kernel b br) := by
  unfold bridgeOp
  split
  · exact Except.RaisesOnly.ok
  · split
    · exact Except.RaisesOnly.error ⟨_, rfl⟩
    · split
      · exact Except.RaisesOnly.error ⟨_, rfl⟩
      · split <;> exact Except.RaisesOnly.ok

variable [Hashlib] {pf : Option PfState}

theorem memberPart_raises (hc : Checked config) {cur : List String} {m : String}
    {member : Member} :
    Except.RaisesOnly IsPlanError (memberPart config kernel pf b cur m member) := by
  obtain ⟨⟨load, tops⟩, hpf⟩ := pfOpsFor_total pf m fun _ => @Checked.tablesOf _ hc member
  unfold memberPart
  simp only [hpf, Except.ok_bind]
  refine Except.RaisesOnly.bind ?_ fun _ _ => Except.RaisesOnly.ok
  unfold presence
  cases member.type with
  | none =>
    simp only
    split
    · exact Except.RaisesOnly.ok
    · split <;> exact Except.RaisesOnly.ok
  | some t =>
    simp only
    split
    · exact Except.RaisesOnly.error ⟨_, rfl⟩
    · split
      · exact Except.RaisesOnly.ok
      · split <;> exact Except.RaisesOnly.ok

/-- `diff` of a config that was built raises planner errors only. -/
theorem diff_raises (hc : Checked config) :
    Except.RaisesOnly IsPlanError (diff config kernel pf) := by
  unfold diff
  refine Except.RaisesOnly.bind (Except.RaisesOnly.mapM ?_) fun _ _ => Except.RaisesOnly.ok
  intro e he
  unfold bridgePart
  refine Except.RaisesOnly.bind ?_ fun names hnames => ?_
  · intro exc hexc
    rcases uplinkNames_cases hc he with ⟨-, names, hok⟩ | ⟨-, msg, herr⟩
    · exact absurd (hok.symm.trans hexc) (by simp)
    · obtain rfl := Except.error.inj (herr.symm.trans hexc)
      exact ⟨msg, rfl⟩
  refine Except.RaisesOnly.bind bridgeOp_raises fun own _ => ?_
  refine Except.RaisesOnly.bind ?_ fun ups _ => ?_
  · intro exc hexc
    obtain ⟨ups, hok⟩ := segmentCreates_ok kernel hnames
    exact absurd (hok.symm.trans hexc) (by simp)
  exact Except.RaisesOnly.bind (Except.RaisesOnly.mapM fun f _ => memberPart_raises hc)
    fun _ _ => Except.RaisesOnly.ok

/-- **`diff` returns** exactly when nothing refuses it. -/
theorem diff_ok_iff (hc : Checked config) :
    (∃ p, diff config kernel pf = .ok p) ↔ ¬ Refused config kernel := by
  constructor
  · rintro ⟨p, h⟩ ⟨b, br, hb, ⟨hk, hno⟩ | ⟨m, member, hm, ht, hk, hforeign⟩ | hlong⟩
    · obtain ⟨i, hi⟩ := Dict.mem_iff_get?.mp hk
      exact hno ⟨i, hi, diff_bridge_owned h hb hi⟩
    · rw [diff_member_owned h hb hm ht hk] at hforeign
      exact absurd hforeign (by decide)
    · obtain ⟨part, hpart⟩ := diff_round h hb
      obtain ⟨names, -, -, -, hnames, -⟩ := bridgePart_ok hpart
      rcases uplinkNames_cases hc hb with ⟨hno, -⟩ | ⟨-, msg, herr⟩
      · exact hno hlong
      · exact absurd (hnames.symm.trans herr) (by simp)
  · intro hno
    have hround : ∀ e ∈ config.bridge.entries, ∃ part,
        bridgePart config kernel pf e.1 e.2 = .ok part := by
      rintro ⟨b, br⟩ hb
      have hnames : ∃ names, uplinkNames b br config = .ok names := by
        rcases uplinkNames_cases hc hb with ⟨-, hnames⟩ | ⟨hlong, -⟩
        · exact hnames
        · exact absurd ⟨b, br, hb, Or.inr (Or.inr hlong)⟩ hno
      obtain ⟨names, hnames⟩ := hnames
      obtain ⟨own, hown⟩ := @bridgeOp_total kernel b br fun i hi => by
        by_contra hforeign
        refine hno ⟨b, br, hb, Or.inl ⟨Dict.mem_of_get? hi, ?_⟩⟩
        rintro ⟨j, hj, hjb⟩
        obtain rfl := Option.some.inj (hi.symm.trans hj)
        exact hforeign hjb
      obtain ⟨ups, hups⟩ := segmentCreates_ok kernel hnames
      obtain ⟨members, hmembers⟩ := exists_mapM_ok
        (f := fun e => memberPart config kernel pf b (kernel.membersOf b).dedup e.1 e.2)
        (l := br.member.entries) fun e he =>
          memberPart_total (fun _ => hc.tablesOf) fun ht hk => by
            by_contra hforeign
            rw [Bool.not_eq_true] at hforeign
            exact hno ⟨b, br, hb, Or.inr (Or.inl ⟨e.1, e.2, he, ht, hk, hforeign⟩)⟩
      unfold bridgePart
      simp only [hnames, hown, hups, hmembers, Except.ok_bind]
      exact ⟨_, rfl⟩
    obtain ⟨parts, hparts⟩ := exists_mapM_ok hround
    unfold diff
    simp only [hparts, Except.ok_bind]
    exact ⟨_, rfl⟩

/-- **`diff` raises a planner error** exactly when something refuses it. -/
theorem diff_refused_iff (hc : Checked config) :
    (∃ msg, diff config kernel pf = .error (.planError msg)) ↔ Refused config kernel := by
  constructor
  · rintro ⟨msg, herr⟩
    by_contra hno
    obtain ⟨p, hp⟩ := (diff_ok_iff hc).mpr hno
    exact absurd (hp.symm.trans herr) (by simp)
  · intro href
    obtain ⟨e, herr, msg, rfl⟩ := (diff_raises hc).exists_error fun p hp =>
      (diff_ok_iff hc).mp ⟨p, hp⟩ href
    exact ⟨msg, herr⟩

end

/-! ## 3. Nothing foreign is adopted, but an uplink

`Makes` collects the names the planner would create an interface under. The member check and the
bridge check are there, and for uplinks the loop asks only whether the name exists. -/

/-- The kernel has an interface of this name that nobody gave to the agent. -/
def Foreign (kernel : KernelInterfaces) (n : String) : Prop :=
  n ∈ kernel ∧ kernel.ownedName n = false

/-- A vlan or vxlan uplink of the config. -/
def MadeUplink (config : Config) (n : String) : Prop :=
  ∃ b br, (b, br) ∈ config.bridge.entries ∧ manufactures br.segment = true ∧
    n ∈ uplinksOf config b br

/-- A name the config makes an interface under: a bridge, a typed member or an uplink. -/
def Makes (config : Config) (n : String) : Prop := n ∈ config.bridge ∨ Manufactured config n

/-- A bridge or a typed member that is foreign is refused. -/
theorem foreign_cases {config : Config} {kernel : KernelInterfaces} {n : String}
    (hn : Makes config n) (hforeign : Foreign kernel n) :
    Refused config kernel ∨ MadeUplink config n := by
  rcases hn with hb | ⟨b, br, hb, ⟨member, hm, ht⟩ | ⟨hmade, hup⟩⟩
  · left
    obtain ⟨br, hbr⟩ := Dict.mem_iff_entry.mp hb
    refine ⟨n, br, hbr, Or.inl ⟨hforeign.1, fun howned => ?_⟩⟩
    exact absurd (howned.owned.symm.trans hforeign.2) (by decide)
  · exact Or.inl ⟨b, br, hb, Or.inr (Or.inl ⟨n, member, hm, ht, hforeign⟩)⟩
  · exact Or.inr ⟨b, br, hb, hmade, hup⟩

/-- **A foreign name is refused** exactly when it is no uplink's, or something else is refused
anyway. -/
theorem foreign_refused_iff [Hashlib] {config : Config} {kernel : KernelInterfaces}
    {pf : Option PfState} (hc : Checked config) :
    ((∃ n, Makes config n ∧ Foreign kernel n) →
        ∃ msg, diff config kernel pf = .error (.planError msg)) ↔
      ((∃ n, MadeUplink config n ∧ Foreign kernel n) → Refused config kernel) := by
  rw [diff_refused_iff hc]
  constructor
  · rintro h ⟨n, ⟨b, br, hb, hmade, hup⟩, hforeign⟩
    exact h ⟨n, Or.inr ⟨b, br, hb, Or.inr ⟨hmade, hup⟩⟩, hforeign⟩
  · rintro h ⟨n, hn, hforeign⟩
    rcases foreign_cases hn hforeign with href | hup
    · exact href
    · exact h ⟨n, hup, hforeign⟩

/-- One bridge on vlan 5 of `em0`. -/
def vlanConfig : Config :=
  { physnet := ⟨[("p", { trunk := "em0" })], by decide⟩
    bridge := ⟨[("pbaaa", { segment := some { physnet := some "p", vlan := some 5 } })],
      by decide⟩ }

/-- Somebody's `em0.5`. -/
def vlanKernel : KernelInterfaces :=
  { interfaces := ⟨[("em0.5", { name := "em0.5", groups := ["vlan"] })], by decide⟩ }

theorem checked_vlan : Checked vlanConfig where
  dangling := rfl
  segments := by
    intro b br seg hb hseg
    obtain ⟨rfl, rfl⟩ := Prod.mk.inj (List.mem_singleton.mp hb)
    obtain rfl := Option.some.inj hseg
    rfl

/-- It becomes a member of the agent's bridge. -/
def vlanPlan : Plan :=
  { creates := [.createBridge "pbaaa" 2000], adds := [.addMember "pbaaa" "em0.5"] }

theorem diff_vlan (inst : Hashlib) : diff vlanConfig vlanKernel none = .ok vlanPlan := rfl

theorem foreign_vlan : MadeUplink vlanConfig "em0.5" ∧ Foreign vlanKernel "em0.5" :=
  ⟨⟨"pbaaa", _, List.mem_singleton_self _, rfl, by decide⟩, by decide, by decide⟩

/-- A foreign uplink is adopted. -/
theorem foreign_adopted : ¬ ∀ (_ : Hashlib) (config : Config) (kernel : KernelInterfaces)
    (pf : Option PfState), Checked config → (∃ n, Makes config n ∧ Foreign kernel n) →
      ∃ msg, diff config kernel pf = .error (.planError msg) := by
  intro h
  obtain ⟨⟨b, br, hb, hmade, hup⟩, hforeign⟩ := foreign_vlan
  obtain ⟨msg, herr⟩ := h ⟨id⟩ vlanConfig vlanKernel none checked_vlan
    ⟨"em0.5", Or.inr ⟨b, br, hb, Or.inr ⟨hmade, hup⟩⟩, hforeign⟩
  exact absurd ((diff_vlan ⟨id⟩).symm.trans herr) (by simp)

theorem foreign_refused_iff_vlan :
    ((∃ n, Makes vlanConfig n ∧ Foreign vlanKernel n) →
        ∃ msg, @diff ⟨id⟩ vlanConfig vlanKernel none = .error (.planError msg)) ↔
      ((∃ n, MadeUplink vlanConfig n ∧ Foreign vlanKernel n) → Refused vlanConfig vlanKernel) :=
  @foreign_refused_iff ⟨id⟩ _ _ _ checked_vlan

end Planner

end Bsdbridge
