import Bsdbridge.Proof.Rounds

/-!
# When a diff returns

A returned plan says something about the config and the kernel it was made from: what `diff` would
have refused is not there. Conversely a config that was diffed once is only ever refused for what a
kernel holds under its names, so **`diff_total`** gives a second diff for free on every kernel
whose desired bridges and typed members are owned.

This is what `Proof/Converge` diffs again with. It is weaker than `Proof/Refusal`, which says
exactly when a diff returns, and it asks for less: nothing is assumed of the config but that it was
diffed once, so a config that its constructors would not have accepted is covered as well.
-/

set_option autoImplicit false

namespace Bsdbridge

namespace Planner

section

variable {kernel : KernelInterfaces}

/-- Whether `uplink_creates` raises does not depend on the kernel. -/
theorem segmentCreates_total {seg : Option Segment} {names : List String} {ups : List Op}
    (h : segmentCreates seg names kernel = .ok ups) (kernel' : KernelInterfaces) :
    ∃ ups', segmentCreates seg names kernel' = .ok ups' := by
  cases seg with
  | none => exact ⟨[], rfl⟩
  | some s =>
    unfold segmentCreates uplinkCreates at h ⊢
    cases hvx : s.vxlan with
    | some vx =>
      simp only [hvx]
      exact ⟨_, rfl⟩
    | none =>
      cases hvl : s.vlan with
      | none =>
        simp only [hvx, hvl]
        exact ⟨_, rfl⟩
      | some vid =>
        cases names with
        | nil => simp [hvx, hvl] at h
        | cons n rest =>
          simp only [hvx, hvl]
          exact ⟨_, rfl⟩

theorem bridgeOp_total {b : String} (br : Bridge)
    (howned : ∀ i, kernel.interfaces.get? b = some i → i.isBridge = true ∧ i.isOwned = true) :
    ∃ own, bridgeOp kernel b br = .ok own := by
  unfold bridgeOp
  cases hi : kernel.interfaces.get? b with
  | none => exact ⟨_, rfl⟩
  | some i =>
    obtain ⟨hb, ho⟩ := howned i hi
    simp only [hb, ho, Bool.not_true, Bool.false_eq_true, if_false]
    split <;> exact ⟨_, rfl⟩

end

variable [Hashlib] {config : Config} {kernel : KernelInterfaces} {pf : Option PfState}
  {p : Plan}

/-- A round of a diff that returned. -/
theorem diff_round (h : diff config kernel pf = .ok p) {b : String} {br : Bridge}
    (hb : (b, br) ∈ config.bridge.entries) :
    ∃ part, bridgePart config kernel pf b br = .ok part := by
  obtain ⟨parts, hparts, -⟩ := diff_ok h
  obtain ⟨part, -, hpart⟩ := exists_of_mem_left hparts hb
  exact ⟨part, hpart⟩

/-- A desired bridge the kernel has is an owned bridge. -/
theorem diff_bridge_owned (h : diff config kernel pf = .ok p) {b : String} {br : Bridge}
    {i : Interface} (hb : (b, br) ∈ config.bridge.entries)
    (hi : kernel.interfaces.get? b = some i) : i.isBridge = true ∧ i.isOwned = true := by
  obtain ⟨part, hpart⟩ := diff_round h hb
  obtain ⟨_, own, _, _, -, hown, -⟩ := bridgePart_ok hpart
  exact bridgeOp_owned hown hi

/-- A member of a diff that returned. -/
theorem diff_member (h : diff config kernel pf = .ok p) {b m : String} {br : Bridge}
    {member : Member} (hb : (b, br) ∈ config.bridge.entries)
    (hm : (m, member) ∈ br.member.entries) :
    ∃ mp, memberPart config kernel pf b (kernel.membersOf b).dedup m member = .ok mp := by
  obtain ⟨part, hpart⟩ := diff_round h hb
  obtain ⟨_, _, _, members, -, -, -, hmembers, -⟩ := bridgePart_ok hpart
  obtain ⟨mp, -, hmp⟩ := exists_of_mem_left hmembers hm
  exact ⟨mp, hmp⟩

/-- A typed member the kernel has is owned. -/
theorem diff_member_owned (h : diff config kernel pf = .ok p) {b m : String} {br : Bridge}
    {member : Member} (hb : (b, br) ∈ config.bridge.entries)
    (hm : (m, member) ∈ br.member.entries) (ht : member.type.isSome = true)
    (hk : m ∈ kernel) : kernel.ownedName m = true := by
  obtain ⟨mp, hmp⟩ := diff_member h hb hm
  exact (memberPart_ok hmp).1 ht hk

/-- The tables of a member with a policy exist. -/
theorem diff_tables (h : diff config kernel pf = .ok p) {b m : String} {br : Bridge}
    {member : Member} (hb : (b, br) ∈ config.bridge.entries)
    (hm : (m, member) ∈ br.member.entries) (hpol : HasPolicy config member) :
    Pf.wantedTables (filterOf config member) config = .ok (tablesOf config member) := by
  obtain ⟨mp, hmp⟩ := diff_member h hb hm
  obtain ⟨-, load, tops, hpf, -⟩ := memberPart_ok hmp
  rcases pfOpsFor_ok hpf with ⟨hno, -⟩ | ⟨-, htab, -⟩
  · exact absurd hpol hno
  · exact htab

variable (pf) in
theorem pfOpsFor_total (m : String) {member : Member}
    (htab : HasPolicy config member →
      Pf.wantedTables (filterOf config member) config = .ok (tablesOf config member)) :
    ∃ r, pfOpsFor m member config pf = .ok r := by
  unfold pfOpsFor
  by_cases hcond : ((filterOf config member).isNone && member.bind.isNone) = true
  · rw [if_pos hcond]
    exact ⟨_, rfl⟩
  · have hpol : HasPolicy config member := by
      unfold HasPolicy
      cases hf : filterOf config member with
      | some f => exact Or.inl rfl
      | none =>
        cases hb : member.bind with
        | some b => exact Or.inr rfl
        | none => rw [hf, hb] at hcond; exact absurd rfl hcond
    simp only [hcond, htab hpol, Bool.false_eq_true, if_false, Except.ok_bind]
    split
    · exact ⟨_, rfl⟩
    · split
      · exact ⟨_, rfl⟩
      · split <;> exact ⟨_, rfl⟩

theorem memberPart_total {b m : String} {cur : List String} {member : Member}
    (htab : HasPolicy config member →
      Pf.wantedTables (filterOf config member) config = .ok (tablesOf config member))
    (howned : member.type.isSome = true → m ∈ kernel → kernel.ownedName m = true) :
    ∃ mp, memberPart config kernel pf b cur m member = .ok mp := by
  obtain ⟨⟨load, tops⟩, hpf⟩ := pfOpsFor_total pf m htab
  have hpres : ∃ q, presence kernel b cur m member load = .ok q := by
    unfold presence
    cases ht : member.type with
    | none =>
      simp only
      split
      · exact ⟨_, rfl⟩
      · split <;> exact ⟨_, rfl⟩
    | some t =>
      have hno : ¬ (m ∈ kernel ∧ kernel.ownedName m = false) := by
        rintro ⟨hk, hf⟩
        rw [howned (by rw [ht]; rfl) hk] at hf
        exact absurd hf (by decide)
      simp only [if_neg hno]
      split
      · exact ⟨_, rfl⟩
      · split <;> exact ⟨_, rfl⟩
  obtain ⟨q, hq⟩ := hpres
  unfold memberPart
  simp only [hpf, hq, Except.ok_bind]
  exact ⟨_, rfl⟩

/-- A config that could be diffed can be diffed against every kernel whose desired bridges and
typed members are owned. -/
theorem diff_total (h : diff config kernel pf = .ok p) (kernel' : KernelInterfaces)
    (pf' : Option PfState)
    (hbr : ∀ b br, (b, br) ∈ config.bridge.entries → ∀ i,
      kernel'.interfaces.get? b = some i → i.isBridge = true ∧ i.isOwned = true)
    (hm : ∀ b br m member, (b, br) ∈ config.bridge.entries →
      (m, member) ∈ br.member.entries → member.type.isSome = true → m ∈ kernel' →
      kernel'.ownedName m = true) :
    ∃ q, diff config kernel' pf' = .ok q := by
  have hround : ∀ e ∈ config.bridge.entries, ∃ part,
      bridgePart config kernel' pf' e.1 e.2 = .ok part := by
    rintro ⟨b, br⟩ hb
    obtain ⟨part, hpart⟩ := diff_round h hb
    obtain ⟨names, own, ups, members, hnames, -, hups, -⟩ := bridgePart_ok hpart
    obtain ⟨own', hown'⟩ := bridgeOp_total br (hbr b br hb)
    obtain ⟨ups', hups'⟩ := segmentCreates_total hups kernel'
    obtain ⟨members', hmembers'⟩ := exists_mapM_ok
      (f := fun e => memberPart config kernel' pf' b (kernel'.membersOf b).dedup e.1 e.2)
      (l := br.member.entries) fun e he =>
        memberPart_total (diff_tables h hb he) (hm b br e.1 e.2 hb he)
    unfold bridgePart
    simp only [hnames, hown', hups', hmembers', Except.ok_bind]
    exact ⟨_, rfl⟩
  obtain ⟨parts, hparts⟩ := exists_mapM_ok hround
  unfold diff
  simp only [hparts, Except.ok_bind]
  exact ⟨_, rfl⟩

end Planner

end Bsdbridge
