import Bsdbridge.L2Agent.Plan
import Bsdbridge.Lib.Except

/-!
# The rounds of the bridge loop

A round of the loop of `diff` may raise in its middle. Each theorem here says what a part of a
round that did not raise has returned, in closed form, so that what follows never unfolds the
planner: `bridgeOp` and `segmentCreates` for the creates, `pfOpsFor` and `presence` for a member,
`bridgePart` for the round, `diff` for the walk.

The closed forms use total versions of what may raise. `uplinksOf` has no names where deriving them
raises, and `tablesOf` no tables where one is missing. A theorem about a part that returned can use
them freely, since there they are what the part computed; so can a definition that is about plans,
since there is none where anything raised. What raises, and when, is `Proof/Refusal`.

`HasPolicy`, `Surviving` and `loadFor` are the planner's decisions about one member's anchor, each
under a name: whether there is anything to load, whether what the pass saw is already it, and what
the load is. They recur in every later file that speaks of anchors.
-/

set_option autoImplicit false

namespace Bsdbridge

namespace Planner

/-! ## 1. The names a config claims -/

/-- `uplink_names`, with no name where deriving them raises. -/
def uplinksOf (config : Config) (bname : String) (bridge : Bridge) : List String :=
  match uplinkNames bname bridge config with
  | .ok names => names
  | .error _ => []

/-- The names one bridge claims: its uplinks and its members. -/
def claimsOf (config : Config) (bname : String) (bridge : Bridge) : List String :=
  uplinksOf config bname bridge ++ bridge.member.keys

/-- The non-bridge names the config claims. -/
def claimed (config : Config) : List String :=
  config.bridge.entries.flatMap fun e => claimsOf config e.1 e.2

theorem mem_claimed {config : Config} {n : String} :
    n ∈ claimed config ↔
      ∃ b br, (b, br) ∈ config.bridge.entries ∧ n ∈ claimsOf config b br := by
  simp [claimed, List.mem_flatMap]

theorem uplinksOf_ok {config : Config} {b : String} {br : Bridge} {names : List String}
    (h : uplinkNames b br config = .ok names) : uplinksOf config b br = names := by
  rw [uplinksOf, h]

section

variable {config : Config} {kernel : KernelInterfaces} {pf : Option PfState}

/-! ## 2. The creates -/

theorem mem_bridgeOp {b : String} {br : Bridge} {own : List Op}
    (h : bridgeOp kernel b br = .ok own) {x : Op} :
    x ∈ own ↔ (b ∉ kernel ∧ x = .createBridge b br.maxAddresses) ∨
      ∃ i n, kernel.interfaces.get? b = some i ∧ i.maxaddr = some n ∧ n ≠ br.maxAddresses ∧
        x = .setMaxaddr b br.maxAddresses := by
  unfold bridgeOp at h
  cases hget : kernel.interfaces.get? b with
  | none =>
    have hnot : b ∉ kernel := Dict.get?_eq_none.mp hget
    rw [hget] at h
    cases h
    simp [hnot]
  | some i =>
    have hmem : b ∈ kernel := Dict.mem_of_get? hget
    simp only [hget] at h
    split at h
    · exact absurd h (by simp)
    · split at h
      · exact absurd h (by simp)
      · cases hmax : i.maxaddr with
        | none =>
          rw [hmax] at h
          cases h
          simp [hmem, hmax]
        | some n =>
          rw [hmax] at h
          by_cases hn : n = br.maxAddresses
          · simp only [ne_eq, hn, not_true_eq_false, if_false, Except.ok.injEq] at h
            subst h
            simp [hmem, hmax, hn]
          · simp only [ne_eq, hn, not_false_eq_true, if_true, Except.ok.injEq] at h
            subst h
            simp [hmem, hmax, hn]

/-- A desired bridge the kernel has is an owned bridge. -/
theorem bridgeOp_owned {b : String} {br : Bridge} {own : List Op} {i : Interface}
    (h : bridgeOp kernel b br = .ok own) (hi : kernel.interfaces.get? b = some i) :
    i.isBridge = true ∧ i.isOwned = true := by
  unfold bridgeOp at h
  simp only [hi] at h
  split at h
  · exact absurd h (by simp)
  · rename_i hb
    split at h
    · exact absurd h (by simp)
    · rename_i ho
      exact ⟨by simpa using hb, by simpa using ho⟩

theorem mem_segmentCreates {seg : Option Segment} {names : List String} {ups : List Op}
    (h : segmentCreates seg names kernel = .ok ups) {x : Op} :
    x ∈ ups ↔
      (∃ s vid n, seg = some s ∧ s.vxlan = none ∧ s.vlan = some vid ∧ names.head? = some n ∧
        n ∉ kernel ∧ x = .createVlan n (Text.beforeLast n '.') vid) ∨
      ∃ s vx n peer, seg = some s ∧ s.vxlan = some vx ∧ (n, peer) ∈ names.zip vx.peers ∧
        n ∉ kernel ∧ x = .createVxlan n vx.vni vx.local_ peer := by
  cases seg with
  | none =>
    cases h
    simp
  | some s =>
    unfold segmentCreates uplinkCreates at h
    cases hvx : s.vxlan with
    | some vx =>
      simp only [hvx, Except.ok.injEq] at h
      subst h
      rw [List.mem_filterMap]
      constructor
      · rintro ⟨⟨n, peer⟩, hz, hx⟩
        by_cases hn : n ∈ kernel
        · simp [hn] at hx
        · rw [if_neg hn, Option.some.injEq] at hx
          exact Or.inr ⟨s, vx, n, peer, rfl, hvx, hz, hn, hx.symm⟩
      · rintro (⟨s', vid, n, hs, hnone, -⟩ | ⟨s', vx', n, peer, hs, hvx', hz, hn, hx⟩)
        · cases hs
          rw [hvx] at hnone
          exact absurd hnone (by simp)
        · cases hs
          rw [hvx] at hvx'
          cases hvx'
          exact ⟨(n, peer), hz, by rw [if_neg hn, hx]⟩
    | none =>
      cases hvl : s.vlan with
      | none =>
        simp only [hvx, hvl, Except.ok.injEq] at h
        subst h
        simp [hvx, hvl]
      | some vid =>
        cases names with
        | nil => simp [hvx, hvl] at h
        | cons n rest =>
          simp only [hvx, hvl, Except.ok.injEq] at h
          subst h
          by_cases hn : n ∈ kernel <;> simp [hvx, hvl, hn]

/-! ## 3. One member

A member's adds depend on whether its interface is there and whether it is in the bridge already;
`joinOps` is the list for each of these. -/

/-- What joining a bridge takes: the interface, its policy, then the membership. A load that
does not precede a join is issued only when the pass looks at the anchors. -/
def joinOps (kernel : KernelInterfaces) (pf : Option PfState) (bname : String)
    (mname : String) (member : Member) (load : Option Op) : List Op :=
  if mname ∉ kernel then
    if member.type.isSome then
      .createTap mname member.description :: (load.toList ++ [.addMember bname mname])
    else []
  else if mname ∉ kernel.membersOf bname then load.toList ++ [.addMember bname mname]
  else if pf.isSome then load.toList
  else []

/-- A typed member is never adopted. -/
theorem presence_owned {b m : String} {cur : List String} {member : Member}
    {load : Option Op} {p : Presence}
    (h : presence kernel b cur m member load = .ok p) (htyped : member.type.isSome = true)
    (hm : m ∈ kernel) : kernel.ownedName m = true := by
  obtain ⟨t, ht⟩ := Option.isSome_iff_exists.mp htyped
  cases howned : kernel.ownedName m with
  | true => rfl
  | false =>
    unfold presence at h
    simp [ht, hm, howned] at h

variable (pf) in
/-- The adds of a member's presence, with the drift load that follows them. -/
theorem presence_adds {b m : String} {member : Member} {load : Option Op} {p : Presence}
    (h : presence kernel b (kernel.membersOf b).dedup m member load = .ok p) :
    p.adds ++ (if pf.isSome ∧ m ∈ kernel then p.load.toList else []) =
        joinOps kernel pf b m member load ∧
      p.notes = (if m ∉ kernel ∧ member.type = none then [awaiting m b] else []) := by
  have howned := fun ht => presence_owned h ht
  unfold presence at h
  unfold joinOps
  by_cases hm : m ∈ kernel <;> by_cases hc : m ∈ kernel.membersOf b <;>
    cases ht : member.type
  all_goals
    simp only [ht, Option.isSome_some, Option.isSome_none, forall_const, hm, List.mem_dedup,
      hc, not_true_eq_false, not_false_eq_true, true_and, false_and, and_true, and_false,
      if_true, if_false] at h howned ⊢
  all_goals
    simp only [howned, Bool.true_eq_false, if_false, Except.ok.injEq] at h
    subst h
    simp

variable [Hashlib]

/-- A member with a policy of its own: a filter the config has, or a bind. -/
def HasPolicy (config : Config) (member : Member) : Prop :=
  (filterOf config member).isSome = true ∨ member.bind.isSome = true

instance (config : Config) (member : Member) : Decidable (HasPolicy config member) :=
  inferInstanceAs (Decidable (_ ∨ _))

/-- `wanted_tables`, with no table where one is missing. -/
def tablesOf (config : Config) (member : Member) : List (String × List String) :=
  match Pf.wantedTables (filterOf config member) config with
  | .ok tables => tables
  | .error _ => []

/-- The load of a member's anchor. -/
def loadFor (config : Config) (mname : String) (member : Member) : Op :=
  .loadAnchor mname (member.filter.getD "")
    (Pf.render mname (filterOf config member) member.bind (tablesOf config member)).1
    (Pf.render mname (filterOf config member) member.bind (tablesOf config member)).2

/-- The hash `render` gives a member; it does not depend on the tables. -/
def hashFor (config : Config) (mname : String) (member : Member) : String :=
  Pf.cfgHash mname (filterOf config member) member.bind

/-- The anchor a pass sees already carries the member's rules. -/
def Surviving (config : Config) (pf : Option PfState) (mname : String) (member : Member) :
    Prop :=
  ∃ anchors st, pf = some anchors ∧ anchors.get? mname = some st ∧ st.isLoaded = true ∧
    st.cfgHash = some (hashFor config mname member)

/-- The table repairs of a surviving anchor. -/
def repairs (mname : String) (tables : List (String × List String))
    (state : Pf.AnchorState) : List Op :=
  tables.filterMap fun t =>
    if t.2.toFinset ≠ (state.tables.get? t.1).getD ∅ then some (.replaceTable mname t.1 t.2)
    else none

/-- What `pf_ops_for` returns: nothing without a policy, the load of an anchor that does not
survive, the repairs of one that does. -/
theorem pfOpsFor_ok {mname : String} {member : Member} {r : Option Op × List Op}
    (h : pfOpsFor mname member config pf = .ok r) :
    (¬ HasPolicy config member ∧ r = (none, [])) ∨
    (HasPolicy config member ∧
      Pf.wantedTables (filterOf config member) config = .ok (tablesOf config member) ∧
      ((¬ Surviving config pf mname member ∧
          r = (some (loadFor config mname member), [])) ∨
        ∃ anchors st, pf = some anchors ∧ anchors.get? mname = some st ∧
          st.isLoaded = true ∧ st.cfgHash = some (hashFor config mname member) ∧
          r = (none, repairs mname (tablesOf config member) st))) := by
  unfold pfOpsFor at h
  by_cases hpol : HasPolicy config member
  · refine Or.inr ⟨hpol, ?_⟩
    -- `if filt is None and member.bind is None: return`, not taken
    have hcond : ((filterOf config member).isNone && member.bind.isNone) = false := by
      rcases hpol with hf | hb
      · cases hfo : filterOf config member with
        | none => rw [hfo] at hf; exact absurd hf (by decide)
        | some f => rfl
      · cases hbo : member.bind with
        | none => rw [hbo] at hb; exact absurd hb (by decide)
        | some b => simp
    simp only [hcond, Bool.false_eq_true, if_false, Except.bind_eq_ok] at h
    obtain ⟨tables, htab, h⟩ := h
    have htables : tablesOf config member = tables := by rw [tablesOf, htab]
    unfold loadFor
    rw [htables]
    refine ⟨htab, ?_⟩
    -- three reasons to load: nothing was read, nothing is there, or the hash is another
    cases hpf : pf with
    | none =>
      rw [hpf] at h
      refine Or.inl ⟨?_, (Except.pure_eq_ok.mp h).symm⟩
      rintro ⟨anchors, st, hn, -⟩
      exact absurd hn (by simp)
    | some anchors =>
      rw [hpf] at h
      cases hget : anchors.get? mname with
      | none =>
        simp only [hget] at h
        refine Or.inl ⟨?_, (Except.pure_eq_ok.mp h).symm⟩
        rintro ⟨anchors', st, hn, hst, -⟩
        cases hn
        rw [hget] at hst
        exact absurd hst (by simp)
      | some st =>
        simp only [hget] at h
        by_cases hsame : st.isLoaded = true ∧ st.cfgHash = some (hashFor config mname member)
        · refine Or.inr ⟨anchors, st, rfl, hget, hsame.1, hsame.2, ?_⟩
          have hg : (!st.isLoaded || st.cfgHash ≠
              some (Pf.render mname (filterOf config member) member.bind tables).2) = false := by
            have h2 : st.cfgHash =
                some (Pf.render mname (filterOf config member) member.bind tables).2 := hsame.2
            rw [hsame.1, h2]
            simp
          rw [if_neg (by rw [hg]; decide)] at h
          exact (Except.pure_eq_ok.mp h).symm
        · refine Or.inl ⟨?_, ?_⟩
          · rintro ⟨anchors', st', hn, hst, hl, hh⟩
            cases hn
            rw [hget] at hst
            cases hst
            exact hsame ⟨hl, hh⟩
          · have hg : (!st.isLoaded || st.cfgHash ≠
                some (Pf.render mname (filterOf config member) member.bind tables).2) = true := by
              by_contra hne
              have hne' := Bool.eq_false_iff.mpr hne
              simp only [Bool.or_eq_false_iff, Bool.not_eq_false', ne_eq,
                decide_eq_false_iff_not, not_not] at hne'
              exact hsame hne'
            rw [if_pos hg] at h
            exact (Except.pure_eq_ok.mp h).symm
  · refine Or.inl ⟨hpol, ?_⟩
    have hcond : ((filterOf config member).isNone && member.bind.isNone) = true := by
      rw [HasPolicy, not_or] at hpol
      simpa using hpol
    rw [if_pos hcond] at h
    cases h
    rfl

theorem memberPart_ok {b m : String} {member : Member} {part : MemberPart}
    (h : memberPart config kernel pf b (kernel.membersOf b).dedup m member = .ok part) :
    (member.type.isSome = true → m ∈ kernel → kernel.ownedName m = true) ∧
    ∃ load tops, pfOpsFor m member config pf = .ok (load, tops) ∧
      part.adds = joinOps kernel pf b m member load ++ tops ++ lockOps kernel b m member ∧
      part.notes = (if m ∉ kernel ∧ member.type = none then [awaiting m b] else []) := by
  unfold memberPart at h
  simp only [Except.bind_eq_ok, Prod.exists] at h
  obtain ⟨load, tops, hpf, p, hp, h⟩ := h
  obtain ⟨hadds, hnotes⟩ := presence_adds pf hp
  rw [← Except.pure_eq_ok.mp h]
  exact ⟨presence_owned hp, load, tops, hpf, by rw [← hadds], hnotes⟩

/-! ## 4. One bridge -/

/-- The parts of a bridge's round. -/
theorem bridgePart_ok {b : String} {br : Bridge} {part : BridgePart}
    (h : bridgePart config kernel pf b br = .ok part) :
    ∃ names own uplinks members,
      uplinkNames b br config = .ok names ∧ bridgeOp kernel b br = .ok own ∧
      segmentCreates br.segment names kernel = .ok uplinks ∧
      List.Forall₂ (fun e mp => memberPart config kernel pf b (kernel.membersOf b).dedup
        e.1 e.2 = .ok mp) br.member.entries members ∧
      part.claims = claimsOf config b br ∧ part.creates = own ++ uplinks ∧
      part.removes = ((kernel.membersOf b).dedup.filter fun m =>
        decide (m ∉ claimsOf config b br)).map (.removeMember b) ∧
      part.adds = members.flatMap MemberPart.adds ++ (names.map (uplinkPart kernel b
        (kernel.membersOf b).dedup (manufactures br.segment))).flatMap MemberPart.adds ∧
      part.evicted = ((kernel.membersOf b).dedup.filter fun m =>
        decide (m ∉ claimsOf config b br)).filter kernel.ownedName := by
  unfold bridgePart at h
  simp only [Except.bind_eq_ok] at h
  obtain ⟨names, hnames, own, hown, uplinks, huplinks, members, hmembers, h⟩ := h
  rw [← Except.pure_eq_ok.mp h]
  have hclaims : names ++ br.member.keys = claimsOf config b br := by
    rw [claimsOf, uplinksOf_ok hnames]
  refine ⟨names, own, uplinks, members, hnames, hown, huplinks, mapM_eq_ok.mp hmembers, hclaims,
    rfl, ?_, rfl, ?_⟩
  · rw [← hclaims]
  · rw [← hclaims]

/-- A returned plan is the assembled rounds of every desired bridge. -/
theorem diff_ok {p : Plan} (h : diff config kernel pf = .ok p) :
    ∃ parts, List.Forall₂ (fun e part => bridgePart config kernel pf e.1 e.2 = .ok part)
        config.bridge.entries parts ∧
      p = assemble config kernel pf parts := by
  unfold diff at h
  obtain ⟨parts, hparts, h⟩ := Except.bind_eq_ok.mp h
  exact ⟨parts, mapM_eq_ok.mp hparts, (Except.pure_eq_ok.mp h).symm⟩

end

end Planner

end Bsdbridge
