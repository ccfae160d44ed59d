import Bsdbridge.Proof.Teardown

/-!
# What a plan holds

`diff` builds its plan by appending. This file says, op by op, what is in the plan it returns:
**`mem_ops`** is an `iff` between membership in `p.ops` and `Issued`, a condition on the config,
the kernel view and the anchors in which no list is appended and no gc is under way. Every property
of the planner that is about *which* ops it issues is read off `Issued`; only the properties about
their order go back to the phases.

`Issued` has one clause for each kind of op, and each clause says in the words of the source when
the op is appended: which names are missing, which memberships, which hash differs. It mentions
neither the loop nor its accumulators. The names of uplinks are in it through `uplinksOf`, which is
empty where deriving them raises; a diff that returned has raised nowhere, so nothing is lost.

## What it does not say

How often an op is issued (`Proof/Once`), in which phase and after which other op
(`Proof/Precedence`, `Proof/Runnable`), and when there is a plan at all (`Proof/Refusal`). The one
trace of an order is in the teardown, where an interface that two unwanted bridges hold goes with
the first of them.
-/

set_option autoImplicit false

namespace Bsdbridge

namespace Planner

/-! ## 1. When an op is issued

The conditions that have a name of their own are those that several clauses share, or that a
statement elsewhere is about. -/

/-- A member is added: the interface is made for it, or stands outside the bridge. -/
def Joins (kernel : KernelInterfaces) (b m : String) (member : Member) : Prop :=
  (m ∉ kernel ∧ member.type.isSome = true) ∨ (m ∈ kernel ∧ m ∉ kernel.membersOf b)

/-- An uplink is added: it is manufactured or present, and stands outside the bridge. -/
def UplinkJoins (config : Config) (kernel : KernelInterfaces) (b : String) (br : Bridge)
    (n : String) : Prop :=
  n ∈ uplinksOf config b br ∧ n ∉ kernel.membersOf b ∧
    (manufactures br.segment = true ∨ n ∈ kernel)

/-- A desired bridge gives up an owned member it does not claim. -/
def Evicted (config : Config) (kernel : KernelInterfaces) (n : String) : Prop :=
  kernel.ownedName n = true ∧ ∃ b br, (b, br) ∈ config.bridge.entries ∧
    n ∈ kernel.membersOf b ∧ n ∉ claimsOf config b br

/-- An owned interface nothing claims. -/
def Orphan (config : Config) (kernel : KernelInterfaces) (n : String) : Prop :=
  n ∈ kernel.owned ∧ n ∉ claimed config ∧
    ∃ i, kernel.interfaces.get? n = some i ∧ i.isBridge = false

/-- The three ways an interface comes to be destroyed. -/
def Destroyed (config : Config) (kernel : KernelInterfaces) (n : String) : Prop :=
  TornDown config kernel n ∨ (Evicted config kernel n ∧ ¬ Unwanted config kernel n) ∨
    Orphan config kernel n

section

variable [Hashlib]

/-- A member's anchor is loaded. -/
def Loads (config : Config) (kernel : KernelInterfaces) (pf : Option PfState) (b m : String)
    (member : Member) : Prop :=
  HasPolicy config member ∧ ¬ Surviving config pf m member ∧
    (Joins kernel b m member ∨ (m ∈ kernel ∧ pf.isSome = true))

/-- A surviving anchor's table differs from the config's. -/
def Repairs (config : Config) (pf : Option PfState) (m : String) (member : Member)
    (t : String) (ms : List String) : Prop :=
  HasPolicy config member ∧ (t, ms) ∈ tablesOf config member ∧
    ∃ anchors st, pf = some anchors ∧ anchors.get? m = some st ∧ st.isLoaded = true ∧
      st.cfgHash = some (hashFor config m member) ∧
      ms.toFinset ≠ (st.tables.get? t).getD ∅

/-- When the plan of a pass holds an op. -/
def Issued (config : Config) (kernel : KernelInterfaces) (pf : Option PfState) : Op → Prop
  | .createBridge b v =>
      ∃ br, (b, br) ∈ config.bridge.entries ∧ b ∉ kernel ∧ v = br.maxAddresses
  | .setMaxaddr b v =>
      ∃ br i n, (b, br) ∈ config.bridge.entries ∧ kernel.interfaces.get? b = some i ∧
        i.maxaddr = some n ∧ n ≠ br.maxAddresses ∧ v = br.maxAddresses
  | .createVlan n parent vid =>
      ∃ b br seg, (b, br) ∈ config.bridge.entries ∧ br.segment = some seg ∧
        seg.vxlan = none ∧ seg.vlan = some vid ∧ (uplinksOf config b br).head? = some n ∧
        n ∉ kernel ∧ parent = Text.beforeLast n '.'
  | .createVxlan n vni ep peer =>
      ∃ b br seg vx, (b, br) ∈ config.bridge.entries ∧ br.segment = some seg ∧
        seg.vxlan = some vx ∧ (n, peer) ∈ (uplinksOf config b br).zip vx.peers ∧
        n ∉ kernel ∧ vni = vx.vni ∧ ep = vx.local_
  | .createTap m d =>
      ∃ b br member, (b, br) ∈ config.bridge.entries ∧ (m, member) ∈ br.member.entries ∧
        m ∉ kernel ∧ member.type.isSome = true ∧ d = member.description
  | .loadAnchor m f rs h =>
      ∃ b br member, (b, br) ∈ config.bridge.entries ∧ (m, member) ∈ br.member.entries ∧
        Loads config kernel pf b m member ∧ Op.loadAnchor m f rs h = loadFor config m member
  | .replaceTable m t ms =>
      ∃ b br member, (b, br) ∈ config.bridge.entries ∧ (m, member) ∈ br.member.entries ∧
        Repairs config pf m member t ms
  | .lockMemberMac b m mac =>
      ∃ br member bd, (b, br) ∈ config.bridge.entries ∧ (m, member) ∈ br.member.entries ∧
        member.bind = some bd ∧ kernel.staticLock b m ≠ some bd.mac ∧ mac = bd.mac
  | .addMember b m =>
      ∃ br, (b, br) ∈ config.bridge.entries ∧
        ((∃ member, (m, member) ∈ br.member.entries ∧ Joins kernel b m member) ∨
          UplinkJoins config kernel b br m)
  | .removeMember b m =>
      m ∈ kernel.membersOf b ∧
        ((∃ br, (b, br) ∈ config.bridge.entries ∧ m ∉ claimsOf config b br) ∨
          Unwanted config kernel b)
  | .flushAnchor n => Loaded pf n ∧ (Destroyed config kernel n ∨ n ∉ policied config)
  | .destroyIface n => Destroyed config kernel n
  | .destroyBridge b => Unwanted config kernel b

end

section

variable {kernel : KernelInterfaces} {pf : Option PfState}

/-! ## 2. The adds of a round -/

theorem mem_joinOps {b m : String} {member : Member} {load : Option Op} {x : Op} :
    x ∈ joinOps kernel pf b m member load ↔
      (x = .createTap m member.description ∧ m ∉ kernel ∧ member.type.isSome = true) ∨
      (load = some x ∧ (Joins kernel b m member ∨ (m ∈ kernel ∧ pf.isSome = true))) ∨
      (x = .addMember b m ∧ Joins kernel b m member) := by
  unfold joinOps Joins
  by_cases hm : m ∈ kernel
  · by_cases hc : m ∈ kernel.membersOf b
    · by_cases hp : pf.isSome = true <;> simp [hm, hc, hp]
    · simp [hm, hc]
  · by_cases ht : member.type.isSome = true <;> simp [hm, ht]

theorem mem_lockOps {b m : String} {member : Member} {x : Op} :
    x ∈ lockOps kernel b m member ↔
      ∃ bd, member.bind = some bd ∧ kernel.staticLock b m ≠ some bd.mac ∧
        x = .lockMemberMac b m bd.mac := by
  unfold lockOps
  cases hb : member.bind with
  | none => simp
  | some bd =>
    by_cases hl : kernel.staticLock b m = some bd.mac <;> simp [hl]

theorem mem_repairs {m : String} {tables : List (String × List String)}
    {st : Pf.AnchorState} {x : Op} :
    x ∈ repairs m tables st ↔ ∃ t ms, (t, ms) ∈ tables ∧
      ms.toFinset ≠ (st.tables.get? t).getD ∅ ∧ x = .replaceTable m t ms := by
  unfold repairs
  rw [List.mem_filterMap]
  constructor
  · rintro ⟨⟨t, ms⟩, ht, hx⟩
    by_cases hne : ms.toFinset ≠ (st.tables.get? t).getD ∅
    · rw [if_pos hne, Option.some.injEq] at hx
      exact ⟨t, ms, ht, hne, hx.symm⟩
    · rw [if_neg hne] at hx
      exact absurd hx (by simp)
  · rintro ⟨t, ms, ht, hne, hx⟩
    exact ⟨(t, ms), ht, by rw [if_pos hne, hx]⟩

theorem mem_uplinkParts {b : String} {seg : Option Segment} {names : List String} {x : Op} :
    x ∈ (names.map (uplinkPart kernel b (kernel.membersOf b).dedup
        (manufactures seg))).flatMap MemberPart.adds ↔
      ∃ n ∈ names, n ∉ kernel.membersOf b ∧ (manufactures seg = true ∨ n ∈ kernel) ∧
        x = .addMember b n := by
  rw [List.flatMap_map, List.mem_flatMap]
  refine exists_congr fun n => and_congr_right fun _ => ?_
  unfold uplinkPart
  by_cases hc : n ∈ kernel.membersOf b
  · simp [hc]
  · by_cases hmade : manufactures seg = true ∨ n ∈ kernel
    · have hg : (manufactures seg || decide (n ∈ kernel)) = true := by simpa using hmade
      simp [hc, hg, hmade]
    · have hg : (manufactures seg || decide (n ∈ kernel)) = false := by simpa using hmade
      simp [hc, hg, hmade]

end

section

variable [Hashlib] {config : Config} {kernel : KernelInterfaces} {pf : Option PfState}

theorem pfOpsFor_load {m : String} {member : Member} {load : Option Op} {tops : List Op}
    (h : pfOpsFor m member config pf = .ok (load, tops)) {x : Op} :
    load = some x ↔
      HasPolicy config member ∧ ¬ Surviving config pf m member ∧ x = loadFor config m member := by
  rcases pfOpsFor_ok h with
    ⟨hno, hr⟩ | ⟨hyes, -, ⟨hs, hr⟩ | ⟨anchors, st, h1, h2, h3, h4, hr⟩⟩
  · obtain ⟨rfl, -⟩ := Prod.mk.inj hr
    constructor
    · intro hx
      exact absurd hx (by simp)
    · rintro ⟨hyes, -⟩
      exact absurd hyes hno
  · obtain ⟨rfl, -⟩ := Prod.mk.inj hr
    constructor
    · intro hx
      exact ⟨hyes, hs, (Option.some.inj hx).symm⟩
    · rintro ⟨-, -, hx⟩
      rw [hx]
  · obtain ⟨rfl, -⟩ := Prod.mk.inj hr
    constructor
    · intro hx
      exact absurd hx (by simp)
    · rintro ⟨-, hs, -⟩
      exact absurd ⟨anchors, st, h1, h2, h3, h4⟩ hs

theorem pfOpsFor_tables {m : String} {member : Member} {load : Option Op} {tops : List Op}
    (h : pfOpsFor m member config pf = .ok (load, tops)) {x : Op} :
    x ∈ tops ↔ ∃ t ms, x = .replaceTable m t ms ∧ Repairs config pf m member t ms := by
  rcases pfOpsFor_ok h with
    ⟨hno, hr⟩ | ⟨hyes, -, ⟨hs, hr⟩ | ⟨anchors, st, h1, h2, h3, h4, hr⟩⟩
  · obtain ⟨-, rfl⟩ := Prod.mk.inj hr
    constructor
    · intro hx
      exact absurd hx List.not_mem_nil
    · rintro ⟨t, ms, -, hyes, -⟩
      exact absurd hyes hno
  · obtain ⟨-, rfl⟩ := Prod.mk.inj hr
    constructor
    · intro hx
      exact absurd hx List.not_mem_nil
    · rintro ⟨t, ms, -, -, -, anchors, st, h1, h2, h3, h4, -⟩
      exact absurd ⟨anchors, st, h1, h2, h3, h4⟩ hs
  · obtain ⟨-, rfl⟩ := Prod.mk.inj hr
    rw [mem_repairs]
    constructor
    · rintro ⟨t, ms, ht, hne, hx⟩
      exact ⟨t, ms, hx, hyes, ht, anchors, st, h1, h2, h3, h4, hne⟩
    · rintro ⟨t, ms, hx, -, ht, anchors', st', h1', h2', -, -, hne⟩
      obtain rfl : anchors = anchors' := Option.some.inj (h1.symm.trans h1')
      obtain rfl : st = st' := Option.some.inj (h2.symm.trans h2')
      exact ⟨t, ms, ht, hne, hx⟩

/-- The adds of one member. -/
theorem mem_memberPart {b m : String} {member : Member} {part : MemberPart}
    (h : memberPart config kernel pf b (kernel.membersOf b).dedup m member = .ok part)
    {x : Op} :
    x ∈ part.adds ↔
      (x = .createTap m member.description ∧ m ∉ kernel ∧ member.type.isSome = true) ∨
      (x = loadFor config m member ∧ Loads config kernel pf b m member) ∨
      (x = .addMember b m ∧ Joins kernel b m member) ∨
      (∃ t ms, x = .replaceTable m t ms ∧ Repairs config pf m member t ms) ∨
      ∃ bd, member.bind = some bd ∧ kernel.staticLock b m ≠ some bd.mac ∧
        x = .lockMemberMac b m bd.mac := by
  obtain ⟨-, load, tops, hpf, hadds, -⟩ := memberPart_ok h
  have hload : (load = some x ∧ (Joins kernel b m member ∨ (m ∈ kernel ∧ pf.isSome = true))) ↔
      (x = loadFor config m member ∧ Loads config kernel pf b m member) := by
    rw [pfOpsFor_load hpf, Loads]
    constructor
    · rintro ⟨⟨hp, hs, hx⟩, hj⟩
      exact ⟨hx, hp, hs, hj⟩
    · rintro ⟨hx, hp, hs, hj⟩
      exact ⟨⟨hp, hs, hx⟩, hj⟩
  rw [hadds, List.mem_append, List.mem_append, mem_joinOps, mem_lockOps, pfOpsFor_tables hpf,
    hload]
  simp only [or_assoc]

/-! ## 3. The walk over the bridges

The rounds are independent of each other but for the gc, which runs after them; so what they
collect is the union of what each collects. -/

/-- What the rounds collect, when every round collects what `Q` says. -/
theorem mem_collect {γ : Type} {parts : List BridgePart} {g : BridgePart → List γ} {c : γ}
    {Q : String → Bridge → Prop}
    (h : List.Forall₂ (fun e part => bridgePart config kernel pf e.1 e.2 = .ok part)
      config.bridge.entries parts)
    (hg : ∀ b br part, bridgePart config kernel pf b br = .ok part → (c ∈ g part ↔ Q b br)) :
    c ∈ parts.flatMap g ↔ ∃ b br, (b, br) ∈ config.bridge.entries ∧ Q b br := by
  rw [List.mem_flatMap]
  constructor
  · rintro ⟨part, hpart, hc⟩
    obtain ⟨⟨b, br⟩, he, hok⟩ := exists_of_mem_right h hpart
    exact ⟨b, br, he, (hg b br part hok).mp hc⟩
  · rintro ⟨b, br, he, hQ⟩
    obtain ⟨part, hpart, hok⟩ := exists_of_mem_left h he
    exact ⟨part, hpart, (hg b br part hok).mpr hQ⟩

theorem mem_claims {parts : List BridgePart} {n : String}
    (h : List.Forall₂ (fun e part => bridgePart config kernel pf e.1 e.2 = .ok part)
      config.bridge.entries parts) :
    n ∈ parts.flatMap BridgePart.claims ↔ n ∈ claimed config := by
  rw [mem_claimed]
  refine mem_collect h fun b br part hok => ?_
  obtain ⟨_, _, _, _, -, -, -, -, hclaims, -⟩ := bridgePart_ok hok
  rw [hclaims]

theorem mem_evicted {parts : List BridgePart} {n : String}
    (h : List.Forall₂ (fun e part => bridgePart config kernel pf e.1 e.2 = .ok part)
      config.bridge.entries parts) :
    n ∈ parts.flatMap BridgePart.evicted ↔ Evicted config kernel n := by
  rw [mem_collect (Q := fun b br => kernel.ownedName n = true ∧ n ∈ kernel.membersOf b ∧
    n ∉ claimsOf config b br) h fun b br part hok => ?_]
  · unfold Evicted
    constructor
    · rintro ⟨b, br, he, ho, hm, hc⟩
      exact ⟨ho, b, br, he, hm, hc⟩
    · rintro ⟨ho, b, br, he, hm, hc⟩
      exact ⟨b, br, he, ho, hm, hc⟩
  · obtain ⟨_, _, _, _, -, -, -, -, -, -, -, -, hev⟩ := bridgePart_ok hok
    rw [hev]
    simp only [List.mem_filter, List.mem_dedup, decide_eq_true_eq]
    tauto

/-- The destroys phase: the unwanted bridges, and what comes to be destroyed. -/
theorem mem_destroys {parts : List BridgePart} {x : Op}
    (h : List.Forall₂ (fun e part => bridgePart config kernel pf e.1 e.2 = .ok part)
      config.bridge.entries parts) :
    x ∈ (assemble config kernel pf parts).destroys ↔
      (∃ n, Unwanted config kernel n ∧ x = .destroyBridge n) ∨
        ∃ n, Destroyed config kernel n ∧
          (x = .destroyIface n ∨ (x = .flushAnchor n ∧ Loaded pf n)) := by
  have hbr : (∃ e ∈ unwanted config kernel, x = .destroyBridge e.1) ↔
      ∃ n, Unwanted config kernel n ∧ x = .destroyBridge n := by
    simp only [← mem_unwanted_names, List.mem_map]
    constructor
    · rintro ⟨e, he, hx⟩
      exact ⟨e.1, ⟨e, he, rfl⟩, hx⟩
    · rintro ⟨n, ⟨e, he, rfl⟩, hx⟩
      exact ⟨e, he, hx⟩
  -- what the rounds collected as claims is what the config claims
  have horph : ∀ n, n ∈ orphans kernel (parts.flatMap BridgePart.claims) ↔
      Orphan config kernel n := by
    intro n
    unfold orphans Orphan
    simp only [List.mem_filter, Bool.and_eq_true, decide_eq_true_eq, mem_claims h]
    cases kernel.interfaces.get? n <;> simp [and_comm]
  unfold assemble
  simp only [mem_foldl_destroyOnce, mem_foldl_tearDown, queued_foldl_destroyOnce,
    queued_foldl_tearDown, mem_evicted h, horph, mem_unwanted_names, hbr, List.not_mem_nil,
    not_false_eq_true, true_and, false_or, not_or]
  unfold Destroyed TornDown
  constructor
  · rintro (((hx | ⟨n, ho, hf, hx⟩) | ⟨n, hev, ⟨hu, -⟩, hx⟩) | ⟨n, hor, -, hx⟩)
    · exact Or.inl hx
    · exact Or.inr ⟨n, Or.inl ⟨ho, hf⟩, hx⟩
    · exact Or.inr ⟨n, Or.inr (Or.inl ⟨hev, hu⟩), hx⟩
    · exact Or.inr ⟨n, Or.inr (Or.inr hor), hx⟩
  · rintro (hx | ⟨n, hd, hx⟩)
    · exact Or.inl (Or.inl (Or.inl hx))
    · -- what one path would destroy may have been queued by an earlier one
      have hcase : ¬ Unwanted config kernel n →
          (kernel.ownedName n = true ∧ ∃ e ∈ unwanted config kernel, n ∈ e.2.members) →
          kernel.ownedName n = true ∧ FirstHeld (unwanted config kernel) n := by
        rintro hu ⟨ho, e, he, hm⟩
        exact ⟨ho, firstHeld_of_mem hu he hm⟩
      -- an evicted interface may be of an unwanted bridge as well, which was torn down first
      have hevict : Evicted config kernel n → ¬ Unwanted config kernel n →
          ((kernel.ownedName n = true ∧ FirstHeld (unwanted config kernel) n) ∨
            (¬ Unwanted config kernel n ∧ ¬ (kernel.ownedName n = true ∧
              ∃ e ∈ unwanted config kernel, n ∈ e.2.members))) := by
        intro _ hu
        by_cases hheld : kernel.ownedName n = true ∧ ∃ e ∈ unwanted config kernel, n ∈ e.2.members
        · exact Or.inl (hcase hu hheld)
        · exact Or.inr ⟨hu, hheld⟩
      rcases hd with ⟨ho, hf⟩ | ⟨hev, hu⟩ | hor
      · exact Or.inl (Or.inl (Or.inr ⟨n, ho, hf, hx⟩))
      · rcases hevict hev hu with ⟨ho, hf⟩ | hq
        · exact Or.inl (Or.inl (Or.inr ⟨n, ho, hf, hx⟩))
        · exact Or.inl (Or.inr ⟨n, hev, hq, hx⟩)
      · -- an orphan is no bridge; it may have gone with one, or have been evicted from one
        have hu : ¬ Unwanted config kernel n := by
          rintro ⟨-, i, hi, hb, -⟩
          obtain ⟨-, -, i', hi', hb'⟩ := hor
          rw [hi, Option.some.injEq] at hi'
          rw [hi', hb'] at hb
          exact absurd hb (by decide)
        by_cases hheld : kernel.ownedName n = true ∧ ∃ e ∈ unwanted config kernel, n ∈ e.2.members
        · obtain ⟨ho, hf⟩ := hcase hu hheld
          exact Or.inl (Or.inl (Or.inr ⟨n, ho, hf, hx⟩))
        · by_cases hev : Evicted config kernel n
          · exact Or.inl (Or.inr ⟨n, hev, ⟨hu, hheld⟩, hx⟩)
          · exact Or.inr ⟨n, hor, ⟨hev, hu, hheld⟩, hx⟩

/-! ## 4. The plan

Each phase, and then the four together. -/

/-- The creates of one round. -/
def CreatesOf (config : Config) (kernel : KernelInterfaces) (x : Op) (b : String)
    (br : Bridge) : Prop :=
  (b ∉ kernel ∧ x = .createBridge b br.maxAddresses) ∨
  (∃ i n, kernel.interfaces.get? b = some i ∧ i.maxaddr = some n ∧ n ≠ br.maxAddresses ∧
    x = .setMaxaddr b br.maxAddresses) ∨
  (∃ s vid n, br.segment = some s ∧ s.vxlan = none ∧ s.vlan = some vid ∧
    (uplinksOf config b br).head? = some n ∧ n ∉ kernel ∧
    x = .createVlan n (Text.beforeLast n '.') vid) ∨
  ∃ s vx n peer, br.segment = some s ∧ s.vxlan = some vx ∧
    (n, peer) ∈ (uplinksOf config b br).zip vx.peers ∧ n ∉ kernel ∧
    x = .createVxlan n vx.vni vx.local_ peer

/-- The adds of one round. -/
def AddsOf (config : Config) (kernel : KernelInterfaces) (pf : Option PfState) (x : Op)
    (b : String) (br : Bridge) : Prop :=
  (∃ m member, (m, member) ∈ br.member.entries ∧
    ((x = .createTap m member.description ∧ m ∉ kernel ∧ member.type.isSome = true) ∨
      (x = loadFor config m member ∧ Loads config kernel pf b m member) ∨
      (x = .addMember b m ∧ Joins kernel b m member) ∨
      (∃ t ms, x = .replaceTable m t ms ∧ Repairs config pf m member t ms) ∨
      ∃ bd, member.bind = some bd ∧ kernel.staticLock b m ≠ some bd.mac ∧
        x = .lockMemberMac b m bd.mac)) ∨
  ∃ n, UplinkJoins config kernel b br n ∧ x = .addMember b n

theorem mem_creates {parts : List BridgePart} {x : Op}
    (h : List.Forall₂ (fun e part => bridgePart config kernel pf e.1 e.2 = .ok part)
      config.bridge.entries parts) :
    x ∈ parts.flatMap BridgePart.creates ↔
      ∃ b br, (b, br) ∈ config.bridge.entries ∧ CreatesOf config kernel x b br := by
  refine mem_collect h fun b br part hok => ?_
  obtain ⟨names, own, uplinks, members, hn, hown, hups, -, -, hcr, -⟩ := bridgePart_ok hok
  rw [hcr, List.mem_append, mem_bridgeOp hown, mem_segmentCreates hups, CreatesOf,
    uplinksOf_ok hn, or_assoc]

theorem mem_adds {parts : List BridgePart} {x : Op}
    (h : List.Forall₂ (fun e part => bridgePart config kernel pf e.1 e.2 = .ok part)
      config.bridge.entries parts) :
    x ∈ parts.flatMap BridgePart.adds ↔
      ∃ b br, (b, br) ∈ config.bridge.entries ∧ AddsOf config kernel pf x b br := by
  refine mem_collect h fun b br part hok => ?_
  obtain ⟨names, own, uplinks, members, hn, -, -, hmembers, -, -, -, hadds, -⟩ :=
    bridgePart_ok hok
  rw [hadds, List.mem_append, mem_uplinkParts, AddsOf]
  refine or_congr ?_ ?_
  · rw [List.mem_flatMap]
    constructor
    · rintro ⟨mp, hmp, hx⟩
      obtain ⟨⟨m, member⟩, he, hok⟩ := exists_of_mem_right hmembers hmp
      exact ⟨m, member, he, (mem_memberPart hok).mp hx⟩
    · rintro ⟨m, member, he, hx⟩
      obtain ⟨mp, hmp, hok⟩ := exists_of_mem_left hmembers he
      exact ⟨mp, hmp, (mem_memberPart hok).mpr hx⟩
  · unfold UplinkJoins
    rw [uplinksOf_ok hn]
    constructor
    · rintro ⟨n, hm, hc, hj, hx⟩
      exact ⟨n, ⟨hm, hc, hj⟩, hx⟩
    · rintro ⟨n, ⟨hm, hc, hj⟩, hx⟩
      exact ⟨n, hm, hc, hj, hx⟩

/-- The removals: foreign members of desired bridges, all members of unwanted ones. -/
theorem mem_removals {parts : List BridgePart} {x : Op}
    (h : List.Forall₂ (fun e part => bridgePart config kernel pf e.1 e.2 = .ok part)
      config.bridge.entries parts) :
    x ∈ parts.flatMap BridgePart.removes ++
        (unwanted config kernel).flatMap (fun e => e.2.members.map (.removeMember e.1)) ↔
      ∃ b m, x = .removeMember b m ∧ m ∈ kernel.membersOf b ∧
        ((∃ br, (b, br) ∈ config.bridge.entries ∧ m ∉ claimsOf config b br) ∨
          Unwanted config kernel b) := by
  rw [List.mem_append, mem_collect (Q := fun b br => ∃ m, x = .removeMember b m ∧
    m ∈ kernel.membersOf b ∧ m ∉ claimsOf config b br) h fun b br part hok => ?_]
  · rw [List.mem_flatMap]
    constructor
    · rintro (⟨b, br, he, m, hx, hm, hc⟩ | ⟨⟨b, i⟩, hu, hx⟩)
      · exact ⟨b, m, hx, hm, Or.inl ⟨br, he, hc⟩⟩
      · obtain ⟨m, hm, hx⟩ := List.mem_map.mp hx
        obtain ⟨hc, hi, hb, ho⟩ := mem_unwanted.mp hu
        refine ⟨b, m, hx.symm, ?_, Or.inr ⟨hc, i, hi, hb, ho⟩⟩
        rw [KernelInterfaces.membersOf, hi]
        exact hm
    · rintro ⟨b, m, hx, hm, ⟨br, he, hc⟩ | ⟨hc, i, hi, hb, ho⟩⟩
      · exact Or.inl ⟨b, br, he, m, hx, hm, hc⟩
      · rw [KernelInterfaces.membersOf, hi] at hm
        exact Or.inr ⟨(b, i), mem_unwanted.mpr ⟨hc, hi, hb, ho⟩,
          List.mem_map.mpr ⟨m, hm, hx.symm⟩⟩
  · obtain ⟨_, _, _, _, -, -, -, -, -, -, hrem, -⟩ := bridgePart_ok hok
    rw [hrem, List.mem_map]
    simp only [List.mem_filter, List.mem_dedup, decide_eq_true_eq]
    constructor
    · rintro ⟨m, ⟨hm, hc⟩, hx⟩
      exact ⟨m, hx.symm, hm, hc⟩
    · rintro ⟨m, hx, hm, hc⟩
      exact ⟨m, ⟨hm, hc⟩, hx.symm⟩

/-- The removes phase: the removals, and flushes of anchors without a policy. -/
theorem mem_removes {parts : List BridgePart} {x : Op}
    (h : List.Forall₂ (fun e part => bridgePart config kernel pf e.1 e.2 = .ok part)
      config.bridge.entries parts)
    (hx : x ∈ (assemble config kernel pf parts).removes) :
    (∃ b m, x = .removeMember b m ∧ m ∈ kernel.membersOf b ∧
      ((∃ br, (b, br) ∈ config.bridge.entries ∧ m ∉ claimsOf config b br) ∨
        Unwanted config kernel b)) ∨
    ∃ n, x = .flushAnchor n ∧ Loaded pf n ∧ n ∉ policied config := by
  rcases List.mem_append.mp hx with hx | hx
  · exact Or.inl ((mem_removals h).mp hx)
  · obtain ⟨n, hx, hl, hp, -⟩ := mem_staleAnchors.mp hx
    exact Or.inr ⟨n, hx, hl, hp⟩

/-- A loaded anchor without a policy is flushed, by a destroy or on its own. -/
theorem mem_stale {parts : List BridgePart} {n : String}
    (h : List.Forall₂ (fun e part => bridgePart config kernel pf e.1 e.2 = .ok part)
      config.bridge.entries parts)
    (hl : Loaded pf n) (hp : n ∉ policied config) :
    .flushAnchor n ∈ (assemble config kernel pf parts).removes ∨
      .flushAnchor n ∈ (assemble config kernel pf parts).destroys := by
  unfold assemble
  set gc := (parts.flatMap BridgePart.evicted).foldl (destroyOnce pf)
    ((unwanted config kernel).foldl (tearDown kernel pf) {}) with hgc
  by_cases hd : .flushAnchor n ∈ gc.destroys
  · exact Or.inr (mem_foldl_destroyOnce.mpr (Or.inl hd))
  · refine Or.inl (List.mem_append_right _ (mem_staleAnchors.mpr ⟨n, rfl, hl, hp, ?_⟩))
    rw [mem_flushed, List.mem_append]
    rintro (hr | hr)
    · obtain ⟨b, m, hx, -⟩ := (mem_removals h).mp hr
      exact absurd hx (by simp)
    · exact hd hr

/-- **What a plan holds**: an op is in the plan exactly when `Issued` says so. -/
theorem mem_ops {p : Plan} (h : diff config kernel pf = .ok p) {x : Op} :
    x ∈ p.ops ↔ Issued config kernel pf x := by
  obtain ⟨parts, hparts, rfl⟩ := diff_ok h
  have hcr : x ∈ (assemble config kernel pf parts).creates ↔
      ∃ b br, (b, br) ∈ config.bridge.entries ∧ CreatesOf config kernel x b br :=
    mem_creates hparts
  have had : x ∈ (assemble config kernel pf parts).adds ↔
      ∃ b br, (b, br) ∈ config.bridge.entries ∧ AddsOf config kernel pf x b br :=
    mem_adds hparts
  have hrm : (∃ b m, x = .removeMember b m ∧ m ∈ kernel.membersOf b ∧
      ((∃ br, (b, br) ∈ config.bridge.entries ∧ m ∉ claimsOf config b br) ∨
        Unwanted config kernel b)) → x ∈ (assemble config kernel pf parts).removes :=
    fun hx => List.mem_append_left _ ((mem_removals hparts).mpr hx)
  rw [mem_phases, hcr, had, mem_destroys hparts]
  -- phase by phase, and within a phase by the reason; the cases of `Issued` come out in that order
  constructor
  · rintro (⟨b, br, he, hx⟩ | hx | ⟨b, br, he, hx⟩ | hx)
    · rcases hx with ⟨hb, rfl⟩ | ⟨i, n, hi, hmax, hne, rfl⟩ |
        ⟨s, vid, n, hs, hnone, hvid, hh, hn, rfl⟩ | ⟨s, vx, n, peer, hs, hvx, hz, hn, rfl⟩
      · exact ⟨br, he, hb, rfl⟩
      · exact ⟨br, i, n, he, hi, hmax, hne, rfl⟩
      · exact ⟨b, br, s, he, hs, hnone, hvid, hh, hn, rfl⟩
      · exact ⟨b, br, s, vx, he, hs, hvx, hz, hn, rfl, rfl⟩
    · rcases mem_removes hparts hx with ⟨b, m, rfl, hm, hwhy⟩ | ⟨n, rfl, hl, hp⟩
      · exact ⟨hm, hwhy⟩
      · exact ⟨hl, Or.inr hp⟩
    · rcases hx with ⟨m, member, hm, hx⟩ | ⟨n, hj, rfl⟩
      · rcases hx with ⟨rfl, hk, ht⟩ | ⟨rfl, hl⟩ | ⟨rfl, hj⟩ | ⟨t, ms, rfl, hr⟩ |
          ⟨bd, hbd, hs, rfl⟩
        · exact ⟨b, br, member, he, hm, hk, ht, rfl⟩
        · exact ⟨b, br, member, he, hm, hl, rfl⟩
        · exact ⟨br, he, Or.inl ⟨member, hm, hj⟩⟩
        · exact ⟨b, br, member, he, hm, hr⟩
        · exact ⟨br, member, bd, he, hm, hbd, hs, rfl⟩
      · exact ⟨br, he, Or.inr hj⟩
    · rcases hx with ⟨n, hu, rfl⟩ | ⟨n, hd, rfl | ⟨rfl, hl⟩⟩
      · exact hu
      · exact hd
      · exact ⟨hl, Or.inl hd⟩
  · intro hx
    -- the op tells the phase, but for a flush, which two of them issue
    cases x with
    | createBridge b v =>
      obtain ⟨br, he, hb, rfl⟩ := hx
      exact Or.inl ⟨b, br, he, Or.inl ⟨hb, rfl⟩⟩
    | setMaxaddr b v =>
      obtain ⟨br, i, n, he, hi, hmax, hne, rfl⟩ := hx
      exact Or.inl ⟨b, br, he, Or.inr (Or.inl ⟨i, n, hi, hmax, hne, rfl⟩)⟩
    | createVlan n parent vid =>
      obtain ⟨b, br, s, he, hs, hnone, hvid, hh, hn, rfl⟩ := hx
      exact Or.inl ⟨b, br, he, Or.inr (Or.inr (Or.inl ⟨s, vid, n, hs, hnone, hvid, hh, hn, rfl⟩))⟩
    | createVxlan n vni ep peer =>
      obtain ⟨b, br, s, vx, he, hs, hvx, hz, hn, rfl, rfl⟩ := hx
      exact Or.inl ⟨b, br, he, Or.inr (Or.inr (Or.inr ⟨s, vx, n, peer, hs, hvx, hz, hn, rfl⟩))⟩
    | createTap m d =>
      obtain ⟨b, br, member, he, hm, hk, ht, rfl⟩ := hx
      exact Or.inr (Or.inr (Or.inl ⟨b, br, he, Or.inl ⟨m, member, hm, Or.inl ⟨rfl, hk, ht⟩⟩⟩))
    | loadAnchor m f rs hash =>
      obtain ⟨b, br, member, he, hm, hl, heq⟩ := hx
      exact Or.inr (Or.inr (Or.inl ⟨b, br, he,
        Or.inl ⟨m, member, hm, Or.inr (Or.inl ⟨heq, hl⟩)⟩⟩))
    | replaceTable m t ms =>
      obtain ⟨b, br, member, he, hm, hr⟩ := hx
      exact Or.inr (Or.inr (Or.inl ⟨b, br, he,
        Or.inl ⟨m, member, hm, Or.inr (Or.inr (Or.inr (Or.inl ⟨t, ms, rfl, hr⟩)))⟩⟩))
    | lockMemberMac b m mac =>
      obtain ⟨br, member, bd, he, hm, hbd, hs, rfl⟩ := hx
      exact Or.inr (Or.inr (Or.inl ⟨b, br, he,
        Or.inl ⟨m, member, hm, Or.inr (Or.inr (Or.inr (Or.inr ⟨bd, hbd, hs, rfl⟩)))⟩⟩))
    | addMember b m =>
      obtain ⟨br, he, ⟨member, hm, hj⟩ | hj⟩ := hx
      · exact Or.inr (Or.inr (Or.inl ⟨b, br, he,
          Or.inl ⟨m, member, hm, Or.inr (Or.inr (Or.inl ⟨rfl, hj⟩))⟩⟩))
      · exact Or.inr (Or.inr (Or.inl ⟨b, br, he, Or.inr ⟨m, hj, rfl⟩⟩))
    | removeMember b m => exact Or.inr (Or.inl (hrm ⟨b, m, rfl, hx⟩))
    | flushAnchor n =>
      obtain ⟨hl, hd | hp⟩ := hx
      · exact Or.inr (Or.inr (Or.inr (Or.inr ⟨n, hd, Or.inr ⟨rfl, hl⟩⟩)))
      · -- a stale anchor: flushed on its own, unless a destroy has taken it along
        rcases mem_stale hparts hl hp with hx | hx
        · exact Or.inr (Or.inl hx)
        · exact Or.inr (Or.inr (Or.inr ((mem_destroys hparts).mp hx)))
    | destroyIface n => exact Or.inr (Or.inr (Or.inr (Or.inr ⟨n, hx, Or.inl rfl⟩)))
    | destroyBridge n => exact Or.inr (Or.inr (Or.inr (Or.inl ⟨n, hx, rfl⟩)))

end

end Planner

end Bsdbridge
