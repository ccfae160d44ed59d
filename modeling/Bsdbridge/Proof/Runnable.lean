import Bsdbridge.Proof.Once
import Bsdbridge.Proof.Pass

/-!
# Every op can run

An op is about interfaces that have to be there when its turn comes: a member joins a bridge that
stands, and from outside every bridge; a member is removed from, or locked on, a bridge it is in.
Where every name is claimed once an op is issued at one place (`issued_once`), so what holds there
is read off the ops before it: nothing is destroyed before the destroys phase, every create and
every removal is past when the adds begin, and a member joins before it is locked. **`runs_iff`**
finds the one op that cannot run: the lock of a bound member that is attached hardware, and not yet
attached.

`Ready` is the precondition of each op, as ifconfig(8) and pfctl(8) have it, and it is asked of the
host the earlier ops leave. Every earlier op has worked by then: the statement is about the plan,
and a command that fails for reasons of its own is no matter of this file. What is assumed of the
config and the kernel is collected in `Attempt`. Its clause about trunks is needed, since the
planner creates a vlan without looking whether its parent exists, and so is the clause about
foreign bridges: an interface in somebody else's bridge cannot join the agent's, and the plan does
not take it out of there.

A typeless member that is absent is awaited, and awaited members are noted and not added. Their
lock is planned all the same when they have a bind.
-/

set_option autoImplicit false

namespace Bsdbridge

namespace Planner

open Host

/-- The subject of an op is there. -/
def Ready (t : Host) : Op → Prop
  | .createVlan _ parent _ => (t.look parent).isSome = true
  | .setMaxaddr b _ => HeldByBridge t b
  | .addMember b m => HeldByBridge t b ∧ (t.look m).isSome = true ∧
      ∀ k i, t.look k = some i → i.isBridge = true → m ∉ i.members
  | .removeMember b m | .lockMemberMac b m _ => m ∈ t.kernel.membersOf b
  | .destroyIface n => (t.look n).isSome = true
  | .destroyBridge n => HeldByBridge t n
  | _ => True

/-- A member with a bind that is attached hardware, and not attached. -/
def BoundAwaiting (config : Config) (kernel : KernelInterfaces) : Prop :=
  ∃ b br m member, (b, br) ∈ config.bridge.entries ∧ (m, member) ∈ br.member.entries ∧
    member.bind.isSome = true ∧ member.type = none ∧ m ∉ kernel

/-! ## 1. What a stretch of ops keeps

Frames, for a list of ops that does not contain the one op that would break them. -/

section Stretch

variable {h : Host} {ops : List Op} {b m n : String}

theorem mem_membersOf {t : Host} :
    m ∈ t.kernel.membersOf b ↔ ∃ i, t.look b = some i ∧ m ∈ i.members := by
  rw [membersOf_eq]
  cases t.look b <;> simp

theorem destroyed_ne {x : Op} (hx : x.destroyed ≠ some n) :
    x ≠ .destroyIface n ∧ x ≠ .destroyBridge n := by
  constructor <;> rintro rfl <;> exact hx rfl

/-- An interface that is not destroyed stays, with its groups. -/
theorem run_look {i : Interface} (hi : h.look n = some i)
    (hd : ∀ x ∈ ops, x.destroyed ≠ some n) :
    ∃ i', (h.run ops).look n = some i' ∧ i'.groups = i.groups := by
  refine foldl_keeps (fun t : Host => ∃ i', t.look n = some i' ∧ i'.groups = i.groups)
    ⟨i, hi, rfl⟩ fun x hx t ht => ?_
  obtain ⟨j, hj, hgroups⟩ := ht
  obtain ⟨hd₁, hd₂⟩ := destroyed_ne (hd x hx)
  obtain ⟨j', hj', hgroups', -⟩ := look_exec_some hj hd₁ hd₂
  exact ⟨j', hj', hgroups'.trans hgroups⟩

theorem run_exists (hn : (h.look n).isSome = true) (hd : ∀ x ∈ ops, x.destroyed ≠ some n) :
    ((h.run ops).look n).isSome = true := by
  obtain ⟨i, hi⟩ := Option.isSome_iff_exists.mp hn
  obtain ⟨i', hi', -⟩ := run_look hi hd
  rw [hi']
  rfl

theorem run_held_bridge (hb : HeldByBridge h b) (hd : ∀ x ∈ ops, x.destroyed ≠ some b) :
    HeldByBridge (h.run ops) b :=
  foldl_keeps (fun t => HeldByBridge t b) hb fun x hx _ ht => ht.exec (destroyed_ne (hd x hx))

/-- A member that is not removed, and not destroyed with its bridge, stays. -/
theorem run_stays (hm : m ∈ h.kernel.membersOf b) (hr : .removeMember b m ∉ ops)
    (hd : ∀ x ∈ ops, x.destroyed ≠ some b ∧ x.destroyed ≠ some m) :
    m ∈ (h.run ops).kernel.membersOf b := by
  refine foldl_keeps (fun t : Host => m ∈ t.kernel.membersOf b) hm fun x hx t ht => ?_
  obtain ⟨i, hi, hin⟩ := mem_membersOf.mp ht
  obtain ⟨hb₁, hb₂⟩ := destroyed_ne (hd x hx).1
  obtain ⟨hm₁, hm₂⟩ := destroyed_ne (hd x hx).2
  obtain ⟨i', hi', -, -, hmem⟩ := look_exec_some hi hb₁ hb₂
  exact mem_membersOf.mpr ⟨i', hi', (hmem m).mpr ⟨Or.inl hin, fun h => hr (h ▸ hx), hm₁, hm₂⟩⟩

/-- A bridge gets a member by its `AddMember` only. -/
theorem run_outside (hm : m ∉ h.kernel.membersOf b) (ha : .addMember b m ∉ ops) :
    m ∉ (h.run ops).kernel.membersOf b := by
  refine foldl_keeps (fun t : Host => m ∉ t.kernel.membersOf b) hm fun x hx t ht => ?_
  rintro hin
  obtain ⟨i', hi', hin⟩ := mem_membersOf.mp hin
  rcases look_exec_inv hi' with ⟨hmade, -, -⟩ | ⟨i, hi, -, -, hmem⟩
  · rw [Op.made_members hmade] at hin
    exact absurd hin List.not_mem_nil
  · rcases ((hmem m).mp hin).1 with hold | rfl
    · exact ht (mem_membersOf.mpr ⟨i, hi, hold⟩)
    · exact ha hx

/-- A bridge has lost a member that one of the ops removes and none adds. -/
theorem run_removed (hr : .removeMember b m ∈ ops) (ha : .addMember b m ∉ ops) :
    m ∉ (h.run ops).kernel.membersOf b := by
  obtain ⟨pre, post, rfl⟩ := List.append_of_mem hr
  unfold run
  rw [List.foldl_append, List.foldl_cons]
  refine run_outside (h := exec (pre.foldl exec h) (.removeMember b m)) ?_ fun hin =>
    ha (List.mem_append_right _ (List.mem_cons_of_mem _ hin))
  intro hin
  obtain ⟨i', hi', hin⟩ := mem_membersOf.mp hin
  rcases look_exec_inv hi' with ⟨hmade, -, -⟩ | ⟨i, -, -, -, hmem⟩
  · rw [Op.made_members hmade] at hin
    exact List.not_mem_nil hin
  · exact ((hmem m).mp hin).2.1 rfl

/-- An interface is there after an op that makes it, if it is not destroyed. -/
theorem run_made {x : Op} {i : Interface} (hx : x ∈ ops) (hmade : x.made = some i)
    (hd : ∀ y ∈ ops, y.destroyed ≠ some i.name) : ((h.run ops).look i.name).isSome = true := by
  obtain ⟨pre, post, rfl⟩ := List.append_of_mem hx
  unfold run
  rw [List.foldl_append, List.foldl_cons]
  exact run_exists (h := exec (pre.foldl exec h) x) (isSome_exec_made hmade) fun y hy =>
    hd y (List.mem_append_right _ (List.mem_cons_of_mem _ hy))

end Stretch

/-! ## 2. What is before an op

The plan is a concatenation of phases. These two cut what stands in front of an op accordingly. -/

section Split

variable {α : Type} {x : α}

/-- What stands in front of a part of a list stands in front of the part's elements. -/
theorem mem_front {a b pre post : List α} (h : a ++ b = pre ++ x :: post) (hx : x ∉ a) :
    ∀ y ∈ a, y ∈ pre := by
  rcases List.append_eq_append_iff.mp h with ⟨as, rfl, -⟩ | ⟨bs, rfl, hbs⟩
  · exact fun y hy => List.mem_append_left _ hy
  · cases bs with
    | nil =>
      intro y hy
      rwa [List.append_nil] at hy
    | cons c bs =>
      obtain ⟨rfl, -⟩ := List.cons.inj hbs
      exact absurd (List.mem_append_right _ List.mem_cons_self) hx

/-- The part of a list behind an element is no part of what stands in front of it. -/
theorem front_subset {a b pre post : List α} (h : a ++ b = pre ++ x :: post) (hx : x ∉ b) :
    ∀ y ∈ pre, y ∈ a := by
  rcases List.append_eq_append_iff.mp h with ⟨as, rfl, has⟩ | ⟨bs, rfl, -⟩
  · rw [has] at hx
    exact absurd (List.mem_append_right _ List.mem_cons_self) hx
  · exact fun y hy => List.mem_append_left _ hy

end Split

/-! ## 3. A plan on a host

What is past at a given op, by the phase it belongs to. -/

section

variable [Hashlib]

/-- A plan for a host: every name is claimed once, the kernel is regular, no claimed interface is
a member of an unowned bridge, and every vlan uplink's trunk is there. -/
structure Attempt (config : Config) (h : Host) (pf : Option PfState) (p : Plan) : Prop where
  once : ClaimedOnce config
  regular : Regular h.kernel
  owned : ∀ n ∈ claimed config, ∀ b i, h.kernel.interfaces.get? b = some i →
    i.isBridge = true → n ∈ i.members → i.isOwned = true
  trunks : ∀ b br seg vid trunk, (b, br) ∈ config.bridge.entries → br.segment = some seg →
    seg.vxlan = none → seg.vlan = some vid → trunkOf config seg = .ok trunk → trunk ∈ h.kernel
  planned : diff config h.kernel pf = .ok p

namespace Attempt

variable {config : Config} {h : Host} {pf : Option PfState} {p : Plan} {pre post : List Op}
  {x y : Op}

theorem issued (a : Attempt config h pf p) (hx : x ∈ p.ops) : Issued config h.kernel pf x :=
  (mem_ops a.planned).mp hx

/-- Nothing is destroyed in front of an op of an earlier phase. -/
theorem nothing_destroyed (a : Attempt config h pf p) (hsplit : p.ops = pre ++ x :: post)
    (hx : x.phase ≠ .destroys ∧ x.phase ≠ .flushes) : ∀ y ∈ pre, ∀ n, y.destroyed ≠ some n := by
  have hnot : x ∉ p.destroys := fun hin => (phase_destroys a.planned hin).elim hx.1 hx.2
  intro y hy n hn
  have hphase := phase_front a.planned (front_subset hsplit hnot y hy)
  cases y <;> first | exact hphase rfl | simp [Op.destroyed] at hn

/-- The creates and the removals are past when the adds begin. -/
theorem earlier (a : Attempt config h pf p) (hsplit : p.ops = pre ++ x :: post)
    (hx : x.phase = .adds) (hy : y ∈ p.ops) (hphase : y.phase = .creates ∨ y.phase = .removes) :
    y ∈ pre := by
  have hops : p.ops = (p.creates ++ p.removes) ++ (p.adds ++ p.destroys) := by
    simp only [Plan.ops, List.append_assoc]
  have hnot : x ∉ p.creates ++ p.removes := by
    intro hin
    rcases List.mem_append.mp hin with hin | hin
    · rw [phase_creates a.planned hin] at hx
      exact absurd hx (by decide)
    · rcases phase_removes a.planned hin with hr | hr <;> rw [hr] at hx <;>
        exact absurd hx (by decide)
  have hfront : y ∈ p.creates ++ p.removes := by
    rw [hops] at hy
    refine (List.mem_append.mp hy).resolve_right fun hin => ?_
    rcases List.mem_append.mp hin with hin | hin
    · rw [phase_adds a.planned hin] at hphase
      exact absurd hphase (by decide)
    · rcases phase_destroys a.planned hin with hd | hd <;> rw [hd] at hphase <;>
        exact absurd hphase (by decide)
  exact mem_front (hops.symm.trans hsplit) hnot y hfront

/-- Of a member's adds, those in front of one of them are past when its turn comes. -/
theorem earlier_in_member (a : Attempt config h pf p) (hsplit : p.ops = pre ++ x :: post)
    (hx : x.phase = .adds) {b m : String} {br : Bridge} {member : Member}
    (hb : (b, br) ∈ config.bridge.entries) (hm : (m, member) ∈ br.member.entries)
    {l₁ l₂ : List Op} (hadds : memberAdds config h.kernel pf b (m, member) = l₁ ++ x :: l₂) :
    ∀ y ∈ l₁, y ∈ pre := by
  obtain ⟨part, hpart⟩ := diff_round a.planned hb
  obtain ⟨bs, bs', hbridges⟩ := List.append_of_mem hb
  obtain ⟨ms, ms', hmembers⟩ := List.append_of_mem hm
  have hsplit' : ∃ front back, p.ops = (front ++ l₁) ++ x :: back := by
    refine ⟨p.creates ++ p.removes ++ (bs.flatMap (bridgeAdds config h.kernel pf) ++
      ms.flatMap (memberAdds config h.kernel pf b)), l₂ ++ (ms'.flatMap
        (memberAdds config h.kernel pf b) ++ (uplinkAdds config h.kernel (b, br) ++
          (bs'.flatMap (bridgeAdds config h.kernel pf) ++ p.destroys))), ?_⟩
    rw [Plan.ops, adds_eq a.planned, hbridges, List.flatMap_append, List.flatMap_cons,
      bridgeAdds_eq hpart, hmembers, List.flatMap_append, List.flatMap_cons, hadds]
    simp only [List.append_assoc, List.cons_append]
  obtain ⟨front, back, heq⟩ := hsplit'
  have hnot : x ∉ front ++ l₁ :=
    (issued_once a.once a.regular a.planned (by rw [hx]; decide) heq).1
  intro y hy
  exact mem_front (heq.symm.trans hsplit) hnot y (List.mem_append_right _ hy)

/-- Only the bridge that claims a member adds it. -/
theorem claims_of_add (a : Attempt config h pf p) {b m : String} (hx : .addMember b m ∈ p.ops) :
    ∃ br, (b, br) ∈ config.bridge.entries ∧ m ∈ claimsOf config b br ∧
      m ∉ h.kernel.membersOf b := by
  obtain ⟨br, hb, ⟨member, hm, hj⟩ | ⟨hu, hout, -⟩⟩ := a.issued hx
  · refine ⟨br, hb, List.mem_append_right _ (Dict.mem_of_entry hm), ?_⟩
    rcases hj with ⟨hk, -⟩ | ⟨-, hout⟩
    · exact fun hin => hk (a.regular.present b m hin)
    · exact hout
  · exact ⟨br, hb, List.mem_append_left _ hu, hout⟩

/-- A claimed member is not removed from the bridge that claims it. -/
theorem not_removed (a : Attempt config h pf p) {b m : String} {br : Bridge}
    (hb : (b, br) ∈ config.bridge.entries) (hm : m ∈ claimsOf config b br) :
    .removeMember b m ∉ p.ops := by
  intro hx
  obtain ⟨-, ⟨br', hb', hc⟩ | ⟨hnot, -⟩⟩ := a.issued hx
  · rw [Dict.entry_unique hb' hb] at hc
    exact hc hm
  · exact hnot (Dict.mem_of_entry hb)

/-- When the adds run, every desired bridge stands. -/
theorem bridge_stands (a : Attempt config h pf p) (hsplit : p.ops = pre ++ x :: post)
    (hx : x.phase = .adds) {b : String} {br : Bridge} (hb : (b, br) ∈ config.bridge.entries) :
    HeldByBridge (h.run pre) b := by
  have hd : ∀ y ∈ pre, y.destroyed ≠ some b := fun y hy =>
    a.nothing_destroyed hsplit (by rw [hx]; decide) y hy b
  have hin : ∀ y ∈ pre, y ∈ p.ops := by
    rw [hsplit]
    exact fun y hy => List.mem_append_left _ hy
  cases hi : h.look b with
  | some i =>
    exact run_held_bridge ⟨i, hi, diff_bridge_owned a.planned hb hi⟩ hd
  | none =>
    have hk : b ∉ h.kernel := by rw [mem_kernel, hi]; simp
    have hcreate : .createBridge b br.maxAddresses ∈ pre :=
      a.earlier hsplit hx ((mem_ops a.planned).mpr ⟨br, hb, hk, rfl⟩) (Or.inl rfl)
    have hmake : ∀ t : Host, t.look b = none →
        HeldByBridge (exec t (.createBridge b br.maxAddresses)) b := fun t ht =>
      ⟨_, look_exec_made (i := bridgeIface b br.maxAddresses) rfl ht, rfl, rfl⟩
    have keep : ∀ y ∈ pre, ∀ t, HeldByBridge t b → HeldByBridge (exec t y) b :=
      fun y hy t ht => ht.exec (destroyed_ne (hd y hy))
    refine foldl_brings (fun t => t.look b = none ∨ HeldByBridge t b) (fun t => HeldByBridge t b)
      (Or.inl hi) (fun y hy t ht => ?_) keep ⟨_, hcreate, fun t ht => ?_⟩
    · rcases ht with ht | ht
      · by_cases hm : ∃ i, y.made = some i ∧ i.name = b
        · obtain ⟨i, hyi, rfl⟩ := hm
          rcases ((a.issued (hin y hy)).made_free hyi).2 with ⟨br', hb', rfl⟩ | ⟨-, hman⟩
          · rw [← Dict.entry_unique hb hb']
            exact Or.inr (hmake t ht)
          · exact absurd (claimed_of_manufactured hman)
              (a.once.not_claimed (Dict.mem_of_entry hb))
        · exact Or.inl (look_exec_none ht fun i hyi hname => hm ⟨i, hyi, hname⟩)
      · exact Or.inr (keep y hy t ht)
    · exact ht.elim (hmake t) (keep _ hcreate t)

/-! ## 4. Each op in its turn

One lemma for each kind of op. The adds have the longest: at their turn the bridge was made or
was there, the member was made or was there, and every removal that concerned it is past. -/

/-- A member that joins is in no bridge any more. -/
theorem outside (a : Attempt config h pf p) {b m : String}
    (hsplit : p.ops = pre ++ .addMember b m :: post) {k : String} {i : Interface}
    (hi : (h.run pre).look k = some i) (hbr : i.isBridge = true) : m ∉ i.members := by
  have hmem : ∀ y ∈ pre, y ∈ p.ops := by
    rw [hsplit]
    exact fun y hy => List.mem_append_left _ hy
  obtain ⟨br, hb, hc, hout⟩ := a.claims_of_add (b := b) (m := m) (by rw [hsplit]; simp)
  have hone : ∀ br', (k, br') ∈ config.bridge.entries → m ∈ claimsOf config k br' → k = b :=
    fun br' hb' hc' => (a.once.one_bridge hb' hb hc' hc).1
  have hadd : .addMember k m ∉ pre := by
    intro hin
    obtain ⟨br', hb', hc', -⟩ := a.claims_of_add (hmem _ hin)
    obtain rfl := hone br' hb' hc'
    exact (issued_once a.once a.regular a.planned (by simp [Op.phase]) hsplit).1 hin
  intro hin
  have hnow : m ∈ (h.run pre).kernel.membersOf k := mem_membersOf.mpr ⟨i, hi, hin⟩
  by_cases hk : m ∈ h.kernel.membersOf k
  · -- another bridge held it, an owned one, and has lost it
    obtain ⟨j, hj, hjm⟩ := mem_membersOf.mp hk
    obtain ⟨i', hi', hgroups⟩ : ∃ i', (h.run pre).look k = some i' ∧ i'.groups = j.groups :=
      run_look hj fun y hy => a.nothing_destroyed hsplit (by simp [Op.phase]) y hy k
    rw [hi, Option.some.injEq] at hi'
    subst hi'
    have hjb : j.isBridge = true := by
      rw [Interface.isBridge, ← hgroups]
      exact hbr
    have hne : k ≠ b := fun heq => hout (heq ▸ hk)
    have hremove : .removeMember k m ∈ p.ops := by
      refine (mem_ops a.planned).mpr ⟨hk, ?_⟩
      by_cases hkc : k ∈ config.bridge
      · obtain ⟨br', hb'⟩ := Dict.mem_iff_entry.mp hkc
        exact Or.inl ⟨br', hb', fun hc' => hne (hone br' hb' hc')⟩
      · exact Or.inr ⟨hkc, j, hj, hjb, a.owned m (mem_claimed.mpr ⟨b, br, hb, hc⟩) k j hj hjb hjm⟩
    exact run_removed (a.earlier hsplit rfl hremove (Or.inr rfl)) hadd hnow
  · exact run_outside hk hadd hnow

theorem ready_add (a : Attempt config h pf p) {b m : String}
    (hsplit : p.ops = pre ++ .addMember b m :: post) :
    Ready (h.run pre) (.addMember b m) := by
  have hd : ∀ n, ∀ y ∈ pre, y.destroyed ≠ some n := fun n y hy =>
    a.nothing_destroyed hsplit (by simp [Op.phase]) y hy n
  have hx : .addMember b m ∈ p.ops := by rw [hsplit]; simp
  obtain ⟨br, hb, -, -⟩ := a.claims_of_add hx
  refine ⟨a.bridge_stands hsplit rfl hb, ?_, fun k i hi hbr => a.outside hsplit hi hbr⟩
  by_cases hk : m ∈ h.kernel
  · exact run_exists (mem_kernel.mp hk) (hd m)
  · obtain ⟨br', hb', ⟨member, hm, hj⟩ | ⟨hu, -, hj⟩⟩ := a.issued hx
    · -- a typed member is created right in front of its join
      obtain ⟨-, ht⟩ := hj.resolve_right fun hj => hk hj.1
      obtain ⟨part, hpart⟩ := diff_round a.planned hb'
      obtain ⟨_, _, _, _, -, -, -, hmembers, -⟩ := bridgePart_ok hpart
      obtain ⟨mp, -, hmp⟩ := exists_of_mem_left hmembers hm
      obtain ⟨-, load, tops, -, hadds, -⟩ := memberPart_ok hmp
      have hjoin : memberAdds config h.kernel pf b (m, member) =
          (.createTap m member.description :: load.toList) ++ .addMember b m ::
            (tops ++ lockOps h.kernel b m member) := by
        rw [memberAdds_ok hmp, hadds, joinOps, if_pos hk, if_pos ht]
        simp only [List.append_assoc, List.cons_append, List.nil_append]
      have htap := a.earlier_in_member hsplit rfl hb' hm hjoin _ List.mem_cons_self
      exact run_made (i := tapIface m member.description) htap rfl (hd m)
    · have hmade := hj.resolve_right hk
      obtain ⟨x, hiss, hnot, i, hxi, rfl⟩ := exists_uplink pf a.once hb' hmade hu hk
      have hphase : x.phase = .creates := by
        cases x <;> first | rfl | exact absurd rfl (hnot _ _) | simp [Op.made] at hxi
      exact run_made (a.earlier hsplit rfl ((mem_ops a.planned).mpr hiss) (Or.inl hphase)) hxi
        (hd _)

theorem ready_remove (a : Attempt config h pf p) {b m : String}
    (hsplit : p.ops = pre ++ .removeMember b m :: post) :
    Ready (h.run pre) (.removeMember b m) := by
  have hd : ∀ n, ∀ y ∈ pre, y.destroyed ≠ some n := fun n y hy =>
    a.nothing_destroyed hsplit (by simp [Op.phase]) y hy n
  obtain ⟨hm, -⟩ := a.issued (x := .removeMember b m) (by rw [hsplit]; simp)
  exact run_stays hm (issued_once a.once a.regular a.planned (by simp [Op.phase]) hsplit).1
    fun y hy => ⟨hd b y hy, hd m y hy⟩

/-- A bound member is in its bridge when it is locked, unless it is awaited. -/
theorem ready_lock (a : Attempt config h pf p) (hno : ¬ BoundAwaiting config h.kernel)
    {b m mac : String} (hsplit : p.ops = pre ++ .lockMemberMac b m mac :: post) :
    Ready (h.run pre) (.lockMemberMac b m mac) := by
  have hd : ∀ n, ∀ y ∈ pre, y.destroyed ≠ some n := fun n y hy =>
    a.nothing_destroyed hsplit (by simp [Op.phase]) y hy n
  obtain ⟨br, member, bd, hb, hm, hbd, hlock, rfl⟩ :=
    a.issued (x := .lockMemberMac b m mac) (by rw [hsplit]; simp)
  have hstays : .removeMember b m ∉ p.ops :=
    a.not_removed hb (List.mem_append_right _ (Dict.mem_of_entry hm))
  have hpre : ∀ y ∈ pre, y ∈ p.ops := by
    rw [hsplit]
    exact fun y hy => List.mem_append_left _ hy
  by_cases hin : m ∈ h.kernel.membersOf b
  · -- a member already, and nothing before takes it out
    exact run_stays hin (fun h => hstays (hpre _ h)) fun y hy => ⟨hd b y hy, hd m y hy⟩
  · -- it joins first
    have hjoins : Joins h.kernel b m member := by
      by_cases hk : m ∈ h.kernel
      · exact Or.inr ⟨hk, hin⟩
      · refine Or.inl ⟨hk, ?_⟩
        cases ht : member.type with
        | some t => rfl
        | none => exact absurd ⟨b, br, m, member, hb, hm, by rw [hbd]; rfl, ht, hk⟩ hno
    obtain ⟨part, hpart⟩ := diff_round a.planned hb
    obtain ⟨_, _, _, _, -, -, -, hmembers, -⟩ := bridgePart_ok hpart
    obtain ⟨mp, -, hmp⟩ := exists_of_mem_left hmembers hm
    obtain ⟨-, load, tops, -, hadds, -⟩ := memberPart_ok hmp
    have hlast : memberAdds config h.kernel pf b (m, member) =
        (joinOps h.kernel pf b m member load ++ tops) ++ .lockMemberMac b m bd.mac :: [] := by
      rw [memberAdds_ok hmp, hadds, lockOps, hbd]
      dsimp only
      rw [if_pos hlock]
    -- the lock is the last op of its round, so the join is before it
    have hjoin : .addMember b m ∈ pre :=
      a.earlier_in_member hsplit rfl hb hm hlast _ (List.mem_append_left _
        (mem_joinOps.mpr (Or.inr (Or.inr ⟨rfl, hjoins⟩))))
    obtain ⟨pre₁, pre₂, rfl⟩ := List.append_of_mem hjoin
    rw [List.append_assoc, List.cons_append] at hsplit
    obtain ⟨⟨i, hi, -⟩, -⟩ := a.ready_add hsplit
    obtain ⟨i', hi', -, -, hmem⟩ :=
      look_exec_some (x := .addMember b m) hi (by simp) (by simp)
    have hjoined : m ∈ (exec (h.run pre₁) (.addMember b m)).kernel.membersOf b :=
      mem_membersOf.mpr ⟨i', hi', (hmem m).mpr ⟨Or.inr rfl, by simp, by simp, by simp⟩⟩
    have hrest := @run_stays _ pre₂ _ _ hjoined
      (fun hr => hstays (hpre _ (List.mem_append_right _ (List.mem_cons_of_mem _ hr))))
      fun y hy => ⟨hd b y (List.mem_append_right _ (List.mem_cons_of_mem _ hy)),
        hd m y (List.mem_append_right _ (List.mem_cons_of_mem _ hy))⟩
    show m ∈ (h.run (pre₁ ++ .addMember b m :: pre₂)).kernel.membersOf b
    unfold run at hrest ⊢
    rw [List.foldl_append, List.foldl_cons]
    exact hrest

theorem ready_vlan (a : Attempt config h pf p) {n parent : String} {vid : Int}
    (hsplit : p.ops = pre ++ .createVlan n parent vid :: post) :
    Ready (h.run pre) (.createVlan n parent vid) := by
  obtain ⟨b, br, seg, hb, hseg, hvx, hvid, hhead, -, rfl⟩ :=
    a.issued (x := .createVlan n parent vid) (by rw [hsplit]; simp)
  have hnames := (a.once.names).2 b br hb
  unfold uplinkNames at hnames
  simp only [hseg, hvx, hvid] at hnames
  obtain ⟨trunk, htrunk, hnames⟩ := Except.bind_eq_ok.mp hnames
  split at hnames
  · exact absurd hnames (by simp)
  · rw [← Except.ok.inj hnames, List.head?_cons, Option.some.injEq] at hhead
    have hdot : '.' ∉ (toString vid).toList := by
      intro hdot
      rcases Text.mem_toString_int hdot with hc | hc <;> exact absurd hc (by decide)
    have hparent : Text.beforeLast n '.' = trunk := by
      rw [← hhead]
      exact Text.beforeLast_append hdot
    rw [hparent]
    exact run_exists (mem_kernel.mp (a.trunks b br seg vid trunk hb hseg hvx hvid htrunk))
      fun y hy => a.nothing_destroyed hsplit (by simp [Op.phase]) y hy trunk

theorem ready_setMaxaddr (a : Attempt config h pf p) {b : String} {v : Int}
    (hsplit : p.ops = pre ++ .setMaxaddr b v :: post) :
    Ready (h.run pre) (.setMaxaddr b v) := by
  obtain ⟨br, i, n, hb, hi, -⟩ := a.issued (x := .setMaxaddr b v) (by rw [hsplit]; simp)
  exact run_held_bridge ⟨i, hi, diff_bridge_owned a.planned hb hi⟩
    fun y hy => a.nothing_destroyed hsplit (by simp [Op.phase]) y hy b

/-- What an op destroys no op in front of it has destroyed. -/
theorem destroyed_here (a : Attempt config h pf p) (hsplit : p.ops = pre ++ x :: post)
    {n : String} (hx : x.destroyed = some n) : ∀ y ∈ pre, y.destroyed ≠ some n := by
  intro y hy hyn
  have hnd := destroyed_nodup a.regular a.planned
  rw [hsplit, List.filterMap_append, List.filterMap_cons_some hx] at hnd
  exact (List.nodup_append'.mp hnd).2.2 (List.mem_filterMap.mpr ⟨y, hy, hyn⟩)
    List.mem_cons_self

theorem ready_destroyIface (a : Attempt config h pf p) {n : String}
    (hsplit : p.ops = pre ++ .destroyIface n :: post) :
    Ready (h.run pre) (.destroyIface n) := by
  have hd : Destroyed config h.kernel n := a.issued (x := .destroyIface n) (by rw [hsplit]; simp)
  have hthere : (h.look n).isSome = true := by
    rcases hd with ⟨ho, -⟩ | ⟨⟨ho, -⟩, -⟩ | ⟨-, -, i, hi, -⟩
    · obtain ⟨i, hi, -⟩ := KernelInterfaces.ownedName_iff.mp ho
      exact Option.isSome_iff_exists.mpr ⟨i, hi⟩
    · obtain ⟨i, hi, -⟩ := KernelInterfaces.ownedName_iff.mp ho
      exact Option.isSome_iff_exists.mpr ⟨i, hi⟩
    · exact Option.isSome_iff_exists.mpr ⟨i, hi⟩
  exact run_exists hthere (a.destroyed_here hsplit rfl)

theorem ready_destroyBridge (a : Attempt config h pf p) {n : String}
    (hsplit : p.ops = pre ++ .destroyBridge n :: post) :
    Ready (h.run pre) (.destroyBridge n) := by
  obtain ⟨-, i, hi⟩ := a.issued (x := .destroyBridge n) (by rw [hsplit]; simp)
  exact run_held_bridge ⟨i, hi⟩ (a.destroyed_here hsplit rfl)

/-- A bound member that is awaited is locked outside its bridge. -/
theorem awaited_locked (a : Attempt config h pf p) (hbound : BoundAwaiting config h.kernel) :
    ∃ pre x post, p.ops = pre ++ x :: post ∧ ¬ Ready (h.run pre) x := by
  obtain ⟨b, br, m, member, hb, hm, hbd, ht, hk⟩ := hbound
  obtain ⟨bd, hbd⟩ := Option.isSome_iff_exists.mp hbd
  have hout : m ∉ h.kernel.membersOf b := fun hin => hk (a.regular.present b m hin)
  have hlock : .lockMemberMac b m bd.mac ∈ p.ops :=
    (mem_ops a.planned).mpr ⟨br, member, bd, hb, hm, hbd,
      fun hs => hout (a.regular.locked b m _ hs), rfl⟩
  obtain ⟨pre, post, hsplit⟩ := List.append_of_mem hlock
  refine ⟨pre, _, post, hsplit, run_outside hout fun hin => ?_⟩
  obtain ⟨br', hb', hj⟩ := a.issued (x := .addMember b m) (by rw [hsplit]; simp [hin])
  rw [Dict.entry_unique hb' hb] at hj
  rcases hj with ⟨member', hm', hj⟩ | ⟨hu, -⟩
  · rw [Dict.entry_unique hm' hm] at hj
    rcases hj with ⟨-, ht'⟩ | ⟨hk', -⟩
    · rw [ht] at ht'
      exact absurd ht' (by decide)
    · exact hk hk'
  · exact a.once.member_not_uplink hb (Dict.mem_of_entry hm) hu

end Attempt

/-- **Every op of a plan finds its subject when its turn comes, exactly when no member with a
bind is awaited hardware.** -/
theorem runs_iff {config : Config} {h : Host} {pf : Option PfState} {p : Plan}
    (a : Attempt config h pf p) :
    (∀ pre x post, p.ops = pre ++ x :: post → Ready (h.run pre) x) ↔
      ¬ BoundAwaiting config h.kernel := by
  constructor
  · intro hall hbound
    obtain ⟨pre, x, post, hsplit, hnot⟩ := a.awaited_locked hbound
    exact hnot (hall pre x post hsplit)
  · intro hno pre x post hsplit
    cases x with
    | createVlan n parent vid => exact a.ready_vlan hsplit
    | setMaxaddr b v => exact a.ready_setMaxaddr hsplit
    | addMember b m => exact a.ready_add hsplit
    | removeMember b m => exact a.ready_remove hsplit
    | lockMemberMac b m mac => exact a.ready_lock hno hsplit
    | destroyIface n => exact a.ready_destroyIface hsplit
    | destroyBridge n => exact a.ready_destroyBridge hsplit
    | _ => trivial

end

/-! ## 5. Hardware that is awaited

A document that the agent accepts, and the plan for it on an empty host. -/

/-- A bound member without a type, as a document gives it. -/
def awaitedTree : Tree := .dict [("bridge", .dict [("pbaaa", .dict [("member",
  .dict [("em1", .dict [("bind", .dict [("mac", .str "fa:16:3e:00:00:01"),
    ("address", .str "10.0.0.5")])])])])])]

def awaitedConfig : Config :=
  { bridge := ⟨[("pbaaa", { member := ⟨[("em1",
      { bind := some { mac := "fa:16:3e:00:00:01", address := "10.0.0.5" } })], by decide⟩ })],
      by decide⟩ }

theorem fromTree_awaited : Config.fromTree awaitedTree = .ok awaitedConfig := by rfl

/-- Its bridge is created, and the member locked on it that is not there. -/
def awaitedPlan : Plan :=
  { creates := [.createBridge "pbaaa" 2000]
    adds := [.lockMemberMac "pbaaa" "em1" "fa:16:3e:00:00:01"]
    notes := ["em1: awaiting-attach (pbaaa)"] }

theorem diff_awaited (inst : Hashlib) : diff awaitedConfig {} none = .ok awaitedPlan := rfl

theorem attempt_awaited (inst : Hashlib) : Attempt awaitedConfig {} none awaitedPlan where
  once := ⟨["pbaaa", "em1"], rfl, by decide⟩
  regular :=
    { bridgeless := by
        intro b i m j hi
        exact absurd hi (by simp)
      locked := by
        intro b m mac hl
        exact absurd hl (by simp [KernelInterfaces.staticLock, KernelInterfaces.lockIn])
      present := by
        intro b m hm
        exact absurd hm (by simp [KernelInterfaces.membersOf])
      distinct := by
        intro b
        simp [KernelInterfaces.membersOf] }
  owned := by
    intro n _ b i hi
    exact absurd hi (by simp)
  trunks := by
    intro b br seg vid trunk hb hseg
    obtain ⟨rfl, rfl⟩ := Prod.mk.inj (List.mem_singleton.mp hb)
    exact absurd hseg (by simp)
  planned := diff_awaited inst

/-- A planned op can be one that cannot run. -/
theorem awaited_lock_fails : ¬ ∀ (_ : Hashlib) (tree : Tree) (config : Config) (h : Host)
    (pf : Option PfState) (p : Plan), Config.fromTree tree = .ok config →
      Attempt config h pf p → ∀ pre x post, p.ops = pre ++ x :: post → Ready (h.run pre) x := by
  intro hall
  have hready := hall ⟨id⟩ awaitedTree awaitedConfig {} none awaitedPlan fromTree_awaited
    (attempt_awaited ⟨id⟩) [.createBridge "pbaaa" 2000]
    (.lockMemberMac "pbaaa" "em1" "fa:16:3e:00:00:01") [] rfl
  exact absurd hready (show ¬ "em1" ∈ _ by decide)

theorem runs_iff_awaited :
    (∀ pre x post, awaitedPlan.ops = pre ++ x :: post → Ready (({} : Host).run pre) x) ↔
      ¬ BoundAwaiting awaitedConfig {} :=
  @runs_iff ⟨id⟩ _ {} none _ (attempt_awaited ⟨id⟩)

end Planner

end Bsdbridge
