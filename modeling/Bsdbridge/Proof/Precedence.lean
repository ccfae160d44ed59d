import Bsdbridge.Lib.Run
import Bsdbridge.Proof.Anchors
import Bsdbridge.Proof.Shape

/-!
# Policy before membership

Follow one anchor through the ops of a plan. The planner puts a load right before the membership it
belongs to, but it issues no load when the anchor a pass sees already has the right hash, and the
table repairs of such an anchor come after the membership. So whether the anchor is right at an
`AddMember` is decided, for a member whose load is left out, by what stood there before: `Upheld`
walks back from the join over the earlier bridges, the first that loads the anchor decides, and
when none does what `pf_state` reported decides. **`policy_first_iff`** is exact, for every config,
one that claims a name twice included.

The walk is not the run. `anchorAfter` *runs* the ops of the plan on one anchor, and
`anchor_exec_eq` says a host does the same; `RulesHeld` and `TableHeld` ask only what the config
claims and what the pass has seen, bridge by bridge. `walk_at` is the step between them, and the
reason why the condition can be read off the inputs before any op is issued.

A name in one bridge only, which is what `build` makes, needs no walk: `enforced_at_join_once` says
the member is policied at its join exactly when it is loaded there, or when its surviving anchor
has the config's tables already. `host_enforced_at_join_once` says that of the host's own anchor,
at the moment the member opens.

## What is not decided here

Whether pf reads the loaded text as the filter means (`Proof/Policy`), and what happens when a load
fails (`Proof/Apply`). An op is taken to work: this file is about their order.
-/

set_option autoImplicit false

namespace Bsdbridge

/-- The interface whose anchor an op changes. -/
def Op.anchorOf : Op → Option String
  | .loadAnchor n _ _ _ => some n
  | .replaceTable n _ _ => some n
  | .flushAnchor n => some n
  | _ => none

namespace Planner

/-! ## 1. One anchor

`anchorStep` is the anchor's share of an op, spelled without the rest of the host. Tables are
compared as sets from here on, since pf has no order of a table's addresses. -/

/-- What an op does to the anchor of `m`. -/
def anchorStep (m : String) (a : Option Pf.AnchorState) : Op → Option Pf.AnchorState
  | .loadAnchor n _ r hash =>
      if n = m then some (Pf.AnchorState.mk true (some hash)
        (Dict.ofList (r.tables.map fun t => (t.1, t.2.toFinset))))
      else a
  | .replaceTable n t ms =>
      if n = m then a.map fun st => { st with tables := st.tables.insert t ms.toFinset } else a
  | .flushAnchor n => if n = m then none else a
  | _ => a

/-- The anchor of `m` as the pass saw it and as a list of ops has changed it. -/
def anchorAfter (pf : Option PfState) (m : String) (ops : List Op) : Option Pf.AnchorState :=
  ops.foldl (anchorStep m) (pf.bind (·.get? m))

theorem anchorStep_other {m : String} {a : Option Pf.AnchorState} {x : Op}
    (hx : x.anchorOf ≠ some m) : anchorStep m a x = a := by
  cases x with
  | loadAnchor n f r c => exact if_neg fun h => hx (by rw [Op.anchorOf, h])
  | replaceTable n t ms => exact if_neg fun h => hx (by rw [Op.anchorOf, h])
  | flushAnchor n => exact if_neg fun h => hx (by rw [Op.anchorOf, h])
  | _ => rfl

/-- The host does to an anchor what `anchorStep` says. -/
theorem anchor_exec_eq {h : Host} {m : String} {x : Op} :
    (h.exec x).anchor m = anchorStep m (h.anchor m) x := by
  cases x with
  | loadAnchor n f r c =>
    simp only [Host.exec, Host.anchor_load, anchorStep, eq_comm]
  | replaceTable n t ms =>
    simp only [Host.exec, Host.anchor_setTable, anchorStep]
    by_cases hn : m = n
    · simp [hn]
    · simp [hn, Ne.symm hn]
  | flushAnchor n =>
    simp only [Host.exec, Host.anchor_flush, anchorStep, eq_comm]
  | _ => simp [Host.exec, anchorStep]

/-- Run over a host, the ops of a pass change an anchor as `anchorAfter` follows it. -/
theorem run_anchor {h : Host} {m : String} {ops : List Op} :
    (h.run ops).anchor m = anchorAfter (some h.anchors) m ops := by
  show (ops.foldl Host.exec h).anchor m = ops.foldl (anchorStep m) (h.anchor m)
  induction ops generalizing h with
  | nil => rfl
  | cons x rest ih =>
    rw [List.foldl_cons, List.foldl_cons, ih, anchor_exec_eq]

section

variable [Hashlib]

/-- The anchor of a member carries its rules, and every table they refer to as the config has
it. -/
def Enforced (config : Config) (m : String) (member : Member)
    (a : Option Pf.AnchorState) : Prop :=
  ∃ st, a = some st ∧ Carries config m member st ∧
    ∀ name ms, (name, ms) ∈ tablesOf config member → TableOk name ms st

/-! ## 2. What decides a join

Both walks go from the join backwards, so the list of bridges they take is the reverse of the
plan's. They part at a load whose rules are right and whose tables are not: a later repair mends
the table and never the rules. -/

/-- Walking back over the bridges of a pass: the first that loads the anchor of `m` loaded these
rules, or none did and the anchor the pass saw carries them. -/
def RulesHeld (config : Config) (kernel : KernelInterfaces) (pf : Option PfState) (m : String)
    (member : Member) : List (String × Bridge) → Prop
  | [] => Surviving config pf m member
  | (b, br) :: rest =>
      match br.member.get? m with
      | some member' =>
          (Loads config kernel pf b m member' ∧
            hashFor config m member' = hashFor config m member) ∨
          (¬ Loads config kernel pf b m member' ∧ RulesHeld config kernel pf m member rest)
      | none => RulesHeld config kernel pf m member rest

/-- Walking back in the same way: the table was loaded, or repaired since, or up to date. -/
def TableHeld (config : Config) (kernel : KernelInterfaces) (pf : Option PfState) (m : String)
    (name : String) (ms : List String) : List (String × Bridge) → Prop
  | [] => ∃ anchors st, pf = some anchors ∧ anchors.get? m = some st ∧ TableOk name ms st
  | (b, br) :: rest =>
      match br.member.get? m with
      | some member' =>
          (Loads config kernel pf b m member' ∧
            ((name, ms) ∈ tablesOf config member' ∨ ms.toFinset = ∅)) ∨
          (¬ Loads config kernel pf b m member' ∧
            (Repairs config pf m member' name ms ∨ TableHeld config kernel pf m name ms rest))
      | none => TableHeld config kernel pf m name ms rest

/-- The anchor of a member is right after the bridges of a pass, latest first. -/
def Upheld (config : Config) (kernel : KernelInterfaces) (pf : Option PfState) (m : String)
    (member : Member) (before : List (String × Bridge)) : Prop :=
  RulesHeld config kernel pf m member before ∧
    ∀ name ms, (name, ms) ∈ tablesOf config member →
      TableHeld config kernel pf m name ms before

/-! ## 3. The rounds, as lists of adds

The planner's loops accumulate; a walk over bridges wants each round's own ops. The rounds are
the calls of the planner's own parts again, read through the `Except` they return. -/

/-- The adds of one member. -/
def memberAdds (config : Config) (kernel : KernelInterfaces) (pf : Option PfState) (b : String)
    (e : String × Member) : List Op :=
  match memberPart config kernel pf b (kernel.membersOf b).dedup e.1 e.2 with
  | .ok part => part.adds
  | .error _ => []

/-- The adds of one round. -/
def bridgeAdds (config : Config) (kernel : KernelInterfaces) (pf : Option PfState)
    (e : String × Bridge) : List Op :=
  match bridgePart config kernel pf e.1 e.2 with
  | .ok part => part.adds
  | .error _ => []

/-- The memberships of one round's uplinks. -/
def uplinkAdds (config : Config) (kernel : KernelInterfaces) (e : String × Bridge) : List Op :=
  ((uplinksOf config e.1 e.2).map (uplinkPart kernel e.1 (kernel.membersOf e.1).dedup
    (manufactures e.2.segment))).flatMap MemberPart.adds

variable {config : Config} {kernel : KernelInterfaces} {pf : Option PfState} {p : Plan}

theorem adds_eq (h : diff config kernel pf = .ok p) :
    p.adds = config.bridge.entries.flatMap (bridgeAdds config kernel pf) := by
  obtain ⟨parts, hparts, rfl⟩ := diff_ok h
  refine flatMap_of_forall₂ (hparts.imp fun e part hpart => ?_)
  rw [bridgeAdds, hpart]

theorem bridgeAdds_eq {b : String} {br : Bridge} {part : BridgePart}
    (h : bridgePart config kernel pf b br = .ok part) :
    bridgeAdds config kernel pf (b, br) =
      br.member.entries.flatMap (memberAdds config kernel pf b) ++
        uplinkAdds config kernel (b, br) := by
  obtain ⟨names, own, uplinks, members, hnames, -, -, hmembers, -, -, -, hadds, -⟩ :=
    bridgePart_ok h
  simp only [bridgeAdds, h, hadds, uplinkAdds, uplinksOf_ok hnames]
  congr 1
  refine flatMap_of_forall₂ (hmembers.imp fun e mp hmp => ?_)
  rw [memberAdds, hmp]

/-! ## 4. What a member does to an anchor

Rules and tables separately, because the three kinds of op touch them differently: a load sets
both, a repair sets one table, a flush takes both away. -/

/-- The anchor carries the member's rules. -/
def RulesAt (config : Config) (m : String) (member : Member) (a : Option Pf.AnchorState) :
    Prop :=
  ∃ st, a = some st ∧ Carries config m member st

/-- The anchor has this table. -/
def TableAt (name : String) (ms : List String) (a : Option Pf.AnchorState) : Prop :=
  ∃ st, a = some st ∧ TableOk name ms st

theorem enforced_iff {m : String} {member : Member} {a : Option Pf.AnchorState} :
    Enforced config m member a ↔ RulesAt config m member a ∧
      ∀ name ms, (name, ms) ∈ tablesOf config member → TableAt name ms a := by
  unfold Enforced RulesAt TableAt
  constructor
  · rintro ⟨st, ha, hc, ht⟩
    exact ⟨⟨st, ha, hc⟩, fun name ms hin => ⟨st, ha, ht name ms hin⟩⟩
  · rintro ⟨⟨st, ha, hc⟩, ht⟩
    refine ⟨st, ha, hc, fun name ms hin => ?_⟩
    obtain ⟨st', ha', hok⟩ := ht name ms hin
    rw [ha] at ha'
    exact Option.some.inj ha' ▸ hok

/-- A load: the anchor carries what hashes like the loaded rules, and has the loaded tables. -/
theorem load_at {m : String} (member : Member) {member' : Member} (a : Option Pf.AnchorState)
    (htab : Pf.wantedTables (filterOf config member') config = .ok (tablesOf config member')) :
    (RulesAt config m member (anchorStep m a (loadFor config m member')) ↔
      hashFor config m member' = hashFor config m member) ∧
    ∀ name ms, ConfigTable config name ms →
      (TableAt name ms (anchorStep m a (loadFor config m member')) ↔
        (name, ms) ∈ tablesOf config member' ∨ ms.toFinset = ∅) := by
  have hstep : anchorStep m a (loadFor config m member') =
      some (Pf.AnchorState.mk true (some (hashFor config m member'))
        (Dict.ofList ((tablesOf config member').map fun t => (t.1, t.2.toFinset)))) := by
    rw [loadFor, anchorStep, if_pos rfl, render_tables htab]
    rfl
  rw [hstep]
  constructor
  · unfold RulesAt Carries
    constructor
    · rintro ⟨st, hst, -, hh⟩
      cases hst
      exact Option.some.inj hh
    · intro hh
      exact ⟨_, rfl, rfl, by rw [hh]⟩
  · intro name ms hconf
    have hnd : (((tablesOf config member').map fun t => (t.1, t.2.toFinset)).map
        Prod.fst).Nodup := by
      rw [List.map_map]
      exact nodup_tables htab
    have hget : ∀ s, (Dict.ofList ((tablesOf config member').map
        fun t => (t.1, t.2.toFinset))).get? name = some s ↔
        ∃ ms', (name, ms') ∈ tablesOf config member' ∧ ms'.toFinset = s := by
      intro s
      rw [Dict.get?_eq_some, Dict.entries_ofList hnd, List.mem_map]
      constructor
      · rintro ⟨⟨n, ms'⟩, hin, heq⟩
        obtain ⟨rfl, rfl⟩ := Prod.mk.inj heq
        exact ⟨ms', hin, rfl⟩
      · rintro ⟨ms', hin, rfl⟩
        exact ⟨(name, ms'), hin, rfl⟩
    unfold TableAt TableOk
    simp only [Option.some.injEq, exists_eq_left']
    cases hd : (Dict.ofList ((tablesOf config member').map
        fun t => (t.1, t.2.toFinset))).get? name with
    | none =>
      have hnot : (name, ms) ∉ tablesOf config member' := fun hin => by
        rw [(hget ms.toFinset).mpr ⟨ms, hin, rfl⟩] at hd
        exact absurd hd (by simp)
      simp [hnot]
    | some s =>
      obtain ⟨ms', hin, rfl⟩ := (hget s).mp hd
      obtain rfl := hconf.unique (configTable_of_mem hin)
      simp [hin]

/-- Repairs: the rules stay, and the repaired tables are right where there is an anchor. -/
theorem repairs_at {m : String} (member : Member) {ops : List Op}
    (hops : ∀ x ∈ ops, ∃ t ts, x = .replaceTable m t ts ∧ ConfigTable config t ts)
    (a : Option Pf.AnchorState) :
    (RulesAt config m member (ops.foldl (anchorStep m) a) ↔ RulesAt config m member a) ∧
    (ops.foldl (anchorStep m) a).isSome = a.isSome ∧
    ∀ name ms, ConfigTable config name ms →
      (TableAt name ms (ops.foldl (anchorStep m) a) ↔
        (.replaceTable m name ms ∈ ops ∧ a.isSome = true) ∨ TableAt name ms a) := by
  induction ops generalizing a with
  | nil => simp
  | cons x rest ih =>
    obtain ⟨t, ts, rfl, hts⟩ := hops x List.mem_cons_self
    obtain ⟨hrules, hsome, htables⟩ := ih (fun y hy => hops y (List.mem_cons_of_mem _ hy))
      (anchorStep m a (.replaceTable m t ts))
    have hstep : anchorStep m a (.replaceTable m t ts) =
        a.map fun st => { st with tables := st.tables.insert t ts.toFinset } := if_pos rfl
    have hisSome : (anchorStep m a (.replaceTable m t ts)).isSome = a.isSome := by
      rw [hstep, Option.isSome_map]
    rw [List.foldl_cons]
    refine ⟨hrules.trans ?_, hsome.trans hisSome, fun name ms hconf => ?_⟩
    · rw [hstep]
      unfold RulesAt Carries
      cases a <;> simp
    · rw [htables name ms hconf, hisSome]
      have hhead : TableAt name ms (anchorStep m a (.replaceTable m t ts)) ↔
          (Op.replaceTable m name ms = .replaceTable m t ts ∧ a.isSome = true) ∨
            TableAt name ms a := by
        rw [hstep]
        unfold TableAt TableOk
        cases a with
        | none => simp
        | some st =>
          by_cases hn : name = t
          · subst hn
            obtain rfl := hconf.unique hts
            simp
          · simp [hn]
      rw [hhead, List.mem_cons]
      tauto

theorem memberAdds_ok {b m : String} {member : Member} {part : MemberPart}
    (h : memberPart config kernel pf b (kernel.membersOf b).dedup m member = .ok part) :
    memberAdds config kernel pf b (m, member) = part.adds := by
  rw [memberAdds, h]

/-- A member of another name leaves the anchor alone, and is not the one that joins. -/
theorem memberAdds_other {b m : String} {e : String × Member} (he : e.1 ≠ m) {x : Op}
    (hx : x ∈ memberAdds config kernel pf b e) : x.anchorOf ≠ some m ∧ ∀ b', x ≠ .addMember b' m := by
  unfold memberAdds at hx
  split at hx
  · rename_i part hpart
    rcases (mem_memberPart hpart).mp hx with ⟨rfl, -⟩ | ⟨rfl, -⟩ | ⟨rfl, -⟩ | ⟨t, ms, rfl, -⟩ |
      ⟨bd, -, -, rfl⟩ <;> simp [Op.anchorOf, loadFor, he]
  · exact absurd hx List.not_mem_nil

section Member

variable {b m : String} {member : Member} {load : Option Op} {tops : List Op}

variable (kernel b) in
/-- The join of a member leaves the anchor as its load does, if the load is issued. -/
theorem joinOps_anchor (hpf : pfOpsFor m member config pf = .ok (load, tops))
    (a : Option Pf.AnchorState) :
    (Loads config kernel pf b m member → (joinOps kernel pf b m member load).foldl
      (anchorStep m) a = anchorStep m a (loadFor config m member)) ∧
    (¬ Loads config kernel pf b m member → (joinOps kernel pf b m member load).foldl
      (anchorStep m) a = a) := by
  have hload := fun x => pfOpsFor_load hpf (x := x)
  unfold joinOps Loads Joins
  cases load with
  | none =>
    have hno : ¬ (HasPolicy config member ∧ ¬ Surviving config pf m member) := fun hp =>
      absurd ((hload _).mpr ⟨hp.1, hp.2, rfl⟩) (by simp)
    refine ⟨fun hl => absurd ⟨hl.1, hl.2.1⟩ hno, fun _ => ?_⟩
    by_cases hm : m ∈ kernel
    · by_cases hc : m ∈ kernel.membersOf b <;> simp [hm, hc, anchorStep]
    · by_cases ht : member.type.isSome = true <;> simp [hm, ht, anchorStep]
  | some x =>
    obtain ⟨hp, hs, rfl⟩ := (hload x).mp rfl
    by_cases hm : m ∈ kernel
    · by_cases hc : m ∈ kernel.membersOf b
      · by_cases hpf : pf.isSome = true <;> simp [hm, hc, hpf, hp, hs]
      · simp [hm, hc, hp, hs, anchorStep]
    · by_cases ht : member.type.isSome = true <;> simp [hm, ht, hp, hs, anchorStep]

/-- The membership is the last op of a join. -/
theorem before_joinOps (hpf : pfOpsFor m member config pf = .ok (load, tops))
    {Q : Option Pf.AnchorState → Prop} (a : Option Pf.AnchorState) :
    Before (anchorStep m) (fun a x => x = .addMember b m → Q a)
        (joinOps kernel pf b m member load) a ↔
      (Joins kernel b m member → Q ((joinOps kernel pf b m member load).foldl
        (anchorStep m) a)) := by
  have hload : ∀ x, load = some x → x ≠ .addMember b m := by
    rintro x rfl
    obtain ⟨-, -, rfl⟩ := (pfOpsFor_load hpf).mp rfl
    exact fun h => absurd h (by simp [loadFor])
  unfold joinOps Joins
  by_cases hm : m ∈ kernel
  · by_cases hc : m ∈ kernel.membersOf b
    · by_cases hp : pf.isSome = true
      · cases load with
        | none => simp [hm, hc, Before]
        | some x => simp [hm, hc, hp, Before, hload x rfl]
      · simp [hm, hc, hp, Before]
    · cases load with
      | none => simp [hm, hc, Before, anchorStep]
      | some x => simp [hm, hc, Before, hload x rfl, anchorStep]
  · by_cases ht : member.type.isSome = true
    · cases load with
      | none => simp [hm, ht, Before, anchorStep]
      | some x => simp [hm, ht, Before, hload x rfl, anchorStep]
    · simp [hm, ht, Before]

/-- What follows the join of a member adds nothing to a bridge. -/
theorem before_rest (hpf : pfOpsFor m member config pf = .ok (load, tops))
    {Q : Option Pf.AnchorState → Prop} (a : Option Pf.AnchorState) :
    Before (anchorStep m) (fun a x => x = .addMember b m → Q a)
      (tops ++ lockOps kernel b m member) a := by
  refine before_of_forall fun x hx t hadd => ?_
  subst hadd
  rcases List.mem_append.mp hx with hx | hx
  · obtain ⟨t, ms, hx, -⟩ := (pfOpsFor_tables hpf).mp hx
    exact absurd hx (by simp)
  · obtain ⟨bd, -, -, hx⟩ := mem_lockOps.mp hx
    exact absurd hx (by simp)

end Member

/-- What a member does to its own anchor. -/
theorem memberAdds_at (h : diff config kernel pf = .ok p) {b m : String} {br : Bridge}
    (member : Member) {member' : Member} (hb : (b, br) ∈ config.bridge.entries)
    (hm : (m, member') ∈ br.member.entries) (a : Option Pf.AnchorState) :
    (RulesAt config m member
        ((memberAdds config kernel pf b (m, member')).foldl (anchorStep m) a) ↔
      (Loads config kernel pf b m member' ∧
        hashFor config m member' = hashFor config m member) ∨
      (¬ Loads config kernel pf b m member' ∧ RulesAt config m member a)) ∧
    (a.isSome = true →
      ((memberAdds config kernel pf b (m, member')).foldl (anchorStep m) a).isSome = true) ∧
    ∀ name ms, ConfigTable config name ms →
      (TableAt name ms ((memberAdds config kernel pf b (m, member')).foldl (anchorStep m) a) ↔
        (Loads config kernel pf b m member' ∧
          ((name, ms) ∈ tablesOf config member' ∨ ms.toFinset = ∅)) ∨
        (¬ Loads config kernel pf b m member' ∧
          ((Repairs config pf m member' name ms ∧ a.isSome = true) ∨ TableAt name ms a))) := by
  obtain ⟨mp, hmp⟩ := diff_member h hb hm
  obtain ⟨-, load, tops, hpf, hadds, -⟩ := memberPart_ok hmp
  rw [memberAdds_ok hmp, hadds, List.foldl_append, List.foldl_append]
  -- the locks leave the anchor alone
  have hlocks : ∀ s, (lockOps kernel b m member').foldl (anchorStep m) s = s := fun s =>
    foldl_still fun x hx t => by
      obtain ⟨bd, -, -, rfl⟩ := mem_lockOps.mp hx
      rfl
  have htops : ∀ x ∈ tops, ∃ t ts, x = .replaceTable m t ts ∧ ConfigTable config t ts := by
    intro x hx
    obtain ⟨t, ts, rfl, hr⟩ := (pfOpsFor_tables hpf).mp hx
    exact ⟨t, ts, rfl, configTable_of_mem hr.2.1⟩
  have hmem : ∀ name ms, .replaceTable m name ms ∈ tops ↔ Repairs config pf m member' name ms := by
    intro name ms
    rw [pfOpsFor_tables hpf]
    constructor
    · rintro ⟨t, ts, heq, hr⟩
      cases heq
      exact hr
    · exact fun hr => ⟨name, ms, rfl, hr⟩
  rw [hlocks]
  set mid := (joinOps kernel pf b m member' load).foldl (anchorStep m) a with hmid
  obtain ⟨hrules, hsome, htables⟩ := repairs_at member htops mid
  obtain ⟨hyes, hno⟩ := joinOps_anchor kernel b hpf a
  rw [hrules, hsome]
  by_cases hl : Loads config kernel pf b m member'
  · -- a loaded anchor is not repaired in the same round
    have hnorep : ∀ name ms, ¬ Repairs config pf m member' name ms := by
      rintro name ms ⟨-, -, anchors, st, h1, h2, h3, h4, -⟩
      exact hl.2.1 ⟨anchors, st, h1, h2, h3, h4⟩
    obtain ⟨hrl, htl⟩ := load_at (m := m) member a
      (diff_tables h hb hm hl.1)
    have heq : mid = anchorStep m a (loadFor config m member') := hyes hl
    refine ⟨?_, fun _ => ?_, fun name ms hconf => ?_⟩
    · rw [heq, hrl]
      simp [hl]
    · rw [heq, loadFor, anchorStep, if_pos rfl]
      rfl
    · rw [htables name ms hconf, hmem, heq, htl name ms hconf]
      simp [hl, hnorep]
  · have heq : mid = a := hno hl
    rw [heq]
    refine ⟨by simp [hl], fun ha => ha, fun name ms hconf => ?_⟩
    have ht := htables name ms hconf
    rw [heq, hmem] at ht
    rw [ht]
    simp [hl]

/-! ## 5. What a bridge does to an anchor

The members of a bridge have distinct names, so at most one of them speaks to the anchor. The
uplinks come after the members and load nothing. -/

omit [Hashlib] in
theorem uplinkAdds_other {e : String × Bridge} {m : String} {x : Op}
    (hx : x ∈ uplinkAdds config kernel e) : x.anchorOf ≠ some m := by
  obtain ⟨n, -, -, -, rfl⟩ := mem_uplinkParts.mp hx
  simp [Op.anchorOf]

variable (config kernel pf) in
/-- The members of a bridge around one of them. -/
theorem members_split (b : String) {m : String} {br : Bridge} {member : Member}
    (hm : (m, member) ∈ br.member.entries) :
    ∃ l₁ l₂, br.member.entries = l₁ ++ (m, member) :: l₂ ∧
      (∀ x ∈ l₁.flatMap (memberAdds config kernel pf b), x.anchorOf ≠ some m ∧
        ∀ b', x ≠ .addMember b' m) ∧
      ∀ x ∈ l₂.flatMap (memberAdds config kernel pf b), x.anchorOf ≠ some m ∧
        ∀ b', x ≠ .addMember b' m := by
  obtain ⟨l₁, l₂, hsplit⟩ := List.append_of_mem hm
  have hnd := br.member.nodup
  rw [hsplit, List.map_append, List.map_cons] at hnd
  obtain ⟨-, hnd2, hdis⟩ := List.nodup_append.mp hnd
  refine ⟨l₁, l₂, hsplit, fun x hx => ?_, fun x hx => ?_⟩
  · obtain ⟨e, he, hx⟩ := List.mem_flatMap.mp hx
    exact memberAdds_other (hdis e.1 (List.mem_map_of_mem he) m List.mem_cons_self) hx
  · obtain ⟨e, he, hx⟩ := List.mem_flatMap.mp hx
    refine memberAdds_other (fun heq => ?_) hx
    exact (List.nodup_cons.mp hnd2).1 (List.mem_map.mpr ⟨e, he, heq⟩)

/-- A bridge does to an anchor what its member of that name does. -/
theorem bridgeAdds_anchor (h : diff config kernel pf = .ok p) {b m : String} {br : Bridge}
    (hb : (b, br) ∈ config.bridge.entries) (a : Option Pf.AnchorState) :
    (bridgeAdds config kernel pf (b, br)).foldl (anchorStep m) a =
      match br.member.get? m with
      | some member => (memberAdds config kernel pf b (m, member)).foldl (anchorStep m) a
      | none => a := by
  obtain ⟨part, hpart⟩ := diff_round h hb
  rw [bridgeAdds_eq hpart, List.foldl_append,
    foldl_still fun x hx t => anchorStep_other (uplinkAdds_other hx)]
  cases hget : br.member.get? m with
  | none =>
    refine foldl_still fun x hx t => anchorStep_other ?_
    obtain ⟨e, he, hx⟩ := List.mem_flatMap.mp hx
    refine (memberAdds_other (fun heq => ?_) hx).1
    exact Dict.get?_eq_none.mp hget (Dict.mem_iff_entry.mpr ⟨e.2, heq ▸ he⟩)
  | some member =>
    obtain ⟨l₁, l₂, hsplit, h₁, h₂⟩ := members_split config kernel pf b
      (Dict.get?_eq_some.mp hget)
    rw [hsplit, List.flatMap_append, List.flatMap_cons, List.foldl_append, List.foldl_append,
      foldl_still fun x hx t => anchorStep_other (h₁ x hx).1,
      foldl_still fun x hx t => anchorStep_other (h₂ x hx).1]

/-- The anchor after the bridges of a pass is what walking back over them says. -/
theorem walk_at (h : diff config kernel pf = .ok p) (m : String) (member : Member)
    {l : List (String × Bridge)} (hl : ∀ e ∈ l, e ∈ config.bridge.entries) :
    (RulesAt config m member ((l.flatMap (bridgeAdds config kernel pf)).foldl (anchorStep m)
        (pf.bind (·.get? m))) ↔ RulesHeld config kernel pf m member l.reverse) ∧
    ((pf.bind (·.get? m)).isSome = true → ((l.flatMap (bridgeAdds config kernel pf)).foldl
        (anchorStep m) (pf.bind (·.get? m))).isSome = true) ∧
    ∀ name ms, ConfigTable config name ms →
      (TableAt name ms ((l.flatMap (bridgeAdds config kernel pf)).foldl (anchorStep m)
        (pf.bind (·.get? m))) ↔ TableHeld config kernel pf m name ms l.reverse) := by
  induction l using List.reverseRecOn with
  | nil =>
    refine ⟨?_, fun h => h, fun name ms _ => ?_⟩
    · unfold RulesAt RulesHeld Carries Surviving
      cases pf <;> simp
    · unfold TableAt TableHeld
      cases pf <;> simp
  | append_singleton l e ih =>
    obtain ⟨b, br⟩ := e
    obtain ⟨hrules, hsome, htables⟩ := ih fun e he => hl e (List.mem_append_left _ he)
    have hb := hl (b, br) (List.mem_append_right _ List.mem_cons_self)
    rw [List.flatMap_append, List.foldl_append, List.reverse_append, List.reverse_singleton,
      List.singleton_append, List.flatMap_singleton, bridgeAdds_anchor h hb]
    unfold RulesHeld TableHeld
    cases hget : br.member.get? m with
    | none => exact ⟨hrules, hsome, htables⟩
    | some member' =>
      obtain ⟨hr, hs, ht⟩ := memberAdds_at h member hb (Dict.get?_eq_some.mp hget)
        ((l.flatMap (bridgeAdds config kernel pf)).foldl (anchorStep m) (pf.bind (·.get? m)))
      refine ⟨hr.trans (by simp only [hrules]), fun hp => hs (hsome hp), fun name ms hconf => ?_⟩
      refine (ht name ms hconf).trans ?_
      simp only [htables name ms hconf]
      -- where a table is to be repaired there is an anchor
      have hrep : (Repairs config pf m member' name ms ∧
          ((l.flatMap (bridgeAdds config kernel pf)).foldl (anchorStep m)
            (pf.bind (·.get? m))).isSome = true) ↔ Repairs config pf m member' name ms := by
        refine and_iff_left_of_imp fun hr => hsome ?_
        obtain ⟨-, -, anchors, st, rfl, hst, -⟩ := hr
        simp [hst]
      rw [hrep]

/-- The ops of a bridge add to that bridge. -/
theorem bridgeAdds_other (h : diff config kernel pf = .ok p) {b m : String}
    {e : String × Bridge} (he : e ∈ config.bridge.entries) (hb : e.1 ≠ b) {x : Op}
    (hx : x ∈ bridgeAdds config kernel pf e) : x ≠ .addMember b m := by
  obtain ⟨part, hpart⟩ := diff_round h he
  rw [bridgeAdds_eq hpart, List.mem_append, List.mem_flatMap] at hx
  rcases hx with ⟨⟨m', member⟩, hm, hx⟩ | hx
  · obtain ⟨mp, hmp⟩ := diff_member h he hm
    rw [memberAdds_ok hmp] at hx
    rcases (mem_memberPart hmp).mp hx with ⟨rfl, -⟩ | ⟨rfl, -⟩ | ⟨rfl, -⟩ | ⟨t, ms, rfl, -⟩ |
      ⟨bd, -, -, rfl⟩ <;> simp [loadFor, hb]
  · obtain ⟨n, -, -, -, rfl⟩ := mem_uplinkParts.mp hx
    simp [hb]

/-- In the round of its bridge, an interface joins as a member and as an uplink. -/
theorem before_bridgeAdds (h : diff config kernel pf = .ok p) {b m : String} {br : Bridge}
    (hb : (b, br) ∈ config.bridge.entries) {Q : Option Pf.AnchorState → Prop}
    (a : Option Pf.AnchorState) :
    Before (anchorStep m) (fun a x => x = .addMember b m → Q a)
        (bridgeAdds config kernel pf (b, br)) a ↔
      (∀ own, (m, own) ∈ br.member.entries → Joins kernel b m own →
        (Loads config kernel pf b m own → Q (anchorStep m a (loadFor config m own))) ∧
        (¬ Loads config kernel pf b m own → Q a)) ∧
      (UplinkJoins config kernel b br m →
        Q ((bridgeAdds config kernel pf (b, br)).foldl (anchorStep m) a)) := by
  obtain ⟨part, hpart⟩ := diff_round h hb
  have hstill : ∀ x ∈ uplinkAdds config kernel (b, br), ∀ t, anchorStep m t x = t :=
    fun x hx t => anchorStep_other (uplinkAdds_other hx)
  -- the uplinks come last and change no anchor
  have hup : ∀ t, Before (anchorStep m) (fun a x => x = .addMember b m → Q a)
      (uplinkAdds config kernel (b, br)) t ↔ (UplinkJoins config kernel b br m → Q t) := by
    intro t
    rw [before_still hstill]
    constructor
    · rintro hall ⟨hin, hout, hmade⟩
      exact hall _ (mem_uplinkParts.mpr ⟨m, hin, hout, hmade, rfl⟩) rfl
    · rintro hq x hx rfl
      obtain ⟨n, hin, hout, hmade, heq⟩ := mem_uplinkParts.mp hx
      obtain ⟨-, rfl⟩ := Op.addMember.inj heq
      exact hq ⟨hin, hout, hmade⟩
  rw [bridgeAdds_eq hpart, before_append, hup, List.foldl_append, foldl_still hstill]
  refine and_congr_left fun _ => ?_
  cases hget : br.member.get? m with
  | none =>
    have hno : ∀ own, (m, own) ∉ br.member.entries := fun own hin =>
      Dict.get?_eq_none.mp hget (Dict.mem_iff_entry.mpr ⟨own, hin⟩)
    refine iff_of_true (before_of_forall fun x hx t hadd => ?_) fun own hin => absurd hin (hno own)
    obtain ⟨e, he, hx⟩ := List.mem_flatMap.mp hx
    have hne : e.1 ≠ m := by
      rintro rfl
      exact hno e.2 he
    exact absurd hadd ((memberAdds_other hne hx).2 b)
  | some member =>
    have hm := Dict.get?_eq_some.mp hget
    have hown : ∀ own, (m, own) ∈ br.member.entries ↔ own = member := by
      intro own
      rw [← Dict.get?_eq_some, hget, Option.some.injEq, eq_comm]
    obtain ⟨l₁, l₂, hsplit, h₁, h₂⟩ := members_split config kernel pf b hm
    obtain ⟨mp, hmp⟩ := diff_member h hb hm
    obtain ⟨-, load, tops, hpf, hadds, -⟩ := memberPart_ok hmp
    obtain ⟨hyes, hno⟩ := joinOps_anchor kernel b hpf a
    simp only [hown, forall_eq]
    rw [hsplit, List.flatMap_append, List.flatMap_cons, before_append, before_append,
      foldl_still fun x hx t => anchorStep_other (h₁ x hx).1, memberAdds_ok hmp, hadds,
      List.append_assoc, before_append, before_joinOps hpf]
    have hfirst : Before (anchorStep m) (fun a x => x = .addMember b m → Q a)
        (l₁.flatMap (memberAdds config kernel pf b)) a :=
      before_of_forall fun x hx t hadd => absurd hadd ((h₁ x hx).2 b)
    have hlast : ∀ t, Before (anchorStep m) (fun a x => x = .addMember b m → Q a)
        (l₂.flatMap (memberAdds config kernel pf b)) t := fun t =>
      before_of_forall fun x hx t hadd => absurd hadd ((h₂ x hx).2 b)
    simp only [hfirst, hlast, before_rest hpf, true_and, and_true]
    refine imp_congr_right fun _ => ?_
    by_cases hl : Loads config kernel pf b m member
    · simp [hl, hyes hl]
    · simp [hl, hno hl]

/-! ## 6. The pass

`before_ops` cuts the plan at a join and drops the phases that leave the anchor alone; what is
left is the walk. -/

/-- Only the adds phase joins, and before it nothing touches the anchor of a policied member. -/
theorem before_ops (h : diff config kernel pf = .ok p) {b m : String}
    (hm : m ∈ policied config) {Q : Option Pf.AnchorState → Prop}
    (a : Option Pf.AnchorState) :
    Before (anchorStep m) (fun a x => x = .addMember b m → Q a) p.ops a ↔
      Before (anchorStep m) (fun a x => x = .addMember b m → Q a) p.adds a := by
  obtain ⟨parts, hparts, rfl⟩ := diff_ok h
  have hcreates : ∀ x ∈ (assemble config kernel pf parts).creates,
      x.anchorOf ≠ some m ∧ x ≠ .addMember b m := by
    intro x hx
    obtain ⟨_, _, -, ⟨-, rfl⟩ | ⟨_, _, -, -, -, rfl⟩ | ⟨_, _, _, -, -, -, -, -, rfl⟩ |
      ⟨_, _, _, _, -, -, -, -, rfl⟩⟩ := (mem_creates hparts).mp hx <;> simp [Op.anchorOf]
  have hremoves : ∀ x ∈ (assemble config kernel pf parts).removes,
      x.anchorOf ≠ some m ∧ x ≠ .addMember b m := by
    intro x hx
    rcases mem_removes hparts hx with ⟨_, _, rfl, -⟩ | ⟨n, rfl, -, hn⟩
    · simp [Op.anchorOf]
    · refine ⟨fun heq => hn ?_, by simp⟩
      obtain rfl := Option.some.inj heq
      exact hm
  have hdestroys : ∀ x ∈ (assemble config kernel pf parts).destroys, x ≠ .addMember b m := by
    intro x hx
    rcases (mem_destroys hparts).mp hx with ⟨_, -, rfl⟩ | ⟨_, -, rfl | ⟨rfl, -⟩⟩ <;> simp
  unfold Plan.ops
  rw [before_append, before_append, before_append, List.foldl_append,
    foldl_still fun x hx t => anchorStep_other (hremoves x hx).1,
    foldl_still fun x hx t => anchorStep_other (hcreates x hx).1]
  have h₁ := before_of_forall (f := anchorStep m) (s := a)
    (P := fun a x => x = .addMember b m → Q a) fun x hx t hadd => absurd hadd (hcreates x hx).2
  have h₂ := before_of_forall (f := anchorStep m) (s := a)
    (P := fun a x => x = .addMember b m → Q a) fun x hx t hadd => absurd hadd (hremoves x hx).2
  have h₃ := fun s => before_of_forall (f := anchorStep m) (s := s)
    (P := fun a x => x = .addMember b m → Q a) fun x hx t hadd => absurd hadd (hdestroys x hx)
  simp only [h₁, h₂, h₃, true_and, and_true]

/-- Of the adds, those of the bridge itself. -/
theorem before_adds (h : diff config kernel pf = .ok p) {b m : String} {br : Bridge}
    {l₁ l₂ : List (String × Bridge)} (hsplit : config.bridge.entries = l₁ ++ (b, br) :: l₂)
    {Q : Option Pf.AnchorState → Prop} (a : Option Pf.AnchorState) :
    Before (anchorStep m) (fun a x => x = .addMember b m → Q a) p.adds a ↔
      Before (anchorStep m) (fun a x => x = .addMember b m → Q a)
        (bridgeAdds config kernel pf (b, br))
        ((l₁.flatMap (bridgeAdds config kernel pf)).foldl (anchorStep m) a) := by
  have hnd := config.bridge.nodup
  rw [hsplit, List.map_append, List.map_cons] at hnd
  obtain ⟨-, hnd2, hdis⟩ := List.nodup_append.mp hnd
  have h₁ : ∀ x ∈ l₁.flatMap (bridgeAdds config kernel pf), x ≠ .addMember b m := by
    intro x hx
    obtain ⟨e, he, hx⟩ := List.mem_flatMap.mp hx
    refine bridgeAdds_other h (hsplit ▸ List.mem_append_left _ he) ?_ hx
    exact hdis e.1 (List.mem_map_of_mem he) b List.mem_cons_self
  have h₂ : ∀ x ∈ l₂.flatMap (bridgeAdds config kernel pf), x ≠ .addMember b m := by
    intro x hx
    obtain ⟨e, he, hx⟩ := List.mem_flatMap.mp hx
    refine bridgeAdds_other h
      (hsplit ▸ List.mem_append_right _ (List.mem_cons_of_mem _ he)) (fun heq => ?_) hx
    exact (List.nodup_cons.mp hnd2).1 (List.mem_map.mpr ⟨e, he, heq⟩)
  have hfirst := before_of_forall (f := anchorStep m) (s := a)
    (P := fun a x => x = .addMember b m → Q a) fun x hx t hadd => absurd hadd (h₁ x hx)
  have hlast := fun s => before_of_forall (f := anchorStep m) (s := s)
    (P := fun a x => x = .addMember b m → Q a) fun x hx t hadd => absurd hadd (h₂ x hx)
  rw [adds_eq h, hsplit, List.flatMap_append, List.flatMap_cons, before_append, before_append]
  simp only [hfirst, hlast, true_and, and_true]

/-- What the anchor of a member is right by at the join of the name's entry `own`: the load of
that entry, or what stood before. -/
def JoinUpheld (config : Config) (kernel : KernelInterfaces) (pf : Option PfState)
    (b m : String) (own member : Member) (before : List (String × Bridge)) : Prop :=
  (Loads config kernel pf b m own ∧ hashFor config m own = hashFor config m member ∧
    ∀ name ms, (name, ms) ∈ tablesOf config member →
      (name, ms) ∈ tablesOf config own ∨ ms.toFinset = ∅) ∨
  (¬ Loads config kernel pf b m own ∧ Upheld config kernel pf m member before)

/-- Walking back says when the anchor is right after some bridges of a pass. -/
theorem enforced_walk (h : diff config kernel pf = .ok p) {m : String} {member : Member}
    {l : List (String × Bridge)} (hl : ∀ e ∈ l, e ∈ config.bridge.entries) :
    Enforced config m member ((l.flatMap (bridgeAdds config kernel pf)).foldl (anchorStep m)
      (pf.bind (·.get? m))) ↔ Upheld config kernel pf m member l.reverse := by
  obtain ⟨hrules, -, htables⟩ := walk_at h m member hl
  rw [enforced_iff, Upheld, hrules]
  exact and_congr_right fun _ => forall₂_congr fun name ms => imp_congr_right fun hin =>
    htables name ms (configTable_of_mem hin)

/-- One name at the bridge it joins. The anchor is right there, for the entry `member` of that
name, by what the name's own entry in the bridge loads or by what the bridges before left. -/
theorem enforced_at_join (h : diff config kernel pf = .ok p) {b m b' : String} {br br' : Bridge}
    {before after : List (String × Bridge)} {member : Member}
    (hsplit : config.bridge.entries = before ++ (b, br) :: after)
    (hb' : (b', br') ∈ config.bridge.entries) (hm' : (m, member) ∈ br'.member.entries)
    (hpol : Policied member) :
    (∀ pre post, p.ops = pre ++ .addMember b m :: post →
      Enforced config m member (anchorAfter pf m pre)) ↔
    (∀ own, (m, own) ∈ br.member.entries → Joins kernel b m own →
      JoinUpheld config kernel pf b m own member before.reverse) ∧
    (UplinkJoins config kernel b br m →
      Upheld config kernel pf m member ((b, br) :: before.reverse)) := by
  have hb : (b, br) ∈ config.bridge.entries :=
    hsplit ▸ List.mem_append_right _ List.mem_cons_self
  have hpre : ∀ e ∈ before, e ∈ config.bridge.entries := fun e he =>
    hsplit ▸ List.mem_append_left _ he
  have hcut : (∀ pre post, p.ops = pre ++ .addMember b m :: post →
      Enforced config m member (anchorAfter pf m pre)) ↔
      Before (anchorStep m) (fun a x => x = .addMember b m → Enforced config m member a)
        p.ops (pf.bind (·.get? m)) := by
    rw [before_iff]
    constructor
    · rintro hall pre x post hops rfl
      exact hall pre post hops
    · exact fun hall pre post hops => hall pre _ post hops rfl
  -- only the adds touch the anchor before the join: those of the bridges before, then its own
  rw [hcut, before_ops h (policied_of_mem hb' hm' hpol), before_adds h hsplit,
    before_bridgeAdds h hb]
  refine and_congr (forall₃_congr fun own hown hj => ?_) (imp_congr_right fun _ => ?_)
  · -- the join is in the round of `b`: either its own load is just before it, or none is
    by_cases hl : Loads config kernel pf b m own
    · obtain ⟨hrules, htables⟩ := load_at (m := m) member
        ((before.flatMap (bridgeAdds config kernel pf)).foldl (anchorStep m)
          (pf.bind (·.get? m))) (diff_tables h hb hown hl.1)
      simp only [JoinUpheld, hl, true_and, not_true_eq_false, false_and, or_false, forall_const,
        false_implies, and_true, enforced_iff, hrules]
      exact and_congr_right fun _ => forall₂_congr fun name ms => imp_congr_right fun hin =>
        htables name ms (configTable_of_mem hin)
    · simp only [JoinUpheld, hl, false_and, not_false_eq_true, true_and, false_or,
        false_implies, forall_const]
      exact enforced_walk h hpre
  · rw [← List.foldl_append, ← List.flatMap_singleton (bridgeAdds config kernel pf) (b, br),
      ← List.flatMap_append, enforced_walk h (l := before ++ [(b, br)]) ?_, List.reverse_append,
      List.reverse_singleton, List.singleton_append]
    intro e he
    rcases List.mem_append.mp he with he | he
    · exact hpre e he
    · exact List.mem_singleton.mp he ▸ hb

/-- **Policy precedes membership**, exactly where the condition on the right holds: a policied
member that joins without a load of its own keeps an anchor that was right before. -/
theorem policy_first_iff (h : diff config kernel pf = .ok p) :
    (∀ b m b' br' member, (b', br') ∈ config.bridge.entries →
      (m, member) ∈ br'.member.entries → Policied member →
      ∀ pre post, p.ops = pre ++ .addMember b m :: post →
        Enforced config m member (anchorAfter pf m pre)) ↔
    ∀ before b br after m b' br' member,
      config.bridge.entries = before ++ (b, br) :: after →
      (b', br') ∈ config.bridge.entries → (m, member) ∈ br'.member.entries → Policied member →
      (∀ own, (m, own) ∈ br.member.entries → Joins kernel b m own →
        JoinUpheld config kernel pf b m own member before.reverse) ∧
      (UplinkJoins config kernel b br m →
        Upheld config kernel pf m member ((b, br) :: before.reverse)) := by
  constructor
  · intro hall before b br after m b' br' member hsplit hb' hm' hpol
    exact (enforced_at_join h hsplit hb' hm' hpol).mp (hall b m b' br' member hb' hm' hpol)
  · intro hall b m b' br' member hb' hm' hpol pre post hops
    -- the bridge an op adds to is in the config
    have hin : .addMember b m ∈ p.ops := by rw [hops]; simp
    obtain ⟨br, hbr, -⟩ := (mem_ops h).mp hin
    obtain ⟨before, after, hsplit⟩ := List.append_of_mem hbr
    exact (enforced_at_join h hsplit hb' hm' hpol).mpr
      (hall before b br after m b' br' member hsplit hb' hm' hpol) pre post hops

/-! ### A name claimed once

Walking back finds nothing when no other bridge has the name, and the condition comes down to the
name's own entry and what `pf_state` reported of it. -/

/-- No bridge but this one has the name among its members, and this one has no uplink of it. -/
structure ClaimedAt (config : Config) (kernel : KernelInterfaces) (b m : String) (br : Bridge) :
    Prop where
  elsewhere : ∀ e ∈ config.bridge.entries, e.1 ≠ b → e.2.member.get? m = none
  uplink : ¬ UplinkJoins config kernel b br m

/-- The anchor that the pass saw has every table of the member as the config has it. -/
def TablesKept (config : Config) (pf : Option PfState) (m : String) (member : Member) : Prop :=
  ∀ name ms, (name, ms) ∈ tablesOf config member →
    ∃ anchors st, pf = some anchors ∧ anchors.get? m = some st ∧ TableOk name ms st

theorem upheld_unclaimed {m : String} {member : Member} {before : List (String × Bridge)}
    (hno : ∀ e ∈ before, e.2.member.get? m = none) :
    Upheld config kernel pf m member before ↔
      Surviving config pf m member ∧ TablesKept config pf m member := by
  have hrules : RulesHeld config kernel pf m member before ↔ Surviving config pf m member := by
    induction before with
    | nil => rfl
    | cons e rest ih =>
      rw [RulesHeld, hno e List.mem_cons_self]
      exact ih fun o ho => hno o (List.mem_cons_of_mem _ ho)
  have htables : ∀ name ms, TableHeld config kernel pf m name ms before ↔
      ∃ anchors st, pf = some anchors ∧ anchors.get? m = some st ∧ TableOk name ms st := by
    intro name ms
    clear hrules
    induction before with
    | nil => rfl
    | cons e rest ih =>
      rw [TableHeld, hno e List.mem_cons_self]
      exact ih fun o ho => hno o (List.mem_cons_of_mem _ ho)
  unfold Upheld TablesKept
  simp only [hrules, htables]

/-- A name claimed once joins under its policy exactly when it is loaded there, or its surviving
anchor has the config's tables. -/
theorem enforced_at_join_once (h : diff config kernel pf = .ok p) {b m : String} {br : Bridge}
    {member : Member} (hb : (b, br) ∈ config.bridge.entries)
    (hm : (m, member) ∈ br.member.entries) (hpol : Policied member)
    (honce : ClaimedAt config kernel b m br) :
    (∀ pre post, p.ops = pre ++ .addMember b m :: post →
      Enforced config m member (anchorAfter pf m pre)) ↔
    (Joins kernel b m member → Loads config kernel pf b m member ∨
      (Surviving config pf m member ∧ TablesKept config pf m member)) := by
  obtain ⟨before, after, hsplit⟩ := List.append_of_mem hb
  have hnd := config.bridge.nodup
  rw [hsplit, List.map_append, List.map_cons] at hnd
  have hbefore : ∀ e ∈ before.reverse, e.2.member.get? m = none := by
    intro e he
    have he' := List.mem_reverse.mp he
    refine honce.elsewhere e (hsplit ▸ List.mem_append_left _ he') ?_
    exact (List.nodup_append.mp hnd).2.2 e.1 (List.mem_map_of_mem he') b List.mem_cons_self
  have hown : ∀ own, (m, own) ∈ br.member.entries ↔ own = member := by
    intro own
    rw [← Dict.get?_eq_some, Dict.get?_eq_some.mpr hm, Option.some.injEq, eq_comm]
  rw [enforced_at_join h hsplit hb hm hpol, and_iff_left (fun hup => absurd hup honce.uplink)]
  simp only [hown, forall_eq]
  refine imp_congr_right fun _ => ?_
  unfold JoinUpheld
  rw [upheld_unclaimed hbefore]
  constructor
  · rintro (⟨hload, -, -⟩ | ⟨-, hkept⟩)
    · exact Or.inl hload
    · exact Or.inr hkept
  · rintro (hload | hkept)
    · exact Or.inl ⟨hload, rfl, fun _ _ hin => Or.inl hin⟩
    · exact Or.inr ⟨fun hload => hload.2.1 hkept.1, hkept⟩

/-- On a host the same, of the anchor itself: the ops before the join run, and the anchor is
read when the member opens. -/
theorem host_enforced_at_join_once {host : Host}
    (h : diff config host.kernel (some host.anchors) = .ok p) {b m : String} {br : Bridge}
    {member : Member} (hb : (b, br) ∈ config.bridge.entries)
    (hm : (m, member) ∈ br.member.entries) (hpol : Policied member)
    (honce : ClaimedAt config host.kernel b m br) :
    (∀ pre post, p.ops = pre ++ .addMember b m :: post →
      Enforced config m member ((host.run pre).anchor m)) ↔
    (Joins host.kernel b m member → Loads config host.kernel (some host.anchors) b m member ∨
      (Surviving config (some host.anchors) m member ∧
        TablesKept config (some host.anchors) m member)) := by
  simp only [run_anchor]
  exact enforced_at_join_once h hb hm hpol honce

end

/-! ## 7. An anchor with an old table

The tap is owned and outside its bridge, its anchor has the right hash and a table with an old
address. The pass joins it first and repairs the table after. -/

/-- The tap of port `0`, open to the addresses of one table. -/
def tabledMember : Member := { type := some .tap, filter := some "sg-0" }

def tabledConfig : Config :=
  { bridge := ⟨[("pbaaa", { member := ⟨[("tap0", tabledMember)], by decide⟩ })], by decide⟩
    table := ⟨[("rg-0", { members := ["10.0.0.1"] })], by decide⟩
    filter := ⟨[("sg-0",
      { in_ := ⟨[(100, { action := .pass, from_ := "@rg-0" })], by decide⟩ })], by decide⟩ }

/-- The tap exists, outside its bridge. -/
def tabledKernel : KernelInterfaces :=
  { interfaces := ⟨[
      ("pbaaa", { name := "pbaaa", groups := ["bridge", OWNED_GROUP], maxaddr := some 2000 }),
      ("tap0", { name := "tap0", groups := ["tap", OWNED_GROUP] })], by decide⟩
    owned := ["pbaaa", "tap0"] }

/-- Its anchor has the right rules, and lets in an address the table no longer holds. -/
def tabledAnchors [Hashlib] : PfState :=
  ⟨[("tap0",
      { isLoaded := true
        cfgHash := some (hashFor tabledConfig "tap0" tabledMember)
        tables := ⟨[("rg-0", {"10.0.0.9"})], by decide⟩ })], by simp⟩

/-- The tap joins before its table is repaired. -/
def tabledPlan : Plan :=
  { adds := [.addMember "pbaaa" "tap0", .replaceTable "tap0" "rg-0" ["10.0.0.1"]] }

theorem diff_tabled : @diff ⟨id⟩ tabledConfig tabledKernel (some (@tabledAnchors ⟨id⟩)) =
    .ok tabledPlan := by decide +kernel

/-- A policied member can join under an anchor that is not the config's. -/
theorem policy_not_first : ¬ ∀ (_ : Hashlib) (config : Config) (kernel : KernelInterfaces)
    (pf : Option PfState) (p : Plan), Consistent kernel → diff config kernel pf = .ok p →
      ∀ b m b' br' member, (b', br') ∈ config.bridge.entries →
        (m, member) ∈ br'.member.entries → Policied member →
        ∀ pre post, p.ops = pre ++ .addMember b m :: post →
          Enforced config m member (anchorAfter pf m pre) := by
  intro hall
  obtain ⟨st, hst, -, htables⟩ := hall ⟨id⟩ tabledConfig tabledKernel
    (some (@tabledAnchors ⟨id⟩)) tabledPlan
    { bridgeless := by
        intro b i m j hi _ hm
        rw [Dict.get?_eq_some] at hi
        simp [tabledKernel] at hi
        rcases hi with ⟨-, rfl⟩ | ⟨-, rfl⟩ <;> exact absurd hm List.not_mem_nil
      locked := by simp [tabledKernel, KernelInterfaces.staticLock, KernelInterfaces.lockIn] }
    diff_tabled "pbaaa" "tap0" "pbaaa" _ tabledMember List.mem_cons_self List.mem_cons_self
    (Or.inl rfl) [] [.replaceTable "tap0" "rg-0" ["10.0.0.1"]] rfl
  obtain rfl := Option.some.inj hst
  have hold := htables "rg-0" ["10.0.0.1"] (by decide +kernel)
  exact absurd hold (by unfold TableOk; decide +kernel)

theorem policy_first_iff_tabled :
    (∀ b m b' br' member, (b', br') ∈ tabledConfig.bridge.entries →
      (m, member) ∈ br'.member.entries → Policied member →
      ∀ pre post, tabledPlan.ops = pre ++ .addMember b m :: post →
        @Enforced ⟨id⟩ tabledConfig m member
          (anchorAfter (some (@tabledAnchors ⟨id⟩)) m pre)) ↔
    ∀ before b br after m b' br' member,
      tabledConfig.bridge.entries = before ++ (b, br) :: after →
      (b', br') ∈ tabledConfig.bridge.entries → (m, member) ∈ br'.member.entries →
      Policied member →
      (∀ own, (m, own) ∈ br.member.entries → Joins tabledKernel b m own →
        @JoinUpheld ⟨id⟩ tabledConfig tabledKernel (some (@tabledAnchors ⟨id⟩)) b m own member
          before.reverse) ∧
      (UplinkJoins tabledConfig tabledKernel b br m →
        @Upheld ⟨id⟩ tabledConfig tabledKernel (some (@tabledAnchors ⟨id⟩)) m member
          ((b, br) :: before.reverse)) :=
  @policy_first_iff ⟨id⟩ _ _ _ _ diff_tabled

end Planner

end Bsdbridge
