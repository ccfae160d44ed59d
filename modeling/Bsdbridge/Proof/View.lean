import Bsdbridge.Proof.Refusal

/-!
# What the planner looks up

`diff` is given a view of the kernel, not the kernel, and looks up few names in it: those its
config claims, the owned ones, and the members of what it has found. A view that answers those
lookups as the kernel does gives the same plan, but for the order in which things are torn down
(**`diff_view`**).

A `View` may be anything in between. It has what is looked up, and beyond that whatever it likes,
as long as it is true of the kernel: the reader, which asks for members as well as for names, comes
to have interfaces that nobody looks up. Anchors are treated in the same way (`Sees`): a reading
has every loaded one, with the same hash and the same tables, and may have or lack those that are
not loaded.

Two plans are the same (`SamePlan`) when each phase holds the same ops, creates and adds in the
same order. The removes and destroys are collected by walks over the view's interfaces, whose order
depends on the order of reading. Those two phases only take things away, and by `Proof/Alike` their
order does not show in what they spare.
-/

set_option autoImplicit false

namespace Bsdbridge

namespace Planner

theorem mapM_congr_left {ε α β : Type} {f g : α → Except ε β} {l : List α}
    (h : ∀ a ∈ l, f a = g a) : l.mapM f = l.mapM g := by
  induction l with
  | nil => rfl
  | cons a t ih =>
    rw [List.mapM_cons, List.mapM_cons, h a List.mem_cons_self,
      ih fun b hb => h b (List.mem_cons_of_mem _ hb)]

/-! ## 1. Views -/

/-- A view of the kernel that has whatever a pass over a config looks up. -/
structure View (config : Config) (view kernel : KernelInterfaces) : Prop where
  claimed : ∀ n, n ∈ config.bridge ∨ n ∈ claimed config →
    view.interfaces.get? n = kernel.interfaces.get? n
  grouped : ∀ n ∈ kernel.owned, view.interfaces.get? n = kernel.interfaces.get? n
  members : ∀ b i m, b ∈ config.bridge ∨ b ∈ kernel.owned → view.interfaces.get? b = some i →
    m ∈ i.members → view.interfaces.get? m = kernel.interfaces.get? m
  sub : ∀ n i, view.interfaces.get? n = some i → kernel.interfaces.get? n = some i
  owned : view.owned = kernel.owned
  addrs : ∀ b ∈ config.bridge, (∀ i, view.interfaces.get? b = some i → i.isBridge = true) →
    ∀ m, view.staticLock b m = kernel.staticLock b m

/-- Two readings of an anchor that do not differ. -/
structure SameAnchor (a b : Pf.AnchorState) : Prop where
  hash : a.cfgHash = b.cfgHash
  tables : ∀ t, a.tables.get? t = b.tables.get? t

/-- The loaded anchor of an interface. -/
def loadedAt (pf : PfState) (n : String) : Option Pf.AnchorState :=
  (pf.get? n).filter (·.isLoaded)

/-- A reading of the anchors that has every loaded one. -/
def Sees (pf anchors : PfState) : Prop :=
  ∀ n, Option.Rel SameAnchor (loadedAt pf n) (loadedAt anchors n)

/-! ## 2. One lookup after the other

Each function of the planner, in the order of its calls, for a view and the kernel side by side. -/

section

variable {config : Config} {view kernel : KernelInterfaces} {pf anchors : PfState} {n : String}

theorem mem_congr (h : view.interfaces.get? n = kernel.interfaces.get? n) :
    n ∈ view ↔ n ∈ kernel := by
  rw [← KernelInterfaces.mem_interfaces, ← KernelInterfaces.mem_interfaces, Dict.mem_iff_get?,
    Dict.mem_iff_get?, h]

theorem ownedName_congr (h : view.interfaces.get? n = kernel.interfaces.get? n) :
    view.ownedName n = kernel.ownedName n := by
  unfold KernelInterfaces.ownedName
  rw [h]

theorem membersOf_congr (h : view.interfaces.get? n = kernel.interfaces.get? n) :
    view.membersOf n = kernel.membersOf n := by
  unfold KernelInterfaces.membersOf
  rw [h]

theorem bridgeOp_congr {br : Bridge}
    (h : view.interfaces.get? n = kernel.interfaces.get? n) :
    bridgeOp view n br = bridgeOp kernel n br := by
  unfold bridgeOp
  rw [h]

theorem segmentCreates_congr {seg : Option Segment} {names : List String}
    (h : ∀ n ∈ names, n ∈ view ↔ n ∈ kernel) :
    segmentCreates seg names view = segmentCreates seg names kernel := by
  unfold segmentCreates uplinkCreates
  cases seg with
  | none => rfl
  | some s =>
    cases hvx : s.vxlan with
    | some vx =>
      simp only [hvx]
      congr 1
      refine List.filterMap_congr fun np hnp => ?_
      simp only [h np.1 (List.of_mem_zip hnp).1]
    | none =>
      cases hvl : s.vlan with
      | none => simp only [hvx, hvl]
      | some vid =>
        simp only [hvx, hvl]
        cases names with
        | nil => rfl
        | cons name rest => simp only [h name List.mem_cons_self]

theorem presence_congr {b : String} {cur : List String} {member : Member} {load : Option Op}
    (h : view.interfaces.get? n = kernel.interfaces.get? n) :
    presence view b cur n member load = presence kernel b cur n member load := by
  unfold presence
  simp only [mem_congr h, ownedName_congr h]

theorem uplinkPart_congr {b : String} {cur : List String} {made : Bool}
    (h : view.interfaces.get? n = kernel.interfaces.get? n) :
    uplinkPart view b cur made n = uplinkPart kernel b cur made n := by
  unfold uplinkPart
  simp only [mem_congr h]

theorem lockOps_congr {b m : String} {member : Member}
    (h : view.staticLock b m = kernel.staticLock b m) :
    lockOps view b m member = lockOps kernel b m member := by
  unfold lockOps
  rw [h]

theorem loadedAt_cases (pf : PfState) (n : String) :
    (loadedAt pf n = none ∧ ∀ st, pf.get? n = some st → st.isLoaded = false) ∨
      ∃ st, loadedAt pf n = some st ∧ pf.get? n = some st ∧ st.isLoaded = true := by
  unfold loadedAt
  cases hst : pf.get? n with
  | none => exact Or.inl ⟨rfl, fun st h => absurd h (by simp)⟩
  | some st =>
    cases hl : st.isLoaded with
    | true => exact Or.inr ⟨st, by simp [hl], rfl, hl⟩
    | false => exact Or.inl ⟨by simp [hl], fun st' h => Option.some.inj h ▸ hl⟩

theorem loaded_iff : Loaded (some pf) n ↔ ∃ st, loadedAt pf n = some st := by
  unfold Loaded
  rcases loadedAt_cases pf n with ⟨hat, hun⟩ | ⟨st, hat, hst, hl⟩
  · refine iff_of_false ?_ (by simp [hat])
    rintro ⟨pf', st, hpf, hst, hl⟩
    obtain rfl := Option.some.inj hpf
    rw [hun st hst] at hl
    exact absurd hl (by decide)
  · exact iff_of_true ⟨pf, st, rfl, hst, hl⟩ ⟨st, hat⟩

theorem Sees.loaded (h : Sees pf anchors) : Loaded (some pf) n ↔ Loaded (some anchors) n := by
  rw [loaded_iff, loaded_iff]
  have hn := h n
  generalize loadedAt pf n = x at hn
  generalize loadedAt anchors n = y at hn
  cases hn with
  | none => exact Iff.rfl
  | some _ => exact iff_of_true ⟨_, rfl⟩ ⟨_, rfl⟩

variable [Hashlib]

theorem pfOpsFor_congr {m : String} {member : Member} (h : Sees pf anchors) :
    pfOpsFor m member config (some pf) = pfOpsFor m member config (some anchors) := by
  have hm := h m
  unfold pfOpsFor
  simp only
  by_cases hno : ((filterOf config member).isNone && member.bind.isNone) = true
  · rw [if_pos hno, if_pos hno]
  rw [if_neg hno, if_neg hno]
  congr 1
  funext tables
  rcases loadedAt_cases pf m with ⟨hat, hun⟩ | ⟨st, hat, hst, hl⟩
  · rcases loadedAt_cases anchors m with ⟨-, hun'⟩ | ⟨st', hat', -, -⟩
    · -- an anchor that is not loaded is as good as none
      cases hst : pf.get? m with
      | none =>
        cases hst' : anchors.get? m with
        | none => rfl
        | some st' => simp [hun' st' hst']
      | some st =>
        cases hst' : anchors.get? m with
        | none => simp [hun st hst]
        | some st' => simp [hun st hst, hun' st' hst']
    · rw [hat, hat'] at hm
      cases hm
  · rcases loadedAt_cases anchors m with ⟨hat', -⟩ | ⟨st', hat', hst', hl'⟩
    · rw [hat, hat'] at hm
      cases hm
    · rw [hat, hat'] at hm
      cases hm with
      | some hsame => simp only [hst, hst', hl, hl', hsame.hash, hsame.tables]

theorem memberPart_congr {b m : String} {cur : List String} {member : Member}
    (h : Sees pf anchors) (hm : view.interfaces.get? m = kernel.interfaces.get? m)
    (hlock : view.staticLock b m = kernel.staticLock b m) :
    memberPart config view (some pf) b cur m member =
      memberPart config kernel (some anchors) b cur m member := by
  unfold memberPart
  rw [pfOpsFor_congr h]
  simp only [presence_congr hm, mem_congr hm, lockOps_congr hlock, Option.isSome_some]

/-! ## 3. One round after the other -/

/-- **A round of the bridge loop** sees no difference. -/
theorem bridgePart_congr (hv : View config view kernel) (h : Sees pf anchors) {b : String}
    {br : Bridge} (hb : (b, br) ∈ config.bridge.entries) :
    bridgePart config view (some pf) b br = bridgePart config kernel (some anchors) b br := by
  have hget := hv.claimed b (Or.inl (Dict.mem_of_entry hb))
  have hclaims : ∀ n ∈ claimsOf config b br,
      view.interfaces.get? n = kernel.interfaces.get? n := fun n hn =>
    hv.claimed n (Or.inr (mem_claimed.mpr ⟨b, br, hb, hn⟩))
  unfold bridgePart
  cases hnames : uplinkNames b br config with
  | error e => rfl
  | ok names =>
    have hups : ∀ n ∈ names, view.interfaces.get? n = kernel.interfaces.get? n := fun n hn =>
      hclaims n (List.mem_append_left _ (uplinksOf_ok hnames ▸ hn))
    have hseg : segmentCreates br.segment names view = segmentCreates br.segment names kernel :=
      segmentCreates_congr fun n hn => mem_congr (hups n hn)
    simp only [Except.ok_bind, bridgeOp_congr hget, hseg, membersOf_congr hget]
    cases hown : bridgeOp kernel b br with
    | error e => rfl
    | ok own =>
      -- the bridge is absent or one of ours, so its address table is as the kernel has it
      have hlock : ∀ m, view.staticLock b m = kernel.staticLock b m := by
        refine hv.addrs b (Dict.mem_of_entry hb) fun i hi => ?_
        exact (bridgeOp_owned hown (hv.sub b i hi)).1
      have hmembers : (br.member.entries.mapM fun e =>
            memberPart config view (some pf) b (kernel.membersOf b).dedup e.1 e.2) =
          br.member.entries.mapM fun e =>
            memberPart config kernel (some anchors) b (kernel.membersOf b).dedup e.1 e.2 := by
        refine mapM_congr_left fun e he => memberPart_congr h ?_ (hlock e.1)
        exact hclaims e.1 (List.mem_append_right _ (Dict.mem_of_entry he))
      have huplinks : names.map (uplinkPart view b (kernel.membersOf b).dedup
            (manufactures br.segment)) =
          names.map (uplinkPart kernel b (kernel.membersOf b).dedup
            (manufactures br.segment)) :=
        List.map_congr_left fun n hn => uplinkPart_congr (hups n hn)
      have hevicted : ∀ l : List String, (∀ m ∈ l, m ∈ kernel.membersOf b) →
          l.filter view.ownedName = l.filter kernel.ownedName := by
        intro l hl
        refine List.filter_congr fun m hm => ownedName_congr ?_
        obtain ⟨i, hi, hmi⟩ := KernelInterfaces.exists_of_member (hl m hm)
        exact hv.members b i m (Or.inl (Dict.mem_of_entry hb)) (hget.trans hi) hmi
      simp only [Except.ok_bind, hmembers, huplinks, hevicted _ fun m hm =>
        List.mem_dedup.mp (List.mem_of_mem_filter hm)]

/-! ## 4. The teardown

The walks are turned into membership first (`Proof/Teardown`), because as folds they differ. -/

omit [Hashlib] in
theorem View.consistent (hv : View config view kernel) (hk : Consistent kernel) {b m : String}
    {i j : Interface} (hi : view.interfaces.get? b = some i) (hb : i.isBridge = true)
    (hm : m ∈ i.members) (hj : view.interfaces.get? m = some j) : j.isBridge = false :=
  hk.bridgeless b i m j (hv.sub b i hi) hb hm (hv.sub m j hj)

omit [Hashlib] in
/-- Where no bridge is a member, an owned interface goes down with any unwanted bridge. -/
theorem tornDown_iff (hk : ∀ b i m j, kernel.interfaces.get? b = some i → i.isBridge = true →
      m ∈ i.members → kernel.interfaces.get? m = some j → j.isBridge = false) :
    TornDown config kernel n ↔ kernel.ownedName n = true ∧
      ∃ b i, b ∉ config.bridge ∧ kernel.interfaces.get? b = some i ∧ i.isBridge = true ∧
        i.isOwned = true ∧ n ∈ i.members := by
  unfold TornDown
  refine and_congr_right fun howned => ?_
  constructor
  · rintro ⟨pre, ⟨b, i⟩, post, hsplit, hm, -⟩
    have hmem : (b, i) ∈ unwanted config kernel := by
      rw [hsplit]
      exact List.mem_append_right _ List.mem_cons_self
    obtain ⟨hb, hi, hbr, ho⟩ := mem_unwanted.mp hmem
    exact ⟨b, i, hb, hi, hbr, ho, hm⟩
  · rintro ⟨b, i, hb, hi, hbr, ho, hm⟩
    refine firstHeld_of_mem ?_ (mem_unwanted.mpr ⟨hb, hi, hbr, ho⟩) hm
    rintro ⟨-, j, hj, hjb, -⟩
    exact absurd ((hk b i n j hi hbr hm hj).symm.trans hjb) (by decide)

section

variable (hv : View config view kernel) (hg : kernel.Grouped)

include hv

omit [Hashlib] in
theorem View.evicted : Evicted config view n ↔ Evicted config kernel n := by
  unfold Evicted
  have hround : ∀ b br, (b, br) ∈ config.bridge.entries → n ∈ kernel.membersOf b →
      view.ownedName n = kernel.ownedName n := by
    intro b br hb hm
    have hget := hv.claimed b (Or.inl (Dict.mem_of_entry hb))
    obtain ⟨i, hi, hmi⟩ := KernelInterfaces.exists_of_member hm
    exact ownedName_congr (hv.members b i n (Or.inl (Dict.mem_of_entry hb)) (hget.trans hi) hmi)
  constructor
  · rintro ⟨ho, b, br, hb, hm, hc⟩
    rw [membersOf_congr (hv.claimed b (Or.inl (Dict.mem_of_entry hb)))] at hm
    rw [hround b br hb hm] at ho
    exact ⟨ho, b, br, hb, hm, hc⟩
  · rintro ⟨ho, b, br, hb, hm, hc⟩
    rw [← hround b br hb hm] at ho
    rw [← membersOf_congr (hv.claimed b (Or.inl (Dict.mem_of_entry hb)))] at hm
    exact ⟨ho, b, br, hb, hm, hc⟩

omit [Hashlib] in
theorem View.orphan : Orphan config view n ↔ Orphan config kernel n := by
  unfold Orphan
  rw [hv.owned]
  refine and_congr_right fun hn => ?_
  rw [hv.grouped n hn]

include hg

omit [Hashlib] in
/-- Every owned interface is in the view. -/
theorem View.get?_owned {i : Interface} (hi : kernel.interfaces.get? n = some i)
    (ho : i.isOwned = true) : view.interfaces.get? n = some i := by
  rw [hv.grouped n ((hg n).mpr (KernelInterfaces.ownedName_iff.mpr ⟨i, hi, ho⟩)), hi]

omit [Hashlib] in
theorem View.unwanted : Unwanted config view n ↔ Unwanted config kernel n := by
  unfold Unwanted
  refine and_congr_right fun _ => ?_
  constructor
  · rintro ⟨i, hi, hb, ho⟩
    exact ⟨i, hv.sub n i hi, hb, ho⟩
  · rintro ⟨i, hi, hb, ho⟩
    exact ⟨i, hv.get?_owned hg hi ho, hb, ho⟩

omit [Hashlib] in
theorem View.tornDown (hk : Consistent kernel) :
    TornDown config view n ↔ TornDown config kernel n := by
  rw [tornDown_iff hk.bridgeless,
    tornDown_iff fun b i m j hi hb hm hj => hv.consistent hk hi hb hm hj]
  have howned : ∀ b i, kernel.interfaces.get? b = some i → i.isOwned = true →
      b ∈ kernel.owned := fun b i hi ho =>
    (hg b).mpr (KernelInterfaces.ownedName_iff.mpr ⟨i, hi, ho⟩)
  constructor
  · rintro ⟨hon, b, i, hb, hi, hbr, ho, hm⟩
    have hki := hv.sub b i hi
    rw [ownedName_congr (hv.members b i n (Or.inr (howned b i hki ho)) hi hm)] at hon
    exact ⟨hon, b, i, hb, hki, hbr, ho, hm⟩
  · rintro ⟨hon, b, i, hb, hi, hbr, ho, hm⟩
    have hvi := hv.get?_owned hg hi ho
    rw [← ownedName_congr (hv.members b i n (Or.inr (howned b i hi ho)) hvi hm)] at hon
    exact ⟨hon, b, i, hb, hvi, hbr, ho, hm⟩

omit [Hashlib] in
theorem View.destroyed (hk : Consistent kernel) :
    Destroyed config view n ↔ Destroyed config kernel n := by
  unfold Destroyed
  rw [hv.tornDown hg hk, hv.evicted, hv.unwanted hg, hv.orphan]

end

/-- What goes before the orphans do. -/
theorem mem_gc {parts : List BridgePart} {x : Op} {pf : Option PfState}
    (h : List.Forall₂ (fun e part => bridgePart config kernel pf e.1 e.2 = .ok part)
      config.bridge.entries parts) :
    x ∈ ((parts.flatMap BridgePart.evicted).foldl (destroyOnce pf)
        ((Planner.unwanted config kernel).foldl (tearDown kernel pf) {})).destroys ↔
      (∃ b, Unwanted config kernel b ∧ x = .destroyBridge b) ∨
        ∃ n, (TornDown config kernel n ∨ (Evicted config kernel n ∧ ¬ Unwanted config kernel n)) ∧
          (x = .destroyIface n ∨ (x = .flushAnchor n ∧ Loaded pf n)) := by
  have hbr : (∃ e ∈ Planner.unwanted config kernel, x = .destroyBridge e.1) ↔
      ∃ n, Unwanted config kernel n ∧ x = .destroyBridge n := by
    simp only [← mem_unwanted_names, List.mem_map]
    constructor
    · rintro ⟨e, he, hx⟩
      exact ⟨e.1, ⟨e, he, rfl⟩, hx⟩
    · rintro ⟨n, ⟨e, he, rfl⟩, hx⟩
      exact ⟨e, he, hx⟩
  simp only [mem_foldl_destroyOnce, mem_foldl_tearDown, queued_foldl_tearDown, mem_evicted h,
    mem_unwanted_names, hbr, List.not_mem_nil, not_false_eq_true, true_and, false_or, not_or]
  unfold TornDown
  constructor
  · rintro ((hx | ⟨n, ho, hf, hx⟩) | ⟨n, hev, ⟨hu, -⟩, hx⟩)
    · exact Or.inl hx
    · exact Or.inr ⟨n, Or.inl ⟨ho, hf⟩, hx⟩
    · exact Or.inr ⟨n, Or.inr ⟨hev, hu⟩, hx⟩
  · rintro (hx | ⟨n, ⟨ho, hf⟩ | ⟨hev, hu⟩, hx⟩)
    · exact Or.inl (Or.inl hx)
    · exact Or.inl (Or.inr ⟨n, ho, hf, hx⟩)
    · -- an evicted member an unwanted bridge holds as well is queued with that bridge
      by_cases hheld : kernel.ownedName n = true ∧
          ∃ e ∈ Planner.unwanted config kernel, n ∈ e.2.members
      · obtain ⟨ho, e, he, hm⟩ := hheld
        exact Or.inl (Or.inr ⟨n, ho, firstHeld_of_mem hu he hm, hx⟩)
      · exact Or.inr ⟨n, hev, ⟨hu, hheld⟩, hx⟩

/-- The removes phase: members that leave, and stale anchors nothing else flushes. -/
theorem mem_removes_iff {parts : List BridgePart} {x : Op} {pf : Option PfState}
    (h : List.Forall₂ (fun e part => bridgePart config kernel pf e.1 e.2 = .ok part)
      config.bridge.entries parts) :
    x ∈ (assemble config kernel pf parts).removes ↔
      (∃ b m, x = .removeMember b m ∧ m ∈ kernel.membersOf b ∧
        ((∃ br, (b, br) ∈ config.bridge.entries ∧ m ∉ claimsOf config b br) ∨
          Unwanted config kernel b)) ∨
      ∃ n, x = .flushAnchor n ∧ Loaded pf n ∧ n ∉ policied config ∧
        ¬ (TornDown config kernel n ∨ (Evicted config kernel n ∧ ¬ Unwanted config kernel n)) := by
  unfold assemble
  rw [List.mem_append, mem_removals h, mem_staleAnchors]
  refine or_congr_right (exists_congr fun n => and_congr_right fun _ => ?_)
  refine and_congr_right fun hl => and_congr_right fun _ => not_congr ?_
  rw [mem_flushed, List.mem_append, mem_removals h, mem_gc h]
  constructor
  · rintro (⟨b, m, hx, -⟩ | ⟨b, -, hx⟩ | ⟨k, hk, hx | ⟨hx, -⟩⟩)
    · exact absurd hx (by simp)
    · exact absurd hx (by simp)
    · exact absurd hx (by simp)
    · obtain rfl := Op.flushAnchor.inj hx
      exact hk
  · intro hn
    exact Or.inr (Or.inr ⟨n, hn, Or.inr ⟨rfl, hl⟩⟩)

/-! ## 5. The plan -/

/-- Plans that hold the same ops in each phase, and the same notes. -/
structure SamePlan (p q : Plan) : Prop where
  creates : p.creates = q.creates
  removes : ∀ x, x ∈ p.removes ↔ x ∈ q.removes
  adds : p.adds = q.adds
  destroys : ∀ x, x ∈ p.destroys ↔ x ∈ q.destroys
  notes : p.notes = q.notes

/-- **A view is as good as the kernel**: it is refused with the same error, or planned alike. -/
theorem diff_view (hv : View config view kernel) (h : Sees pf anchors) (hk : Consistent kernel)
    (hg : kernel.Grouped) :
    (∃ e, diff config view (some pf) = .error e ∧ diff config kernel (some anchors) = .error e) ∨
      ∃ p q, diff config view (some pf) = .ok p ∧ diff config kernel (some anchors) = .ok q ∧
        SamePlan p q := by
  have hwalk : (config.bridge.entries.mapM fun e =>
        bridgePart config view (some pf) e.1 e.2) =
      config.bridge.entries.mapM fun e => bridgePart config kernel (some anchors) e.1 e.2 :=
    mapM_congr_left fun e he => bridgePart_congr hv h he
  unfold diff
  rw [hwalk]
  cases hparts : config.bridge.entries.mapM fun e =>
      bridgePart config kernel (some anchors) e.1 e.2 with
  | error e => exact Or.inl ⟨e, rfl, rfl⟩
  -- the rounds are the same; what is left are the removes and the destroys, as sets
  | ok parts =>
    right
    have hkernel := mapM_eq_ok.mp hparts
    have hview := mapM_eq_ok.mp (hwalk.trans hparts)
    refine ⟨_, _, rfl, rfl, rfl, fun x => ?_, rfl, fun x => ?_, rfl⟩
    · rw [mem_removes_iff hview, mem_removes_iff hkernel]
      have hleaves : ∀ b m, (m ∈ view.membersOf b ∧
          ((∃ br, (b, br) ∈ config.bridge.entries ∧ m ∉ claimsOf config b br) ∨
            Unwanted config view b)) ↔
          m ∈ kernel.membersOf b ∧
            ((∃ br, (b, br) ∈ config.bridge.entries ∧ m ∉ claimsOf config b br) ∨
              Unwanted config kernel b) := by
        intro b m
        rw [hv.unwanted hg]
        refine and_congr_left fun hwhy => ?_
        have hget : view.interfaces.get? b = kernel.interfaces.get? b := by
          rcases hwhy with ⟨br, hb, -⟩ | ⟨-, i, hi, -, ho⟩
          · exact hv.claimed b (Or.inl (Dict.mem_of_entry hb))
          · rw [hi, hv.get?_owned hg hi ho]
        rw [membersOf_congr hget]
      refine or_congr (exists_congr fun b => exists_congr fun m =>
        and_congr_right fun _ => hleaves b m) (exists_congr fun n => ?_)
      rw [h.loaded, hv.tornDown hg hk, hv.evicted, hv.unwanted hg]
    · rw [mem_destroys hview, mem_destroys hkernel]
      simp only [hv.unwanted hg, hv.destroyed hg hk, h.loaded]

end

end Planner

end Bsdbridge
