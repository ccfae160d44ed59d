import Bsdbridge.Lib.Run
import Bsdbridge.Proof.Frames
import Bsdbridge.Proof.Returns
import Bsdbridge.Proof.Shape

/-!
# A pass over a host

A shaped config is diffed against a host and the plan's ops are run on it. Of the ops a plan may
have, this file says which ones such a pass does *not* have: nothing claimed is destroyed, no
desired bridge is, and nothing is made under a name that is taken. Everything that holds after the
pass follows from these by the frames of `Proof.Frames`.

`Pass` is where the assumptions stand, once for this file and for the two that follow it. Of the
config: taps only, no policy without a type, each name claimed once. Of the kernel: a bridge is no
bridge's member, a static entry is that of a member, and a claimed interface is in no bridge but
its own. None of these is about what the plan does, and `PortConfig.build` and ifconfig(8) see to
the most of them.

Two words are defined for the exception that runs through all of it. A name is `Manufactured` when
the config would make an interface under it, and `HeldByBridge` when an owned bridge goes by it; a
name that is both is taken down by the teardown of bridges, which does not ask who claims it.
-/

set_option autoImplicit false

namespace Bsdbridge

namespace Planner

/-- A name the config manufactures: a typed member, or an uplink of a vlan or vxlan segment. -/
def Manufactured (config : Config) (n : String) : Prop :=
  ∃ b br, (b, br) ∈ config.bridge.entries ∧
    ((∃ member, (n, member) ∈ br.member.entries ∧ member.type.isSome = true) ∨
      (manufactures br.segment = true ∧ n ∈ uplinksOf config b br))

/-- An owned bridge of the host goes by this name. -/
def HeldByBridge (h : Host) (n : String) : Prop :=
  ∃ i, h.look n = some i ∧ i.isBridge = true ∧ i.isOwned = true

/-- A desired bridge is as the config wants it. -/
def Stands (b : String) (br : Bridge) (h : Host) : Prop :=
  ∃ i, h.look b = some i ∧ (i.isBridge = true ∧ i.isOwned = true) ∧
    ∀ n, i.maxaddr = some n → n = br.maxAddresses

theorem HeldByBridge.exec {h : Host} {n : String} {x : Op} (ht : HeldByBridge h n)
    (hx : x ≠ .destroyIface n ∧ x ≠ .destroyBridge n) : HeldByBridge (h.exec x) n := by
  obtain ⟨i, hi, hb, ho⟩ := ht
  obtain ⟨i', hi', hgroups, -⟩ := Host.look_exec_some hi hx.1 hx.2
  refine ⟨i', hi', ?_, ?_⟩
  · rw [Interface.isBridge, hgroups]
    exact hb
  · rw [Interface.isOwned, hgroups]
    exact ho

theorem Stands.exec {h : Host} {b : String} {br : Bridge} {x : Op} (ht : Stands b br h)
    (hx : x ≠ .destroyIface b ∧ x ≠ .destroyBridge b)
    (hset : ∀ v, x = .setMaxaddr b v → v = br.maxAddresses) : Stands b br (h.exec x) := by
  obtain ⟨i, hi, ⟨hb, ho⟩, hmax⟩ := ht
  obtain ⟨i', hi', hgroups, hmax', -⟩ := Host.look_exec_some hi hx.1 hx.2
  refine ⟨i', hi', ⟨?_, ?_⟩, ?_⟩
  · rw [Interface.isBridge, hgroups]
    exact hb
  · rw [Interface.isOwned, hgroups]
    exact ho
  · by_cases hv : ∃ v, x = .setMaxaddr b v
    · obtain ⟨v, rfl⟩ := hv
      rw [Host.exec, Host.look_setMaxaddr, if_pos rfl, hi] at hi'
      obtain rfl := Option.some.inj hi'
      intro n hn
      rw [← hset v rfl]
      exact (Option.some.inj hn).symm
    · rw [hmax' fun v hxv => hv ⟨v, hxv⟩]
      exact hmax

theorem claimed_of_manufactured {config : Config} {n : String} (hn : Manufactured config n) :
    n ∈ claimed config := by
  obtain ⟨b, br, hb, ⟨member, hm, -⟩ | ⟨-, hu⟩⟩ := hn
  · exact mem_claimed.mpr ⟨b, br, hb, List.mem_append_right _ (Dict.mem_of_entry hm)⟩
  · exact mem_claimed.mpr ⟨b, br, hb, List.mem_append_left _ hu⟩

section Run

open Host

variable {h : Host} {p : Plan}

/-- The creates come first: a fact `J` they bring about holds while the rest of the plan runs. -/
theorem attains_after_creates {J P : Host → Prop}
    (hJ : J h ∨ ∃ x ∈ p.creates, ∀ t, J (exec t x))
    (keepJ : ∀ x ∈ p.ops, ∀ t, J t → J (exec t x))
    (keep : ∀ x ∈ p.ops, ∀ t, J t → P t → P (exec t x))
    (hP : (J h ∧ P h) ∨ ∃ x ∈ p.ops, x ∉ p.creates ∧ ∀ t, J t → P (exec t x)) :
    J (h.run p.ops) ∧ P (h.run p.ops) := by
  have keepBoth : ∀ x ∈ p.ops, ∀ t, J t ∧ P t → J (exec t x) ∧ P (exec t x) :=
    fun x hx t ht => ⟨keepJ x hx t ht.1, keep x hx t ht.1 ht.2⟩
  rcases hP with hstart | ⟨x, hx, hnot, hbring⟩
  · exact foldl_keeps (fun t => J t ∧ P t) hstart keepBoth
  · have hsplit : p.ops = p.creates ++ (p.removes ++ p.adds ++ p.destroys) := by
      simp only [Plan.ops, List.append_assoc]
    have hrest : x ∈ p.removes ++ p.adds ++ p.destroys := by
      rw [hsplit] at hx
      exact (List.mem_append.mp hx).resolve_left hnot
    unfold run
    rw [hsplit] at keepJ keepBoth ⊢
    rw [List.foldl_append]
    have hmid : J (p.creates.foldl exec h) :=
      foldl_attains (fun _ => True) J trivial (fun _ _ _ _ => trivial)
        (fun y hy => keepJ y (List.mem_append_left _ hy))
        (hJ.imp_right fun hex => hex.imp fun y hy => ⟨hy.1, fun t _ => hy.2 t⟩)
    exact foldl_brings J (fun t => J t ∧ P t) hmid (fun y hy => keepJ y (List.mem_append_right _ hy))
      (fun y hy => keepBoth y (List.mem_append_right _ hy))
      ⟨x, hrest, fun t ht => ⟨keepJ x (List.mem_append_right _ hrest) t ht, hbring t ht⟩⟩

/-- A name that is free and that no op makes stays free. -/
theorem run_free {n : String} (hmade : ∀ x ∈ p.ops, ∀ i, x.made = some i → i.name ≠ n)
    (hfree : h.look n = none ∨ .destroyBridge n ∈ p.ops) : (h.run p.ops).look n = none := by
  refine foldl_attains (fun _ => True) (fun t : Host => t.look n = none) trivial
    (fun _ _ _ _ => trivial) (fun x hx t ht => look_exec_none ht (hmade x hx)) (hfree.imp_right fun hd => ?_)
  exact ⟨_, hd, fun t _ => by simp [exec]⟩

end Run

variable [Hashlib]

/-- A pass over a host: a shaped config, a consistent kernel in which every claimed interface
sits in its own bridge if in any, and the plan of the diff. -/
structure Pass (config : Config) (h : Host) (p : Plan) : Prop where
  shaped : Shaped config
  consistent : Consistent h.kernel
  settled : Settled config h.kernel
  planned : diff config h.kernel (some h.anchors) = .ok p

/-- The op that makes an uplink of a vlan or vxlan segment is issued where its name is free. -/
theorem exists_uplink {config : Config} {kernel : KernelInterfaces} (pf : Option PfState)
    (hs : ClaimedOnce config) {b n : String} {br : Bridge}
    (hb : (b, br) ∈ config.bridge.entries) (hmade : manufactures br.segment = true)
    (hu : n ∈ uplinksOf config b br) (hk : n ∉ kernel) :
    ∃ x, Issued config kernel pf x ∧ (∀ m d, x ≠ .createTap m d) ∧
      ∃ i, x.made = some i ∧ i.name = n := by
  have hnames := hs.names.2 b br hb
  unfold uplinkNames at hnames
  cases hseg : br.segment with
  | none => rw [hseg] at hmade; exact absurd hmade (by decide)
  | some seg =>
    simp only [hseg] at hnames
    cases hvx : seg.vxlan with
    | some vx =>
      simp only [hvx, Except.ok.injEq] at hnames
      have hzip : ∃ peer, (n, peer) ∈ (uplinksOf config b br).zip vx.peers := by
        rw [← hnames] at hu ⊢
        obtain ⟨k, hlt, hkn⟩ := List.getElem_of_mem hu
        have hlt' : k < vx.peers.length := by simpa using hlt
        refine ⟨vx.peers[k], ?_⟩
        rw [List.mem_iff_getElem]
        refine ⟨k, by simpa using hlt', ?_⟩
        rw [List.getElem_zip, hkn]
      obtain ⟨peer, hz⟩ := hzip
      exact ⟨.createVxlan n vx.vni vx.local_ peer, ⟨b, br, seg, vx, hb, hseg, hvx, hz, hk,
        rfl, rfl⟩, by simp, _, rfl, rfl⟩
    | none =>
      cases hvl : seg.vlan with
      | none => rw [hseg] at hmade; simp [manufactures, hvx, hvl] at hmade
      | some vid =>
        simp only [hvx, hvl] at hnames
        obtain ⟨trunk, -, hnames⟩ := Except.bind_eq_ok.mp hnames
        split at hnames
        · exact absurd hnames (by simp)
        · have hlist := Except.ok.inj hnames
          rw [← hlist, List.mem_singleton] at hu
          refine ⟨.createVlan n (Text.beforeLast n '.') vid, ⟨b, br, seg, hb, hseg, hvx, hvl,
            ?_, hk, rfl⟩, by simp, _, rfl, rfl⟩
          rw [← hlist, hu]
          rfl

/-- The op that makes a manufactured name is issued where the name is free. -/
theorem exists_made {config : Config} {kernel : KernelInterfaces} (pf : Option PfState)
    (hs : ClaimedOnce config) {n : String} (hn : Manufactured config n) (hk : n ∉ kernel) :
    ∃ x, Issued config kernel pf x ∧ ∃ i, x.made = some i ∧ i.name = n := by
  obtain ⟨b, br, hb, ⟨member, hm, ht⟩ | ⟨hmade, hu⟩⟩ := hn
  · exact ⟨.createTap n member.description, ⟨b, br, member, hb, hm, hk, ht, rfl⟩, _, rfl, rfl⟩
  · obtain ⟨x, hx, -, hi⟩ := exists_uplink pf hs hb hmade hu hk
    exact ⟨x, hx, hi⟩

/-- What an op makes: a desired bridge, or a manufactured name, and in either case a name that
was free. -/
theorem Issued.made_free {config : Config} {h : Host} {pf : Option PfState} {x : Op}
    (hiss : Issued config h.kernel pf x) {i : Interface} (hi : x.made = some i) :
    h.look i.name = none ∧
      ((∃ br, (i.name, br) ∈ config.bridge.entries ∧ x = .createBridge i.name br.maxAddresses) ∨
        (i.isBridge = false ∧ Manufactured config i.name)) := by
  have free : ∀ n, n ∉ h.kernel → h.look n = none := fun n hn => by
    rwa [Host.mem_kernel, Option.not_isSome_iff_eq_none] at hn
  cases x with
  | createBridge b v =>
    cases hi
    obtain ⟨br, hb, hk, rfl⟩ := hiss
    exact ⟨free _ hk, Or.inl ⟨br, hb, rfl⟩⟩
  | createVlan n parent vid =>
    cases hi
    obtain ⟨b, br, seg, hb, hseg, -, hvid, hhead, hk, -⟩ := hiss
    refine ⟨free _ hk, Or.inr ⟨rfl, b, br, hb, Or.inr ⟨?_, List.mem_of_head? hhead⟩⟩⟩
    simp [manufactures, hseg, hvid]
  | createVxlan n vni ep peer =>
    cases hi
    obtain ⟨b, br, seg, vx, hb, hseg, hvx, hz, hk, -⟩ := hiss
    refine ⟨free _ hk, Or.inr ⟨rfl, b, br, hb, Or.inr ⟨?_, (List.of_mem_zip hz).1⟩⟩⟩
    simp [manufactures, hseg, hvx]
  | createTap m d =>
    cases hi
    obtain ⟨b, br, member, hb, hm, hk, ht, -⟩ := hiss
    exact ⟨free _ hk, Or.inr ⟨rfl, b, br, hb, Or.inl ⟨member, hm, ht⟩⟩⟩
  | _ => exact absurd hi (by simp [Op.made])

namespace Pass

variable {config : Config} {h : Host} {p : Plan}

/-! ## 1. Which ops a pass does not have

Read off `Issued`, op by op: the reasons for a removal or a destroy are the four of the teardown,
and each contradicts a claim. -/

theorem issued (hp : Pass config h p) {x : Op} (hx : x ∈ p.ops) :
    Issued config h.kernel (some h.anchors) x := (mem_ops hp.planned).mp hx

/-- A claimed interface is not displaced. -/
theorem not_displaced (hp : Pass config h p) {n : String} (hn : n ∈ claimed config) :
    ¬ Displaced config h.kernel n := by
  rintro ⟨-, ⟨pre, e, post, hsplit, hm, -⟩ | ⟨-, b, br, hb, hm, hc⟩⟩
  · have he : e ∈ unwanted config h.kernel := by
      rw [hsplit]
      exact List.mem_append_right _ List.mem_cons_self
    obtain ⟨hnot, hi, hbr, -⟩ := mem_unwanted.mp he
    obtain ⟨br, hb, -⟩ := hp.settled n hn e.1 e.2 hi hbr hm
    exact hnot (Dict.mem_of_entry hb)
  · rw [KernelInterfaces.membersOf] at hm
    cases hi : h.kernel.interfaces.get? b with
    | none => rw [hi] at hm; exact absurd hm List.not_mem_nil
    | some i =>
      rw [hi] at hm
      obtain ⟨br', hb', hc'⟩ := hp.settled n hn b i hi (diff_bridge_owned hp.planned hb hi).1 hm
      rw [Dict.entry_unique hb hb'] at hc
      exact hc hc'

/-- A claimed name that no owned bridge goes by is not destroyed. -/
theorem claimed_stays (hp : Pass config h p) {n : String} (hn : n ∈ claimed config)
    (hfree : ¬ HeldByBridge h n) {x : Op} (hx : x ∈ p.ops) :
    x ≠ .destroyIface n ∧ x ≠ .destroyBridge n := by
  constructor
  · rintro rfl
    exact hp.not_displaced hn ((destroyIface_claimed hp.planned hn).mp hx)
  · rintro rfl
    exact hfree (hp.issued hx).2

/-- A desired bridge is not destroyed. -/
theorem bridge_stays (hp : Pass config h p) {b : String} {br : Bridge}
    (hb : (b, br) ∈ config.bridge.entries) {x : Op} (hx : x ∈ p.ops) :
    x ≠ .destroyIface b ∧ x ≠ .destroyBridge b := by
  have hmem := Dict.mem_of_entry hb
  constructor
  · rintro rfl
    -- a member of a bridge is no bridge, and an orphan is none either
    have hno : ∀ e j m, h.kernel.interfaces.get? e = some j → j.isBridge = true → b ∈ j.members →
        h.kernel.interfaces.get? b = some m → False := by
      intro e j m he hj hbm hm
      have := hp.consistent.bridgeless e j b m he hj hbm hm
      rw [(diff_bridge_owned hp.planned hb hm).1] at this
      exact absurd this (by decide)
    rcases hp.issued hx with ⟨ho, pre, e, post, hsplit, hm, -⟩ | ⟨⟨ho, b', br', hb', hm, -⟩, -⟩ |
      ⟨-, -, i, hi, hnb⟩
    · obtain ⟨m, hm', -⟩ := KernelInterfaces.ownedName_iff.mp ho
      have he : e ∈ unwanted config h.kernel := by
        rw [hsplit]
        exact List.mem_append_right _ List.mem_cons_self
      obtain ⟨-, hi, hbr, -⟩ := mem_unwanted.mp he
      exact hno e.1 e.2 m hi hbr hm hm'
    · obtain ⟨m, hm', -⟩ := KernelInterfaces.ownedName_iff.mp ho
      rw [KernelInterfaces.membersOf] at hm
      cases hi : h.kernel.interfaces.get? b' with
      | none => rw [hi] at hm; exact absurd hm List.not_mem_nil
      | some i =>
        rw [hi] at hm
        exact hno b' i m hi (diff_bridge_owned hp.planned hb' hi).1 hm hm'
    · rw [(diff_bridge_owned hp.planned hb hi).1] at hnb
      exact absurd hnb (by decide)
  · rintro rfl
    exact (hp.issued hx).1 hmem

theorem made_free (hp : Pass config h p) {x : Op} (hx : x ∈ p.ops) {i : Interface}
    (hi : x.made = some i) :
    h.look i.name = none ∧
      ((∃ br, (i.name, br) ∈ config.bridge.entries ∧ x = .createBridge i.name br.maxAddresses) ∨
        (i.isBridge = false ∧ Manufactured config i.name)) := (hp.issued hx).made_free hi

/-! ## 2. The creates of a pass

The creates come first, so what they bring about is there while the rest runs. -/

open Host

/-- A desired bridge stands, or the creates make it. -/
theorem bridge_created (hp : Pass config h p) {b : String} {br : Bridge}
    (hb : (b, br) ∈ config.bridge.entries) :
    (h.look b).isSome = true ∨ ∃ x ∈ p.creates, ∀ t, ((exec t x).look b).isSome = true := by
  by_cases hk : b ∈ h.kernel
  · exact Or.inl (mem_kernel.mp hk)
  · obtain ⟨parts, hparts, rfl⟩ := diff_ok hp.planned
    exact Or.inr ⟨.createBridge b br.maxAddresses,
      (mem_creates hparts).mpr ⟨b, br, hb, Or.inl ⟨hk, rfl⟩⟩,
      fun t => isSome_exec_made (i := bridgeIface b br.maxAddresses) rfl⟩

/-- A desired bridge that stands keeps standing. -/
theorem bridge_kept (hp : Pass config h p) {b : String} {br : Bridge}
    (hb : (b, br) ∈ config.bridge.entries) {x : Op} (hx : x ∈ p.ops) (t : Host)
    (ht : (t.look b).isSome = true) : ((exec t x).look b).isSome = true := by
  obtain ⟨i, hi⟩ := Option.isSome_iff_exists.mp ht
  obtain ⟨hd, hd'⟩ := hp.bridge_stays hb hx
  obtain ⟨i', hi', -⟩ := look_exec_some hi hd hd'
  rw [hi']
  rfl

/-- The creates make interfaces and set limits, and do nothing else. -/
theorem made_of_creates (hp : Pass config h p) {x : Op} (hx : x ∈ p.creates) :
    x.made.isSome = true ∨ ∃ b v, x = .setMaxaddr b v := by
  obtain ⟨parts, hparts, rfl⟩ := diff_ok hp.planned
  obtain ⟨b, br, -, hx⟩ := (mem_creates hparts).mp hx
  rcases hx with ⟨-, rfl⟩ | ⟨_, _, -, -, -, rfl⟩ | ⟨_, _, _, -, -, -, -, -, rfl⟩ |
    ⟨_, _, _, _, -, -, -, -, rfl⟩
  · exact Or.inl rfl
  · exact Or.inr ⟨_, _, rfl⟩
  · exact Or.inl rfl
  · exact Or.inl rfl

end Pass

end Planner

end Bsdbridge
