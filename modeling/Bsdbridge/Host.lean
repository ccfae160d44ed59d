import Bsdbridge.L2Agent.Plan

/-!
# An idealised host

The kernel and the anchors under the agent, as far as the ops of a plan can change them. Each
effect is the evident one: a create makes an owned interface (and nothing when the name is taken),
a membership is an entry of a member list, what a bridge keeps about a member (its static MAC, its
`ifmaxaddr`, its stickiness) goes when the member goes, and a destroy removes the interface from
everywhere. `exec` is the effect of an op whose commands all succeed.

This is no translation of source code: it is the statement of what ifconfig(8) and pfctl(8) are
relied on for. It is kept as small as the ops allow. An interface has what the reader would read of
it, an anchor its hash and its tables; there is no traffic, no time, and no exit status. Those are
added where they are needed, by `Machine` for commands that fail and by `PfMachine` for states.

The lemmas below say of every effect what it does to one interface, to the owned names, to one lock
and to one anchor; later files use them and not the definitions.
-/

set_option autoImplicit false

namespace Bsdbridge

/-- The state of a host: what the agent reads back, and two settings of bridge members that it
does not read. -/
structure Host where
  kernel : KernelInterfaces := {}
  anchors : PfState := ∅
  /-- The (bridge, member) pairs with `ifmaxaddr 1`. -/
  capped : List (String × String) := []
  /-- The (bridge, member) pairs that are sticky. -/
  sticky : List (String × String) := []

namespace Host

/-- One interface of the host. -/
def look (h : Host) (n : String) : Option Interface := h.kernel.interfaces.get? n

/-! ## The effects -/

def setInterfaces (h : Host) (interfaces : Dict String Interface) : Host :=
  { h with kernel := { h.kernel with interfaces } }

def setAddrs (h : Host) (addrs : Dict String (List (String × String × Bool))) : Host :=
  { h with kernel := { h.kernel with addrs } }

/-- Change one interface that exists. -/
def modify (h : Host) (n : String) (f : Interface → Interface) : Host :=
  match h.look n with
  | some i => h.setInterfaces (h.kernel.interfaces.insert n (f i))
  | none => h

/-- Make an owned interface; nothing when the name is taken. -/
def create (h : Host) (i : Interface) : Host :=
  match h.look i.name with
  | some _ => h
  | none =>
      { h with
        kernel := {
          interfaces := h.kernel.interfaces.insert i.name i
          owned := h.kernel.owned ++ [i.name]
          addrs := h.kernel.addrs.erase i.name } }

/-- Drop what bridges keep about the members `p` selects, by bridge and member. -/
def forget (h : Host) (p : String → String → Bool) : Host :=
  { h with
    kernel := { h.kernel with
      addrs := h.kernel.addrs.mapVal fun b t => t.filter fun e => !p b e.2.1 }
    capped := h.capped.filter fun e => !p e.1 e.2
    sticky := h.sticky.filter fun e => !p e.1 e.2 }

/-- `addm`. -/
def addm (h : Host) (b m : String) : Host :=
  h.modify b fun i => { i with members := if m ∈ i.members then i.members else i.members ++ [m] }

/-- An interface without one member. -/
def without (i : Interface) (m : String) : Interface :=
  { i with members := i.members.filter fun k => k ≠ m }

/-- `deletem`. -/
def deletem (h : Host) (b m : String) : Host :=
  (h.modify b fun i => without i m).forget fun b' m' => b' = b && m' = m

/-- `static`: the member's single locked MAC. -/
def setStatic (h : Host) (b m mac : String) : Host :=
  h.setAddrs (h.kernel.addrs.insert b
    ((((h.kernel.addrs.get? b).getD []).filter fun e => !(e.2.1 = m && e.2.2)) ++
      [(mac, m, true)]))

/-- `ifmaxaddr 1`. -/
def setCapped (h : Host) (b m : String) : Host := { h with capped := (b, m) :: h.capped }

/-- `sticky`. -/
def setSticky (h : Host) (b m : String) : Host := { h with sticky := (b, m) :: h.sticky }

/-- `maxaddr`. -/
def setMaxaddr (h : Host) (b : String) (v : Int) : Host :=
  h.modify b fun i => { i with maxaddr := some v }

/-- `destroy`: the interface goes, from every member list too. -/
def destroy (h : Host) (n : String) : Host :=
  ({ h with
    kernel := { h.kernel with
      interfaces := (h.kernel.interfaces.erase n).mapVal fun _ i => without i n
      owned := h.kernel.owned.filter fun k => k ≠ n } } : Host).forget
    fun b m => b = n || m = n

/-- Load a ruleset: the rules' hash and the tables are the rendered ones. -/
def load (h : Host) (n : String) (r : Pf.Ruleset) (hash : String) : Host :=
  { h with anchors := h.anchors.insert n (Pf.AnchorState.mk true (some hash)
      (Dict.ofList (r.tables.map fun t => (t.1, t.2.toFinset)))) }

/-- Replace one table of an anchor that exists. -/
def setTable (h : Host) (n t : String) (members : List String) : Host :=
  match h.anchors.get? n with
  | some st =>
      let st := { st with tables := st.tables.insert t members.toFinset }
      { h with anchors := h.anchors.insert n st }
  | none => h

/-- Flush an anchor. -/
def flush (h : Host) (n : String) : Host := { h with anchors := h.anchors.erase n }

/-! ## The ops -/

def bridgeIface (name : String) (maxaddr : Int) : Interface :=
  { name, groups := ["bridge", OWNED_GROUP], maxaddr := some maxaddr }

def vlanIface (name parent : String) (vid : Int) : Interface :=
  { name, groups := ["vlan", OWNED_GROUP], vlan := some vid, vlanParent := some parent }

def vxlanIface (name : String) : Interface := { name, groups := ["vxlan", OWNED_GROUP] }

def tapIface (name description : String) : Interface :=
  { name, groups := ["tap", OWNED_GROUP], description }

/-- The effect of an op whose commands all succeed. -/
def exec (h : Host) : Op → Host
  | .createBridge n v => h.create (bridgeIface n v)
  | .createVlan n parent vid => h.create (vlanIface n parent vid)
  | .createVxlan n _ _ _ => h.create (vxlanIface n)
  | .createTap n d => h.create (tapIface n d)
  | .loadAnchor n _ r hash => h.load n r hash
  | .replaceTable n t members => h.setTable n t members
  | .flushAnchor n => h.flush n
  | .lockMemberMac b m mac => ((h.setStatic b m mac).setCapped b m).setSticky b m
  | .addMember b m => h.addm b m
  | .removeMember b m => h.deletem b m
  | .destroyIface n => h.destroy n
  | .destroyBridge n => h.destroy n
  | .setMaxaddr b v => h.setMaxaddr b v

/-- Execute ops in order. -/
def run (h : Host) (ops : List Op) : Host := ops.foldl exec h

/-! ## What an effect does to one interface -/

section Look

variable {h : Host}

theorem mem_kernel {n : String} : n ∈ h.kernel ↔ (h.look n).isSome = true := by
  rw [← KernelInterfaces.mem_interfaces, Dict.mem_iff_get?, Option.isSome_iff_exists]
  rfl

theorem membersOf_eq (b : String) :
    h.kernel.membersOf b = ((h.look b).map Interface.members).getD [] := by
  unfold KernelInterfaces.membersOf look
  cases h.kernel.interfaces.get? b <;> rfl

@[simp] theorem look_modify (n k : String) (f : Interface → Interface) :
    (h.modify n f).look k = if k = n then (h.look n).map f else h.look k := by
  unfold modify
  cases hn : h.look n with
  | none =>
    by_cases hk : k = n
    · simp [hk, hn]
    · simp [hk]
  | some i => simp [look, setInterfaces]

@[simp] theorem look_create (i : Interface) (k : String) :
    (h.create i).look k =
      if k = i.name ∧ h.look i.name = none then some i else h.look k := by
  unfold create
  cases hn : h.look i.name with
  | none => simp [look]
  | some j => simp

@[simp] theorem look_forget (p : String → String → Bool) (k : String) :
    (h.forget p).look k = h.look k := rfl

@[simp] theorem look_addm (b m k : String) :
    (h.addm b m).look k = if k = b then (h.look b).map (fun i => { i with
      members := if m ∈ i.members then i.members else i.members ++ [m] }) else h.look k :=
  look_modify b k _

@[simp] theorem look_deletem (b m k : String) :
    (h.deletem b m).look k = if k = b then (h.look b).map (without · m) else h.look k :=
  look_modify b k _

@[simp] theorem look_setMaxaddr (b k : String) (v : Int) :
    (h.setMaxaddr b v).look k =
      if k = b then (h.look b).map (fun i => { i with maxaddr := some v }) else h.look k :=
  look_modify b k _

@[simp] theorem look_destroy (n k : String) :
    (h.destroy n).look k = if k = n then none else (h.look k).map (without · n) := by
  unfold destroy
  rw [look_forget]
  unfold look
  rw [Dict.get?_mapVal, Dict.get?_erase]
  by_cases hk : k = n <;> simp [hk]

@[simp] theorem look_setStatic (b m mac k : String) :
    (h.setStatic b m mac).look k = h.look k := rfl

@[simp] theorem look_setCapped (b m k : String) : (h.setCapped b m).look k = h.look k := rfl

@[simp] theorem look_setSticky (b m k : String) : (h.setSticky b m).look k = h.look k := rfl

@[simp] theorem look_load (n k hash : String) (r : Pf.Ruleset) :
    (h.load n r hash).look k = h.look k := rfl

@[simp] theorem look_setTable (n t k : String) (ms : List String) :
    (h.setTable n t ms).look k = h.look k := by
  unfold setTable
  cases h.anchors.get? n <;> rfl

@[simp] theorem look_flush (n k : String) : (h.flush n).look k = h.look k := rfl

end Look

/-! ## What an effect does to the owned names -/

section Owned

variable {h : Host} {k : String}

theorem mem_owned_create {i : Interface} :
    k ∈ (h.create i).kernel.owned ↔
      k ∈ h.kernel.owned ∨ (k = i.name ∧ h.look i.name = none) := by
  unfold create
  cases h.look i.name <;> simp

theorem mem_owned_destroy {n : String} :
    k ∈ (h.destroy n).kernel.owned ↔ k ∈ h.kernel.owned ∧ k ≠ n := by
  simp [destroy, forget]

@[simp] theorem owned_modify (n : String) (f : Interface → Interface) :
    (h.modify n f).kernel.owned = h.kernel.owned := by
  unfold modify
  cases h.look n <;> rfl

@[simp] theorem owned_setTable (n t : String) (ms : List String) :
    (h.setTable n t ms).kernel.owned = h.kernel.owned := by
  unfold setTable
  cases h.anchors.get? n <;> rfl

end Owned

/-! ## What an effect does to a lock -/

section Lock

open KernelInterfaces

/-- The static MAC of a bridge member. -/
def lock (h : Host) (b m : String) : Option String := h.kernel.staticLock b m

theorem find?_filter_and {α : Type} (l : List α) (p q : α → Bool) :
    (l.filter p).find? q = l.find? fun a => p a && q a := by
  rw [List.find?_filter]
  simp only [← Bool.and_eq_true, Bool.decide_eq_true]

theorem lockIn_filter (p : String → Bool) (t : List (String × String × Bool)) (m : String) :
    lockIn (t.filter fun e => !p e.2.1) m = if p m then none else lockIn t m := by
  unfold lockIn
  rw [find?_filter_and]
  cases hp : p m with
  | true =>
    have hnone : t.find? (fun e => !p e.2.1 && (decide (e.2.1 = m) && e.2.2)) = none := by
      rw [List.find?_eq_none]
      rintro ⟨mac, k, st⟩ -
      by_cases hk : k = m <;> simp [hk, hp]
    simp [hnone]
  | false =>
    have hfun : (fun e : String × String × Bool => !p e.2.1 && (decide (e.2.1 = m) && e.2.2)) =
        fun e => decide (e.2.1 = m) && e.2.2 := by
      funext ⟨mac, k, st⟩
      by_cases hk : k = m <;> simp [hk, hp]
    rw [hfun]
    simp

theorem lockIn_setStatic (t : List (String × String × Bool)) (m m' mac : String) :
    lockIn ((t.filter fun e => !(e.2.1 = m && e.2.2)) ++ [(mac, m, true)]) m' =
      if m' = m then some mac else lockIn t m' := by
  unfold lockIn
  rw [List.find?_append, find?_filter_and]
  by_cases hm : m' = m
  · have hnone : t.find? (fun e => !(decide (e.2.1 = m) && e.2.2) &&
        (decide (e.2.1 = m') && e.2.2)) = none := by
      rw [List.find?_eq_none]
      rintro ⟨mac', k, st⟩ -
      by_cases hk : k = m <;> cases st <;> simp [hk, hm]
    rw [hnone]
    simp [hm]
  · have hfun : (fun e : String × String × Bool => !(decide (e.2.1 = m) && e.2.2) &&
        (decide (e.2.1 = m') && e.2.2)) = fun e => decide (e.2.1 = m') && e.2.2 := by
      funext ⟨mac', k, st⟩
      by_cases hk : k = m'
      · simp [hk, hm]
      · simp [hk]
    have hlast : ¬ m = m' := fun h => hm h.symm
    rw [hfun]
    simp [hm, hlast]

variable {h : Host}

@[simp] theorem lock_modify (n b m : String) (f : Interface → Interface) :
    (h.modify n f).lock b m = h.lock b m := by
  unfold modify
  cases h.look n <;> rfl

@[simp] theorem lock_forget (p : String → String → Bool) (b m : String) :
    (h.forget p).lock b m = if p b m then none else h.lock b m := by
  unfold lock staticLock forget
  simp only [Dict.get?_mapVal]
  cases h.kernel.addrs.get? b with
  | none => simp [lockIn]
  | some t => simpa using lockIn_filter (p b) t m

@[simp] theorem lock_create (i : Interface) (b m : String) :
    (h.create i).lock b m =
      if b = i.name ∧ h.look i.name = none then none else h.lock b m := by
  unfold create
  cases hi : h.look i.name with
  | some j => simp
  | none =>
    unfold lock staticLock
    by_cases hb : b = i.name <;> simp [hb, lockIn]

@[simp] theorem lock_setStatic (b b' m m' mac : String) :
    (h.setStatic b m mac).lock b' m' = if b' = b ∧ m' = m then some mac else h.lock b' m' := by
  unfold lock staticLock setStatic setAddrs
  by_cases hb : b' = b
  · subst hb
    simpa using lockIn_setStatic ((h.kernel.addrs.get? b').getD []) m m' mac
  · simp [hb]

@[simp] theorem lock_setCapped (b b' m m' : String) :
    (h.setCapped b m).lock b' m' = h.lock b' m' := rfl

@[simp] theorem lock_setSticky (b b' m m' : String) :
    (h.setSticky b m).lock b' m' = h.lock b' m' := rfl

@[simp] theorem lock_load (n hash b m : String) (r : Pf.Ruleset) :
    (h.load n r hash).lock b m = h.lock b m := rfl

@[simp] theorem lock_setTable (n t b m : String) (ms : List String) :
    (h.setTable n t ms).lock b m = h.lock b m := by
  unfold setTable
  cases h.anchors.get? n <;> rfl

@[simp] theorem lock_flush (n b m : String) : (h.flush n).lock b m = h.lock b m := rfl

@[simp] theorem lock_addm (b b' m m' : String) : (h.addm b m).lock b' m' = h.lock b' m' :=
  lock_modify b b' m' _

@[simp] theorem lock_setMaxaddr (b b' m : String) (v : Int) :
    (h.setMaxaddr b v).lock b' m = h.lock b' m := lock_modify b b' m _

@[simp] theorem lock_deletem (b b' m m' : String) :
    (h.deletem b m).lock b' m' = if b' = b ∧ m' = m then none else h.lock b' m' := by
  unfold deletem
  rw [lock_forget, lock_modify]
  simp

@[simp] theorem lock_destroy (n b m : String) :
    (h.destroy n).lock b m = if b = n ∨ m = n then none else h.lock b m := by
  unfold destroy
  rw [lock_forget]
  simp only [Bool.or_eq_true, decide_eq_true_eq]
  rfl

end Lock

/-! ## What an effect does to an anchor -/

section Anchor

variable {h : Host}

/-- One anchor of the host. -/
def anchor (h : Host) (n : String) : Option Pf.AnchorState := h.anchors.get? n

@[simp] theorem anchor_modify (n k : String) (f : Interface → Interface) :
    (h.modify n f).anchor k = h.anchor k := by
  unfold modify
  cases h.look n <;> rfl

@[simp] theorem anchor_create (i : Interface) (k : String) :
    (h.create i).anchor k = h.anchor k := by
  unfold create
  cases h.look i.name <;> rfl

@[simp] theorem anchor_addm (b m k : String) : (h.addm b m).anchor k = h.anchor k :=
  anchor_modify b k _

@[simp] theorem anchor_setMaxaddr (b k : String) (v : Int) :
    (h.setMaxaddr b v).anchor k = h.anchor k := anchor_modify b k _

@[simp] theorem anchor_deletem (b m k : String) : (h.deletem b m).anchor k = h.anchor k :=
  anchor_modify b k _

@[simp] theorem anchor_destroy (n k : String) : (h.destroy n).anchor k = h.anchor k := rfl

@[simp] theorem anchor_setStatic (b m mac k : String) :
    (h.setStatic b m mac).anchor k = h.anchor k := rfl

@[simp] theorem anchor_setCapped (b m k : String) :
    (h.setCapped b m).anchor k = h.anchor k := rfl

@[simp] theorem anchor_setSticky (b m k : String) :
    (h.setSticky b m).anchor k = h.anchor k := rfl

@[simp] theorem anchor_load (n k hash : String) (r : Pf.Ruleset) :
    (h.load n r hash).anchor k =
      if k = n then some (Pf.AnchorState.mk true (some hash)
        (Dict.ofList (r.tables.map fun t => (t.1, t.2.toFinset)))) else h.anchor k :=
  Dict.get?_insert _ _ _ _

@[simp] theorem anchor_setTable (n t k : String) (ms : List String) :
    (h.setTable n t ms).anchor k =
      if k = n then (h.anchor n).map (fun st => { st with
        tables := st.tables.insert t ms.toFinset }) else h.anchor k := by
  unfold setTable anchor
  cases hn : h.anchors.get? n with
  | none =>
    by_cases hk : k = n
    · simp [hk, hn]
    · simp [hk]
  | some st => simp

@[simp] theorem anchor_flush (n k : String) :
    (h.flush n).anchor k = if k = n then none else h.anchor k := Dict.get?_erase _ _ _

end Anchor

end Host

end Bsdbridge
