import Bsdbridge.Machine
import Bsdbridge.Proof.History
import Bsdbridge.Proof.Printed
import Bsdbridge.Proof.Settings

/-!
# A pass with destroys left out

The receipts of a pass may all be good and some of its ops without effect all the same: a destroy
that blocks is parked, and a flush is judged by a listing. So a host after a pass is not the host
the plan's ops make, but one that some destroys and flushes were left out of. What such an op does
not name it does not touch: of a member of a bridge there is to see whether the bridge stands,
whether the member is in it, its lock and its anchor (`Alike`), and each op takes hosts that look
alike to hosts that do (**`Alike.exec`**). So whatever the ideal run shows of the member, the real
one shows (**`applyPlan_alike`**).

The ideal run is `Host.run`, where an op has its effect; the real one is `Writer.apply` over a
runner. `Anchored` is what ties a runner to a host as far as anchors go. It is a law about commands
that succeed: what they did to the anchors is what the op says. What a failed command does is the
contract of a `Machine`.

## The law of a load

pfctl(8) is given a text and not a ruleset, so the law asks something of a load only where the text
says what was rendered (`Pf.Printable`): the parts of the ruleset are atoms, free of blanks,
quotes, commas and line breaks. Without that, two rulesets could share a text and no runner could
load them both. `Proof/Printed` shows that a runner can keep this law, and the last section has
one.
-/

set_option autoImplicit false

namespace Bsdbridge

namespace Host

/-! ## 1. What there is to see of one member -/

/-- Two hosts show the same of the member `m` of the bridge `b`, its anchor included where `w`
asks for it. -/
structure Alike (b m : String) (w : Prop) (h h' : Host) : Prop where
  stands : (h.look b).isSome = (h'.look b).isSome
  joined : m ∈ h.kernel.membersOf b ↔ m ∈ h'.kernel.membersOf b
  lock : h.lock b m = h'.lock b m
  anchor : w → h.anchor m = h'.anchor m

namespace Alike

variable {b m : String} {w : Prop} {h h' h'' : Host}

theorem refl (b m : String) (w : Prop) (h : Host) : Alike b m w h h :=
  ⟨rfl, Iff.rfl, rfl, fun _ => rfl⟩

theorem symm (a : Alike b m w h h') : Alike b m w h' h :=
  ⟨a.stands.symm, a.joined.symm, a.lock.symm, fun hw => (a.anchor hw).symm⟩

theorem trans (a : Alike b m w h h') (a' : Alike b m w h' h'') : Alike b m w h h'' :=
  ⟨a.stands.trans a'.stands, a.joined.trans a'.joined, a.lock.trans a'.lock,
    fun hw => (a.anchor hw).trans (a'.anchor hw)⟩

theorem none_iff (a : Alike b m w h h') : h.look b = none ↔ h'.look b = none := by
  rw [← Option.not_isSome_iff_eq_none, ← Option.not_isSome_iff_eq_none, a.stands]

/-- What a create leaves to see: a new bridge is bare, and any other create is not seen. -/
theorem create (a : Alike b m w h h') {i i' : Interface} (hn : i.name = i'.name)
    (hi : i.members = []) (hi' : i'.members = []) : Alike b m w (h.create i) (h'.create i') := by
  have hmember : ∀ (k : Host) (j : Interface), j.members = [] →
      (m ∈ (k.create j).kernel.membersOf b ↔
        ¬ (b = j.name ∧ k.look j.name = none) ∧ m ∈ k.kernel.membersOf b) := by
    intro k j hj
    rw [membersOf_eq, membersOf_eq, look_create]
    by_cases hb : b = j.name ∧ k.look j.name = none
    · simp [hb, hj]
    · simp [hb]
  by_cases hb : b = i.name
  · subst hb
    refine ⟨?_, ?_, ?_, ?_⟩
    · rw [look_create, look_create, ← hn]
      simp only [true_and, a.none_iff]
      split
      · rfl
      · exact a.stands
    · rw [hmember h i hi, hmember h' i' hi', ← hn, a.joined, a.none_iff]
    · rw [lock_create, lock_create, ← hn, a.lock]
      simp only [true_and, a.none_iff]
    · rw [anchor_create, anchor_create]
      exact a.anchor
  · have hb' : ¬ b = i'.name := hn ▸ hb
    refine ⟨?_, ?_, ?_, ?_⟩
    · simp only [look_create, hb, hb', false_and, if_false]
      exact a.stands
    · rw [hmember h i hi, hmember h' i' hi', a.joined]
      simp only [hb, hb', false_and, not_false_eq_true, true_and]
    · simp only [lock_create, hb, hb', false_and, if_false]
      exact a.lock
    · rw [anchor_create, anchor_create]
      exact a.anchor

theorem addm (a : Alike b m w h h') (b' m' : String) : Alike b m w (h.addm b' m') (h'.addm b' m') := by
  refine ⟨?_, ?_, ?_, ?_⟩
  · rw [look_addm, look_addm]
    split
    · rename_i hb
      subst hb
      rw [Option.isSome_map, Option.isSome_map, a.stands]
    · exact a.stands
  · rw [mem_membersOf_addm, mem_membersOf_addm, a.joined]
    constructor
    · rintro (hm | ⟨rfl, rfl, hs⟩)
      · exact Or.inl hm
      · exact Or.inr ⟨rfl, rfl, a.stands ▸ hs⟩
    · rintro (hm | ⟨rfl, rfl, hs⟩)
      · exact Or.inl hm
      · exact Or.inr ⟨rfl, rfl, a.stands ▸ hs⟩
  · rw [lock_addm, lock_addm, a.lock]
  · rw [anchor_addm, anchor_addm]
    exact a.anchor

theorem deletem (a : Alike b m w h h') (b' m' : String) :
    Alike b m w (h.deletem b' m') (h'.deletem b' m') := by
  refine ⟨?_, ?_, ?_, ?_⟩
  · rw [look_deletem, look_deletem]
    split
    · rename_i hb
      subst hb
      rw [Option.isSome_map, Option.isSome_map, a.stands]
    · exact a.stands
  · rw [mem_membersOf_deletem, mem_membersOf_deletem, a.joined]
  · rw [lock_deletem, lock_deletem, a.lock]
  · rw [anchor_deletem, anchor_deletem]
    exact a.anchor

/-- A limit on a bridge is not seen at all. -/
theorem setMaxaddr_self (h : Host) (b' : String) (v : Int) :
    Alike b m w h (h.setMaxaddr b' v) := by
  refine ⟨?_, ?_, ?_, ?_⟩
  · rw [look_setMaxaddr]
    split
    · rename_i hb
      rw [hb, Option.isSome_map]
    · rfl
  · rw [membersOf_eq, membersOf_eq, look_setMaxaddr]
    split
    · rename_i hb
      subst hb
      cases h.look b <;> rfl
    · rfl
  · rw [lock_setMaxaddr]
  · rw [anchor_setMaxaddr]
    exact fun _ => rfl

theorem setMaxaddr (a : Alike b m w h h') (b' : String) (v : Int) :
    Alike b m w (h.setMaxaddr b' v) (h'.setMaxaddr b' v) :=
  (setMaxaddr_self h b' v).symm.trans (a.trans (setMaxaddr_self h' b' v))

theorem setLock (a : Alike b m w h h') (b' m' mac : String) :
    Alike b m w (((h.setStatic b' m' mac).setCapped b' m').setSticky b' m')
      (((h'.setStatic b' m' mac).setCapped b' m').setSticky b' m') := by
  refine ⟨a.stands, a.joined, ?_, a.anchor⟩
  simp only [lock_setSticky, lock_setCapped, lock_setStatic, a.lock]

theorem destroy (a : Alike b m w h h') (n : String) : Alike b m w (h.destroy n) (h'.destroy n) := by
  refine ⟨?_, ?_, ?_, ?_⟩
  · rw [look_destroy, look_destroy]
    split
    · rfl
    · rw [Option.isSome_map, Option.isSome_map, a.stands]
  · rw [mem_membersOf_destroy, mem_membersOf_destroy, a.joined]
  · rw [lock_destroy, lock_destroy, a.lock]
  · rw [anchor_destroy, anchor_destroy]
    exact a.anchor

theorem load (a : Alike b m w h h') (n c : String) (r : Pf.Ruleset) :
    Alike b m w (h.load n r c) (h'.load n r c) := by
  refine ⟨a.stands, a.joined, a.lock, fun hw => ?_⟩
  rw [anchor_load, anchor_load, a.anchor hw]

theorem setTable (a : Alike b m w h h') (n t : String) (ms : List String) :
    Alike b m w (h.setTable n t ms) (h'.setTable n t ms) := by
  have hmember : ∀ k : Host, (k.setTable n t ms).kernel.membersOf b = k.kernel.membersOf b := by
    intro k
    rw [membersOf_eq, membersOf_eq, look_setTable]
  refine ⟨?_, ?_, ?_, ?_⟩
  · rw [look_setTable, look_setTable, a.stands]
  · rw [hmember, hmember, a.joined]
  · rw [lock_setTable, lock_setTable, a.lock]
  · intro hw
    rw [anchor_setTable, anchor_setTable]
    split
    · rename_i hn
      rw [← hn, a.anchor hw]
    · exact a.anchor hw

theorem flush (a : Alike b m w h h') (n : String) : Alike b m w (h.flush n) (h'.flush n) := by
  refine ⟨a.stands, a.joined, a.lock, fun hw => ?_⟩
  rw [anchor_flush, anchor_flush, a.anchor hw]

/-- **An op takes alike hosts to alike hosts.** -/
theorem exec (a : Alike b m w h h') (x : Op) : Alike b m w (h.exec x) (h'.exec x) := by
  cases x with
  | createBridge n v => exact a.create rfl rfl rfl
  | createVlan n parent vid => exact a.create rfl rfl rfl
  | createVxlan n vni ep peer => exact a.create rfl rfl rfl
  | createTap n d => exact a.create rfl rfl rfl
  | loadAnchor n f r c => exact a.load n c r
  | replaceTable n t ms => exact a.setTable n t ms
  | flushAnchor n => exact a.flush n
  | lockMemberMac b' m' mac => exact a.setLock b' m' mac
  | addMember b' m' => exact a.addm b' m'
  | removeMember b' m' => exact a.deletem b' m'
  | destroyIface n => exact a.destroy n
  | destroyBridge n => exact a.destroy n
  | setMaxaddr b' v => exact a.setMaxaddr b' v

end Alike

end Host

/-! ## 2. Ops that take something away -/

/-- An op that only takes something away. -/
def Op.Takes : Op → Prop
  | .removeMember _ _ | .destroyIface _ | .destroyBridge _ | .flushAnchor _ => True
  | _ => False

/-- An op that takes away neither the bridge nor the member, nor anything of the two. -/
structure Op.Spares (b m : String) (w : Prop) (x : Op) : Prop where
  member : x ≠ .removeMember b m
  anchor : w → x ≠ .flushAnchor m
  iface : ∀ n, x = .destroyIface n ∨ x = .destroyBridge n → n ≠ b ∧ n ≠ m

namespace Host

variable {b m : String} {w : Prop}

theorem alike_destroy (h : Host) {n : String} (hn : n ≠ b ∧ n ≠ m) : Alike b m w h (h.destroy n) := by
  obtain ⟨hb, hm⟩ := hn
  refine ⟨?_, ?_, ?_, ?_⟩
  · rw [look_destroy, if_neg hb.symm, Option.isSome_map]
  · rw [mem_membersOf_destroy]
    exact (and_iff_left ⟨hb.symm, hm.symm⟩).symm
  · rw [lock_destroy, if_neg (by tauto)]
  · rw [anchor_destroy]
    exact fun _ => rfl

/-- What takes something else away is not seen. -/
theorem alike_spared (h : Host) {x : Op} (hx : x.Takes) (hs : x.Spares b m w) :
    Alike b m w h (h.exec x) := by
  cases x with
  | destroyIface n => exact alike_destroy h (hs.iface n (Or.inl rfl))
  | destroyBridge n => exact alike_destroy h (hs.iface n (Or.inr rfl))
  | flushAnchor n =>
    refine ⟨rfl, Iff.rfl, rfl, fun hw => ?_⟩
    have hn : ¬ m = n := by
      rintro rfl
      exact hs.anchor hw rfl
    rw [exec, anchor_flush, if_neg hn]
  | removeMember b' m' =>
    have hne : ¬ (b = b' ∧ m = m') := by
      rintro ⟨rfl, rfl⟩
      exact hs.member rfl
    refine ⟨?_, ?_, ?_, ?_⟩
    · rw [exec, look_deletem]
      split
      · rename_i hb
        rw [hb, Option.isSome_map]
      · rfl
    · rw [exec, mem_membersOf_deletem]
      exact (and_iff_left hne).symm
    · rw [exec, lock_deletem, if_neg hne]
    · rw [exec, anchor_deletem]
      exact fun _ => rfl
  | _ => exact absurd hx id

/-- Phases that only take other things away may come in any order, and be left out. -/
theorem alike_takes (h : Host) {ops : List Op} (hx : ∀ x ∈ ops, x.Takes)
    (hs : ∀ x ∈ ops, x.Spares b m w) : Alike b m w h (h.run ops) := by
  induction ops generalizing h with
  | nil => exact .refl b m w h
  | cons x rest ih =>
    have hfirst := alike_spared h (hx x List.mem_cons_self) (hs x List.mem_cons_self)
    exact hfirst.trans (ih _ (fun y hy => hx y (List.mem_cons_of_mem _ hy))
      fun y hy => hs y (List.mem_cons_of_mem _ hy))

theorem Alike.run {h h' : Host} (a : Alike b m w h h') (ops : List Op) :
    Alike b m w (h.run ops) (h'.run ops) := by
  induction ops generalizing h h' with
  | nil => exact a
  | cons x rest ih => exact ih (a.exec x)

end Host

/-! ## 3. A runner that makes such runs -/

/-- A runner over a host whose pfctl(8) acts on the anchors: a load that succeeds makes the anchor
what was rendered, a replace that succeeds the table, a flush may have its effect whatever it
answers, and what only looks, or kills states, changes no anchor.

The load is asked of rulesets of atoms only. It is given a text, and other rulesets share theirs
(`Proof/Printed.lean`, which also has a reading of the text that meets this law). The anchors of a
host are those with rules: a table that a replace makes in an anchor without rules is none. -/
structure Anchored {σ : Type} [Hashlib] (run : Runner σ) (host : σ → Host) : Prop where
  machine : Machine run host
  load : ∀ n filt bind tables s, Pf.Printable n filt bind tables →
    let r := Pf.render n filt bind tables
    ((run [PFCTL, "-a", Pf.anchorName n, "-f", "-"] none (some r.1.text)).run s).1.ok = true →
      (host ((run [PFCTL, "-a", Pf.anchorName n, "-f", "-"] none (some r.1.text)).run s).2).anchors =
        ((host s).load n r.1 r.2).anchors
  replace : ∀ n t ms s, ((run (argvFor (.replaceTable n t ms)) none none).run s).1.ok = true →
    (host ((run (argvFor (.replaceTable n t ms)) none none).run s).2).anchors =
      ((host s).setTable n t ms).anchors
  flush : ∀ n s,
    (host ((run (argvFor (.flushAnchor n)) none none).run s).2).anchors = (host s).anchors ∨
      (host ((run (argvFor (.flushAnchor n)) none none).run s).2).anchors =
        ((host s).flush n).anchors
  quiet : ∀ args s, args = ["-vvss"] ∨ (∃ id, args = ["-k", "id", "-k", id]) ∨
      (∃ n, args = ["-a", Pf.anchorName n, "-sr"]) →
    (host ((run (PFCTL :: args) none none).run s).2).anchors = (host s).anchors

namespace Writer

section

variable [Hashlib] {σ : Type} {run : Runner σ} {host : σ → Host} {s : σ}

/-- An invocation of pfctl(8) leaves the host as its anchors say. -/
theorem host_pfctl (A : Anchored run host) {args : List String} {input : Option String}
    {timeout : Option Nat} {h' : Host}
    (hanchors : (host ((run (PFCTL :: args) timeout input).run s).2).anchors = h'.anchors)
    (hsame : ∀ anchors, { host s with anchors := anchors } = { h' with anchors := anchors }) :
    host ((run (PFCTL :: args) timeout input).run s).2 = h' := by
  obtain ⟨anchors, hrun⟩ := A.machine.pfctl args timeout input s
  rw [hrun] at hanchors ⊢
  have hans : anchors = h'.anchors := hanchors
  rw [hans, hsame]

theorem host_quiet (A : Anchored run host) {args : List String}
    (hargs : args = ["-vvss"] ∨ (∃ id, args = ["-k", "id", "-k", id]) ∨
      ∃ n, args = ["-a", Pf.anchorName n, "-sr"]) :
    host ((run (PFCTL :: args) none none).run s).2 = host s :=
  host_pfctl A (A.quiet args s hargs) fun _ => rfl

/-- Killing states changes nothing on the host. -/
theorem host_killPortStates (A : Anchored run host) (n : String) :
    host ((Pf.killPortStates n run).run s).2 = host s := by
  refine killPortStates_keeps (I := fun t => host t = host s) ?_ ?_ rfl
  · intro t ht
    rw [host_quiet A (Or.inl rfl), ht]
  · intro id t ht
    rw [host_quiet A (Or.inr (Or.inl ⟨id, rfl⟩)), ht]

/-- A query of an interface changes nothing either. -/
theorem host_query (A : Anchored run host) (n : String) :
    host ((run [IFCONFIG, n] none none).run s).2 = host s := by
  cases hok : ((run [IFCONFIG, n] none none).run s).1.ok with
  | true => exact (Option.some.inj (A.machine.effect [n] none none s hok)).symm
  | false => exact A.machine.failure [n] none none s hok

/-- A receipt that does not fail its pass. -/
def Clean (r : Receipt Op) : Prop := r.ok = true ∨ r.parked = true

/-- The load of an op is a rendered one, of atoms. -/
def Rendered (x : Op) : Prop := ∀ n f r c, x = .loadAnchor n f r c →
  ∃ filt bind tables, Pf.Printable n filt bind tables ∧ (r, c) = Pf.render n filt bind tables

/-! ## 4. An op, and a plan

A case for each kind of op, from its receipt to its effect. -/

open Host

omit [Hashlib] in
theorem clone_eq {h h' : Host} {i : Interface} (he : h.clone i = some h') : h' = h.create i := by
  unfold Host.clone at he
  split at he
  · exact absurd he (by simp)
  · exact (Option.some.inj he).symm

omit [Hashlib] in
/-- An op of one invocation is as good as it. -/
theorem clean_own {x : Op}
    (hone : (apply run false x).run s = (receiptOf x (argvFor x)
      ((run (argvFor x) none none).run s).1, ((run (argvFor x) none none).run s).2))
    (hclean : Clean ((apply run false x).run s).1) :
    ((run (argvFor x) none none).run s).1.ok = true := by
  rw [hone] at hclean
  rcases hclean with h | h
  · rw [← h, receiptOf_ok]
  · rw [receiptOf_parked] at h
    exact absurd h (by decide)

/-- An op of one ifconfig(8) runs it, and is as good as it. -/
theorem apply_own {x : Op} {args : List String} (hargs : argvFor x = IFCONFIG :: args)
    (hone : (apply run false x).run s = (receiptOf x (argvFor x)
      ((run (argvFor x) none none).run s).1, ((run (argvFor x) none none).run s).2))
    (A : Anchored run host) (hclean : Clean ((apply run false x).run s).1) :
    (host s).ifconfig args = some (host (Reconcile.afterOp run s x)) := by
  have hok := clean_own hone hclean
  unfold Reconcile.afterOp
  rw [hone]
  rw [hargs] at hok ⊢
  exact A.machine.effect args none none s hok

variable {b m : String} {w : Prop}

/-- A create, by what the kernel made. -/
theorem apply_create {x : Op} {args : List String} {i j : Interface}
    (hargs : argvFor x = IFCONFIG :: args)
    (hone : (apply run false x).run s = (receiptOf x (argvFor x)
      ((run (argvFor x) none none).run s).1, ((run (argvFor x) none none).run s).2))
    (A : Anchored run host) (hclean : Clean ((apply run false x).run s).1)
    (hclone : (host s).ifconfig args = (host s).clone i) (hmade : (host s).exec x = (host s).create j)
    (hname : i.name = j.name) (hi : i.members = []) (hj : j.members = []) :
    Alike b m w (host (Reconcile.afterOp run s x)) ((host s).exec x) := by
  rw [hmade, clone_eq (hclone.symm.trans (apply_own hargs hone A hclean))]
  exact (Alike.refl b m w (host s)).create hname hi hj

/-- A load whose receipt is clean has made the anchor. -/
theorem host_load (A : Anchored run host) {n f c : String} {r : Pf.Ruleset}
    (hload : ((run [PFCTL, "-a", Pf.anchorName n, "-f", "-"] none (some r.text)).run s).1.ok = true →
      (host ((run [PFCTL, "-a", Pf.anchorName n, "-f", "-"] none (some r.text)).run s).2).anchors =
        ((host s).load n r c).anchors)
    (hclean : Clean ((apply run false (.loadAnchor n f r c)).run s).1) :
    host (Reconcile.afterOp run s (.loadAnchor n f r c)) = (host s).load n r c := by
  obtain ⟨hok, hparked⟩ := apply_load run s n f c r
  have hgood : ((run (argvFor (.loadAnchor n f r c)) none (some r.text)).run s).1.ok = true := by
    rcases hclean with h | h
    · rw [← hok, h]
    · rw [hparked] at h
      exact absurd h (by decide)
  have hloaded := host_pfctl A (hload hgood) fun _ => rfl
  unfold Reconcile.afterOp apply execute
  rw [if_neg Bool.false_ne_true]
  simp only [run_seq, if_pos hgood]
  exact (host_killPortStates A n).trans hloaded

/-- A flush has its effect or none. -/
theorem host_flush (A : Anchored run host) (n : String) :
    host (Reconcile.afterOp run s (.flushAnchor n)) = host s ∨
      host (Reconcile.afterOp run s (.flushAnchor n)) = (host s).flush n := by
  have hafter : host (Reconcile.afterOp run s (.flushAnchor n)) =
      host ((run (argvFor (.flushAnchor n)) none none).run s).2 := by
    unfold Reconcile.afterOp apply execute
    rw [if_neg Bool.false_ne_true]
    simp only [run_seq]
    have hreread : host ((run [PFCTL, "-a", Pf.anchorName n, "-sr"] none none).run
        ((Pf.killPortStates n run).run ((run (argvFor (.flushAnchor n)) none none).run s).2).2).2 =
        host ((run (argvFor (.flushAnchor n)) none none).run s).2 :=
      (host_quiet A (Or.inr (Or.inr ⟨n, rfl⟩))).trans (host_killPortStates A n)
    split <;> exact hreread
  rw [hafter]
  rcases A.flush n s with h | h
  · exact Or.inl (host_pfctl A h fun _ => rfl)
  · exact Or.inr (host_pfctl A h fun _ => rfl)

omit [Hashlib] in
/-- A lock whose receipt is clean did not stop at its first command. -/
theorem runLock_clean {x : Op} {first extra : Argv} {rest : List Argv}
    (hclean : Clean ((runLock run x first (extra :: rest)).run s).1) :
    ((run extra none none).run s).1.ok = true ∧
      (runLock run x first (extra :: rest)).run s =
        (runLock run x first rest).run ((run extra none none).run s).2 := by
  rw [runLock_cons] at hclean ⊢
  split at hclean
  · rename_i hok
    exact ⟨hok, if_pos hok⟩
  · rename_i hok
    rcases hclean with h | h
    · exact absurd (receiptOf_ok.symm.trans h) hok
    · rw [receiptOf_parked] at h
      exact absurd h (by decide)

/-- A lock whose receipt is clean has made its three settings. -/
theorem host_lock (A : Anchored run host) {b' m' mac : String}
    (hclean : Clean ((apply run false (.lockMemberMac b' m' mac)).run s).1) :
    host (Reconcile.afterOp run s (.lockMemberMac b' m' mac)) =
      (host s).exec (.lockMemberMac b' m' mac) := by
  have hone : ∀ {t h'} {args : List String}, (host t).ifconfig args = (host t).ofMember b' m' h' →
      ((run (IFCONFIG :: args) none none).run t).1.ok = true →
        host ((run (IFCONFIG :: args) none none).run t).2 = h' := by
    intro t h' args he hok
    exact (of_member (he.symm.trans (A.machine.effect args none none t hok))).2.symm
  have hrun : (apply run false (.lockMemberMac b' m' mac)).run s =
      (runLock run (.lockMemberMac b' m' mac) (argvFor (.lockMemberMac b' m' mac))
        (lockArgvs b' m' mac)).run s := rfl
  unfold Reconcile.afterOp
  rw [hrun] at hclean ⊢
  unfold lockArgvs at hclean ⊢
  obtain ⟨hok₁, hrun₁⟩ := runLock_clean hclean
  rw [hrun₁] at hclean ⊢
  obtain ⟨hok₂, hrun₂⟩ := runLock_clean hclean
  rw [hrun₂] at hclean ⊢
  obtain ⟨hok₃, hrun₃⟩ := runLock_clean hclean
  rw [hrun₃]
  show host ((run [IFCONFIG, b', "sticky", m'] none none).run _).2 = _
  rw [hone rfl hok₃, hone rfl hok₂, hone rfl hok₁]
  rfl

/-- A destroy has its effect or none. -/
theorem host_destroy (A : Anchored run host) {x : Op} {n : String}
    (hx : x = .destroyIface n ∨ x = .destroyBridge n) :
    host (Reconcile.afterOp run s x) = host s ∨
      host (Reconcile.afterOp run s x) = (host s).destroy n := by
  have hseen : host ((ownedByKernel run n).run s).2 = host s := by
    refine ownedByKernel_keeps (I := fun t => host t = host s) ?_ rfl
    intro t ht
    rw [host_query A, ht]
  have hone : ∀ timeout, host ((run [IFCONFIG, n, "destroy"] timeout none).run
        ((ownedByKernel run n).run s).2).2 = host s ∨
      host ((run [IFCONFIG, n, "destroy"] timeout none).run
        ((ownedByKernel run n).run s).2).2 = (host s).destroy n := by
    intro timeout
    rw [← hseen]
    cases hok : ((run [IFCONFIG, n, "destroy"] timeout none).run
        ((ownedByKernel run n).run s).2).1.ok with
    | true => exact Or.inr (Option.some.inj (A.machine.effect [n, "destroy"] _ _ _ hok)).symm
    | false => exact Or.inl (A.machine.failure [n, "destroy"] _ _ _ hok)
  unfold Reconcile.afterOp
  rcases hx with rfl | rfl
  · unfold apply execute
    rw [if_neg Bool.false_ne_true]
    simp only [run_seq]
    split
    · exact Or.inl hseen
    · exact Or.inl hseen
    · simp only [run_seq]
      split <;> exact hone _
  · unfold apply execute
    rw [if_neg Bool.false_ne_true]
    simp only [run_seq]
    split
    · exact Or.inl hseen
    · exact Or.inl hseen
    · simp only [run_seq]
      split <;> exact hone _

/-- **An op that does not fail its pass** leaves a host that looks as its effect would, or it is a
destroy or a flush without effect. -/
theorem apply_cases (A : Anchored run host) {x : Op} (hx : Rendered x)
    (hclean : Clean ((apply run false x).run s).1) :
    (∀ b m w, Alike b m w (host (Reconcile.afterOp run s x)) ((host s).exec x)) ∨
      (x.Takes ∧ (∀ b m, x ≠ .removeMember b m) ∧
        host (Reconcile.afterOp run s x) = host s) := by
  have same : ∀ {h' : Host}, some h' = some (host (Reconcile.afterOp run s x)) →
      h' = (host s).exec x →
      ∀ b m w, Alike b m w (host (Reconcile.afterOp run s x)) ((host s).exec x) := by
    intro h' he hexec b m w
    rw [← Option.some.inj he, hexec]
    exact .refl b m w _
  cases x with
  | createBridge n v => exact Or.inl fun b m w => apply_create rfl rfl A hclean rfl rfl rfl rfl rfl
  | createVlan n parent vid => exact Or.inl fun b m w => apply_create rfl rfl A hclean rfl rfl rfl rfl rfl
  | createVxlan n vni ep peer => exact Or.inl fun b m w => apply_create rfl rfl A hclean rfl rfl rfl rfl rfl
  | createTap n d =>
    by_cases hd : d = ""
    · subst hd
      exact Or.inl fun b m w => apply_create rfl rfl A hclean rfl rfl rfl rfl rfl
    · have hargs : argvFor (.createTap n d) = IFCONFIG :: ["tap", "create", "name", n, "descr", d,
          "group", OWNED_GROUP, "up"] := by
        simp [argvFor, hd]
      exact Or.inl fun b m w => apply_create hargs rfl A hclean rfl rfl rfl rfl rfl
  | addMember b' m' =>
    have heff : (host s).ifconfig [b', "addm", m'] = some _ :=
      apply_own (x := .addMember b' m') rfl rfl A hclean
    exact Or.inl (same heff rfl)
  | removeMember b' m' =>
    have heff : (host s).ifconfig [b', "deletem", m'] = some _ :=
      apply_own (x := .removeMember b' m') rfl rfl A hclean
    exact Or.inl (same heff rfl)
  | setMaxaddr b' v =>
    have heff : (Text.readInt (toString v)).map ((host s).setMaxaddr b') = _ :=
      apply_own (x := .setMaxaddr b' v) rfl rfl A hclean
    obtain ⟨v', -, hh⟩ := Option.map_eq_some_iff.mp heff
    rw [← hh]
    exact Or.inl fun b m w =>
      (Alike.setMaxaddr_self _ b' v').symm.trans (Alike.setMaxaddr_self _ b' v)
  | loadAnchor n f r c =>
    obtain ⟨filt, bind, tables, hprint, hr⟩ := hx n f r c rfl
    have hload := A.load n filt bind tables s hprint
    rw [← hr] at hload
    have hhost := host_load A hload hclean
    exact Or.inl (same (congrArg some hhost.symm) rfl)
  | replaceTable n t ms =>
    obtain ⟨args, hargs⟩ := argvFor_replaceTable n t ms
    have hok : ((run (argvFor (.replaceTable n t ms)) none none).run s).1.ok = true :=
      clean_own (x := .replaceTable n t ms) rfl hclean
    have hanchors := A.replace n t ms s hok
    have hhost : host (Reconcile.afterOp run s (.replaceTable n t ms)) =
        (host s).setTable n t ms := by
      show host ((run (argvFor (.replaceTable n t ms)) none none).run s).2 = _
      rw [hargs] at hanchors ⊢
      refine host_pfctl A hanchors fun anchors => ?_
      unfold setTable
      cases (host s).anchors.get? n <;> rfl
    exact Or.inl (same (congrArg some hhost.symm) rfl)
  -- a flush or a destroy may be refused and be taken for done: the host is then as it was
  | flushAnchor n =>
    rcases host_flush A n (s := s) with hhost | hhost
    · exact Or.inr ⟨trivial, by simp, hhost⟩
    · exact Or.inl (same (congrArg some hhost.symm) rfl)
  | lockMemberMac b' m' mac => exact Or.inl (same (congrArg some (host_lock A hclean).symm) rfl)
  | destroyIface n =>
    rcases host_destroy A (s := s) (x := .destroyIface n) (Or.inl rfl) with hhost | hhost
    · exact Or.inr ⟨trivial, by simp, hhost⟩
    · exact Or.inl (same (congrArg some hhost.symm) rfl)
  | destroyBridge n =>
    rcases host_destroy A (s := s) (x := .destroyBridge n) (Or.inr rfl) with hhost | hhost
    · exact Or.inr ⟨trivial, by simp, hhost⟩
    · exact Or.inl (same (congrArg some hhost.symm) rfl)

theorem apply_alike (A : Anchored run host) {x : Op} (hx : Rendered x) (hs : x.Spares b m w)
    (hclean : Clean ((apply run false x).run s).1) :
    Alike b m w (host (Reconcile.afterOp run s x)) ((host s).exec x) := by
  rcases apply_cases A hx hclean with halike | ⟨htakes, -, hhost⟩
  · exact halike b m w
  · rw [hhost]
    exact alike_spared _ htakes hs

/-- **A plan whose receipts are clean** leaves a host that shows of a member its ops spare what
the ideal run shows. -/
theorem applyPlan_alike (A : Anchored run host) {ops : List Op} {h : Host}
    (hx : ∀ x ∈ ops, Rendered x) (hs : ∀ x ∈ ops, x.Spares b m w)
    (hclean : Before (Reconcile.afterOp run) (fun t x => Clean ((apply run false x).run t).1) ops s)
    (hh : Alike b m w (host s) h) :
    Alike b m w (host (ops.foldl (Reconcile.afterOp run) s)) (h.run ops) := by
  induction ops generalizing s h with
  | nil => exact hh
  | cons x rest ih =>
    have hfirst := apply_alike A (hx x List.mem_cons_self) (hs x List.mem_cons_self) hclean.1
    exact ih (fun y hy => hx y (List.mem_cons_of_mem _ hy))
      (fun y hy => hs y (List.mem_cons_of_mem _ hy)) hclean.2 (hfirst.trans (hh.exec x))

end

end Writer

/-! ## 5. A runner that keeps the law

`Anchored` asks for a load what the ruleset says, and a runner is given a text. Below is one that
reads the text (`Pf.anchorIn`), over any host: its ifconfig(8) does what `Host.ifconfig` says, its
pfctl(8) loads, repairs and flushes, and neither has a word to say. A query of an interface fails,
as it does where there is none. -/

namespace Silent

/-- One ifconfig(8). -/
def ifconfigStep (h : Host) (args : List String) : RunResult × Host :=
  match h.ifconfig args with
  | some h' => ({ rc := .code (if args.length = 1 then 1 else 0) }, h')
  | none => ({ rc := .code 1 }, h)

/-- The interface an anchor is named for. -/
def portOf (anchor : String) : String := Text.drop anchor Pf.ANCHOR_PREFIX.length

/-- One pfctl(8). -/
def pfctlStep (h : Host) (args : List String) (input : Option String) : RunResult × Host :=
  match args, input with
  | ["-a", a, "-f", "-"], some text =>
      ({ rc := .code 0 }, { h with anchors := h.anchors.insert (portOf a) (Pf.anchorIn text) })
  | ["-a", a, "-t", t, "-T", "flush"], _ => ({ rc := .code 0 }, h.setTable (portOf a) t [])
  | "-a" :: a :: "-t" :: t :: "-T" :: "replace" :: ms, _ =>
      ({ rc := .code 0 }, h.setTable (portOf a) t ms)
  | ["-a", a, "-F", "all"], _ => ({ rc := .code 0 }, h.flush (portOf a))
  | _, _ => ({ rc := .code 1 }, h)

/-- The two tools. -/
def runner : Runner Host := fun argv _ input h =>
  if argv.head? = some IFCONFIG then ifconfigStep h argv.tail
  else if argv.head? = some PFCTL then pfctlStep h argv.tail input
  else ({ rc := .code 1 }, h)

theorem run_ifconfig (h : Host) (args : List String) (timeout : Option Nat)
    (input : Option String) :
    (runner (IFCONFIG :: args) timeout input).run h = ifconfigStep h args := by
  unfold runner StateT.run
  simp only [List.head?_cons, if_true, List.tail_cons]

theorem run_pfctl (h : Host) (args : List String) (timeout : Option Nat)
    (input : Option String) :
    (runner (PFCTL :: args) timeout input).run h = pfctlStep h args input := by
  have hne : ¬ some PFCTL = some IFCONFIG := by decide
  unfold runner StateT.run
  simp only [List.head?_cons, if_neg hne, if_true, List.tail_cons]

theorem portOf_anchorName (n : String) : portOf (Pf.anchorName n) = n := by
  unfold portOf Pf.anchorName Text.drop
  rw [String.toList_append, ← String.length_toList, List.drop_left, String.ofList_toList]

theorem machine : Machine runner id where
  effect := by
    intro args timeout input h hok
    rw [run_ifconfig] at hok ⊢
    unfold ifconfigStep at hok ⊢
    cases he : h.ifconfig args with
    | some h' => exact he
    | none =>
      rw [he] at hok
      exact absurd hok (by simp [RunResult.ok])
  failure := by
    intro args timeout input h hok
    rw [run_ifconfig] at hok ⊢
    unfold ifconfigStep at hok ⊢
    cases he : h.ifconfig args with
    | none => rfl
    | some h' =>
      rw [he] at hok
      -- only the query of an interface fails with an effect, and it has none
      by_cases hone : args.length = 1
      · obtain ⟨n, rfl⟩ := List.length_eq_one_iff.mp hone
        exact (Option.some.inj he).symm
      · exact absurd hok (by simp [hone, RunResult.ok])
  pfctl := by
    intro args timeout input h
    have htable : ∀ n t ms, ∃ anchors, h.setTable n t ms = { h with anchors } := by
      intro n t ms
      unfold Host.setTable
      cases h.anchors.get? n with
      | none => exact ⟨h.anchors, rfl⟩
      | some st => exact ⟨_, rfl⟩
    rw [run_pfctl]
    unfold pfctlStep
    split
    · exact ⟨_, rfl⟩
    · exact htable _ _ _
    · exact htable _ _ _
    · exact ⟨_, rfl⟩
    · exact ⟨h.anchors, rfl⟩

/-- **The law can be kept**: where every hash has the digits of one, a runner that is given no more
than the text of a ruleset of atoms loads that ruleset. -/
theorem anchored [Hashlib]
    (hdigits : ∀ n filt bind, Pf.HashDigits (Pf.cfgHash n filt bind)) : Anchored runner id where
  machine := machine
  load := by
    intro n filt bind tables h hprint
    dsimp only
    rw [run_pfctl]
    intro _
    show h.anchors.insert (portOf (Pf.anchorName n)) _ = _
    rw [portOf_anchorName, Pf.anchorIn_render hprint (hdigits n filt bind)]
    rfl
  replace := by
    intro n t ms h _
    by_cases hms : ms = []
    · subst hms
      show ((runner [PFCTL, "-a", Pf.anchorName n, "-t", t, "-T", "flush"] none none).run h).2.anchors
        = _
      rw [run_pfctl]
      show (h.setTable (portOf (Pf.anchorName n)) t []).anchors = _
      rw [portOf_anchorName]
      rfl
    · have hargv : argvFor (.replaceTable n t ms) =
          PFCTL :: ("-a" :: Pf.anchorName n :: "-t" :: t :: "-T" :: "replace" :: ms) := if_neg hms
      rw [hargv, run_pfctl]
      show (h.setTable (portOf (Pf.anchorName n)) t ms).anchors = _
      rw [portOf_anchorName]
      rfl
  flush := by
    intro n h
    refine Or.inr ?_
    show ((runner [PFCTL, "-a", Pf.anchorName n, "-F", "all"] none none).run h).2.anchors = _
    rw [run_pfctl]
    show (h.flush (portOf (Pf.anchorName n))).anchors = _
    rw [portOf_anchorName]
    rfl
  quiet := by
    intro args h hargs
    rw [run_pfctl]
    rcases hargs with rfl | ⟨id, rfl⟩ | ⟨n, rfl⟩ <;> rfl

end Silent

end Bsdbridge
