import Bsdbridge.Files
import Bsdbridge.Proof.Actions

/-!
# What the plumbing may do

For each function of `jail.py` the commands it may issue and the names it may add: a scope that has
these has the function. The destroying of a half epair and the collection of what nobody desires
have their own fields, for whoever wants to tell them apart.

A scope is a set of commands and of effects, and "may" is all it says. The functions of the source
decide by what the kernel answers which of their commands they issue; none of that is followed
here, since an invariant that holds under every command of the scope does not depend on it. What a
function *achieves* is another matter, and has its own files: addresses in `Proof/Inets`, routes in
`Proof/Routes`, rules in `Proof/RouterPf`.

The one exception to "may" is about failures. A jail that could not be made leaves a failure in the
pass, and the callers go on without it; whoever assumes a pass without failures can so assume that
the jail was made.
-/

set_option autoImplicit false

namespace Bsdbridge

namespace Jail

open Prog Actions

variable {ε : Type} {cmd : Command ε} {s : Scope ε}

theorem listJails_within {pattern : Regex} (h : s.issues [JLS, "name"]) :
    Within cmd s (listJails cmd pattern) :=
  (within_run h).bind fun _ => within_pure

theorem listGroup_within {group : String} (h : s.issues [IFCONFIG, "-g", group]) :
    Within cmd s (listGroup cmd group) :=
  (within_run h).bind fun _ => within_pure

theorem within_addJail {n : String} (h : s.jails n) :
    Within cmd s (update fun t : Pass ε => t.addJail n) :=
  fun _ hI => keeps_update fun t ht => hI.addJail t n h ht

theorem within_addHostIf {n : String} (h : s.hostIfs n) :
    Within cmd s (update fun t : Pass ε => t.addHostIf n) :=
  fun _ hI => keeps_update fun t ht => hI.addHostIf t n h ht

theorem within_discardHostIf {n : String} :
    Within cmd s (update fun t : Pass ε => t.discardHostIf n) :=
  fun _ hI => keeps_update fun t ht => hI.discardHostIf t n ht

theorem ensureJail_within {name : String} (hj : s.jails name)
    (hcreate : s.issues [JAIL, "-c", "name=" ++ name, "vnet", "persist", "path=/"])
    (hloop : s.issues [JEXEC, name, IFCONFIG, "lo0", "up"]) :
    Within cmd s (ensureJail cmd name) := by
  unfold ensureJail
  refine within_look.bind fun jails => ?_
  split
  · exact within_pure
  · refine (within_perform hcreate).bind fun a => ?_
    obtain ⟨ok, out⟩ := a
    dsimp only
    split
    · exact within_pure
    · exact (within_addJail hj).bind fun _ => (within_act hloop).bind fun _ => within_pure

/-- A jail that could not be made leaves a failure. -/
theorem ensureJail_false {name : String} {t t' : Pass ε}
    (hrun : exec (ensureJail cmd name) t = (some false, t')) : ¬ Clean t' := by
  unfold ensureJail at hrun
  rw [exec_bind, exec_look] at hrun
  dsimp only at hrun
  split at hrun
  · exact absurd (Prod.mk.inj hrun).1 (by simp)
  · obtain ⟨a, t₁, hcreate, hrun⟩ := exec_bind_some.mp hrun
    obtain ⟨ok, out⟩ := a
    cases ok with
    | false =>
      obtain ⟨-, rfl⟩ := Prod.mk.inj hrun
      rw [exec_perform] at hcreate
      split at hcreate
      · rename_i r e hcmd
        obtain ⟨hans, rfl⟩ := Prod.mk.inj hcreate
        have hbad : good [0] r = false := (Prod.mk.inj (Option.some.inj hans)).1
        intro hclean
        have hok := hclean _ (List.mem_append_right _ (List.mem_singleton.mpr rfl))
        exact absurd (hbad.symm.trans hok) (by simp)
      · exact absurd (Prod.mk.inj hcreate).1 (by simp)
    | true =>
      obtain ⟨_, t₂, -, hrun⟩ := exec_bind_some.mp hrun
      obtain ⟨_, t₃, -, hrun⟩ := exec_bind_some.mp hrun
      exact absurd (Prod.mk.inj hrun).1 (by simp)

theorem fixDescr_within {hostIf portId text : String}
    (h : s.issues [IFCONFIG, hostIf, "descr", DESCRIPTION_PREFIX ++ portId]) :
    Within cmd s (fixDescr cmd hostIf portId text) := by
  unfold fixDescr
  dsimp only
  split
  · exact within_pure
  · exact within_actIf h

/-- The commands that make an epair. -/
structure MakesEpair (s : Scope ε) (jail hostIf jailIf portId group : String) : Prop where
  create : s.issues [IFCONFIG, "epair", "create"]
  name : ∀ a, s.issues
    [IFCONFIG, a, "name", hostIf, "descr", DESCRIPTION_PREFIX ++ portId, "group", group, "up"]
  move : ∀ b, s.issues [IFCONFIG, b, "vnet", jail]
  inside : ∀ b, s.issues [JEXEC, jail, IFCONFIG, b, "name", jailIf]
  hostIf : s.hostIfs hostIf

theorem makeEpair_within {jail hostIf jailIf portId group : String}
    (h : MakesEpair s jail hostIf jailIf portId group) :
    Within cmd s (makeEpair cmd jail hostIf jailIf portId group) := by
  unfold makeEpair
  refine (within_perform h.create).bind fun a => ?_
  obtain ⟨ok, out⟩ := a
  dsimp only
  split
  · exact within_pure
  · exact (within_act (h.name _)).bind fun _ => (within_addHostIf h.hostIf).bind fun _ =>
      (within_act (h.move _)).bind fun _ => (within_act (h.inside _)).bind fun _ => within_pure

/-- The commands that read an epair, and those that destroy half of one. -/
structure RepairsEpair (s : Scope ε) (jail hostIf jailIf portId : String) : Prop where
  host : s.issues [IFCONFIG, hostIf]
  inside : s.issues [JEXEC, jail, IFCONFIG, jailIf]
  descr : s.issues [IFCONFIG, hostIf, "descr", DESCRIPTION_PREFIX ++ portId]
  destroy : s.issues [IFCONFIG, hostIf, "destroy"]
  destroyInside : s.issues [JEXEC, jail, IFCONFIG, jailIf, "destroy"]

theorem repairEpair_within {jail hostIf jailIf portId : String}
    (h : RepairsEpair s jail hostIf jailIf portId) :
    Within cmd s (repairEpair cmd jail hostIf jailIf portId) := by
  unfold repairEpair
  refine (within_run h.host).bind fun host => (within_run h.inside).bind fun inner => ?_
  split
  · exact (within_act h.destroy).bind fun _ => within_discardHostIf.bind fun _ => within_pure
  · split
    · exact (fixDescr_within h.descr).bind fun _ => within_pure
    · split
      · exact (within_act h.destroyInside).bind fun _ => within_pure
      · exact within_pure

theorem ensureEpair_within {jail hostIf jailIf portId group : String}
    (hr : RepairsEpair s jail hostIf jailIf portId)
    (hm : MakesEpair s jail hostIf jailIf portId group) :
    Within cmd s (ensureEpair cmd jail hostIf jailIf portId group) := by
  unfold ensureEpair
  refine (repairEpair_within hr).bind fun text => ?_
  cases text with
  | some text => exact within_pure
  | none =>
    refine (makeEpair_within hm).bind fun made => ?_
    split
    · exact (within_run hr.inside).bind fun _ => within_pure
    · exact within_pure

theorem addInets_within {jail jailIf : String} {have_ : Finset (String × Nat)} {first : Bool}
    {ips : List (String × Nat)}
    (h : ∀ a how, s.issues [JEXEC, jail, IFCONFIG, jailIf, "inet", a, how]) :
    Within cmd s (addInets cmd jail jailIf have_ first ips) := by
  induction ips generalizing first with
  | nil => exact within_pure
  | cons a rest ih =>
    unfold addInets
    split
    · exact ih
    · exact (within_act (h _ _)).bind fun _ => ih

theorem ensureAddrs_within {jail jailIf text mac : String} {ips : List (String × Nat)}
    (hether : s.issues [JEXEC, jail, IFCONFIG, jailIf, "ether", mac])
    (hinet : ∀ a how, s.issues [JEXEC, jail, IFCONFIG, jailIf, "inet", a, how]) :
    Within cmd s (ensureAddrs cmd jail jailIf text mac ips) := by
  unfold ensureAddrs
  split
  · exact within_pure
  · exact (within_actIf hether).bind fun _ => (addInets_within hinet).bind fun _ =>
      within_forM fun a _ => within_act (hinet _ _)

theorem killJailProcs_within {jail : String} (hjid : s.issues [JLS, "-j", jail, "jid"])
    (hkill : ∀ jid, s.issues [PKILL, "-j", jid]) : Within cmd s (killJailProcs cmd jail) := by
  unfold killJailProcs
  refine (within_run hjid).bind fun r => ?_
  split
  · exact (within_perform (hkill _)).bind fun _ => within_pure
  · exact within_pure

theorem collect_within {desiredJails desiredIfs : Finset String}
    (hjid : ∀ j, s.issues [JLS, "-j", j, "jid"]) (hkill : ∀ jid, s.issues [PKILL, "-j", jid])
    (hdestroy : ∀ n, n ∉ desiredIfs → s.issues [IFCONFIG, n, "destroy"])
    (hremove : ∀ j, j ∉ desiredJails → s.issues [JAIL, "-r", j]) :
    Within cmd s (collect cmd desiredJails desiredIfs) := by
  unfold collect
  refine within_look.bind fun jails => ?_
  refine (within_forM fun j _ => killJailProcs_within (hjid j) hkill).bind fun _ => ?_
  refine within_look.bind fun hostIfs => ?_
  refine (within_forM fun n hn => within_act (hdestroy n ?_)).bind fun _ => ?_
  · exact (Finset.mem_sdiff.mp (mem_sortedSet.mp hn)).2
  · refine within_forM fun j hj => within_act (hremove j ?_)
    exact (Finset.mem_sdiff.mp (mem_sortedSet.mp hj)).2

end Jail

/-! ## The state directory

A change of the disk is a step that may stop the pass, as a full disk does, and then a change. -/

namespace Files

open Prog Actions

variable {ρ : Type} {cmd : Command (Site ρ)} {pause : Prog (Site ρ) Unit} {s : Scope (Site ρ)}

/-- A scope with every change of the disk, behind the step that may stop the pass. -/
def Changes (pause : Prog (Site ρ) Unit) (s : Scope (Site ρ)) : Prop :=
  ∀ f : Disk → Disk, s.effects do pause; update fun e : Site ρ => { e with disk := f e.disk }

theorem change_within (h : Changes pause s) (f : Disk → Disk) :
    Within cmd s (change pause f) := within_effect (h f)

theorem writeIfChanged_within {dir name text : String} (h : Changes pause s) :
    Within cmd s (writeIfChanged pause dir name text) := by
  unfold writeIfChanged
  refine within_look.bind fun old => ?_
  split
  · exact within_pure
  · exact (change_within h _).bind fun _ => within_pure

theorem removeState_within {desiredDirs : Finset String} (h : Changes pause s) :
    Within cmd s (removeState pause desiredDirs) :=
  within_look.bind fun _ => within_forM fun _ _ => (change_within h _).bind fun _ => within_note

end Files

end Bsdbridge
