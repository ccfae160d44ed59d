import Bsdbridge.DhcpAgent.Reconcile
import Bsdbridge.Proof.Record
import Bsdbridge.Proof.RouterScope

/-!
# The two planes of jails

The dhcp and the l3 reconciler share a kernel. What either of them takes away, it takes away by
name: a jail whose name has its own form and which nobody desires, an interface the kernel lists
under its own group and nobody desires, and half of one of its own epairs. **`planes_apart`** says
so of every command of a pass, whatever the kernel answers and wherever the pass stops.

The two sets a pass carries along start as what was listed, and grow by what is desired. This is
the invariant (`Mine`), and it is why the collection at the end, which takes the desired names from
the sets again, is left with what was listed.

The kernel is no model here. It is a runner that answers anything, and the statement is about the
record of what was run and answered (`Proof/Record`): before a jail is removed its name must have
the plane's form, and before an interface is destroyed the kernel must have listed it under the
group. A kernel that lists an interface under a group it is not in can mislead the agent, so the
clause about epairs says what follows if it does not.

## Why the forms do not meet

A jail's name says which plane it belongs to, by what it begins with. That no name has both forms
is a fact about two regular expressions, and it is the only place where they are looked at.
-/

set_option autoImplicit false

namespace Bsdbridge

open Prog Actions

/-! ## 1. What a plane may take away

`Allows` is stated for any command and any record, so it can be the invariant of a whole pass. -/

/-- A reconciler: the form of its jails' names, its group, and what is desired of it. A port is
its jail, its host end and its jail end. -/
structure Plane where
  pattern : Regex
  group : String
  jails : Finset String
  ports : List (String × String × String)

namespace Plane

variable (p : Plane)

def hostIfs : Finset String := (p.ports.map fun e => e.2.1).toFinset

/-- A jail of the plane that nobody desires. -/
def Leftover (j : String) : Prop := (p.pattern.matchStart j).isSome = true ∧ j ∉ p.jails

/-- The kernel listed an interface under the plane's group. -/
def Carried (log : Log) (n : String) : Prop :=
  ∃ r, ([IFCONFIG, "-g", p.group], some r) ∈ log ∧ r.ok = true ∧
    n ∈ Ifconfig.parseGroupList r.out

/-- The jail end of a desired port could not be read. -/
def Unread (log : Log) (n : String) : Prop :=
  ∃ jail jailIf, (jail, n, jailIf) ∈ p.ports ∧
    ∃ r, ([JEXEC, jail, IFCONFIG, jailIf], some r) ∈ log ∧ r.ok = false

/-- What may be run after `log`. -/
structure Allows (log : Log) (argv : Argv) : Prop where
  remove : ∀ j, argv = [JAIL, "-r", j] → p.Leftover j
  kill : ∀ s, argv = [PKILL, "-j", s] → ∃ j r, p.Leftover j ∧
    ([JLS, "-j", j, "jid"], some r) ∈ log ∧ r.ok = true ∧ Text.strip r.out = s
  destroy : ∀ n, argv = [IFCONFIG, n, "destroy"] →
    (p.Carried log n ∧ n ∉ p.hostIfs) ∨ p.Unread log n
  inside : ∀ j i, argv = [JEXEC, j, IFCONFIG, i, "destroy"] → j ∈ p.jails

theorem Carried.append {log : Log} {n : String} (h : p.Carried log n) (l : Log) :
    p.Carried (log ++ l) n := by
  obtain ⟨r, hr, hok, hn⟩ := h
  exact ⟨r, List.mem_append_left _ hr, hok, hn⟩

variable {ρ : Type}

/-- The pass has kept to what it may do, and carries no other names than its own. -/
structure Mine (t : Pass (Site (Traced ρ))) : Prop where
  told : Told p.Allows t.log
  jails : ∀ j ∈ t.jails, (p.pattern.matchStart j).isSome = true ∨ j ∈ p.jails
  hostIfs : ∀ n ∈ t.hostIfs, p.Carried t.log n ∨ n ∈ p.hostIfs

variable (ρ) in
/-- What may be done at any time. -/
def scope : Scope (Site (Traced ρ)) where
  issues argv := ∀ log, p.Allows log argv
  effects e := ∀ s, (exec e s).2.rest.log = s.rest.log
  jails j := j ∈ p.jails
  hostIfs n := n ∈ p.hostIfs

variable {p} {cmd : Command (Site ρ)}

theorem Mine.run {t : Pass (Site (Traced ρ))} (ht : p.Mine t) {argv : Argv}
    (h : p.Allows t.log argv) : p.Mine (exec (Actions.run (Traced.cmd cmd) argv) t).2 where
  told := by
    rw [log_run]
    exact ht.told.snoc h
  jails := ht.jails
  hostIfs := by
    intro n hn
    rw [log_run]
    exact (ht.hostIfs n hn).imp_left fun hc => hc.append p _

theorem Mine.closed : Closed (Traced.cmd cmd) (p.scope ρ) p.Mine where
  run := fun argv h => keeps_iff.mpr fun t ht => ht.run (h t.log)
  effect := fun e he => keeps_iff.mpr fun t ht => by
    have hlog : (exec (Pass.zoom e) t).2.log = t.log := he t.env
    refine ⟨?_, ht.jails, ?_⟩
    · rw [hlog]
      exact ht.told
    · rw [hlog]
      exact ht.hostIfs
  record := fun t r ht => ⟨ht.told, ht.jails, ht.hostIfs⟩
  addJail := fun t n hn ht => ⟨ht.told, fun j hj => by
    rcases Finset.mem_insert.mp hj with rfl | hj
    · exact .inr hn
    · exact ht.jails j hj, ht.hostIfs⟩
  addHostIf := fun t n hn ht => ⟨ht.told, ht.jails, fun m hm => by
    rcases Finset.mem_insert.mp hm with rfl | hm
    · exact .inr hn
    · exact ht.hostIfs m hm⟩
  discardHostIf := fun t n ht => ⟨ht.told, ht.jails, fun m hm =>
    ht.hostIfs m (Finset.mem_of_mem_erase hm)⟩

/-! ## 2. The steps that take away -/

variable {P : Pass (Site (Traced ρ)) → Prop}

theorem run_mine {argv : Argv} (h : ∀ t, P t → p.Mine t ∧ p.Allows t.log argv) :
    Triple P (Actions.run (Traced.cmd cmd) argv) (fun _ => p.Mine) p.Mine := by
  intro t ht
  obtain ⟨hmine, hallows⟩ := h t ht
  have hrun : p.Mine (exec (Actions.run (Traced.cmd cmd) argv) t).2 := hmine.run hallows
  refine ⟨fun r t' hr => ?_, fun t' hn => ?_⟩
  · rw [hr] at hrun
    exact hrun
  · rw [hn] at hrun
    exact hrun

theorem perform_mine {label : String} {argv : Argv} {okRcs : List Int}
    (h : ∀ t, P t → p.Mine t ∧ p.Allows t.log argv) :
    Triple P (perform (Traced.cmd cmd) label argv okRcs) (fun _ => p.Mine) p.Mine :=
  (run_mine h).bind fun _ =>
    (keeps_update fun _ ht => ⟨ht.told, ht.jails, ht.hostIfs⟩).bind fun _ => keeps_pure

theorem act_mine {label : String} {argv : Argv}
    (h : ∀ t, P t → p.Mine t ∧ p.Allows t.log argv) :
    Triple P (act (Traced.cmd cmd) label argv) (fun _ => p.Mine) p.Mine :=
  (perform_mine h).bind fun _ => keeps_pure

/-- A command of another program takes nothing away. -/
theorem issues_other {c : String} {args : Argv} (h : c ∉ [JAIL, PKILL, IFCONFIG, JEXEC]) :
    (p.scope ρ).issues (c :: args) := by
  simp only [List.mem_cons, List.not_mem_nil, or_false, not_or] at h
  obtain ⟨hjail, hpkill, hifconfig, hjexec⟩ := h
  exact fun log => ⟨fun j he => absurd (List.cons.inj he).1 hjail,
    fun s he => absurd (List.cons.inj he).1 hpkill,
    fun n he => absurd (List.cons.inj he).1 hifconfig,
    fun j i he => absurd (List.cons.inj he).1 hjexec⟩

/-- In a desired jail anything may be run. -/
theorem issues_jexec {j : String} {args : Argv} (hj : j ∈ p.jails) :
    (p.scope ρ).issues (JEXEC :: j :: args) := fun log =>
  ⟨fun j he => absurd (List.cons.inj he).1 (by decide),
    fun s he => absurd (List.cons.inj he).1 (by decide),
    fun n he => absurd (List.cons.inj he).1 (by decide),
    fun j' i he => by
      obtain ⟨rfl, -⟩ := List.cons.inj (List.cons.inj he).2
      exact hj⟩

theorem issues_ifconfig {args : Argv} (h : ∀ n, args ≠ [n, "destroy"]) :
    (p.scope ρ).issues (IFCONFIG :: args) := fun log =>
  ⟨fun j he => absurd (List.cons.inj he).1 (by decide),
    fun s he => absurd (List.cons.inj he).1 (by decide),
    fun n he => absurd (List.cons.inj he).2 (h n),
    fun j i he => absurd (List.cons.inj he).1 (by decide)⟩

theorem issues_create {args : Argv} : (p.scope ρ).issues (JAIL :: "-c" :: args) := fun log =>
  ⟨fun j he => absurd (List.cons.inj (List.cons.inj he).2).1 (by decide),
    fun s he => absurd (List.cons.inj he).1 (by decide),
    fun n he => absurd (List.cons.inj he).1 (by decide),
    fun j i he => absurd (List.cons.inj he).1 (by decide)⟩

theorem keeps_of_within {α : Type} {q : Prog (Pass (Site (Traced ρ))) α}
    (h : Within (Traced.cmd cmd) (p.scope ρ) q) : Keeps p.Mine q := h _ Mine.closed

/-- What is run stands on the record after it. -/
theorem run_answered {argv : Argv} (h : (p.scope ρ).issues argv) :
    Triple p.Mine (Actions.run (Traced.cmd cmd) argv)
      (fun r t => p.Mine t ∧ (argv, some r) ∈ t.log) p.Mine :=
  (Triple.and (keeps_of_within (within_run h)) (run_logged (P := fun _ => True))).mono
    (fun _ ht => ⟨ht, trivial⟩) (fun _ _ h => h) fun _ h => h.1

/-- Half an epair is destroyed when its jail end could not be read. -/
theorem repairEpair_mine {jail hostIf jailIf portId : String}
    (hport : (jail, hostIf, jailIf) ∈ p.ports) (hjail : jail ∈ p.jails) :
    Keeps p.Mine (Jail.repairEpair (Traced.cmd cmd) jail hostIf jailIf portId) := by
  have hhost : (p.scope ρ).issues [IFCONFIG, hostIf] := issues_ifconfig fun n => by simp
  unfold Jail.repairEpair
  refine (keeps_of_within (within_run hhost)).bind fun host => ?_
  refine (run_answered (issues_jexec hjail)).bind fun inner => ?_
  split
  · rename_i hbroken
    simp only [Bool.and_eq_true, Bool.not_eq_true'] at hbroken
    have hdestroy : ∀ t : Pass (Site (Traced ρ)),
        p.Mine t ∧ ([JEXEC, jail, IFCONFIG, jailIf], some inner) ∈ t.log →
        p.Mine t ∧ p.Allows t.log [IFCONFIG, hostIf, "destroy"] := by
      rintro t ⟨hmine, hlog⟩
      refine ⟨hmine, fun j he => ?_, fun s he => ?_, fun n he => ?_, fun j i he => ?_⟩
      · exact absurd (List.cons.inj he).1 (by decide)
      · exact absurd (List.cons.inj he).1 (by decide)
      · obtain ⟨rfl, -⟩ := List.cons.inj (List.cons.inj he).2
        exact .inr ⟨jail, jailIf, hport, inner, hlog, hbroken.2⟩
      · exact absurd (List.cons.inj he).1 (by decide)
    have hdiscard : Within (Traced.cmd cmd) (p.scope ρ)
        (update fun t : Pass (Site (Traced ρ)) => t.discardHostIf hostIf) :=
      Jail.within_discardHostIf
    exact (act_mine hdestroy).bind fun _ => (keeps_of_within hdiscard).bind fun _ => keeps_pure
  · refine Triple.pre ?_ fun t h => h.1
    split
    · have hdescr : (p.scope ρ).issues
          [IFCONFIG, hostIf, "descr", DESCRIPTION_PREFIX ++ portId] :=
        issues_ifconfig fun n => by simp
      exact (keeps_of_within (Jail.fixDescr_within hdescr)).bind fun _ => keeps_pure
    · split
      · exact (keeps_of_within (within_act (issues_jexec hjail))).bind fun _ => keeps_pure
      · exact keeps_pure

theorem ensureEpair_mine {jail hostIf jailIf portId group : String}
    (hport : (jail, hostIf, jailIf) ∈ p.ports) (hjail : jail ∈ p.jails) :
    Keeps p.Mine (Jail.ensureEpair (Traced.cmd cmd) jail hostIf jailIf portId group) := by
  have hmakes : Jail.MakesEpair (p.scope ρ) jail hostIf jailIf portId group :=
    { create := issues_ifconfig fun n => by simp
      name := fun a => issues_ifconfig fun n => by simp
      move := fun b => issues_ifconfig fun n => by simp
      inside := fun b => issues_jexec hjail
      hostIf := by
        show hostIf ∈ p.hostIfs
        exact List.mem_toFinset.mpr (List.mem_map.mpr ⟨_, hport, rfl⟩) }
  unfold Jail.ensureEpair
  refine (repairEpair_mine hport hjail).bind fun text => ?_
  cases text with
  | some text => exact keeps_pure
  | none =>
    refine (keeps_of_within (Jail.makeEpair_within hmakes)).bind fun made => ?_
    split
    · exact (keeps_of_within (within_run (issues_jexec hjail))).bind fun _ => keeps_pure
    · exact keeps_pure

/-! ## 3. The collection -/

theorem killJailProcs_mine {j : String} (hj : p.Leftover j) :
    Keeps p.Mine (Jail.killJailProcs (Traced.cmd cmd) j) := by
  have hjls : (p.scope ρ).issues [JLS, "-j", j, "jid"] := issues_other (by decide)
  unfold Jail.killJailProcs
  refine (run_answered hjls).bind fun r => ?_
  split
  · rename_i hjid
    simp only [Bool.and_eq_true, decide_eq_true_eq] at hjid
    have hkill : ∀ t : Pass (Site (Traced ρ)), p.Mine t ∧ ([JLS, "-j", j, "jid"], some r) ∈ t.log →
        p.Mine t ∧ p.Allows t.log [PKILL, "-j", Text.strip r.out] := by
      rintro t ⟨hmine, hlog⟩
      refine ⟨hmine, fun j he => ?_, fun s he => ?_, fun n he => ?_, fun j i he => ?_⟩
      · exact absurd (List.cons.inj he).1 (by decide)
      · obtain ⟨rfl, -⟩ := List.cons.inj (List.cons.inj (List.cons.inj he).2).2
        exact ⟨j, r, hj, hlog, hjid.1, rfl⟩
      · exact absurd (List.cons.inj he).1 (by decide)
      · exact absurd (List.cons.inj he).1 (by decide)
    exact (perform_mine hkill).bind fun _ => keeps_pure
  · exact Triple.pre keeps_pure fun t h => h.1

theorem removeJail_mine {j : String} (hj : p.Leftover j) :
    Keeps p.Mine (act (Traced.cmd cmd) "RemoveJail" [JAIL, "-r", j]) := by
  refine act_mine fun t ht => ⟨ht, fun j' he => ?_, fun s he => ?_, fun n he => ?_, fun _ i he => ?_⟩
  · obtain ⟨rfl, -⟩ := List.cons.inj (List.cons.inj (List.cons.inj he).2).2
    exact hj
  · exact absurd (List.cons.inj he).1 (by decide)
  · exact absurd (List.cons.inj he).1 (by decide)
  · exact absurd (List.cons.inj he).1 (by decide)

/-- Interfaces that were listed and are not desired. -/
theorem destroyEpairs_mine {l : List String} (hl : ∀ n ∈ l, n ∉ p.hostIfs) :
    Triple (fun t => p.Mine t ∧ ∀ n ∈ l, p.Carried t.log n)
      (l.forM fun n => act (Traced.cmd cmd) "DestroyEpair" [IFCONFIG, n, "destroy"])
      (fun _ => p.Mine) p.Mine := by
  have hround : ∀ n ∈ l, Keeps (fun t => p.Mine t ∧ ∀ n ∈ l, p.Carried t.log n)
      (act (Traced.cmd cmd) "DestroyEpair" [IFCONFIG, n, "destroy"]) := by
    intro n hn
    have hcarried : Keeps (fun t : Pass (Site (Traced ρ)) => ∀ n ∈ l, p.Carried t.log n)
        (act (Traced.cmd cmd) "DestroyEpair" [IFCONFIG, n, "destroy"]) := by
      have hclosed : Closed (Traced.cmd cmd) { issues := fun _ => True }
          (fun t => ∀ n ∈ l, p.Carried t.log n) :=
        closed_log (fun log => ∀ n ∈ l, p.Carried log n)
          (fun log m h n hn => (h n hn).append p m) fun e he => absurd he id
      exact within_act trivial _ hclosed
    have hmine : Triple (fun t => p.Mine t ∧ ∀ n ∈ l, p.Carried t.log n)
        (act (Traced.cmd cmd) "DestroyEpair" [IFCONFIG, n, "destroy"]) (fun _ => p.Mine) p.Mine := by
      refine act_mine fun t ht => ⟨ht.1, fun j he => ?_, fun s he => ?_, fun m he => ?_,
        fun _ i he => ?_⟩
      · exact absurd (List.cons.inj he).1 (by decide)
      · exact absurd (List.cons.inj he).1 (by decide)
      · obtain ⟨rfl, -⟩ := List.cons.inj (List.cons.inj he).2
        exact .inl ⟨ht.2 n hn, hl n hn⟩
      · exact absurd (List.cons.inj he).1 (by decide)
    exact (hmine.and hcarried).pre fun t ht => ⟨ht, ht.2⟩
  exact (keeps_forM hround).mono (fun t ht => ht) (fun _ t ht => ht.1) fun t ht => ht.1

/-- What is not desired of the names a pass carries was listed. -/
theorem collect_mine : Keeps p.Mine (Jail.collect (Traced.cmd cmd) p.jails p.hostIfs) := by
  have hjails : Triple p.Mine (look Pass.jails)
      (fun jails (t : Pass (Site (Traced ρ))) => p.Mine t ∧
      ∀ j ∈ sortedSet (jails \ p.jails), p.Leftover j) p.Mine := by
    refine triple_look fun t ht => ⟨ht, fun j hj => ?_⟩
    obtain ⟨hmem, hno⟩ := Finset.mem_sdiff.mp (mem_sortedSet.mp hj)
    exact ⟨(ht.jails j hmem).resolve_right hno, hno⟩
  have hhosts : Triple p.Mine (look Pass.hostIfs)
      (fun hostIfs (t : Pass (Site (Traced ρ))) => p.Mine t ∧
      ∀ n ∈ sortedSet (hostIfs \ p.hostIfs), p.Carried t.log n) p.Mine := by
    refine triple_look fun t ht => ⟨ht, fun n hn => ?_⟩
    obtain ⟨hmem, hno⟩ := Finset.mem_sdiff.mp (mem_sortedSet.mp hn)
    exact (ht.hostIfs n hmem).resolve_right hno
  unfold Jail.collect
  refine hjails.bind fun jails => ?_
  rintro t ⟨ht, hleft⟩
  refine Keeps.bind (keeps_forM fun j hj => killJailProcs_mine (hleft j hj)) (fun _ => ?_) t ht
  refine hhosts.bind fun hostIfs => ?_
  refine Triple.bind (destroyEpairs_mine fun n hn => ?_) fun _ => ?_
  · exact (Finset.mem_sdiff.mp (mem_sortedSet.mp hn)).2
  · exact keeps_forM fun j hj => removeJail_mine (hleft j hj)

/-! ## 4. The opening -/

theorem listJails_mine : Triple p.Mine (Jail.listJails (Traced.cmd cmd) p.pattern)
    (fun l (t : Pass (Site (Traced ρ))) => p.Mine t ∧
      ∀ j ∈ l, (p.pattern.matchStart j).isSome = true) p.Mine := by
  have hjls : (p.scope ρ).issues [JLS, "name"] := issues_other (by decide)
  refine Triple.bind (keeps_of_within (within_run hjls)) fun r => ?_
  refine triple_pure fun t ht => ⟨ht, fun j hj => ?_⟩
  split at hj
  · exact (List.mem_filter.mp hj).2
  · exact absurd hj List.not_mem_nil

theorem listGroup_mine (hgroup : p.group ≠ "destroy") :
    Triple p.Mine (Jail.listGroup (Traced.cmd cmd) p.group)
      (fun l (t : Pass (Site (Traced ρ))) => p.Mine t ∧ ∀ n ∈ l, p.Carried t.log n) p.Mine := by
  have hlist : (p.scope ρ).issues [IFCONFIG, "-g", p.group] :=
    issues_ifconfig fun n he => hgroup (List.cons.inj (List.cons.inj he).2).1
  refine (run_answered hlist).bind fun r => ?_
  refine triple_pure fun t ht => ⟨ht.1, fun n hn => ?_⟩
  split at hn
  · exact ⟨r, ht.2, ‹_›, hn⟩
  · exact absurd hn List.not_mem_nil

/-- What a pass carries from its opening on. -/
theorem opening_mine (hgroup : p.group ≠ "destroy") : Keeps p.Mine (do
    let jails ← Jail.listJails (Traced.cmd cmd) p.pattern
    let hostIfs ← Jail.listGroup (Traced.cmd cmd) p.group
    update fun t : Pass (Site (Traced ρ)) =>
      { t with jails := jails.toFinset, hostIfs := hostIfs.toFinset }) := by
  refine listJails_mine.bind fun jails => ?_
  rintro t ⟨ht, hjails⟩
  refine (listGroup_mine hgroup).bind (fun hostIfs => triple_update fun t ht => ?_) t ht
  refine ⟨ht.1.told, fun j hj => .inl (hjails j (List.mem_toFinset.mp hj)), fun n hn => ?_⟩
  exact .inl (ht.2 n (List.mem_toFinset.mp hn))

/-- The files of a plane are no commands. -/
theorem changes (stop : Prog (Site ρ) Unit) :
    Files.Changes (Traced.pause stop) (p.scope ρ) := by
  intro f s
  rw [exec_bind]
  have hpause : (exec (Traced.pause stop) s).2.rest.log = s.rest.log := rfl
  generalize exec (Traced.pause stop) s = r at hpause
  obtain ⟨a, e⟩ := r
  cases a with
  | none => exact hpause
  | some u => exact hpause

end Plane

/-! ## 5. The dhcp plane -/

namespace Dhcp

variable {ρ : Type} {cmd : Command (Site ρ)} {pause : Prog (Site ρ) Unit}

def plane (desired : List DhcpNetwork) : Plane where
  pattern := JAIL_RE
  group := DHCP_GROUP
  jails := desiredJails desired
  ports := desired.map fun net => (net.jail, net.dhcpIf, DHCP_JAIL_IF)

theorem plane_hostIfs (desired : List DhcpNetwork) :
    (plane desired).hostIfs = desiredIfs desired := by
  unfold Plane.hostIfs plane desiredIfs
  rw [List.map_map]
  rfl

variable {p : Plane}

theorem writeFiles_within {net : DhcpNetwork} :
    Within (Traced.cmd cmd) (p.scope ρ) (writeFiles (Traced.pause pause) net) := by
  have hchanges := Plane.changes (p := p) pause
  unfold writeFiles
  refine (Files.change_within hchanges _).bind fun _ => ?_
  refine (Files.writeIfChanged_within hchanges).bind fun dirtyHosts => ?_
  refine Within.bind ?_ fun _ => ?_
  · split
    · exact within_note
    · exact within_pure
  refine (Files.writeIfChanged_within hchanges).bind fun dirtyOpts => ?_
  refine Within.bind ?_ fun _ => within_pure
  split
  · exact within_note
  · exact within_pure

theorem serve_within {base path : String} {net : DhcpNetwork} {dirty : Bool}
    (hjail : net.jail ∈ p.jails) :
    Within (Traced.cmd cmd) (p.scope ρ)
      (serve (Traced.cmd cmd) (Traced.pause pause) base path net dirty) := by
  have hps : ∀ args, (p.scope ρ).issues (PS :: args) := fun args => Plane.issues_other (by decide)
  have hkill : ∀ args, (p.scope ρ).issues (KILL :: args) := fun args =>
    Plane.issues_other (by decide)
  unfold serve
  split
  · exact within_stop
  · rename_i wanted _
    have halive : ∀ pid, Within (Traced.cmd cmd) (p.scope ρ) (isAlive (Traced.cmd cmd) pid) := by
      intro pid
      cases pid with
      | none => exact within_pure
      | some pid => exact (within_run (hps _)).bind fun _ => within_pure
    have hstop : ∀ stale pid,
        Within (Traced.cmd cmd) (p.scope ρ) (stopStale (Traced.cmd cmd) stale pid) := by
      intro stale pid
      unfold stopStale
      split
      · exact within_act (hkill _)
      · exact within_pure
    have hreload : ∀ pid,
        Within (Traced.cmd cmd) (p.scope ρ) (reloadDnsmasq (Traced.cmd cmd) pid) := by
      intro pid
      cases pid with
      | none => exact within_pure
      | some pid => exact within_act (hkill _)
    -- the source in its order: pid file, liveness, a stale server, then files or a reload
    refine within_look.bind fun stored => ?_
    refine Within.bind (within_look.bind fun _ => within_pure) fun pid => ?_
    refine (halive pid).bind fun alive => (hstop _ _).bind fun _ => ?_
    split
    · exact (Files.writeIfChanged_within (Plane.changes pause)).bind fun _ =>
        within_act (Plane.issues_jexec hjail)
    · split
      · exact hreload pid
      · exact within_pure

theorem network_mine {base path : String} {desired : List DhcpNetwork} {net : DhcpNetwork}
    (hnet : net ∈ desired) : Keeps (plane desired).Mine
      (network (Traced.cmd cmd) (Traced.pause pause) base path net) := by
  have hjail : net.jail ∈ (plane desired).jails :=
    List.mem_toFinset.mpr (List.mem_map_of_mem hnet)
  have hport : (net.jail, net.dhcpIf, DHCP_JAIL_IF) ∈ (plane desired).ports :=
    List.mem_map_of_mem hnet
  have hfiles : Within (Traced.cmd cmd) ((plane desired).scope ρ)
      (writeFiles (Traced.pause pause) net) := writeFiles_within
  unfold network
  refine (Plane.keeps_of_within hfiles).bind fun dirty => ?_
  refine Keeps.bind ?_ fun text => ?_
  · unfold plumb
    have hensure : Within (Traced.cmd cmd) ((plane desired).scope ρ)
        (Jail.ensureJail (Traced.cmd cmd) net.jail) :=
      Jail.ensureJail_within hjail Plane.issues_create (Plane.issues_jexec hjail)
    refine (Plane.keeps_of_within hensure).bind fun ok => ?_
    split
    · exact Plane.ensureEpair_mine hport hjail
    · exact keeps_pure
  · cases text with
    | none => exact keeps_pure
    | some text =>
      have haddrs : Within (Traced.cmd cmd) ((plane desired).scope ρ)
          (Jail.ensureAddrs (Traced.cmd cmd) net.jail DHCP_JAIL_IF text net.mac net.ips) :=
        Jail.ensureAddrs_within (Plane.issues_jexec hjail) fun _ _ => Plane.issues_jexec hjail
      exact (Plane.keeps_of_within haddrs).bind fun _ =>
        Plane.keeps_of_within (serve_within hjail)

theorem reconcile_mine {base path : String} (desired : List DhcpNetwork) :
    Keeps (plane desired).Mine
      (reconcile (Traced.cmd cmd) (Traced.pause pause) base path desired) := by
  have hgroup : (plane desired).group ≠ "destroy" := by
    show DHCP_GROUP ≠ "destroy"
    decide
  have hcollect : Keeps (plane desired).Mine
      (Jail.collect (Traced.cmd cmd) (desiredJails desired) (desiredIfs desired)) := by
    rw [← plane_hostIfs]
    exact Plane.collect_mine
  have hremove : Within (Traced.cmd cmd) ((plane desired).scope ρ)
      (Files.removeState (Traced.pause pause) (desired.map DhcpNetwork.networkId).toFinset) :=
    Files.removeState_within (Plane.changes pause)
  refine Keeps.bind (Plane.opening_mine hgroup) fun _ => ?_
  refine (keeps_forM fun net hnet => network_mine hnet).bind fun _ => ?_
  exact hcollect.bind fun _ => Plane.keeps_of_within hremove

end Dhcp

/-! ## 6. The l3 plane -/

namespace L3

variable {ρ : Type} {cmd : Command (Site ρ)} {pause : Prog (Site ρ) Unit}

def plane (desired : List Router) : Plane where
  pattern := JAIL_RE
  group := L3_GROUP
  jails := desiredJails desired
  ports := desired.flatMap fun rtr => rtr.ports.map fun e => (rtr.jail, e.1.hostIf, Router.jailIf e)

theorem plane_hostIfs (desired : List Router) : (plane desired).hostIfs = desiredIfs desired := by
  unfold Plane.hostIfs plane desiredIfs
  rw [List.map_flatMap]
  simp only [List.map_map, Function.comp_def]

theorem router_mine [Hashlib] {base : String} {desired : List Router} {rtr : Router}
    (hrtr : rtr ∈ desired) : Keeps (plane desired).Mine
      (router (Traced.cmd cmd) (Traced.pause pause) base rtr) := by
  have hjail : rtr.jail ∈ (plane desired).jails := List.mem_toFinset.mpr (List.mem_map_of_mem hrtr)
  have hscope : RouterScope (Traced.pause pause) ((plane desired).scope ρ) rtr :=
    { files := Plane.changes pause
      jails := hjail
      create := Plane.issues_create
      ifconfig := fun args => Plane.issues_jexec hjail
      sysctl := fun args => Plane.issues_jexec hjail
      pfctl := fun args => Plane.issues_jexec hjail }
  have hroutes : RouteScope ((plane desired).scope ρ) rtr :=
    { netstat := fun args => Plane.issues_jexec hjail
      route := fun args => Plane.issues_jexec hjail }
  refine router_keeps Plane.Mine.closed hscope hroutes fun e he => Plane.ensureEpair_mine ?_ hjail
  exact List.mem_flatMap.mpr ⟨rtr, hrtr, List.mem_map_of_mem he⟩

theorem reconcile_mine [Hashlib] {base : String} (desired : List Router) :
    Keeps (plane desired).Mine
      (reconcile (Traced.cmd cmd) (Traced.pause pause) base desired) := by
  have hgroup : (plane desired).group ≠ "destroy" := by
    show L3_GROUP ≠ "destroy"
    decide
  have hcollect : Keeps (plane desired).Mine
      (Jail.collect (Traced.cmd cmd) (desiredJails desired) (desiredIfs desired)) := by
    rw [← plane_hostIfs]
    exact Plane.collect_mine
  refine Keeps.bind (Plane.opening_mine hgroup) fun _ => ?_
  refine (keeps_forM fun rtr hrtr => router_mine hrtr).bind fun _ => ?_
  exact gc_keeps Plane.Mine.closed (Plane.changes pause) hcollect

end L3

/-! ## 7. The law -/

/-- The record of a run. -/
def logOf {ρ : Type} (p : Prog (Pass (Site (Traced ρ))) Unit) (site : Site ρ) : Log :=
  (exec p { env := { disk := site.disk, rest := { rest := site.rest } } }).2.log

/-- The commands of a pass that keeps to its plane: each was allowed by what was answered before
it; no jail of the other form is removed, nor its processes killed; and whatever groups the
interfaces carry, if the kernel told the truth about the plane's own, then an interface that is
destroyed carries it, or has the name of a desired host end. -/
structure Apart (p : Plane) (other : Regex) (log : Log) : Prop where
  allowed : ∀ pre argv answer post, log = pre ++ (argv, answer) :: post → p.Allows pre argv
  jails : ∀ j answer, ([JAIL, "-r", j], answer) ∈ log → other.matchStart j = none
  killed : ∀ s answer, ([PKILL, "-j", s], answer) ∈ log → ∃ j r, other.matchStart j = none ∧
    ([JLS, "-j", j, "jid"], some r) ∈ log ∧ r.ok = true ∧ Text.strip r.out = s
  epairs : ∀ groups : String → Set String,
    (∀ r, ([IFCONFIG, "-g", p.group], some r) ∈ log → r.ok = true →
      ∀ n ∈ Ifconfig.parseGroupList r.out, p.group ∈ groups n) →
    ∀ n answer, ([IFCONFIG, n, "destroy"], answer) ∈ log → p.group ∈ groups n ∨ n ∈ p.hostIfs

theorem apart_of_told {p : Plane} {other : Regex} {log : Log} (h : Told p.Allows log)
    (hother : ∀ j, (p.pattern.matchStart j).isSome = true → other.matchStart j = none) :
    Apart p other log where
  allowed := fun pre argv answer post hl => h.allowed hl
  jails := by
    intro j answer hmem
    obtain ⟨pre, post, hl⟩ := List.append_of_mem hmem
    exact hother j ((h.allowed hl).remove j rfl).1
  killed := by
    intro s answer hmem
    obtain ⟨pre, post, hl⟩ := List.append_of_mem hmem
    obtain ⟨j, r, hj, hr, hok, hs⟩ := (h.allowed hl).kill s rfl
    refine ⟨j, r, hother j hj.1, ?_, hok, hs⟩
    rw [hl]
    exact List.mem_append_left _ hr
  epairs := by
    intro groups htrue n answer hmem
    obtain ⟨pre, post, hl⟩ := List.append_of_mem hmem
    rcases (h.allowed hl).destroy n rfl with ⟨⟨r, hr, hok, hn⟩, -⟩ | ⟨jail, jailIf, hport, -⟩
    · refine .inl (htrue r ?_ hok n hn)
      rw [hl]
      exact List.mem_append_left _ hr
    · exact .inr (List.mem_toFinset.mpr (List.mem_map.mpr ⟨_, hport, rfl⟩))

/-- A name of a form begins with what the form begins with. -/
theorem front_of_match {w j : String} {rest : List Regex}
    (h : ((Regex.cat (.lit w :: rest)).matchStart j).isSome = true) :
    ∃ l, j.toList = w.toList ++ l := by
  obtain ⟨m, hm⟩ := Option.isSome_iff_exists.mp h
  obtain ⟨s, more, hs, htakes⟩ := Regex.takes_of_matchStart hm
  obtain ⟨u, v, rfl, hu, -⟩ := Regex.takes_seq.mp htakes
  rw [Regex.takes_lit.mp hu, List.append_assoc] at hs
  exact ⟨_, hs⟩

/-- No name has the form of both planes. -/
theorem forms_apart {j : String} (hdhcp : (Dhcp.JAIL_RE.matchStart j).isSome = true)
    (hl3 : (L3.JAIL_RE.matchStart j).isSome = true) : False := by
  obtain ⟨l, hl⟩ := front_of_match hdhcp
  obtain ⟨m, hm⟩ := front_of_match hl3
  have hsecond := congrArg (fun l => l[1]?) (hl.symm.trans hm)
  simp at hsecond

/-- **The two planes do not interfere.** Whatever the kernel is, and wherever a pass stops. -/
theorem planes_apart [Hashlib] {ρ : Type} (cmd : Command (Site ρ)) (pause : Prog (Site ρ) Unit)
    (site : Site ρ) (base path : String) (nets : List DhcpNetwork) (routers : List Router) :
    Apart (Dhcp.plane nets) L3.JAIL_RE
        (logOf (Dhcp.reconcile (Traced.cmd cmd) (Traced.pause pause) base path nets) site) ∧
      Apart (L3.plane routers) Dhcp.JAIL_RE
        (logOf (L3.reconcile (Traced.cmd cmd) (Traced.pause pause) base routers) site) := by
  have hempty : ∀ p : Plane, p.Mine
      { env := { disk := site.disk, rest := { rest := site.rest } } } := fun p =>
    ⟨.nil, fun j hj => absurd hj (Finset.notMem_empty j),
      fun n hn => absurd hn (Finset.notMem_empty n)⟩
  constructor
  · refine apart_of_told (keeps_iff.mp (Dhcp.reconcile_mine nets) _ (hempty _)).told fun j hj => ?_
    exact Option.not_isSome_iff_eq_none.mp fun hl3 => forms_apart hj hl3
  · refine apart_of_told (keeps_iff.mp (L3.reconcile_mine routers) _ (hempty _)).told fun j hj => ?_
    exact Option.not_isSome_iff_eq_none.mp fun hdhcp => forms_apart hdhcp hj

end Bsdbridge
