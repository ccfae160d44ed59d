import Bsdbridge.DhcpAgent.Reconcile
import Bsdbridge.Proof.Disk

/-!
# The files a dhcp pass leaves

Whatever becomes of its commands, a pass that gets to its end leaves the hosts and the opts file of
each desired network with the text of its spec. The commands do not write these files: a dnsmasq
keeps its pid and its leases in the same directory, and only reads the two.

It is a triple over programs whose commands are parameters. They may fail, raise, and change
anything outside but the two files (`Untouched`), so the statement is about the order of writes in
the source and about the networks having ids of their own. Nothing is said about a pass that is
stopped in the middle: it leaves some networks written and others as they were, and the agent does
not report after one.

Whether a dnsmasq has read what is on the disk is not said either. The source signals it after a
change, and what a process does with a signal is outside.
-/

set_option autoImplicit false

namespace Bsdbridge

open Prog Actions

/-! ## 1. The pass -/

namespace Dhcp

open Files

section

variable {ρ : Type} {cmd : Command (Site ρ)} {pause : Prog (Site ρ) Unit}
  {F : (Disk → Disk) → Prop} {base path : String}

/-- What is there before the pass is read without a change of the environment. -/
theorem opening_keeps {J : Site ρ → Prop} (hcmd : ∀ argv, Keeps J (cmd argv)) :
    Keeps (fun t => J t.env) (opening cmd : Prog (Pass (Site ρ)) Unit) := by
  unfold opening Jail.listJails Jail.listGroup
  refine ((keeps_zoom (hcmd _)).bind fun r => keeps_pure).bind fun jails => ?_
  refine ((keeps_zoom (hcmd _)).bind fun r => keeps_pure).bind fun dhcpIfs => ?_
  exact keeps_update fun t ht => ht

theorem writeFiles_calm {net : DhcpNetwork} (hdirs : F fun d => d.makedirs net.networkId)
    (hhosts : F fun d => d.write net.networkId "hosts" (Dnsmasq.hostsText net))
    (hopts : F fun d => d.write net.networkId "opts" (Dnsmasq.optsText net)) :
    Within cmd (Calm pause F) (writeFiles pause net) := by
  unfold writeFiles
  refine (change_calm hdirs).bind fun _ => ?_
  refine (writeIfChanged_calm hhosts).bind fun dirtyHosts => ?_
  refine Within.bind ?_ fun _ => ?_
  · split
    · exact within_note
    · exact within_pure
  refine (writeIfChanged_calm hopts).bind fun dirtyOpts => ?_
  refine Within.bind ?_ fun _ => within_pure
  split
  · exact within_note
  · exact within_pure

theorem plumb_calm {net : DhcpNetwork} : Within cmd (Calm pause F) (plumb cmd net) := by
  unfold plumb
  refine (Jail.ensureJail_within trivial trivial trivial).bind fun ok => ?_
  split
  · exact Jail.ensureEpair_within ⟨trivial, trivial, trivial, trivial, trivial⟩
      ⟨trivial, fun _ => trivial, fun _ => trivial, fun _ => trivial, trivial⟩
  · exact within_pure

theorem serve_calm {net : DhcpNetwork} {dirty : Bool}
    (hcmd : ∀ text, F fun d => d.write net.networkId "cmd" text) :
    Within cmd (Calm pause F) (serve cmd pause base path net dirty) := by
  have halive : ∀ pid, Within cmd (Calm pause F) (isAlive cmd pid) := by
    intro pid
    cases pid with
    | none => exact within_pure
    | some pid => exact (within_run trivial).bind fun _ => within_pure
  have hstop : ∀ stale pid, Within cmd (Calm pause F) (stopStale cmd stale pid) := by
    intro stale pid
    unfold stopStale
    split
    · exact within_act trivial
    · exact within_pure
  have hreload : ∀ pid, Within cmd (Calm pause F) (reloadDnsmasq cmd pid) := by
    intro pid
    cases pid with
    | none => exact within_pure
    | some pid => exact within_act trivial
  unfold serve
  split
  · exact within_stop
  · refine within_look.bind fun stored => ?_
    refine Within.bind (within_look.bind fun _ => within_pure) fun pid => ?_
    refine (halive pid).bind fun alive => (hstop _ _).bind fun _ => ?_
    split
    · exact (writeIfChanged_calm (hcmd _)).bind fun _ => within_act trivial
    · split
      · exact hreload pid
      · exact within_pure

/-- What a pass does for a network once its files are there. -/
theorem plumbed_calm {net : DhcpNetwork} {dirty : Bool}
    (hcmd : ∀ text, F fun d => d.write net.networkId "cmd" text) :
    Within cmd (Calm pause F) (do
      match ← plumb cmd net with
      | none => pure ()
      | some text => do
          Jail.ensureAddrs cmd net.jail DHCP_JAIL_IF text net.mac net.ips
          serve cmd pause base path net dirty) := by
  refine plumb_calm.bind fun text => ?_
  cases text with
  | none => exact within_pure
  | some text =>
    exact (Jail.ensureAddrs_within trivial fun _ _ => trivial).bind fun _ => serve_calm hcmd

theorem network_calm {net : DhcpNetwork} (hdirs : F fun d => d.makedirs net.networkId)
    (hwrite : ∀ name text, F fun d => d.write net.networkId name text) :
    Within cmd (Calm pause F) (network cmd pause base path net) :=
  (writeFiles_calm hdirs (hwrite _ _) (hwrite _ _)).bind fun _ => plumbed_calm (hwrite _)

theorem gc_calm {desired : List DhcpNetwork}
    (herase : ∀ dir, dir ∉ (desired.map DhcpNetwork.networkId).toFinset → F fun d => d.erase dir) :
    Within cmd (Calm pause F) (gc cmd pause desired) :=
  (Jail.collect_within (fun _ => trivial) (fun _ => trivial) (fun _ _ => trivial)
    fun _ _ => trivial).bind fun _ => removeState_calm herase

/-- What the commands keep, and any change of the disk, is kept by the pass. -/
theorem reconcile_keeps {J : Site ρ → Prop} {desired : List DhcpNetwork}
    (hcmd : ∀ argv, Keeps J (cmd argv))
    (hchange : ∀ f : Disk → Disk,
      Keeps J do pause; update fun e : Site ρ => { e with disk := f e.disk }) :
    Keeps (fun t => J t.env) (reconcile cmd pause base path desired) := by
  have hclosed : Closed cmd (Calm pause fun _ => True) fun t => J t.env :=
    closed_env hcmd fun f _ => hchange f
  have hgc : Within cmd (Calm pause fun _ => True) (gc cmd pause desired) :=
    gc_calm fun _ _ => trivial
  refine (opening_keeps hcmd).bind fun _ => Keeps.bind ?_ fun _ => hgc _ hclosed
  refine keeps_forM fun net _ => ?_
  have hnet : Within cmd (Calm pause fun _ => True) (network cmd pause base path net) :=
    network_calm trivial fun _ _ => trivial
  exact hnet _ hclosed

/-! ## 2. The files

A network's files are written in its own step, and no step of another network touches them. -/

/-- The files of a network, as its spec has them. -/
def Written (net : DhcpNetwork) (e : Site ρ) : Prop :=
  Holds net.networkId "hosts" (Dnsmasq.hostsText net) e ∧
    Holds net.networkId "opts" (Dnsmasq.optsText net) e

/-- Nothing outside writes the two files of any network. -/
structure Untouched (cmd : Command (Site ρ)) (pause : Prog (Site ρ) Unit) : Prop where
  cmd : ∀ argv dir name, name = "hosts" ∨ name = "opts" → Spares (cmd argv) dir name
  pause : ∀ dir name, name = "hosts" ∨ name = "opts" → Spares pause dir name

/-- A part of a pass that changes other files leaves a network's two as they are. -/
theorem written_of_calm {α : Type} {p : Prog (Pass (Site ρ)) α} {net : DhcpNetwork}
    (hout : Untouched cmd pause)
    (hhosts : Within cmd (Calm pause (Elsewhere net.networkId "hosts")) p)
    (hopts : Within cmd (Calm pause (Elsewhere net.networkId "opts")) p) :
    Keeps (fun t => Written net t.env) p :=
  Keeps.and
    (hhosts _ (closed_holds (fun argv => hout.cmd argv _ _ (.inl rfl)) (hout.pause _ _ (.inl rfl))))
    (hopts _ (closed_holds (fun argv => hout.cmd argv _ _ (.inr rfl)) (hout.pause _ _ (.inr rfl))))

/-- A note changes no file. -/
theorem keeps_noteIf {J : Site ρ → Prop} {b : Bool} {label text : String} :
    Keeps (fun t : Pass (Site ρ) => J t.env) (if b then note label text else pure ()) := by
  split
  · exact keeps_update fun t ht => ht
  · exact keeps_pure

theorem writeFiles_written {net : DhcpNetwork} (hout : Untouched cmd pause) :
    Triple (fun _ => True) (writeFiles pause net) (fun _ t => Written net t.env)
      fun _ => True := by
  -- the opts file is written while the hosts file is there
  have hopts : Triple (fun t => Holds net.networkId "hosts" (Dnsmasq.hostsText net) t.env)
      (writeIfChanged pause net.networkId "opts" (Dnsmasq.optsText net))
      (fun _ t => Written net t.env) fun _ => True := by
    have hcalm : Within cmd (Calm pause (Elsewhere net.networkId "hosts"))
        (writeIfChanged pause net.networkId "opts" (Dnsmasq.optsText net)) :=
      writeIfChanged_calm (write_elsewhere (.inr (by decide)))
    have hkeep : Keeps (fun t => Holds net.networkId "hosts" (Dnsmasq.hostsText net) t.env)
        (writeIfChanged pause net.networkId "opts" (Dnsmasq.optsText net)) :=
      hcalm _ (closed_holds (fun argv => hout.cmd argv _ _ (.inl rfl)) (hout.pause _ _ (.inl rfl)))
    exact (Triple.and hkeep writeIfChanged_holds).mono (fun t ht => ⟨ht, ht⟩) (fun _ t ht => ht)
      fun _ _ => trivial
  have hend : ∀ {J : Site ρ → Prop} {b : Bool} {label text : String},
      Triple (fun t : Pass (Site ρ) => J t.env) (if b then note label text else pure ())
        (fun _ t => J t.env) fun _ => True :=
    fun {_ _ _ _} => keeps_noteIf.mono (fun _ ht => ht) (fun _ _ ht => ht) fun _ _ => trivial
  unfold writeFiles
  refine triple_true.bind fun _ => ?_
  refine Triple.bind writeIfChanged_holds fun dirtyHosts => ?_
  refine Triple.bind (hend (J := Holds net.networkId "hosts" (Dnsmasq.hostsText net))) fun _ => ?_
  refine Triple.bind hopts fun dirtyOpts => ?_
  exact Triple.bind (hend (J := Written net)) fun _ => triple_pure fun _ ht => ht

theorem network_written {net : DhcpNetwork} (hout : Untouched cmd pause) :
    Triple (fun _ => True) (network cmd pause base path net) (fun _ t => Written net t.env)
      fun _ => True := by
  have hrest : ∀ dirty, Keeps (fun t => Written net t.env) (do
      match ← plumb cmd net with
      | none => pure ()
      | some text => do
          Jail.ensureAddrs cmd net.jail DHCP_JAIL_IF text net.mac net.ips
          serve cmd pause base path net dirty) := fun dirty =>
    written_of_calm hout (plumbed_calm fun _ => write_elsewhere (.inr (by decide)))
      (plumbed_calm fun _ => write_elsewhere (.inr (by decide)))
  unfold network
  exact (writeFiles_written hout).bind fun dirty =>
    (hrest dirty).mono (fun _ ht => ht) (fun _ _ ht => ht) fun _ _ => trivial

/-- The files of one network are no business of another. -/
theorem network_keeps_written {net other : DhcpNetwork} (hout : Untouched cmd pause)
    (hne : other.networkId ≠ net.networkId) :
    Keeps (fun t => Written net t.env) (network cmd pause base path other) :=
  written_of_calm hout (network_calm makedirs_elsewhere fun _ _ => write_elsewhere (.inl hne))
    (network_calm makedirs_elsewhere fun _ _ => write_elsewhere (.inl hne))

/-- **A pass that gets to its end** leaves the files of every desired network as their specs have
them, however its commands went. -/
theorem reconcile_files {desired : List DhcpNetwork} (hout : Untouched cmd pause)
    (hnd : (desired.map DhcpNetwork.networkId).Nodup) :
    Triple (fun _ => True) (reconcile cmd pause base path desired)
      (fun _ t => ∀ net ∈ desired, Written net t.env) fun _ => True := by
  have hgc : Keeps (fun t : Pass (Site ρ) => ∀ net ∈ desired, Written net t.env)
      (gc cmd pause desired) := by
    refine keeps_iff.mpr fun t ht net hnet => ?_
    have herase : ∀ name dir, dir ∉ (desired.map DhcpNetwork.networkId).toFinset →
        Elsewhere net.networkId name fun d => d.erase dir := by
      intro name dir hdir
      refine erase_elsewhere fun heq => hdir ?_
      rw [heq]
      exact List.mem_toFinset.mpr (List.mem_map_of_mem hnet)
    exact keeps_iff.mp (written_of_calm hout (gc_calm (herase _)) (gc_calm (herase _))) t
      (ht net hnet)
  unfold reconcile
  refine triple_true.bind fun _ => ?_
  refine Triple.bind (Q := fun _ t => ∀ net ∈ desired, Written net t.env) ?_ fun _ =>
    hgc.mono (fun _ ht => ht) (fun _ _ ht => ht) fun _ _ => trivial
  intro t _
  refine ⟨fun _ t' hrun => ?_, fun _ _ => trivial⟩
  refine (forM_each (I := fun _ => True) (G := fun net t => Written net t.env) trivial hrun
    ?_ ?_).2
  · refine (List.pairwise_map.mp hnd).imp fun {net other} hne => ?_
    intro s hs _ s' hother
    exact (network_keeps_written hout fun heq => hne heq.symm).of_some hs hother
  · intro net _ s s' _ hnet
    exact ⟨trivial, ((network_written hout) s trivial).1 () s' hnet⟩

end

end Dhcp

end Bsdbridge
