import Bsdbridge.DhcpAgent.Sync
import Bsdbridge.Proof.Daemon
import Bsdbridge.Proof.DhcpFiles
import Bsdbridge.Proof.Rendering

/-!
# What a pass of the dhcp agent reports

The agent remembers the ports of the last pass that completed, and reports those that are new to
it. **`sync_stands`** says of one pass, whatever the server answers and wherever it raises, what
has been reported and over which files. `Audit` sits between the agent and what is outside of it,
and keeps a ledger of what passed.

Four things are noted: the reply of the last fetch, the networks of it for which no dhcp port was
to be had, every report at the moment it is made, with the disk of that moment, and the reports
that returned. The last two differ when a report raises. From the reply and the refusals alone one
can say which ports are ready (`readyOf`), without following what the agent gathers on the way, and
a run is described in these terms.

A pass ends in one of two ways. `Completed`: the memory is that of the reply, and the report that
was due has returned. `Stopped`: the memory is what it was, and no report has returned, though one
may have been made. In both, a report that was made is sound, as long as nobody else writes the
files of a network.
-/

set_option autoImplicit false

namespace Bsdbridge

namespace Dhcp

open Prog DhcpRpc

open Daemon (ledger)

/-! ## 1. The ledger -/

/-- A report at the moment it is made. -/
structure Report where
  networks : List ActiveNetwork
  disk : Disk
  ports : List String

/-- What has passed between the agent and the server: the last reply, the networks of it for which
no dhcp port was to be had, the reports that were made, and those that returned. -/
structure Ledger where
  reply : List ActiveNetwork := []
  refused : List String := []
  asked : List Report := []
  answered : List (List String) := []

/-- The answer to the creation of a dhcp port. -/
def Ledger.enterPort (l : Ledger) (networkId : String) : Option OwnPort → Ledger
  | none => { l with refused := l.refused ++ [networkId] }
  | some _ => l

/-- What is outside, and the ledger. -/
abbrev Audit (σ : Type) := Daemon.Audit Ledger σ

namespace Audit

variable {σ : Type}

open Daemon.Audit

def plugin (api : PluginApi (Site σ)) : PluginApi (Site (Audit σ)) where
  getActiveNetworksInfo := do
    let reply ← through api.getActiveNetworksInfo
    enter fun _ l => { l with reply := reply.networks, refused := [] }
    pure reply
  createDhcpPort body := do
    let port ← through (api.createDhcpPort body)
    enter fun _ l => l.enterPort body.networkId port
    pure port
  updateDhcpPort portId body := through (api.updateDhcpPort portId body)
  releaseDhcpPort networkId deviceId := through (api.releaseDhcpPort networkId deviceId)
  dhcpReadyOnPorts ports := do
    enter fun disk l => { l with asked := l.asked ++ [{ networks := l.reply, disk, ports }] }
    through (api.dhcpReadyOnPorts ports)
    enter fun _ l => { l with answered := l.answered ++ [ports] }

end Audit

/-- What is outside, seen through the ledger. -/
def audited {σ : Type} (out : Outside σ) : Outside (Audit σ) :=
  { out.toOutside.audited with plugin := Audit.plugin out.plugin }

section

variable {σ : Type} {out : Outside σ} {known : Finset String} {l : Ledger}

/-- What the agent remembers, and what the ledger says. -/
abbrev Stands (known : Finset String) (l : Ledger) (w : World (Audit σ)) : Prop :=
  Daemon.Stands (fun m => m.ready = known) l w

/-- What a call does to the ledger. -/
theorem waits_ledger {α : Type} {p : Prog (Site (Audit σ)) α} {Q : α → Ledger → Prop}
    {R : Ledger → Prop}
    (h : Triple (fun s => s.rest.ledger = l) p (fun a s => Q a s.rest.ledger)
      fun s => R s.rest.ledger) :
    Triple (Stands known l) (waits (audited out) p)
      (fun a w => w.rest.memory.ready = known ∧ Q a (ledger w))
      fun w => w.rest.memory.ready = known ∧ R (ledger w) :=
  (Daemon.waits_ledger (D := fun _ => True) (h.pre fun _ hs => hs.1)).pre fun _ hw => ⟨hw, trivial⟩

/-- What happens off the ledger. -/
theorem through_stands {α : Type} {p : Prog (Site σ) α} :
    Keeps (Stands known l) (waits (audited out) (Daemon.Audit.through p)) := Daemon.through_stands

theorem fetch_stands : Triple (Stands known l)
    (waits (audited out) (audited out).plugin.getActiveNetworksInfo)
    (fun reply => Stands known { l with reply := reply.networks, refused := [] })
    (Stands known l) := by
  refine waits_ledger (R := (· = l)) (Q := fun (reply : DhcpRpc.Reply) l' =>
    l' = { l with reply := reply.networks, refused := [] }) ?_
  refine Triple.bind (Daemon.through_ledger (D := (· = l))) fun reply => ?_
  exact Daemon.enter_ledger.bind fun _ => triple_pure fun _ hs => hs

theorem create_stands {body : CreateBody} : Triple (Stands known l)
    (waits (audited out) ((audited out).plugin.createDhcpPort body))
    (fun port => Stands known (l.enterPort body.networkId port)) (Stands known l) := by
  refine waits_ledger (R := (· = l)) (Q := fun (port : Option OwnPort) l' =>
    l' = l.enterPort body.networkId port) ?_
  refine Triple.bind (Daemon.through_ledger (D := (· = l))) fun port => ?_
  exact Daemon.enter_ledger.bind fun _ => triple_pure fun _ hs => hs

/-- A report is on the ledger once it is made, and once more when it has returned. -/
theorem report_stands {ports : List String} {disk : Disk} :
    Triple (fun w => Stands known l w ∧ w.disk = disk)
      (waits (audited out) ((audited out).plugin.dhcpReadyOnPorts ports))
      (fun _ => Stands known
        { l with
          asked := l.asked ++ [{ networks := l.reply, disk, ports }]
          answered := l.answered ++ [ports] })
      (Stands known { l with asked := l.asked ++ [{ networks := l.reply, disk, ports }] }) := by
  refine Daemon.waits_ledger (D := (· = disk)) (Q := fun _ l' => l' = _) (R := (· = _)) ?_
  refine Triple.bind (Q := fun _ s => s.rest.ledger =
    { l with asked := l.asked ++ [{ networks := l.reply, disk, ports }] }) ?_ fun _ => ?_
  · refine triple_update fun s hs => ?_
    obtain ⟨rfl, rfl⟩ := hs
    rfl
  · refine Triple.bind (Daemon.through_ledger (D := fun l' : Ledger =>
      l' = { l with asked := l.asked ++ [{ networks := l.reply, disk, ports }] })) fun _ => ?_
    exact Daemon.enter_ledger

end

/-! ## 2. One pass

What the loop over the networks gathers, as a relation that mentions the ledger and no world
(`Gathers`), so that both halves of the statement can be read off it. -/

/-- What going through one network comes to: the ledger and the gathered, before and after. -/
inductive Gathers (net : ActiveNetwork) : Ledger → Gathered → Ledger → Gathered → Prop
  | skipped {l : Ledger} {all : Gathered} (h : served net = false) : Gathers net l all l all
  | refused {l : Ledger} {all : Gathered} (h : served net = true) :
      Gathers net l all { l with refused := l.refused ++ [net.id] } all
  | taken {l : Ledger} {all : Gathered} (h : served net = true) {port : DhcpRpc.Port}
      {spec : DhcpNetwork} (hspec : specOf net.toNetwork port = some spec) :
      Gathers net l all l
        { desired := all.desired ++ [spec], ready := all.ready ∪ readyPorts net }

/-- The same for a list of them. -/
inductive GathersAll : List ActiveNetwork → Ledger → Gathered → Ledger → Gathered → Prop
  | nil {l : Ledger} {all : Gathered} : GathersAll [] l all l all
  | cons {net : ActiveNetwork} {rest : List ActiveNetwork} {l l₁ l₂ : Ledger}
      {all all₁ all₂ : Gathered} (h : Gathers net l all l₁ all₁)
      (hrest : GathersAll rest l₁ all₁ l₂ all₂) : GathersAll (net :: rest) l all l₂ all₂

theorem gathers_reports {net : ActiveNetwork} {l l' : Ledger} {all all' : Gathered}
    (h : Gathers net l all l' all') :
    l'.reply = l.reply ∧ l'.asked = l.asked ∧ l'.answered = l.answered := by
  cases h <;> exact ⟨rfl, rfl, rfl⟩

section

variable {σ : Type} {out : Outside σ} {conf : Conf} {known : Finset String} {l : Ledger}

variable [Uuid]

/-- The reports are those of a ledger. -/
def SameReports (l : Ledger) (w : World (Audit σ)) : Prop :=
  (ledger w).asked = l.asked ∧ (ledger w).answered = l.answered

theorem ensurePort_stands {net : ActiveNetwork} :
    Triple (Stands known l) (ensurePort (audited out) conf net (v4Subnets net.toNetwork))
      (fun port => Stands known (l.enterPort net.id port)) (Stands known l) := by
  unfold ensurePort
  split
  · exact create_stands
  · split
    · exact triple_pure fun _ hw => hw
    · exact Triple.bind through_stands fun updated => triple_pure fun _ hw => hw

theorem gatherOne_stands {net : ActiveNetwork} {all : Gathered} :
    Triple (Stands known l) (gatherOne (audited out) conf net all)
      (fun all' w => w.rest.memory.ready = known ∧ Gathers net l all (ledger w) all')
      fun w => w.rest.memory.ready = known ∧ SameReports l w := by
  unfold gatherOne
  dsimp only
  split
  · rename_i hserved
    have hskip : served net = false := by simpa using hserved
    refine Triple.bind (Q := fun _ => Stands known l) ?_ fun _ => triple_pure fun w hw => ?_
    · split
      · exact Triple.mono through_stands (fun _ hw => hw) (fun _ _ hw => hw) fun w hw =>
          ⟨hw.1, congrArg Ledger.asked hw.2, congrArg Ledger.answered hw.2⟩
      · exact triple_pure fun _ hw => hw
    · rw [hw.2]
      exact ⟨hw.1, .skipped hskip⟩
  · rename_i hserved
    have hserves : served net = true := by simpa using hserved
    refine Triple.bind (ensurePort_stands.mono (fun _ hw => hw) (fun _ _ hw => hw) fun w hw =>
      ⟨hw.1, congrArg Ledger.asked hw.2, congrArg Ledger.answered hw.2⟩) fun port => ?_
    cases port with
    | none =>
      refine triple_pure fun w hw => ?_
      rw [hw.2]
      exact ⟨hw.1, .refused hserves⟩
    | some port =>
      show Triple (Stands known l) _ _ _
      dsimp only
      cases hspec : specFor net.toNetwork (v4Subnets net.toNetwork) port.toPort with
      | none =>
        refine triple_stop fun w hw => ?_
        exact ⟨hw.1, congrArg Ledger.asked hw.2, congrArg Ledger.answered hw.2⟩
      | some spec =>
        refine triple_pure fun w hw => ?_
        rw [hw.2]
        exact ⟨hw.1, .taken hserves hspec⟩

theorem gather_stands {nets : List ActiveNetwork} {all : Gathered} :
    Triple (Stands known l) (gather (audited out) conf nets all)
      (fun all' w => w.rest.memory.ready = known ∧ GathersAll nets l all (ledger w) all')
      fun w => w.rest.memory.ready = known ∧ SameReports l w := by
  induction nets generalizing l all with
  | nil =>
    refine triple_pure fun w hw => ?_
    rw [hw.2]
    exact ⟨hw.1, .nil⟩
  | cons net rest ih =>
    refine Triple.bind gatherOne_stands fun all₁ => triple_of_forall fun w hw => ?_
    obtain ⟨hknown, hone⟩ := hw
    obtain ⟨-, hasked, hanswered⟩ := gathers_reports hone
    refine (ih (l := ledger w)).mono ?_ ?_ ?_
    · rintro _ rfl
      exact ⟨hknown, rfl⟩
    · exact fun all₂ w' hw' => ⟨hw'.1, .cons hone hw'.2⟩
    · exact fun w' hw' => ⟨hw'.1, hw'.2.1.trans hasked, hw'.2.2.trans hanswered⟩

end

/-! ### What is gathered -/

/-- The ports that are ready, by a reply and the networks for which no dhcp port was to be had. -/
def readyOf (networks : List ActiveNetwork) (refused : List String) : Finset String :=
  (networks.filter fun net => served net && decide (net.id ∉ refused)).foldr
    (fun net ready => readyPorts net ∪ ready) ∅

theorem mem_readyOf {networks : List ActiveNetwork} {refused : List String} {id : String} :
    id ∈ readyOf networks refused ↔
      ∃ net ∈ networks, served net = true ∧ net.id ∉ refused ∧ id ∈ readyPorts net := by
  have hfold : ∀ l : List ActiveNetwork,
      id ∈ l.foldr (fun net ready => readyPorts net ∪ ready) ∅ ↔ ∃ net ∈ l, id ∈ readyPorts net := by
    intro l
    induction l with
    | nil => simp
    | cons net rest ih => rw [List.foldr_cons, Finset.mem_union, ih, List.exists_mem_cons_iff]
  unfold readyOf
  rw [hfold]
  simp only [List.mem_filter, Bool.and_eq_true, decide_eq_true_eq]
  constructor
  · rintro ⟨net, ⟨hnet, hserved, href⟩, hid⟩
    exact ⟨net, hnet, hserved, href, hid⟩
  · rintro ⟨net, hnet, hserved, href, hid⟩
    exact ⟨net, ⟨hnet, hserved, href⟩, hid⟩

section

variable {nets : List ActiveNetwork} {l l' : Ledger} {all all' : Gathered}

theorem GathersAll.reports (h : GathersAll nets l all l' all') :
    l'.reply = l.reply ∧ l'.asked = l.asked ∧ l'.answered = l.answered := by
  induction h with
  | nil => exact ⟨rfl, rfl, rfl⟩
  | cons hone _ ih =>
    obtain ⟨hreply, hasked, hanswered⟩ := gathers_reports hone
    exact ⟨ih.1.trans hreply, ih.2.1.trans hasked, ih.2.2.trans hanswered⟩

/-- Only the networks gone through are refused, and what is refused stays so. -/
theorem GathersAll.refused (h : GathersAll nets l all l' all') {id : String} :
    (id ∈ l.refused → id ∈ l'.refused) ∧
      (id ∈ l'.refused → id ∈ l.refused ∨ id ∈ nets.map ActiveNetwork.id) := by
  induction h with
  | nil => exact ⟨fun hid => hid, .inl⟩
  | cons hone _ ih =>
    rename_i net rest _ _ _ _ _ _
    cases hone with
    | skipped _ =>
      exact ⟨ih.1, fun hid => (ih.2 hid).imp_right fun hm => List.mem_cons_of_mem _ hm⟩
    | refused _ =>
      refine ⟨fun hid => ih.1 (List.mem_append_left _ hid), fun hid => ?_⟩
      rcases ih.2 hid with hid | hid
      · rcases List.mem_append.mp hid with hid | hid
        · exact .inl hid
        · exact .inr (by rw [List.mem_singleton.mp hid]; exact List.mem_cons_self)
      · exact .inr (List.mem_cons_of_mem _ hid)
    | taken _ _ =>
      exact ⟨ih.1, fun hid => (ih.2 hid).imp_right fun hm => List.mem_cons_of_mem _ hm⟩

/-- The ports gathered are those of the served networks that have a dhcp port. -/
theorem GathersAll.ready (h : GathersAll nets l all l' all')
    (hnd : (nets.map ActiveNetwork.id).Nodup) (hnew : ∀ net ∈ nets, net.id ∉ l.refused)
    {id : String} : id ∈ all'.ready ↔ id ∈ all.ready ∨
      ∃ net ∈ nets, served net = true ∧ net.id ∉ l'.refused ∧ id ∈ readyPorts net := by
  induction h with
  | nil => simp
  | cons hone hrest ih =>
    rename_i net rest l l₁ l₂ all all₁ all₂
    rw [List.map_cons, List.nodup_cons] at hnd
    have hnet := hnew net List.mem_cons_self
    have htail : ∀ n ∈ rest, n.id ∉ l.refused := fun n hn => hnew n (List.mem_cons_of_mem _ hn)
    rw [List.exists_mem_cons_iff]
    cases hone with
    | skipped hserved => rw [ih hnd.2 htail, hserved]; simp
    | refused hserved =>
      have hin : net.id ∈ l₂.refused :=
        hrest.refused.1 (List.mem_append_right _ (List.mem_singleton.mpr rfl))
      rw [ih hnd.2 ?_]
      · simp [hin]
      · intro n hn hmem
        rcases List.mem_append.mp hmem with hmem | hmem
        · exact htail n hn hmem
        · exact hnd.1 (by rw [← List.mem_singleton.mp hmem]; exact List.mem_map_of_mem hn)
    | taken hserved hspec =>
      have hout : net.id ∉ l₂.refused := fun hmem => by
        rcases hrest.refused.2 hmem with hmem | hmem
        · exact hnet hmem
        · exact hnd.1 hmem
      rw [ih hnd.2 htail, Finset.mem_union]
      simp only [hserved, hout, not_false_eq_true, true_and, or_assoc]

/-- The specs gathered are those of the networks gone through, in their order. -/
theorem GathersAll.desired (h : GathersAll nets l all l' all') :
    ∃ specs, all'.desired = all.desired ++ specs ∧
      (specs.map DhcpNetwork.networkId).Sublist (nets.map ActiveNetwork.id) := by
  induction h with
  | nil => exact ⟨[], (List.append_nil _).symm, List.Sublist.slnil⟩
  | cons hone hrest ih =>
    rename_i net rest l l₁ l₂ all all₁ all₂
    obtain ⟨specs, hdesired, hsub⟩ := ih
    cases hone with
    | skipped _ => exact ⟨specs, hdesired, hsub.cons net.id⟩
    | refused _ => exact ⟨specs, hdesired, hsub.cons net.id⟩
    | taken _ hspec =>
      rename_i port spec
      obtain ⟨ips, mac, -, -, rfl⟩ := specOf_eq_some.mp hspec
      refine ⟨built net.toNetwork port ips mac :: specs, ?_, hsub.cons_cons net.id⟩
      rw [hdesired, List.append_assoc]
      rfl

/-- Each port gathered is in a network whose spec is. -/
theorem GathersAll.spec (h : GathersAll nets l all l' all') {id : String} (hid : id ∈ all'.ready) :
    id ∈ all.ready ∨ ∃ net ∈ nets, served net = true ∧ id ∈ readyPorts net ∧
      ∃ port, ∃ spec ∈ all'.desired, specOf net.toNetwork port = some spec := by
  induction h with
  | nil => exact .inl hid
  | cons hone hrest ih =>
    rename_i net rest l l₁ l₂ all all₁ all₂
    rcases ih hid with hid | ⟨n, hn, hrest⟩
    · cases hone with
      | skipped _ => exact .inl hid
      | refused _ => exact .inl hid
      | taken hserved hspec =>
        rename_i port spec
        refine (Finset.mem_union.mp hid).imp_right fun hid => ?_
        obtain ⟨specs, hdesired, -⟩ := hrest.desired
        refine ⟨net, List.mem_cons_self, hserved, hid, port, spec, ?_, hspec⟩
        rw [hdesired]
        simp
    · exact .inr ⟨n, List.mem_cons_of_mem _ hn, hrest⟩

end

/-! ### The pass -/

/-- The report that is due when the ready ports are `now` and were `before`. -/
def announce (before now : Finset String) : List (List String) :=
  if now \ before = ∅ then [] else [sortedSet (now \ before)]

/-- Each port of a report is in a network with its files on the disk, as its spec has them. -/
def Report.Sound (r : Report) : Prop :=
  ∀ id ∈ r.ports, ∃ net ∈ r.networks, served net = true ∧ id ∈ readyPorts net ∧
    ∃ port spec, specOf net.toNetwork port = some spec ∧
      r.disk.file net.id "hosts" = some (Dnsmasq.hostsText spec) ∧
      r.disk.file net.id "opts" = some (Dnsmasq.optsText spec)

section

variable {σ : Type} (out : Outside σ) (known : Finset String) (l : Ledger)

/-- The reports made since are sound, as long as nobody else writes the files. -/
def NewSound (w : World (Audit σ)) : Prop :=
  Untouched out.cmd out.pause → ∀ r ∈ (ledger w).asked, r ∈ l.asked ∨ r.Sound

/-- What a pass that completes leaves: the memory is of the reply, and the ports that are new to it
have been reported. -/
structure Completed (w : World (Audit σ)) : Prop where
  ready : w.rest.memory.ready = readyOf (ledger w).reply (ledger w).refused
  answered : (ledger w).answered = l.answered ++ announce known w.rest.memory.ready
  asked : NewSound out l w

/-- What any other pass leaves: the agent remembers what it did, and no report has returned. -/
structure Stopped (w : World (Audit σ)) : Prop where
  ready : w.rest.memory.ready = known
  answered : (ledger w).answered = l.answered
  asked : NewSound out l w

end

section

variable {σ : Type} {out : Outside σ} {conf : Conf} {known : Finset String} {l : Ledger}
  {desired : List DhcpNetwork}

theorem Untouched.lifted (h : Untouched out.cmd out.pause) :
    Untouched (fun argv => waits (audited out) ((audited out).cmd argv))
      (waits (audited out) (audited out).pause) where
  cmd argv dir name hname := Daemon.spares_waits (Daemon.spares_through (h.cmd argv dir name hname))
  pause dir name hname := Daemon.spares_waits (Daemon.spares_through (h.pause dir name hname))

theorem reconciled_stands : Keeps (Stands known l) (reconciled (audited out) conf desired) :=
  Daemon.keeps_reconciled (reconcile_keeps (fun _ => through_stands) fun _ =>
    through_stands.bind fun _ => keeps_update fun _ hw => hw)

/-- A reconcile that returns has written the files. -/
theorem reconciled_files (h : Untouched out.cmd out.pause)
    (hnd : (desired.map DhcpNetwork.networkId).Nodup) :
    Triple (fun _ => True) (reconciled (audited out) conf desired)
      (fun _ w => ∀ net ∈ desired, Written net w) fun _ => True := by
  intro w _
  refine ⟨fun receipts w' hrun => ?_, fun _ _ => trivial⟩
  obtain ⟨t, ht, -, rfl⟩ := Daemon.reconciled_some hrun
  exact (reconcile_files h.lifted hnd { env := w } trivial).1 () t ht

/-- The report on the ledger: the one that is due, on this disk. -/
def Reported (known ready : Finset String) (l : Ledger) (disk : Disk) (w : World (Audit σ)) : Prop :=
  ∀ r ∈ (ledger w).asked, r ∈ l.asked ∨
    r = { networks := l.reply, disk, ports := sortedSet (ready \ known) }

theorem report_due {ready : Finset String} {disk : Disk} :
    Triple (fun w => Stands known l w ∧ w.disk = disk) (report (audited out) ready)
      (fun _ w => w.rest.memory.ready = ready ∧ (ledger w).reply = l.reply ∧
        (ledger w).refused = l.refused ∧
        (ledger w).answered = l.answered ++ announce known ready ∧ Reported known ready l disk w)
      fun w => w.rest.memory.ready = known ∧ (ledger w).answered = l.answered ∧
        Reported known ready l disk w := by
  unfold report
  refine Triple.bind (Q := fun before w => (Stands known l w ∧ w.disk = disk) ∧ before = known)
    (triple_look fun w hw => ⟨hw, hw.1.1⟩) fun before => triple_of_forall fun w hw => ?_
  obtain ⟨hw, rfl⟩ := hw
  refine Triple.pre ?_ (P := fun w => Stands before l w ∧ w.disk = disk) (by rintro _ rfl; exact hw)
  refine Triple.bind (Q := fun _ w => (ledger w).reply = l.reply ∧
    (ledger w).refused = l.refused ∧ (ledger w).answered = l.answered ++ announce before ready ∧
    Reported before ready l disk w) ?_ fun _ => triple_update fun w hw => ⟨rfl, hw⟩
  unfold announce
  split
  · refine triple_pure fun w hw => ?_
    obtain ⟨⟨-, rfl⟩, -⟩ := hw
    exact ⟨rfl, rfl, (List.append_nil _).symm, fun r hr => .inl hr⟩
  · have hnew : ∀ {l' : Ledger}, l'.asked = l.asked ++
        [{ networks := l.reply, disk, ports := sortedSet (ready \ before) }] →
        ∀ r ∈ l'.asked, r ∈ l.asked ∨
          r = { networks := l.reply, disk, ports := sortedSet (ready \ before) } := by
      intro l' hl' r hr
      rw [hl'] at hr
      exact (List.mem_append.mp hr).imp_right List.mem_singleton.mp
    refine report_stands.mono (fun _ hw => hw) (fun _ w hw => ?_) fun w hw => ?_
    · unfold Reported
      rw [hw.2]
      exact ⟨rfl, rfl, rfl, hnew rfl⟩
    · unfold Reported
      rw [hw.2]
      exact ⟨hw.1, rfl, hnew rfl⟩

/-- What is gathered from a reply is ready by it. -/
theorem gathered_ready {reply : DhcpRpc.Reply} {l' : Ledger} {all : Gathered}
    (h : GathersAll reply.networks { l with reply := reply.networks, refused := [] } {} l' all) :
    all.ready = readyOf l'.reply l'.refused := by
  ext id
  rw [h.ready reply.apart fun _ _ => List.not_mem_nil, mem_readyOf, h.reports.1]
  exact or_iff_right (Finset.notMem_empty id)

/-- A report made over the files of what was gathered is sound. -/
theorem sound_of_written {reply : DhcpRpc.Reply} {l' : Ledger} {all : Gathered} {w : World (Audit σ)}
    (h : GathersAll reply.networks { l with reply := reply.networks, refused := [] } {} l' all)
    (hfiles : ∀ net ∈ all.desired, Written net w) :
    Report.Sound { networks := l'.reply, disk := w.disk, ports := sortedSet (all.ready \ known) } := by
  intro id hid
  have hready : id ∈ all.ready := (Finset.mem_sdiff.mp (mem_sortedSet.mp hid)).1
  rcases h.spec hready with hnone | ⟨net, hnet, hserved, hin, port, spec, hspec, hof⟩
  · exact absurd hnone (Finset.notMem_empty id)
  · refine ⟨net, ?_, hserved, hin, port, spec, hof, ?_⟩
    · rw [h.reports.1]
      exact hnet
    · obtain ⟨ips, mac, -, -, rfl⟩ := specOf_eq_some.mp hof
      exact hfiles _ hspec

/-- The end of a pass, from what was gathered. -/
theorem report_completes {reply : DhcpRpc.Reply} {l' : Ledger} {all : Gathered} {w : World (Audit σ)}
    (h : GathersAll reply.networks { l with reply := reply.networks, refused := [] } {} l' all)
    (hfiles : Untouched out.cmd out.pause → ∀ net ∈ all.desired, Written net w) :
    Triple (fun w' => Stands known l' w' ∧ w'.disk = w.disk) (report (audited out) all.ready)
      (fun _ w => Completed out known l w) fun w => Stopped out known l w := by
  obtain ⟨hreply, hasked, hanswered⟩ := h.reports
  have hnew : ∀ w', Reported known all.ready l' w.disk w' → NewSound out l w' := by
    intro w' hw' hout r hr
    refine (hw' r hr).imp (fun hold => ?_) fun heq => ?_
    · rw [hasked] at hold
      exact hold
    · rw [heq]
      exact sound_of_written h (hfiles hout)
  refine report_due.mono (fun _ hw => hw) (fun _ w' hw' => ?_) fun w' hw' => ?_
  · obtain ⟨hready, hr, href, hans, hrep⟩ := hw'
    refine ⟨?_, ?_, hnew w' hrep⟩
    · rw [hready, hr, href]
      exact gathered_ready h
    · rw [hans, hanswered, hready]
  · obtain ⟨hready, hans, hrep⟩ := hw'
    exact ⟨hready, hans.trans hanswered, hnew w' hrep⟩

variable [Uuid]

/-- **One pass**, to its end or to wherever it stops. -/
theorem sync_stands : Triple (Stands known l) (sync (audited out) conf)
    (fun _ w => Completed out known l w) fun w => Stopped out known l w := by
  have hsame : ∀ {l' : Ledger} {w : World (Audit σ)}, l'.asked = l.asked →
      l'.answered = l.answered → Stands known l' w → Stopped out known l w := by
    intro l' w hasked hanswered hw
    refine ⟨hw.1, by rw [hw.2, hanswered], fun _ r hr => .inl ?_⟩
    rw [hw.2, hasked] at hr
    exact hr
  -- wherever the pass stops, what it has told and been answered is what `hsame` asks for
  unfold sync
  refine Triple.bind (fetch_stands.mono (fun _ hw => hw) (fun _ _ hw => hw) fun w hw =>
    hsame rfl rfl hw) fun reply => ?_
  refine Triple.bind (gather_stands.mono (fun _ hw => hw) (fun _ _ hw => hw) fun w hw =>
    hsame hw.2.1 hw.2.2 ⟨hw.1, rfl⟩) fun all => triple_of_forall fun w₂ hw₂ => ?_
  obtain ⟨hknown, hgathers⟩ := hw₂
  obtain ⟨-, hasked, hanswered⟩ := hgathers.reports
  have hrec : Triple (· = w₂) (reconciled (audited out) conf all.desired)
      (fun _ w => Stands known (ledger w₂) w ∧
        (Untouched out.cmd out.pause → ∀ net ∈ all.desired, Written net w))
      (Stands known (ledger w₂)) := by
    rintro w rfl
    have hkeeps : Keeps (Stands known (ledger w)) (reconciled (audited out) conf all.desired) :=
      reconciled_stands
    obtain ⟨hend, hstop⟩ := hkeeps w ⟨hknown, rfl⟩
    refine ⟨fun receipts w' hrun => ⟨hend receipts w' hrun, fun hout => ?_⟩, hstop⟩
    obtain ⟨specs, hdesired, hsub⟩ := hgathers.desired
    have hnd : (all.desired.map DhcpNetwork.networkId).Nodup := by
      rw [hdesired]
      exact hsub.nodup reply.apart
    exact (reconciled_files hout hnd w trivial).1 receipts w' hrun
  refine Triple.bind (hrec.mono (fun _ hw => hw) (fun _ _ hw => hw) fun w hw =>
    hsame hasked hanswered hw) fun receipts => ?_
  split
  · exact triple_stop fun w hw => hsame hasked hanswered hw.1
  · refine Triple.bind (Q := fun _ w => Stands known (ledger w₂) w ∧
      (Untouched out.cmd out.pause → ∀ net ∈ all.desired, Written net w))
      (triple_update fun w hw => hw) fun _ => triple_of_forall fun w hw => ?_
    exact (report_completes hgathers hw.2).pre fun w' hw' => by rw [hw']; exact ⟨hw.1, rfl⟩

end

end Dhcp

end Bsdbridge
