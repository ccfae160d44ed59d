import Bsdbridge.Proof.DhcpReports

/-!
# Runs of the dhcp agent

For every run, through replies and refusals of any kind, calls that raise, reconciles that fail and
restarts, the reports that returned are the differences between one completed pass and the next
(**`reports_exact`**), and a port is in a report only when the files of its network are on the disk
with all of the network's reservations (**`told_ready_served`**). A cast is handled wherever the
agent waits, in the middle of a pass as well; it is clean only while nothing has been cast since
before the last completed pass asked the server (**`no_cast_lost`**).

A run is described by its marks: one for each pass that completed, with the worlds before and after
it, and one for each restart. `announced` computes from the marks alone which reports were due, and
knows nothing of what the agent remembers. A restart begins with an empty memory, so every port
that is ready is reported again after it; this is by design, and stands in the statement.

The three results need different things from outside. The first needs nothing; the second, that
nobody else writes the files; the third, that nothing outside forgets a cast that came in.
-/

set_option autoImplicit false

namespace Bsdbridge

namespace Dhcp

open Prog DhcpRpc

open Daemon (ledger Mark)

/-- The agent of a new process. -/
abbrev fresh {σ : Type} (disk : Disk) (outside : σ) : World σ := Daemon.fresh {} disk outside

/-- The worlds of all runs of the agent that start here. -/
abbrev Reached {σ : Type} [Uuid] (out : Outside σ) (conf : Conf) (disk : Disk) (outside : σ) :
    World σ → List (Mark Memory σ) → Prop :=
  Daemon.Reached out.toOutside (sync out conf) {} disk outside

/-! ## 1. Reports -/

section

variable {σ : Type}

/-- The ports that are ready by a mark: those of the reply, and none after a restart. -/
def markReady : Mark Memory (Audit σ) → Finset String
  | .completed _ after => readyOf (ledger after).reply (ledger after).refused
  | .restarted => ∅

/-- The ports that were ready last, where `before` were at first. -/
def lastReady (before : Finset String) (marks : List (Mark Memory (Audit σ))) : Finset String :=
  marks.foldl (fun _ m => (markReady m)) before

/-- The reports that are due along a run: at each mark, of the ports that have become ready. -/
def announced : Finset String → List (Mark Memory (Audit σ)) → List (List String)
  | _, [] => []
  | before, m :: rest => announce before (markReady m) ++ announced (markReady m) rest

variable {before : Finset String} {marks : List (Mark Memory (Audit σ))} {m : Mark Memory (Audit σ)}

theorem lastReady_snoc : lastReady before (marks ++ [m]) = (markReady m) := by
  unfold lastReady
  rw [List.foldl_append]
  rfl

theorem announced_snoc : announced before (marks ++ [m]) =
    announced before marks ++ announce (lastReady before marks) (markReady m) := by
  induction marks generalizing before with
  | nil => exact List.append_nil _
  | cons m' rest ih =>
    show announce before (markReady m') ++ announced (markReady m') (rest ++ [m]) = _
    rw [ih, ← List.append_assoc]
    rfl

theorem announce_empty : announce before ∅ = [] := by
  unfold announce
  rw [if_pos (Finset.empty_sdiff before)]

end

section

variable {σ : Type} {out : Outside σ} {conf : Conf} {w w' : World (Audit σ)} {force : Bool}
  {marks : List (Mark Memory (Audit σ))} {disk : Disk} {outside : σ}

variable (out) in
theorem sleep_stands {known : Finset String} {l : Ledger} (h : Stands known l w) :
    Stands known l (exec (Daemon.waits (audited out).toOutside (audited out).sleep) w).2 :=
  keeps_iff.mp through_stands w h

variable [Uuid]

omit [Uuid] in
/-- A pass starts with the memory and the ledger of the world it starts from. -/
theorem start_stands : Stands w.rest.memory.ready (ledger w)
    { w with rest := { w.rest with dirty := false } } := ⟨rfl, rfl⟩

theorem completed_of_true (h : syncIfNeeded (audited out) conf force w = (true, w')) :
    Completed out w.rest.memory.ready (ledger w) w' := by
  obtain ⟨w₁, hrun, rfl⟩ := Daemon.syncIfNeeded_true h
  obtain ⟨hready, hanswered, hasked⟩ := (sync_stands _ start_stands).1 () w₁ hrun
  exact ⟨hready, hanswered, hasked⟩

theorem stopped_of_false (h : syncIfNeeded (audited out) conf force w = (false, w')) :
    Stopped out w.rest.memory.ready (ledger w) w' := by
  rcases Daemon.syncIfNeeded_false h with rfl | ⟨w₁, hrun, rfl⟩
  · exact ⟨rfl, rfl, fun _ r hr => .inl hr⟩
  · obtain ⟨hready, hanswered, hasked⟩ := (sync_stands _ start_stands).2 w₁ hrun
    exact ⟨hready, hanswered, hasked⟩

/-- The reports of a run are all sound. -/
theorem asked_sound (hout : Untouched out.cmd out.pause)
    (h : Reached (audited out) conf disk { ledger := {}, rest := outside } w marks) :
    ∀ r ∈ (ledger w).asked, r.Sound := by
  induction h with
  | start => exact fun r hr => absurd hr List.not_mem_nil
  | sleep _ ih =>
    obtain ⟨-, hledger⟩ := sleep_stands out ⟨rfl, rfl⟩
    intro r hr
    rw [hledger] at hr
    exact ih r hr
  | failed _ force hrun ih =>
    exact fun r hr => ((stopped_of_false hrun).asked hout r hr).elim (ih r) id
  | completed _ force hrun ih =>
    exact fun r hr => ((completed_of_true hrun).asked hout r hr).elim (ih r) id
  | restart _ ih => exact ih

end

/-! ## 2. What a report promises

The lines of the two files of a network, in terms of its ports and subnets as the server sent
them. -/

/-- The line of a reservation. -/
def hostLine (e : HostEntry) : String :=
  e.mac ++ ",host-" ++ Text.replaceChar e.ip '.' '-' ++ "," ++ e.ip

/-- The reservations of a network: those of its ports. -/
def reservations (net : ActiveNetwork) : List HostEntry :=
  net.ports.flatMap fun port => hostEntries (v4Subnets net.toNetwork) port.toPort

section

variable {net : ActiveNetwork} {port : DhcpRpc.Port} {spec : DhcpNetwork}

/-- The hosts file of a spec has a line for each reservation, and no other. -/
theorem hostsText_lines (h : specOf net.toNetwork port = some spec) :
    ∃ lines, Dnsmasq.hostsText spec = Text.unlines lines ∧
      ∀ line, line ∈ lines ↔ ∃ e ∈ reservations net, line = hostLine e := by
  obtain ⟨ips, mac, -, -, rfl⟩ := specOf_eq_some.mp h
  refine ⟨_, rfl, fun line => ?_⟩
  rw [mem_sortedBy, List.mem_map]
  have hsame : ∀ e, e ∈ (built net.toNetwork port ips mac).hosts ↔ e ∈ reservations net := by
    intro e
    show e ∈ sortedBy _ _ ↔ _
    rw [mem_sortedBy]
    unfold reservations
    show e ∈ (net.ports.map OwnPort.toPort).flatMap _ ↔ _
    rw [List.flatMap_map]
  constructor
  · rintro ⟨e, he, rfl⟩
    exact ⟨e, (hsame e).mp he, rfl⟩
  · rintro ⟨e, he, rfl⟩
    exact ⟨e, (hsame e).mpr he, rfl⟩

/-- The opts file of a spec has the lines of each subnet that is served, and no other. -/
theorem optsText_lines (h : specOf net.toNetwork port = some spec) :
    ∃ lines, Dnsmasq.optsText spec = Text.unlines lines ∧
      ∀ line, line ∈ lines ↔ ∃ s ∈ v4Subnets net.toNetwork, line ∈ Dnsmasq.optLines (specSubnet s) := by
  obtain ⟨ips, mac, -, -, rfl⟩ := specOf_eq_some.mp h
  refine ⟨_, rfl, fun line => ?_⟩
  show line ∈ ((v4Subnets net.toNetwork).map specSubnet).flatMap Dnsmasq.optLines ↔ _
  rw [List.flatMap_map, List.mem_flatMap]

end

section

variable {σ : Type} [Uuid] {out : Outside σ} {conf : Conf} {w : World (Audit σ)}
  {marks : List (Mark Memory (Audit σ))} {disk : Disk} {outside : σ}

/-- **What is told to be ready is served**: when a port is in a report, whether or not the report
comes to return, it is on a served network of the last reply, whose hosts file has exactly the
reservations of the network's ports, and whose opts file has exactly its subnets' options. -/
theorem told_ready_served (hout : Untouched out.cmd out.pause)
    (h : Reached (audited out) conf disk { ledger := {}, rest := outside } w marks)
    {r : Report} (hr : r ∈ (ledger w).asked) {id : String} (hid : id ∈ r.ports) :
    ∃ net ∈ r.networks, served net = true ∧ id ∈ readyPorts net ∧
      (∃ lines, r.disk.file net.id "hosts" = some (Text.unlines lines) ∧
        ∀ line, line ∈ lines ↔ ∃ e ∈ reservations net, line = hostLine e) ∧
      ∃ lines, r.disk.file net.id "opts" = some (Text.unlines lines) ∧
        ∀ line, line ∈ lines ↔
          ∃ s ∈ v4Subnets net.toNetwork, line ∈ Dnsmasq.optLines (specSubnet s) := by
  obtain ⟨net, hnet, hserved, hin, port, spec, hof, hhosts, hopts⟩ := asked_sound hout h r hr id hid
  obtain ⟨hostLines, htext, hlines⟩ := hostsText_lines hof
  obtain ⟨optLines, htext', hlines'⟩ := optsText_lines hof
  rw [htext] at hhosts
  rw [htext'] at hopts
  exact ⟨net, hnet, hserved, hin, ⟨hostLines, hhosts, hlines⟩, optLines, hopts, hlines'⟩

end

/-! ### A run -/

theorem sample_plain : PlainId "1feae23c" := by decide +kernel

theorem sample_distinct : ([subnetA].map DhcpRpc.Subnet.id).Nodup := List.nodup_singleton _

/-- A network of one subnet and one port. -/
def sampleNet : ActiveNetwork :=
  { id := "1feae23c", subnets := [subnetA]
    ports := [{ id := "aaaa0000", deviceOwner := some "compute:nova",
                macAddress := some "fa:16:3e:aa:bb:01", fixedIps := [⟨"daa048b5", "10.99.0.5"⟩] }]
    plain := sample_plain
    distinct := sample_distinct }

theorem sample_apart : ([sampleNet].map ActiveNetwork.id).Nodup := List.nodup_singleton _

/-- A server that has this network and makes the dhcp port it is asked for, and a host on which
every command succeeds and shows nothing. A report is followed by a cast. -/
def sampleOutside : Outside (List Cast) where
  plugin :=
    { getActiveNetworksInfo := pure { networks := [sampleNet], apart := sample_apart }
      createDhcpPort := fun body => pure (some
        { id := "dddd0000", deviceOwner := some DEVICE_OWNER_DHCP, deviceId := some body.deviceId,
          macAddress := some "FA:16:3E:00:00:01",
          fixedIps := body.subnetIds.map fun sid => ⟨sid, "10.99.0.2"⟩ })
      updateDhcpPort := fun _ _ => pure none
      releaseDhcpPort := fun _ _ => pure ()
      dhcpReadyOnPorts := fun _ => update fun s => { s with rest := s.rest ++ [.portUpdateEnd] } }
  cmd _ := pure { rc := .code 0 }
  pause := pure ()
  sleep := pure ()
  casts := id

/-- The first pass on this host. -/
def samplePass : Bool × World (Audit (List Cast)) :=
  @syncIfNeeded _ (audited sampleOutside) ⟨id⟩ { host := "testhost", statePath := "/var" } false
    (fresh ∅ { ledger := {}, rest := [] })

theorem samplePass_reached :
    @Reached _ ⟨id⟩ (audited sampleOutside) { host := "testhost", statePath := "/var" } ∅
      { ledger := {}, rest := [] } samplePass.2
      [.completed (fresh ∅ { ledger := {}, rest := [] }) samplePass.2] := by
  have hdone : samplePass.1 = true := by decide +kernel
  have hpass : samplePass = (true, samplePass.2) := by rw [← hdone]
  exact Daemon.Reached.completed Daemon.Reached.start false hpass

/-- The report of the first pass. -/
def sampleReport : Report :=
  (ledger samplePass.2).asked.headD { networks := [], disk := ∅, ports := [] }

theorem sampleReport_mem : sampleReport ∈ (ledger samplePass.2).asked := by
  have hsome : (ledger samplePass.2).asked ≠ [] := by
    intro hnil
    have hlen : (ledger samplePass.2).asked.length = 1 := by decide +kernel
    rw [hnil] at hlen
    exact absurd hlen (by decide)
  unfold sampleReport
  cases hasked : (ledger samplePass.2).asked with
  | nil => exact absurd hasked hsome
  | cons r rest => exact List.mem_cons_self

theorem told_ready_served_sample : ∃ net ∈ sampleReport.networks, served net = true ∧
    "aaaa0000" ∈ readyPorts net ∧
      (∃ lines, sampleReport.disk.file net.id "hosts" = some (Text.unlines lines) ∧
        ∀ line, line ∈ lines ↔ ∃ e ∈ reservations net, line = hostLine e) ∧
      ∃ lines, sampleReport.disk.file net.id "opts" = some (Text.unlines lines) ∧
        ∀ line, line ∈ lines ↔
          ∃ s ∈ v4Subnets net.toNetwork, line ∈ Dnsmasq.optLines (specSubnet s) :=
  @told_ready_served _ ⟨id⟩ sampleOutside _ _ _ _ _
    ⟨fun _ _ _ _ _ => rfl, fun _ _ _ _ => rfl⟩ samplePass_reached _ sampleReport_mem "aaaa0000"
    (by decide +kernel)

/-! ## 3. Casts -/

section

variable {σ : Type} {out : Outside σ}

/-- Nothing outside forgets a cast. -/
structure Outside.Remembers (out : Outside σ) : Prop extends out.toOutside.Remembers where
  fetch : Daemon.Adds out.toOutside out.plugin.getActiveNetworksInfo
  create : ∀ body, Daemon.Adds out.toOutside (out.plugin.createDhcpPort body)
  update : ∀ portId body, Daemon.Adds out.toOutside (out.plugin.updateDhcpPort portId body)
  release : ∀ networkId deviceId,
    Daemon.Adds out.toOutside (out.plugin.releaseDhcpPort networkId deviceId)
  ready : ∀ ports, Daemon.Adds out.toOutside (out.plugin.dhcpReadyOnPorts ports)

variable [Uuid] {conf : Conf} {heard : List Cast}

/-- The casts of a pass are not lost on it. -/
theorem sync_quiet (h : out.Remembers) :
    Keeps (Daemon.Quiet out.toOutside heard) (sync out conf) := by
  have hensure : ∀ net v4, Keeps (Daemon.Quiet out.toOutside heard) (ensurePort out conf net v4) := by
    intro net v4
    unfold ensurePort
    split
    · exact Daemon.waits_quiet (h.create _)
    · split
      · exact keeps_pure
      · exact Keeps.bind (Daemon.waits_quiet (h.update _ _)) fun _ => keeps_pure
  have hone : ∀ net all, Keeps (Daemon.Quiet out.toOutside heard) (gatherOne out conf net all) := by
    intro net all
    unfold gatherOne
    dsimp only
    split
    · refine Keeps.bind ?_ fun _ => keeps_pure
      split
      · exact Daemon.waits_quiet (h.release _ _)
      · exact keeps_pure
    · refine (hensure _ _).bind fun port => ?_
      split
      · exact keeps_pure
      · split
        · exact keeps_stop
        · exact keeps_pure
  have hgather : ∀ nets all, Keeps (Daemon.Quiet out.toOutside heard) (gather out conf nets all) := by
    intro nets
    induction nets with
    | nil => exact fun all => keeps_pure
    | cons net rest ih => exact fun all => (hone net all).bind ih
  have hrec : ∀ desired, Keeps (Daemon.Quiet out.toOutside heard) (reconciled out conf desired) :=
    fun desired => Daemon.reconciled_quiet h.toRemembers fun _ _ _ => reconcile_keeps
  -- the parts in the order of the pass; the count and the report only update the memory
  unfold sync report
  refine Keeps.bind (Daemon.waits_quiet h.fetch) fun reply => (hgather _ _).bind fun all => ?_
  refine (hrec _).bind fun receipts => ?_
  split
  · exact keeps_stop
  · refine Keeps.bind ?_ fun _ => keeps_look.bind fun known => Keeps.bind ?_ fun _ => ?_
    · exact keeps_update fun w hw => hw
    rotate_left
    · exact keeps_update fun w hw => hw
    split
    · exact keeps_pure
    · exact Daemon.waits_quiet (h.ready _)

/-- **No cast is lost.** In every run, an agent that is clean has completed a pass, and nothing has
been cast since before that pass asked the server; any cast since, however the wait went in which
it came in, has the agent make another pass. -/
theorem no_cast_lost (hout : out.Remembers) {disk : Disk} {outside : σ} {w : World σ}
    {marks : List (Mark Memory σ)} (h : Reached out conf disk outside w marks) :
    w.rest.dirty = true ∨ ∃ before after, marks.getLast? = some (.completed before after) ∧
      out.casts w.rest.outside = out.casts before.rest.outside :=
  Daemon.quiet_or_dirty hout.sleep (fun _ => sync_quiet hout) h

end

theorem sampleOutside_remembers : (audited sampleOutside).Remembers where
  fetch _ := List.prefix_refl _
  create _ _ := List.prefix_refl _
  update _ _ _ := List.prefix_refl _
  release _ _ _ := List.prefix_refl _
  ready _ _ := List.prefix_append _ _
  cmd _ _ := List.prefix_refl _
  pause _ := List.prefix_refl _
  sleep _ := List.prefix_refl _

/-- The report of the first pass brings a cast with it, and the agent is dirty after the pass. -/
theorem no_cast_lost_sample : samplePass.2.rest.dirty = true ∨ ∃ before after,
    [Mark.completed (fresh ∅ { ledger := {}, rest := [] }) samplePass.2].getLast? =
      some (.completed before after) ∧
    (audited sampleOutside).casts samplePass.2.rest.outside =
      (audited sampleOutside).casts before.rest.outside :=
  @no_cast_lost _ (audited sampleOutside) ⟨id⟩ _ sampleOutside_remembers _ _ _ _ samplePass_reached

end Dhcp

end Bsdbridge
