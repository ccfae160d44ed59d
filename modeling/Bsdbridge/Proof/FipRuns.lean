import Bsdbridge.L3Agent.Sync
import Bsdbridge.Proof.Daemon
import Bsdbridge.Proof.RouterPf

/-!
# A floating ip that is told to be active

The agent tells the server the status of a floating ip when it differs from what it told last, and
it does so at the end of a pass. **`active_is_loaded`** says what stands behind it on the host,
over every run of the agent: at the moment a floating ip is told to be active, pf is enabled in the
jail of its router with the rules of a router that has a gateway and the floating ip. The moments
are those of a ledger kept between the agent and the server.

The ledger is the proof's, not the agent's. It sits where the call to the server is made, notes the
report together with the pf of every jail at that moment, and passes the call on; the agent under
it does exactly what it does without it. So the theorem speaks of the moment of the report and not
of a state before or after it, between which rules may be lost.

## What is assumed outside

`Around` collects it: pfctl(8) and the disk as in `Proof/RouterPf`, rules that may be lost while
the agent sleeps or fetches, a server whose replies are of known routers with a jail each, and
reports that do not touch the host. Calls may raise anywhere. A report that raises was made, and is
on the ledger.
-/

set_option autoImplicit false

namespace Bsdbridge

namespace L3Agent

open L3 Prog Actions

open Daemon (ledger Mark)

/-! ## 1. The ledger -/

/-- A report at the moment it is made, with the pf of every jail. -/
structure Told where
  routerId : String
  statuses : Statuses
  pf : String → JailPf

/-- What is outside, and the ledger. -/
abbrev Audit (σ : Type) := Daemon.Audit (List Told) σ

/-- What is outside, seen through the ledger. -/
def audited {σ : Type} (view : σ → String → JailPf) (out : Outside σ) : Outside (Audit σ) :=
  { out.toOutside.audited with
    plugin :=
      { getRouters := Daemon.Audit.through out.plugin.getRouters
        updateFloatingipStatuses := fun routerId statuses => do
          update fun s : Site (Audit σ) =>
            { s with rest := { s.rest with
                ledger := s.rest.ledger ++ [⟨routerId, statuses, view s.rest.rest⟩] } }
          Daemon.Audit.through (out.plugin.updateFloatingipStatuses routerId statuses) } }

section

variable {σ : Type} {view : σ → String → JailPf} {out : Outside σ}

/-- The host under an agent. -/
def inside (w : World (Audit σ)) : Site σ := { disk := w.disk, rest := w.rest.outside.rest }

/-- The pf of the host under an agent. -/
def viewBelow (view : σ → String → JailPf) (a : Daemon.Agent Memory (Audit σ)) :
    String → JailPf := view a.outside.rest

theorem waits_some {α : Type} {p : Prog (Site σ) α} {w w' : World (Audit σ)} {a : α}
    (h : exec (waits (audited view out) (Daemon.Audit.through p)) w = (some a, w')) :
    exec p (inside w) = (some a, inside w') ∧ ledger w' = ledger w := by
  unfold waits at h
  rw [Daemon.exec_waits] at h
  obtain ⟨hans, rfl⟩ := Prod.mk.inj h
  exact ⟨eq_of_answer hans, rfl⟩

variable (view out) in
theorem waits_inside {α : Type} (p : Prog (Site σ) α) (w : World (Audit σ)) :
    inside (exec (waits (audited view out) (Daemon.Audit.through p)) w).2 =
      (exec p (inside w)).2 ∧
    ledger (exec (waits (audited view out) (Daemon.Audit.through p)) w).2 = ledger w := by
  unfold waits
  rw [Daemon.exec_waits]
  exact ⟨rfl, rfl⟩

variable [Hashlib] {known : Set Router} {base : String} {listing : String → String}

/-- The jails are the same ones when they are seen from the agent. -/
theorem pfJails_audited (m : PfJails known base listing out.cmd out.pause view) :
    PfJails known base listing
      (fun argv => Daemon.waits (audited view out).toOutside ((audited view out).cmd argv))
      (Daemon.waits (audited view out).toOutside (audited view out).pause :
        Prog (World (Audit σ)) Unit) (viewBelow view) where
  status j e e' r h hok := m.status j _ _ r (waits_some h).1 hok
  rules j e e' r h hok := m.rules j _ _ r (waits_some h).1 hok
  enable j e e' r h hok := m.enable j _ _ r (waits_some h).1 hok
  load rtr hrtr e e' r h hok := m.load rtr hrtr _ _ r (waits_some h).1 hok
  tame argv j e := by
    have hview := m.tame argv j (inside e)
    rw [← (waits_inside view out (out.cmd argv) e).1] at hview
    exact hview
  other j argv e hnot := by
    have hview := m.other j argv (inside e) hnot
    rw [← (waits_inside view out (out.cmd argv) e).1] at hview
    exact hview
  files argv dir := Daemon.spares_waits (Daemon.spares_through (m.files argv dir))
  pauseView j e := by
    have hview := m.pauseView j (inside e)
    rw [← (waits_inside view out out.pause e).1] at hview
    exact hview
  pauseFiles dir := Daemon.spares_waits (Daemon.spares_through (m.pauseFiles dir))
  shows := m.shows

end

/-! ## 2. What is outside -/

section

variable {σ : Type}

/-- The program leaves the pf of every jail, and every pf.conf, as they are. -/
def Unseen {α : Type} (view : σ → String → JailPf) (p : Prog (Site σ) α) : Prop :=
  ∀ s, (∀ j, view (exec p s).2.rest j = view s.rest j) ∧
    ∀ dir, (exec p s).2.disk.file dir "pf.conf" = s.disk.file dir "pf.conf"

/-- A jail may lose its rules, and a pf.conf may go, but nothing else happens to them. -/
def Loses {α : Type} (view : σ → String → JailPf) (p : Prog (Site σ) α) : Prop :=
  ∀ s, (∀ j, (view (exec p s).2.rest j).loaded = (view s.rest j).loaded ∨
      (view (exec p s).2.rest j).loaded = none) ∧
    ∀ dir, (exec p s).2.disk.file dir "pf.conf" = s.disk.file dir "pf.conf" ∨
      (exec p s).2.disk.file dir "pf.conf" = none

/-- The host and the server of an agent. While the agent sleeps or fetches, rules may be lost; the
server takes a report without a change on the host; and it sends routers that are known, no two of
one jail. -/
structure Around [Hashlib] (known : Set Router) (base : String) (listing : String → String)
    (view : σ → String → JailPf) (out : Outside σ) : Prop where
  jails : PfJails known base listing out.cmd out.pause view
  tells : ∀ routerId statuses, Unseen view (out.plugin.updateFloatingipStatuses routerId statuses)
  fetches : Loses view out.plugin.getRouters
  sleeps : Loses view out.sleep
  served : ∀ s s' routers desired, exec out.plugin.getRouters s = (some routers, s') →
    handled routers = some desired →
      (∀ rtr ∈ desired, rtr ∈ known) ∧ (desired.map Router.jail).Nodup

end

/-- What stands on the host behind a report: the rules of a router that has the floating ips. -/
def Told.Backed [Hashlib] (known : Set Router) (t : Told) : Prop :=
  ∀ fip, (fip, FipStatus.active) ∈ t.statuses → ∃ rtr ∈ known, rtr.id = t.routerId ∧
    rtr.gateway.isSome = true ∧ (∃ f ∈ rtr.floatingIps, f.id = fip) ∧
      ∃ text cfgHash, rtr.pfText = some (text, cfgHash) ∧
        t.pf rtr.jail = { loaded := some text, enabled := true }

/-- Every report was backed. -/
def AllBacked {σ : Type} [Hashlib] (known : Set Router) (w : World (Audit σ)) : Prop :=
  ∀ t ∈ ledger w, t.Backed known

/-! ## 3. The pass

`Kept` holds throughout; `Ready` from the reconcile on, as long as it left no failures, up to the
last report. -/

section

variable {σ : Type} [Hashlib] {known : Set Router} {base : String} {listing : String → String}
  {view : σ → String → JailPf} {out : Outside σ} {desired : List Router}

/-- All that is loaded is genuine, and every report was backed. -/
structure Kept (known : Set Router) (view : σ → String → JailPf) (w : World (Audit σ)) : Prop where
  genuine : Genuine known (viewBelow view) w
  backed : AllBacked known w

/-- It is all a matter of the host. -/
theorem Kept.same {w w' : World (Audit σ)} (hw : Kept known view w) (hdisk : w'.disk = w.disk)
    (houtside : w'.rest.outside = w.rest.outside) : Kept known view w' := by
  refine ⟨⟨fun j text htext => ?_, fun dir text htext => ?_⟩, fun t ht => ?_⟩
  · unfold viewBelow at htext
    rw [houtside] at htext
    exact hw.genuine.loaded j text htext
  · rw [hdisk] at htext
    exact hw.genuine.files dir text htext
  · unfold ledger at ht
    rw [houtside] at ht
    exact hw.backed t ht

theorem loses_kept {α : Type} {p : Prog (Site σ) α} (h : Loses view p) :
    Keeps (Kept known view) (waits (audited view out) (Daemon.Audit.through p)) := by
  refine keeps_iff.mpr fun w hw => ?_
  obtain ⟨hinside, hledger⟩ := waits_inside view out p w
  obtain ⟨hloaded, hfiles⟩ := h (inside w)
  refine ⟨hw.genuine.lost (fun j => ?_) fun dir => ?_, fun t ht => ?_⟩
  · have hj := hloaded j
    rw [← hinside] at hj
    exact hj
  · have hdir := hfiles dir
    rw [← hinside] at hdir
    exact hdir
  · rw [hledger] at ht
    exact hw.backed t ht

/-- A fetch that returns brings known routers. -/
theorem fetch_kept (h : Around known base listing view out) :
    Triple (Kept known view) (waits (audited view out) (audited view out).plugin.getRouters)
      (fun routers w => Kept known view w ∧ ∀ desired, handled routers = some desired →
        (∀ rtr ∈ desired, rtr ∈ known) ∧ (desired.map Router.jail).Nodup) (Kept known view) := by
  intro w hw
  have hkeeps : Keeps (Kept known view) (waits (audited view out)
      (audited view out).plugin.getRouters) := loses_kept h.fetches
  obtain ⟨hend, hstop⟩ := hkeeps w hw
  refine ⟨fun routers w' hrun => ⟨hend routers w' hrun, fun desired hdesired => ?_⟩, hstop⟩
  exact h.served _ _ routers desired (waits_some hrun).1 hdesired

/-- A reconcile, to its end or to wherever it stops, and what is loaded when none of its actions
has failed. -/
theorem reconciled_kept (h : Around known base listing view out) (hapart : PfApart known)
    (hknown : ∀ rtr ∈ desired, rtr ∈ known) (hjails : (desired.map Router.jail).Nodup) :
    Triple (Kept known view) (reconciled (audited view out) base desired)
      (fun receipts w => Kept known view w ∧ ((receipts.any fun r => !r.ok) = false →
        ∀ rtr ∈ desired, Loaded (viewBelow view) rtr w)) (Kept known view) := by
  have m := pfJails_audited h.jails
  have hgenuine : Keeps (Genuine known (viewBelow view))
      (reconciled (audited view out) base desired) :=
    Daemon.keeps_reconciled (reconcile_genuine m hknown)
  have hledger : Keeps (AllBacked known) (reconciled (audited view out) base desired) := by
    refine Daemon.keeps_reconciled (reconcile_keeps (F := fun _ => True) (fun argv => ?_)
      (fun f _ => Keeps.bind ?_ fun _ => keeps_update fun _ hw => hw) (fun _ _ => trivial)
      (fun _ _ _ _ _ => trivial) fun _ => trivial)
    · -- a command runs off the ledger, and so leaves what is on it backed
      refine keeps_iff.mpr fun w hw t ht => hw t ?_
      rw [← (waits_inside view out (out.cmd argv) w).2]
      exact ht
    · refine keeps_iff.mpr fun w hw t ht => hw t ?_
      rw [← (waits_inside view out out.pause w).2]
      exact ht
  intro w hw
  have hkept : ∀ {w' : World (Audit σ)} {answer : Option (List (Receipt String))},
      exec (reconciled (audited view out) base desired) w = (answer, w') → Kept known view w' := by
    intro w' answer hrun
    have hg := keeps_iff.mp hgenuine w hw.genuine
    have hl := keeps_iff.mp hledger w hw.backed
    rw [hrun] at hg hl
    exact ⟨hg, hl⟩
  refine ⟨fun receipts w' hrun => ⟨hkept hrun, fun hok => ?_⟩, fun w' hrun => hkept hrun⟩
  obtain ⟨t, ht, rfl, rfl⟩ := Daemon.reconciled_some hrun
  refine reconcile_loads m hapart hknown hjails hw.genuine ht fun r hr => ?_
  -- no receipt failed, since the pass says so of all of them
  by_contra hbad
  have hany : (t.receipts.any fun r => !r.ok) = true :=
    List.any_eq_true.mpr ⟨r, hr, by simpa using hbad⟩
  exact absurd (hok.symm.trans hany) Bool.false_ne_true

omit [Hashlib] in
/-- A map that is reported is that of a router. -/
theorem mem_statusMaps {routerId : String} {statuses : Statuses}
    (h : (routerId, statuses) ∈ (statusMaps desired).entries) :
    ∃ rtr ∈ desired, rtr.id = routerId ∧ L3.statuses rtr = statuses := by
  have hget := Dict.get?_eq_some.mpr h
  unfold statusMaps at hget
  rw [Dict.get?_ofList, List.lookup_eq_some_iff] at hget
  obtain ⟨l, m, hlist, -⟩ := hget
  have hmem : (routerId, statuses) ∈ desired.map fun spec => (spec.id, L3.statuses spec) := by
    rw [← List.mem_reverse, hlist]
    exact List.mem_append_right _ List.mem_cons_self
  obtain ⟨rtr, hrtr, heq⟩ := List.mem_map.mp hmem
  obtain ⟨hid, hstatuses⟩ := Prod.mk.inj heq
  exact ⟨rtr, hrtr, hid, hstatuses⟩

omit [Hashlib] in
/-- A floating ip is active on a router with a gateway. -/
theorem mem_statuses {rtr : Router} {fip : String}
    (h : (fip, FipStatus.active) ∈ L3.statuses rtr) :
    rtr.gateway.isSome = true ∧ ∃ f ∈ rtr.floatingIps, f.id = fip := by
  unfold L3.statuses at h
  obtain ⟨f, hf, heq⟩ := List.mem_map.mp (List.mem_toFinset.mp h)
  obtain ⟨hid, hstatus⟩ := Prod.mk.inj heq
  refine ⟨?_, f, hf, hid⟩
  by_contra hno
  rw [if_neg hno] at hstatus
  exact absurd hstatus (by decide)

/-- All of the routers are loaded, and all there is to keep is kept. -/
structure Ready (known : Set Router) (view : σ → String → JailPf) (desired : List Router)
    (w : World (Audit σ)) : Prop extends Kept known view w where
  loaded : ∀ rtr ∈ desired, Loaded (viewBelow view) rtr w

theorem Ready.same {w w' : World (Audit σ)} (hw : Ready known view desired w)
    (hdisk : w'.disk = w.disk) (houtside : w'.rest.outside = w.rest.outside) :
    Ready known view desired w' := by
  refine ⟨hw.toKept.same hdisk houtside, fun rtr hrtr => ?_⟩
  obtain ⟨text, cfgHash, htext, hloaded⟩ := hw.loaded rtr hrtr
  refine ⟨text, cfgHash, htext, ?_⟩
  unfold viewBelow at hloaded ⊢
  rw [houtside]
  exact hloaded

/-- A report is made over what is loaded, and leaves it so. -/
theorem tell_ready (h : Around known base listing view out)
    (hknown : ∀ rtr ∈ desired, rtr ∈ known) {e : String × Statuses}
    (he : e ∈ (statusMaps desired).entries) :
    Keeps (Ready known view desired) (waits (audited view out)
      ((audited view out).plugin.updateFloatingipStatuses e.1 e.2)) := by
  refine Daemon.keeps_waits fun w hw => ?_
  obtain ⟨hview, hfiles⟩ := h.tells e.1 e.2 (inside w)
  have htold : (exec ((audited view out).plugin.updateFloatingipStatuses e.1 e.2)
      (Daemon.below w)).2 =
        { disk := (exec (out.plugin.updateFloatingipStatuses e.1 e.2) (inside w)).2.disk
          rest :=
            { ledger := ledger w ++ [⟨e.1, e.2, viewBelow view w.rest⟩]
              rest := (exec (out.plugin.updateFloatingipStatuses e.1 e.2) (inside w)).2.rest } } :=
    rfl
  rw [htold]
  refine ⟨⟨hw.genuine.lost (fun j => .inl ?_) fun dir => .inl (hfiles dir), fun t ht => ?_⟩,
    fun rtr hrtr => ?_⟩
  · exact congrArg JailPf.loaded (hview j)
  · rcases List.mem_append.mp ht with hold | hnew
    · exact hw.backed t hold
    · rw [List.mem_singleton.mp hnew]
      intro fip hfip
      obtain ⟨rtr, hrtr, hid, hstatuses⟩ := mem_statusMaps he
      rw [← hstatuses] at hfip
      obtain ⟨hgateway, hfips⟩ := mem_statuses hfip
      exact ⟨rtr, hknown rtr hrtr, hid, hgateway, hfips, hw.loaded rtr hrtr⟩
  · obtain ⟨text, cfgHash, htext, hloaded⟩ := hw.loaded rtr hrtr
    exact ⟨text, cfgHash, htext, (hview rtr.jail).trans hloaded⟩

theorem report_ready (h : Around known base listing view out)
    (hknown : ∀ rtr ∈ desired, rtr ∈ known) :
    Keeps (Ready known view desired) (report (audited view out) (statusMaps desired)) := by
  unfold report
  refine (keeps_forM fun e he => ?_).bind fun _ =>
    keeps_update fun w hw => hw.same rfl rfl
  unfold reportOne
  refine keeps_look.bind fun remembered => ?_
  split
  · exact keeps_pure
  · exact tell_ready h hknown he

/-- One pass, to its end or to wherever it stops. -/
theorem sync_kept (h : Around known base listing view out) (hapart : PfApart known) :
    Keeps (Kept known view) (sync (audited view out) base) := by
  unfold sync
  refine Triple.bind (fetch_kept h) fun routers => ?_
  cases hhandled : handled routers with
  | none => exact triple_stop fun w hw => hw.1
  | some desired =>
    refine triple_of_forall fun w hw => ?_
    obtain ⟨hknown, hjails⟩ := hw.2 desired rfl
    have hrec := (reconciled_kept h hapart hknown hjails).pre (by
      intro w' hw'
      exact hw' ▸ hw.1 : ∀ w', w' = w → Kept known view w')
    refine Triple.bind hrec fun receipts => ?_
    split
    · exact triple_stop fun w hw => hw.1
    · rename_i hok
      have hready : Keeps (Ready known view desired) (do
          Prog.update fun w : World (Audit σ) =>
            { w with rest := { w.rest with memory :=
              { w.rest.memory with counts := countsOf desired } } }
          report (audited view out) (statusMaps desired)) :=
        (keeps_update fun w hw => hw.same rfl rfl).bind fun _ => report_ready h hknown
      refine hready.mono (fun w hw => ⟨hw.1, hw.2 ?_⟩) (fun _ _ hw => hw.toKept)
        fun _ hw => hw.toKept
      simpa using hok

theorem Kept.passed (h : Around known base listing view out) (hapart : PfApart known)
    {w w' : World (Audit σ)} {force completed : Bool} (hw : Kept known view w)
    (hrun : syncIfNeeded (audited view out) base force w = (completed, w')) :
    Kept known view w' := by
  have hclean : Kept known view { w with rest := { w.rest with dirty := false } } :=
    hw.same rfl rfl
  cases completed with
  | true =>
    obtain ⟨w₁, hpass, rfl⟩ := Daemon.syncIfNeeded_true hrun
    exact ((sync_kept h hapart).of_some hclean hpass).same rfl rfl
  | false =>
    rcases Daemon.syncIfNeeded_false hrun with rfl | ⟨w₁, hpass, rfl⟩
    · exact hw
    · have hpassed := keeps_iff.mp (sync_kept h hapart) _ hclean
      rw [hpass] at hpassed
      exact hpassed.same rfl rfl

/-! ## 4. Runs -/

/-- **A floating ip that is told to be active is translated**: over every run of the agent, from a
host whose rules are genuine, through calls that raise, reconciles that fail, rules that are lost
and restarts, each report was made while pf was enabled in the jail of the router, with the rules
of a router of that id that has a gateway and each floating ip the report calls active. -/
theorem active_is_loaded (h : Around known base listing view out) (hapart : PfApart known)
    {disk : Disk} {outside : σ} (hstart : Genuine known view { disk, rest := outside })
    {w : World (Audit σ)} {marks : List (Mark Memory (Audit σ))}
    (hrun : Daemon.Reached (audited view out).toOutside (sync (audited view out) base) {} disk
      { ledger := [], rest := outside } w marks) :
    ∀ t ∈ ledger w, ∀ fip, (fip, FipStatus.active) ∈ t.statuses →
      ∃ rtr ∈ known, rtr.id = t.routerId ∧ rtr.gateway.isSome = true ∧
        (∃ f ∈ rtr.floatingIps, f.id = fip) ∧
          ∃ text cfgHash, rtr.pfText = some (text, cfgHash) ∧
            t.pf rtr.jail = { loaded := some text, enabled := true } := by
  have hkept : Kept known view w := by
    induction hrun with
    | start => exact ⟨⟨hstart.loaded, hstart.files⟩, fun t ht => absurd ht List.not_mem_nil⟩
    | sleep _ ih => exact keeps_iff.mp (loses_kept h.sleeps) _ ih
    | failed _ force hrun ih => exact ih.passed h hapart hrun
    | completed _ force hrun ih => exact ih.passed h hapart hrun
    | restart _ ih => exact ih.same rfl rfl
  exact fun t ht => hkept.backed t ht

end

/-! ### A run -/

/-- The router `1`, as the server sends it. -/
def sampleRouter : Rpc.Router where
  id := "1"
  gwPort := some
    { id := "1", macAddress := "FA:16:3E:00:00:10"
      subnets := [{ id := "s0", cidr := "203.0.113.0/24", gatewayIp := some "203.0.113.1" }]
      fixedIps := [{ subnetId := "s0", ipAddress := "203.0.113.10" }] }
  floatingips :=
    [{ id := "f0", floatingIpAddress := "203.0.113.9", fixedIpAddress := some "10.0.0.5" }]

/-- What the agent makes of it. -/
def sampleSpecs : List Router := (handled [sampleRouter]).getD []

def sampleKnown : Set Router := {rtr | rtr ∈ sampleSpecs}

/-- A server that sends this router, and a host with its jail. -/
def sampleOutside : Outside JailPf where
  cmd := Fronted.runner
  pause := pure ()
  sleep := pure ()
  casts _ := []
  plugin :=
    { getRouters := pure [sampleRouter]
      updateFloatingipStatuses := fun _ _ => pure () }

theorem sample_around : @Around JailPf ⟨Fronted.digest⟩ sampleKnown "/var/db" Fronted.listing
    Fronted.view sampleOutside := by
  have hjail : ∀ rtr ∈ sampleSpecs, rtr.jail = Sample.here ∧ rtr.id = "1" := by decide +kernel
  have hlisted : ∀ rtr ∈ sampleSpecs, Fronted.Listed rtr := by decide +kernel
  have hnd : (sampleSpecs.map Router.jail).Nodup := by decide +kernel
  refine @Around.mk JailPf ⟨Fronted.digest⟩ sampleKnown "/var/db" Fronted.listing Fronted.view
    sampleOutside (Fronted.runner_pfJails hjail hlisted) (fun _ _ _ => ⟨fun _ => rfl, fun _ => rfl⟩)
    (fun _ => ⟨fun _ => .inl rfl, fun _ => .inl rfl⟩)
    (fun _ => ⟨fun _ => .inl rfl, fun _ => .inl rfl⟩) ?_
  intro s s' routers desired hfetch hdesired
  obtain ⟨hrouters, -⟩ := Prod.mk.inj hfetch
  obtain rfl := Option.some.inj hrouters
  have hspecs : sampleSpecs = desired := by
    unfold sampleSpecs
    rw [hdesired, Option.getD_some]
  rw [← hspecs]
  exact ⟨fun _ hrtr => hrtr, hnd⟩

theorem sample_apart : @PfApart ⟨Fronted.digest⟩ sampleKnown := by
  have hlen : sampleSpecs.length = 1 := by decide +kernel
  obtain ⟨rtr, hone⟩ := List.length_eq_one_iff.mp hlen
  intro a ha b hb text text' cfgHash hatext hbtext
  have hall : ∀ c ∈ sampleKnown, c = rtr := by
    intro c hc
    have hmem : c ∈ sampleSpecs := hc
    rw [hone] at hmem
    exact List.mem_singleton.mp hmem
  rw [hall a ha] at hatext
  rw [hall b hb] at hbtext
  exact (Prod.mk.inj (Option.some.inj (hatext.symm.trans hbtext))).1

/-- The agent before its first pass on this host. -/
def sampleStart : World (Audit JailPf) := Daemon.fresh {} ∅ { ledger := [], rest := {} }

/-- And after it. -/
def samplePass : Bool × World (Audit JailPf) :=
  @syncIfNeeded _ (audited Fronted.view sampleOutside) ⟨Fronted.digest⟩ "/var/db" false sampleStart

/-- The floating ip is told to be active, and is. -/
theorem active_is_loaded_sample :
    ((ledger samplePass.2).map fun t => decide (("f0", FipStatus.active) ∈ t.statuses)) = [true] ∧
      ∀ t ∈ ledger samplePass.2, ∀ fip, (fip, FipStatus.active) ∈ t.statuses →
        ∃ rtr ∈ sampleKnown, rtr.id = t.routerId ∧ rtr.gateway.isSome = true ∧
          (∃ f ∈ rtr.floatingIps, f.id = fip) ∧
            ∃ text cfgHash, @Router.pfText ⟨Fronted.digest⟩ rtr = some (text, cfgHash) ∧
              t.pf rtr.jail = { loaded := some text, enabled := true } := by
  have hdone : samplePass.1 = true := by decide +kernel
  have hpass : samplePass = (true, samplePass.2) := by rw [← hdone]
  have hstart : @Genuine ⟨Fronted.digest⟩ JailPf sampleKnown Fronted.view
      { disk := ∅, rest := {} } := by
    refine @Genuine.mk ⟨Fronted.digest⟩ JailPf sampleKnown Fronted.view _ (fun j text htext => ?_)
      fun dir text htext => absurd htext (by simp [Disk.file])
    unfold Fronted.view at htext
    split at htext
    · exact absurd htext (by simp)
    · exact absurd htext (by simp)
  refine ⟨by decide +kernel, ?_⟩
  exact @active_is_loaded JailPf ⟨Fronted.digest⟩ sampleKnown "/var/db" Fronted.listing Fronted.view
    sampleOutside sample_around sample_apart ∅ {} hstart samplePass.2 _
    (Daemon.Reached.completed Daemon.Reached.start false hpass)

end L3Agent

end Bsdbridge
