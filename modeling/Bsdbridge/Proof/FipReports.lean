import Bsdbridge.L3Agent.Agent

/-!
# Floating ip reports over runs

The agent reports a router's map when it differs from the one it remembers, and it remembers the
maps of the last pass that completed. So its memory is right about a router as long as every report
since was remembered, and every router forgotten had last been delivered the empty map. `Careful`
is that condition on a pass, and **`reported_of_run`** what follows for every run.

What the server was delivered is part of the world here, router by router: a report that returns
was delivered, and one that raises says whether it was. The agent's memory against that map is
`Agrees`, where a router without an entry counts as one with the empty map, since that is how the
loop compares.

## The two ways out of step

A pass that leaves a router out forgets its map. When the router comes back without its floating
ips its map is empty, as is the memory of it, and nothing is reported: the server keeps the old
map. The other way is a loop that raises after some of its reports were delivered, because the
memory is replaced at the end of a pass only. `Careful` allows a raise at the first report,
undelivered, and for the rest asks the reports of the pass to return.
-/

set_option autoImplicit false

namespace Bsdbridge

namespace L3

/-! ## 1. The report loop

The loop by induction over the maps, once for a router that it does not report and once for a
loop that ends. -/

theorem lastOf_insert {maps : Dict String Statuses} {r r' : String} {m : Statuses} :
    lastOf (maps.insert r m) r' = if r' = r then m else lastOf maps r' := by
  unfold lastOf
  rw [Dict.get?_insert]
  split <;> rfl

section

variable {memory d d' : Dict String Statuses} {report : String → Outcome}
  {l : List (String × Statuses)}

/-- A router that is not reported keeps the map it was delivered. -/
theorem reportFrom_other {b : Bool} {r : String} (h : reportFrom memory report l d = (b, d'))
    (hr : r ∉ l.map Prod.fst) : lastOf d' r = lastOf d r := by
  induction l generalizing d with
  | nil =>
    obtain ⟨-, rfl⟩ := Prod.mk.inj h
    rfl
  | cons e rest ih =>
    obtain ⟨r', m⟩ := e
    rw [List.map_cons, List.mem_cons, not_or] at hr
    have hins : lastOf (d.insert r' m) r = lastOf d r := by
      rw [lastOf_insert, if_neg hr.1]
    unfold reportFrom at h
    split at h
    · exact ih h hr.2
    · split at h
      · exact (ih h hr.2).trans hins
      · obtain ⟨-, rfl⟩ := Prod.mk.inj h
        exact hins
      · obtain ⟨-, rfl⟩ := Prod.mk.inj h
        rfl

/-- A loop that ends has delivered every map that the agent did not remember. -/
theorem reportFrom_completed (hnd : (l.map Prod.fst).Nodup)
    (h : reportFrom memory report l d = (true, d')) {r : String} {m : Statuses}
    (hm : (r, m) ∈ l) : lastOf d' r = if lastOf memory r = m then lastOf d r else m := by
  induction l generalizing d with
  | nil => exact absurd hm List.not_mem_nil
  | cons e rest ih =>
    obtain ⟨r', m'⟩ := e
    rw [List.map_cons, List.nodup_cons] at hnd
    unfold reportFrom at h
    rcases List.mem_cons.mp hm with heq | hrest
    · obtain ⟨rfl, rfl⟩ := Prod.mk.inj heq
      split at h
      · rename_i hsame
        rw [if_pos hsame]
        exact reportFrom_other h hnd.1
      · rename_i hnew
        rw [if_neg hnew]
        split at h
        · rw [reportFrom_other h hnd.1, lastOf_insert, if_pos rfl]
        · exact absurd (Prod.mk.inj h).1 (by simp)
        · exact absurd (Prod.mk.inj h).1 (by simp)
    · have hne : r ≠ r' := by
        intro heq
        subst heq
        exact hnd.1 (List.mem_map.mpr ⟨(r, m), hrest, rfl⟩)
      split at h
      · exact ih hnd.2 h hrest
      · split at h
        · rw [ih hnd.2 h hrest, lastOf_insert, if_neg hne]
        · exact absurd (Prod.mk.inj h).1 (by simp)
        · exact absurd (Prod.mk.inj h).1 (by simp)

/-- The maps to report: those the agent does not remember. -/
def due (memory : Dict String Statuses) (l : List (String × Statuses)) : List (String × Statuses) :=
  l.filter fun e => lastOf memory e.1 ≠ e.2

/-- A loop whose first report raises undelivered has delivered nothing. -/
theorem reportFrom_first {e : String × Statuses} {rest : List (String × Statuses)}
    (hdue : due memory l = e :: rest) (he : report e.1 = .raised false) :
    reportFrom memory report l d = (false, d) := by
  induction l with
  | nil => exact absurd hdue (by simp [due])
  | cons e' rest' ih =>
    obtain ⟨r', m'⟩ := e'
    unfold due at hdue
    unfold reportFrom
    by_cases hsame : lastOf memory r' = m'
    · rw [List.filter_cons_of_neg (by simpa using hsame)] at hdue
      rw [if_pos hsame]
      exact ih hdue
    · rw [List.filter_cons_of_pos (by simpa using hsame)] at hdue
      obtain ⟨rfl, -⟩ := List.cons.inj hdue
      rw [if_neg hsame, he]

/-- A loop whose reports all return ends. -/
theorem reportFrom_returned (h : ∀ e ∈ due memory l, report e.1 = .returned) :
    (reportFrom memory report l d).1 = true := by
  induction l generalizing d with
  | nil => rfl
  | cons e rest ih =>
    obtain ⟨r, m⟩ := e
    unfold due at h
    unfold reportFrom
    by_cases hsame : lastOf memory r = m
    · rw [List.filter_cons_of_neg (by simpa using hsame)] at h
      rw [if_pos hsame]
      exact ih h
    · rw [List.filter_cons_of_pos (by simpa using hsame)] at h
      rw [if_neg hsame, h (r, m) List.mem_cons_self]
      exact ih fun e he => h e (List.mem_cons_of_mem _ he)

end

/-! ## 2. Runs

Only passes that reach their reports are asked anything: one that fails before leaves memory and
server as they are. -/

/-- The pass handles these routers and comes to its reports. -/
def Calls.reaches (calls : Calls) (desired : List Router) : Prop :=
  calls.routers.bind handled = some desired ∧ calls.reconciled = true

/-- The reports of a pass all return, and every router it leaves out has last been delivered the
empty map; or the first one raises undelivered. -/
def Careful (calls : Calls) (w : World) : Prop :=
  ∀ desired, calls.reaches desired →
    let reports := due w.agent.fipStatuses (statusMaps desired).entries
    ((∀ e ∈ reports, calls.report e.1 = .returned) ∧
      ∀ r, r ∉ statusMaps desired → lastOf w.delivered r = ∅) ∨
    ∃ e rest, reports = e :: rest ∧ calls.report e.1 = .raised false

/-- The worlds after any passes of which each is `ok`, from a fresh agent and a server that was
delivered nothing. A cast marks the agent dirty. -/
inductive Reached (ok : Calls → World → Prop) : World → Prop
  | fresh : Reached ok {}
  | cast {w : World} : Reached ok w → Reached ok { w with agent := { w.agent with dirty := true } }
  | pass {w : World} (force : Bool) (calls : Calls) : Reached ok w →
      ((w.agent.dirty || force) = true → ok calls w) → Reached ok (syncIfNeeded force calls w).2

/-- The agent remembers of every router what it was last delivered. -/
def Agrees (w : World) : Prop := ∀ r, lastOf w.agent.fipStatuses r = lastOf w.delivered r

/-- A pass that completes has delivered each router's map. -/
theorem sync_completed {calls : Calls} {w w' : World} (hw : Agrees w)
    (h : sync calls w = (true, w')) : ∃ desired, calls.reaches desired ∧
      w'.agent.fipStatuses = statusMaps desired ∧
      (∀ r m, (r, m) ∈ (statusMaps desired).entries → lastOf w'.delivered r = m) ∧
      ∀ r, r ∉ statusMaps desired → lastOf w'.delivered r = lastOf w.delivered r := by
  unfold sync at h
  cases hd : calls.routers.bind handled with
  | none =>
    rw [hd] at h
    exact absurd (Prod.mk.inj h).1 (by simp)
  | some desired =>
    rw [hd] at h
    dsimp only at h
    split at h
    · exact absurd (Prod.mk.inj h).1 (by simp)
    · rename_i hrec
      split at h
      · rename_i delivered hloop
        obtain ⟨-, rfl⟩ := Prod.mk.inj h
        refine ⟨desired, ⟨hd, by simpa using hrec⟩, rfl, fun r m hm => ?_, fun r hr => ?_⟩
        · rw [reportFrom_completed (statusMaps desired).nodup hloop hm]
          split
          · rename_i hsame
            rw [← hw r]
            exact hsame
          · rfl
        · exact reportFrom_other hloop hr
      · exact absurd (Prod.mk.inj h).1 (by simp)

theorem lastOf_of_mem {maps : Dict String Statuses} {r : String} {m : Statuses}
    (h : (r, m) ∈ maps.entries) : lastOf maps r = m := by
  unfold lastOf
  rw [Dict.get?_eq_some.mpr h]
  rfl

theorem lastOf_of_notMem {maps : Dict String Statuses} {r : String} (h : r ∉ maps) :
    lastOf maps r = ∅ := by
  unfold lastOf
  rw [Dict.get?_eq_none.mpr h]
  rfl

/-- A careful pass keeps the memory right. -/
theorem sync_agrees {calls : Calls} {w : World} (hw : Agrees w) (hok : Careful calls w) :
    Agrees (sync calls w).2 := by
  cases hsync : sync calls w with
  | mk completed w' =>
    cases completed with
    | true =>
      obtain ⟨desired, hreach, hmem, hin, hout⟩ := sync_completed hw hsync
      intro r
      show lastOf w'.agent.fipStatuses r = lastOf w'.delivered r
      rw [hmem]
      by_cases hr : r ∈ statusMaps desired
      · obtain ⟨m, hm⟩ := Dict.mem_iff_entry.mp hr
        rw [hin r m hm, lastOf_of_mem hm]
      · rw [hout r hr, lastOf_of_notMem hr]
        rcases hok desired hreach with ⟨-, habsent⟩ | ⟨e, rest, hdue, he⟩
        · exact (habsent r hr).symm
        · -- such a pass does not complete
          have hloop := reportFrom_first (d := w.delivered) hdue he
          unfold sync at hsync
          rw [hreach.1] at hsync
          dsimp only at hsync
          rw [hreach.2, if_neg (by simp), hloop] at hsync
          exact absurd (Prod.mk.inj hsync).1 (by simp)
    -- a pass that did not complete neither delivered anything nor changed the memory
    | false =>
      have hsame : w'.agent.fipStatuses = w.agent.fipStatuses ∧ w'.delivered = w.delivered := by
        unfold sync at hsync
        cases hd : calls.routers.bind handled with
        | none =>
          rw [hd] at hsync
          obtain ⟨-, rfl⟩ := Prod.mk.inj hsync
          exact ⟨rfl, rfl⟩
        | some desired =>
          rw [hd] at hsync
          dsimp only at hsync
          split at hsync
          · obtain ⟨-, rfl⟩ := Prod.mk.inj hsync
            exact ⟨rfl, rfl⟩
          · rename_i hrec
            rcases hok desired ⟨hd, by simpa using hrec⟩ with ⟨hall, -⟩ | ⟨e, rest, hdue, he⟩
            · have hends := reportFrom_returned (d := w.delivered) hall
              split at hsync
              · exact absurd (Prod.mk.inj hsync).1 (by simp)
              · rename_i hloop
                rw [hloop] at hends
                exact absurd hends (by simp)
            · rw [reportFrom_first hdue he] at hsync
              obtain ⟨-, rfl⟩ := Prod.mk.inj hsync
              exact ⟨rfl, rfl⟩
      intro r
      show lastOf w'.agent.fipStatuses r = lastOf w'.delivered r
      rw [hsame.1, hsame.2]
      exact hw r

theorem Reached.agrees {w : World} (h : Reached Careful w) : Agrees w := by
  induction h with
  | fresh => exact fun _ => rfl
  | cast _ ih => exact ih
  | @pass w force calls _ hok ih =>
    unfold syncIfNeeded
    split
    · rename_i hrun
      exact sync_agrees (w := { w with agent := { w.agent with dirty := false } }) ih (hok hrun)
    · exact ih

/-- **After any careful passes, a pass that completes has delivered to the server the pass's own
map for every router it handled.** -/
theorem reported_of_run {w w' : World} {force : Bool} {calls : Calls} (hw : Reached Careful w)
    (h : syncIfNeeded force calls w = (true, w')) :
    ∃ desired, calls.reaches desired ∧
      ∀ spec ∈ desired, lastOf w'.delivered spec.id = lastOf (statusMaps desired) spec.id := by
  unfold syncIfNeeded at h
  split at h
  · obtain ⟨desired, hreach, -, hin, -⟩ :=
      sync_completed (w := { w with agent := { w.agent with dirty := false } }) hw.agrees h
    refine ⟨desired, hreach, fun spec hspec => ?_⟩
    have hmem : spec.id ∈ statusMaps desired := by
      unfold statusMaps
      rw [Dict.mem_ofList, List.map_map]
      exact List.mem_map.mpr ⟨spec, hspec, rfl⟩
    obtain ⟨m, hm⟩ := Dict.mem_iff_entry.mp hmem
    rw [hin _ _ hm, lastOf_of_mem hm]
  · exact absurd (Prod.mk.inj h).1 (by simp)

/-! ## 3. Two runs

A floating ip that comes and goes is reported both times. The second run has one pass without the
router in between, and its last map stays on the server. -/

/-- A router with some floating ips of one fixed address. -/
def fipRouter (fips : List String) : Rpc.Router where
  id := "r1"
  floatingips := fips.map fun f =>
    { id := f, floatingIpAddress := "203.0.113.50", fixedIpAddress := some "10.0.0.5" }

/-- A pass whose calls all return, over these routers. -/
def answering (routers : List Rpc.Router) : Calls := { routers := some routers }

theorem completed_eq {r : Bool × World} (h : r.1 = true) : r = (true, r.2) := by
  rw [← h]

/-- The world after the forced passes over some lists of routers. -/
def after (passes : List (List Rpc.Router)) : World :=
  passes.foldl (fun w routers => (syncIfNeeded true (answering routers) w).2) {}

/-- A router's floating ip comes, and goes again. -/
theorem reported_of_run_gone :
    ∃ desired, (answering [fipRouter []]).reaches desired ∧
      ∀ spec ∈ desired, lastOf (after [[fipRouter ["f1"]], [fipRouter []]]).delivered spec.id =
        lastOf (statusMaps desired) spec.id := by
  have hreached : Reached Careful (after [[fipRouter ["f1"]]]) := by
    refine .pass true (answering [fipRouter ["f1"]]) .fresh fun _ desired _ => Or.inl ⟨?_, ?_⟩
    · exact fun _ _ => rfl
    · exact fun _ _ => rfl
  exact @reported_of_run _ _ true (answering [fipRouter []]) hreached
    (completed_eq (by decide +kernel))

/-- A router is gone for one pass, and comes back without its floating ip: the server keeps the map
it was delivered before. -/
theorem vanished_map_kept : ¬ ∀ (w w' : World) (force : Bool) (calls : Calls),
    Reached (fun _ _ => True) w → syncIfNeeded force calls w = (true, w') →
    ∃ desired, calls.reaches desired ∧
      ∀ spec ∈ desired, lastOf w'.delivered spec.id = lastOf (statusMaps desired) spec.id := by
  intro hall
  have hreached : Reached (fun _ _ => True) (after [[fipRouter ["f1"]], []]) :=
    .pass true (answering []) (.pass true (answering [fipRouter ["f1"]]) .fresh fun _ => trivial)
      fun _ => trivial
  obtain ⟨desired, ⟨hdesired, -⟩, hmap⟩ := hall _ _ true (answering [fipRouter []]) hreached
    (completed_eq (by decide +kernel))
  have hspec : ((answering [fipRouter []]).routers.bind handled).map (fun desired =>
      (desired.map Router.id, lastOf (statusMaps desired) "r1")) = some (["r1"], ∅) := by
    decide +kernel
  rw [hdesired] at hspec
  obtain ⟨hids, hempty⟩ := Prod.mk.inj (Option.some.inj hspec)
  have hmem : "r1" ∈ desired.map Router.id := by
    rw [hids]
    exact List.mem_singleton_self _
  obtain ⟨spec, hin, hid⟩ := List.mem_map.mp hmem
  have hkept := hmap spec hin
  rw [hid, hempty] at hkept
  have hf1 : lastOf (after [[fipRouter ["f1"]], [], [fipRouter []]]).delivered "r1" ≠ ∅ := by
    decide +kernel
  exact hf1 hkept

end L3

end Bsdbridge
