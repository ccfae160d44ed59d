import Bsdbridge.L2Agent.Agent
import Bsdbridge.Lib.Run

/-!
# Reading a details reply

What the reply loop does to one device: it is resolved if an entry is bound to it, it is pending if
one of its misses stays under the limit, and a miss at the limit makes the agent forget it. The
misses of other devices do not matter, so every fact here is about one name.

The loop of `_sync` goes over two lists, the devices with details and the failed ones, and treats a
failed device as one more entry without details. `entries` puts them in that order into one list,
and everything after is a fold over it. A reply may mention a device any number of times and
devices that nobody asked about: the lemmas about one entry and about the loop hold of all of
those. `Answers` is the server's contract, each queried device exactly once, and only the last
section uses it.

Nothing here is about a pass: the events of a pass, and what a callback does between two of them,
are in `Proof/Sync`, and what a device's fate means to the candidates in `Proof/Announce`.
-/

set_option autoImplicit false

namespace Bsdbridge

/-! ## 1. What a reply says

`Retries` has a second disjunct for a reply that misses a device twice: the first miss drops it
at the limit and deletes its count, the second begins a new one. -/

/-- The device an entry resolves. -/
def Entry.resolves : Entry → Option String
  | .bound d => some d.portId
  | .unbound _ => none

/-- The device an entry misses. -/
def Entry.misses : Entry → Option String
  | .bound _ => none
  | .unbound device => device

/-- The device an entry is about. -/
def Entry.device : Entry → Option String
  | .bound d => some d.portId
  | .unbound device => device

theorem Entry.device_eq_some {e : Entry} {p : String} :
    e.device = some p ↔ e.resolves = some p ∨ e.misses = some p := by
  cases e <;> simp [Entry.device, Entry.resolves, Entry.misses]

namespace Reply

/-- A reply in the order it is read: a failed device is one more entry without details. -/
def entries (r : Reply) : List Entry :=
  r.devices ++ r.failedDevices.map fun d => .unbound (some d)

/-- The devices a reply resolves. -/
def resolved (r : Reply) : List String := r.entries.filterMap Entry.resolves

/-- The devices a reply misses. -/
def missed (r : Reply) : List String := r.entries.filterMap Entry.misses

/-- The devices of a reply, in the order it is read. -/
theorem devices_perm (r : Reply) :
    (r.entries.filterMap Entry.device).Perm (r.resolved ++ r.missed) := by
  unfold resolved missed
  induction r.entries with
  | nil => exact .refl _
  | cons e rest ih =>
    cases e with
    | bound d => exact ih.cons d.portId
    | unbound device =>
      cases device with
      | none => exact ih
      | some d => exact (ih.cons d).trans List.perm_middle.symm

/-- Every queried device is mentioned exactly once. -/
def Answers (r : Reply) (devices : List String) : Prop :=
  (r.resolved ++ r.missed).Perm devices

end Reply

namespace Agent

/-- `misses.get(device, 0)`. -/
def missCount (a : Agent) (p : String) : Nat := (a.misses.get? p).getD 0

/-- Misses leave a device pending. With a count below the limit the first one does; a device
that is missed again after it was dropped starts over at one. -/
def Retries (a : Agent) (missed : List String) (p : String) : Prop :=
  (p ∈ missed ∧ a.missCount p + 1 < BINDING_MISS_LIMIT) ∨ 2 ≤ missed.count p

end Agent

theorem receive_eq {a : Agent} {r : Reply} :
    a.receive r = r.entries.foldl Intake.entry { agent := a } := by
  unfold Agent.receive Reply.entries
  rw [List.foldl_append, List.foldl_map]
  rfl

namespace Intake

variable {st : Intake} {p d : String} {es : List Entry}

/-! ## 2. One entry

A bound entry, a miss under the limit, a miss at it, and an entry about something else. The last
is most of the work saved: it leaves the device exactly as it was. -/

theorem miss_eq : st.miss d =
    if BINDING_MISS_LIMIT ≤ st.agent.missCount d + 1 then
      { st with agent := { st.agent with
          candidates := st.agent.candidates.erase d
          misses := st.agent.misses.erase d } }
    else
      { st with
        agent := { st.agent with misses := st.agent.misses.insert d (st.agent.missCount d + 1) }
        pending := insert d st.pending } := rfl

/-- A miss of another device. -/
theorem miss_other (h : p ≠ d) :
    (p ∈ (st.miss d).agent.candidates ↔ p ∈ st.agent.candidates) ∧
    (st.miss d).agent.misses.get? p = st.agent.misses.get? p ∧
    (p ∈ (st.miss d).pending ↔ p ∈ st.pending) := by
  rw [miss_eq]
  split
  · simp [h]
  · simp [h]

/-- A miss under the limit. -/
theorem miss_under (h : st.agent.missCount p + 1 < BINDING_MISS_LIMIT) :
    (st.miss p).agent.candidates = st.agent.candidates ∧ p ∈ (st.miss p).pending := by
  rw [miss_eq, if_neg (Nat.not_le.mpr h)]
  simp

/-- A miss at the limit. -/
theorem miss_limit (h : BINDING_MISS_LIMIT ≤ st.agent.missCount p + 1) :
    (st.miss p).agent.candidates = st.agent.candidates.erase p ∧
    (st.miss p).agent.misses.get? p = none ∧ (st.miss p).pending = st.pending := by
  rw [miss_eq, if_pos h]
  simp

/-- An entry that neither resolves nor misses a device. -/
theorem entry_other {e : Entry} (hr : e.resolves ≠ some p) (hm : e.misses ≠ some p) :
    (p ∈ (st.entry e).agent.candidates ↔ p ∈ st.agent.candidates) ∧
    (st.entry e).agent.misses.get? p = st.agent.misses.get? p ∧
    (p ∈ (st.entry e).pending ↔ p ∈ st.pending) := by
  cases e with
  | bound d =>
    have hne : p ≠ d.portId := fun h => hr (by rw [Entry.resolves, h])
    exact ⟨Iff.rfl, by simp [entry, hne], Iff.rfl⟩
  | unbound device =>
    cases device with
    | none => exact ⟨Iff.rfl, rfl, Iff.rfl⟩
    | some d => exact miss_other fun h => hm (by rw [Entry.misses, h])

/-- No entry adds a candidate. -/
theorem entry_candidates {e : Entry} (h : p ∈ (st.entry e).agent.candidates) :
    p ∈ st.agent.candidates := by
  cases e with
  | bound d => exact h
  | unbound device =>
    cases device with
    | none => exact h
    | some d =>
      rw [entry, miss_eq] at h
      split at h
      · exact Finset.mem_of_mem_erase h
      · exact h

theorem entry_pending {e : Entry} (h : p ∈ st.pending) : p ∈ (st.entry e).pending := by
  cases e with
  | bound d => exact h
  | unbound device =>
    cases device with
    | none => exact h
    | some d =>
      rw [entry, miss_eq]
      split
      · exact h
      · exact Finset.mem_insert_of_mem h

/-- A count is new only where the device is pending. -/
theorem entry_misses {e : Entry} (h : p ∈ (st.entry e).agent.misses) :
    p ∈ st.agent.misses ∨ p ∈ (st.entry e).pending := by
  cases e with
  | bound d => exact Or.inl (Dict.mem_erase.mp h).2
  | unbound device =>
    cases device with
    | none => exact Or.inl h
    | some d =>
      rw [entry, miss_eq] at h ⊢
      split at h
      · exact Or.inl (Dict.mem_erase.mp h).2
      · rename_i hlim
        rw [if_neg hlim]
        rcases Dict.mem_insert.mp h with rfl | h
        · exact Or.inr (Finset.mem_insert_self _ _)
        · exact Or.inl h

theorem entry_dirty {e : Entry} : (st.entry e).agent.dirty = st.agent.dirty := by
  cases e with
  | bound d => rfl
  | unbound device =>
    cases device with
    | none => rfl
    | some d =>
      rw [entry, miss_eq]
      split <;> rfl

theorem entry_devicesUp {e : Entry} :
    (st.entry e).agent.devicesUp = st.agent.devicesUp := by
  cases e with
  | bound d => rfl
  | unbound device =>
    cases device with
    | none => rfl
    | some d =>
      rw [entry, miss_eq]
      split <;> rfl

/-! ## 3. The loop

By induction over the entries, one device at a time. -/

theorem foldl_details :
    (es.foldl entry st).details.map (·.portId) =
      st.details.map (·.portId) ++ es.filterMap Entry.resolves := by
  induction es generalizing st with
  | nil => simp
  | cons e rest ih =>
    rw [List.foldl_cons, ih]
    cases e with
    | bound d => simp [entry, Entry.resolves]
    | unbound device =>
      cases device with
      | none => rfl
      | some d =>
        rw [entry, miss_eq]
        split <;> rfl

/-- The misses of a device that no entry resolves leave it pending as `Retries` says. -/
theorem foldl_pending (hr : p ∉ es.filterMap Entry.resolves) :
    p ∈ (es.foldl entry st).pending ↔
      p ∈ st.pending ∨ st.agent.Retries (es.filterMap Entry.misses) p := by
  -- on the entries of the reply; the count of the misses is carried in the state
  induction es generalizing st with
  | nil => simp [Agent.Retries]
  | cons e rest ih =>
    have hrest : p ∉ rest.filterMap Entry.resolves := fun h =>
      hr (by
        obtain ⟨x, hx, hxp⟩ := List.mem_filterMap.mp h
        exact List.mem_filterMap.mpr ⟨x, List.mem_cons_of_mem _ hx, hxp⟩)
    have he : e.resolves ≠ some p := fun h =>
      hr (List.mem_filterMap.mpr ⟨e, List.mem_cons_self, h⟩)
    rw [List.foldl_cons, ih hrest]
    by_cases hm : e.misses = some p
    · obtain rfl : e = .unbound (some p) := by
        cases e with
        | bound d => exact absurd hm (by simp [Entry.misses])
        | unbound device => rw [← hm]; rfl
      have hcons : (Entry.unbound (some p) :: rest).filterMap Entry.misses =
          p :: rest.filterMap Entry.misses := rfl
      rw [hcons]
      unfold Agent.Retries
      by_cases hlim : st.agent.missCount p + 1 < BINDING_MISS_LIMIT
      · exact iff_of_true (Or.inl (miss_under hlim).2)
          (Or.inr (Or.inl ⟨List.mem_cons_self, hlim⟩))
      · -- the device is dropped, and its next miss counts from zero
        obtain ⟨-, hnone, hsame⟩ := @miss_limit st p (Nat.not_lt.mp hlim)
        have hzero : (st.miss p).agent.missCount p = 0 := by rw [Agent.missCount, hnone]; rfl
        have hone : 0 + 1 < BINDING_MISS_LIMIT := by decide
        rw [entry, hsame, hzero, List.count_cons_self, ← List.count_pos_iff]
        simp only [hlim, hone, and_true, and_false, false_or]
        refine or_congr_right ?_
        omega
    · obtain ⟨-, hget, hpend⟩ := @entry_other st p _ he hm
      have hcount : (st.entry e).agent.missCount p = st.agent.missCount p := by
        rw [Agent.missCount, hget, Agent.missCount]
      have hlist : p ∈ (e :: rest).filterMap Entry.misses ↔ p ∈ rest.filterMap Entry.misses := by
        simp [hm]
      have hcnt : ((e :: rest).filterMap Entry.misses).count p =
          (rest.filterMap Entry.misses).count p := by
        cases hme : e.misses with
        | none => rw [List.filterMap_cons_none hme]
        | some d =>
          rw [List.filterMap_cons_some hme, List.count_cons_of_ne]
          rintro rfl
          exact hm hme
      unfold Agent.Retries
      rw [hpend, hcount, hlist, hcnt]

/-- Entries about other devices. -/
theorem foldl_other (h : p ∉ es.filterMap Entry.device) :
    (p ∈ (es.foldl entry st).agent.candidates ↔ p ∈ st.agent.candidates) ∧
    (es.foldl entry st).agent.misses.get? p = st.agent.misses.get? p ∧
    (p ∈ (es.foldl entry st).pending ↔ p ∈ st.pending) := by
  refine foldl_keeps (fun t : Intake => (p ∈ t.agent.candidates ↔ p ∈ st.agent.candidates) ∧
    t.agent.misses.get? p = st.agent.misses.get? p ∧ (p ∈ t.pending ↔ p ∈ st.pending))
    ⟨Iff.rfl, rfl, Iff.rfl⟩ fun e he t ht => ?_
  have hdev : e.device ≠ some p := fun heq => h (List.mem_filterMap.mpr ⟨e, he, heq⟩)
  rw [ne_eq, Entry.device_eq_some, not_or] at hdev
  obtain ⟨hcand, hget, hpend⟩ := @entry_other t p e hdev.1 hdev.2
  exact ⟨hcand.trans ht.1, hget.trans ht.2.1, hpend.trans ht.2.2⟩

theorem foldl_candidates (h : p ∈ (es.foldl entry st).agent.candidates) :
    p ∈ st.agent.candidates := by
  induction es generalizing st with
  | nil => exact h
  | cons e rest ih => exact entry_candidates (ih h)

theorem foldl_pending_mono (h : p ∈ st.pending) : p ∈ (es.foldl entry st).pending :=
  foldl_keeps (fun t : Intake => p ∈ t.pending) h fun _ _ _ ht => entry_pending ht

theorem foldl_misses (h : p ∈ (es.foldl entry st).agent.misses) :
    p ∈ st.agent.misses ∨ p ∈ (es.foldl entry st).pending := by
  induction es generalizing st with
  | nil => exact Or.inl h
  | cons e rest ih =>
    rw [List.foldl_cons] at h ⊢
    rcases ih h with h | h
    · exact (entry_misses h).imp_right fun h => foldl_pending_mono h
    · exact Or.inr h

theorem foldl_dirty : (es.foldl entry st).agent.dirty = st.agent.dirty :=
  foldl_keeps (fun t : Intake => t.agent.dirty = st.agent.dirty) rfl fun _ _ _ ht =>
    entry_dirty.trans ht

theorem foldl_devicesUp : (es.foldl entry st).agent.devicesUp = st.agent.devicesUp :=
  foldl_keeps (fun t : Intake => t.agent.devicesUp = st.agent.devicesUp) rfl fun _ _ _ ht =>
    entry_devicesUp.trans ht

end Intake

/-! ## 4. A reply

The facts of the loop again, for `receive`, and the three cases of a reply that answers its
query. -/

section

variable {a : Agent} {r : Reply} {p : String}

theorem receive_resolved : (a.receive r).details.map (·.portId) = r.resolved := by
  rw [receive_eq, Intake.foldl_details]
  rfl

theorem receive_pending (hr : p ∉ r.resolved) :
    p ∈ (a.receive r).pending ↔ a.Retries r.missed p := by
  rw [receive_eq, Intake.foldl_pending hr]
  simp [Reply.missed]

theorem receive_candidates (h : p ∈ (a.receive r).agent.candidates) : p ∈ a.candidates := by
  rw [receive_eq] at h
  exact Intake.foldl_candidates h

theorem receive_misses (h : p ∈ (a.receive r).agent.misses) :
    p ∈ a.misses ∨ p ∈ (a.receive r).pending := by
  rw [receive_eq] at h ⊢
  exact Intake.foldl_misses h

theorem receive_dirty : (a.receive r).agent.dirty = a.dirty := by
  rw [receive_eq, Intake.foldl_dirty]

theorem receive_devicesUp : (a.receive r).agent.devicesUp = a.devicesUp := by
  rw [receive_eq, Intake.foldl_devicesUp]

variable {devices : List String}

/-- A reply that answers the query mentions a device once if it was asked for, and else not. -/
theorem Reply.Answers.cases (h : r.Answers devices) (hnd : devices.Nodup) :
    (p ∈ devices ↔ p ∈ r.resolved ∨ p ∈ r.missed) ∧ ¬ (p ∈ r.resolved ∧ p ∈ r.missed) ∧
      r.missed.count p ≤ 1 := by
  have hnd' : (r.resolved ++ r.missed).Nodup := h.nodup_iff.mpr hnd
  obtain ⟨-, hmiss, hdis⟩ := List.nodup_append.mp hnd'
  refine ⟨?_, fun hboth => hdis p hboth.1 p hboth.2 rfl, List.nodup_iff_count_le_one.mp hmiss p⟩
  rw [← h.mem_iff, List.mem_append]

variable (a) in
/-- What one device of a reply comes to is what its one entry makes of it. -/
theorem receive_one (h : r.Answers devices) (hnd : devices.Nodup) {e : Entry} (he : e ∈ r.entries)
    (hp : e.device = some p) : ∃ st : Intake,
      (p ∈ st.agent.candidates ↔ p ∈ a.candidates) ∧
      st.agent.misses.get? p = a.misses.get? p ∧ p ∉ st.pending ∧
      (p ∈ (a.receive r).agent.candidates ↔ p ∈ (st.entry e).agent.candidates) ∧
      (a.receive r).agent.misses.get? p = (st.entry e).agent.misses.get? p ∧
      (p ∈ (a.receive r).pending ↔ p ∈ (st.entry e).pending) := by
  obtain ⟨l₁, l₂, hsplit⟩ := List.append_of_mem he
  have hone : (r.entries.filterMap Entry.device).Nodup :=
    ((r.devices_perm.trans h).nodup_iff).mpr hnd
  rw [hsplit, List.filterMap_append, List.filterMap_cons_some hp] at hone
  obtain ⟨-, hmid, hdis⟩ := List.nodup_append.mp hone
  have h₁ : p ∉ l₁.filterMap Entry.device := fun hin => hdis p hin p List.mem_cons_self rfl
  have h₂ : p ∉ l₂.filterMap Entry.device := (List.nodup_cons.mp hmid).1
  obtain ⟨hc₁, hg₁, hp₁⟩ := @Intake.foldl_other { agent := a } p l₁ h₁
  refine ⟨l₁.foldl Intake.entry { agent := a }, hc₁, hg₁, by rw [hp₁]; simp, ?_⟩
  rw [receive_eq, hsplit, List.foldl_append, List.foldl_cons]
  exact Intake.foldl_other h₂

/-- A device that was not asked about. -/
theorem receive_unasked (h : r.Answers devices) (hp : p ∉ devices) :
    (p ∈ (a.receive r).agent.candidates ↔ p ∈ a.candidates) ∧
    (a.receive r).agent.misses.get? p = a.misses.get? p ∧ p ∉ (a.receive r).pending := by
  have hno : p ∉ r.entries.filterMap Entry.device := by
    rwa [(r.devices_perm.trans h).mem_iff]
  rw [receive_eq]
  obtain ⟨hcand, hget, hpend⟩ := @Intake.foldl_other { agent := a } p r.entries hno
  exact ⟨hcand, hget, by rw [hpend]; simp⟩

/-- A device that is resolved. -/
theorem receive_resolves (h : r.Answers devices) (hnd : devices.Nodup) (hp : p ∈ r.resolved) :
    (p ∈ (a.receive r).agent.candidates ↔ p ∈ a.candidates) ∧
    (a.receive r).agent.misses.get? p = none ∧ p ∉ (a.receive r).pending := by
  obtain ⟨e, he, hres⟩ := List.mem_filterMap.mp hp
  obtain ⟨st, hcand, -, hpend, hc, hg, hpe⟩ :=
    receive_one a h hnd he (Entry.device_eq_some.mpr (.inl hres))
  cases e with
  | unbound device => cases hres
  | bound d =>
    obtain rfl := Option.some.inj hres
    refine ⟨hc.trans hcand, hg.trans ?_, fun hin => hpend (hpe.mp hin)⟩
    show (st.agent.misses.erase d.portId).get? d.portId = none
    rw [Dict.get?_erase, if_pos rfl]

/-- A device that is missed under its limit. -/
theorem receive_miss_under (h : r.Answers devices) (hnd : devices.Nodup) (hp : p ∈ r.missed)
    (hlim : a.missCount p + 1 < BINDING_MISS_LIMIT) :
    (p ∈ (a.receive r).agent.candidates ↔ p ∈ a.candidates) ∧
    (a.receive r).agent.misses.get? p = some (a.missCount p + 1) ∧ p ∈ (a.receive r).pending := by
  obtain ⟨e, he, hmiss⟩ := List.mem_filterMap.mp hp
  obtain ⟨st, hcand, hget, -, hc, hg, hpe⟩ :=
    receive_one a h hnd he (Entry.device_eq_some.mpr (.inr hmiss))
  cases e with
  | bound d => cases hmiss
  | unbound device =>
    obtain rfl : device = some p := hmiss
    have hcount : st.agent.missCount p = a.missCount p := by
      rw [Agent.missCount, hget, Agent.missCount]
    have hunder := Nat.not_le.mpr (hcount ▸ hlim)
    rw [Intake.entry, Intake.miss_eq, if_neg hunder] at hc hg hpe
    exact ⟨hc.trans hcand, hg.trans (by rw [hcount]; simp), hpe.mpr (Finset.mem_insert_self p _)⟩

/-- A device that is missed at its limit. -/
theorem receive_miss_limit (h : r.Answers devices) (hnd : devices.Nodup) (hp : p ∈ r.missed)
    (hlim : BINDING_MISS_LIMIT ≤ a.missCount p + 1) :
    p ∉ (a.receive r).agent.candidates ∧ (a.receive r).agent.misses.get? p = none ∧
      p ∉ (a.receive r).pending := by
  obtain ⟨e, he, hmiss⟩ := List.mem_filterMap.mp hp
  obtain ⟨st, -, hget, hpend, hc, hg, hpe⟩ :=
    receive_one a h hnd he (Entry.device_eq_some.mpr (.inr hmiss))
  cases e with
  | bound d => cases hmiss
  | unbound device =>
    obtain rfl : device = some p := hmiss
    have hcount : st.agent.missCount p = a.missCount p := by
      rw [Agent.missCount, hget, Agent.missCount]
    rw [Intake.entry] at hc hg hpe
    obtain ⟨hcand, hnone, hsame⟩ := @Intake.miss_limit st p (hcount ▸ hlim)
    refine ⟨fun hin => ?_, hg.trans hnone, fun hin => hpend (hsame ▸ hpe.mp hin)⟩
    exact Finset.notMem_erase p _ (hcand ▸ hc.mp hin)

/-- A candidate stays one, or the reply misses it at its limit. -/
theorem receive_keeps (h : r.Answers devices) (hnd : devices.Nodup) (hp : p ∈ a.candidates)
    (hgone : p ∉ (a.receive r).agent.candidates) :
    p ∈ devices ∧ p ∉ r.resolved ∧ p ∉ (a.receive r).pending := by
  obtain ⟨hdev, hboth, -⟩ := h.cases hnd (p := p)
  by_cases hin : p ∈ devices
  · rcases hdev.mp hin with hres | hmiss
    · exact absurd ((receive_resolves h hnd hres).1.mpr hp) hgone
    · by_cases hlim : a.missCount p + 1 < BINDING_MISS_LIMIT
      · exact absurd ((receive_miss_under h hnd hmiss hlim).1.mpr hp) hgone
      · exact ⟨hin, fun hres => hboth ⟨hres, hmiss⟩,
          (receive_miss_limit h hnd hmiss (Nat.not_lt.mp hlim)).2.2⟩
  · exact absurd ((receive_unasked h hin).1.mpr hp) hgone

/-- Where the server answers the query, a device is neither resolved nor pending exactly when it
is missed at its limit. -/
theorem receive_lost (h : r.Answers devices) (hnd : devices.Nodup) :
    (p ∈ devices ∧ p ∉ r.resolved ∧ p ∉ (a.receive r).pending) ↔
      p ∈ r.missed ∧ BINDING_MISS_LIMIT ≤ a.missCount p + 1 := by
  obtain ⟨hdev, hboth, hcount⟩ := h.cases hnd (p := p)
  constructor
  · rintro ⟨hin, hr, hpend⟩
    have hm : p ∈ r.missed := (hdev.mp hin).resolve_left hr
    refine ⟨hm, Nat.not_lt.mp fun hlt => hpend ?_⟩
    exact (receive_pending hr).mpr (Or.inl ⟨hm, hlt⟩)
  · rintro ⟨hm, hlim⟩
    have hr : p ∉ r.resolved := fun hr => hboth ⟨hr, hm⟩
    refine ⟨hdev.mpr (Or.inr hm), hr, fun hpend => ?_⟩
    rcases (receive_pending hr).mp hpend with ⟨-, hlt⟩ | htwo
    · omega
    · omega

end

end Bsdbridge
