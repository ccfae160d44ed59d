import Bsdbridge.Proof.Sync

/-!
# Announcements and deletes during a pass

A pass ends by rebuilding the candidates from what it resolved, what is pending, and what it never
asked about. An announcement that arrives while it runs survives that, wherever it arrives, unless
the server's reply of the same pass misses the device at its limit: the device was asked about, so
it counts as seen, and it is neither resolved nor pending (**`announced_kept_iff`**). A delete that
arrives while the pass runs is undone by the same rebuild whenever the reply resolved the device or
left it pending (**`deleted_gone_iff`**).

Callbacks arrive where the pass yields, which is at its RPC calls, so a pass is a list of events
and a callback stands anywhere among them. Both proofs follow one device through such a list:
`Kept` and `Dropped` say at each point of the pass what is already settled about it, and the
rebuild (`mem_finish`) is the only step where anything is decided. The two conditions look at the
reply only, and at the count of misses before it.

## What the hypotheses leave out

An announcement followed by a delete of the same port, and the other way round: there the last
callback is the one that says what should hold. For announcements the server mentions every queried
device once, as its contract says; for deletes no service interface describes the device, because a
scan would find it again and rightly so. An aborted pass is in neither: it has no rebuild, and the
callbacks alone say what the agent tracks.
-/

set_option autoImplicit false

namespace Bsdbridge

/-- A callback that announces a port. -/
def Event.Announces (p : String) (e : Event) : Prop :=
  p ≠ "" ∧ (e = .callback (.portUpdate (some p)) ∨ e = .callback (.bindingActivate (some p)))

/-- A callback that deletes a port. -/
def Event.Deletes (p : String) (e : Event) : Prop :=
  p ≠ "" ∧ e = .callback (.portDelete (some p))

namespace Agent

variable {a : Agent} {p : String} {id : Option String} {c : Callback}

theorem mem_track : p ∈ (a.track id).candidates ↔ p ∈ a.candidates ∨ truthy id = some p := by
  unfold track
  cases truthy id with
  | none => simp
  | some q => simp [or_comm, eq_comm]

theorem mem_portDelete :
    p ∈ (a.portDelete id).candidates ↔ p ∈ a.candidates ∧ truthy id ≠ some p := by
  unfold portDelete
  cases truthy id with
  | none => simp
  | some q => simp [and_comm, eq_comm]

theorem misses_portDelete :
    p ∈ (a.portDelete id).misses ↔ p ∈ a.misses ∧ truthy id ≠ some p := by
  unfold portDelete
  cases truthy id with
  | none => simp
  | some q => simp [and_comm, eq_comm]

theorem portDelete_dirty : (a.portDelete id).dirty = true := by
  unfold portDelete
  cases truthy id <;> rfl

theorem callback_dirty : (a.callback c).dirty = true := by
  cases c with
  | portDelete id => exact portDelete_dirty
  | _ => rfl

/-- A callback that does not delete a port leaves it a candidate. -/
theorem callback_keeps (hc : ¬ (Event.callback c).Deletes p) (h : p ∈ a.candidates) :
    p ∈ (a.callback c).candidates := by
  cases c with
  | portUpdate id => exact mem_track.mpr (Or.inl h)
  | bindingActivate id => exact mem_track.mpr (Or.inl h)
  | notify => exact h
  | portDelete id =>
    refine mem_portDelete.mpr ⟨h, fun hid => hc ?_⟩
    obtain ⟨rfl, hne⟩ := truthy_eq_some.mp hid
    exact ⟨hne, rfl⟩

/-- A callback that does not announce a port makes it neither a candidate nor a miss. -/
theorem callback_brings (hc : ¬ (Event.callback c).Announces p) :
    (p ∈ (a.callback c).candidates → p ∈ a.candidates) ∧
      (p ∈ (a.callback c).misses → p ∈ a.misses) := by
  cases c with
  | notify => exact ⟨id, id⟩
  | portDelete id => exact ⟨fun h => (mem_portDelete.mp h).1, fun h => (misses_portDelete.mp h).1⟩
  | portUpdate id =>
    refine ⟨fun h => (mem_track.mp h).resolve_right fun hid => hc ?_, fun h => h⟩
    obtain ⟨rfl, hne⟩ := truthy_eq_some.mp hid
    exact ⟨hne, Or.inl rfl⟩
  | bindingActivate id =>
    refine ⟨fun h => (mem_track.mp h).resolve_right fun hid => hc ?_, fun h => h⟩
    obtain ⟨rfl, hne⟩ := truthy_eq_some.mp hid
    exact ⟨hne, Or.inr rfl⟩

theorem callback_announces {e : Event} (he : e.Announces p) :
    ∃ c, e = .callback c ∧ ∀ a : Agent, p ∈ (a.callback c).candidates := by
  obtain ⟨hne, rfl | rfl⟩ := he
  · exact ⟨_, rfl, fun a => mem_track.mpr (Or.inr (truthy_eq_some.mpr ⟨rfl, hne⟩))⟩
  · exact ⟨_, rfl, fun a => mem_track.mpr (Or.inr (truthy_eq_some.mpr ⟨rfl, hne⟩))⟩

theorem callback_deletes {e : Event} (he : e.Deletes p) :
    ∃ c, e = .callback c ∧ ∀ a : Agent, p ∉ (a.callback c).candidates ∧
      p ∉ (a.callback c).misses := by
  obtain ⟨hne, rfl⟩ := he
  have ht : truthy (some p) = some p := truthy_eq_some.mpr ⟨rfl, hne⟩
  exact ⟨_, rfl, fun a => ⟨fun h => (mem_portDelete.mp h).2 ht,
    fun h => (misses_portDelete.mp h).2 ht⟩⟩

end Agent

namespace Sync

/-! ## 1. The rebuild

`self._candidates` after a pass, in terms of the one name: a device that the pass asked about and
lost is dropped, one that it holds is put back, and anything else is as the callbacks left it. -/

/-- A device the pass asked about and neither resolved nor left pending. -/
def Lost (p : String) (w : Work) : Prop :=
  p ∈ w.devices ∧ p ∉ w.ourDevices ∧ p ∉ w.pending

/-- A device the pass resolved or left pending. -/
def Held (p : String) (w : Work) : Prop := p ∈ w.ourDevices ∨ p ∈ w.pending

variable {a : Agent} {w : Work} {up : Finset String} {p : String}

theorem mem_finish (hup : ∀ d ∈ up, d ∈ w.ourDevices) :
    p ∈ (finish a w up).candidates ↔ Held p w ∨ (p ∈ a.candidates ∧ p ∉ w.devices) := by
  unfold finish Held
  simp only [Finset.mem_union, Finset.mem_inter, Finset.mem_sdiff, List.mem_toFinset]
  constructor
  · rintro (((h | ⟨-, h⟩) | h) | h)
    · exact Or.inl (Or.inl h)
    · exact Or.inl (Or.inl (hup p h))
    · exact Or.inl (Or.inr h)
    · exact Or.inr h
  · rintro ((h | h) | h)
    · exact Or.inl (Or.inl (Or.inl h))
    · exact Or.inl (Or.inr h)
    · exact Or.inr h

theorem finish_dirty (h : a.dirty = true) : (finish a w up).dirty = true := by
  unfold finish
  simp [h]

/-! ## 2. After an announcement

The invariant has three cases for three kinds of point in the pass: aborted, done, and under way,
where the device may be gone from the candidates only once the reply has lost it. -/

/-- After an announcement of `p`: it stays a candidate, unless the reply lost it. -/
def Kept (p : String) (s : State) : Prop :=
  match s.pc with
  | .aborted => True
  | .done w => s.agent.dirty = true ∧ (p ∈ s.agent.candidates ↔ ¬ Lost p w)
  | pc => s.agent.dirty = true ∧ (p ∈ s.agent.candidates ∨ ∃ w, pc.work = some w ∧ Lost p w)

theorem kept_live {pc : Pc} (h : pc.live) :
    Kept p ⟨a, pc⟩ ↔ a.dirty = true ∧
      (p ∈ a.candidates ∨ ∃ w, pc.work = some w ∧ Lost p w) := by
  cases pc with
  | done w => exact h.elim
  | aborted => exact h.elim
  | _ => exact Iff.rfl

theorem Opened.live {w : Work} {pc : Pc} (h : Opened w pc) : pc.live := by
  cases h <;> trivial

theorem Opened.work {w : Work} {pc : Pc} (h : Opened w pc) : pc.work = some w := by
  cases h <;> rfl

/-- The rebuild, from a state in which `p` is kept. -/
theorem kept_finish (hup : ∀ d ∈ up, d ∈ w.ourDevices) (hd : a.dirty = true)
    (h : p ∈ a.candidates ∨ Lost p w) : Kept p ⟨finish a w up, .done w⟩ := by
  refine ⟨finish_dirty hd, (mem_finish hup).trans ?_⟩
  unfold Lost at h ⊢
  unfold Held
  tauto

theorem Moved.kept {s s' : State} {e : Event} (h : Moved s e s') (hsound : Sound s)
    (hdel : ¬ e.Deletes p)
    (hans : ∀ reply devices, e = .details reply → s.pc = .fetching devices →
      reply.Answers devices) (hk : Kept p s) : Kept p s' := by
  obtain ⟨a, pc⟩ := s
  cases h with
  | called c hl =>
    obtain ⟨-, hk⟩ := (kept_live hl).mp hk
    exact (kept_live hl).mpr ⟨Agent.callback_dirty, hk.imp_left (Agent.callback_keeps hdel)⟩
  | ended hl he => trivial
  | unbuilt hpc => trivial
  | refused hpc => trivial
  -- before the reply there are no locals to hold it, so the candidates must
  | asked hpc hnd hmem =>
    dsimp only at hpc
    subst hpc
    refine (kept_live (by trivial)).mpr ⟨hk.1, Or.inl (Finset.mem_union_left _ ?_)⟩
    exact hk.2.resolve_right (by simp [Pc.work])
  | idle hpc hempty hop =>
    dsimp only at hpc
    subst hpc
    refine (kept_live hop.live).mpr ⟨hk.1, Or.inl (Finset.mem_union_left _ ?_)⟩
    exact hk.2.resolve_right (by simp [Pc.work])
  | @answered devices reply pc hpc hop =>
    dsimp only at hpc
    subst hpc
    have hnd : devices.Nodup := hsound
    have hp := hk.2.resolve_right (by simp [Pc.work])
    refine (kept_live hop.live).mpr ⟨receive_dirty.trans hk.1, ?_⟩
    by_cases hin : p ∈ (a.receive reply).agent.candidates
    · exact Or.inl hin
    · -- dropped from the candidates by the reply, but then the locals have it, and the rebuild
      obtain ⟨hdev, hres, hpend⟩ := receive_keeps (hans reply devices rfl rfl) hnd hp hin
      refine Or.inr ⟨_, hop.work, hdev, ?_, hpend⟩
      rwa [Work.ourDevices, receive_resolved]
  | grouped info hpc hop =>
    dsimp only at hpc
    subst hpc
    refine (kept_live hop.live).mpr ⟨hk.1, ?_⟩
    rw [hop.work]
    exact hk.2
  | settled result hpc hup =>
    dsimp only at hpc
    subst hpc
    exact (kept_live (by trivial)).mpr hk
  | @unreported w config rendered result up hpc hup =>
    dsimp only at hpc
    subst hpc
    exact kept_finish (fun d hd => hsound d (hup d hd)) hk.1 (by simpa [Pc.work] using hk.2)
  | reported hpc =>
    dsimp only at hpc
    subst hpc
    exact kept_finish hsound hk.1 (by simpa [Pc.work] using hk.2)

section

variable [Hashlib] {mappings : Dict String String} {s₀ s : State} {pre post : List Event}
  {e : Event}

/-- **An announced port stays a candidate**, unless the reply of the pass misses it at its
limit. The server mentions every queried device exactly once. -/
theorem announced_kept_iff (hstart : s₀.pc = .scanning)
    (hrun : run mappings s₀ (pre ++ e :: post) = some s) (hdone : s.pc = .done w)
    (he : e.Announces p) (hpost : ∀ x ∈ post, ¬ x.Deletes p)
    (hserver : ¬ Replied mappings s₀ (pre ++ e :: post) fun _ devices reply =>
      ¬ reply.Answers devices) :
    (p ∈ s.agent.candidates ∧ s.agent.dirty = true) ↔
      ¬ Replied mappings s₀ (pre ++ e :: post) fun a _ reply =>
        p ∈ reply.missed ∧ BINDING_MISS_LIMIT ≤ a.missCount p + 1 := by
  have hanswers : ∀ pre' reply post' t devices,
      pre ++ e :: post = pre' ++ .details reply :: post' → run mappings s₀ pre' = some t →
      t.pc = .fetching devices → reply.Answers devices := fun pre' reply post' t devices h1 h2 h3 =>
    not_not.mp fun hbad => hserver ⟨pre', reply, post', t, devices, h1, h2, h3, hbad⟩
  -- the announcement is kept to the end of the pass
  have hsplit := hrun
  rw [run_append, Option.bind_eq_some_iff] at hsplit
  obtain ⟨t, ht, hrest⟩ := hsplit
  rw [run_cons, Option.bind_eq_some_iff] at hrest
  obtain ⟨t', hstep, hrest⟩ := hrest
  have hkept : Sound s ∧ Kept p s := by
    refine run_keeps (I := fun t => Sound t ∧ Kept p t) hrest
      ⟨(step_moved hstep).sound (run_sound ht hstart), ?_⟩ ?_
    · obtain ⟨c, rfl, hc⟩ := Agent.callback_announces he
      cases step_moved hstep with
      | called c hl => exact (kept_live hl).mpr ⟨Agent.callback_dirty, Or.inl (hc _)⟩
      | ended hl he => trivial
    · rintro pre' x post' u u' hpost' hu hmoved ⟨hsound, hk⟩
      refine ⟨hmoved.sound hsound, hmoved.kept hsound (hpost x (hpost' ▸ by simp)) ?_ hk⟩
      rintro reply devices rfl hpc
      refine hanswers (pre ++ e :: pre') reply post' u devices (by rw [hpost']; simp) ?_ hpc
      rw [run_append, ht]
      simp only [Option.bind_some]
      rw [run_cons, hstep]
      exact hu
  have hend := hkept.2
  rw [Kept, hdone] at hend
  -- and whether it was lost was decided by the reply
  have hlost : Lost p w ↔ Replied mappings s₀ (pre ++ e :: post) fun a devices reply =>
      Lost p ⟨devices, (a.receive reply).details, (a.receive reply).pending⟩ := by
    rw [← work_iff (by simp [Lost]) hrun hstart (by rw [hdone]; simp), hdone]
    simp [Pc.work]
  rw [hend.1, hend.2, hlost]
  simp only [and_true]
  refine not_congr (replied_congr fun pre' reply post' u devices h1 h2 h3 => ?_)
  have hnd : devices.Nodup := by
    have hsound := run_sound h2 hstart
    rwa [Sound, h3] at hsound
  rw [← receive_lost (hanswers pre' reply post' u devices h1 h2 h3) hnd, Lost, Work.ourDevices,
    receive_resolved]

end

/-- An empty reconcile, without ops and notes. -/
def quietResult : Reconcile.Result := { plan := {}, receipts := [], kernel := {} }

/-- A candidate one miss short of its limit. -/
def weary : State := start { candidates := {"p0"}, misses := ⟨[("p0", 59)], by decide⟩ }

/-- It is asked about, announced, and missed. -/
def wearyEvents : List Event :=
  [.scanned ∅] ++ .callback (.portUpdate (some "p0")) ::
    [.details { failedDevices := ["p0"] }, .reconciled quietResult]

def wearyEnd : State := ⟨{ dirty := true }, .done ⟨["p0"], [], ∅⟩⟩

theorem run_weary : @run ⟨id⟩ ∅ weary wearyEvents = some wearyEnd := rfl

/-- The server mentions the one queried device once. -/
theorem weary_answered : ¬ @Replied ⟨id⟩ ∅ weary wearyEvents fun _ devices reply =>
    ¬ reply.Answers devices := by
  rintro ⟨pre, reply, post, t, devices, hsplit, ht, hpc, hbad⟩
  obtain ⟨rfl, rfl⟩ : pre = [.scanned ∅, .callback (.portUpdate (some "p0"))] ∧
      reply = { failedDevices := ["p0"] } := by
    rcases pre with _ | ⟨a, _ | ⟨b, _ | ⟨c, _ | ⟨d, rest⟩⟩⟩⟩ <;> simp [wearyEvents] at hsplit
    exact ⟨by rw [← hsplit.1, ← hsplit.2.1], hsplit.2.2.1.symm⟩
  obtain rfl := Option.some.inj ht
  obtain rfl := Pc.fetching.inj hpc
  exact hbad (List.Perm.refl _)

/-- An announcement can be lost. -/
theorem announcement_lost : ¬ ∀ (_ : Hashlib) (mappings : Dict String String) (s₀ s : State)
    (pre post : List Event) (e : Event) (w : Work) (p : String), s₀.pc = .scanning →
    run mappings s₀ (pre ++ e :: post) = some s → s.pc = .done w → e.Announces p →
    (∀ x ∈ post, ¬ x.Deletes p) →
    (¬ Replied mappings s₀ (pre ++ e :: post) fun _ devices reply =>
      ¬ reply.Answers devices) →
    p ∈ s.agent.candidates ∧ s.agent.dirty = true := by
  intro hall
  have hkept := (hall ⟨id⟩ ∅ weary wearyEnd [.scanned ∅]
    [.details { failedDevices := ["p0"] }, .reconciled quietResult]
    (.callback (.portUpdate (some "p0"))) _ "p0" rfl run_weary rfl
    ⟨by decide, Or.inl rfl⟩ (by simp [Event.Deletes]) weary_answered).1
  exact absurd hkept (by decide)

theorem announced_kept_iff_weary :
    ("p0" ∈ wearyEnd.agent.candidates ∧ wearyEnd.agent.dirty = true) ↔
      ¬ @Replied ⟨id⟩ ∅ weary wearyEvents fun a _ reply =>
        "p0" ∈ reply.missed ∧ BINDING_MISS_LIMIT ≤ a.missCount "p0" + 1 :=
  @announced_kept_iff _ _ ⟨id⟩ _ _ _ _ _ _ rfl run_weary rfl ⟨by decide, Or.inl rfl⟩
    (by simp [Event.Deletes]) weary_answered

/-! ## 3. After a delete

The same walk the other way round. Misses are in it too: a deleted device that still has a count
would be asked about for as long as the count stays under the limit. -/

/-- After a delete of `p`: it is gone, unless the reply resolves it or leaves it pending. -/
def Dropped (p : String) (s : State) : Prop :=
  match s.pc with
  | .aborted => True
  | .done w => (p ∈ s.agent.candidates ↔ Held p w) ∧ (p ∈ s.agent.misses → Held p w)
  | pc => p ∉ s.agent.candidates ∧
      (p ∈ s.agent.misses → ∃ w, pc.work = some w ∧ Held p w)

theorem dropped_live {pc : Pc} (h : pc.live) :
    Dropped p ⟨a, pc⟩ ↔ p ∉ a.candidates ∧
      (p ∈ a.misses → ∃ w, pc.work = some w ∧ Held p w) := by
  cases pc with
  | done w => exact h.elim
  | aborted => exact h.elim
  | _ => exact Iff.rfl

/-- The rebuild, from a state in which `p` is dropped. -/
theorem dropped_finish (hup : ∀ d ∈ up, d ∈ w.ourDevices) (hp : p ∉ a.candidates)
    (hm : p ∈ a.misses → Held p w) : Dropped p ⟨finish a w up, .done w⟩ := by
  refine ⟨(mem_finish hup).trans ?_, hm⟩
  simp [hp]

theorem Moved.dropped {s s' : State} {e : Event} (h : Moved s e s') (hsound : Sound s)
    (hann : ¬ e.Announces p) (hscan : ∀ found, e = .scanned found → p ∉ found)
    (hk : Dropped p s) : Dropped p s' := by
  obtain ⟨a, pc⟩ := s
  cases h with
  | called c hl =>
    obtain ⟨hp, hm⟩ := (dropped_live hl).mp hk
    obtain ⟨hcand, hmiss⟩ := Agent.callback_brings (a := a) hann
    exact (dropped_live hl).mpr ⟨fun h => hp (hcand h), fun h => hm (hmiss h)⟩
  | ended hl he => trivial
  | unbuilt hpc => trivial
  | refused hpc => trivial
  | @asked found devices hpc hnd hmem =>
    dsimp only at hpc
    subst hpc
    refine (dropped_live (by trivial)).mpr ⟨fun h => ?_, hk.2⟩
    exact (Finset.mem_union.mp h).elim hk.1 (hscan found rfl)
  | @idle found pc hpc hempty hop =>
    dsimp only at hpc
    subst hpc
    refine (dropped_live hop.live).mpr ⟨fun h => ?_, fun h => ?_⟩
    · exact (Finset.mem_union.mp h).elim hk.1 (hscan found rfl)
    · obtain ⟨w, hw, -⟩ := hk.2 h
      exact absurd hw (by simp [Pc.work])
  | @answered devices reply pc hpc hop =>
    dsimp only at hpc
    subst hpc
    refine (dropped_live hop.live).mpr ⟨fun h => hk.1 (receive_candidates h), fun h => ?_⟩
    rcases receive_misses h with h | h
    · obtain ⟨w, hw, -⟩ := hk.2 h
      exact absurd hw (by simp [Pc.work])
    · exact ⟨_, hop.work, Or.inr h⟩
  | grouped info hpc hop =>
    dsimp only at hpc
    subst hpc
    refine (dropped_live hop.live).mpr ?_
    rw [hop.work]
    exact hk
  | settled result hpc hup =>
    dsimp only at hpc
    subst hpc
    exact (dropped_live (by trivial)).mpr hk
  | @unreported w config rendered result up hpc hup =>
    dsimp only at hpc
    subst hpc
    exact dropped_finish (fun d hd => hsound d (hup d hd)) hk.1 (by simpa [Pc.work] using hk.2)
  | reported hpc =>
    dsimp only at hpc
    subst hpc
    exact dropped_finish hsound hk.1 (by simpa [Pc.work] using hk.2)

section

variable [Hashlib] {mappings : Dict String String} {s₀ s : State} {pre post : List Event}
  {e : Event}

/-- **A deleted port is gone**, unless the reply of the pass resolves it or leaves it
pending. No service interface describes it. -/
theorem deleted_gone_iff (hstart : s₀.pc = .scanning)
    (hrun : run mappings s₀ (pre ++ e :: post) = some s) (hdone : s.pc = .done w)
    (he : e.Deletes p) (hpost : ∀ x ∈ post, ¬ x.Announces p)
    (hscan : ∀ found, .scanned found ∈ pre ++ e :: post → p ∉ found) :
    (p ∉ s.agent.candidates ∧ p ∉ s.agent.misses) ↔
      ¬ Replied mappings s₀ (pre ++ e :: post) fun a _ reply =>
        p ∈ reply.resolved ∨ a.Retries reply.missed p := by
  -- the delete holds to the end of the pass
  have hsplit := hrun
  rw [run_append, Option.bind_eq_some_iff] at hsplit
  obtain ⟨t, ht, hrest⟩ := hsplit
  rw [run_cons, Option.bind_eq_some_iff] at hrest
  obtain ⟨t', hstep, hrest⟩ := hrest
  have hdropped : Sound s ∧ Dropped p s := by
    refine run_keeps (I := fun t => Sound t ∧ Dropped p t) hrest
      ⟨(step_moved hstep).sound (run_sound ht hstart), ?_⟩ ?_
    · obtain ⟨c, rfl, hc⟩ := Agent.callback_deletes he
      cases step_moved hstep with
      | called c hl => exact (dropped_live hl).mpr ⟨(hc _).1, fun h => absurd h (hc _).2⟩
      | ended hl he => trivial
    · rintro pre' x post' u u' hpost' - hmoved ⟨hsound, hk⟩
      refine ⟨hmoved.sound hsound, hmoved.dropped hsound (hpost x (hpost' ▸ by simp)) ?_ hk⟩
      rintro found rfl
      exact hscan found (by rw [hpost']; simp)
  have hend := hdropped.2
  rw [Dropped, hdone] at hend
  -- and whether the pass holds it was decided by the reply
  have hheld : Held p w ↔ Replied mappings s₀ (pre ++ e :: post) fun a devices reply =>
      Held p ⟨devices, (a.receive reply).details, (a.receive reply).pending⟩ := by
    rw [← work_iff (by simp [Held, Work.ourDevices]) hrun hstart (by rw [hdone]; simp), hdone]
    simp [Pc.work]
  have hreplied : Held p w ↔ Replied mappings s₀ (pre ++ e :: post) fun a _ reply =>
      p ∈ reply.resolved ∨ a.Retries reply.missed p := by
    rw [hheld]
    refine replied_congr fun pre' reply post' u devices _ _ _ => ?_
    rw [Held, Work.ourDevices, receive_resolved]
    by_cases hr : p ∈ reply.resolved
    · simp [hr]
    · simp only [hr, false_or]
      exact receive_pending hr
  rw [← hreplied, hend.1]
  constructor
  · exact fun h => h.1
  · exact fun h => ⟨h, fun hm => h (hend.2 hm)⟩

end

/-- A port the server still knows. -/
def lateDetails : PortDetails := { portId := "p0", networkId := "n0" }

/-- A candidate. -/
def tracked : State := start { candidates := {"p0"} }

/-- It is deleted while its details are under way. -/
def trackedEvents : List Event :=
  [.scanned ∅] ++ .callback (.portDelete (some "p0")) ::
    [.details { devices := [.bound lateDetails] }, .groups {}, .reconciled quietResult, .reported]

def trackedEnd : State :=
  ⟨{ candidates := {"p0"}, devicesUp := {"p0"} }, .done ⟨["p0"], [lateDetails], ∅⟩⟩

theorem run_tracked : @run ⟨id⟩ ∅ tracked trackedEvents = some trackedEnd := rfl

/-- A delete can be undone. -/
theorem delete_undone : ¬ ∀ (_ : Hashlib) (mappings : Dict String String) (s₀ s : State)
    (pre post : List Event) (e : Event) (w : Work) (p : String), s₀.pc = .scanning →
    run mappings s₀ (pre ++ e :: post) = some s → s.pc = .done w → e.Deletes p →
    (∀ x ∈ post, ¬ x.Announces p) →
    (∀ found, .scanned found ∈ pre ++ e :: post → p ∉ found) →
    p ∉ s.agent.candidates ∧ p ∉ s.agent.misses := by
  intro hall
  have hgone := (hall ⟨id⟩ ∅ tracked trackedEnd [.scanned ∅]
    [.details { devices := [.bound lateDetails] }, .groups {}, .reconciled quietResult, .reported]
    (.callback (.portDelete (some "p0"))) _ "p0" rfl run_tracked rfl ⟨by decide, rfl⟩
    (by simp [Event.Announces]) (by simp)).1
  exact hgone (by decide)

theorem deleted_gone_iff_tracked :
    ("p0" ∉ trackedEnd.agent.candidates ∧ "p0" ∉ trackedEnd.agent.misses) ↔
      ¬ @Replied ⟨id⟩ ∅ tracked trackedEvents fun a _ reply =>
        "p0" ∈ reply.resolved ∨ a.Retries reply.missed "p0" :=
  @deleted_gone_iff _ _ ⟨id⟩ _ _ _ _ _ _ rfl run_tracked rfl ⟨by decide, rfl⟩
    (by simp [Event.Announces]) (by simp)

end Sync

end Bsdbridge
