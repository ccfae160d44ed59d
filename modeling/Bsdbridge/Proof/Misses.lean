import Bsdbridge.Proof.Announce

/-!
# The miss counter

A port is announced before its bind commits, so a candidate the server cannot resolve yet is asked
about again: at loop speed at first, then with the periodic pass, and after `BINDING_MISS_LIMIT`
tries no more. What this costs and when it stops rests on one number per candidate, which a pass
counts up, clears and forgets at different points, and which a pass may leave behind when it fails.

The number is right whatever the passes do: over any run of the daemon it is how many replies in a
row have missed the device (**`misses_exact`**). That needs a server that mentions each queried
device exactly once, and it needs the entries of the counter to be candidates, always, since only a
candidate is asked about.

There are two counts, then. The agent's own is in `misses` and is deleted, reset and dropped by
code in three places; `streak` is computed from the history alone, by a fold over its replies that
knows nothing of the agent. `Standing` ties them together at each step.

## The hypotheses, one by one

`Served` is the server's contract about replies. `Undeleted` leaves `port_delete` out, which means
to forget a count in the middle of a streak. `Once` asks for one announcement of the device the
theorem is about: a second one would add a candidate that was just given up, and the count would
begin again from a streak that did not. Other devices may be announced as often as one likes, and
passes may fail anywhere.
-/

set_option autoImplicit false

namespace Bsdbridge

namespace Sync

/-! ## 1. The daemon

A tick is a pass that begins, an event of the pass under way, or a callback between two passes. -/

section

variable [Hashlib] {mappings : Dict String String}

/-- What a step of the daemon can do. -/
inductive Ticked (s : State) : Tick → State → Prop
  | began : ¬ s.pc.live → Ticked s .sync (start s.agent)
  | between (c : Callback) : ¬ s.pc.live →
      Ticked s (.event (.callback c)) ⟨s.agent.callback c, s.pc⟩
  | moved {e : Event} {s' : State} : Moved s e s' → Ticked s (.event e) s'

theorem tick_ticked {s s' : State} {t : Tick} (h : tick mappings s t = some s') :
    Ticked s t s' := by
  obtain ⟨a, pc⟩ := s
  cases t with
  | sync =>
    cases pc with
    | done w => obtain rfl := Option.some.inj h; exact .began (fun h => h)
    | aborted => obtain rfl := Option.some.inj h; exact .began (fun h => h)
    | _ => cases h
  | event e =>
    cases pc with
    | done w =>
      cases e with
      | callback c => obtain rfl := Option.some.inj h; exact .between c (fun h => h)
      | _ => cases h
    | aborted =>
      cases e with
      | callback c => obtain rfl := Option.some.inj h; exact .between c (fun h => h)
      | _ => cases h
    | _ => exact .moved (step_moved h)

theorem life_snoc {s s' : State} {ticks : List Tick} {t : Tick} :
    life mappings s (ticks ++ [t]) = some s' ↔
      ∃ u, life mappings s ticks = some u ∧ tick mappings u t = some s' := by
  unfold life
  rw [List.foldlM_append]
  simp only [Option.bind_eq_bind, Option.bind_eq_some_iff, List.foldlM_cons, List.foldlM_nil,
    Option.pure_def, Option.some.injEq, exists_eq_right]

theorem life_append {s : State} {ticks more : List Tick} :
    life mappings s (ticks ++ more) =
      (life mappings s ticks).bind fun u => life mappings u more := by
  unfold life
  rw [List.foldlM_append]
  rfl

/-- What holds of a history and the state it leads to, when every step keeps it. -/
theorem life_keeps {I : List Tick → State → Prop} {s s' : State} {ticks : List Tick}
    (hrun : life mappings s ticks = some s') (hs : I [] s)
    (keep : ∀ pre t post u u', ticks = pre ++ t :: post → life mappings s pre = some u →
      Ticked u t u' → I pre u → I (pre ++ [t]) u') : I ticks s' := by
  induction ticks using List.reverseRecOn generalizing s' with
  | nil =>
    obtain rfl := Option.some.inj hrun
    exact hs
  | append_singleton ticks t ih =>
    obtain ⟨u, hu, htick⟩ := life_snoc.mp hrun
    refine keep ticks t [] u s' rfl hu (tick_ticked htick) (ih hu ?_)
    intro pre x post v v' hsplit hv
    exact keep pre x (post ++ [t]) v v' (by rw [hsplit]; simp) hv

end

/-! ## 2. The entries of the counter

While a reply is awaited, an entry must be among the devices asked about, or the reply would
leave it standing without its device ever being missed again. That is `Counted.asked`, and the
reason why the invariant looks at where the pass stands. -/

/-- The server mentions every device of a query exactly once. -/
def Served [Hashlib] (mappings : Dict String String) (s : State) (ticks : List Tick) : Prop :=
  ∀ pre reply post u devices, ticks = pre ++ .event (.details reply) :: post →
    life mappings s pre = some u → u.pc = .fetching devices → reply.Answers devices

/-- No `port_delete` arrives. -/
def Undeleted (ticks : List Tick) : Prop :=
  ∀ id, .event (.callback (.portDelete id)) ∉ ticks

/-- The entries of the counter are candidates on their way to the limit. While the reply is waited
for they are among the devices it is asked of; once it is in they are what is pending. -/
structure Counted (s : State) : Prop where
  entries : ∀ p c, s.agent.misses.get? p = some c →
    p ∈ s.agent.candidates ∧ 1 ≤ c ∧ c < BINDING_MISS_LIMIT
  asked : ∀ devices, s.pc = .fetching devices →
    (∀ p ∈ s.agent.misses, p ∈ devices) ∧ ∀ p ∈ devices, p ∈ s.agent.candidates
  pending : ∀ w, s.pc.work = some w → ∀ p, p ∈ w.pending ↔ p ∈ s.agent.misses

section

variable {a : Agent} {r : Reply} {devices : List String} {p : String}

/-- The reply leaves an entry for what is pending, and for nothing else. -/
theorem receive_entries (h : r.Answers devices) (hnd : devices.Nodup)
    (hasked : p ∈ a.misses → p ∈ devices) (hcand : p ∈ devices → p ∈ a.candidates) :
    (∀ c, (a.receive r).agent.misses.get? p = some c →
      p ∈ (a.receive r).agent.candidates ∧ 1 ≤ c ∧ c < BINDING_MISS_LIMIT) ∧
    (p ∈ (a.receive r).pending ↔ p ∈ (a.receive r).agent.misses) := by
  have hnone : ∀ {m : Dict String Nat}, m.get? p = none → p ∉ m := Dict.get?_eq_none.mp
  by_cases hp : p ∈ devices
  · rcases ((h.cases hnd).1.mp hp) with hres | hmiss
    · obtain ⟨-, hget, hpend⟩ := receive_resolves (a := a) h hnd hres
      refine ⟨fun c hc => ?_, iff_of_false hpend (hnone hget)⟩
      rw [hget] at hc
      cases hc
    · by_cases hlim : a.missCount p + 1 < BINDING_MISS_LIMIT
      · obtain ⟨hc, hget, hpend⟩ := receive_miss_under h hnd hmiss hlim
        refine ⟨fun c heq => ?_, iff_of_true hpend (Dict.mem_of_get? hget)⟩
        obtain rfl := Option.some.inj (hget.symm.trans heq)
        exact ⟨hc.mpr (hcand hp), Nat.succ_pos _, hlim⟩
      · obtain ⟨-, hget, hpend⟩ := receive_miss_limit h hnd hmiss (Nat.not_lt.mp hlim)
        refine ⟨fun c hc => ?_, iff_of_false hpend (hnone hget)⟩
        rw [hget] at hc
        cases hc
  · obtain ⟨-, hget, hpend⟩ := receive_unasked (a := a) h hp
    have hno : a.misses.get? p = none := Dict.get?_eq_none.mpr fun hin => hp (hasked hin)
    rw [hno] at hget
    refine ⟨fun c hc => ?_, iff_of_false hpend (hnone hget)⟩
    rw [hget] at hc
    cases hc

theorem callback_misses {c : Callback} (hc : ∀ id, c ≠ .portDelete id) :
    (a.callback c).misses = a.misses := by
  cases c with
  | portDelete id => exact absurd rfl (hc id)
  | _ => rfl

theorem callback_grows {c : Callback} (hc : ∀ id, c ≠ .portDelete id) (h : p ∈ a.candidates) :
    p ∈ (a.callback c).candidates :=
  Agent.callback_keeps (fun hdel => by
    obtain ⟨-, heq⟩ := hdel
    exact hc _ (Event.callback.inj heq)) h

end

theorem Counted.callback {s : State} {c : Callback} (h : Counted s)
    (hc : ∀ id, c ≠ .portDelete id) : Counted ⟨s.agent.callback c, s.pc⟩ where
  entries p n hn := by
    obtain ⟨hcand, hrange⟩ := h.entries p n (by rwa [← callback_misses hc])
    exact ⟨callback_grows hc hcand, hrange⟩
  asked devices hpc := by
    obtain ⟨hin, hcand⟩ := h.asked devices hpc
    exact ⟨fun p hp => hin p (by rwa [← callback_misses hc]),
      fun p hp => callback_grows hc (hcand p hp)⟩
  pending w hw p := by rw [h.pending w hw p, callback_misses hc]

/-- A pass that waits for no reply and holds no locals. -/
theorem Counted.bare {a : Agent} {pc : Pc}
    (h : ∀ p c, a.misses.get? p = some c → p ∈ a.candidates ∧ 1 ≤ c ∧ c < BINDING_MISS_LIMIT)
    (hpc : ∀ devices, pc ≠ .fetching devices) (hwork : pc.work = none) : Counted ⟨a, pc⟩ where
  entries := h
  asked devices heq := absurd heq (hpc devices)
  pending w heq := by
    dsimp only at heq
    rw [hwork] at heq
    cases heq

/-- A pass that holds its locals. -/
theorem Counted.work {a : Agent} {pc : Pc} {w : Work}
    (h : ∀ p c, a.misses.get? p = some c → p ∈ a.candidates ∧ 1 ≤ c ∧ c < BINDING_MISS_LIMIT)
    (hwork : pc.work = some w) (hpend : ∀ p, p ∈ w.pending ↔ p ∈ a.misses) : Counted ⟨a, pc⟩ where
  entries := h
  asked devices heq := by
    dsimp only at heq
    rw [heq] at hwork
    cases hwork
  pending w' heq := by
    obtain rfl := Option.some.inj (hwork.symm.trans heq)
    exact hpend

/-- The reply is in. -/
theorem Counted.received {s : State} {reply : Reply} {devices : List String} (h : Counted s)
    (hpc : s.pc = .fetching devices) (hserver : reply.Answers devices) (hnd : devices.Nodup) :
    (∀ p c, (s.agent.receive reply).agent.misses.get? p = some c →
      p ∈ (s.agent.receive reply).agent.candidates ∧ 1 ≤ c ∧ c < BINDING_MISS_LIMIT) ∧
    ∀ p, p ∈ (s.agent.receive reply).pending ↔ p ∈ (s.agent.receive reply).agent.misses := by
  obtain ⟨hin, hcand⟩ := h.asked devices hpc
  have hone := fun p => receive_entries hserver hnd (hin p) (hcand p)
  exact ⟨fun p => (hone p).1, fun p => (hone p).2⟩

/-- The rebuild keeps the pending devices. -/
theorem Counted.finish {s : State} {w : Work} {up : Finset String} (h : Counted s)
    (hwork : s.pc.work = some w) : Counted ⟨finish s.agent w up, .done w⟩ := by
  refine .work (fun p c hc => ?_) rfl (h.pending w hwork)
  refine ⟨?_, (h.entries p c hc).2⟩
  have hpend : p ∈ w.pending := (h.pending w hwork p).mpr (Dict.mem_of_get? hc)
  unfold Sync.finish
  simp [hpend]

theorem Moved.counted {s s' : State} {e : Event} (h : Moved s e s') (hs : Counted s)
    (hsound : Sound s) (hkept : ∀ id, e ≠ .callback (.portDelete id))
    (hserver : ∀ reply devices, e = .details reply → s.pc = .fetching devices →
      reply.Answers devices) : Counted s' := by
  have hwider : ∀ (found : Finset String) p c, s.agent.misses.get? p = some c →
      p ∈ s.agent.candidates ∪ found ∧ 1 ≤ c ∧ c < BINDING_MISS_LIMIT := fun found p c hc =>
    ⟨Finset.mem_union_left _ (hs.entries p c hc).1, (hs.entries p c hc).2⟩
  have hnodup : ∀ devices, s.pc = .fetching devices → devices.Nodup := by
    intro devices hpc
    rwa [Sound, hpc] at hsound
  cases h with
  | called c hl => exact hs.callback fun id heq => hkept id (by rw [heq])
  | ended hl he => exact .bare hs.entries (by simp) rfl
  | unbuilt hpc => exact .bare (hwider _) (by simp) rfl
  | refused hpc =>
    obtain ⟨hentries, -⟩ := hs.received hpc (hserver _ _ rfl hpc) (hnodup _ hpc)
    exact .bare hentries (by simp) rfl
  | @asked found devices hpc hnd hmem =>
    constructor
    · exact hwider found
    · intro devices' heq
      obtain rfl := Pc.fetching.inj heq
      refine ⟨fun p hp => ?_, fun p hp => (hmem p).mp hp⟩
      obtain ⟨c, hc⟩ := Dict.mem_iff_get?.mp hp
      exact (hmem p).mpr (hwider found p c hc).1
    · intro w hw
      cases hw
  | @idle found pc hpc hempty hop =>
    refine .work (hwider found) hop.work fun p => iff_of_false (by simp) fun hp => ?_
    obtain ⟨c, hc⟩ := Dict.mem_iff_get?.mp hp
    have hin := (hwider found p c hc).1
    rw [hempty] at hin
    exact absurd hin (by simp)
  | answered hpc hop =>
    obtain ⟨hentries, hpend⟩ := hs.received hpc (hserver _ _ rfl hpc) (hnodup _ hpc)
    exact .work hentries hop.work hpend
  | grouped info hpc hop =>
    exact .work hs.entries hop.work (hs.pending _ (by rw [hpc]; rfl))
  | settled result hpc hup =>
    exact .work hs.entries rfl (hs.pending _ (by rw [hpc]; rfl))
  | unreported result hpc hup => exact hs.finish (by rw [hpc]; rfl)
  | reported hpc => exact hs.finish (by rw [hpc]; rfl)

theorem Ticked.counted {s s' : State} {t : Tick} (h : Ticked s t s') (hs : Counted s)
    (hsound : Sound s) (hkept : ∀ id, t ≠ .event (.callback (.portDelete id)))
    (hserver : ∀ reply devices, t = .event (.details reply) → s.pc = .fetching devices →
      reply.Answers devices) : Counted s' := by
  cases h with
  | began hrest => exact .bare hs.entries (by simp) rfl
  | between c hrest => exact hs.callback fun id heq => hkept id (by rw [heq])
  | moved hm =>
    exact hm.counted hs hsound (fun id heq => hkept id (by rw [heq]))
      fun reply devices heq => hserver reply devices (by rw [heq])

theorem Ticked.sound {s s' : State} {t : Tick} (h : Ticked s t s') (hs : Sound s) : Sound s' := by
  cases h with
  | began hrest => trivial
  | between c hrest => exact hs
  | moved hm => exact hm.sound hs

section

variable [Hashlib] {mappings : Dict String String} {recovered : Finset String} {s : State}
  {ticks : List Tick}

/-- **Every entry of the counter is a candidate below the limit**, throughout. -/
theorem counted (hrun : life mappings (boot recovered) ticks = some s)
    (hserver : Served mappings (boot recovered) ticks) (hkept : Undeleted ticks) :
    Sound s ∧ Counted s := by
  refine life_keeps (I := fun _ s => Sound s ∧ Counted s) hrun ⟨trivial, ?_⟩ ?_
  · exact .bare (fun p c hc => absurd hc (by simp)) (by simp) rfl
  · rintro pre t post u u' hsplit hu hticked ⟨hsound, hcounted⟩
    refine ⟨hticked.sound hsound, hticked.counted hcounted hsound ?_ ?_⟩
    · rintro id rfl
      exact hkept id (by rw [hsplit]; simp)
    · rintro reply devices rfl hpc
      exact hserver pre reply post u devices hsplit hu hpc

end

/-! ## 3. One device over a run

`Followed` below the limit, `Forgotten` from there on. Each is kept by every step that is no
reply, and a reply moves from the one to the other at the sixtieth miss in a row. -/

/-- How many replies in a row have missed a device, after one more step. -/
def streakStep (p : String) (n : Nat) : Tick → Nat
  | .event (.details reply) =>
      if p ∈ reply.resolved then 0 else if p ∈ reply.missed then n + 1 else n
  | _ => n

/-- How many replies in a row have missed a device: one that resolves it starts over. -/
def streak (p : String) (ticks : List Tick) : Nat := ticks.foldl (streakStep p) 0

theorem streak_snoc (p : String) (ticks : List Tick) (t : Tick) :
    streak p (ticks ++ [t]) = streakStep p (streak p ticks) t := by
  unfold streak
  rw [List.foldl_append]
  rfl

/-- What the counter holds after so many misses. -/
def entryFor (n : Nat) : Option Nat := if n = 0 then none else some n

/-- A device after fewer misses than the limit. -/
structure Followed (p : String) (n : Nat) (s : State) : Prop where
  candidate : p ∈ s.agent.candidates
  entry : s.agent.misses.get? p = entryFor n
  /-- The rebuild will keep it. -/
  kept : ∀ w, s.pc.work = some w → Held p w ∨ p ∉ w.devices

/-- A device that was never announced, or was given up. -/
structure Forgotten (p : String) (s : State) : Prop where
  candidate : p ∉ s.agent.candidates
  entry : p ∉ s.agent.misses
  asked : ∀ devices, s.pc = .fetching devices → p ∉ devices
  /-- The rebuild will not bring it back. -/
  kept : ∀ w, s.pc.work = some w → ¬ Held p w

section

variable {a : Agent} {r : Reply} {devices : List String} {p : String} {n : Nat}

theorem missCount_eq (h : a.misses.get? p = entryFor n) : a.missCount p = n := by
  unfold Agent.missCount
  rw [h]
  unfold entryFor
  split
  · rename_i hn
    exact hn.symm
  · rfl

/-- **One reply**, for a device that is followed: either it is still followed, under the new
count, or this was its last miss and it is forgotten. -/
theorem receive_followed (h : r.Answers devices) (hnd : devices.Nodup) (hp : p ∈ a.candidates)
    (hentry : a.misses.get? p = entryFor n) (hn : n < BINDING_MISS_LIMIT) :
    let n' := streakStep p n (.event (.details r))
    (n' < BINDING_MISS_LIMIT ∧ p ∈ (a.receive r).agent.candidates ∧
      (a.receive r).agent.misses.get? p = entryFor n' ∧
      (p ∈ r.resolved ∨ p ∈ (a.receive r).pending ∨ p ∉ devices)) ∨
    (n' = BINDING_MISS_LIMIT ∧ p ∉ (a.receive r).agent.candidates ∧
      p ∉ (a.receive r).agent.misses ∧ p ∉ r.resolved ∧ p ∉ (a.receive r).pending) := by
  have hcount := missCount_eq hentry
  obtain ⟨hdev, hboth, -⟩ := h.cases hnd (p := p)
  by_cases hres : p ∈ r.resolved
  · obtain ⟨hc, hget, -⟩ := receive_resolves (a := a) h hnd hres
    have hstep : streakStep p n (.event (.details r)) = 0 := if_pos hres
    rw [hstep]
    exact .inl ⟨by decide, hc.mpr hp, hget, .inl hres⟩
  · by_cases hmiss : p ∈ r.missed
    · have hstep : streakStep p n (.event (.details r)) = n + 1 :=
        (if_neg hres).trans (if_pos hmiss)
      rw [hstep]
      by_cases hlim : n + 1 < BINDING_MISS_LIMIT
      · obtain ⟨hc, hget, hpend⟩ := receive_miss_under h hnd hmiss (hcount ▸ hlim)
        rw [hcount] at hget
        exact .inl ⟨hlim, hc.mpr hp, hget, .inr (.inl hpend)⟩
      · obtain ⟨hc, hget, hpend⟩ :=
          receive_miss_limit h hnd hmiss (hcount ▸ Nat.not_lt.mp hlim)
        exact .inr ⟨by omega, hc, Dict.get?_eq_none.mp hget, hres, hpend⟩
    · have hstep : streakStep p n (.event (.details r)) = n :=
        (if_neg hres).trans (if_neg hmiss)
      have hout : p ∉ devices := fun hin => (hdev.mp hin).elim hres hmiss
      obtain ⟨hc, hget, -⟩ := receive_unasked (a := a) h hout
      rw [hstep]
      exact .inl ⟨hn, hc.mpr hp, hget.trans hentry, .inr (.inr hout)⟩

/-- One reply, for a device that was not asked about. -/
theorem receive_forgotten (h : r.Answers devices) (hnd : devices.Nodup) (hp : p ∉ a.candidates)
    (hentry : p ∉ a.misses) (hout : p ∉ devices) :
    streakStep p n (.event (.details r)) = n ∧ p ∉ (a.receive r).agent.candidates ∧
      p ∉ (a.receive r).agent.misses ∧ p ∉ r.resolved ∧ p ∉ (a.receive r).pending := by
  obtain ⟨hdev, -, -⟩ := h.cases hnd (p := p)
  have hres : p ∉ r.resolved := fun hin => hout (hdev.mpr (.inl hin))
  have hmiss : p ∉ r.missed := fun hin => hout (hdev.mpr (.inr hin))
  obtain ⟨hc, hget, hpend⟩ := receive_unasked (a := a) h hout
  refine ⟨(if_neg hres).trans (if_neg hmiss), fun hin => hp (hc.mp hin), ?_, hres, hpend⟩
  rw [← Dict.get?_eq_none, hget, Dict.get?_eq_none]
  exact hentry

end

section

variable {p : String} {n : Nat} {s s' : State} {e : Event} {t : Tick}

theorem Opened.not_fetching {w : Work} {pc : Pc} (h : Opened w pc) (devices : List String) :
    pc ≠ .fetching devices := by
  cases h <;> simp

theorem held_received {a : Agent} {reply : Reply} {devices : List String} :
    Held p ⟨devices, (a.receive reply).details, (a.receive reply).pending⟩ ↔
      p ∈ reply.resolved ∨ p ∈ (a.receive reply).pending := by
  rw [Held, Work.ourDevices, receive_resolved]

/-- **One step**, for a device that is followed. -/
theorem Moved.followed (h : Moved s e s') (hs : Followed p n s) (hn : n < BINDING_MISS_LIMIT)
    (hsound : Sound s) (hkept : ∀ id, e ≠ .callback (.portDelete id))
    (hserver : ∀ reply devices, e = .details reply → s.pc = .fetching devices →
      reply.Answers devices) :
    (streakStep p n (.event e) < BINDING_MISS_LIMIT ∧
      Followed p (streakStep p n (.event e)) s') ∨
    (streakStep p n (.event e) = BINDING_MISS_LIMIT ∧ Forgotten p s') := by
  obtain ⟨hcand, hentry, hwork⟩ := hs
  have hnodup : ∀ devices, s.pc = .fetching devices → devices.Nodup := by
    intro devices hpc
    rwa [Sound, hpc] at hsound
  have hlocals : ∀ {pc : Pc}, pc.work = s.pc.work →
      ∀ w, pc.work = some w → Held p w ∨ p ∉ w.devices := fun hsame w hw =>
    hwork w (hsame.symm.trans hw)
  -- the rebuild at the end of a pass keeps what the locals keep
  have hfinish : ∀ {w up}, s.pc.work = some w → (∀ d ∈ up, d ∈ w.ourDevices) →
      Followed p n ⟨finish s.agent w up, .done w⟩ := by
    intro w up hw hup
    refine ⟨(mem_finish hup).mpr ((hwork w hw).imp_right fun hout => ⟨hcand, hout⟩), hentry, ?_⟩
    exact hlocals hw.symm
  cases h with
  | called c hl =>
    have hc : ∀ id, c ≠ .portDelete id := fun id heq => hkept id (by rw [heq])
    exact .inl ⟨hn, callback_grows hc hcand, by rw [callback_misses hc]; exact hentry, hwork⟩
  | ended hl he =>
    have hstreak : streakStep p n (.event e) = n := by
      rcases he with rfl | ⟨info, rfl⟩ | ⟨result, rfl⟩ <;> rfl
    rw [hstreak]
    exact .inl ⟨hn, hcand, hentry, by simp [Pc.work]⟩
  | unbuilt hpc => exact .inl ⟨hn, Finset.mem_union_left _ hcand, hentry, by simp [Pc.work]⟩
  | @refused devices reply hpc =>
    rcases receive_followed (hserver _ _ rfl hpc) (hnodup _ hpc) hcand hentry hn with
      ⟨hlt, hc, he, -⟩ | ⟨heq, hc, he, -, -⟩
    · exact .inl ⟨hlt, hc, he, by simp [Pc.work]⟩
    · exact .inr ⟨heq, hc, he, by simp, by simp [Pc.work]⟩
  | asked hpc hnd hmem =>
    exact .inl ⟨hn, Finset.mem_union_left _ hcand, hentry, by simp [Pc.work]⟩
  | @idle found pc hpc hempty hop =>
    refine .inl ⟨hn, Finset.mem_union_left _ hcand, hentry, fun w hw => ?_⟩
    obtain rfl := Option.some.inj (hop.work.symm.trans hw)
    exact .inr List.not_mem_nil
  | @answered devices reply pc hpc hop =>
    rcases receive_followed (hserver _ _ rfl hpc) (hnodup _ hpc) hcand hentry hn with
      ⟨hlt, hc, he, hheld⟩ | ⟨heq, hc, he, hres, hpend⟩
    · refine .inl ⟨hlt, hc, he, fun w hw => ?_⟩
      obtain rfl := Option.some.inj (hop.work.symm.trans hw)
      rw [held_received, or_assoc]
      exact hheld
    · refine .inr ⟨heq, hc, he, fun _ hpc' => absurd hpc' (hop.not_fetching _), fun w hw => ?_⟩
      obtain rfl := Option.some.inj (hop.work.symm.trans hw)
      rw [held_received, not_or]
      exact ⟨hres, hpend⟩
  | grouped info hpc hop =>
    exact .inl ⟨hn, hcand, hentry, hlocals (by rw [hpc, hop.work]; rfl)⟩
  | settled result hpc hup =>
    exact .inl ⟨hn, hcand, hentry, hlocals (by rw [hpc]; rfl)⟩
  | unreported result hpc hup =>
    rw [Sound, hpc] at hsound
    exact .inl ⟨hn, hfinish (by rw [hpc]; rfl) fun d hd => hsound d (hup d hd)⟩
  | reported hpc =>
    rw [Sound, hpc] at hsound
    exact .inl ⟨hn, hfinish (by rw [hpc]; rfl) hsound⟩

/-- **One step**, for a device that is forgotten. What the pass under way did not ask about, it
does not ask about. -/
theorem Moved.forgotten (h : Moved s e s') (hs : Forgotten p s) (hsound : Sound s)
    (hkept : ∀ id, e ≠ .callback (.portDelete id)) (hann : ¬ e.Announces p)
    (hscan : ∀ found, e = .scanned found → p ∉ found)
    (hserver : ∀ reply devices, e = .details reply → s.pc = .fetching devices →
      reply.Answers devices) :
    streakStep p n (.event e) = n ∧ Forgotten p s' ∧
      ((∀ w, s.pc.work = some w → p ∉ w.devices) → ∀ w, s'.pc.work = some w → p ∉ w.devices) := by
  obtain ⟨hcand, hentry, hasked, hwork⟩ := hs
  have hnodup : ∀ devices, s.pc = .fetching devices → devices.Nodup := by
    intro devices hpc
    rwa [Sound, hpc] at hsound
  -- the rebuild brings back only what it holds
  have hfinish : ∀ {w up}, s.pc.work = some w → (∀ d ∈ up, d ∈ w.ourDevices) →
      p ∉ (finish s.agent w up).candidates := by
    intro w up hw hup hin
    rcases (mem_finish hup).mp hin with hheld | ⟨hin, -⟩
    · exact hwork w hw hheld
    · exact hcand hin
  have hwider : ∀ found, e = .scanned found → p ∉ s.agent.candidates ∪ found := by
    intro found heq hin
    exact (Finset.mem_union.mp hin).elim hcand (hscan found heq)
  cases h with
  | called c hl =>
    have hc : ∀ id, c ≠ .portDelete id := fun id heq => hkept id (by rw [heq])
    refine ⟨rfl, ⟨fun hin => hcand ((Agent.callback_brings hann).1 hin), ?_, hasked, hwork⟩, id⟩
    rw [callback_misses hc]
    exact hentry
  | ended hl he =>
    have hstreak : streakStep p n (.event e) = n := by
      rcases he with rfl | ⟨info, rfl⟩ | ⟨result, rfl⟩ <;> rfl
    exact ⟨hstreak, ⟨hcand, hentry, by simp, by simp [Pc.work]⟩, by simp [Pc.work]⟩
  | unbuilt hpc =>
    exact ⟨rfl, ⟨hwider _ rfl, hentry, by simp, by simp [Pc.work]⟩, by simp [Pc.work]⟩
  | @refused devices reply hpc =>
    obtain ⟨hstreak, hc, he, -, -⟩ :=
      receive_forgotten (hserver _ _ rfl hpc) (hnodup _ hpc) hcand hentry (hasked _ hpc)
    exact ⟨hstreak, ⟨hc, he, by simp, by simp [Pc.work]⟩, by simp [Pc.work]⟩
  | @asked found devices hpc hnd hmem =>
    refine ⟨rfl, ⟨hwider _ rfl, hentry, ?_, by simp [Pc.work]⟩, by simp [Pc.work]⟩
    intro devices' heq
    obtain rfl := Pc.fetching.inj heq
    rw [hmem]
    exact hwider _ rfl
  -- nothing to ask about: the locals are empty
  | @idle found pc hpc hempty hop =>
    refine ⟨rfl, ⟨hwider _ rfl, hentry, fun _ heq => absurd heq (hop.not_fetching _), ?_⟩, ?_⟩
    · intro w hw
      obtain rfl := Option.some.inj (hop.work.symm.trans hw)
      simp [Held, Work.ourDevices]
    · intro _ w hw
      obtain rfl := Option.some.inj (hop.work.symm.trans hw)
      exact List.not_mem_nil
  | @answered devices reply pc hpc hop =>
    obtain ⟨hstreak, hc, he, hres, hpend⟩ :=
      receive_forgotten (hserver _ _ rfl hpc) (hnodup _ hpc) hcand hentry (hasked _ hpc)
    refine ⟨hstreak, ⟨hc, he, fun _ heq => absurd heq (hop.not_fetching _), ?_⟩, ?_⟩
    · intro w hw
      obtain rfl := Option.some.inj (hop.work.symm.trans hw)
      rw [held_received, not_or]
      exact ⟨hres, hpend⟩
    · intro _ w hw
      obtain rfl := Option.some.inj (hop.work.symm.trans hw)
      exact hasked _ hpc
  | @grouped w info pc hpc hop =>
    have hsame : s.pc.work = pc.work := by rw [hpc, hop.work]; rfl
    exact ⟨rfl, ⟨hcand, hentry, fun _ heq => absurd heq (hop.not_fetching _),
      fun w hw => hwork w (hsame.trans hw)⟩, fun hout w hw => hout w (hsame.trans hw)⟩
  | @settled w config rendered result up hpc hup =>
    have hsame : s.pc.work = some w := by rw [hpc]; rfl
    exact ⟨rfl, ⟨hcand, hentry, by simp, fun w hw => hwork w (hsame.trans hw)⟩,
      fun hout w hw => hout w (hsame.trans hw)⟩
  | @unreported w config rendered result up hpc hup =>
    have hsame : s.pc.work = some w := by rw [hpc]; rfl
    rw [Sound, hpc] at hsound
    exact ⟨rfl, ⟨hfinish hsame fun d hd => hsound d (hup d hd), hentry, by simp,
      fun w hw => hwork w (hsame.trans hw)⟩, fun hout w hw => hout w (hsame.trans hw)⟩
  | @reported w up hpc =>
    have hsame : s.pc.work = some w := by rw [hpc]; rfl
    rw [Sound, hpc] at hsound
    exact ⟨rfl, ⟨hfinish hsame hsound, hentry, by simp, fun w hw => hwork w (hsame.trans hw)⟩,
      fun hout w hw => hout w (hsame.trans hw)⟩

end

/-! ## 4. Runs

The same three cases for the whole daemon, with the time before the first announcement added. -/

/-- A step that announces a device. -/
def Tick.Announces (p : String) (t : Tick) : Prop := ∃ e, t = .event e ∧ e.Announces p

/-- A device is recovered at the start, or a callback announces it. -/
def Announced (p : String) (recovered : Finset String) (ticks : List Tick) : Prop :=
  p ∈ recovered ∨ ∃ t ∈ ticks, t.Announces p

/-- No announcement of a device comes after the first, and no service interface is its own. -/
structure Once (p : String) (recovered : Finset String) (ticks : List Tick) : Prop where
  first : ∀ pre t post, ticks = pre ++ t :: post → t.Announces p → ¬ Announced p recovered pre
  apart : ∀ found, .event (.scanned found) ∈ ticks → p ∉ found

theorem announced_snoc {p : String} {recovered : Finset String} {ticks : List Tick} {t : Tick} :
    Announced p recovered (ticks ++ [t]) ↔ Announced p recovered ticks ∨ t.Announces p := by
  unfold Announced
  simp [or_assoc, or_and_right, exists_or]

/-- Where a device stands in a run: not announced yet, followed, or given up. -/
def Standing (p : String) (recovered : Finset String) (ticks : List Tick) (s : State) : Prop :=
  (¬ Announced p recovered ticks ∧ streak p ticks = 0 ∧ Forgotten p s ∧
    ∀ w, s.pc.work = some w → p ∉ w.devices) ∨
  (Announced p recovered ticks ∧ streak p ticks < BINDING_MISS_LIMIT ∧
    Followed p (streak p ticks) s) ∨
  (Announced p recovered ticks ∧ streak p ticks = BINDING_MISS_LIMIT ∧ Forgotten p s)

section

variable {p : String} {recovered : Finset String} {ticks : List Tick} {s s' : State} {t : Tick}

/-- One step of the daemon, for a device that is followed. -/
theorem Ticked.followed {n : Nat} (h : Ticked s t s') (hs : Followed p n s)
    (hn : n < BINDING_MISS_LIMIT) (hsound : Sound s)
    (hkept : ∀ id, t ≠ .event (.callback (.portDelete id)))
    (hserver : ∀ reply devices, t = .event (.details reply) → s.pc = .fetching devices →
      reply.Answers devices) :
    (streakStep p n t < BINDING_MISS_LIMIT ∧ Followed p (streakStep p n t) s') ∨
      (streakStep p n t = BINDING_MISS_LIMIT ∧ Forgotten p s') := by
  cases h with
  | began hrest => exact .inl ⟨hn, hs.candidate, hs.entry, by simp [start, Pc.work]⟩
  | between c hrest =>
    have hc : ∀ id, c ≠ .portDelete id := fun id heq => hkept id (by rw [heq])
    exact .inl ⟨hn, callback_grows hc hs.candidate, by rw [callback_misses hc]; exact hs.entry,
      hs.kept⟩
  | moved hm =>
    exact hm.followed hs hn hsound (fun id heq => hkept id (by rw [heq]))
      fun reply devices heq => hserver reply devices (by rw [heq])

/-- One step of the daemon, for a device that is forgotten. -/
theorem Ticked.forgotten {n : Nat} (h : Ticked s t s') (hs : Forgotten p s) (hsound : Sound s)
    (hkept : ∀ id, t ≠ .event (.callback (.portDelete id))) (hann : ¬ t.Announces p)
    (hscan : ∀ found, t = .event (.scanned found) → p ∉ found)
    (hserver : ∀ reply devices, t = .event (.details reply) → s.pc = .fetching devices →
      reply.Answers devices) :
    streakStep p n t = n ∧ Forgotten p s' ∧
      ((∀ w, s.pc.work = some w → p ∉ w.devices) → ∀ w, s'.pc.work = some w → p ∉ w.devices) := by
  cases h with
  | began hrest =>
    exact ⟨rfl, ⟨hs.candidate, hs.entry, by simp [start], by simp [start, Pc.work]⟩,
      by simp [start, Pc.work]⟩
  | between c hrest =>
    have hc : ∀ id, c ≠ .portDelete id := fun id heq => hkept id (by rw [heq])
    have hno : ¬ (Event.callback c).Announces p := fun ha => hann ⟨_, rfl, ha⟩
    refine ⟨rfl, ⟨fun hin => hs.candidate ((Agent.callback_brings hno).1 hin), ?_, hs.asked,
      hs.kept⟩, id⟩
    rw [callback_misses hc]
    exact hs.entry
  | moved hm =>
    exact hm.forgotten hs hsound (fun id heq => hkept id (by rw [heq]))
      (fun ha => hann ⟨_, rfl, ha⟩) (fun found heq => hscan found (by rw [heq]))
      fun reply devices heq => hserver reply devices (by rw [heq])

/-- The announcement of a device that was not known. -/
theorem Ticked.announced (h : Ticked s t s') (ht : t.Announces p) (hs : Forgotten p s)
    (hout : ∀ w, s.pc.work = some w → p ∉ w.devices) :
    streakStep p 0 t = 0 ∧ Followed p 0 s' := by
  obtain ⟨e, rfl, he⟩ := ht
  obtain ⟨c, rfl, hc⟩ := Agent.callback_announces he
  have hmiss : (s.agent.callback c).misses.get? p = none := by
    obtain ⟨-, heq | heq⟩ := he
    · obtain rfl := Event.callback.inj heq
      exact Dict.get?_eq_none.mpr hs.entry
    · obtain rfl := Event.callback.inj heq
      exact Dict.get?_eq_none.mpr hs.entry
  have hnow : Followed p 0 ⟨s.agent.callback c, s.pc⟩ :=
    ⟨hc s.agent, hmiss, fun w hw => .inr (hout w hw)⟩
  cases h with
  | between c hrest => exact ⟨rfl, hnow⟩
  | moved hm =>
    cases hm with
    | called c hl => exact ⟨rfl, hnow⟩
    | ended hl he => rcases he with h | ⟨_, h⟩ | ⟨_, h⟩ <;> cases h

end

section

variable [Hashlib] {mappings : Dict String String} {recovered : Finset String} {s : State}
  {ticks : List Tick} {p : String}

/-- Where a device stands after any run. -/
theorem standing (hrun : life mappings (boot recovered) ticks = some s)
    (hserver : Served mappings (boot recovered) ticks) (hkept : Undeleted ticks)
    (honce : Once p recovered ticks) : Sound s ∧ Standing p recovered ticks s := by
  refine life_keeps (I := fun ticks s => Sound s ∧ Standing p recovered ticks s) hrun
    ⟨trivial, ?_⟩ ?_
  · -- a recovered device is announced before the first step
    by_cases hin : p ∈ recovered
    · have hlt : 0 < BINDING_MISS_LIMIT := by decide
      exact .inr (.inl ⟨.inl hin, hlt, hin, rfl, by simp [boot, Pc.work]⟩)
    · refine .inl ⟨?_, rfl, ⟨hin, by simp [boot], by simp [boot], by simp [boot, Pc.work]⟩,
        by simp [boot, Pc.work]⟩
      rintro (h | ⟨t, ht, -⟩)
      · exact hin h
      · exact absurd ht List.not_mem_nil
  · rintro pre t post u u' hsplit hu hticked ⟨hsound, hstand⟩
    -- what is asked of the whole history, for this step
    have hdel : ∀ id, t ≠ .event (.callback (.portDelete id)) := by
      rintro id rfl
      exact hkept id (by rw [hsplit]; simp)
    have hans : ∀ reply devices, t = .event (.details reply) → u.pc = .fetching devices →
        reply.Answers devices := by
      rintro reply devices rfl hpc
      exact hserver pre reply post u devices hsplit hu hpc
    have hscan : ∀ found, t = .event (.scanned found) → p ∉ found := by
      rintro found rfl
      exact honce.apart found (by rw [hsplit]; simp)
    refine ⟨hticked.sound hsound, ?_⟩
    unfold Standing
    rw [announced_snoc, streak_snoc]
    rcases hstand with ⟨hno, hzero, hforgot, hout⟩ | ⟨hann, hlt, hfollow⟩ | ⟨hann, hlim, hforgot⟩
    · by_cases ht : t.Announces p
      · obtain ⟨hstreak, hfollow⟩ := hticked.announced ht hforgot hout
        rw [hzero, hstreak]
        exact .inr (.inl ⟨.inr ht, by decide, hfollow⟩)
      · obtain ⟨hstreak, hforgot', hout'⟩ :=
          hticked.forgotten (n := streak p pre) hforgot hsound hdel ht hscan hans
        rw [hstreak]
        exact .inl ⟨fun h => h.elim hno ht, hzero, hforgot', hout' hout⟩
    · rcases hticked.followed hfollow hlt hsound hdel hans with ⟨hlt', hfollow'⟩ | ⟨hlim, hforgot⟩
      · exact .inr (.inl ⟨.inl hann, hlt', hfollow'⟩)
      · exact .inr (.inr ⟨.inl hann, hlim, hforgot⟩)
    · -- given up: it was announced already, so it is not announced again
      have ht : ¬ t.Announces p := fun ht => honce.first pre t post hsplit ht hann
      obtain ⟨hstreak, hforgot', -⟩ :=
        hticked.forgotten (n := streak p pre) hforgot hsound hdel ht hscan hans
      rw [hstreak]
      exact .inr (.inr ⟨.inl hann, hlim, hforgot'⟩)

end

/-! ## 5. The dirty flag

The flag is what asks for the next pass at loop speed. It belongs to all candidates together, so
what it says of one device holds where no other keeps it up and no callback interferes. -/

/-- In a pass that no callback interrupts, the flag is down until the rebuild, which raises it for
a pending device with few misses. -/
def Quiet (s : State) : Prop :=
  match s.pc with
  | .done w => s.agent.dirty = decide (∃ d ∈ w.pending, s.agent.missCount d ≤ FAST_RETRY_MISSES)
  | .aborted => True
  | _ => s.agent.dirty = false

theorem Quiet.live {s : State} (h : Quiet s) (hl : s.pc.live) : s.agent.dirty = false := by
  obtain ⟨a, pc⟩ := s
  cases pc with
  | done w => exact hl.elim
  | aborted => exact hl.elim
  | _ => exact h

theorem Opened.quiet {a : Agent} {w : Work} {pc : Pc} (h : Opened w pc) (hd : a.dirty = false) :
    Quiet ⟨a, pc⟩ := by
  cases h <;> exact hd

theorem quiet_finish {a : Agent} {w : Work} {up : Finset String} (hd : a.dirty = false) :
    Quiet ⟨finish a w up, .done w⟩ := by
  unfold Quiet Sync.finish Agent.missCount
  simp [hd]

theorem Moved.quiet {s s' : State} {e : Event} (h : Moved s e s') (hs : Quiet s)
    (he : ∀ c, e ≠ .callback c) : Quiet s' := by
  cases h with
  | called c hl => exact absurd rfl (he c)
  | ended hl he => trivial
  | unbuilt hpc => trivial
  | refused hpc => trivial
  | asked hpc hnd hmem => exact hs.live (by rw [hpc]; trivial)
  | idle hpc hempty hop => exact hop.quiet (hs.live (by rw [hpc]; trivial))
  | answered hpc hop =>
    exact hop.quiet (receive_dirty.trans (hs.live (by rw [hpc]; trivial)))
  | grouped info hpc hop => exact hop.quiet (hs.live (by rw [hpc]; trivial))
  | settled result hpc hup => exact hs.live (by rw [hpc]; trivial)
  | unreported result hpc hup => exact quiet_finish (hs.live (by rw [hpc]; trivial))
  | reported hpc => exact quiet_finish (hs.live (by rw [hpc]; trivial))

section

variable [Hashlib] {mappings : Dict String String}

/-- A pass that no callback interrupts. -/
theorem life_quiet {a : Agent} {s : State} {evs : List Event}
    (hrun : life mappings (start a) (evs.map .event) = some s)
    (hevs : ∀ c, .callback c ∉ evs) : Quiet s := by
  refine life_keeps (I := fun _ s => Quiet s) hrun rfl ?_
  intro pre t post u u' hsplit hu hticked hquiet
  have hmem : t ∈ evs.map Tick.event := by rw [hsplit]; simp
  obtain ⟨e, he, rfl⟩ := List.mem_map.mp hmem
  have hno : ∀ c, e ≠ .callback c := fun c heq => hevs c (heq ▸ he)
  cases hticked with
  | between c hrest => exact absurd rfl (hno c)
  | moved hm => exact hm.quiet hquiet hno

/-- **The miss counter is exact.** Over any run of the daemon without a delete, with a server that
mentions every queried device once: a device that is announced once and is no service port is a
candidate with its run of misses as its count, until the limit, where it is in neither; a pass that
completes undisturbed is dirty on account of that device alone just when the run is no longer than
the fast retries; and every entry of the counter is a candidate below the limit. -/
theorem misses_exact {recovered : Finset String} {s : State} {ticks : List Tick} {p : String}
    (hrun : life mappings (boot recovered) ticks = some s)
    (hserver : Served mappings (boot recovered) ticks) (hkept : Undeleted ticks)
    (honce : Once p recovered ticks) (hann : Announced p recovered ticks) :
    streak p ticks ≤ BINDING_MISS_LIMIT ∧
    (streak p ticks < BINDING_MISS_LIMIT → p ∈ s.agent.candidates ∧
      s.agent.misses.get? p = if streak p ticks = 0 then none else some (streak p ticks)) ∧
    (streak p ticks = BINDING_MISS_LIMIT → p ∉ s.agent.candidates ∧ p ∉ s.agent.misses) ∧
    (∀ pre (evs : List Event) w, ticks = pre ++ .sync :: evs.map .event → s.pc = .done w →
      (∀ c, .callback c ∉ evs) → 0 < streak p ticks →
      (∀ q c, q ≠ p → s.agent.misses.get? q = some c → FAST_RETRY_MISSES < c) →
      (s.agent.dirty = true ↔ streak p ticks ≤ FAST_RETRY_MISSES)) ∧
    ∀ q c, s.agent.misses.get? q = some c →
      q ∈ s.agent.candidates ∧ 1 ≤ c ∧ c < BINDING_MISS_LIMIT := by
  obtain ⟨-, hstand⟩ := standing hrun hserver hkept honce
  obtain ⟨-, hcounted⟩ := counted hrun hserver hkept
  -- an announced device is followed or forgotten
  have hcases : (streak p ticks < BINDING_MISS_LIMIT ∧ Followed p (streak p ticks) s) ∨
      (streak p ticks = BINDING_MISS_LIMIT ∧ Forgotten p s) :=
    hstand.elim (fun h => absurd hann h.1) fun h => h.imp And.right And.right
  refine ⟨hcases.elim (fun h => h.1.le) fun h => h.1.le, fun hlt => ?_, fun hlim => ?_, ?_,
    hcounted.entries⟩
  · rcases hcases with ⟨-, hfollow⟩ | ⟨heq, -⟩
    · exact ⟨hfollow.candidate, hfollow.entry⟩
    · exact absurd heq hlt.ne
  · rcases hcases with ⟨hlt, -⟩ | ⟨-, hforgot⟩
    · exact absurd hlim hlt.ne
    · exact ⟨hforgot.candidate, hforgot.entry⟩
  · intro pre evs w hsplit hdone hevs hpos halone
    -- the flag was down when the last pass began, and no callback raised it since
    have hquiet : Quiet s := by
      rw [hsplit, life_append, Option.bind_eq_some_iff] at hrun
      obtain ⟨u, -, hpass⟩ := hrun
      unfold life at hpass
      rw [List.foldlM_cons] at hpass
      obtain ⟨v, hbegin, hpass⟩ := Option.bind_eq_some_iff.mp hpass
      cases tick_ticked hbegin with
      | began hrest => exact life_quiet hpass hevs
    have hpend := hcounted.pending w (by rw [hdone]; rfl)
    rw [Quiet, hdone] at hquiet
    rw [hquiet, decide_eq_true_eq]
    rcases hcases with ⟨hlt, hfollow⟩ | ⟨heq, hforgot⟩
    · have hcount := missCount_eq hfollow.entry
      constructor
      · rintro ⟨d, hd, hfew⟩
        by_cases hdp : d = p
        · rwa [hdp, hcount] at hfew
        · -- another pending device has too many misses
          obtain ⟨c, hc⟩ := Dict.mem_iff_get?.mp ((hpend d).mp hd)
          have hmany := halone d c hdp hc
          rw [Agent.missCount, hc] at hfew
          exact absurd hfew (Nat.not_le.mpr hmany)
      · intro hfew
        have hentry : s.agent.misses.get? p = some (streak p ticks) :=
          hfollow.entry.trans (if_neg hpos.ne')
        exact ⟨p, (hpend p).mpr (Dict.mem_of_get? hentry), hcount ▸ hfew⟩
    · -- a forgotten device keeps the flag up no more than the others do
      have hmany : FAST_RETRY_MISSES < streak p ticks := by
        rw [heq]
        decide
      refine iff_of_false ?_ (Nat.not_le.mpr hmany)
      rintro ⟨d, hd, hfew⟩
      obtain ⟨c, hc⟩ := Dict.mem_iff_get?.mp ((hpend d).mp hd)
      have hdp : d ≠ p := fun h => hforgot.entry (h ▸ Dict.mem_of_get? hc)
      rw [Agent.missCount, hc] at hfew
      exact absurd hfew (Nat.not_le.mpr (halone d c hdp hc))

end

/-- A recovered device is missed by the one reply of a pass. -/
def firstMiss : List Tick :=
  [.sync, .event (.scanned ∅), .event (.details { failedDevices := ["p0"] }),
    .event (.reconciled quietResult)]

def firstMissEnd : State :=
  ⟨{ candidates := {"p0"}, misses := ⟨[("p0", 1)], by decide⟩, dirty := true },
    .done ⟨["p0"], [], {"p0"}⟩⟩

theorem life_firstMiss : @life ⟨id⟩ ∅ (boot {"p0"}) firstMiss = some firstMissEnd := rfl

/-- The server mentions the one queried device once. -/
theorem firstMiss_served : @Served ⟨id⟩ ∅ (boot {"p0"}) firstMiss := by
  intro pre reply post u devices hsplit hu hpc
  obtain ⟨rfl, rfl⟩ : pre = [.sync, .event (.scanned ∅)] ∧
      reply = { failedDevices := ["p0"] } := by
    rcases pre with _ | ⟨a, _ | ⟨b, _ | ⟨c, _ | ⟨d, rest⟩⟩⟩⟩ <;> simp [firstMiss] at hsplit
    exact ⟨by rw [← hsplit.1, ← hsplit.2.1], hsplit.2.2.1.symm⟩
  obtain rfl := Option.some.inj hu
  obtain rfl := Pc.fetching.inj hpc
  exact List.Perm.refl _

theorem misses_exact_first : "p0" ∈ firstMissEnd.agent.candidates ∧
    firstMissEnd.agent.misses.get? "p0" = some 1 ∧ firstMissEnd.agent.dirty = true := by
  have hno : ∀ t ∈ firstMiss, ¬ t.Announces "p0" := by
    intro t ht
    rintro ⟨e, rfl, -, rfl | rfl⟩ <;> simp [firstMiss] at ht
  have hexact := @misses_exact ⟨id⟩ ∅ {"p0"} firstMissEnd firstMiss "p0" life_firstMiss
    firstMiss_served (fun id h => by simp [firstMiss] at h)
    ⟨fun pre t post hsplit ht => absurd ht (hno t (by rw [hsplit]; simp)),
      fun found h => by simp [firstMiss] at h; simp [h]⟩ (.inl (by decide))
  obtain ⟨-, hfew, -, hdirty, -⟩ := hexact
  obtain ⟨hcand, hentry⟩ := hfew (by decide)
  refine ⟨hcand, hentry, (hdirty [] [.scanned ∅, .details { failedDevices := ["p0"] },
    .reconciled quietResult] _ rfl rfl (by simp) (by decide) ?_).mpr (by decide)⟩
  intro q c hq hc
  have hin : (q, c) ∈ [("p0", 1)] := Dict.get?_eq_some.mp hc
  exact absurd (Prod.mk.inj (List.mem_singleton.mp hin)).1 hq

end Sync

end Bsdbridge
