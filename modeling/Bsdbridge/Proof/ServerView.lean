import Bsdbridge.Proof.Announce

/-!
# The server's view of up ports

A server that applies the reports it is sent, but for the devices it refuses, next to the agent
that sends them. The agent remembers in `devicesUp` what it last reported up, and reports down what
has left that set since. The set is replaced when a report returns, whatever the report returned;
and not when a report raises, whether or not the server applied it. So there are two ways for the
server to hold a device up that the agent has forgotten, and **`covered_of_heard`** says that there
are no others.

The server is no part of the repository. Its share here is a set of devices that it holds up and a
`Delivery` that comes with each report: whether it was applied, and which devices were refused in
it. `hear` is what the set becomes, so the pair of agent and set is one state machine and `Reached`
its reachable states; the condition on a run is a condition on each of its steps.

## What the two ways are

A report that raises after the server applied it, with a device in its up list that the agent does
not count as up yet: the answer was lost, the agent keeps the old set. And a server that refuses a
device of the down list while it holds it up: the agent has replaced its set by then and does not
read the refusals. `Heard` names both, and nothing is asked of the other steps. A report that is
lost on its way, refusals of up devices, and exceptions elsewhere in a pass are all harmless.
-/

set_option autoImplicit false

namespace Bsdbridge

namespace Sync

/-! ## 1. The server

A raised report may have been applied: the answer is what was lost, not the call. -/

/-- What becomes of a report: whether the server applies it, and the devices it refuses. -/
structure Delivery where
  applied : Bool := true
  failedUp : Finset String := ∅
  failedDown : Finset String := ∅

/-- The devices a server holds up once it has applied a report. -/
def Delivery.apply (d : Delivery) (held up down : Finset String) : Finset String :=
  (held ∪ (up \ d.failedUp)) \ (down \ d.failedDown)

/-- The report a state waits for: the devices up, and those that are not up any more. -/
def report (s : State) : Option (Finset String × Finset String) :=
  match s.pc with
  | .reporting _ up => some (up, s.agent.devicesUp \ up)
  | _ => none

/-- What the server holds up after a step. A report that returns was applied; one that raises may
have been. -/
def hear (s : State) (e : Event) (d : Delivery) (held : Finset String) : Finset String :=
  match report s, e with
  | some (up, down), .reported => d.apply held up down
  | some (up, down), .raised => if d.applied then d.apply held up down else held
  | _, _ => held

/-! ## 2. Runs

Callbacks and new passes change the agent and not the server, so they are constructors of their
own. -/

section

variable [Hashlib] (mappings : Dict String String)
  (ok : State → Event → Delivery → Finset String → Prop)

/-- The agent and what the server holds up, over any passes from a fresh agent on, whose steps are
all `ok`. Callbacks also run between passes. -/
inductive Reached : State → Finset String → Prop
  | fresh (a : Agent) : a.devicesUp = ∅ → Reached (start a) ∅
  | step {s s' : State} {held : Finset String} (e : Event) (d : Delivery) : Reached s held →
      step mappings s e = some s' → ok s e d held → Reached s' (hear s e d held)
  | between {s : State} {held : Finset String} (c : Callback) : Reached s held → ¬ s.pc.live →
      Reached ⟨s.agent.callback c, s.pc⟩ held
  | next {s : State} {held : Finset String} : Reached s held → ¬ s.pc.live →
      Reached (start s.agent) held

end

/-- A report that raises after the server applied it brought no device up that the agent does not
already count as up; and the server refuses no device it is told is down while it holds it up. -/
def Heard (s : State) (e : Event) (d : Delivery) (held : Finset String) : Prop :=
  ∀ up down, report s = some (up, down) →
    match e with
    | .reported => ∀ p ∈ down, p ∈ d.failedDown → p ∉ held
    | .raised => d.applied = true → ∀ p ∈ up, p ∉ d.failedUp → p ∈ s.agent.devicesUp
    | _ => True

/-! ## 3. What the agent counts as up

One lemma for each part of the pass says that it leaves `devicesUp` alone, and `step_devicesUp`
is what remains: the set changes where a report returns, and there it becomes what was reported. -/

section

variable [Hashlib] {mappings : Dict String String}

theorem desire_devicesUp {a : Agent} {w : Work} {info : SgInfo} :
    (desire mappings a w info).agent.devicesUp = a.devicesUp := by
  unfold desire
  split <;> rfl

theorem resolve_devicesUp {a : Agent} {w : Work} :
    (resolve mappings a w).agent.devicesUp = a.devicesUp := by
  unfold resolve
  split
  · exact desire_devicesUp
  · rfl

theorem snapshot_devicesUp {a : Agent} {found : Finset String} :
    (snapshot mappings a found).agent.devicesUp = a.devicesUp := by
  unfold snapshot
  dsimp only
  split
  · exact resolve_devicesUp
  · rfl

theorem received_devicesUp {a : Agent} {devices : List String} {reply : Reply} :
    (received mappings a devices reply).agent.devicesUp = a.devicesUp := by
  unfold received
  exact resolve_devicesUp.trans receive_devicesUp

omit [Hashlib] in
/-- A pass that ends without a report had none to send, and counts the same devices as up. -/
theorem settle_devicesUp {a : Agent} {w : Work} {rendered : List String}
    {result : Reconcile.Result} :
    (settle a w rendered result).agent.devicesUp = a.devicesUp := by
  unfold settle
  split
  · rfl
  · dsimp only
    split
    · rfl
    · rename_i hnone
      rw [not_or, not_not, not_not] at hnone
      obtain ⟨hup, hdown⟩ := hnone
      rw [hup, Finset.sdiff_empty] at hdown
      show nowUp rendered result.plan.notes = a.devicesUp
      rw [hup, hdown]

omit [Hashlib] in
theorem callback_devicesUp (a : Agent) (c : Callback) :
    (a.callback c).devicesUp = a.devicesUp := by
  have htrack : ∀ id, (a.track id).devicesUp = a.devicesUp := fun _ => rfl
  have hdelete : ∀ id, (a.portDelete id).devicesUp = a.devicesUp := by
    intro id
    unfold Agent.portDelete
    split <;> rfl
  cases c with
  | portUpdate id => exact htrack id
  | portDelete id => exact hdelete id
  | bindingActivate id => exact htrack id
  | notify => rfl

/-- The agent counts as up what it has just reported; no other step changes the set. -/
theorem step_devicesUp {s s' : State} {e : Event} (h : step mappings s e = some s') :
    (∃ up down, report s = some (up, down) ∧ e = .reported ∧ s'.agent.devicesUp = up) ∨
      (s'.agent.devicesUp = s.agent.devicesUp ∧ ∀ up down, report s = some (up, down) →
        e ≠ .reported) := by
  obtain ⟨a, pc⟩ := s
  unfold step at h
  split at h
  · exact absurd h (by simp)
  · exact absurd h (by simp)
  · obtain rfl := Option.some.inj h
    exact Or.inr ⟨callback_devicesUp _ _, fun _ _ _ => by simp⟩
  · obtain rfl := Option.some.inj h
    exact Or.inr ⟨rfl, fun _ _ _ => by simp⟩
  · obtain rfl := Option.some.inj h
    exact Or.inr ⟨snapshot_devicesUp, fun _ _ _ => by simp⟩
  · obtain rfl := Option.some.inj h
    exact Or.inr ⟨received_devicesUp, fun _ _ _ => by simp⟩
  · obtain rfl := Option.some.inj h
    exact Or.inr ⟨desire_devicesUp, fun _ _ _ => by simp⟩
  · obtain rfl := Option.some.inj h
    exact Or.inr ⟨settle_devicesUp, fun _ _ _ => by simp⟩
  · rename_i w up hpc
    obtain rfl := Option.some.inj h
    dsimp only at hpc
    subst hpc
    exact Or.inl ⟨up, _, rfl, rfl, rfl⟩
  · exact absurd h (by simp)

/-- In a run whose reports are heard, the server holds up only what the agent counts as up. -/
theorem held_subset {s : State} {held : Finset String}
    (h : Reached mappings Heard s held) : held ⊆ s.agent.devicesUp := by
  induction h with
  | fresh a ha => exact Finset.empty_subset _
  | between c _ _ ih => exact ih.trans (callback_devicesUp _ c).symm.subset
  | next _ _ ih => exact ih
  | @step s s' held e d _ hstep hok ih =>
    rcases step_devicesUp hstep with ⟨up, down, hrep, rfl, hup⟩ | ⟨hsame, hne⟩
    · -- the report returned: what was held and is not up any more was on the down list
      rw [hup]
      have hdown : down = s.agent.devicesUp \ up := by
        unfold report at hrep
        split at hrep
        · obtain ⟨rfl, rfl⟩ := Prod.mk.inj (Option.some.inj hrep)
          rfl
        · exact absurd hrep (by simp)
      have hheard := hok up down hrep
      intro p hp
      unfold hear at hp
      rw [hrep] at hp
      obtain ⟨hin, hout⟩ := Finset.mem_sdiff.mp hp
      rcases Finset.mem_union.mp hin with hheld | hnew
      · by_contra hnot
        have hpd : p ∈ down := hdown ▸ Finset.mem_sdiff.mpr ⟨ih hheld, hnot⟩
        refine hout (Finset.mem_sdiff.mpr ⟨hpd, fun hfail => ?_⟩)
        exact hheard p hpd hfail hheld
      · exact (Finset.mem_sdiff.mp hnew).1
    · rw [hsame]
      intro p hp
      unfold hear at hp
      split at hp
      · rename_i up down hrep
        exact absurd rfl (hne up down hrep)
      · rename_i up down hrep
        split at hp
        · rename_i happlied
          rcases Finset.mem_union.mp (Finset.mem_sdiff.mp hp).1 with hheld | hnew
          · exact ih hheld
          · obtain ⟨hpu, hpf⟩ := Finset.mem_sdiff.mp hnew
            exact hok up down hrep happlied p hpu hpf
        · exact ih hp
      · exact ih hp

/-- **In every run whose reports are heard, every device the server holds up is one the agent
counts as up**, at the end of a pass as at any point of it; so the next down list has it once it is
not up. -/
theorem covered_of_heard {s : State} {held : Finset String}
    (h : Reached mappings Heard s held) : held ⊆ s.agent.devicesUp ∧
      ∀ up down, report s = some (up, down) → held \ up ⊆ down := by
  refine ⟨held_subset h, fun up down hrep => ?_⟩
  unfold report at hrep
  split at hrep
  · obtain ⟨rfl, rfl⟩ := Prod.mk.inj (Option.some.inj hrep)
    exact Finset.sdiff_subset_sdiff (held_subset h) (Finset.Subset.refl _)
  · exact absurd hrep (by simp)

end

/-! ## 4. Two runs

A port that is reported as it should be, and a port whose report is applied while its answer is
lost: the server holds it up, and no later report of the agent will mention it. -/

/-- The pass of a port, up to its report. -/
theorem reached_report (ok : State → Event → Delivery → Finset String → Prop)
    (h : ∀ s e d held, report s = none → ok s e d held) :
    @Reached ⟨id⟩ ∅ ok ⟨{ candidates := {"p0"}, dirty := false },
      .reporting ⟨["p0"], [lateDetails], ∅⟩ {"p0"}⟩ ∅ := by
  let _ : Hashlib := ⟨id⟩
  have h₀ : Reached ∅ ok (start { candidates := {"p0"} }) ∅ := .fresh _ rfl
  have h₁ := Reached.step (.scanned ∅) {} h₀ rfl (h _ _ _ _ rfl)
  have h₂ := Reached.step (.details { devices := [.bound lateDetails] }) {} h₁ rfl (h _ _ _ _ rfl)
  have h₃ := Reached.step (.groups {}) {} h₂ rfl (h _ _ _ _ rfl)
  exact Reached.step (.reconciled quietResult) {} h₃ rfl (h _ _ _ _ rfl)

theorem heard_of_silent {s : State} {e : Event} {d : Delivery} {held : Finset String}
    (h : report s = none) : Heard s e d held := by
  intro up down hrep
  rw [h] at hrep
  exact absurd hrep (by simp)

/-- The agent that has reported the port. -/
def upEnd : State :=
  ⟨{ candidates := {"p0"}, devicesUp := {"p0"}, dirty := false }, .done ⟨["p0"], [lateDetails], ∅⟩⟩

/-- The port is reported, and the server hears of it. -/
theorem covered_of_heard_up :
    ({"p0"} : Finset String) ⊆ upEnd.agent.devicesUp ∧
      ∀ up down, report upEnd = some (up, down) → {"p0"} \ up ⊆ down :=
  @covered_of_heard ⟨id⟩ ∅ upEnd {"p0"}
    (@Reached.step ⟨id⟩ ∅ Heard _ _ _ .reported {} (reached_report Heard fun _ _ _ _ => heard_of_silent)
      rfl (fun _ _ _ p _ hfail => absurd hfail (Finset.notMem_empty p)))

/-- The report of a port is applied, but its answer is lost: the server holds a device up that the
agent does not know of. -/
theorem up_forgotten : ¬ ∀ (inst : Hashlib) (mappings : Dict String String) (s : State)
    (held : Finset String), @Reached inst mappings (fun _ _ _ _ => True) s held →
    ¬ s.pc.live → held ⊆ s.agent.devicesUp := by
  intro hall
  have hlost := hall ⟨id⟩ ∅ _ {"p0"}
    (@Reached.step ⟨id⟩ ∅ _ _ _ _ .raised {} (reached_report _ fun _ _ _ _ _ => trivial) rfl trivial)
    (fun h => h)
  exact absurd (hlost (Finset.mem_singleton_self "p0")) (by decide)

end Sync

end Bsdbridge
