import Bsdbridge.Proof.Plumbing

/-!
# A record of what was run

What a pass has done to a kernel is, to anyone who cannot look into the kernel, the list of the
commands it ran and of the answers it got. `Traced.cmd` is any runner whatever, with that list kept
beside its environment: the answers and the effects are the runner's own, so what holds of a pass
over it holds of the commands of every pass.

`Told` is the shape of most that can be said of such a list: each command was allowed by what had
been run and answered before it. It is an inductive predicate over the list from its front, as the
list grows at its end, and `Told` of a longer record is `Told` of the shorter one and one command
more.

A command that stops the pass is on the record with no answer. Steps that are no command, such as a
write to the disk, are not on it.
-/

set_option autoImplicit false

namespace Bsdbridge

open Prog Actions

/-- What was run, with what was answered: nothing, where the pass stopped. -/
abbrev Log := List (Argv × Option RunResult)

/-- An environment with its record. -/
structure Traced (ρ : Type) where
  rest : ρ
  log : Log := []

namespace Traced

variable {ρ : Type}

/-- The environment, without its record. -/
def bare (e : Site (Traced ρ)) : Site ρ := { disk := e.disk, rest := e.rest.rest }

/-- A runner that keeps the record. -/
def cmd (run : Command (Site ρ)) : Command (Site (Traced ρ)) := fun argv => OptionT.mk fun e =>
  ((exec (run argv) (bare e)).1,
    { disk := (exec (run argv) (bare e)).2.disk
      rest := { rest := (exec (run argv) (bare e)).2.rest
                log := e.rest.log ++ [(argv, (exec (run argv) (bare e)).1)] } })

/-- A step that is no command is not recorded. -/
def pause (stop : Prog (Site ρ) Unit) : Prog (Site (Traced ρ)) Unit := OptionT.mk fun e =>
  ((exec stop (bare e)).1,
    { disk := (exec stop (bare e)).2.disk
      rest := { rest := (exec stop (bare e)).2.rest, log := e.rest.log } })

end Traced

section

variable {ρ : Type}

/-- The record of a pass so far. -/
def Pass.log (t : Pass (Site (Traced ρ))) : Log := t.env.rest.log

/-- Each command was allowed by the record before it. -/
inductive Told (allowed : Log → Argv → Prop) : Log → Prop
  | nil : Told allowed []
  | snoc {log : Log} {argv : Argv} {answer : Option RunResult} :
      Told allowed log → allowed log argv → Told allowed (log ++ [(argv, answer)])

theorem Told.of_append {allowed : Log → Argv → Prop} {log post : Log}
    (h : Told allowed (log ++ post)) : Told allowed log := by
  induction post using List.reverseRecOn with
  | nil => rwa [List.append_nil] at h
  | append_singleton post e ih =>
    rw [← List.append_assoc] at h
    generalize hl : log ++ post ++ [e] = l at h
    cases h with
    | nil => exact absurd hl (by simp)
    | snoc hrest =>
      obtain ⟨rfl, -⟩ := List.append_inj' hl rfl
      exact ih hrest

/-- A command of a record was allowed by what stands before it. -/
theorem Told.allowed {allowed : Log → Argv → Prop} {log pre post : Log} {argv : Argv}
    {answer : Option RunResult} (h : Told allowed log)
    (hl : log = pre ++ (argv, answer) :: post) : allowed pre argv := by
  have hsplit : log = pre ++ [(argv, answer)] ++ post := by rw [hl, List.append_assoc]; rfl
  rw [hsplit] at h
  generalize hl' : pre ++ [(argv, answer)] = l at h
  cases h.of_append with
  | nil => exact absurd hl' (by simp)
  | snoc _ hallowed =>
    obtain ⟨rfl, he⟩ := List.append_inj' hl' rfl
    obtain ⟨rfl, -⟩ := Prod.mk.inj (List.singleton_inj.mp he)
    exact hallowed

/-! ## What a step adds to the record -/

variable {cmd : Command (Site ρ)} {argv : Argv} {t : Pass (Site (Traced ρ))}

theorem log_run : (exec (run (Traced.cmd cmd) argv) t).2.log =
    t.log ++ [(argv, (exec (run (Traced.cmd cmd) argv) t).1)] := rfl

/-- A command has been run, and answered. -/
theorem run_logged {P : Pass (Site (Traced ρ)) → Prop} :
    Triple P (run (Traced.cmd cmd) argv) (fun r t => (argv, some r) ∈ t.log) fun _ => True := by
  intro t _
  refine ⟨fun r t' hr => ?_, fun _ _ => trivial⟩
  have hlog : (exec (run (Traced.cmd cmd) argv) t).2.log = _ := log_run
  rw [hr] at hlog
  show (argv, some r) ∈ t'.log
  rw [show t'.log = t.log ++ [(argv, some r)] from hlog]
  exact List.mem_append_right _ List.mem_cons_self

/-- What a longer record says too, is kept. -/
theorem closed_log {s : Scope (Site (Traced ρ))} (φ : Log → Prop)
    (hφ : ∀ log l, φ log → φ (log ++ l))
    (heffects : ∀ p, s.effects p → ∀ s, (exec p s).2.rest.log = s.rest.log) :
    Closed (Traced.cmd cmd) s (fun t => φ t.log) where
  run := fun argv _ => keeps_iff.mpr fun t ht => by
    rw [log_run]
    exact hφ t.log _ ht
  effect := fun p hp => keeps_iff.mpr fun t ht => by
    have hlog : (exec (Pass.zoom p) t).2.log = t.log := heffects p hp t.env
    rwa [hlog]
  record := fun _ _ ht => ht
  addJail := fun _ _ _ ht => ht
  addHostIf := fun _ _ _ ht => ht
  discardHostIf := fun _ _ ht => ht

end

end Bsdbridge
