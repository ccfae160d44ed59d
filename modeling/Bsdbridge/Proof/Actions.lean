import Bsdbridge.Jail

/-!
# What an action does to a pass

Each of `Actions`' methods as an equation on the state, and the rule an invariant of a pass needs:
a method keeps whatever its command keeps and a new receipt keeps.

The state of a pass is the environment of its commands, the receipts so far, and the names it
carries along for the collection. A method runs one command, or none when it only leaves a note,
and appends one receipt. It never reads the receipts; the one question that is asked of them is at
the end of a pass, whether any failed, and `Clean` is that question. A pass that is clean at its
end was clean all the way, so a proof about passes without failures can assume it at every step.
-/

set_option autoImplicit false

namespace Bsdbridge

namespace Actions

open Prog

variable {ε : Type} {cmd : Command ε}

/-! ## 1. The answers -/

@[simp] theorem good_zero (r : RunResult) : good [0] r = r.ok := by
  simp [good, RunResult.ok]

theorem exec_zoom {α : Type} (p : Prog ε α) (t : Pass ε) : exec (Pass.zoom p) t =
    ((exec p t.env).1, { t with env := (exec p t.env).2 }) := rfl

theorem exec_run (argv : Argv) (t : Pass ε) : exec (run cmd argv) t =
    ((exec (cmd argv) t.env).1, { t with env := (exec (cmd argv) t.env).2 }) := rfl

/-- What a command that answered leaves behind. -/
def ranTo (t : Pass ε) (label : String) (argv : Argv) (okRcs : List Int) (r : RunResult) (e : ε) :
    Pass ε :=
  ({ t with env := e } : Pass ε).record
    { op := label, argv, executed := true, ok := good okRcs r,
      note := if good okRcs r then "" else Text.strip r.err }

@[simp] theorem ranTo_env (t : Pass ε) (label : String) (argv : Argv) (okRcs : List Int)
    (r : RunResult) (e : ε) : (ranTo t label argv okRcs r e).env = e := rfl

@[simp] theorem ranTo_jails (t : Pass ε) (label : String) (argv : Argv) (okRcs : List Int)
    (r : RunResult) (e : ε) : (ranTo t label argv okRcs r e).jails = t.jails := rfl

@[simp] theorem ranTo_hostIfs (t : Pass ε) (label : String) (argv : Argv) (okRcs : List Int)
    (r : RunResult) (e : ε) : (ranTo t label argv okRcs r e).hostIfs = t.hostIfs := rfl

theorem exec_perform (label : String) (argv : Argv) (okRcs : List Int) (t : Pass ε) :
    exec (perform cmd label argv okRcs) t =
      match exec (cmd argv) t.env with
      | (some r, e) => (some (good okRcs r, r.out), ranTo t label argv okRcs r e)
      | (none, e) => (none, { t with env := e }) := by
  unfold perform
  rw [exec_bind, exec_run]
  generalize exec (cmd argv) t.env = a
  obtain ⟨r, e⟩ := a
  cases r with
  | none => rfl
  | some r => rfl

/-- An action whose command answers. -/
theorem exec_perform_some {label : String} {argv : Argv} {okRcs : List Int} {t : Pass ε}
    {r : RunResult} {e : ε} (h : exec (cmd argv) t.env = (some r, e)) :
    exec (perform cmd label argv okRcs) t =
      (some (good okRcs r, r.out), ranTo t label argv okRcs r e) := by
  rw [exec_perform, h]

theorem exec_act {label : String} {argv : Argv} {t : Pass ε} {r : RunResult} {e : ε}
    (h : exec (cmd argv) t.env = (some r, e)) :
    exec (act cmd label argv) t = (some (), ranTo t label argv [0] r e) := by
  unfold act
  rw [exec_bind, exec_perform_some h]
  rfl

/-! ## 2. Invariants -/

/-- What a part of a pass may do: the commands it may issue, what else it may do to the
environment, and the names it may add to the two sets of the pass. -/
structure Scope (ε : Type) where
  issues : Argv → Prop
  effects : Prog ε Unit → Prop := fun _ => False
  jails : String → Prop := fun _ => False
  hostIfs : String → Prop := fun _ => False

/-- Nothing a part of a pass may do breaks `I`. -/
structure Closed (cmd : Command ε) (s : Scope ε) (I : Pass ε → Prop) : Prop where
  run : ∀ argv, s.issues argv → Keeps I (run cmd argv)
  effect : ∀ p, s.effects p → Keeps I (Pass.zoom p)
  record : ∀ t r, I t → I (t.record r)
  addJail : ∀ t n, s.jails n → I t → I (t.addJail n)
  addHostIf : ∀ t n, s.hostIfs n → I t → I (t.addHostIf n)
  discardHostIf : ∀ t n, I t → I (t.discardHostIf n)

/-- A program that does no more than `s` says. -/
def Within {α : Type} (cmd : Command ε) (s : Scope ε) (p : Prog (Pass ε) α) : Prop :=
  ∀ I, Closed cmd s I → Keeps I p

section Within

variable {α β : Type} {s : Scope ε} {p : Prog (Pass ε) α}

theorem within_pure {a : α} : Within cmd s (pure a) := fun _ _ => keeps_pure

theorem within_look {f : Pass ε → α} : Within cmd s (look f) := fun _ _ => keeps_look

theorem within_stop : Within cmd s (stop : Prog (Pass ε) α) := fun _ _ => keeps_stop

theorem Within.bind {f : α → Prog (Pass ε) β} (hp : Within cmd s p)
    (hf : ∀ a, Within cmd s (f a)) : Within cmd s (p >>= f) :=
  fun I hI => (hp I hI).bind fun a => hf a I hI

theorem within_forM {l : List α} {f : α → Prog (Pass ε) Unit}
    (h : ∀ a ∈ l, Within cmd s (f a)) : Within cmd s (l.forM f) :=
  fun I hI => keeps_forM fun a ha => h a ha I hI

theorem within_run {argv : Argv} (h : s.issues argv) : Within cmd s (run cmd argv) :=
  fun _ hI => hI.run argv h

theorem within_effect {p : Prog ε Unit} (h : s.effects p) : Within cmd s (Pass.zoom p) :=
  fun _ hI => hI.effect p h

theorem within_perform {label : String} {argv : Argv} {okRcs : List Int} (h : s.issues argv) :
    Within cmd s (perform cmd label argv okRcs) := by
  intro I hI
  unfold perform
  exact (hI.run argv h).bind fun r =>
    (keeps_update fun t ht => hI.record t _ ht).bind fun _ => keeps_pure

theorem within_act {label : String} {argv : Argv} (h : s.issues argv) :
    Within cmd s (act cmd label argv) :=
  (within_perform h).bind fun _ => within_pure

theorem within_actIf {drift : Bool} {label : String} {argv : Argv} (h : s.issues argv) :
    Within cmd s (actIf cmd drift label argv) := by
  unfold actIf
  split
  · exact within_act h
  · exact within_pure

theorem within_note {label text : String} :
    Within cmd s (note label text : Prog (Pass ε) Unit) :=
  fun _ hI => keeps_update fun t ht => hI.record t _ ht

end Within

/-! ## 3. Passes without failures -/

/-- No receipt has failed. -/
def Clean (t : Pass ε) : Prop := ∀ r ∈ t.receipts, r.ok = true

instance (t : Pass ε) : Decidable (Clean t) :=
  inferInstanceAs (Decidable (∀ r ∈ t.receipts, r.ok = true))

/-- A failed receipt stays. -/
theorem closed_failed (s : Scope ε) : Closed cmd s (fun t : Pass ε => ¬ Clean t) where
  run := by
    intro argv _
    refine keeps_iff.mpr fun t ht => ?_
    rw [exec_run]
    exact ht
  effect := by
    intro p _
    refine keeps_iff.mpr fun t ht => ?_
    rw [exec_zoom]
    exact ht
  record := by
    intro t r ht hclean
    exact ht fun r' hr' => hclean r' (List.mem_append_left _ hr')
  addJail := fun _ _ _ ht => ht
  addHostIf := fun _ _ _ ht => ht
  discardHostIf := fun _ _ ht => ht

/-- A part of a pass that ends without a failure started without one. -/
theorem clean_of_keeps {α : Type} {p : Prog (Pass ε) α} (h : Keeps (fun t => ¬ Clean t) p)
    {t t' : Pass ε} {a : α} (hrun : exec p t = (some a, t')) (hc : Clean t') : Clean t := by
  by_contra ht
  exact h.of_some ht hrun hc

/-- In a pass without failures an action's command has answered well. -/
theorem act_clean {label : String} {argv : Argv} {t t' : Pass ε}
    (h : exec (act cmd label argv) t = (some (), t')) (hc : Clean t') :
    ∃ r e, exec (cmd argv) t.env = (some r, e) ∧ r.ok = true ∧
      t' = ranTo t label argv [0] r e := by
  unfold act at h
  rw [exec_bind, exec_perform] at h
  cases hcmd : exec (cmd argv) t.env with
  | mk a e =>
    rw [hcmd] at h
    cases a with
    | none => exact absurd (Prod.mk.inj h).1 (by simp)
    | some r =>
      obtain ⟨-, rfl⟩ := Prod.mk.inj h
      refine ⟨r, e, rfl, ?_, rfl⟩
      have hok := hc _ (List.mem_append_right _ (List.mem_singleton.mpr rfl))
      rw [← good_zero]
      exact hok

/-- In a pass without failures an action on drift was not due, or its command has answered well. -/
theorem actIf_clean {drift : Bool} {label : String} {argv : Argv} {t t' : Pass ε}
    (h : exec (actIf cmd drift label argv) t = (some (), t')) (hc : Clean t') :
    (drift = true ∧ ∃ r, exec (cmd argv) t.env = (some r, t'.env) ∧ r.ok = true) ∨
      (drift = false ∧ t' = t) := by
  unfold actIf at h
  split at h
  · rename_i hdrift
    obtain ⟨r, e, hcmd, hok, rfl⟩ := act_clean h hc
    exact .inl ⟨hdrift, r, hcmd, hok⟩
  · rename_i hdrift
    obtain ⟨-, rfl⟩ := Prod.mk.inj h
    exact .inr ⟨by simpa using hdrift, rfl⟩

end Actions

end Bsdbridge
