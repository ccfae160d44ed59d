import Bsdbridge.Daemon
import Bsdbridge.Proof.Disk

/-!
# Waits, ledgers and runs of an agent

What holds of either agent, whatever its `_sync`. A wait does what its program does, and marks the
agent dirty for the casts that come in. A ledger can be kept between an agent and what is outside
of it (`Audit`). A run is any sequence of sleeps, passes and restarts (`Reached`), and no run loses
a cast, wherever in a pass it comes in (**`quiet_or_dirty`**).

The dhcp agent and the l3 agent are the same loop around different passes, so the loop is proved
about once, with the pass as a parameter. A pass is asked two things: that it does not lose casts
of its own accord, and what it keeps; both agents prove that of theirs.

Casts are compared before and after. An agent that is not dirty has completed a pass since the last
cast came in, and the pass asked the server after it: so what the cast announced is in the reply. A
pass that raises marks the agent dirty, and so does a restart.
-/

set_option autoImplicit false

namespace Bsdbridge

namespace Daemon

open Prog

/-! ## 1. Waiting -/

section

variable {κ μ σ : Type} {out : Outside κ σ}

theorem foldl_handle (l : List κ) (a : Agent μ σ) :
    l.foldl Agent.handle a = { a with dirty := a.dirty || !l.isEmpty } := by
  induction l generalizing a with
  | nil => simp
  | cons c rest ih => rw [List.foldl_cons, ih]; simp [Agent.handle]

variable (out) in
/-- The world when a wait is over. -/
def resumed (w : World μ σ) (s : Site σ) : World μ σ :=
  { disk := s.disk
    rest :=
      { w.rest with
        dirty := w.rest.dirty || !(out.fresh w.rest.outside s.rest).isEmpty
        outside := s.rest } }

/-- What is outside, of a world. -/
def below (w : World μ σ) : Site σ := { disk := w.disk, rest := w.rest.outside }

theorem exec_waits {α : Type} (p : Prog (Site σ) α) (w : World μ σ) :
    exec (waits out p) w = ((exec p (below w)).1, resumed out w (exec p (below w)).2) := by
  show (_, _) = _
  rw [foldl_handle]
  rfl

/-- A wait does what its program does. -/
theorem triple_waits {α : Type} {p : Prog (Site σ) α} {P R : World μ σ → Prop}
    {Q : α → World μ σ → Prop}
    (h : ∀ w, P w → Triple (· = below w) p (fun a s => Q a (resumed out w s))
      fun s => R (resumed out w s)) : Triple P (waits out p) Q R := by
  intro w hw
  obtain ⟨hend, hstop⟩ := h w hw (below w) rfl
  rw [exec_waits]
  refine ⟨fun a w' ha => ?_, fun w' hn => ?_⟩
  · obtain ⟨hans, rfl⟩ := Prod.mk.inj ha
    exact hend a _ (eq_of_answer hans)
  · obtain ⟨hans, rfl⟩ := Prod.mk.inj hn
    exact hstop _ (Prod.ext hans rfl)

theorem keeps_waits {α : Type} {p : Prog (Site σ) α} {I : World μ σ → Prop}
    (h : ∀ w, I w → I (resumed out w (exec p (below w)).2)) : Keeps I (waits out p) :=
  keeps_iff.mpr fun w hw => by rw [exec_waits]; exact h w hw

/-- A program that spares a file spares it while the agent waits for it. -/
theorem spares_waits {α : Type} {p : Prog (Site σ) α} {dir name : String}
    (h : Files.Spares p dir name) : Files.Spares (waits out p : Prog (World μ σ) α) dir name := by
  intro w
  rw [exec_waits]
  exact h (below w)

/-- What a reconcile keeps over the agent's world, the agent keeps by it. -/
theorem keeps_reconciled {I : World μ σ → Prop}
    {reconcile : Command (World μ σ) → Prog (World μ σ) Unit → Prog (Pass (World μ σ)) Unit}
    (h : Keeps (fun t => I t.env)
      (reconcile (fun argv => waits out (out.cmd argv)) (waits out out.pause))) :
    Keeps I (reconciled out reconcile) :=
  keeps_iff.mpr fun w hw => keeps_iff.mp h { env := w } hw

/-- The receipts of a reconcile that returns are those of its pass. -/
theorem reconciled_some {w w' : World μ σ} {receipts : List (Receipt String)}
    {reconcile : Command (World μ σ) → Prog (World μ σ) Unit → Prog (Pass (World μ σ)) Unit}
    (h : exec (reconciled out reconcile) w = (some receipts, w')) :
    ∃ t, exec (reconcile (fun argv => waits out (out.cmd argv)) (waits out out.pause))
      { env := w } = (some (), t) ∧ receipts = t.receipts ∧ w' = t.env := by
  obtain ⟨hans, rfl⟩ := Prod.mk.inj h
  obtain ⟨u, hu, rfl⟩ := Option.map_eq_some_iff.mp hans
  exact ⟨_, eq_of_answer hu, rfl, rfl⟩

end

/-! ## 2. Ledgers

What the agent does under an audit is what it does without one. -/

/-- What is outside, with a ledger. -/
structure Audit (l σ : Type) where
  ledger : l
  rest : σ

section

variable {l κ μ σ : Type}

namespace Audit

/-- What happens outside, off the ledger. -/
def through {α : Type} (p : Prog (Site σ) α) : Prog (Site (Audit l σ)) α := OptionT.mk fun s =>
  let (answer, s') := exec p { disk := s.disk, rest := s.rest.rest }
  (answer, { disk := s'.disk, rest := { s.rest with rest := s'.rest } })

/-- An entry of the ledger. -/
def enter (f : Disk → l → l) : Prog (Site (Audit l σ)) Unit := update fun s =>
  { s with rest := { s.rest with ledger := f s.disk s.rest.ledger } }

end Audit

/-- What is outside, with a ledger its commands do not show in. -/
def Outside.audited (out : Outside κ σ) : Outside κ (Audit l σ) where
  cmd argv := Audit.through (out.cmd argv)
  pause := Audit.through out.pause
  sleep := Audit.through out.sleep
  casts a := out.casts a.rest

/-- The ledger of a world. -/
def ledger (w : World μ (Audit l σ)) : l := w.rest.outside.ledger

variable {out : Outside κ (Audit l σ)} {K : μ → Prop} {entries : l}

theorem spares_through {α : Type} {p : Prog (Site σ) α} {dir name : String}
    (h : Files.Spares p dir name) :
    Files.Spares (Audit.through p : Prog (Site (Audit l σ)) α) dir name :=
  fun s => h { disk := s.disk, rest := s.rest.rest }

/-- What the agent remembers is in `K`, and the ledger has these entries. -/
def Stands (K : μ → Prop) (entries : l) (w : World μ (Audit l σ)) : Prop :=
  K w.rest.memory ∧ ledger w = entries

/-- What a call does to the ledger, on a disk in `D`, it does while the agent waits for it. -/
theorem waits_ledger {α : Type} {p : Prog (Site (Audit l σ)) α} {D : Disk → Prop}
    {Q : α → l → Prop} {R : l → Prop}
    (h : Triple (fun s => s.rest.ledger = entries ∧ D s.disk) p (fun a s => Q a s.rest.ledger)
      fun s => R s.rest.ledger) :
    Triple (fun w => Stands K entries w ∧ D w.disk) (waits out p)
      (fun a w => K w.rest.memory ∧ Q a (ledger w))
      fun w => K w.rest.memory ∧ R (ledger w) := by
  refine triple_waits fun w hw => ?_
  have hpre : ∀ s, s = below w → s.rest.ledger = entries ∧ D s.disk := by
    rintro s rfl
    exact ⟨hw.1.2, hw.2⟩
  exact h.mono hpre (fun a s hs => ⟨hw.1.1, hs⟩) fun s hs => ⟨hw.1.1, hs⟩

theorem through_ledger {α : Type} {p : Prog (Site σ) α} {D : l → Prop} :
    Keeps (fun s => D s.rest.ledger) (Audit.through p) := keeps_iff.mpr fun _ hs => hs

/-- What happens off the ledger. -/
theorem through_stands {α : Type} {p : Prog (Site σ) α} :
    Keeps (Stands K entries) (waits out (Audit.through p)) :=
  (waits_ledger (D := fun _ => True) (Q := fun _ => (· = entries)) (R := (· = entries))
    ((through_ledger (D := (· = entries))).pre fun _ hs => hs.1)).pre fun _ hw => ⟨hw, trivial⟩

theorem enter_ledger {f : Disk → l → l} {R : Site (Audit l σ) → Prop} :
    Triple (fun s => s.rest.ledger = entries) (Audit.enter f)
      (fun _ s => s.rest.ledger = f s.disk entries) R :=
  triple_update fun s hs => congrArg (f s.disk) hs

end

/-! ## 3. Runs -/

/-- What a run is remembered by: its completed passes, each from one world to another, and its
restarts. -/
inductive Mark (μ σ : Type)
  | completed (before after : World μ σ)
  | restarted

section

variable {κ μ σ : Type}

/-- The worlds of all runs that start here: the agent sleeps, makes a pass, or is restarted. -/
inductive Reached (out : Outside κ σ) (sync : Prog (World μ σ) Unit) (memory : μ) (disk : Disk)
    (outside : σ) : World μ σ → List (Mark μ σ) → Prop
  | start : Reached out sync memory disk outside (fresh memory disk outside) []
  | sleep {w : World μ σ} {marks : List (Mark μ σ)}
      (h : Reached out sync memory disk outside w marks) :
      Reached out sync memory disk outside (exec (waits out out.sleep) w).2 marks
  | failed {w w' : World μ σ} {marks : List (Mark μ σ)}
      (h : Reached out sync memory disk outside w marks) (force : Bool)
      (hrun : syncIfNeeded sync force w = (false, w')) :
      Reached out sync memory disk outside w' marks
  | completed {w w' : World μ σ} {marks : List (Mark μ σ)}
      (h : Reached out sync memory disk outside w marks) (force : Bool)
      (hrun : syncIfNeeded sync force w = (true, w')) :
      Reached out sync memory disk outside w' (marks ++ [.completed w w'])
  | restart {w : World μ σ} {marks : List (Mark μ σ)}
      (h : Reached out sync memory disk outside w marks) :
      Reached out sync memory disk outside (fresh memory w.disk w.rest.outside)
        (marks ++ [.restarted])

variable {out : Outside κ σ} {sync : Prog (World μ σ) Unit} {w w' : World μ σ} {force : Bool}

/-- What a pass that completes says of `_sync`. -/
theorem syncIfNeeded_true (h : syncIfNeeded sync force w = (true, w')) :
    ∃ w₁, exec sync { w with rest := { w.rest with dirty := false } } = (some (), w₁) ∧
      w' = { w₁ with rest := { w₁.rest with failures := 0 } } := by
  unfold syncIfNeeded at h
  split at h
  · split at h
    · rename_i u w₁ hrun
      obtain ⟨-, rfl⟩ := Prod.mk.inj h
      exact ⟨w₁, hrun, rfl⟩
    · exact absurd (Prod.mk.inj h).1 (by simp)
  · exact absurd (Prod.mk.inj h).1 (by simp)

/-- And what any other says: there was no pass, or it stopped and will be tried again. -/
theorem syncIfNeeded_false (h : syncIfNeeded sync force w = (false, w')) :
    w' = w ∨ ∃ w₁, exec sync { w with rest := { w.rest with dirty := false } } = (none, w₁) ∧
      w' = retry w₁ := by
  unfold syncIfNeeded at h
  split at h
  · split at h
    · exact absurd (Prod.mk.inj h).1 (by simp)
    · rename_i w₁ hrun
      obtain ⟨-, rfl⟩ := Prod.mk.inj h
      exact .inr ⟨w₁, hrun, rfl⟩
  · obtain ⟨-, rfl⟩ := Prod.mk.inj h
    exact .inl rfl

/-! ## 4. Casts -/

variable (out) in
/-- The program forgets no cast that has come in. -/
def Adds {α : Type} (p : Prog (Site σ) α) : Prop :=
  ∀ s, out.casts s.rest <+: out.casts (exec p s).2.rest

/-- Nothing outside forgets a cast. -/
structure Outside.Remembers (out : Outside κ σ) : Prop where
  cmd : ∀ argv, Adds out (out.cmd argv)
  pause : Adds out out.pause
  sleep : Adds out out.sleep

variable (out) in
/-- A clean agent has heard nothing since `heard`. -/
def Quiet (heard : List κ) (w : World μ σ) : Prop :=
  heard <+: out.casts w.rest.outside ∧
    (w.rest.dirty = false → out.casts w.rest.outside = heard)

variable {heard : List κ}

/-- A cast that comes in while the agent waits makes it dirty. -/
theorem waits_quiet {α : Type} {p : Prog (Site σ) α} (h : Adds out p) :
    Keeps (Quiet out heard) (waits out p : Prog (World μ σ) α) := by
  refine keeps_waits fun w hw => ?_
  have hadds : out.casts w.rest.outside <+: out.casts (exec p (below w)).2.rest := h (below w)
  refine ⟨hw.1.trans hadds, fun hclean => ?_⟩
  obtain ⟨hold, hnone⟩ : w.rest.dirty = false ∧
      (out.fresh w.rest.outside (exec p (below w)).2.rest) = [] := by
    simpa [resumed] using hclean
  obtain ⟨new, hnew⟩ := hadds
  show out.casts (exec p (below w)).2.rest = heard
  have hempty : new = [] := by
    unfold Outside.fresh at hnone
    rw [← hnew, List.drop_left] at hnone
    exact hnone
  rw [← hnew, hempty, List.append_nil]
  exact hw.2 hold

/-- A reconcile whose pass keeps what its commands keep loses no cast. -/
theorem reconciled_quiet (h : out.Remembers)
    {reconcile : Command (World μ σ) → Prog (World μ σ) Unit → Prog (Pass (World μ σ)) Unit}
    (hkeeps : ∀ (J : World μ σ → Prop) cmd pause, (∀ argv, Keeps J (cmd argv)) →
      (∀ f : Disk → Disk,
        Keeps J do pause; update fun e : World μ σ => { e with disk := f e.disk }) →
      Keeps (fun t => J t.env) (reconcile cmd pause)) :
    Keeps (Quiet out heard) (reconciled out reconcile) :=
  keeps_reconciled (hkeeps _ _ _ (fun argv => waits_quiet (h.cmd argv)) fun _ =>
    (waits_quiet h.pause).bind fun _ => keeps_update fun _ hw => hw)

/-- **No cast is lost.** An agent that is clean has completed a pass, and nothing has been cast
since before that pass began. -/
theorem quiet_or_dirty (hsleep : Adds out out.sleep)
    (hsync : ∀ heard, Keeps (Quiet out heard) sync) {memory : μ} {disk : Disk} {outside : σ}
    {marks : List (Mark μ σ)} (h : Reached out sync memory disk outside w marks) :
    w.rest.dirty = true ∨ ∃ before after, marks.getLast? = some (.completed before after) ∧
      out.casts w.rest.outside = out.casts before.rest.outside := by
  have hquiet : ∀ (w : World μ σ) dirty, Quiet out (out.casts w.rest.outside)
      { w with rest := { w.rest with dirty } } := fun w dirty =>
    ⟨List.prefix_refl _, fun _ => rfl⟩
  induction h with
  | start => exact .inl rfl
  | sleep h ih =>
    rename_i w marks
    have hafter := keeps_iff.mp (waits_quiet hsleep) w (hquiet w w.rest.dirty)
    cases hclean : (exec (waits out out.sleep) w).2.rest.dirty with
    | true => exact .inl rfl
    | false =>
      right
      have hwas : w.rest.dirty = false := by
        rw [exec_waits] at hclean
        exact (Bool.or_eq_false_iff.mp hclean).1
      rcases ih with hdirty | ⟨before, after, hlast, hcasts⟩
      · rw [hwas] at hdirty
        exact absurd hdirty Bool.false_ne_true
      · exact ⟨before, after, hlast, (hafter.2 hclean).trans hcasts⟩
  | failed _ force hrun ih =>
    rcases syncIfNeeded_false hrun with rfl | ⟨w₁, -, rfl⟩
    · exact ih
    · exact .inl rfl
  | completed h force hrun ih =>
    rename_i w w' marks
    obtain ⟨w₁, hpass, rfl⟩ := syncIfNeeded_true hrun
    have hafter := (hsync _).of_some (hquiet w false) hpass
    cases hclean : w₁.rest.dirty with
    | true => exact .inl rfl
    | false =>
      exact .inr ⟨w, _, List.getLast?_concat, hafter.2 hclean⟩
  | restart _ _ => exact .inl rfl

end

end Daemon

end Bsdbridge
