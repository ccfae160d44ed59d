import Bsdbridge.Proof.Plumbing

/-!
# What a part of a pass changes on the disk

`Calm` is the scope of a part of a pass by what it does to the disk: it may run any command, and
makes only those changes of the disk that are in a set. With it goes what the rest of a pass leaves
alone, a file that is written elsewhere (`closed_holds`) or all that the commands keep
(`closed_env`).

A change of the disk is a function on disks, and a set of them is described by what its members do
to the file in question. Whether a file was written, removed or left depends on the change alone,
so frames compose over the steps of a pass without looking at what the commands answered.
-/

set_option autoImplicit false

namespace Bsdbridge

open Prog Actions

/-! ## 1. Changes -/

namespace Files

section

variable {ρ : Type} {cmd : Command (Site ρ)} {pause : Prog (Site ρ) Unit}
  {F : (Disk → Disk) → Prop}

/-- Any commands, and those changes of the disk that are in `F`. -/
def Calm (pause : Prog (Site ρ) Unit) (F : (Disk → Disk) → Prop) : Scope (Site ρ) where
  issues _ := True
  effects p := ∃ f, F f ∧ p = do pause; update fun e : Site ρ => { e with disk := f e.disk }
  jails _ := True
  hostIfs _ := True

theorem change_calm {f : Disk → Disk} (hf : F f) : Within cmd (Calm pause F) (change pause f) :=
  within_effect ⟨f, hf, rfl⟩

theorem writeIfChanged_calm {dir name text : String} (hf : F fun d => d.write dir name text) :
    Within cmd (Calm pause F) (writeIfChanged pause dir name text) := by
  unfold writeIfChanged
  refine within_look.bind fun old => ?_
  split
  · exact within_pure
  · exact (change_calm hf).bind fun _ => within_pure

theorem removeState_calm {desiredDirs : Finset String}
    (hf : ∀ dir, dir ∉ desiredDirs → F fun d => d.erase dir) :
    Within cmd (Calm pause F) (removeState pause desiredDirs) := by
  refine within_look.bind fun present => within_forM fun dir hdir => ?_
  have hun : dir ∉ desiredDirs := (Finset.mem_sdiff.mp (mem_sortedSet.mp hdir)).2
  exact (change_calm (hf dir hun)).bind fun _ => within_note

/-- The program leaves a file as it is. -/
def Spares {α : Type} (p : Prog (Site ρ) α) (dir name : String) : Prop :=
  ∀ e, (exec p e).2.disk.file dir name = e.disk.file dir name

/-- The changes that leave a file as it is. -/
def Elsewhere (dir name : String) (f : Disk → Disk) : Prop :=
  ∀ d, (f d).file dir name = d.file dir name

theorem makedirs_elsewhere {dir name dir' : String} :
    Elsewhere dir name fun d => d.makedirs dir' := fun d => d.file_makedirs dir' dir name

theorem write_elsewhere {dir name dir' name' text : String} (h : dir' ≠ dir ∨ name' ≠ name) :
    Elsewhere dir name fun d => d.write dir' name' text := by
  intro d
  rw [d.file_write]
  refine if_neg fun heq => ?_
  rcases h with h | h
  · exact h heq.1.symm
  · exact h heq.2.symm

theorem erase_elsewhere {dir name dir' : String} (h : dir' ≠ dir) :
    Elsewhere dir name fun d => d.erase dir' := by
  intro d
  have hget : (d.erase dir').get? dir = d.get? dir := by
    refine Option.ext fun fs => ?_
    rw [Dict.get?_eq_some, Dict.get?_eq_some, Dict.entry_erase]
    exact and_iff_right fun heq => h heq.symm
  exact congrArg (fun fs => fs.bind fun fs => fs.get? name) hget

/-! ## 2. Invariants of the environment -/

theorem keeps_zoom {α : Type} {J : Site ρ → Prop} {p : Prog (Site ρ) α} (h : Keeps J p) :
    Keeps (fun t => J t.env) (Pass.zoom p) := by
  refine keeps_iff.mpr fun t ht => ?_
  rw [exec_zoom]
  exact keeps_iff.mp h t.env ht

/-- What the commands keep, and the changes in `F`, is kept by a part of a pass. -/
theorem closed_env {J : Site ρ → Prop} (hcmd : ∀ argv, Keeps J (cmd argv))
    (hchange : ∀ f, F f → Keeps J do pause; update fun e : Site ρ => { e with disk := f e.disk }) :
    Closed cmd (Calm pause F) fun t => J t.env where
  run argv _ := keeps_zoom (hcmd argv)
  effect := by
    rintro _ ⟨f, hf, rfl⟩
    exact keeps_zoom (hchange f hf)
  record _ _ ht := ht
  addJail _ _ _ ht := ht
  addHostIf _ _ _ ht := ht
  discardHostIf _ _ ht := ht

/-- A file with a text. -/
def Holds (dir name text : String) (e : Site ρ) : Prop := e.disk.file dir name = some text

theorem Spares.holds {α : Type} {p : Prog (Site ρ) α} {dir name text : String}
    (h : Spares p dir name) : Keeps (Holds dir name text) p :=
  keeps_iff.mpr fun e he => (h e).trans he

/-- What happens elsewhere leaves a file its text. -/
theorem closed_holds {dir name text : String} (hcmd : ∀ argv, Spares (cmd argv) dir name)
    (hpause : Spares pause dir name) :
    Closed cmd (Calm pause (Elsewhere dir name)) fun t => Holds dir name text t.env :=
  closed_env (fun argv => (hcmd argv).holds) fun _ hf =>
    hpause.holds.bind fun _ => keeps_update fun e he => (hf e.disk).trans he

/-- A file that was written if it differed. -/
theorem writeIfChanged_holds {dir name text : String} {P : Pass (Site ρ) → Prop} :
    Triple P (writeIfChanged pause dir name text) (fun _ t => Holds dir name text t.env)
      fun _ => True := by
  unfold writeIfChanged
  refine Triple.bind (Q := fun old t => t.env.disk.file dir name = old)
    (triple_look fun t _ => rfl) fun old => ?_
  split
  · rename_i hold
    exact triple_pure fun t ht => ht.trans hold
  · refine Triple.bind (Q := fun _ t => Holds dir name text t.env) ?_ fun _ =>
      triple_pure fun _ ht => ht
    intro t _
    refine ⟨fun a t' hrun => ?_, fun _ _ => trivial⟩
    unfold change at hrun
    rw [exec_zoom, exec_bind] at hrun
    generalize exec pause t.env = r at hrun
    obtain ⟨b, e⟩ := r
    cases b with
    | none => exact absurd (Prod.mk.inj hrun).1 (by simp)
    | some b =>
      obtain ⟨-, rfl⟩ := Prod.mk.inj hrun
      show (e.disk.write dir name text).file dir name = some text
      rw [e.disk.file_write, if_pos ⟨rfl, rfl⟩]

end

end Files

end Bsdbridge
