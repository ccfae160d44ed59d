import Bsdbridge.Jail

/-!
# The state directory

A reconciler keeps one directory for each of its jails, all under one base: `base/dhcp/<id>` or
`base/l3/<id>`. `Disk` is what stands under that base, by directory and file name. A step that
changes the disk is one more place for a pass to stop, and whether it does is up to the environment
(`pause`), as it is with the commands.

A write is one change, as the source writes a temporary file and renames it over the old one; there
is no half written file. What a process of the host does with the files is up to the environment
again, which may change the disk at every command.
-/

set_option autoImplicit false

namespace Bsdbridge

/-- The directories, each with its files. -/
abbrev Disk := Dict String (Dict String String)

/-- An environment with a disk. -/
structure Site (ρ : Type) where
  disk : Disk := ∅
  rest : ρ

namespace Disk

/-- The text of a file. -/
def file (d : Disk) (dir name : String) : Option String := (d.get? dir).bind fun fs => fs.get? name

/-- `os.makedirs(dir, exist_ok=True)`. -/
def makedirs (d : Disk) (dir : String) : Disk := if dir ∈ d then d else d.insert dir ∅

/-- A file with a new text. -/
def write (d : Disk) (dir name text : String) : Disk :=
  d.insert dir (((d.get? dir).getD ∅).insert name text)

theorem file_makedirs (d : Disk) (dir dir' name : String) :
    (d.makedirs dir).file dir' name = d.file dir' name := by
  unfold makedirs file
  split
  · rfl
  · rename_i hdir
    rw [Dict.get?_insert]
    split
    · rename_i heq
      subst heq
      rw [Dict.get?_eq_none.mpr hdir]
      rfl
    · rfl

theorem file_write (d : Disk) (dir name text dir' name' : String) :
    (d.write dir name text).file dir' name' =
      if dir' = dir ∧ name' = name then some text else d.file dir' name' := by
  unfold write file
  rw [Dict.get?_insert]
  by_cases hdir : dir' = dir
  · subst hdir
    rw [if_pos rfl]
    simp only [Option.bind_some, Dict.get?_insert, true_and]
    cases hd : d.get? dir' with
    | none => simp only [Option.getD_none, Option.bind_none]; rfl
    | some fs => rfl
  · rw [if_neg hdir, if_neg fun h => hdir h.1]

end Disk

/-- `os.path.join(a, b)`. -/
def pathJoin (a b : String) : String :=
  if Text.startsWith b "/" then b
  else if a = "" || a.toList.getLast? = some '/' then a ++ b
  else a ++ "/" ++ b

namespace Files

variable {ρ : Type} (pause : Prog (Site ρ) Unit)

/-- A change of the disk, unless the environment stops the pass before it. -/
def change (f : Disk → Disk) : Prog (Pass (Site ρ)) Unit := Pass.zoom do
  pause
  Prog.update fun e : Site ρ => { e with disk := f e.disk }

def makedirs (dir : String) : Prog (Pass (Site ρ)) Unit := change pause fun d => d.makedirs dir

/-- The text of a file; `none` is the `OSError` of one that is not there. -/
def read (dir name : String) : Prog (Pass (Site ρ)) (Option String) :=
  Prog.look fun t => t.env.disk.file dir name

/-- Atomically write a file when its content differs. -/
def writeIfChanged (dir name text : String) : Prog (Pass (Site ρ)) Bool := do
  let old ← read dir name
  if old = some text then pure false
  else do
    change pause fun d => d.write dir name text
    pure true

/-- Remove the directories that are not desired. -/
def removeState (desiredDirs : Finset String) : Prog (Pass (Site ρ)) Unit := do
  let present ← Prog.look fun t : Pass (Site ρ) => t.env.disk.keys.toFinset
  (sortedSet (present \ desiredDirs)).forM fun entry => do
    change pause fun d => d.erase entry
    Actions.note "RemoveState" entry

end Files

end Bsdbridge
