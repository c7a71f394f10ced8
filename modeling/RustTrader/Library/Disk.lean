import Mathlib.Logic.Function.Basic
import RustTrader.Library.HashMap

/-!
# Files and their names

A file lives on under its number when its name is removed, and a name that is opened
again afterwards gets a new file.
-/

/-- Files by name; no number from `next` on is in use. -/
structure Disk (P B : Type) where
  names : HashMap P Nat
  contents : Nat → List B
  next : Nat

namespace Disk

variable {P B : Type} [DecidableEq P]

def fileOf (disk : Disk P B) (path : P) : Option Nat := HashMap.get? disk.names path

/-- What stands under a name. -/
def read (disk : Disk P B) (path : P) : Option (List B) := (disk.fileOf path).map disk.contents

/-- The file under a name, to be appended to; one that is missing is created. -/
def openFile (disk : Disk P B) (path : P) : Nat × Disk P B :=
  match disk.fileOf path with
  | some file => (file, disk)
  | none => (disk.next, {
      names := HashMap.set disk.names path disk.next
      contents := Function.update disk.contents disk.next []
      next := disk.next + 1 })

def append (disk : Disk P B) (file : Nat) (bytes : List B) : Disk P B :=
  { disk with contents := Function.update disk.contents file (disk.contents file ++ bytes) }

def unlink (disk : Disk P B) (path : P) : Disk P B :=
  { disk with names := HashMap.remove disk.names path }

/-- Every file has one name, and a number that was given out. -/
structure WF (disk : Disk P B) : Prop where
  used : ∀ path file, disk.fileOf path = some file → file < disk.next
  one : ∀ path path' file, disk.fileOf path = some file → disk.fileOf path' = some file →
    path = path'

theorem read_none {disk : Disk P B} {path : P} :
    disk.read path = none ↔ disk.fileOf path = none := Option.map_eq_none_iff

theorem read_of {disk : Disk P B} {path : P} {file : Nat} (named : disk.fileOf path = some file) :
    disk.read path = some (disk.contents file) := by
  unfold read
  rw [named]
  rfl

/-- Some files of `fresh` names were created, and nothing else has changed. -/
structure Grows (fresh : P → Prop) (disk disk' : Disk P B) : Prop where
  wf : disk.WF → disk'.WF
  next : disk.next ≤ disk'.next
  old : ∀ path file, disk'.fileOf path = some file → file < disk.next →
    disk.fileOf path = some file
  named : ∀ path file, disk.fileOf path = some file → disk'.fileOf path = some file
  read : disk.WF → ∀ path, disk'.read path = disk.read path ∨
    fresh path ∧ disk.read path = none ∧ disk'.read path = some []

namespace Grows

variable {fresh : P → Prop} {disk disk' disk'' : Disk P B}

theorem refl (disk : Disk P B) : Grows fresh disk disk :=
  ⟨id, le_refl _, fun _ _ named _ => named, fun _ _ named => named, fun _ _ => .inl rfl⟩

theorem trans (h : Grows fresh disk disk') (h' : Grows fresh disk' disk'') :
    Grows fresh disk disk'' := by
  refine ⟨fun wf => h'.wf (h.wf wf), Nat.le_trans h.next h'.next, ?_, ?_, fun wf path => ?_⟩
  · intro path file named used
    exact h.old path file (h'.old path file named (lt_of_lt_of_le used h.next)) used
  · exact fun path file named => h'.named path file (h.named path file named)
  · rcases h.read wf path with same | ⟨own, absent, created⟩
    · rcases h'.read (h.wf wf) path with same' | ⟨own, absent, created⟩
      · exact .inl (same'.trans same)
      · exact .inr ⟨own, same.symm.trans absent, created⟩
    · rcases h'.read (h.wf wf) path with same' | ⟨-, absent', -⟩
      · exact .inr ⟨own, absent, same'.trans created⟩
      · cases absent'.symm.trans created

end Grows

theorem openFile_named (disk : Disk P B) (path : P) :
    (disk.openFile path).2.fileOf path = some (disk.openFile path).1 := by
  unfold openFile
  cases here : disk.fileOf path with
  | some file => exact here
  | none => exact HashMap.get?_set_self _ _ _

theorem openFile_grows {fresh : P → Prop} {path : P} (own : fresh path) (disk : Disk P B) :
    Grows fresh disk (disk.openFile path).2 := by
  unfold openFile
  cases here : disk.fileOf path with
  | some file => exact .refl disk
  | none =>
    have created : ∀ other, fileOf ⟨HashMap.set disk.names path disk.next,
        Function.update disk.contents disk.next [], disk.next + 1⟩ other =
        if other = path then some disk.next else disk.fileOf other :=
      HashMap.get?_set disk.names path disk.next
    refine ⟨fun wf => ⟨?_, ?_⟩, Nat.le_succ _, ?_, ?_, fun wf other => ?_⟩
    · intro other file named
      rw [created] at named
      split at named
      · cases named
        exact Nat.lt_succ_self _
      · exact Nat.lt_succ_of_lt (wf.used other file named)
    · intro one other file named named'
      rw [created] at named named'
      split at named <;> split at named'
      · rename_i first second
        exact first.trans second.symm
      · cases named
        exact absurd (wf.used other _ named') (Nat.lt_irrefl _)
      · cases named'
        exact absurd (wf.used one _ named) (Nat.lt_irrefl _)
      · exact wf.one one other file named named'
    · intro other file named used
      rw [created] at named
      split at named
      · cases named
        exact absurd used (Nat.lt_irrefl _)
      · exact named
    · intro other file named
      refine (created other).trans ?_
      rw [if_neg, named]
      rintro rfl
      cases here.symm.trans named
    · by_cases same : other = path
      · subst same
        refine .inr ⟨own, read_none.mpr here, ?_⟩
        refine (read_of ((created other).trans (if_pos rfl))).trans ?_
        exact congrArg some (Function.update_self _ _ _)
      · left
        unfold read
        rw [created, if_neg same]
        cases named : disk.fileOf other with
        | none => rfl
        | some file =>
          have apart : file ≠ disk.next := Nat.ne_of_lt (wf.used other file named)
          exact congrArg some (Function.update_of_ne apart _ _)

theorem append_wf {disk : Disk P B} (wf : disk.WF) (file : Nat) (bytes : List B) :
    (disk.append file bytes).WF := ⟨wf.used, wf.one⟩

theorem append_read (disk : Disk P B) (file : Nat) (bytes : List B) (path : P) :
    (disk.append file bytes).read path =
      if disk.fileOf path = some file then some (disk.contents file ++ bytes)
      else disk.read path := by
  have same : (disk.append file bytes).fileOf path = disk.fileOf path := rfl
  cases named : disk.fileOf path with
  | none =>
    have missing : ¬ (none : Option Nat) = some file := by rintro ⟨⟩
    rw [if_neg missing, read_none.mpr named]
    exact read_none.mpr (same.trans named)
  | some file' =>
    rw [read_of (same.trans named), read_of named]
    by_cases here : file' = file
    · subst here
      rw [if_pos rfl]
      exact congrArg some (Function.update_self _ _ _)
    · rw [if_neg fun same => here (Option.some.inj same)]
      exact congrArg some (Function.update_of_ne here _ _)

/-- Some names have gone, all of them `expired`, and nothing else has changed. -/
structure Sheds (expired : P → Prop) (disk disk' : Disk P B) : Prop where
  wf : disk.WF → disk'.WF
  next : disk'.next = disk.next
  old : ∀ path file, disk'.fileOf path = some file → disk.fileOf path = some file
  named : ∀ path, ¬ expired path → disk'.fileOf path = disk.fileOf path
  read : ∀ path, disk'.read path = disk.read path ∨ expired path ∧ disk'.read path = none

namespace Sheds

variable {expired : P → Prop} {disk disk' disk'' : Disk P B}

theorem refl (disk : Disk P B) : Sheds expired disk disk :=
  ⟨id, rfl, fun _ _ named => named, fun _ _ => rfl, fun _ => .inl rfl⟩

theorem trans (h : Sheds expired disk disk') (h' : Sheds expired disk' disk'') :
    Sheds expired disk disk'' := by
  refine ⟨fun wf => h'.wf (h.wf wf), h'.next.trans h.next, ?_, ?_, fun path => ?_⟩
  · exact fun path file named => h.old path file (h'.old path file named)
  · exact fun path own => (h'.named path own).trans (h.named path own)
  · rcases h'.read path with same' | ⟨own, gone⟩
    · rcases h.read path with same | ⟨own, gone⟩
      · exact .inl (same'.trans same)
      · exact .inr ⟨own, same'.trans gone⟩
    · exact .inr ⟨own, gone⟩

end Sheds

theorem unlink_fileOf (disk : Disk P B) (path other : P) :
    (disk.unlink path).fileOf other = if other = path then none else disk.fileOf other :=
  HashMap.get?_remove disk.names path other

theorem unlink_sheds {expired : P → Prop} {path : P} (own : expired path) (disk : Disk P B) :
    Sheds expired disk (disk.unlink path) := by
  have kept : ∀ other file, (disk.unlink path).fileOf other = some file →
      disk.fileOf other = some file := by
    intro other file named
    rw [unlink_fileOf] at named
    split at named
    · cases named
    · exact named
  refine ⟨fun wf => ⟨fun other file named => wf.used other file (kept other file named),
    fun one other file named named' =>
      wf.one one other file (kept one file named) (kept other file named')⟩, rfl, kept, ?_,
    fun other => ?_⟩
  · intro other apart
    rw [unlink_fileOf, if_neg]
    rintro rfl
    exact apart own
  · by_cases same : other = path
    · subst same
      refine .inr ⟨own, read_none.mpr ?_⟩
      rw [unlink_fileOf, if_pos rfl]
    · left
      unfold read
      rw [unlink_fileOf, if_neg same]
      rfl

theorem unlinkAll_sheds {expired : P → Prop} {paths : List P} (own : ∀ path ∈ paths, expired path)
    (disk : Disk P B) : Sheds expired disk (paths.foldl unlink disk) := by
  induction paths generalizing disk with
  | nil => exact .refl disk
  | cons path paths ih =>
    obtain ⟨first, rest⟩ := List.forall_mem_cons.mp own
    exact (unlink_sheds first disk).trans (ih rest _)

/-- An open file, which stands under no name but its own. -/
structure Handle (disk : Disk P B) (path : P) (file : Nat) : Prop where
  used : file < disk.next
  own : ∀ other, disk.fileOf other = some file → other = path

namespace Handle

variable {disk disk' : Disk P B} {path : P} {file : Nat}

theorem of_named (wf : disk.WF) (named : disk.fileOf path = some file) :
    Handle disk path file :=
  ⟨wf.used path file named, fun other named' => wf.one other path file named' named⟩

theorem grown {fresh : P → Prop} (h : Handle disk path file) (grown : Grows fresh disk disk') :
    Handle disk' path file :=
  ⟨lt_of_lt_of_le h.used grown.next,
    fun other named => h.own other (grown.old other file named h.used)⟩

theorem shed {expired : P → Prop} (h : Handle disk path file) (shed : Sheds expired disk disk') :
    Handle disk' path file :=
  ⟨shed.next ▸ h.used, fun other named => h.own other (shed.old other file named)⟩

theorem append (h : Handle disk path file) (other : Nat) (bytes : List B) :
    Handle (disk.append other bytes) path file := ⟨h.used, h.own⟩

end Handle

end Disk
