import CapsuleEmit.Foundation.Json
import Mathlib.Logic.Function.Basic

namespace CapsuleEmit
namespace Files

/-!
# Programs on files whose operations may fail

A program is a sequence of operations on named files.  Every operation has a
name, and a run is told of each whether it takes place, fails, or is where the
process stops.  A write that fails or is stopped may leave the first bytes of
what it writes.
-/

universe u v w x

/-- What becomes of an operation.  Of a write, how many bytes are in the file, or
`none` where the file was not opened. -/
inductive Fate where
  | done
  | fails (written : Option Nat)
  | stops (written : Option Nat)
  deriving DecidableEq

/-- How a program ends: with a result, an I/O error, an error of its own, or with
the process. -/
inductive Outcome (E : Type u) (α : Type v) where
  | ok (a : α)
  | io
  | err (e : E)
  | stopped

/-- The contents of the files. -/
abbrev Disk (N : Type w) := N → Option Bytes

/-- A program: on the fates of its operations and the files. -/
def Program (S : Type x) (N : Type w) (E : Type u) (α : Type v) :=
  (S → Fate) → Disk N → Outcome E α × Disk N

variable {S : Type x} {N : Type w} {E : Type u} {α β : Type v}

/-- One program after another. -/
def Program.bind (first : Program S N E α) (rest : α → Program S N E β) : Program S N E β :=
  fun fates disk => match first fates disk with
    | (.ok a, disk') => rest a fates disk'
    | (.io, disk') => (.io, disk')
    | (.err e, disk') => (.err e, disk')
    | (.stopped, disk') => (.stopped, disk')

instance : Monad (Program S N E) where
  pure a := fun _ disk => (.ok a, disk)
  bind := Program.bind

theorem pure_apply (a : α) (fates : S → Fate) (disk : Disk N) :
    (pure a : Program S N E α) fates disk = (.ok a, disk) := rfl

theorem bind_apply (first : Program S N E α) (rest : α → Program S N E β) (fates : S → Fate)
    (disk : Disk N) : (first >>= rest) fates disk = match first fates disk with
      | (.ok a, disk') => rest a fates disk'
      | (.io, disk') => (.io, disk')
      | (.err e, disk') => (.err e, disk')
      | (.stopped, disk') => (.stopped, disk') := rfl

/-- An error of the program's own. -/
def refuse (e : E) : Program S N E α := fun _ disk => (.err e, disk)

/-- An operation that changes no file. -/
def touch (step : S) : Program S N E PUnit := fun fates disk =>
  match fates step with
  | .done => (.ok ⟨⟩, disk)
  | .fails _ => (.io, disk)
  | .stops _ => (.stopped, disk)

/-- Whether a file is there; when that cannot be found out, it is not. -/
def isThere (step : S) (name : N) : Program S N E Bool := fun fates disk =>
  match fates step with
  | .done => (.ok (disk name).isSome, disk)
  | .fails _ => (.ok false, disk)
  | .stops _ => (.stopped, disk)

def read (step : S) (name : N) : Program S N E Bytes := fun fates disk =>
  match fates step with
  | .done => ((disk name).elim .io .ok, disk)
  | .fails _ => (.io, disk)
  | .stops _ => (.stopped, disk)

variable [DecidableEq N]

/-- The files after a write. -/
def written (disk : Disk N) (name : N) (bytes : Bytes) : Option Nat → Disk N
  | none => disk
  | some n => Function.update disk name (some (bytes.take n))

/-- A file is made empty and then written. -/
def write (step : S) (name : N) (bytes : Bytes) : Program S N E PUnit := fun fates disk =>
  match fates step with
  | .done => (.ok ⟨⟩, Function.update disk name (some bytes))
  | .fails n => (.io, written disk name bytes n)
  | .stops n => (.stopped, written disk name bytes n)

/-- The files after a rename; what was under the new name is gone. -/
def renamed (disk : Disk N) (old new : N) : Disk N :=
  Function.update (Function.update disk new (disk old)) old none

/-- A rename is atomic. -/
def rename (step : S) (old new : N) : Program S N E PUnit := fun fates disk =>
  match fates step with
  | .done => if (disk old).isSome then (.ok ⟨⟩, renamed disk old new) else (.io, disk)
  | .fails _ => (.io, disk)
  | .stops _ => (.stopped, disk)

end Files
end CapsuleEmit
