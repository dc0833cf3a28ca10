/-
# Operations on repositories

An operation reads and changes the files of a machine and what its repositories
hold, and ends with a result or a fault. What it did before a fault stays done.
Seen from a run, an operation is an action whose faults have become errors.
-/

import NightlyRelease.Git.Machine
import NightlyRelease.World

namespace NightlyRelease
namespace Git

/-- Something done to the files and the repositories of a machine. -/
abbrev Operation (α : Type) := ExceptT Fault (StateM (World Machine)) α

namespace Operation

variable {α : Type}

/-- The files as they are. -/
def files : Operation FileSystem := return (← get).files

/-- Replaces the files. -/
def setFiles (fs : FileSystem) : Operation Unit := modify fun w => { w with files := fs }

/-- What the repositories hold. -/
def machine : Operation Machine := return (← get).repository

/-- Replaces what the repositories hold. -/
def setMachine (m : Machine) : Operation Unit := modify fun w => { w with repository := m }

/-- Goes on with a result or ends with a fault. -/
def ofExcept : Except Fault α → Operation α
  | .ok a => pure a
  | .error fault => throw fault

/-- Gives the fault of an operation as a result. -/
def attempt (op : Operation α) : Operation (Except Fault α) := fun w =>
  let (result, w) := op w
  (.ok result, w)

/-- An operation as part of a run, which sees a fault as an error. -/
def orFail (op : Operation α) (toError : Fault → Error) : Action Machine α := fun w =>
  match op w with
  | (.ok a, w) => (.ok a, w)
  | (.error fault, w) => (.error (.failed (toError fault)), w)

end Operation

/-- The error of a run for a fault that has no error of its own. -/
def Fault.toError (f : Fault) : Error := .git f.render

end Git
end NightlyRelease
