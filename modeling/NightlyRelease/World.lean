/-
# What a run acts on

A run reads and writes files, asks a repository for its services, and writes log
lines. A `World` holds the three of them; `σ` is what the repository remembers.
An `Action` changes a world and ends with a result, with an error, or by being
aborted. What it did before that stays done.
-/

import NightlyRelease.Error
import NightlyRelease.FileSystem.Basic
import NightlyRelease.Log

namespace NightlyRelease

/-- Files, a repository and a log. -/
structure World (σ : Type) where
  files : FileSystem
  repository : σ
  log : List Log.Line

/-- The world with more lines in its log. -/
def World.logged {σ : Type} (w : World σ) (lines : List Log.Line) : World σ :=
  { w with log := w.log ++ lines }

/-- What ends an action before it has a result. -/
inductive Halt where
  | failed (e : Error)
  /-- The action was broken off, which nothing recovers from. -/
  | aborted (reason : String)
  deriving DecidableEq, Repr

/-- Something that acts on a world. -/
abbrev Action (σ α : Type) := ExceptT Halt (StateM (World σ)) α

namespace Action

variable {σ τ α : Type}

/-- Ends with an error. -/
def fail (e : Error) : Action σ α := throw (.failed e)

/-- Goes on with a result or ends with an error. -/
def ofExcept : Except Error α → Action σ α
  | .ok a => pure a
  | .error e => fail e

/-- Writes a line to the log. -/
def log (level : Log.Level) (text : String) : Action σ Unit :=
  modify fun w => { w with log := w.log ++ [⟨level, text⟩] }

/-- Gives the error of an action as a result. -/
def attempt (act : Action σ α) : Action σ (Except Error α) := fun w =>
  match act w with
  | (.ok a, w) => (.ok (.ok a), w)
  | (.error (.failed e), w) => (.ok (.error e), w)
  | (.error (.aborted reason), w) => (.error (.aborted reason), w)

/-- Acts on a part of what the repository remembers. -/
def onPart (get : σ → τ) (put : τ → σ → σ) (act : Action τ α) : Action σ α := fun w =>
  let (result, v) := act { w with repository := get w.repository }
  (result, { v with repository := put v.repository w.repository })

/-- The files as they are. -/
def files : Action σ FileSystem := return (← get).files

/-- What the repository remembers. -/
def repository : Action σ σ := return (← get).repository

/-- Replaces the files. -/
def setFiles (fs : FileSystem) : Action σ Unit := modify fun w => { w with files := fs }

/-- Changes what the repository remembers. -/
def modifyRepository (f : σ → σ) : Action σ Unit :=
  modify fun w => { w with repository := f w.repository }

/-- Goes on with what the files give, or ends with an error about them. -/
def ofFiles : Except FileSystem.Fault α → Action σ α
  | .ok a => pure a
  | .error fault => fail (.io fault.message)

/-- The text of a file. -/
def readText (p : Path) : Action σ String := do ofFiles ((← files).readText p)

/-- Writes a text to a file. -/
def writeText (p : Path) (s : String) : Action σ Unit := do
  setFiles (← ofFiles ((← files).writeText p s))

/-! ### What actions do to a world -/

/-- The end of an action that is not broken off. -/
def returned : Except Error α → Except Halt α
  | .ok a => .ok a
  | .error e => .error (.failed e)

@[simp] theorem returned_ok (a : α) : returned (.ok a) = .ok a := rfl

@[simp] theorem returned_error (e : Error) :
    (returned (.error e) : Except Halt α) = .error (.failed e) := rfl

@[simp] theorem ofExcept_returned (x : Except Error α) :
    (MonadExcept.ofExcept (returned x) : Action σ α) = ofExcept x := by
  cases x <;> rfl

theorem returned_inj {x y : Except Error α} : returned x = returned y ↔ x = y := by
  cases x <;> cases y <;> simp [returned]

section

variable {β : Type} (w : World σ)

@[simp] theorem pure_apply (a : α) : (pure a : Action σ α) w = (.ok a, w) := rfl

@[simp] theorem bind_apply (act : Action σ α) (next : α → Action σ β) :
    (act >>= next) w = match act w with
      | (.ok a, v) => next a v
      | (.error h, v) => (.error h, v) := by
  show ExceptT.bindCont next (act w).1 (act w).2 = _
  rcases act w with ⟨_ | _, _⟩ <;> rfl

@[simp] theorem fail_apply (e : Error) : (fail e : Action σ α) w = (.error (.failed e), w) := rfl

@[simp] theorem ofExcept_apply (x : Except Error α) : ofExcept x w = (returned x, w) := by
  cases x <;> rfl

@[simp] theorem log_apply (level : Log.Level) (text : String) :
    log level text w = (.ok (), { w with log := w.log ++ [⟨level, text⟩] }) := rfl

/-- A loop that logs a line for each element of a list. -/
theorem forIn_log_apply {γ : Type} (level : Log.Level) (text : γ → String) (xs : List γ) :
    (forIn xs PUnit.unit (fun x _ => do
      log level (text x)
      pure (ForInStep.yield PUnit.unit)) : Action σ PUnit) w =
      (.ok PUnit.unit, { w with log := w.log ++ xs.map fun x => ⟨level, text x⟩ }) := by
  induction xs generalizing w with
  | nil => simp only [List.forIn_nil, pure_apply, List.map_nil, List.append_nil]
  | cons x xs ih =>
    simp only [List.forIn_cons, bind_apply, log_apply, pure_apply, ih, List.append_assoc,
      List.singleton_append, List.map_cons]

@[simp] theorem files_apply : files w = (.ok w.files, w) := rfl

@[simp] theorem repository_apply : repository w = (.ok w.repository, w) := rfl

@[simp] theorem modifyRepository_apply (f : σ → σ) :
    modifyRepository f w = (.ok (), { w with repository := f w.repository }) := rfl

/-- A write changes the files, or fails and changes nothing. -/
@[simp] theorem writeText_apply (p : Path) (s : String) :
    writeText p s w = match w.files.writeText p s with
      | .ok fs => (.ok (), { w with files := fs })
      | .error fault => (.error (.failed (.io fault.message)), w) := by
  simp only [writeText, bind_apply, files_apply]
  cases w.files.writeText p s <;> rfl

/-- The error of an action that is not broken off becomes its result. -/
theorem attempt_apply {act : Action σ α} {v : World σ} {x : Except Error α}
    (h : act w = (returned x, v)) : attempt act w = (.ok x, v) := by
  cases x <;> simp only [attempt, h, returned]

end

end Action
end NightlyRelease
