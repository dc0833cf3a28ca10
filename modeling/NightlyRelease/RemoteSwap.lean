/-
# Remotes with another URL for a while

`RemoteSwap.replace` gives a remote another URL and remembers the one that it
had. The swap is then held in a scope (`inScope`). What is done there can
`restore` it, which asks the old URL back and tells if that fails. When the scope
ends, be it with a result, with an error or by being broken off, the swap is
dropped: unless it has been restored before, the old URL is asked back then, and
a failure is only logged.
-/

import NightlyRelease.Repository.Basic

namespace NightlyRelease

/-- A remote with the URL that it had before it got another one. -/
structure RemoteSwap where
  remote : String
  url : String
  /-- It has been restored, whether that succeeded or not. -/
  restored : Bool := false
  deriving DecidableEq, Repr

namespace RemoteSwap

variable {σ α : Type}

/-- Gives a remote another URL. -/
def replace (repo : Repository σ) (remote url : String) : Action σ RemoteSwap := do
  let before ← repo.remoteUrl remote
  repo.setRemoteUrl remote url
  Action.log .debug ("Remote '" ++ remote ++ "' temporarily set to " ++ Url.redact url)
  return { remote, url := before }

/-- Asks the old URL back. -/
def putBack (repo : Repository σ) (s : RemoteSwap) : Action σ Unit := do
  match ← Action.attempt (repo.setRemoteUrl s.remote s.url) with
  | .ok () => Action.log .debug ("Remote '" ++ s.remote ++ "' restored to " ++ s.url)
  | .error e => Action.fail (.remoteRestore ("remote '" ++ s.remote ++ "': " ++ e.message))

/-- Asks the old URL back if it can be done. -/
def release (repo : Repository σ) (s : RemoteSwap) : Action σ Unit := do
  match ← Action.attempt (repo.setRemoteUrl s.remote s.url) with
  | .ok () => pure ()
  | .error e => Action.log .error ("Remote '" ++ s.remote ++
      "' still holds credentials; restore it to " ++ s.url ++ " manually: " ++ e.message)

/-- What becomes of a swap whose scope has ended: it is released, unless it has been restored. -/
def drop (repo : Repository σ) (s : RemoteSwap) : Action σ Unit :=
  if s.restored then pure () else s.release repo

/-- What a repository remembers, and the swap that is held. -/
structure Scope (σ : Type) where
  repository : σ
  swap : RemoteSwap

namespace Scope

/-- The world in which a swap is held. -/
def world (s : RemoteSwap) (w : World σ) : World (Scope σ) :=
  { w with repository := ⟨w.repository, s⟩ }

/-- Acts without a look at the swap. -/
def within (act : Action σ α) : Action (Scope σ) α :=
  Action.onPart Scope.repository (fun r s => { s with repository := r }) act

/-- Acts while a swap is held. The result tells how that has ended and what the swap is then. -/
def run (s : RemoteSwap) (act : Action (Scope σ) α) : Action σ (Except Halt α × RemoteSwap) :=
  fun w =>
    let (result, v) := act (world s w)
    (.ok (result, v.repository.swap), { v with repository := v.repository.repository })

end Scope

/-- Restores the swap that is held. That counts as done before it is tried. -/
def restore (repo : Repository σ) : Action (Scope σ) Unit := do
  Action.modifyRepository fun scope =>
    { scope with swap := { scope.swap with restored := true } }
  Scope.within ((← Action.repository).swap.putBack repo)

/-- Acts in the scope of a swap, and drops the swap however that has ended. -/
def inScope (repo : Repository σ) (s : RemoteSwap) (act : Action (Scope σ) α) : Action σ α := do
  let (result, s) ← Scope.run s act
  s.drop repo
  MonadExcept.ofExcept result

/-! ### What is done in scopes -/

section

variable {repo : Repository σ} {s s' : RemoteSwap} {w v : World σ}

@[simp] theorem Scope.within_apply (act : Action σ α) :
    Scope.within act (Scope.world s w) = ((act w).1, Scope.world s (act w).2) := rfl

/-- The error of what is done in a scope becomes its result there, too. -/
theorem Scope.attempt_apply {act : Action (Scope σ) α} {plain : Action σ α}
    (h : act (Scope.world s w) = ((plain w).1, Scope.world s' (plain w).2)) :
    Action.attempt act (Scope.world s w) =
      ((Action.attempt plain w).1, Scope.world s' (Action.attempt plain w).2) := by
  simp only [Action.attempt, h]
  rcases plain w with ⟨(_ | _) | _, _⟩ <;> rfl

theorem restore_apply : restore repo (Scope.world s w) =
    ((s.putBack repo w).1, Scope.world { s with restored := true } (s.putBack repo w).2) := rfl

theorem inScope_apply {act : Action (Scope σ) α} {result : Except Halt α}
    (h : act (Scope.world s w) = (result, Scope.world s' v)) :
    s.inScope repo act w = (s'.drop repo >>= fun _ => MonadExcept.ofExcept result) v := by
  simp only [inScope, Action.bind_apply, Scope.run, h]
  rfl

/-- A swap that has been restored is left alone. -/
theorem drop_of_restored (h : s.restored = true) : s.drop repo = pure () := if_pos h

theorem drop_of_not_restored (h : s.restored = false) : s.drop repo = s.release repo := by
  rw [drop, h]
  rfl

/-- Restoring a swap asks the old URL back; at the end of its scope there is nothing left to do. -/
theorem inScope_restore : s.inScope repo (restore repo) = s.putBack repo := by
  funext w
  rw [inScope_apply restore_apply, drop_of_restored rfl]
  rcases s.putBack repo w with ⟨_ | _, _⟩ <;> rfl

/-- A swap that is restored after something else has been done. -/
theorem inScope_restore_of_ok {act : Action σ α} {a : α} (h : act w = (.ok a, v)) :
    s.inScope repo (do
      let a ← Scope.within act
      return (a, ← Action.attempt (restore repo))) w =
        (Action.attempt (s.putBack repo) >>= fun r => pure (a, r)) v := by
  have hrestore : Action.attempt (restore repo) (Scope.world s v) =
      ((Action.attempt (s.putBack repo) v).1,
        Scope.world { s with restored := true } (Action.attempt (s.putBack repo) v).2) :=
    Scope.attempt_apply restore_apply
  have hbody : (do
      let a ← Scope.within act
      return (a, ← Action.attempt (restore repo))) (Scope.world s w) =
        (((Action.attempt (s.putBack repo) >>= fun r => pure (a, r)) v).1,
          Scope.world { s with restored := true } (Action.attempt (s.putBack repo) v).2) := by
    simp only [Action.bind_apply, Scope.within_apply, h, hrestore, Action.pure_apply]
    rcases Action.attempt (s.putBack repo) v with ⟨_ | _, _⟩ <;> rfl
  rw [inScope_apply hbody, drop_of_restored rfl]
  simp only [Action.bind_apply, Action.pure_apply]
  rcases Action.attempt (s.putBack repo) v with ⟨_ | _, _⟩ <;> rfl

/-- A swap with which nothing is done is dropped. -/
theorem inScope_pure : s.inScope repo (pure ()) = s.drop repo := by
  funext w
  have hpure : (pure () : Action (Scope σ) Unit) (Scope.world s w) =
      (.ok (), Scope.world s w) := rfl
  rw [inScope_apply hpure, Action.bind_apply]
  rcases s.drop repo w with ⟨_ | _, _⟩ <;> rfl

end

end RemoteSwap
end NightlyRelease
