/-
# The loop guard

A nightly run pushes a commit, and a push may start the next run. The guard
looks at the newest commit and lets a run go on only if that commit was not made
by a run itself.
-/

import NightlyRelease.Commit.Subject
import NightlyRelease.Error

namespace NightlyRelease
namespace LoopGuard

/-- What the newest commit means for a run. -/
inductive Decision where
  | proceed
  /-- The newest commit is a nightly commit with this subject. -/
  | skip (subject : String)
  deriving DecidableEq, Repr

/-- Decides by the subject of the newest commit; without a commit there is nothing to run on. -/
def check (newest : Option Subject) (marker : String) : Except Error Decision :=
  match newest with
  | none => .error .emptyHistory
  | some s => .ok (if s.isAutomated marker then .skip s.text else .proceed)

end LoopGuard
end NightlyRelease
