/-
# Warnings

Conditions that a run reports and that never stop it.
-/

import NightlyRelease.Text.Decimal

namespace NightlyRelease

/-- What a run reports without stopping. -/
inductive Warning where
  /-- None of the newest commits had a subject for the changelog. -/
  | emptyChangelog (window : Nat)
  /-- These paths were changed and are not written by the run. -/
  | dirtyWorkingTree (paths : List String)
  /-- The URL cannot carry credentials. -/
  | credentialsNotInjected (remote url : String)
  /-- The push succeeded and the branch to track could not be recorded. -/
  | trackingNotRecorded (branch reason : String)
  deriving DecidableEq, Repr

namespace Warning

/-- How many paths a warning names before it only counts. -/
def shownPaths : Nat := 5

/-- The paths of a warning, cut off after the first few. -/
def listPaths (paths : List String) : String :=
  ", ".intercalate (paths.take shownPaths) ++
    if shownPaths < paths.length then
      " and " ++ Text.Decimal.text (paths.length - shownPaths) ++ " more"
    else ""

/-- The text of a warning. -/
def message : Warning → String
  | emptyChangelog window =>
    "No changelog entries in the last " ++ Text.Decimal.text window ++
      " commits; writing an empty list"
  | dirtyWorkingTree paths =>
    "Working tree has " ++ Text.Decimal.text paths.length ++
      " unrelated change(s) that will not be committed: " ++ listPaths paths
  | credentialsNotInjected remote url =>
    "Remote '" ++ remote ++ "' (" ++ url ++
      ") is not an https URL; pushing without embedded credentials"
  | trackingNotRecorded branch reason =>
    "Could not set upstream for '" ++ branch ++ "': " ++ reason

end Warning
end NightlyRelease
