/-
# Branches and what is checked out

A branch is a reference to a commit. Making one, checking one out, and taking one
back to the commit before only touches references: index and files stay as they
are.
-/

import NightlyRelease.Git.Committing

namespace NightlyRelease
namespace Git
namespace Branch

/-- There is no commit to start from. -/
def noCommit : Fault := { text := "reference 'refs/heads/' not found", cls := some .reference
                          code := some .notFound }

/-- Writes a reference of a repository. -/
def writeReference (site : Site) (name : String) (target : Reference.Target) : Operation Unit := do
  Operation.setFiles
    (← Operation.ofExcept (Reference.write (← Operation.files) site.directory name target))

/-- The commit that is checked out, which must be there. -/
def requireHead (site : Site) : Operation (CommitId × Commit) := do
  match ← Operation.ofExcept (headCommit (← Operation.files) (← Operation.machine) site) with
  | some found => return found
  | none => throw noCommit

/-- Makes a branch at the commit that is checked out. -/
def create (site : Site) (name : String) : Operation Unit := do
  let (id, _) ← requireHead site
  writeReference site (Reference.ofBranch name) (.commit (some id))

/-- Checks out a reference: a branch by its name, anything else by the commit that it holds. A
branch need not be there yet. -/
def checkOut (site : Site) (name : String) : Operation Unit := do
  let found ← Operation.ofExcept (Reference.resolve (← Operation.files) site.directory name)
  match found, Reference.branch? name with
  | _, some _ => writeReference site "HEAD" (.reference name)
  | some (.found _ id), none => writeReference site "HEAD" (.commit id)
  | _, none => throw { text := "reference '" ++ name ++ "' not found", cls := some .reference
                       code := some .notFound }

/-- Checks out the commit of the branch that is checked out. -/
def detach (site : Site) : Operation Unit := do
  let (id, _) ← requireHead site
  writeReference site "HEAD" (.commit (some id))

/-- Takes what is checked out back to the commit before. -/
def rewind (site : Site) : Operation Unit := do
  let (_, c) ← requireHead site
  match c.parents with
  | [] => throw noCommit
  | parent :: _ => Committing.moveHead site parent

/-- The commits of a branch, or of what is checked out, back along first parents; there are none
if the branch leads to no commit. -/
def history (site : Site) (branch : Option String) : Operation (List Commit) := do
  let fs ← Operation.files
  let m ← Operation.machine
  let tip : Option CommitId := match branch with
    | none => ((headCommit fs m site).toOption.join).map (·.1)
    | some b => match Reference.resolve fs site.directory (Reference.ofBranch b) with
      | .ok (some (.found _ id)) => id
      | _ => none
  return (tip.map m.history.firstParents).getD []

end Branch
end Git
end NightlyRelease
