/-
# The files of a run

A run reads and changes the version file, writes the changelog, and writes the
new version to a file of its own. The version that the last run wrote there can
be read back; there is none if there is no such file.
-/

import NightlyRelease.Changelog
import NightlyRelease.VersionFile.Located

namespace NightlyRelease
namespace Artifacts

variable {σ : Type}

/-- Writes the changelog. -/
def writeChangelog (p : Path) (c : Changelog) : Action σ Unit := do
  Action.writeText p c.render
  Action.log .info
    ("Wrote changelog with " ++ Text.Decimal.text c.size ++ " entries to " ++ p.text)

/-- Writes a version. -/
def writeVersion (p : Path) (v : Version) : Action σ Unit := do
  Action.writeText p v.text
  Action.log .info ("Wrote version " ++ v.text ++ " to " ++ p.text)

/-- The version that a file holds, with the file in the words of a fault. -/
def publishedVersion (p : Path) (text : String) : Except Error Version :=
  (Version.parse text).mapError fun
    | .version reason => .version (p.text ++ " from a previous run: " ++ reason)
    | e => e

/-- The version that the last run wrote to a file, if there is such a file. -/
def versionIn (fs : FileSystem) (p : Path) : Except Error (Option Version) :=
  match fs.readText p with
  | .ok text => some <$> publishedVersion p text
  | .error .notFound => .ok none
  | .error fault => .error (.io fault.message)

/-- Reads the version that the last run wrote, if there is a file for it. -/
def readVersion (p : Path) : Action σ (Option Version) := do
  Action.ofExcept (versionIn (← Action.files) p)

/-- Reads a version file. -/
def loadVersionFile (p : Path) (keyPrefix : String) : Action σ VersionFile.Located := do
  match (← Action.files).readText p with
  | .ok text => MonadExcept.ofExcept (VersionFile.Located.parse text keyPrefix)
  | .error fault =>
    Action.fail (.io ("cannot read version file " ++ p.text ++ ": " ++ fault.message))

/-- Writes a version file that was bumped. -/
def writeBumped (p : Path) (b : VersionFile.Bumped) : Action σ Unit := do
  Action.writeText p b.text
  Action.log .info ("Bumped " ++ p.text ++ " from " ++ b.previous.text ++ " to " ++ b.version.text)

end Artifacts
end NightlyRelease
