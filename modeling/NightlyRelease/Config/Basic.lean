/-
# Configuration

What a run can be told: which files it reads and writes, how the keys of the
version file start, how nightly commits are written and recognised, where they
are pushed and in whose name they are made. Everything but the author has a
default.

A default is used in two places: a part that its section does not give takes the
default of this part, which stands with the field; a section that is missing
takes the default of the section (`Paths.default`, `Commits.default`), and so
does a run without any document (`Config.default`).
-/

import NightlyRelease.Error
import NightlyRelease.FileSystem.Path
import NightlyRelease.Log
import NightlyRelease.Text.Blank
import NightlyRelease.Version.Basic

namespace NightlyRelease

namespace Config

/-! ### The defaults -/

def defaultVersionFile : Path := ⟨"cmake/IntegrationBusVersion.cmake"⟩

def defaultChangelog : Path := ⟨"changelog.txt"⟩

def defaultVersionOutput : Path := ⟨"new_version_number.txt"⟩

def defaultKeyPrefix : String := "IB_VERSION"

def defaultMarker : String := "-- managed-build"

def defaultLead : String := "-- managed-build bump version number to "

def defaultWindow : Nat := 20

def defaultMinimum : Nat := 5

def defaultRemote : String := "origin"

/-! ### The sections -/

/-- The files of a run, as seen from the work directory. -/
structure Paths where
  versionFile : Path := defaultVersionFile
  changelog : Path := defaultChangelog
  versionOutput : Path := defaultVersionOutput
  deriving DecidableEq, Repr

/-- The files of a run that has not been told any. -/
def Paths.default : Paths := ⟨defaultVersionFile, defaultChangelog, defaultVersionOutput⟩

/-- How commits are read and written. -/
structure Commits where
  /-- The text that tells nightly commits from others. -/
  marker : String := defaultMarker
  /-- What stands before the version in the message of a nightly commit. -/
  lead : String := defaultLead
  /-- How many of the newest commits go into a changelog. -/
  window : Nat := defaultWindow
  /-- A subject with this many characters or fewer stays out of changelogs. -/
  minimum : Nat := defaultMinimum
  deriving DecidableEq, Repr

/-- How commits are read and written by a run that has not been told. -/
def Commits.default : Commits := ⟨defaultMarker, defaultLead, defaultWindow, defaultMinimum⟩

end Config

/-- In whose name commits are made. -/
structure Author where
  name : String
  email : String
  deriving DecidableEq, Repr

/-- What a run is told. -/
structure Config where
  paths : Config.Paths := Config.Paths.default
  /-- How the keys of the version file start. -/
  keyPrefix : String := Config.defaultKeyPrefix
  commits : Config.Commits := Config.Commits.default
  /-- The name of the remote that is pushed to. -/
  remote : String := Config.defaultRemote
  /-- The author of nightly commits; without one the repository knows whom to name. -/
  author : Option Author := none
  deriving DecidableEq, Repr

namespace Config

/-- The configuration that holds where nothing else is said. -/
def default : Config where
  paths := Paths.default
  keyPrefix := defaultKeyPrefix
  commits := Commits.default
  remote := defaultRemote
  author := none

/-- The message of the commit that bumps to a version. -/
def commitMessage (c : Config) (v : Version) : String :=
  c.commits.lead ++ v.text ++ " (nightly build)"

/-- Refuses a configuration with which no run can work. -/
def check (c : Config) : Except Error Unit :=
  if c.commits.marker = "" then .error (.config "commits.marker must not be empty")
  else if c.commits.window = 0 then .error (.config "commits.changelog_window must be at least 1")
  else if Text.isAllBlank c.keyPrefix.toList then
    .error (.config "version.prefix must not be empty")
  else if Text.isAllBlank c.remote.toList then .error (.config "remote.name must not be empty")
  else .ok ()

/-- Whether every nightly commit will be recognised by the text before its version. -/
def isMarked (c : Config) : Bool := Text.contains c.commits.marker.toList c.commits.lead.toList

/-- What the log says about a configuration that was accepted. -/
def remarks (c : Config) : List Log.Line :=
  if c.isMarked then []
  else [⟨.warn, "commit prefix '" ++ c.commits.lead ++ "' lacks marker '" ++ c.commits.marker ++
    "'; bump commits will not stop later runs"⟩]

/-- Whether a run can work with a configuration, and what the log says about it. -/
def validate (c : Config) : Except Error Unit × List Log.Line :=
  match c.check with
  | .error e => (.error e, [])
  | .ok () => (.ok (), c.remarks)

end Config
end NightlyRelease
