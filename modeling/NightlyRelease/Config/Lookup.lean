/-
# Where the configuration comes from

A configuration is taken from one place only: the file that is named, else the
file `nightly-bump.toml` of the current directory, else the one of the user's
configuration directory, else the defaults. What stands in the chosen place
counts, also when it is of no use; no other place is asked then.
-/

import NightlyRelease.Config.Document
import NightlyRelease.FileSystem.Basic

namespace NightlyRelease
namespace Config

/-- The name under which a configuration is looked for. -/
def fileName : Path := ⟨"nightly-bump.toml"⟩

/-- What the system says about the user's directories. -/
structure Environment where
  /-- The directory for configurations, where the user has chosen one. -/
  configHome : Option String := none
  home : Option String := none

/-- The directory in which the user keeps configurations; a chosen one must be absolute. -/
def Environment.configDirectory? (e : Environment) : Option Path :=
  match e.configHome.filter fun d => Path.isAbsolute ⟨d⟩ with
  | some d => some ⟨d⟩
  | none => (e.home.filter (· ≠ "")).map fun h => Path.join ⟨h⟩ ⟨".config"⟩

/-- The place from which the configuration is taken; `none` stands for the defaults. -/
def locate (files : FileSystem) (named userDirectory : Option Path) : Option Path :=
  match named with
  | some p => some p
  | none =>
    let here := Path.join ⟨"."⟩ fileName
    if files.pathExists here then some here
    else (userDirectory.map (·.join fileName)).filter files.pathExists

/-- Reads the configuration of a file. -/
def ofFile (files : FileSystem) (p : Path) : Except Error Config := do
  let text ← (files.readText p).mapError fun fault => .io fault.message
  (parse text).mapError fun e => .config (p.text ++ ": " ++ e.message)

/-- What the log says about the place that was chosen. -/
def sourceLine : Option Path → Log.Line
  | some p => ⟨.debug, "Loading configuration from " ++ p.text⟩
  | none => ⟨.debug, "No configuration file found, using defaults"⟩

/-- The configuration that some place gives, validated. -/
def ofSource (files : FileSystem) (source : Option Path) : Except Error Config × List Log.Line :=
  match source.elim (.ok default) (ofFile files) with
  | .error e => (.error e, [sourceLine source])
  | .ok c =>
    let (accepted, remarks) := c.validate
    (accepted.map fun _ => c, sourceLine source :: remarks)

/-- The configuration of a run and what the log says about it. -/
def load (files : FileSystem) (named userDirectory : Option Path) :
    Except Error Config × List Log.Line := ofSource files (locate files named userDirectory)

end Config
end NightlyRelease
