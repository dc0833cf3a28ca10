/-
# The program on a machine

The program is run on a picture of the files that it can see: the work directory
of the repository with everything below it, the current directory's and the
user's configuration, and the file that is named as one. Files that the run has
changed are written back, and what it has said is printed.

The picture holds no stored commits, so the program tells about a repository
with a history that its commits cannot be retrieved, before it changes anything.
-/

import NightlyRelease.CommandLine.Program
import NightlyRelease.Repository.Stored

namespace NightlyRelease
namespace Host

/-- A place with what stands there. -/
abbrev Entry := FileSystem.Location × FileSystem.Node

/-- The location of an absolute path. -/
def locationOf (p : Path) : FileSystem.Location :=
  p.components.filter fun name => name ≠ "" ∧ name ≠ "."

/-- A name in a directory, as the system knows it. -/
def entryIn (directory : FileSystem.Location) (name : String) : IO.FS.DirEntry :=
  ⟨(Git.pathOf directory).text, name⟩

/-- What stands below a directory, without stored objects. -/
partial def below (directory : FileSystem.Location) : IO (List Entry) := do
  let mut found := []
  for e in ← (entryIn directory ".").path.readDir do
    let place := directory ++ [e.fileName]
    match (← e.path.symlinkMetadata).type with
    | .file => found := (place, .file (← IO.FS.readBinFile e.path)) :: found
    | .symlink => found := (place, .link (← IO.FS.realPath e.path).toString) :: found
    | .dir =>
      let inside ← if e.fileName = "objects" then pure [] else below place
      found := (place, .directory) :: inside ++ found
    | .other => pure ()
  return found

/-- A location with all that it lies in, the outermost first. -/
def ancestors (l : FileSystem.Location) : List FileSystem.Location :=
  (List.range (l.length + 1)).map l.take

/-- The work directory to which a place belongs, or the place itself. -/
def workDirectoryOf (l : FileSystem.Location) : IO FileSystem.Location := do
  let holds (a : FileSystem.Location) : IO Bool := do (entryIn a Git.Site.innerName).path.pathExists
  return (← (ancestors l).reverse.filterM holds).headD l

/-- A file, if it is there. -/
def fileAt? (l : FileSystem.Location) : IO (Option Entry) := do
  let e := entryIn l.dropLast (l.getLastD "")
  if ← e.path.isDir then return some (l, .directory)
  else if ← e.path.pathExists then return some (l, .file (← IO.FS.readBinFile e.path))
  else return none

/-- The place that a path leads to, or would lead to. -/
def placeOf (current : FileSystem.Location) (p : Path) : IO FileSystem.Location := do
  let full := (Git.pathOf current).join p
  try return locationOf ⟨(← IO.FS.realPath full.text).toString⟩
  catch _ => return locationOf full

/-- The picture of the files that a run can see from the current directory. -/
def picture (current : FileSystem.Location) (repository : Path) (configurations : List Path) :
    IO FileSystem := do
  let root ← workDirectoryOf (← placeOf current repository)
  let tree ← if ← (entryIn root ".").path.isDir then below root else pure []
  let files ← configurations.filterMapM fun p => do fileAt? (← placeOf current p)
  let places := current :: root :: files.map (·.1.dropLast)
  let onTheWay := (places.flatMap ancestors).filter (· ≠ [])
  return { entries := tree ++ files ++ onTheWay.map fun l => (l, .directory), current }

/-- Writes a file that a run has changed. -/
def save (before : FileSystem) : Entry → IO Unit
  | (l, .file content) => do
    if before.at? l ≠ some (.file content) then
      IO.FS.createDirAll (Git.pathOf l.dropLast).text
      IO.FS.writeBinFile (Git.pathOf l).text content
  | _ => pure ()

/-- What the system says about the user's directories. -/
def environment : IO Config.Environment := do
  return { configHome := ← IO.getEnv "XDG_CONFIG_HOME", home := ← IO.getEnv "HOME" }

/-- Whether a line of the log is shown. -/
def isShown (verbose : Bool) (line : Log.Line) : Bool := verbose || line.level != .debug

/-- The places where a configuration can be. -/
def configurations (named userDirectory : Option Path) : List Path :=
  named.toList ++ [Config.fileName] ++ (userDirectory.map (·.join Config.fileName)).toList

/-- Runs the program on the files of the machine and gives its exit status. -/
def run (arguments : List String) : IO UInt32 := do
  let request := (CommandLine.parse arguments).toOption
  let userDirectory := (← environment).configDirectory?
  let current := locationOf ⟨(← IO.currentDir).toString⟩
  let before ← match request with
    | none => pure FileSystem.empty
    | some r => picture current r.repository (configurations r.config userDirectory)
  let (result, after) := CommandLine.run arguments userDirectory Repository.storedAt
    ⟨before, ({} : Git.Machine), []⟩
  after.files.entries.forM (save before)
  for line in after.log.filter (isShown ((request.map (·.verbose)).getD false)) do
    IO.eprintln line.render
  match result with
  | .ok ending =>
    IO.print ending.output.stdout
    IO.eprint ending.output.stderr
    return .ofNat ending.exitCode
  | .error (.failed e) => IO.eprintln e.chain; return 1
  | .error (.aborted reason) => IO.eprintln reason; return 1

end Host
end NightlyRelease

/-- The program. -/
def main (arguments : List String) : IO UInt32 := NightlyRelease.Host.run arguments
