/-
# Staging files

To stage a file is to put what the work directory has of it into the index. The
path must start with a name, must not lead through `..` or the directory of the
repository, and must lead to a file or a link. The index is written under a lock
like every other file of a repository.
-/

import NightlyRelease.Git.Operation
import NightlyRelease.Git.WorkTree

namespace NightlyRelease
namespace Git
namespace Staging

/-- Refuses a path that does not start with a name. -/
def checkStart (p : String) : Except Fault Unit :=
  let path := "\x60" ++ p ++ "\x60"
  if p = "" then .error { text := "repo path should not be empty" }
  else match Path.components ⟨p⟩ with
    | "" :: _ => .error { text := "repo path " ++ path ++ " should be relative" }
    | "." :: _ => .error { text := "repo path " ++ path ++ " should not start with \x60.\x60" }
    | ".." :: _ => .error { text := "repo path " ++ path ++ " should not start with \x60..\x60" }
    | _ => .ok ()

/-- The names that the directory of a repository goes by. -/
def innerNames : List (List Char) := [Site.innerName.toList, "git~1".toList]

/-- Whether what follows such a name makes no difference to it. -/
def isNoAddition : List Char → Bool
  | [] => true
  | c :: r => c == '\\' || c == ':' || (c :: r).all fun d => d == ' ' || d == '.'

/-- Whether a name stands for the directory of a repository. -/
def namesInner (name : String) : Bool :=
  innerNames.any fun inner =>
    ((Text.stripPrefix? inner (name.toList.map Char.toLower)).map isNoAddition).getD false

/-- Whether a name may stand in a path of the index. -/
def isName (name : String) : Bool :=
  name != "" && name != "." && name != ".." && !namesInner name

/-- What a bare repository refuses to do. -/
def bareFault (what : String) : Fault where
  text := what ++ ". This operation is not allowed against bare repositories."
  cls := some .repository
  code := some .bareRepository

/-- What is to be stored of the file at a path. -/
def read (fs : FileSystem) (site : Site) (p : String) : Except Fault (TreePath × Blob) := do
  checkStart p
  withoutNul [p]
  let some workDirectory := site.workDirectory | throw (bareFault "cannot create blob from file")
  let full : Path := ⟨(pathOf workDirectory).text ++ "/" ++ p⟩
  let (_, node) ← (fs.find false full).mapError (Fault.ofPath full.text)
  let names := Path.components ⟨p⟩
  if !names.all isName then
    throw { text := "invalid path: '" ++ p ++ "'", cls := some .index }
  match Blob.ofNode? node with
  | some blob => return (names, blob)
  | none => throw { text := "cannot create blob from '" ++ full.text ++ "': it is a directory"
                    cls := some .odb }

/-- Refuses to write an index that is locked. -/
def requireUnlocked (fs : FileSystem) (site : Site) : Except Fault Unit :=
  if fs.pathExists (pathOf (site.directory ++ ["index.lock"])) then
    .error { text := "the index is locked; this might be due to a concurrent or crashed process"
             cls := some .index, code := some .locked }
  else .ok ()

/-- The index of a repository. -/
def index (site : Site) : Operation Index :=
  return ((← Operation.machine).store site.directory).index

/-- Writes the index of a repository. -/
def setIndex (site : Site) (i : Index) : Operation Unit := do
  Operation.ofExcept (requireUnlocked (← Operation.files) site)
  let m ← Operation.machine
  Operation.setMachine (m.setStore { m.store site.directory with index := i })

/-- Stages everything in the work directory that is under version control or not ignored. -/
def stageAll (site : Site) : Operation Unit := do
  let fs ← Operation.files
  let some workDirectory := site.workDirectory
    | throw (bareFault "cannot index add all")
  let i ← index site
  setIndex site (.ofFiles (WorkTree.shown fs site.directory workDirectory i))

/-- Leaves three sides of a file in the index. -/
def stageConflict (site : Site) (p : TreePath) (side : Nat → String) : Operation Unit := do
  setIndex site ((← index site).addConflict p fun n => ⟨.regular, (side n).toUTF8⟩)

end Staging
end Git
end NightlyRelease
