/-
# References

A reference is a file in the directory of a repository. It holds the name of a
commit, or `ref: ` and the name of another reference. `HEAD` tells what is
checked out: a branch, if it names one under `refs/heads/`. The branch need not
be there yet.

A reference is written under a lock: while there is a file with `.lock` behind
its name, nobody else writes it.
-/

import NightlyRelease.Git.Commit
import NightlyRelease.Git.Fault
import NightlyRelease.Text.Utf8

namespace NightlyRelease
namespace Git

/-- The path of a location, from the root. -/
def pathOf (l : FileSystem.Location) : Path := ⟨"/" ++ "/".intercalate l⟩

namespace Reference

/-- The characters that no name of a reference holds, besides blanks and controls. -/
def refusedChars : List Char := ['~', '^', ':', '\\', '?', '[']

/-- Whether a character may stand in a name; a star only where a pattern is allowed. -/
def isNameChar (pattern : Bool) (c : Char) : Bool :=
  0x20 < c.toNat && !refusedChars.contains c && (pattern || c != '*')

/-- Whether two characters never stand side by side in a name. -/
def isRefusedPair (a b : Char) : Bool := (a == '.' && b == '.') || (a == '@' && b == '\x7b')

/-- Whether a component is a proper one: it is not empty, does not start with a point, and does
not end with `.lock`. -/
def isComponent (pattern : Bool) (s : List Char) : Bool :=
  s != [] && s.head? != some '.' && s.all (isNameChar pattern) &&
    !(s.zip s.tail).any (fun (a, b) => isRefusedPair a b) && !".lock".toList.isSuffixOf s

/-- Whether a name consists of capitals, with underscores only between them. -/
def isCapitals (s : List Char) : Bool :=
  s != [] && s.all (fun c => c.isUpper || c == '_') && s.head? != some '_' &&
    s.getLast? != some '_'

/-- Whether a text can be the name of a reference; with `pattern` it may hold one star, with
`oneLevel` it may be a single component of any kind. -/
def isName (name : String) (pattern oneLevel : Bool) : Bool :=
  let parts := Text.splitOn '/' name.toList
  parts.all (isComponent pattern) && name.toList.getLast? != some '.' &&
    name.toList.count '*' ≤ 1 &&
    match parts with
    | [part] => oneLevel || isCapitals part
    | part :: _ => !isCapitals part
    | [] => false

/-- What a reference holds. -/
inductive Target where
  /-- A commit; there is none if the name is one that no commit has. -/
  | commit (id : Option CommitId)
  | reference (name : String)
  deriving DecidableEq, Repr

/-- The bytes before the name of another reference. -/
def mark : List UInt8 := "ref: ".toUTF8.toList

/-- Whether a byte is a blank. -/
def isBlankByte (b : UInt8) : Bool := (9 ≤ b && b ≤ 13) || b == 32

/-- The bytes without the blanks at their end. -/
def trimEnd (s : List UInt8) : List UInt8 := (s.reverse.dropWhile isBlankByte).reverse

/-- Reads the file of a reference. -/
def parse (name : String) (content : List UInt8) : Except Fault Target :=
  if mark.isPrefixOf content then
    match (trimEnd content).drop mark.length with
    | [] => .error { text := "corrupted loose reference file", cls := some .reference }
    | target => .ok (.reference (String.ofList (Text.Utf8.lossy target)))
  else
    match CommitId.read? ((content.take 40).map fun b => Char.ofNat b.toNat),
        (content.drop 40).head? with
    | some id, none => .ok (.commit id)
    | some id, some b =>
      if isBlankByte b then .ok (.commit id) else .error (.corruptedReference name)
    | none, _ => .error (.corruptedReference name)

/-- Where the file of a reference lies. -/
def location (directory : FileSystem.Location) (name : String) : FileSystem.Location :=
  directory ++ Path.components ⟨name⟩

/-- What a reference holds, if it is there. -/
def lookup (fs : FileSystem) (directory : FileSystem.Location) (name : String) :
    Except Fault (Option Target) :=
  match fs.read (pathOf (location directory name)) with
  | .ok content => some <$> parse name content.toList
  | .error _ => .ok none

/-- What a chain of references ends with. -/
inductive Resolved where
  /-- A reference that holds a commit. -/
  | found (name : String) (id : Option CommitId)
  /-- The last name of the chain leads nowhere; the reference before it is there. -/
  | dangling (name missing : String)
  deriving DecidableEq, Repr

/-- Follows references from one that holds another name. -/
def follow (fs : FileSystem) (directory : FileSystem.Location) :
    Nat → (name next : String) → Except Fault Resolved
  | 0, _, _ => .error
    { text := "cannot resolve reference (>5 levels deep)", cls := some .reference }
  | depth + 1, name, next => do
    match ← lookup fs directory next with
    | none => return .dangling name next
    | some (.commit id) => return .found next id
    | some (.reference further) => follow fs directory depth next further

/-- How many references a chain may have. -/
def chainLimit : Nat := 5

/-- The commit of a reference, through others if need be. -/
def resolve (fs : FileSystem) (directory : FileSystem.Location) (name : String) :
    Except Fault (Option Resolved) := do
  if !isName name false true then throw (.invalidName name)
  match ← lookup fs directory name with
  | none => return none
  | some (.commit id) => return some (.found name id)
  | some (.reference next) => some <$> follow fs directory chainLimit name next

/-- Where the names of branches start. -/
def branchMark : String := "refs/heads/"

/-- The reference of a branch. -/
def ofBranch (branch : String) : String := branchMark ++ branch

/-- The branch that a reference stands for. -/
def branch? (name : String) : Option String :=
  (Text.stripPrefix? branchMark.toList name.toList).map String.ofList

/-- The directories in which a file lies, from below `directory` on. -/
def folders (directory : FileSystem.Location) (parts : List String) :
    List FileSystem.Location :=
  (List.range parts.length).filterMap fun n =>
    if n = 0 then none else some (directory ++ parts.take n)

/-- Makes way for the file of a reference: no file stands where a directory is needed, and a
directory in its place goes if it is empty throughout. -/
def clear (fs : FileSystem) (directory : FileSystem.Location) (name : String) :
    Except Fault FileSystem :=
  let place := location directory name
  let blocked := (folders directory (Path.components ⟨name⟩)).any fun l =>
    match fs.at? l with
    | some (.file _) => true
    | _ => false
  if blocked then
    .error { text := "could not remove directory '" ++ (pathOf place).text ++
               "': parent is not directory: Not a directory", cls := some .os }
  else if fs.at? place ≠ some .directory then .ok fs
  else if (fs.below place).all (fun e => e.2 == .directory) then .ok (fs.erase place)
  else .error { text := "cannot lock ref '" ++ name ++ "', there are refs beneath that folder"
                cls := some .reference }

/-- Refuses to write a file that is locked. -/
def requireUnlocked (fs : FileSystem) (place : FileSystem.Location) : Except Fault Unit :=
  let p := pathOf place
  if fs.pathExists ⟨p.text ++ ".lock"⟩ then .error (.lockedFile p.text) else .ok ()

/-- The text of a file for a reference. -/
def Target.file : Target → String
  | .commit id => CommitId.text (id.getD 0) ++ "\n"
  | .reference name => "ref: " ++ name ++ "\n"

/-- Writes a reference under its lock. -/
def write (fs : FileSystem) (directory : FileSystem.Location) (name : String) (target : Target) :
    Except Fault FileSystem := do
  let fs ← clear fs directory name
  let place := location directory name
  requireUnlocked fs place
  let fs := (fs.makeDirectories (pathOf place.dropLast)).toOption.getD fs
  (fs.writeText (pathOf place) target.file).mapError (Fault.unmadeFile (pathOf place).text)

end Reference

/-- What is checked out. -/
inductive Head where
  /-- The name of a reference that is not there. -/
  | unborn (name : String)
  /-- A reference with a commit; its name is `HEAD` if no other is checked out. -/
  | born (name : String) (id : Option CommitId)
  /-- A reference that names one that is not there. -/
  | broken (name missing : String)
  deriving DecidableEq, Repr

namespace Head

/-- Finds out what is checked out. -/
def read (fs : FileSystem) (directory : FileSystem.Location) : Except Fault Head := do
  match ← Reference.lookup fs directory "HEAD" with
  | none => return .unborn "HEAD"
  | some (.commit id) => return .born "HEAD" id
  | some (.reference name) => match ← Reference.resolve fs directory name with
    | none => return .unborn name
    | some (.found name id) => return .born name id
    | some (.dangling name missing) => return .broken name missing

/-- The reference that the next commit moves. -/
def target : Head → String
  | unborn name => name
  | born name _ => name
  | broken _ missing => missing

end Head
end Git
end NightlyRelease
