/-
# File systems

A file system holds files, directories and symbolic links at locations; a
location is the list of names that lead to it from the root. A path is resolved
name by name: `.` stays, `..` goes back, and a link is replaced by its target. A
path that leads through too many links is refused.

Writing gives a file system in which one location holds a new file and all else
is as it was. A write that is refused changes nothing.
-/

import NightlyRelease.FileSystem.Path
import NightlyRelease.Text.Decimal

namespace NightlyRelease
namespace FileSystem

/-- The names that lead from the root to a place. -/
abbrev Location := List String

/-- Contents are compared byte by byte. -/
instance decidableEqContent : DecidableEq ByteArray := fun b c =>
  decidable_of_iff (b.data = c.data) ByteArray.ext_iff.symm

/-- What a place holds. -/
inductive Node where
  | file (content : ByteArray)
  | directory
  /-- A symbolic link to a path. -/
  | link (target : String)
  deriving DecidableEq

/-- Why a file cannot be read or written. -/
inductive Fault where
  | notFound
  | notADirectory
  | isADirectory
  | tooManyLinks
  | nameTooLong
  | nulInName
  | notText
  deriving DecidableEq, Repr

/-- What the system says about a fault. -/
def Fault.reason : Fault → String
  | notFound => "No such file or directory"
  | notADirectory => "Not a directory"
  | isADirectory => "Is a directory"
  | tooManyLinks => "Too many levels of symbolic links"
  | nameTooLong => "File name too long"
  | nulInName => "file name contained an unexpected NUL byte"
  | notText => "stream did not contain valid UTF-8"

/-- The number of a fault, if the system has one for it. -/
def Fault.number? : Fault → Option Nat
  | notFound => some 2
  | notADirectory => some 20
  | isADirectory => some 21
  | tooManyLinks => some 40
  | nameTooLong => some 36
  | nulInName => none
  | notText => none

/-- The message about a fault. -/
def Fault.message (f : Fault) : String :=
  match f.number? with
  | some n => f.reason ++ " (os error " ++ Text.Decimal.text n ++ ")"
  | none => f.reason

/-- Whether a fault means that there is nothing at a path. -/
def Fault.isMissing (f : Fault) : Bool := f = notFound || f = notADirectory

end FileSystem

/-- Files, directories and links, and the directory from which relative paths start. -/
structure FileSystem where
  entries : List (FileSystem.Location × FileSystem.Node)
  current : FileSystem.Location
  deriving DecidableEq

namespace FileSystem

/-- Only the root is there. -/
def empty : FileSystem := ⟨[], []⟩

/-- What stands at a location; the root is always a directory. -/
def at? (fs : FileSystem) (l : Location) : Option Node :=
  if l = [] then some .directory else fs.entries.lookup l

/-- Puts a node at a location, in place of what is there. -/
def set (fs : FileSystem) (l : Location) (n : Node) : FileSystem :=
  if (fs.entries.lookup l).isSome then
    { fs with entries := fs.entries.map fun e => if e.1 == l then (l, n) else e }
  else { fs with entries := fs.entries ++ [(l, n)] }

/-- Takes away what stands at a location and below it. -/
def erase (fs : FileSystem) (l : Location) : FileSystem :=
  { fs with entries := fs.entries.filter fun e => !l.isPrefixOf e.1 }

/-- What stands below a location, each place named as seen from there. -/
def below (fs : FileSystem) (l : Location) : List (Location × Node) :=
  fs.entries.filterMap fun e =>
    if l.isPrefixOf e.1 ∧ l.length < e.1.length then some (e.1.drop l.length, e.2) else none

/-- How many links a path may lead through. -/
def linkLimit : Nat := 40

/-- The most bytes of a name. -/
def nameLimit : Nat := 255

/-- The most bytes of a path. -/
def pathLimit : Nat := 4095

/-- How far a walk comes without going through a link. -/
inductive Progress where
  | arrived (l : Location)
  /-- A link was met in a directory, with names left to follow after it. -/
  | met (directory : Location) (target : Path) (rest : List String)

/-- Follows names from a place to the end or to a link. A link at the very end counts as the
end unless it is to be followed. -/
def advance (fs : FileSystem) (follow : Bool) (here : Location) :
    List String → Except Fault Progress
  | [] => .ok (.arrived here)
  | name :: rest => match fs.at? here with
    | none => .error .notFound
    | some .directory =>
      if name = "" ∨ name = "." then advance fs follow here rest
      else if name = ".." then advance fs follow here.dropLast rest
      else if nameLimit < name.utf8ByteSize then .error .nameTooLong
      else match fs.at? (here ++ [name]) with
        | some (.link target) =>
          if rest = [] ∧ follow = false then .ok (.arrived (here ++ [name]))
          else .ok (.met here ⟨target⟩ rest)
        | _ => advance fs follow (here ++ [name]) rest
    | some _ => .error .notADirectory

/-- The place from which a path starts, as seen from a directory. -/
def startOf (directory : Location) (p : Path) : Location := if p.isAbsolute then [] else directory

/-- Follows names through at most so many links. -/
def walk (fs : FileSystem) (follow : Bool) : Nat → Location → List String → Except Fault Location
  | links, here, names => do
    match ← advance fs follow here names with
    | .arrived l => return l
    | .met directory target rest => match links with
      | 0 => throw .tooManyLinks
      | links + 1 => walk fs follow links (startOf directory target) (target.components ++ rest)

/-- Refuses a text that the system does not take as a path. -/
def acceptPath (p : Path) : Except Fault Unit :=
  if p.text.toList.contains '\x00' then .error .nulInName
  else if p.text = "" then .error .notFound
  else if pathLimit < p.text.utf8ByteSize then .error .nameTooLong
  else .ok ()

/-- The location that a path names; there need not be anything at it, but the directory in
which it lies is there. -/
def resolve (fs : FileSystem) (follow : Bool) (p : Path) : Except Fault Location := do
  acceptPath p
  walk fs follow linkLimit (startOf fs.current p) p.components

/-- What a path leads to. -/
def find (fs : FileSystem) (follow : Bool) (p : Path) : Except Fault (Location × Node) := do
  let l ← fs.resolve follow p
  match fs.at? l with
  | none => throw .notFound
  | some n => return (l, n)

/-- Whether a path leads to anything. -/
def pathExists (fs : FileSystem) (p : Path) : Bool := (fs.find true p).isOk

/-- The bytes of a file. -/
def read (fs : FileSystem) (p : Path) : Except Fault ByteArray := do
  match ← fs.find true p with
  | (_, .file content) => return content
  | _ => throw .isADirectory

/-- The text of a file. -/
def readText (fs : FileSystem) (p : Path) : Except Fault String := do
  match String.fromUTF8? (← fs.read p) with
  | some s => return s
  | none => throw .notText

/-- The location for a file that is to be written: a file is there, or nothing. A path that ends
with a slash names a directory. -/
def target (fs : FileSystem) (p : Path) : Except Fault Location := do
  if p.endsWithSlash then
    acceptPath p
    let names := (p.components.reverse.dropWhile (· = "")).reverse
    let _ ← walk fs true linkLimit (startOf fs.current p) (names.dropLast ++ ["."])
    throw .isADirectory
  let l ← fs.resolve true p
  match fs.at? l with
  | none | some (.file _) => return l
  | some _ => throw .isADirectory

/-- Writes a file, in place of one that is there. -/
def write (fs : FileSystem) (p : Path) (content : ByteArray) : Except Fault FileSystem := do
  return fs.set (← fs.target p) (.file content)

/-- Writes a text to a file. -/
def writeText (fs : FileSystem) (p : Path) (s : String) : Except Fault FileSystem :=
  fs.write p s.toUTF8

/-- Makes the directories that are missing on the way along some names. -/
def makeAlong (fs : FileSystem) (start : Path) : List String → Except Fault FileSystem
  | [] => .ok fs
  | name :: rest => do
    let p := start.join ⟨name⟩
    let l ← fs.resolve true p
    makeAlong (if (fs.at? l).isNone then fs.set l .directory else fs) p rest

/-- Makes a directory with all directories on the way to it. -/
def makeDirectories (fs : FileSystem) (p : Path) : Except Fault FileSystem :=
  fs.makeAlong ⟨if p.isAbsolute then "/" else "."⟩ (p.components.filter (· ≠ ""))

end FileSystem
end NightlyRelease
