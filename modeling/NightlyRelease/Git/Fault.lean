/-
# Faults of version control

What goes wrong inside a repository has a text, mostly a class that tells which
part is concerned, and often a code that tells how. The written form puts class
and code behind the text:

    cannot set empty URL; class=Invalid (3); code=InvalidSpec (-12)
-/

import NightlyRelease.FileSystem.Basic

namespace NightlyRelease
namespace Git

/-- The part that a fault concerns. -/
inductive Fault.Class where
  | os | invalid | reference | repository | config | odb | index | net | http
  deriving DecidableEq, Repr

/-- The written form of a class. -/
def Fault.Class.text : Fault.Class → String
  | os => "Os (2)"
  | invalid => "Invalid (3)"
  | reference => "Reference (4)"
  | repository => "Repository (6)"
  | config => "Config (7)"
  | odb => "Odb (9)"
  | index => "Index (10)"
  | net => "Net (12)"
  | http => "Http (34)"

/-- How something went wrong. -/
inductive Fault.Code where
  | notFound | alreadyExists | bareRepository | unmerged | notFastForward | invalidSpec | locked
  | auth
  deriving DecidableEq, Repr

/-- The written form of a code. -/
def Fault.Code.text : Fault.Code → String
  | notFound => "NotFound (-3)"
  | alreadyExists => "Exists (-4)"
  | bareRepository => "BareRepo (-8)"
  | unmerged => "Unmerged (-10)"
  | notFastForward => "NotFastForward (-11)"
  | invalidSpec => "InvalidSpec (-12)"
  | locked => "Locked (-14)"
  | auth => "Auth (-16)"

/-- Something that went wrong. -/
structure Fault where
  text : String
  cls : Option Fault.Class := none
  code : Option Fault.Code := none
  deriving DecidableEq, Repr

namespace Fault

/-- The written form of a fault. -/
def render (f : Fault) : String :=
  f.text ++ (match f.cls with | some c => "; class=" ++ c.text | none => "") ++
    (match f.code with | some c => "; code=" ++ c.text | none => "")

/-- A text with a `NUL` was given where none can stand. -/
def nulByte : Fault where
  text := "data contained a nul byte that could not be represented as a string"

/-- A file is locked by the file with `.lock` behind its name. -/
def lockedFile (path : String) : Fault where
  text := "failed to lock file '" ++ path ++ ".lock' for writing: "
  cls := some .os
  code := some .locked

/-- The system refused to make the file with `.lock` behind the name of another one. -/
def unmadeFile (path : String) (fault : FileSystem.Fault) : Fault where
  text := "failed to create locked file '" ++ path ++ ".lock': " ++ fault.reason
  cls := some .os
  code := if fault = .notFound then some .notFound else none

/-- A name cannot be the name of a reference. -/
def invalidName (name : String) : Fault where
  text := "the given reference name '" ++ name ++ "' is not valid"
  cls := some .reference
  code := some .invalidSpec

/-- A file for a reference holds something else. -/
def corruptedReference (name : String) : Fault where
  text := "corrupted loose reference file: " ++ name
  cls := some .reference

/-- A reference leads to no commit. -/
def cannotPeel (name reason : String) : Fault where
  text := "the reference '" ++ name ++ "' cannot be peeled - " ++ reason
  cls := some .invalid
  code := some .notFound

/-- The system refused to look at a path. -/
def ofPath (path : String) (fault : FileSystem.Fault) : Fault :=
  if fault.isMissing then
    { text := "could not find '" ++ path ++ "' to stat: " ++ fault.reason
      cls := some .os, code := some .notFound }
  else { text := "could not stat '" ++ path ++ "': " ++ fault.reason, cls := some .os }

end Fault

/-- Whether a text holds a `NUL`. -/
def hasNul (s : String) : Bool := s.toList.contains '\x00'

/-- Refuses texts that hold a `NUL`. -/
def withoutNul (texts : List String) : Except Fault Unit :=
  if texts.any hasNul then .error .nulByte else .ok ()

end Git
end NightlyRelease
