/-
# Refspecs

A refspec tells which reference of one repository goes to which reference of
another: `refs/heads/main:refs/heads/main`. With a star on each side it speaks of
all references of a form, as `refs/heads/*:refs/remotes/origin/*`, and the star
stands for the same text on both sides. A plus in front lets a reference go back
in history.
-/

import NightlyRelease.Git.Reference

namespace NightlyRelease
namespace Git

/-- A reference and where it goes. -/
structure Refspec where
  source : String
  target : String
  deriving DecidableEq, Repr

namespace Refspec

/-- The written form of a refspec. -/
def text (r : Refspec) : String := r.source ++ ":" ++ r.target

/-- The refspec of a branch that goes to the branch of the same name. -/
def ofBranch (branch : String) : Refspec :=
  ⟨Reference.ofBranch branch, Reference.ofBranch branch⟩

/-- Reads a refspec: the last colon parts the two sides. -/
def read (s : String) : Refspec :=
  match Text.splitAt? [':'] s.toList.reverse with
  | some (target, source) => ⟨String.ofList source.reverse, String.ofList target.reverse⟩
  | none => ⟨s, ""⟩

/-- Whether a text holds a star. -/
def hasStar (s : String) : Bool := s.toList.contains '*'

/-- Whether the sides of a refspec are of a form that can be pushed. Whether the source is there
does not matter, but a pattern must look like a name. -/
def isProper (r : Refspec) : Bool :=
  let pattern := hasStar r.target
  hasStar r.source == pattern && r.target != "" && Reference.isName r.target pattern true &&
    (!pattern || Reference.isName r.source true true)

/-- What the star of a pattern stands for in a name; a pattern without one is the name. -/
def starOf? (pattern name : List Char) : Option (List Char) :=
  match Text.splitAt? ['*'] pattern with
  | none => if pattern = name then some [] else none
  | some (before, after) => do
    let rest ← Text.stripPrefix? before name
    let middle ← Text.stripPrefix? after.reverse rest.reverse
    return middle.reverse

/-- A text with something in place of its star. -/
def fillStar (s star : List Char) : List Char :=
  match Text.splitAt? ['*'] s with
  | none => s
  | some (before, after) => before ++ star ++ after

/-- Where a reference goes, if the refspec speaks of it. -/
def targetOf? (r : Refspec) (name : String) : Option String :=
  (starOf? r.source.toList name.toList).map fun star =>
    String.ofList (fillStar r.target.toList star)

/-- A text without the plus in front of it. -/
def withoutPlus (s : List Char) : List Char := (Text.stripPrefix? ['+'] s).getD s

/-- Where the first of some refspecs that speaks of a reference takes it. -/
def firstTarget? (specs : List String) (name : String) : Option String :=
  specs.findSome? fun s => (read (String.ofList (withoutPlus s.toList))).targetOf? name

end Refspec
end Git
end NightlyRelease
