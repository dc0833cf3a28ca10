/-
# Ignored files

Files named `.gitignore` hold patterns, one a line, for the directory in which
they lie and all below it; the file `info/exclude` of the repository holds more.
A pattern with a slash in front or inside is matched with the whole path, any
other one with the name; one with a slash at its end stands for directories
only. A pattern after `!` takes files back. Of the patterns of a file the last
that fits counts, and the file in the closest directory comes first.

A directory that is ignored is not looked into unless it holds files that are
under version control. What no pattern fits is treated as its directory is.
-/

import NightlyRelease.Git.Commit
import NightlyRelease.Text.Lines
import NightlyRelease.Text.Utf8

namespace NightlyRelease
namespace Git
namespace Ignore

/-- A set of characters in brackets, after the opening one: whether a character is in it, and
the pattern after it. `first` tells that nothing has been read. -/
def readSet (c : Char) (first found : Bool) : List Char → Option (Bool × List Char)
  | [] => none
  | ']' :: r => if first then readSet c false (found || c == ']') r else some (found, r)
  | '\\' :: a :: r => readSet c false (found || c == a) r
  | a :: '-' :: ']' :: r => some (found || c == a || c == '-', r)
  | a :: '-' :: b :: r => readSet c false (found || (a ≤ c && c ≤ b)) r
  | a :: r => readSet c false (found || c == a) r

/-- Whether a character is in the set that a pattern goes on with, and the pattern after it. -/
def inSet (c : Char) : List Char → Option (Bool × List Char)
  | '!' :: r => (readSet c true false r).map fun (found, t) => (!found, t)
  | '^' :: r => (readSet c true false r).map fun (found, t) => (!found, t)
  | r => readSet c true false r

/-- Whether some rest of a text passes a test, where no character that stops the search is left
out. -/
def someRest (stops : Char → Bool) (test : List Char → Bool) : List Char → Bool
  | [] => test []
  | c :: r => test (c :: r) || (!stops c && someRest stops test r)

/-- Whether a pattern fits a text. Stars and question marks stop at slashes if `whole` says that
the text is a path; two stars between slashes do not. -/
def fits (whole : Bool) : Nat → (pattern text : List Char) → Bool
  | 0, _, _ => false
  | fuel + 1, pattern, text =>
    let stops (c : Char) : Bool := whole && c == '/'
    match pattern, text with
    | [], s => s = []
    | '*' :: '*' :: '/' :: p, s =>
      if whole then
        fits whole fuel p s || (s.contains '/' &&
          fits whole fuel ('*' :: '*' :: '/' :: p) ((s.dropWhile (· != '/')).drop 1))
      else someRest stops (fits whole fuel ('*' :: '/' :: p)) s
    | ['/', '*', '*'], s => s.head? == some '/' && (s.length > 1 || !whole)
    | '*' :: p, s => someRest stops (fits whole fuel p) s
    | '?' :: p, c :: s => !stops c && fits whole fuel p s
    | '[' :: p, c :: s => match inSet c p with
      | some (true, q) => !stops c && fits whole fuel q s
      | _ => false
    | '\\' :: a :: p, c :: s => a == c && fits whole fuel p s
    | a :: p, c :: s => a == c && fits whole fuel p s
    | _ :: _, [] => false

/-- A line of a file of patterns. -/
structure Rule where
  /-- Whether files are taken back. -/
  negated : Bool
  directoryOnly : Bool
  /-- Whether the pattern is for the whole path. -/
  whole : Bool
  pattern : List Char
  deriving DecidableEq, Repr

/-- A line without the blanks at its end, except those after a backslash. -/
def trimLine (s : List Char) : List Char :=
  let s := if s.getLast? == some '\r' then s.dropLast else s
  let rest := s.reverse.dropWhile fun c => c == ' ' || c == '\t'
  if rest.head? == some '\\' ∧ rest.length < s.length then
    (s.take (rest.length + 1))
  else rest.reverse

/-- The rule of a line that is neither empty nor a comment. -/
def Rule.ofLine? (line : List Char) : Option Rule :=
  if line.head? == some '#' then none
  else
    let negated := line.head? == some '!'
    let body := trimLine (if negated then line.drop 1 else line)
    let directoryOnly := body.getLast? == some '/' && body.length > 1
    let body := if directoryOnly then body.dropLast else body
    let whole := body.contains '/'
    let pattern := if body.head? == some '/' then body.drop 1 else body
    if pattern = [] then none else some { negated, directoryOnly, whole, pattern }

/-- The rules of a file. -/
def rulesOf (text : String) : List Rule := (Text.pieces text.toList).filterMap Rule.ofLine?

/-- Whether a rule of a directory fits a path below it. -/
def Rule.fitsPath (r : Rule) (path : TreePath) (isDirectory : Bool) : Bool :=
  let text := if r.whole then TreePath.text path else path.getLast?.getD ""
  (isDirectory || !r.directoryOnly) &&
    fits r.whole (r.pattern.length + text.length + 1) r.pattern text.toList

/-- What the rules of a file say about a path: whether it is ignored, if any rule fits. -/
def decide? (rules : List Rule) (path : TreePath) (isDirectory : Bool) : Option Bool :=
  (rules.reverse.find? fun r => r.fitsPath path isDirectory).map fun r => !r.negated

/-- The rules of a work directory: those of each directory, and those of the repository. -/
structure Rules where
  inDirectory : TreePath → List Rule
  general : List Rule

/-- The text of a file, if it can be read. -/
def textAt (fs : FileSystem) (l : FileSystem.Location) : String :=
  match fs.read ⟨"/" ++ "/".intercalate l⟩ with
  | .ok content => String.ofList (Text.Utf8.lossy content.toList)
  | .error _ => ""

/-- The rules that hold in a work directory. -/
def Rules.read (fs : FileSystem) (directory workDirectory : FileSystem.Location) : Rules where
  inDirectory p := rulesOf (textAt fs (workDirectory ++ p ++ [".gitignore"]))
  general := rulesOf (textAt fs (directory ++ ["info", "exclude"]))

/-- The directories in which a path lies, with the path as seen from them, the closest first. -/
def views (path : TreePath) : List (TreePath × TreePath) :=
  (List.range path.length).reverse.map fun n => (path.take n, path.drop n)

/-- What the rules say about a path: whether it is ignored, if any rule fits. -/
def Rules.decide? (rules : Rules) (path : TreePath) (isDirectory : Bool) : Option Bool :=
  match (views path).findSome? fun (d, p) => Ignore.decide? (rules.inDirectory d) p isDirectory with
  | some ignored => some ignored
  | none => Ignore.decide? rules.general path isDirectory

/-- Whether a file is ignored, from the directory `done` on that it lies in; `inherited` tells
whether that directory is. -/
def Rules.hides (rules : Rules) (tracked : List TreePath) (inherited : Bool) (done : TreePath) :
    TreePath → Bool
  | [] => inherited
  | [name] => (rules.decide? (done ++ [name]) false).getD inherited
  | name :: rest =>
    let here := done ++ [name]
    let ignored := (rules.decide? here true).getD inherited
    if ignored && !tracked.any (here.isPrefixOf ·) then true
    else rules.hides tracked ignored here rest

end Ignore
end Git
end NightlyRelease
