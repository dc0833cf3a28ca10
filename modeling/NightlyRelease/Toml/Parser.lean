/-
# Reading values

A value is a string, a number, a boolean, a date or time, an array in brackets
or a table in braces. Arrays may run over several lines and end with a comma; an
inline table stands on one line and does not. Arrays and inline tables lie in
each other only up to a fixed depth.
-/

import NightlyRelease.Toml.Number
import NightlyRelease.Toml.Quotation

namespace NightlyRelease
namespace Toml

namespace Table

/-- Changes the table at the end of a path; tables on the way that are missing come to be.
`dotted` tells a dotted key from a header: a dotted key does not go into a table that has a
header or braces of its own. Of tables in double brackets the last one is meant. -/
def update (dotted : Bool) (change : Table → Option Table) : List Key → Table → Option Table
  | [], t => change t
  | k :: ks, t => match t.find? k.name with
    | none => do
      let child ← update dotted change ks (empty (if dotted then .dotted else .implied) none)
      return t.append k child.node
    | some (.mk span (.table origin entries)) =>
      if origin = .inline ∨ (dotted ∧ origin = .header) then none
      else do
        let child ← update dotted change ks ⟨origin, span, entries⟩
        return t.replace k.name child.node
    | some (.mk span (.tables items)) => do
      let last ← items.getLast?
      let child ← update dotted change ks (← ofNode? last)
      return t.replace k.name (.mk span (.tables (items.dropLast ++ [child.node])))
    | some _ => none

/-- Adds an entry that a dotted key or a plain one gives. -/
def insert (t : Table) (path : List Key) (key : Key) (value : Node) : Option Table :=
  update true (fun inner =>
    if path ≠ [] ∧ inner.origin ≠ .dotted then none
    else if (inner.find? key.name).isSome then none
    else some (inner.append key value)) path t

end Table

/-- A value with its place, from the text before it and the text after it. -/
def node (before after : List Char) (shape : Shape Node) : Node :=
  .mk (some (spanOf before after)) shape

/-- The path and the last part of a key. -/
def splitKey (key : List Key) : Option (List Key × Key) := do
  return (key.dropLast, ← key.getLast?)

/-- A key, an equals sign and a value, with blanks around all three. -/
def keyValue (value : Reader Node) : Reader (List Key × Node) := fun s => do
  let (key, r) ← dottedKey s
  let r ← mark '=' r
  let (v, r) ← value (skipGaps r)
  return ((key, v), skipGaps r)

/-- The elements of an array after its opening bracket. -/
def arrayBody (value : Reader Node) : Nat → Reader (List Node)
  | 0, _ => none
  | fuel + 1, s => do
    let s ← skipTrivia s
    if let ']' :: r := s then return ([], r)
    let (v, r) ← value s
    match ← skipTrivia r with
    | ',' :: r => do
      let (vs, r) ← arrayBody value fuel r
      return (v :: vs, r)
    | ']' :: r => return ([v], r)
    | _ => none

/-- The entries of an inline table from the first one on, added to a table. -/
def inlineBody (value : Reader Node) : Nat → Table → Reader Table
  | 0, _, _ => none
  | fuel + 1, t, s => do
    let ((key, v), r) ← keyValue value s
    let (path, last) ← splitKey key
    let t ← t.insert path last v
    match r with
    | ',' :: r => inlineBody value fuel t r
    | '}' :: r => return (t, r)
    | _ => none

/-- An inline table after its opening brace. -/
def inlineTable (value : Reader Node) : Reader Table := fun s =>
  match skipGaps s with
  | '}' :: r => some (.empty .inline none, r)
  | _ => inlineBody value (s.length + 1) (.empty .inline none) s

/-- A value that has no others in it. -/
def scalar : Reader (Shape Node) := fun s =>
  match s with
  | 't' :: 'r' :: 'u' :: 'e' :: r => some (.boolean true, r)
  | 'f' :: 'a' :: 'l' :: 's' :: 'e' :: r => some (.boolean false, r)
  | c :: _ =>
    if c = '"' ∨ c = '\x27' then do
      let (t, r) ← string s
      return (.text (String.ofList t), r)
    else match moment? s with
      | some r => some (.moment, r)
      | none => match float s with
        | some (x, r) => some (.float x, r)
        | none => do
          let (n, r) ← integer s
          return (.integer n, r)
  | [] => none

/-- A value; arrays and inline tables may lie in each other `depth` deep. -/
def value : Nat → Reader Node
  | depth, '[' :: r => match depth with
    | 0 => none
    | depth + 1 => do
      let (vs, rest) ← arrayBody (value depth) (r.length + 1) r
      return (node ('[' :: r) rest (.array vs), rest)
  | depth, '{' :: r => match depth with
    | 0 => none
    | depth + 1 => do
      let (t, rest) ← inlineTable (value depth) r
      return (node ('{' :: r) rest (.table .inline t.entries), rest)
  | _, s => do
    let (shape, rest) ← scalar s
    return (node s rest shape, rest)

end Toml
end NightlyRelease
