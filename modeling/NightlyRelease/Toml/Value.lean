/-
# The values of a TOML document

A document is a table of keys and values. Every value knows where it stands in
the text, for messages about it, except a table that no brackets show: one that
only the dots of a key or of a header bring about.

Entries stay in the order of the document. A table also remembers how it came
to be, because that decides how the rest of the document may extend it.
-/

import NightlyRelease.Text.Binary64

namespace NightlyRelease
namespace Toml

/-- A stretch of a text. Its ends are given by how many bytes are left from there to the end
of the text. -/
structure Span where
  start : Nat
  stop : Nat
  deriving DecidableEq, Repr

/-- A key, or one part of a dotted key, with its place. -/
structure Key where
  name : String
  span : Span
  deriving DecidableEq, Repr

/-- How a table came to be. -/
inductive Origin where
  /-- A header of its own; the whole document counts as one. -/
  | header
  /-- A longer header that goes through it. -/
  | implied
  /-- A dotted key that goes through it. -/
  | dotted
  /-- Braces. -/
  | inline
  deriving DecidableEq, Repr

/-- What a value is, given its parts. -/
inductive Shape (α : Type) where
  | text (s : String)
  | integer (n : Int)
  | float (x : Text.Binary64)
  | boolean (b : Bool)
  /-- A date, a time, or both. -/
  | moment
  | array (items : List α)
  /-- The tables of the headers in double brackets. -/
  | tables (items : List α)
  | table (origin : Origin) (entries : List (Key × α))

/-- A value with its place in the text. -/
inductive Node where
  | mk (span : Option Span) (shape : Shape Node)

namespace Node

/-- Where a value stands. -/
def span : Node → Option Span
  | mk span _ => span

/-- What a value is. -/
def shape : Node → Shape Node
  | mk _ shape => shape

end Node

/-- A table while the document is read. -/
structure Table where
  origin : Origin
  span : Option Span
  entries : List (Key × Node)

namespace Table

/-- The table as a value. -/
def node (t : Table) : Node := .mk t.span (.table t.origin t.entries)

/-- The value as a table, if it is one. -/
def ofNode? : Node → Option Table
  | .mk span (.table origin entries) => some ⟨origin, span, entries⟩
  | _ => none

/-- A table without entries. -/
def empty (origin : Origin) (span : Option Span) : Table := ⟨origin, span, []⟩

/-- The value under a name. -/
def find? (t : Table) (name : String) : Option Node :=
  (t.entries.find? fun (k, _) => k.name == name).map (·.2)

/-- Adds an entry after all others. -/
def append (t : Table) (key : Key) (value : Node) : Table :=
  { t with entries := t.entries ++ [(key, value)] }

/-- Puts another value under a name that is there, at the same place. -/
def replace (t : Table) (name : String) (value : Node) : Table :=
  { t with entries := t.entries.map fun (k, v) => if k.name == name then (k, value) else (k, v) }

/-- Takes an entry out. -/
def erase (t : Table) (name : String) : Table :=
  { t with entries := t.entries.filter fun (k, _) => k.name != name }

end Table
end Toml
end NightlyRelease
