/-
# Documents

A document is a sequence of lines: blank ones, comments, headers and entries. An
entry belongs to the table of the header before it. A header in single brackets
opens a table, one in double brackets adds a table to a list, and either may go
through tables that stand before it or have no header at all. No key is given
twice, and no table has two headers.

The place of a table runs from its header to the end of its last entry, the
place of a list of tables from its first table to its last.
-/

import NightlyRelease.Toml.Parser

namespace NightlyRelease
namespace Toml

/-- A document while it is read: the finished tables, and the open one with its path. -/
structure Draft where
  root : Table
  current : Table
  path : List Key
  /-- Whether the open table stands in double brackets. -/
  listed : Bool

namespace Draft

/-- Nothing has been read. -/
def start : Draft := ⟨.empty .header none, .empty .header none, [], false⟩

/-- The place from the first to the last of some tables. -/
def hull (items : List Node) : Option Span := do
  let first ← (← items.head?).span
  let last ← (← items.getLast?).span
  return ⟨first.start, last.stop⟩

/-- The table with one more in the list under a key. -/
def pushTo (key : Key) (table : Table) (parent : Table) : Option Table :=
  match parent.find? key.name with
  | none => some (parent.append key (.mk table.span (.tables [table.node])))
  | some (.mk _ (.tables items)) =>
    let items := items ++ [table.node]
    some (parent.replace key.name (.mk (hull items) (.tables items)))
  | some _ => none

/-- Puts the open table where it belongs. -/
def close (d : Draft) : Option Table :=
  match splitKey d.path with
  | none => some d.current
  | some (path, key) =>
    if d.listed then Table.update false (pushTo key d.current) path d.root
    else Table.update false (fun parent => some (parent.append key d.current.node)) path d.root

/-- Opens the table of a header in single brackets. A table that other headers went through
is taken out and goes on; the document then has it at its new place. -/
def openTable (d : Draft) (header : List Key) (span : Span) : Option Draft := do
  let root ← d.close
  let (path, key) ← splitKey header
  let root ← Table.update false some path root
  let found := (lookup path root).bind (·.find? key.name)
  let current ← match found with
    | none => some (Table.empty .header (some span))
    | some (.mk _ (.table .implied entries)) => some ⟨.header, some span, entries⟩
    | some _ => none
  let root ← Table.update false (fun t => some (t.erase key.name)) path root
  return ⟨root, current, header, false⟩
where
  /-- The table at the end of a path. -/
  lookup : List Key → Table → Option Table
    | [], t => some t
    | k :: ks, t => match t.find? k.name with
      | some (.mk span (.table origin entries)) => lookup ks ⟨origin, span, entries⟩
      | some (.mk _ (.tables items)) => (items.getLast?.bind Table.ofNode?).bind (lookup ks)
      | _ => none

/-- Opens the table of a header in double brackets. -/
def openListed (d : Draft) (header : List Key) (span : Span) : Option Draft := do
  let root ← d.close
  let (path, key) ← splitKey header
  let current := Table.empty .header (some span)
  let _ ← Table.update false (pushTo key current) path root
  return ⟨root, current, header, true⟩

/-- Adds an entry to the open table. -/
def addEntry (d : Draft) (key : List Key) (value : Node) : Option Draft := do
  let (path, last) ← splitKey key
  let span := match d.current.span, value.span with
    | some a, some b => some ⟨a.start, b.stop⟩
    | s, _ => s
  let current ← Table.insert { d.current with span } path last value
  return { d with current }

end Draft

/-- The key of a header between its brackets, and the text after them. -/
def headerKey (closing : List Char) : Reader (List Key) := fun s => do
  let (key, r) ← dottedKey s
  let r ← Text.stripPrefix? closing r
  return (key, r)

/-- One line of a document that is neither blank nor a comment. -/
def statement (d : Draft) : Reader Draft
  | '[' :: '[' :: r => do
    let (key, rest) ← headerKey [']', ']'] r
    let d ← d.openListed key (spanOf ('[' :: '[' :: r) rest)
    return (d, ← restOfLine? rest)
  | '[' :: r => do
    let (key, rest) ← headerKey [']'] r
    let d ← d.openTable key (spanOf ('[' :: r) rest)
    return (d, ← restOfLine? rest)
  | s => do
    let ((key, v), r) ← keyValue (value nestingLimit) s
    let d ← d.addEntry key v
    return (d, ← restOfLine? r)

/-- The lines of a document, each at least one character long. -/
def statements : Nat → Draft → List Char → Option Draft
  | 0, _, _ => none
  | fuel + 1, d, s => match skipGaps s with
    | [] => some d
    | '#' :: r => do statements fuel d (← restOfLine? ('#' :: r))
    | '\n' :: r => statements fuel d r
    | '\r' :: r => do statements fuel d (← mark '\n' r)
    | t => do
      let (d, r) ← statement d t
      statements fuel d r

/-- The text without a byte order mark at its start. -/
def dropByteOrderMark : List Char → List Char
  | '\ufeff' :: r => r
  | s => s

/-- Reads a document; `none` for a text that is not TOML. -/
def parse (s : String) : Option Table := do
  let text := dropByteOrderMark s.toList
  let d ← statements (text.length + 1) .start text
  d.close

end Toml
end NightlyRelease
