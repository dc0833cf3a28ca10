/-
# Reading records

A record is a table with known keys, or an array of the values of these keys in
a fixed order. Its fields are read in the order of the document, so the first
value that does not fit is the one that is reported. Other keys do not matter,
nor do surplus elements of an array; fields that are not there keep the value
that they start with.
-/

import NightlyRelease.Toml.Mismatch

namespace NightlyRelease
namespace Toml

/-- Takes what it wants from a value. -/
abbrev Decoder (α : Type) := Node → Except Mismatch α

/-- A value of another kind was wanted. -/
def wrongKind (expected : String) (v : Node) : Mismatch := ⟨v.span, .kind v expected⟩

/-- A text; `expected` names it in messages. -/
def textNamed (expected : String) : Decoder String := fun v =>
  match v.shape with
  | .text s => .ok s
  | _ => .error (wrongKind expected v)

/-- A text. -/
def text : Decoder String := textNamed "a string"

/-- A number that counts something. -/
def count : Decoder Nat := fun v =>
  match v.shape with
  | .integer n => if 0 ≤ n then .ok n.toNat else .error ⟨v.span, .negative n "usize"⟩
  | _ => .error (wrongKind "usize" v)

/-- A field of a record: its key, and how its value changes the record. -/
structure Field (α : Type) where
  key : String
  set : Node → α → Except Mismatch α

namespace Field

/-- A field that one decoder reads. -/
def of {α β : Type} (key : String) (decode : Decoder β) (put : β → α → α) : Field α where
  key := key
  set v r := return put (← decode v) r

/-- Reads an entry of a table into a record. A value without a place is reported at its key. -/
def setEntry {α : Type} (fields : List (Field α)) (record : α) (entry : Key × Node) :
    Except Mismatch α :=
  match fields.find? (·.key == entry.1.name) with
  | none => .ok record
  | some field => (field.set entry.2 record).mapError (·.within (some entry.1.span))

/-- Reads the entries of a table into a record. -/
def setEntries {α : Type} (fields : List (Field α)) (start : α) (entries : List (Key × Node)) :
    Except Mismatch α := entries.foldlM (setEntry fields) start

/-- Reads the elements of an array into a record, one for each field. -/
def setItems {α : Type} (fields : List (Field α)) (start : α) (items : List Node) :
    Except Mismatch α :=
  (fields.zip items).foldlM (fun record (field, v) => field.set v record) start

end Field

/-- A record that starts as `start`; `expected` names it in messages. -/
def record {α : Type} (expected : String) (fields : List (Field α)) (start : α) : Decoder α :=
  fun v => match v.shape with
    | .table _ entries => (Field.setEntries fields start entries).mapError (·.within v.span)
    | .array items => (Field.setItems fields start items).mapError (·.within v.span)
    | .tables items => (Field.setItems fields start items).mapError (·.within v.span)
    | .moment => .ok start
    | _ => .error (wrongKind expected v)

end Toml
end NightlyRelease
