/-!
Structured configuration data, whatever text it was read from.
-/
namespace SmoothOpt.Text

/-- A tree of named values. Whole numbers and reals are kept apart, because a count accepts only
the former. -/
inductive Document where
  | null
  | boolean (b : Bool)
  | integer (v : Int)
  | real (v : Float)
  | text (s : String)
  | list (items : List Document)
  | table (entries : List (String × Document))
  deriving Repr

namespace Document

/-- A real number; an integer is read as the nearest real. -/
def real? : Document → Option Float
  | integer v => some (Float.ofInt v)
  | real v => some v
  | _ => none

def natBelow? (limit : Nat) : Document → Option Nat
  | integer v => if 0 ≤ v ∧ v < limit then some v.toNat else none
  | _ => none

def boolean? : Document → Option Bool
  | boolean b => some b
  | _ => none

/-- One of the listed words, alone or as the only key of a table with nothing in it. -/
def word? {β : Type} (words : List (String × β)) : Document → Option β
  | text s | table [(s, null)] => words.lookup s
  | _ => none

/-- The word for a value; nothing if the list has none. -/
def ofWord {β : Type} [DecidableEq β] (words : List (String × β)) (v : β) : Document :=
  match words.find? (·.2 = v) with
  | some (s, _) => text s
  | none => null

end Document

/-- A named part of a record: how a document changes it and how it is written. -/
structure RecordField (ρ : Type) where
  name : String
  read : Document → Option (ρ → ρ)
  write : ρ → Document

def RecordField.of {ρ β : Type} (name : String) (read : Document → Option β) (store : β → ρ → ρ)
    (write : ρ → Document) : RecordField ρ :=
  ⟨name, fun doc => (read doc).map store, write⟩

/-- Change a record by a document. A table sets the fields it names and other entries are
ignored; a list sets the first fields in order and may not be longer than the record. A value that
its field refuses makes the whole document refused. -/
def readRecord {ρ : Type} (fields : List (RecordField ρ)) (start : ρ) : Document → Option ρ
  | .table entries => entries.foldlM (fun r (key, doc) =>
      match fields.find? (·.name == key) with
      | some field => (field.read doc).map (· r)
      | none => some r) start
  | .list items =>
    if items.length ≤ fields.length then
      (fields.zip items).foldlM (fun r (field, doc) => (field.read doc).map (· r)) start
    else none
  | _ => none

def writeRecord {ρ : Type} (fields : List (RecordField ρ)) (r : ρ) : Document :=
  .table (fields.map fun field => (field.name, field.write r))

end SmoothOpt.Text
