import SmoothOpt.Text.Document

/-!
Building a document from table headers and assignments.

A table may be opened by a header once, extended by dotted keys only if dotted keys made it, and
never touched after it was written inline. The kind of every table is kept by its path.
-/
namespace SmoothOpt.Text.Toml

inductive TableKind where
  /-- Named on the way to another table. -/
  | implied
  | opened
  /-- Made by dotted keys. -/
  | dotted
  /-- A list of tables; the last one is open. -/
  | repeated
  deriving DecidableEq, Repr

abbrev Path := List String

def replaceKey (key : String) (v : Document) (entries : List (String × Document)) :
    List (String × Document) :=
  entries.map fun (k, old) => if k == key then (k, v) else (k, old)

/-- The value at a path; a list of tables stands for its last table. -/
def lookupPath : Path → Document → Option Document
  | [], doc => some doc
  | key :: rest, .table entries => match entries.lookup key with
    | none => none
    | some (.list items) => match rest with
      | [] => some (.list items)
      | _ => items.getLast?.bind (lookupPath rest)
    | some child => lookupPath rest child
  | _ :: _, _ => none

/-- Change the value at a path; missing tables on the way are made. -/
def changePath (f : Document → Option Document) : Path → Document → Option Document
  | [], doc => f doc
  | key :: rest, .table entries => match entries.lookup key with
    | none => (changePath f rest (.table [])).map fun c => .table (entries ++ [(key, c)])
    | some (.list items) => match items.getLast? with
      | none => none
      | some last => (changePath f rest last).map fun c =>
          .table (replaceKey key (.list (items.dropLast ++ [c])) entries)
    | some child => (changePath f rest child).map fun c => .table (replaceKey key c entries)
  | _ :: _, _ => none

structure Builder where
  root : Document := .table []
  kinds : List (Path × TableKind) := []
  current : Path := []

namespace Builder

def kind? (b : Builder) (path : Path) : Option TableKind := b.kinds.lookup path

def setKind (b : Builder) (path : Path) (k : TableKind) : Builder :=
  { b with kinds := (path, k) :: b.kinds.filter (·.1 != path) }

def isPresent (b : Builder) (path : Path) : Bool := (lookupPath path b.root).isSome

def ensureTable (b : Builder) (path : Path) : Option Builder := do
  return { b with root := ← changePath some path b.root }

/-- The proper non-empty beginnings of `base ++ keys` that go beyond `base`. -/
def beginnings (base keys : Path) : List Path :=
  (List.range (keys.length - 1)).map fun i => base ++ keys.take (i + 1)

/-- Walk to the parent of a header's table. -/
def enterParents (b : Builder) (path : Path) : Option Builder :=
  (beginnings [] path).foldlM (fun b parent =>
    if b.isPresent parent then if (b.kind? parent).isSome then some b else none
    else (b.ensureTable parent).map (·.setKind parent .implied)) b

def openTable (b : Builder) (path : Path) : Option Builder := do
  let b ← b.enterParents path
  if b.isPresent path && b.kind? path != some .implied then none
  let b ← b.ensureTable path
  return { b.setKind path .opened with current := path }

/-- Open one more table of a list. -/
def openRepeated (b : Builder) (path : Path) : Option Builder := do
  let b ← b.enterParents path
  let parent := path.dropLast
  let key ← path.getLast?
  let extend (doc : Document) : Option Document := match doc with
    | .table entries => match entries.lookup key with
      | none => some (.table (entries ++ [(key, .list [.table []])]))
      | some (.list items) =>
        some (.table (replaceKey key (.list (items ++ [.table []])) entries))
      | some _ => none
    | _ => none
  if b.isPresent path && b.kind? path != some .repeated then none
  let root ← changePath extend parent b.root
  -- what was known below the previous table says nothing about the new one
  let kinds := b.kinds.filter fun (p, _) => !path.isPrefixOf p
  return { b with root := root, kinds := (path, .repeated) :: kinds, current := path }

/-- Assign a value to a dotted key of the current table. -/
def assign (b : Builder) (keys : Path) (v : Document) : Option Builder := do
  let tables := beginnings b.current keys
  let b ← tables.foldlM (fun b path =>
    if b.isPresent path then
      match b.kind? path with
      | some .dotted => some b
      | some .implied => if some path == tables.getLast? then none else some b
      | _ => none
    else (b.ensureTable path).map (·.setKind path .dotted)) b
  let path := b.current ++ keys
  if b.isPresent path then none
  let root ← changePath (fun _ => some v) path b.root
  return { b with root := root }

end Builder

end SmoothOpt.Text.Toml
