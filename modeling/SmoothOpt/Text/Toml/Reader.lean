import SmoothOpt.Text.Toml.Tables
import SmoothOpt.Text.Toml.Value

/-!
Configuration files: lines of assignments and table headers, with comments.
-/
namespace SmoothOpt.Text.Toml

def isKeyChar (c : Char) : Bool := c.isAlphanum || c == '_' || c == '-'

def keyPart? (cs : List Char) : Option (String × List Char) :=
  match cs with
  | '"' :: rest => basicText [] rest
  | '\'' :: rest => literalText [] rest
  | _ =>
    let w := cs.takeWhile isKeyChar
    if w.isEmpty then none else some (String.ofList w, cs.dropWhile isKeyChar)

/-- A dotted key with at most `budget` parts. -/
def key? : Nat → List Char → Option (Path × List Char)
  | 0, _ => none
  | budget + 1, cs => do
    let (part, rest) ← keyPart? (skipBlanks cs)
    match skipBlanks rest with
    | '.' :: rest =>
      let (parts, rest) ← key? budget rest
      return (part :: parts, rest)
    | rest => return ([part], rest)

/-- A comment, if one starts here; it ends before the line does. -/
def skipComment? : List Char → Option (List Char)
  | '#' :: rest =>
    let body := rest.takeWhile (· != '\n')
    let body := if body.getLast? == some '\r' && rest.length != body.length then body.dropLast
      else body
    if body.any isControl then none else some (rest.drop body.length)
  | cs => some cs

/-- Blanks, comments and line ends, with at most `budget` line ends. -/
def skipLines? : Nat → List Char → Option (List Char)
  | 0, cs => some cs
  | budget + 1, cs => do
    let rest ← skipComment? (skipBlanks cs)
    match newline? rest with
    | some rest => skipLines? budget rest
    | none => some rest

mutual

/-- Any value. The budget bounds the number of nested and neighbouring values. -/
def value? : Nat → List Char → Option (Document × List Char)
  | 0, _ => none
  | budget + 1, cs =>
    match cs with
    | '"' :: _ | '\'' :: _ => (text? cs).map fun (s, rest) => (.text s, rest)
    | '[' :: rest => items? budget [] rest
    | '\x7b' :: rest =>
      match skipBlanks rest with
      | '\x7d' :: rest => some (.table [], rest)
      | rest => entries? budget {} rest
    | _ => word? cs

/-- The rest of a list; the items were collected backwards. -/
def items? (budget : Nat) (acc : List Document) (cs : List Char) :
    Option (Document × List Char) :=
  match budget with
  | 0 => none
  | budget + 1 => do
    let cs ← skipLines? cs.length cs
    match cs with
    | ']' :: rest => return (.list acc.reverse, rest)
    | _ =>
      let (v, rest) ← value? budget cs
      match ← skipLines? rest.length rest with
      | ',' :: rest => items? budget (v :: acc) rest
      | ']' :: rest => return (.list (v :: acc).reverse, rest)
      | _ => none

/-- The rest of an inline table. -/
def entries? (budget : Nat) (b : Builder) (cs : List Char) : Option (Document × List Char) :=
  match budget with
  | 0 => none
  | budget + 1 => do
    let (path, rest) ← key? cs.length cs
    match rest with
    | '=' :: rest =>
      let (v, rest) ← value? budget (skipBlanks rest)
      let b ← b.assign path v
      match skipBlanks rest with
      | ',' :: rest => entries? budget b rest
      | '\x7d' :: rest => return (b.root, rest)
      | _ => none
    | _ => none

end

/-- The end of a line: blanks, a comment, then a line end or the end of the file. -/
def endOfLine? (cs : List Char) : Option (List Char) := do
  match ← skipComment? (skipBlanks cs) with
  | [] => some []
  | rest => newline? rest

def statement? (b : Builder) (cs : List Char) : Option (Builder × List Char) :=
  match cs with
  | '[' :: '[' :: rest => do
    let (path, rest) ← key? rest.length rest
    match rest with
    | ']' :: ']' :: rest => return (← b.openRepeated path, rest)
    | _ => none
  | '[' :: rest => do
    let (path, rest) ← key? rest.length rest
    match rest with
    | ']' :: rest => return (← b.openTable path, rest)
    | _ => none
  | _ => do
    let (path, rest) ← key? cs.length cs
    match rest with
    | '=' :: rest =>
      let (v, rest) ← value? rest.length (skipBlanks rest)
      return (← b.assign path v, rest)
    | _ => none

/-- The statements of a file, at most `budget` of them. -/
def statements? : Nat → Builder → List Char → Option Builder
  | 0, b, _ => some b
  | budget + 1, b, cs => do
    match ← skipLines? cs.length cs with
    | [] => return b
    | cs =>
      let (b, rest) ← statement? b cs
      statements? budget b (← endOfLine? rest)

/-- A file may start with a byte order mark. -/
def skipMark : List Char → List Char
  | '\uFEFF' :: rest => rest
  | cs => cs

/-- The document a file describes, if it is well-formed. -/
def read (s : String) : Option Document := do
  let cs := skipMark s.toList
  let b ← statements? (cs.length + 1) {} cs
  return b.root

end SmoothOpt.Text.Toml
