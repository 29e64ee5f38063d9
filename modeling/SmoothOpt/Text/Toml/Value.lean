import SmoothOpt.Decimal.Reader
import SmoothOpt.Text.Document
import SmoothOpt.Text.Toml.Date

/-!
Strings, numbers and words of a configuration file. Every reader takes the characters that are
left and gives a value with the characters after it.
-/
namespace SmoothOpt.Text.Toml

def isBlank (c : Char) : Bool := c == ' ' || c == '\t'

def skipBlanks (cs : List Char) : List Char := cs.dropWhile isBlank

/-- Control characters, which may not stand in text; a tab may. -/
def isControl (c : Char) : Bool := (c.toNat < 32 && c != '\t') || c.toNat == 127

/-- The end of a line, taken off. -/
def newline? : List Char → Option (List Char)
  | '\n' :: rest => some rest
  | '\r' :: '\n' :: rest => some rest
  | _ => none

def hexValue? (c : Char) : Option Nat :=
  if c.isDigit then some (c.toNat - 48)
  else if 'a' ≤ c ∧ c ≤ 'f' then some (c.toNat - 87)
  else if 'A' ≤ c ∧ c ≤ 'F' then some (c.toNat - 55)
  else none

def codePoint? (digits : List Char) : Option Char := do
  let ds ← digits.mapM hexValue?
  let n := ds.foldl (fun acc h => 16 * acc + h) 0
  if n < 0xD800 ∨ (0xDFFF < n ∧ n < 0x110000) then some (Char.ofNat n) else none

/-- The character a one-letter escape stands for. -/
def escape? : Char → Option Char
  | 'b' => some '\x08'
  | 't' => some '\t'
  | 'n' => some '\n'
  | 'f' => some '\x0c'
  | 'r' => some '\r'
  | '"' => some '"'
  | '\\' => some '\\'
  | _ => none

/-- A finished text. The characters were collected backwards. -/
def collected (acc : List Char) : String := String.ofList acc.reverse

/-- The rest of a text in double quotes. -/
def basicText (acc : List Char) : List Char → Option (String × List Char)
  | [] => none
  | '"' :: rest => some (collected acc, rest)
  | '\\' :: 'u' :: a :: b :: c :: d :: rest => do
    basicText ((← codePoint? [a, b, c, d]) :: acc) rest
  | '\\' :: 'U' :: a :: b :: c :: d :: e :: f :: g :: h :: rest => do
    basicText ((← codePoint? [a, b, c, d, e, f, g, h]) :: acc) rest
  | '\\' :: c :: rest => do basicText ((← escape? c) :: acc) rest
  | c :: rest => if isControl c then none else basicText (c :: acc) rest

def literalText (acc : List Char) : List Char → Option (String × List Char)
  | [] => none
  | '\'' :: rest => some (collected acc, rest)
  | c :: rest => if isControl c then none else literalText (c :: acc) rest

/-- A backslash at the end of a line swallows the blanks and line ends after it. -/
def endsLine (cs : List Char) : Bool := (newline? (skipBlanks cs)).isSome

/-- The rest of a text in three double quotes. While `swallow` holds, blanks and line ends are
dropped. Up to two quotes may stand before the closing ones. -/
def longText (acc : List Char) (swallow : Bool) : List Char → Option (String × List Char)
  | [] => none
  | '"' :: '"' :: '"' :: '"' :: '"' :: rest => some (collected ('"' :: '"' :: acc), rest)
  | '"' :: '"' :: '"' :: '"' :: rest => some (collected ('"' :: acc), rest)
  | '"' :: '"' :: '"' :: rest => some (collected acc, rest)
  | '\\' :: 'u' :: a :: b :: c :: d :: rest => do
    longText ((← codePoint? [a, b, c, d]) :: acc) false rest
  | '\\' :: 'U' :: a :: b :: c :: d :: e :: f :: g :: h :: rest => do
    longText ((← codePoint? [a, b, c, d, e, f, g, h]) :: acc) false rest
  | '\\' :: c :: rest =>
    match escape? c with
    | some e => longText (e :: acc) false rest
    | none => if endsLine (c :: rest) then longText acc true rest else none
  | '\r' :: '\n' :: rest => longText (if swallow then acc else '\n' :: acc) swallow rest
  | c :: rest =>
    if swallow && (isBlank c || c == '\n') then longText acc true rest
    else if isControl c && c != '\n' then none
    else longText (c :: acc) false rest

def longLiteral (acc : List Char) : List Char → Option (String × List Char)
  | [] => none
  | '\'' :: '\'' :: '\'' :: '\'' :: '\'' :: rest => some (collected ('\'' :: '\'' :: acc), rest)
  | '\'' :: '\'' :: '\'' :: '\'' :: rest => some (collected ('\'' :: acc), rest)
  | '\'' :: '\'' :: '\'' :: rest => some (collected acc, rest)
  | '\r' :: '\n' :: rest => longLiteral ('\n' :: acc) rest
  | c :: rest => if isControl c && c != '\n' then none else longLiteral (c :: acc) rest

/-- A line end right after the opening quotes is dropped. -/
def afterOpening (cs : List Char) : List Char := (newline? cs).getD cs

def text? : List Char → Option (String × List Char)
  | '"' :: '"' :: '"' :: rest => longText [] false (afterOpening rest)
  | '"' :: rest => basicText [] rest
  | '\'' :: '\'' :: '\'' :: rest => longLiteral [] (afterOpening rest)
  | '\'' :: rest => literalText [] rest
  | _ => none

/-- Digits with underscores only between two digits, underscores removed. -/
def plainDigits? (ok : Char → Bool) (cs : List Char) : Option (List Char) :=
  let spaced := (cs.zip cs.tail).all fun (a, b) => ok a || ok b
  let ends := cs.head?.any ok && cs.getLast?.any ok
  if ends && spaced && cs.all (fun c => ok c || c == '_') then some (cs.filter ok) else none

/-- A whole number in base ten without needless leading zeros. -/
def decimalDigits? (cs : List Char) : Option (List Char) := do
  let ds ← plainDigits? Char.isDigit cs
  if ds.length > 1 && ds.head? == some '0' then none else some ds

def baseValue? (base : Nat) (cs : List Char) : Option Nat := do
  let isDigit (c : Char) : Bool := (hexValue? c).any (· < base)
  let ds ← plainDigits? isDigit cs
  return ds.foldl (fun acc c => base * acc + (hexValue? c).getD 0) 0

/-- A whole number of 64 bits. -/
def inWord (v : Int) : Option Document :=
  if Decimal.fitsWord v then some (.integer v) else none

def integer? (cs : List Char) : Option Document :=
  match cs with
  | '0' :: 'x' :: rest => (baseValue? 16 rest).bind (inWord ·)
  | '0' :: 'o' :: rest => (baseValue? 8 rest).bind (inWord ·)
  | '0' :: 'b' :: rest => (baseValue? 2 rest).bind (inWord ·)
  | _ => do
    let (negative, ds) := Decimal.splitSign cs
    let n ← Decimal.digitsValue? (← decimalDigits? ds)
    inWord (if negative then -(n : Int) else n)

def isExponentMark (c : Char) : Bool := c == 'e' || c == 'E'

/-- A real number: a whole part, then a part behind a point or an exponent or both. One that
exceeds every double is refused. -/
def real? (cs : List Char) : Option Document := do
  let (negative, body) := Decimal.splitSign cs
  let signed (v : Float) : Document := .real (if negative then -v else v)
  if body == "inf".toList then return signed (1.0 / 0.0)
  if body == "nan".toList then return signed (0.0 / 0.0)
  let mantissa := body.takeWhile (!isExponentMark ·)
  let mark := body.dropWhile (!isExponentMark ·)
  let whole ← decimalDigits? (mantissa.takeWhile (· != '.'))
  let part ← match mantissa.dropWhile (· != '.') with
    | [] => if mark.isEmpty then none else some []
    | _ :: ds => plainDigits? Char.isDigit ds
  let exponent ← match mark with
    | [] => some 0
    | _ :: es =>
      let (down, ds) := Decimal.splitSign es
      (plainDigits? Char.isDigit ds).bind Decimal.digitsValue? |>.map fun n =>
        if down then -(n : Int) else n
  let digits ← Decimal.digitsValue? (whole ++ part)
  let v := Decimal.ofParts digits (exponent - part.length)
  if v.isInf && !negative then none else some (signed v)

/-- Dates are kept as tables with a single entry. -/
def dateTime? (cs : List Char) : Option (Document × List Char) :=
  (afterDateTime? cs).map fun rest =>
    (.table [("date-time", .text (String.ofList (cs.take (cs.length - rest.length))))], rest)

def isWordChar (c : Char) : Bool := c.isAlphanum || c == '_' || c == '-' || c == '+' || c == '.'

/-- A value that is neither text, list nor table. -/
def word? (cs : List Char) : Option (Document × List Char) :=
  dateTime? cs <|> do
    let w := cs.takeWhile isWordChar
    let v ← if w == "true".toList then some (.boolean true)
      else if w == "false".toList then some (.boolean false)
      else integer? w <|> real? w
    return (v, cs.dropWhile isWordChar)

end SmoothOpt.Text.Toml
