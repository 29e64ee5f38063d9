/-!
Dates and times of a configuration file: a calendar date, a time of day, or a date with a time and
perhaps an offset. No setting takes one, so only their shape and range are checked.
-/
namespace SmoothOpt.Text.Toml

/-- A number of exactly `count` digits that is at least `lo` and at most `hi`. -/
def numberWithin? (count lo hi : Nat) (cs : List Char) : Option (Nat × List Char) :=
  let ds := cs.take count
  let n := ds.foldl (fun acc c => 10 * acc + (c.toNat - 48)) 0
  if ds.length = count ∧ ds.all Char.isDigit ∧ lo ≤ n ∧ n ≤ hi then some (n, cs.drop count)
  else none

def after? (mark : Char) : List Char → Option (List Char)
  | c :: rest => if c = mark then some rest else none
  | [] => none

def daysIn (year month : Nat) : Nat :=
  if month = 2 then
    if year % 4 = 0 ∧ (year % 100 ≠ 0 ∨ year % 400 = 0) then 29 else 28
  else if month = 4 ∨ month = 6 ∨ month = 9 ∨ month = 11 then 30
  else 31

/-- What follows a date `year-month-day`. -/
def afterDate? (cs : List Char) : Option (List Char) := do
  let (year, cs) ← numberWithin? 4 0 9999 cs
  let (month, cs) ← numberWithin? 2 1 12 (← after? '-' cs)
  let (_, cs) ← numberWithin? 2 1 (daysIn year month) (← after? '-' cs)
  return cs

/-- What follows a time `hour:minute:second`, with the fraction of a second. A leap second is
allowed. -/
def afterTime? (cs : List Char) : Option (List Char) := do
  let (_, cs) ← numberWithin? 2 0 23 cs
  let (_, cs) ← numberWithin? 2 0 59 (← after? ':' cs)
  let (_, cs) ← numberWithin? 2 0 60 (← after? ':' cs)
  match cs with
  | '.' :: rest =>
    if rest.head?.any Char.isDigit then some (rest.dropWhile Char.isDigit) else some cs
  | _ => some cs

/-- What follows an offset from universal time, if one stands here. -/
def afterOffset (cs : List Char) : List Char :=
  let distance? (cs : List Char) : Option (List Char) := do
    let (_, cs) ← numberWithin? 2 0 23 cs
    let (_, cs) ← numberWithin? 2 0 59 (← after? ':' cs)
    return cs
  match cs with
  | 'Z' :: rest | 'z' :: rest => rest
  | '+' :: rest | '-' :: rest => (distance? rest).getD cs
  | _ => cs

def afterDateTime? (cs : List Char) : Option (List Char) :=
  match afterDate? cs with
  | none => afterTime? cs
  | some rest =>
    match rest with
    | 'T' :: tail | 't' :: tail | ' ' :: tail =>
      some (((afterTime? tail).map afterOffset).getD rest)
    | _ => some rest

end SmoothOpt.Text.Toml
