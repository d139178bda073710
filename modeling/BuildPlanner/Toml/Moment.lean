import BuildPlanner.Decimal
import BuildPlanner.Toml.Quoted
import BuildPlanner.Toml.Value

/-!
# Dates and times

A moment is a date, a time, or a date and a time with or without an offset. It is shown with a `T`
between date and time, with a fraction of at most nine digits and without zeros at its end, and
with `Z` or a signed offset.
-/

namespace BuildPlanner.Toml

/-- Reads a number of exactly the given count of digits within bounds. -/
def bounded (count low high : Nat) : Reader Nat := fun cs =>
  let digits := cs.take count
  if digits.length = count && digits.all Char.isDigit then
    let value := digits.foldl (fun value d => 10 * value + (d.toNat - '0'.toNat)) 0
    if low ≤ value && value ≤ high then some (value, cs.drop count) else none
  else none

/-- Reads one given character. -/
def mark (c : Char) : List Char → Option (List Char)
  | d :: rest => if c = d then some rest else none
  | [] => none

/-- A number with zeros before it up to a width. -/
def padded (width value : Nat) : String :=
  let digits := Nat.toDigits 10 value
  .ofList (List.replicate (width - digits.length) '0' ++ digits)

/-- The number of days of a month. -/
def daysInMonth (year month : Nat) : Nat :=
  if month = 2 then
    if year % 4 = 0 && (year % 100 != 0 || year % 400 = 0) then 29 else 28
  else if month = 4 ∨ month = 6 ∨ month = 9 ∨ month = 11 then 30
  else 31

/-- Reads a date. -/
def date : Reader String := fun cs => do
  let (year, rest) ← bounded 4 0 9999 cs
  let (month, rest) ← bounded 2 1 12 (← mark '-' rest)
  let (day, rest) ← bounded 2 1 (daysInMonth year month) (← mark '-' rest)
  return (padded 4 year ++ "-" ++ padded 2 month ++ "-" ++ padded 2 day, rest)

/-- Reads the fraction of a second, if there is one. -/
def secondFraction (cs : List Char) : String × List Char :=
  match cs with
  | '.' :: rest =>
    let digits := rest.takeWhile Char.isDigit
    if digits = [] then ("", cs)
    else
      let shown := Decimal.dropZeros (digits.take 9)
      (if shown = [] then "" else .ofList ('.' :: shown), rest.dropWhile Char.isDigit)
  | _ => ("", cs)

/-- Reads a time of day. -/
def time : Reader String := fun cs => do
  let (hour, rest) ← bounded 2 0 23 cs
  let (minute, rest) ← bounded 2 0 59 (← mark ':' rest)
  let (second, rest) ← bounded 2 0 60 (← mark ':' rest)
  let (fraction, rest) := secondFraction rest
  return (padded 2 hour ++ ":" ++ padded 2 minute ++ ":" ++ padded 2 second ++ fraction, rest)

/-- Reads an offset after its sign. -/
def signedOffset (sign : String) (cs : List Char) : Option (String × List Char) := do
  let (hour, rest) ← bounded 2 0 23 cs
  let (minute, rest) ← bounded 2 0 59 (← mark ':' rest)
  let sign := if hour = 0 ∧ minute = 0 then "+" else sign
  return (sign ++ padded 2 hour ++ ":" ++ padded 2 minute, rest)

/-- Reads an offset, if there is one. -/
def offset (cs : List Char) : String × List Char :=
  match cs with
  | 'Z' :: rest => ("Z", rest)
  | 'z' :: rest => ("Z", rest)
  | '+' :: rest => (signedOffset "+" rest).getD ("", cs)
  | '-' :: rest => (signedOffset "-" rest).getD ("", cs)
  | _ => ("", cs)

/-- Reads the time after a date, if there is one. -/
def timeAfterDate (cs : List Char) : String × List Char :=
  match cs with
  | c :: rest =>
    if c = 'T' ∨ c = 't' ∨ c = ' ' then
      match time rest with
      | some (shown, rest) =>
        let (zone, rest) := offset rest
        ("T" ++ shown ++ zone, rest)
      | none => ("", cs)
    else ("", cs)
  | [] => ("", cs)

/-- Reads a moment. -/
def moment : Reader Scalar := fun cs =>
  match date cs with
  | some (shown, rest) =>
    let (after, rest) := timeAfterDate rest
    some (.moment (shown ++ after), rest)
  | none => (time cs).map fun (shown, rest) => (.moment shown, rest)

end BuildPlanner.Toml
