import BuildPlanner.Decimal
import BuildPlanner.Toml.Quoted
import BuildPlanner.Toml.Value

/-!
# Numbers

Digits may have single underscores between them. An integer has no leading zeros and fits into 64
bits with a sign; after `0x`, `0o` or `0b` it is written in another base, without a sign. A
floating point number has a fraction or an exponent; it may be infinite or no number by name, and
one that is too large to be finite is refused unless it is negative.
-/

namespace BuildPlanner.Toml

/-- Reads digits and single underscores after a digit; the underscores are dropped. -/
def moreDigits (isDigit : Char → Bool) : List Char → List Char × List Char
  | '_' :: d :: rest =>
    if isDigit d then
      let (digits, after) := moreDigits isDigit rest
      (d :: digits, after)
    else ([], '_' :: d :: rest)
  | c :: rest =>
    if isDigit c then
      let (digits, after) := moreDigits isDigit rest
      (c :: digits, after)
    else ([], c :: rest)
  | [] => ([], [])

/-- Reads one digit or more. -/
def digitRun (isDigit : Char → Bool) : Reader (List Char)
  | c :: rest =>
    if isDigit c then
      let (digits, after) := moreDigits isDigit rest
      some (c :: digits, after)
    else none
  | [] => none

/-- Reads the digits of a number without leading zeros. -/
def wholeDigits : Reader (List Char)
  | '0' :: rest => some (['0'], rest)
  | cs => digitRun Char.isDigit cs

/-- The number that digits write in a base. -/
def numberOf (base : Nat) (digits : List Char) : Nat :=
  digits.foldl (fun value d => base * value + (hexDigit? d).getD 0) 0

/-- Reads a sign; `true` is a minus. -/
def sign? : List Char → Option Bool × List Char
  | '+' :: rest => (some false, rest)
  | '-' :: rest => (some true, rest)
  | cs => (none, cs)

/-- Whether an integer fits into 64 bits with a sign. -/
def fits (value : Int) : Bool :=
  -9223372036854775808 ≤ value && value ≤ 9223372036854775807

/-- An integer that fits. -/
def integerOf (value : Int) (rest : List Char) : Option (Scalar × List Char) :=
  if fits value then some (.integer value, rest) else none

/-- Reads an integer in another base, after the letter that names the base. -/
def inBase (base : Nat) (isDigit : Char → Bool) (cs : List Char) : Option (Scalar × List Char) := do
  let (digits, rest) ← digitRun isDigit cs
  integerOf (numberOf base digits) rest

/-- Reads the fraction of a number, if a point follows. -/
def fraction (cs : List Char) : Option (Option (List Char) × List Char) :=
  match cs with
  | '.' :: rest => (digitRun Char.isDigit rest).map fun (digits, after) => (some digits, after)
  | _ => some (none, cs)

/-- Reads the exponent of a number, if one follows. -/
def exponent (cs : List Char) : Option (Option Int × List Char) :=
  match cs with
  | c :: rest =>
    if c = 'e' ∨ c = 'E' then do
      let (sign, after) := sign? rest
      let (digits, after) ← digitRun Char.isDigit after
      let size : Int := numberOf 10 digits
      return (some (if sign = some true then -size else size), after)
    else some (none, cs)
  | [] => some (none, cs)

/-- A floating point number; one too large is refused unless it is negative. -/
def floatOf (negative : Bool) (whole fraction : List Char) (exponent : Int) : Option Scalar :=
  let number := Decimal.read (numberOf 10 (whole ++ fraction)) (exponent - fraction.length)
  if number.isNone && !negative then none else some (.float (Decimal.signed negative number))

/-- Reads a number in base ten. -/
def inBaseTen (sign : Option Bool) (cs : List Char) : Option (Scalar × List Char) := do
  let negative := sign == some true
  let (whole, rest) ← wholeDigits cs
  let (fraction, rest) ← fraction rest
  let (exponent, rest) ← exponent rest
  if fraction.isNone && exponent.isNone then
    let size : Int := numberOf 10 whole
    integerOf (if negative then -size else size) rest
  else
    return (← floatOf negative whole (fraction.getD []) (exponent.getD 0), rest)

/-- Reads a number. -/
def number : Reader Scalar := fun cs =>
  match sign? cs with
  | (none, '0' :: 'x' :: rest) => inBase 16 (fun c => (hexDigit? c).isSome) rest
  | (none, '0' :: 'o' :: rest) => inBase 8 (fun c => '0' ≤ c && c ≤ '7') rest
  | (none, '0' :: 'b' :: rest) => inBase 2 (fun c => c == '0' || c == '1') rest
  | (sign, 'i' :: 'n' :: 'f' :: rest) =>
    some (.float (Decimal.signed (sign == some true) none), rest)
  | (_, 'n' :: 'a' :: 'n' :: rest) => some (.float "NaN", rest)
  | (sign, rest) => inBaseTen sign rest

end BuildPlanner.Toml
