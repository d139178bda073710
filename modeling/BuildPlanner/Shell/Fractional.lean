import BuildPlanner.Decimal
import BuildPlanner.Shell.Word

/-!
# Fractional numbers in formats

A number with a fraction is read from a text, in base ten or sixteen, as the nearest binary number.
It is written with a number of digits after the point, with an exponent, in the shorter of these
ways, or in base sixteen; a half goes to the even neighbour.
-/

namespace BuildPlanner.Shell.Fractional

open Decimal

/-- What a text stands for, without its sign. -/
inductive Size where
  /-- A number. -/
  | finite (size : Binary)
  /-- A number above all others. -/
  | infinite
  /-- What is no number. -/
  | undefined
deriving DecidableEq, Repr, Inhabited

/-! ## Reading -/

/-- What has been read of a text. -/
structure Found where
  /-- What it stands for. -/
  size : Size
  /-- What follows it. -/
  rest : List Char
  /-- Whether the number is too large or too small. -/
  isOutOfRange : Bool := false
deriving Repr, Inhabited

/-- The text after a word at its front, in which capital letters count like others. -/
def after? (word : String) (cs : List Char) : Option (List Char) :=
  if (cs.take word.length).map Char.toLower = word.toList then some (cs.drop word.length) else none

/-- The value of a digit in any base. -/
def digit (c : Char) : Nat :=
  if c.isDigit then c.toNat - '0'.toNat else c.toLower.toNat - 'a'.toNat + 10

/-- The number that digits write. -/
def valueIn (base : Nat) (digits : List Char) : Nat :=
  digits.foldl (fun value c => base * value + digit c) 0

/-- The exponent after a letter at the front, and what follows it. -/
def exponent (letter : Char) (cs : List Char) : Int × List Char :=
  match cs with
  | c :: rest =>
    let (negative, digits) := match rest with
      | '-' :: digits => (true, digits)
      | '+' :: digits => (false, digits)
      | digits => (false, digits)
    let shown := digits.takeWhile Char.isDigit
    if c.toLower = letter && shown != [] then
      let size : Int := decimal shown
      (if negative then -size else size, digits.drop shown.length)
    else (0, cs)
  | [] => (0, [])

/-- The number nearest to `digits * 2 ^ power`, or none if that is too large. -/
def readBinary (digits : Nat) (power : Int) : Option Binary :=
  let scale := power + digits.log2
  if digits = 0 ∨ scale < -1100 then some ⟨0, minExponent⟩
  else if 1100 < scale then none
  else nearest (.scaled digits 2 power)

/-- The least size of a number with all its bits. -/
def leastFull : Nat := Nat.pow 2 52

/-- A number that has been read, of which it is known whether it is zero. -/
def found ( isZero : Bool) (number : Option Binary) (rest : List Char) : Found :=
  match number with
  | none => ⟨.infinite, rest, true⟩
  | some number => ⟨.finite number, rest, !isZero && number.mantissa < leastFull⟩

/-- The number in a base at the front of a text, if there is one. -/
def digitsIn? (base : Nat) (cs : List Char) : Option Found :=
  let isDigit (c : Char) : Bool := c.isAlphanum && digit c < base
  let whole := cs.takeWhile isDigit
  let (part, rest) := match cs.drop whole.length with
    | '.' :: rest => (rest.takeWhile isDigit, rest.dropWhile isDigit)
    | rest => ([], rest)
  if whole = [] && part = [] then none
  else
    let value := valueIn base (whole ++ part)
    if base = 16 then
      let (power, rest) := exponent 'p' rest
      some (found (value == 0) (readBinary value (power - 4 * part.length)) rest)
    else
      let (power, rest) := exponent 'e' rest
      some (found (value == 0) (Decimal.read value (power - part.length)) rest)

/-- The name in parentheses that may follow what is no number. -/
def skipName (cs : List Char) : List Char :=
  match cs with
  | '(' :: rest =>
    match rest.dropWhile isNameChar with
    | ')' :: after => after
    | _ => cs
  | _ => cs

/-- The number at the front of a text, without a sign. -/
def read? (cs : List Char) : Option Found :=
  match after? "infinity" cs, after? "inf" cs, after? "nan" cs with
  | some rest, _, _ | none, some rest, _ => some ⟨.infinite, rest, false⟩
  | _, _, some rest => some ⟨.undefined, skipName rest, false⟩
  | _, _, _ =>
    match after? "0x" cs with
    | some rest => (digitsIn? 16 rest).or (some ⟨.finite ⟨0, minExponent⟩, cs.drop 1, false⟩)
    | none => digitsIn? 10 cs

/-! ## Writing -/

/-- Digits with a point before the last of them, if there are any or if it always stands. -/
def pointed ( isAlternate : Bool) (places : Nat) (digits : List Char) : List Char :=
  let digits := digits.leftpad (places + 1) '0'
  let whole := digits.take (digits.length - places)
  whole ++ (if places != 0 || isAlternate then ['.'] else []) ++ digits.drop whole.length

/-- Drops zeros after the point, and the point if nothing follows it. -/
def dropPlaces (text : List Char) : List Char :=
  if text.contains '.' then
    let kept := text.reverse.dropWhile (· == '0')
    (if kept.head? = some '.' then kept.tail else kept).reverse
  else text

/-- A number with places after the point. -/
def fixed ( isAlternate : Bool) (places : Nat) (size : Binary) : List Char :=
  let f := Fraction.scaled size.mantissa 2 size.exponent
  let steps := (Fraction.mk (f.above * Nat.pow 10 places) f.under).round
  pointed isAlternate places (Nat.toDigits 10 steps)

/-- The digits of a number, one more than the places after the point, and the power of ten. -/
def digitsOf (places : Nat) (size : Binary) : List Char × Int :=
  if size.mantissa = 0 then (List.replicate (places + 1) '0', 0)
  else
    let f := Fraction.scaled size.mantissa 2 size.exponent
    let power := pointFrom f 700 maxScale - 1
    let unit := Fraction.scaled 1 10 (power - places)
    let steps := (Fraction.mk (f.above * unit.under) (f.under * unit.above)).round
    let digits := Nat.toDigits 10 steps
    if digits.length = places + 1 then (digits, power) else (digits.dropLast, power + 1)

/-- An exponent with its sign and at least some digits. -/
def shownExponent (letter : Char) (least : Nat) (power : Int) : List Char :=
  [letter, if power < 0 then '-' else '+'] ++ (Nat.toDigits 10 power.natAbs).leftpad least '0'

/-- A number with an exponent. -/
def scientific ( isAlternate : Bool) (places : Nat) (size : Binary) : List Char :=
  let (digits, power) := digitsOf places size
  pointed isAlternate places digits ++ shownExponent 'e' 2 power

/-- A number with or without an exponent, whichever is shorter, with so many digits. -/
def general ( isAlternate : Bool) (precision : Nat) (size : Binary) : List Char :=
  let count := max 1 precision
  let (digits, power) := digitsOf (count - 1) size
  let trim (text : List Char) : List Char := if isAlternate then text else dropPlaces text
  if power < -4 || count ≤ power then
    trim (pointed isAlternate (count - 1) digits) ++ shownExponent 'e' 2 power
  else trim (fixed isAlternate (count - 1 - power).toNat size)

/-- A number in base sixteen, with as many places as it needs or with a given number of them. -/
def hexadecimal ( isAlternate : Bool) (places : Option Nat) (size : Binary) : List Char :=
  let power : Int := if size.mantissa = 0 then 0 else size.exponent + 52
  let digits := match places with
    | none =>
      let shown := ((Nat.toDigits 16 size.mantissa).leftpad 14 '0').reverse.dropWhile (· == '0')
      shown.reverse.rightpad 1 '0'
    | some places =>
      let f := Fraction.scaled size.mantissa 16 (places - 13)
      (Nat.toDigits 16 f.round).leftpad (places + 1) '0'
  ['0', 'x'] ++ pointed isAlternate (digits.length - 1) digits ++ shownExponent 'p' 1 power

/-- The letters of directives that write such numbers. -/
def letters : List Char := ['a', 'A', 'e', 'E', 'f', 'F', 'g', 'G']

/-- The number of places where none is given. -/
def defaultPlaces : Nat := 6

/-- A size as a directive writes it. -/
def written (letter : Char) ( isAlternate : Bool) (precision : Option Nat) (size : Size) :
    List Char :=
  let places := precision.getD defaultPlaces
  let text := match size with
    | .infinite => ['i', 'n', 'f']
    | .undefined => ['n', 'a', 'n']
    | .finite size =>
      match letter.toLower with
      | 'f' => fixed isAlternate places size
      | 'e' => scientific isAlternate places size
      | 'g' => general isAlternate places size
      | _ => hexadecimal isAlternate precision size
  if letter.isUpper then text.map Char.toUpper else text

end BuildPlanner.Shell.Fractional
