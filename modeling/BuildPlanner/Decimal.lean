/-!
# Decimal texts of floating point numbers

A decimal number is read as the nearest binary one with 53 significant bits, of two equally near
ones the even one. A binary number is written with the fewest digits that read back as the same
number, and of these with the nearest, without an exponent and with at least one digit after the
point. All arithmetic is exact.
-/

namespace BuildPlanner.Decimal

/-- A finite binary number that is not negative: `mantissa * 2 ^ exponent`. -/
structure Binary where
  /-- The significant bits; there are no more than 53. -/
  mantissa : Nat
  /-- The power of two. -/
  exponent : Int
deriving DecidableEq, Repr

/-- A fraction of natural numbers. -/
structure Fraction where
  /-- The part above the line. -/
  above : Nat
  /-- The part below the line; it is not zero. -/
  under : Nat
deriving DecidableEq, Repr

/-- `digits * base ^ power`. -/
def Fraction.scaled (digits base : Nat) (power : Int) : Fraction :=
  if 0 ≤ power then ⟨digits * base.pow power.toNat, 1⟩ else ⟨digits, base.pow (-power).toNat⟩

/-- The natural number nearest to a fraction, of two the even one. -/
def Fraction.round (f : Fraction) : Nat :=
  let whole := f.above / f.under
  let rest := 2 * (f.above % f.under)
  if rest < f.under then whole
  else if f.under < rest then whole + 1
  else whole + whole % 2

/-- The fraction divided by a power of two. -/
def Fraction.shift (f : Fraction) (power : Int) : Fraction :=
  if 0 ≤ power then ⟨f.above, f.under * Nat.pow 2 power.toNat⟩
  else ⟨f.above * Nat.pow 2 (-power).toNat, f.under⟩

/-- The lowest power of two. -/
def minExponent : Int := -1074

/-- The highest power of two of a number with all 53 bits. -/
def maxExponent : Int := 971

/-- The binary number nearest to a fraction above zero, or none if that is too large. -/
def nearest (f : Fraction) : Option Binary :=
  let size : Int := f.above.log2 - f.under.log2
  let least := (f.shift size).under ≤ (f.shift size).above
  let exponent := max minExponent (if least then size - 52 else size - 53)
  let mantissa := (f.shift exponent).round
  let (mantissa, exponent) :=
    if mantissa = Nat.pow 2 53 then (Nat.pow 2 52, exponent + 1) else (mantissa, exponent)
  if maxExponent < exponent then none else some ⟨mantissa, exponent⟩

/-- The highest power of ten, with the digits counted, that has to be looked at exactly. -/
def maxScale : Int := 310

/-- The lowest power of ten, with the digits counted, that has to be looked at exactly. -/
def minScale : Int := -330

/-- The binary number nearest to `digits * 10 ^ power`, or none if that is too large. -/
def read (digits : Nat) (power : Int) : Option Binary :=
  let scale := power + (Nat.toDigits 10 digits).length
  if digits = 0 ∨ scale < minScale then some ⟨0, minExponent⟩
  else if maxScale < scale then none
  else nearest (.scaled digits 10 power)

/-- Digits and the place of the point: `0.d₁d₂… * 10 ^ point`. -/
structure Written where
  /-- The digits. -/
  digits : List Char
  /-- The power of ten. -/
  point : Int
deriving DecidableEq, Repr

/-- The power of ten just above a fraction, looked for downwards from a given one. -/
def pointFrom (f : Fraction) : (fuel : Nat) → Int → Int
  | 0, point => point
  | fuel + 1, point =>
    let lower := Fraction.scaled 1 10 (point - 1)
    if lower.above * f.under ≤ f.above * lower.under then point else pointFrom f fuel (point - 1)

/-- The digits of a number of grid steps, and the place of its point. -/
def writtenAt (steps : Nat) (power : Int) : Written :=
  let digits := Nat.toDigits 10 steps
  ⟨digits, power + digits.length⟩

/-- The grid neighbours of a fraction that read back as a number, where the grid has steps of
`10 ^ power`; the nearer one comes first, and of two equally near ones the upper. -/
def readBack (number : Binary) (f : Fraction) (power : Int) : List Nat :=
  let unit := Fraction.scaled 1 10 power
  let above := f.above * unit.under
  let under := f.under * unit.above
  let low := above / under
  let order := if 2 * (above % under) < under then [low, low + 1] else [low + 1, low]
  order.filter fun steps => 0 < steps && read steps power == some number

/-- The shortest way to write a number with the given count of digits or more. -/
def shortestFrom (number : Binary) (f : Fraction) (point : Int) : (fuel count : Nat) → Written
  | 0, count => writtenAt (f.above / f.under) (point - count)
  | fuel + 1, count =>
    match readBack number f (point - count) with
    | steps :: _ => writtenAt steps (point - count)
    | [] => shortestFrom number f point fuel (count + 1)

/-- Drops zeros from the end. -/
def dropZeros (digits : List Char) : List Char :=
  (digits.reverse.dropWhile (· == '0')).reverse

/-- Writes digits without an exponent, with at least one digit on each side of the point. -/
def positional (w : Written) : List Char :=
  let digits := dropZeros w.digits
  if w.point ≤ 0 then
    '0' :: '.' :: List.replicate (-w.point).toNat '0' ++ (if digits = [] then ['0'] else digits)
  else
    let whole := digits.take w.point.toNat
    let rest := digits.drop w.point.toNat
    whole ++ List.replicate (w.point.toNat - whole.length) '0' ++ '.' ::
      (if rest = [] then ['0'] else rest)

/-- The text of a number. -/
def text (number : Binary) : List Char :=
  if number.mantissa = 0 then ['0', '.', '0']
  else
    let f := Fraction.scaled number.mantissa 2 number.exponent
    let point := pointFrom f 700 maxScale
    positional (shortestFrom number f point 17 1)

/-- A signed number, which may be too large. -/
def signed (negative : Bool) (number : Option Binary) : String :=
  let digits := match number with
    | some number => text number
    | none => ['i', 'n', 'f']
  .ofList (if negative then '-' :: digits else digits)

end BuildPlanner.Decimal
