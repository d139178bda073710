import BuildPlanner.Shell.Fractional

/-!
# Printing

What `echo` and `printf` write. A backslash with a letter or with digits of base eight stands for a
character. A format is used again as long as arguments are left, and one that is missing counts as
empty or zero.
-/

namespace BuildPlanner.Shell.Printing

/-- The character that a letter stands for after a backslash. -/
def letter? : Char → Option Char
  | 'a' => some '\x07'
  | 'b' => some '\x08'
  | 'e' => some '\x1b'
  | 'f' => some '\x0c'
  | 'n' => some '\n'
  | 'r' => some '\r'
  | 't' => some '\t'
  | 'v' => some '\x0b'
  | '\\' => some '\\'
  | _ => none

/-- Whether a character is a digit of base eight. -/
def isOctal (c : Char) : Bool := '0' ≤ c && c ≤ '7'

/-- The character that digits of base eight write. -/
def octal (digits : List Char) : Char :=
  .ofNat (digits.foldl (fun value d => 8 * value + (d.toNat - '0'.toNat)) 0 % 256)

/-- The digits of base eight at the front, up to a number of them. -/
def octalDigits (most : Nat) (cs : List Char) : List Char :=
  (cs.take most).takeWhile isOctal

/-- A text with its escapes replaced, and whether it goes on after it; `fuel` bounds the number of
characters. Digits of base eight may follow one more zero. -/
def unescape : (fuel : Nat) → List Char → List Char × Bool
  | 0, _ => ([], true)
  | _, [] => ([], true)
  | _, '\\' :: 'c' :: _ => ([], false)
  | fuel + 1, '\\' :: c :: rest =>
    let digits :=
      if c = '0' then octalDigits 3 rest else if isOctal c then octalDigits 2 rest else []
    let (text, goesOn) := unescape fuel (rest.drop digits.length)
    (match letter? c with
      | some d => d :: text
      | none => if isOctal c then octal (c :: digits) :: text else '\\' :: c :: text, goesOn)
  | fuel + 1, c :: rest =>
    let (text, goesOn) := unescape fuel rest
    (c :: text, goesOn)

/-- What `echo` writes for its arguments. -/
def echo (words : List String) : String :=
  let (line, words) := match words with
    | "-n" :: words => ("", words)
    | words => ("\n", words)
  let text := (" ".intercalate words).toList
  let (written, goesOn) := unescape text.length text
  .ofList written ++ if goesOn then line else ""

/-! ## Formats -/

/-- How an argument is written. -/
structure Directive where
  /-- The signs in front. -/
  flags : List Char
  /-- The least width. -/
  width : Nat
  /-- The precision, if there is one. -/
  precision : Option Nat
  /-- The letter that says what is written. -/
  letter : Char
deriving Repr, Inhabited

/-- A number in a directive. -/
inductive Extent where
  /-- The number that is written there. -/
  | fixed (value : Nat)
  /-- The number that the next argument writes. -/
  | given
deriving Repr, Inhabited

/-- A directive as it is written. -/
structure Template where
  /-- The signs in front. -/
  flags : List Char
  /-- The least width. -/
  width : Extent
  /-- The precision, if there is one. -/
  precision : Option Extent
  /-- The letter that says what is written. -/
  letter : Char
deriving Repr, Inhabited

/-- A part of a format. -/
inductive Part where
  /-- A text. -/
  | text (text : List Char)
  /-- An argument. -/
  | directive (directive : Template)
  /-- Something that cannot be read, and what is said about it after its numbers have been read. -/
  | invalid (numbers : List Extent) (message : String)
deriving Repr, Inhabited

/-- The number at the front of a directive. -/
def extent (cs : List Char) : Extent × List Char :=
  match cs with
  | '*' :: rest => (.given, rest)
  | cs =>
    let digits := cs.takeWhile Char.isDigit
    (.fixed (decimal digits), cs.drop digits.length)

/-- Reads what stands after a percent sign. -/
def directive (cs : List Char) : Except (List Extent × String) (Template × List Char) :=
  let flags := cs.takeWhile fun c => "-+ 0#".toList.contains c
  let (width, rest) := extent (cs.drop flags.length)
  let (precision, rest) := match rest with
    | '.' :: rest =>
      let (precision, rest) := extent rest
      (some precision, rest)
    | rest => (none, rest)
  let numbers := width :: precision.toList
  match rest with
  | letter :: rest =>
    if "diouxXcsb".toList.contains letter || Fractional.letters.contains letter then
      .ok (⟨flags, width, precision, letter⟩, rest)
    else
      let shown := String.ofList ('%' :: cs.take (cs.length - rest.length))
      .error (numbers, s!"{shown}: invalid directive")
  | [] => .error (numbers, "missing format character")

/-- Reads a format; `fuel` bounds the number of characters. -/
def parts : (fuel : Nat) → List Char → List Part
  | 0, _ => []
  | _, [] => []
  | fuel + 1, '%' :: '%' :: rest => .text ['%'] :: parts fuel rest
  | fuel + 1, '%' :: rest =>
    match directive rest with
    | .ok (directive, rest) => .directive directive :: parts fuel rest
    | .error (numbers, message) => [.invalid numbers message]
  | fuel + 1, '\\' :: c :: rest =>
    let digits := octalDigits 3 (c :: rest)
    if digits = [] then
      match letter? c with
      | some d => .text [d] :: parts fuel rest
      | none => .text ['\\'] :: parts fuel (c :: rest)
    else .text [octal digits] :: parts fuel ((c :: rest).drop digits.length)
  | fuel + 1, c :: rest => .text [c] :: parts fuel rest

/-- Brings a text to a width. -/
def pad (d : Directive) (text : List Char) : List Char :=
  if d.flags.contains '-' then text.rightpad d.width ' ' else text.leftpad d.width ' '

/-- The digits of a number in a base. -/
def digitsOf (letter : Char) (value : Nat) : List Char :=
  match letter with
  | 'o' => Nat.toDigits 8 value
  | 'x' => Nat.toDigits 16 value
  | 'X' => (Nat.toDigits 16 value).map Char.toUpper
  | _ => Nat.toDigits 10 value

/-- The sign of a number that has one. -/
def signOf (d : Directive) (negative : Bool) : List Char :=
  if negative then ['-']
  else if d.flags.contains '+' then ['+']
  else if d.flags.contains ' ' then [' ']
  else []

/-- Brings a sign and digits to a width; zeros go between them if they are asked for. -/
def padNumber (d : Directive) (zeros : Bool) (sign digits : List Char) : List Char :=
  if zeros && d.flags.contains '0' && !d.flags.contains '-' then
    sign ++ digits.leftpad (d.width - sign.length) '0'
  else pad d (sign ++ digits)

/-- Writes an integer. -/
def formatNumber (d : Directive) (value : Int) : List Char :=
  let isSigned := d.letter == 'd' || d.letter == 'i'
  let size := if isSigned then value.natAbs else (value.emod 18446744073709551616).toNat
  let digits := if size = 0 && d.precision = some 0 then [] else digitsOf d.letter size
  let digits := digits.leftpad (d.precision.getD 1) '0'
  let sign :=
    if isSigned then signOf d (value < 0)
    else if d.flags.contains '#' then
      match d.letter with
      | 'o' => if digits.head? = some '0' then [] else ['0']
      | 'x' => if size = 0 then [] else ['0', 'x']
      | 'X' => if size = 0 then [] else ['0', 'X']
      | _ => []
    else []
  padNumber d d.precision.isNone sign digits

/-- Writes a number with a fraction. -/
def formatFractional (d : Directive) (negative : Bool) (size : Fractional.Size) : List Char :=
  let text := Fractional.written d.letter (d.flags.contains '#') d.precision size
  let isFinite := match size with
    | .finite _ => true
    | _ => false
  let (mark, digits) := match text with
    | '0' :: 'x' :: digits => (['0', 'x'], digits)
    | '0' :: 'X' :: digits => (['0', 'X'], digits)
    | digits => ([], digits)
  padNumber d isFinite (signOf d negative ++ mark) digits

/-- What is wrong with an argument that should be a number. -/
inductive NumberFault where
  /-- It is none. -/
  | expected
  /-- Something follows it. -/
  | rest
  /-- It is too large or too small. -/
  | range
deriving DecidableEq, Repr

/-- What is said about an argument that should be a number. -/
def NumberFault.message : NumberFault → String
  | expected => "expected numeric value"
  | rest => "not completely converted"
  | range => "Numerical result out of range"

/-- The size of the number at the front of an argument, and what follows it, if there is one. -/
def size? (cs : List Char) : Option (Nat × List Char) :=
  let digitsIn (base : Nat) (cs : List Char) : Option (Nat × List Char) :=
    let value (c : Char) : Nat :=
      if c.isDigit then c.toNat - '0'.toNat else c.toLower.toNat - 'a'.toNat + 10
    let digits := cs.takeWhile fun c => c.isAlphanum && value c < base
    if digits = [] then none
    else some (digits.foldl (fun total c => base * total + value c) 0, cs.drop digits.length)
  match cs with
  | '0' :: 'x' :: rest | '0' :: 'X' :: rest => (digitsIn 16 rest).or (some (0, cs.drop 1))
  | '0' :: _ => digitsIn 8 cs
  | _ => digitsIn 10 cs

/-- The number that an argument writes, and what is wrong with it. -/
def numberOf (isSigned : Bool) (text : String) : Int × Option NumberFault :=
  match text.toList with
  | [] => (0, none)
  | '\'' :: rest | '"' :: rest => ((rest.headD '\x00').toNat, none)
  | cs =>
    let cs := cs.dropWhile fun c => c == ' ' || ('\t' ≤ c && c ≤ '\r')
    let (isNegative, digits) := match cs with
      | '-' :: rest => (true, rest)
      | '+' :: rest => (false, rest)
      | cs => (false, cs)
    match size? digits with
    | none => (0, some .expected)
    | some (size, rest) =>
      let value : Int := if isNegative then -size else size
      let low : Int := if isSigned then -9223372036854775808 else -18446744073709551615
      let high : Int := if isSigned then 9223372036854775807 else 18446744073709551615
      let fault := if rest = [] then none else some NumberFault.rest
      if low ≤ value && value ≤ high then (value, fault)
      else (if isSigned && isNegative then low else high, some .range)

/-- The number with a fraction that an argument writes, whether it is negative, and what is wrong
with it. -/
def fractionalOf (text : String) : Bool × Fractional.Size × Option NumberFault :=
  let whole (value : Nat) : Fractional.Size :=
    ((Decimal.read value 0).map Fractional.Size.finite).getD .infinite
  match text.toList with
  | [] => (false, whole 0, none)
  | '\'' :: rest | '"' :: rest => (false, whole (rest.headD '\x00').toNat, none)
  | cs =>
    let cs := cs.dropWhile fun c => c == ' ' || ('\t' ≤ c && c ≤ '\r')
    let (negative, digits) := match cs with
      | '-' :: rest => (true, rest)
      | '+' :: rest => (false, rest)
      | cs => (false, cs)
    match Fractional.read? digits with
    | none => (false, whole 0, some .expected)
    | some found =>
      let fault := if found.rest != [] then some NumberFault.rest
        else if found.isOutOfRange then some .range else none
      (negative, found.size, fault)

/-- What has been written. -/
structure Written where
  /-- The text, the last character first. -/
  reversed : List Char := []
  /-- The arguments that are left. -/
  arguments : List String
  /-- The arguments that should have been numbers, with what is wrong with them. -/
  invalid : List (String × String) := []
  /-- What cannot be read of the format. -/
  fault : Option String := none
  /-- Whether an argument has been taken. -/
  hasTaken : Bool := false
  /-- Whether nothing more is written. -/
  isOver : Bool := false

namespace Written

/-- The text. -/
def text (w : Written) : String := .ofList w.reversed.reverse

/-- Adds a text. -/
def add (w : Written) (text : List Char) : Written :=
  { w with reversed := text.reverse ++ w.reversed }

/-- Takes the next argument. -/
def next (w : Written) : String × Written :=
  (w.arguments.headD "", { w with arguments := w.arguments.tail, hasTaken := true })

/-- Takes the next argument as a number. -/
def number (w : Written) (isSigned : Bool) : Int × Written :=
  let (argument, w) := w.next
  match numberOf isSigned argument with
  | (value, none) => (value, w)
  | (value, some fault) => (value, { w with invalid := w.invalid ++ [(argument, fault.message)] })

/-- Takes the next argument as a number with a fraction. -/
def fractional (w : Written) : Bool × Fractional.Size × Written :=
  let (argument, w) := w.next
  match fractionalOf argument with
  | (negative, size, none) => (negative, size, w)
  | (negative, size, some fault) =>
    (negative, size, { w with invalid := w.invalid ++ [(argument, fault.message)] })

/-- Takes the number in a directive. -/
def extent (w : Written) : Extent → Int × Written
  | .fixed value => (value, w)
  | .given => w.number true

/-- Takes the numbers in a directive. A negative width has the sign of its text in front. -/
def complete (w : Written) (t : Template) : Directive × Written :=
  let (width, w) := w.extent t.width
  let flags := if width < 0 then '-' :: t.flags else t.flags
  match t.precision with
  | none => (⟨flags, width.natAbs, none, t.letter⟩, w)
  | some precision =>
    let (most, w) := w.extent precision
    (⟨flags, width.natAbs, if most < 0 then none else some most.toNat, t.letter⟩, w)

/-- Writes a part of a format. -/
def part (w : Written) : Part → Written
  | .text text => if w.isOver then w else w.add text
  | .invalid numbers message =>
    if w.isOver then w
    else
      let w := numbers.foldl (fun w number => (w.extent number).2) w
      { w with isOver := true, fault := some message }
  | .directive template =>
    if w.isOver then w
    else
      let (d, w) := w.complete template
      let cut (text : List Char) := match d.precision with
        | some most => text.take most
        | none => text
      match d.letter with
      | 's' =>
        let (argument, w) := w.next
        w.add (pad d (cut argument.toList))
      | 'c' =>
        let (argument, w) := w.next
        w.add (pad d [argument.toList.headD '\x00'])
      | 'b' =>
        let (argument, w) := w.next
        let (text, goesOn) := unescape argument.toList.length argument.toList
        { w.add (pad d (cut text)) with isOver := !goesOn }
      | letter =>
        if Fractional.letters.contains letter then
          let (negative, size, w) := w.fractional
          w.add (formatFractional d negative size)
        else
          let (value, w) := w.number (letter == 'd' || letter == 'i')
          w.add (formatNumber d value)

end Written

/-- Writes a format, again as long as it takes arguments; `fuel` bounds their number. -/
def writeParts (parts : List Part) : (fuel : Nat) → Written → Written
  | 0, w => w
  | fuel + 1, w =>
    let w := parts.foldl Written.part { w with hasTaken := false }
    if w.isOver || w.arguments.isEmpty || !w.hasTaken then w else writeParts parts fuel w

/-- What `printf` writes. -/
def printf (format : String) (arguments : List String) : Written :=
  writeParts (parts (format.length + 1) format.toList) (arguments.length + 1) { arguments }

end BuildPlanner.Shell.Printing
