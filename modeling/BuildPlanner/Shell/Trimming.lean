import BuildPlanner.Shell.Pattern

/-!
# Trimming values

A value can be used without the shortest or longest part at its start or end that a pattern matches.
Arguments that stay apart stand in one row, in which it is the first one that counts at the start,
and any of them at the end, with all that follows it.
-/

namespace BuildPlanner.Shell

/-- A part of a value: where it is, and whether it is the longest or the shortest one. -/
structure Trim where
  /-- Whether the part is at the start. -/
  atStart : Bool
  /-- Whether it is the longest one. -/
  isLongest : Bool
deriving DecidableEq, Repr

/-! ## Single values -/

/-- How many characters of a value stand before the part at its end that tokens match. Tokens without
a sequence match as many characters as there are tokens. -/
def lengthBefore ( isLongest : Bool) (tokens : List Glob.Token) (value : List Char) : Nat :=
  if tokens.any Glob.Token.isSequence then
    let answers := Glob.answers tokens value
    let found := if isLongest then answers.findIdx? id
      else (answers.reverse.findIdx? id).map (value.length - ·)
    found.getD value.length
  else
    let length := value.length - tokens.length
    if tokens.length ≤ value.length && Glob.isMatch tokens (value.drop length) then length
    else value.length

/-- How many characters of a value are the part at its start that tokens match. -/
def startLength ( isLongest : Bool) (tokens : List Glob.Token) (value : List Char) : Nat :=
  value.length - lengthBefore isLongest tokens.reverse value.reverse

/-! ## Arguments in a row -/

/-- The sign before a character that would mean something in a pattern. -/
def guardSign : Char := '\x81'

/-- Whether a character has a sign before it in a row. -/
def isGuarded (c : Char) (quoted : Bool) : Bool :=
  ('\x81' ≤ c && c ≤ '\x88') || (quoted && "!*?[=~:/-]\\".toList.contains c)

/-- A row of cells: arguments, a pattern, and perhaps a copy of the first argument without signs, with
a zero after each of them. A pattern is compared with what stands at a place, up to the next zero.
The places go along with those of the arguments, but by cells and not by characters, so they differ
from them where there are signs and where the copy ends before the arguments do. -/
structure Row where
  /-- The cells. -/
  cells : List Char
  /-- The place of the pattern. -/
  pattern : Nat
  /-- The place that goes along with the start of the arguments. -/
  first : Nat
  /-- The place that goes along with their end. -/
  last : Nat

namespace Row

/-- The cells from a place up to the next zero. -/
def textAt (cells : List Char) (place : Nat) : List Char :=
  (cells.drop place).takeWhile (· != '\x00')

/-- The cells of a text, with signs or with backslashes in their place. -/
def cellsOf (sign : Char) (field : Field) : List Char :=
  field.flatMap fun (c, quoted) => if isGuarded c quoted then [sign, c] else [c]

/-- The row of arguments and a pattern. -/
def of (arguments : List Field) (pattern : Field) : Row :=
  let cells := List.intercalate ['\x00'] (arguments.map (cellsOf guardSign))
  let patternCells := cellsOf '\\' pattern
  let both := cells ++ '\x00' :: patternCells ++ ['\x00']
  let argument := arguments.headD []
  if argument.any fun (c, quoted) => isGuarded c quoted then
    { cells := both ++ argument.map (·.1) ++ ['\x00'], pattern := cells.length + 1
      first := both.length, last := both.length + argument.length }
  else { cells := both, pattern := cells.length + 1, first := 0, last := cells.length }

/-- Whether the pattern matches the text before a place or the one after it. A text ends at the place
before which it stands, even if this is in the pattern. -/
def isMatch (row : Row) (atStart : Bool) (place : Nat) : Bool :=
  let cells := if atStart then row.cells.set place '\x00' else row.cells
  let pattern := Pattern.ofField ((textAt cells row.pattern).map (·, false))
  Glob.isMatch pattern (textAt cells (if atStart then row.first else place))

/-- The number of characters before the place at which a part of the arguments starts or ends; there
are `count` characters. -/
def find? (row : Row) (trim : Trim) (count : Nat) : Option Nat :=
  if trim.atStart == trim.isLongest then
    (List.range (count + 1)).reverse.find? fun number =>
      row.isMatch trim.atStart (row.last - (count - number))
  else
    (List.range ((textAt row.cells row.first).length + 1)).find? fun number =>
      row.isMatch trim.atStart (row.first + number)

end Row

end BuildPlanner.Shell
