import BuildPlanner.Shell.Enclosure

/-!
# Reading words

A word goes up to a character that cannot stand in it without quotes. Inside double quotes, after a
dollar with a brace, in a text that a script holds and in an expression, other characters end it
and fewer of them mean anything else.
-/

namespace BuildPlanner.Shell

/-- Where parts of a word stand. -/
inductive Place where
  /-- By themselves. -/
  | bare
  /-- In double quotes. -/
  | double
  /-- After the name of a parameter in braces; `quoted` says that the braces are in quotes. -/
  | braces (quoted : Bool)
  /-- In a text that the script holds, or in an expression. -/
  | document
deriving DecidableEq, Repr

/-- Whether a character ends a word that stands by itself. -/
def endsWord (c : Char) : Bool :=
  c == ' ' || c == '\t' || c == '\n' || c == ';' || c == '&' || c == '|' || c == '<' || c == '>' ||
    c == '(' || c == ')'

namespace Place

/-- Whether a character ends the parts. -/
def ends (c : Char) : Place → Bool
  | bare => endsWord c
  | double => c == '"'
  | braces _ => c == '\x7d'
  | document => false

/-- Whether braces there are in quotes, or in a text. -/
def isQuoted : Place → Bool
  | bare | braces false => false
  | _ => true

/-- Whether single quotes and backslashes quote all characters there. -/
def quotesAll : Place → Bool
  | bare | braces false => true
  | _ => false

/-- Whether a backslash quotes a character there. -/
def quotes (c : Char) (place : Place) : Bool :=
  c == '$' || c == '`' || c == '\\' || (c == '"' && place != .document) ||
    (c == '\x7d' && place == .braces true)

end Place

/-- The number that digits write. -/
def decimal (digits : List Char) : Nat :=
  digits.foldl (fun value d => 10 * value + (d.toNat - '0'.toNat)) 0

/-- Whether a character does not count around a number. -/
def isSpace (c : Char) : Bool := c == ' ' || ('\t' ≤ c && c ≤ '\r')

/-- The integer that a text writes; a sign may stand before its digits, and blanks around them. -/
def integer? (text : List Char) : Option Int :=
  let signed := ((text.dropWhile isSpace).reverse.dropWhile isSpace).reverse
  let (isNegative, digits) := match signed with
    | '-' :: digits => (true, digits)
    | '+' :: digits => (false, digits)
    | digits => (false, digits)
  if digits = [] || !digits.all Char.isDigit then none
  else some (if isNegative then -decimal digits else decimal digits)

/-- The number from zero on that a word writes, if it fits into 31 bits. -/
def natural? (word : String) : Option Nat :=
  (integer? word.toList).bind fun value =>
    if 0 ≤ value && value ≤ 2147483647 then some value.toNat else none

/-- The parameter whose name stands at the front. `wide` says that a number may have several
digits. -/
def parameter? (wide : Bool) : List Char → Option (Parameter × List Char)
  | '#' :: rest => some (.count, rest)
  | '*' :: rest => some (.all true, rest)
  | '@' :: rest => some (.all false, rest)
  | '?' :: rest => some (.status, rest)
  | '$' :: rest => some (.process, rest)
  | '!' :: rest => some (.background, rest)
  | '-' :: rest => some (.flags, rest)
  | c :: rest =>
    if c.isDigit then
      let more := if wide then rest.takeWhile Char.isDigit else []
      some (.argument (decimal (c :: more)), rest.drop more.length)
    else if startsName c then
      some (.named (.ofList (c :: rest.takeWhile isNameChar)), rest.dropWhile isNameChar)
    else none
  | [] => none

/-- Splits at the next backquote; a backslash quotes what has a meaning there, which in double
quotes is also one of these. -/
def backquoted? (inQuotes : Bool) : List Char → Option (List Char × List Char)
  | [] => none
  | '`' :: rest => some ([], rest)
  | '\\' :: '\n' :: rest => backquoted? inQuotes rest
  | '\\' :: c :: rest =>
    (backquoted? inQuotes rest).map fun (inside, after) =>
      (if c = '`' ∨ c = '$' ∨ c = '\\' ∨ (inQuotes ∧ c = '"') then c :: inside
        else '\\' :: c :: inside, after)
  | c :: rest => (backquoted? inQuotes rest).map fun (inside, after) => (c :: inside, after)

/-- What is taken of a parameter in braces, as it stands after its name. -/
def operator? : List Char → Option (Operator × List Char)
  | ':' :: '-' :: rest => some (.orWord true, rest)
  | '-' :: rest => some (.orWord false, rest)
  | ':' :: '=' :: rest => some (.orAssign true, rest)
  | '=' :: rest => some (.orAssign false, rest)
  | ':' :: '?' :: rest => some (.orFail true, rest)
  | '?' :: rest => some (.orFail false, rest)
  | ':' :: '+' :: rest => some (.ifSet true, rest)
  | '+' :: rest => some (.ifSet false, rest)
  | '%' :: '%' :: rest => some (.withoutEnd true, rest)
  | '%' :: rest => some (.withoutEnd false, rest)
  | '#' :: '#' :: rest => some (.withoutStart true, rest)
  | '#' :: rest => some (.withoutStart false, rest)
  | _ => none

/-- A reader of parts of a word, up to their end. -/
abbrev PieceReader : Type := Place → List Char → Word × List Char

/-- Whether an operator takes a pattern, in which quotes mean what they mean outside of others. -/
def Operator.takesPattern : Operator → Bool
  | withoutStart _ | withoutEnd _ => true
  | _ => false

/-- What the front of a parameter in braces says. -/
inductive BraceFront where
  /-- The value is taken, and the braces are closed. -/
  | value (p : Parameter)
  /-- The length of the value is taken, and the braces are closed. -/
  | length (p : Parameter)
  /-- Something is taken that goes with a word. -/
  | operator (p : Parameter) (operator : Operator)
  /-- Nobody knows; a word follows in any case. The flag says that a line has ended. -/
  | unknown (isLine : Bool)
deriving Repr

/-- What is taken of a parameter, as it stands after its name, and what follows. A character that
means nothing there, or nothing after a colon, is passed over. -/
def afterName (p : Parameter) (cs : List Char) : BraceFront × List Char :=
  match operator? cs, cs with
  | some (operator, rest), _ => (.operator p operator, rest)
  | none, '\x7d' :: rest => (.value p, rest)
  | none, ':' :: '\x7d' :: rest => (.operator p .value, rest)
  | none, ':' :: c :: rest | none, c :: rest => (.unknown (c == '\n'), rest)
  | none, [] => (.unknown false, [])

/-- The front of a parameter in braces, and what follows it. A number sign asks for the length of
what follows, unless this is no parameter that ends there. -/
def braceFront : List Char → BraceFront × List Char
  | '#' :: c :: rest =>
    if isNameChar c then
      match parameter? true (c :: rest) with
      | some (p, '\x7d' :: after) => (.length p, after)
      | some (_, after) => (.unknown false, after)
      | none => (.unknown false, rest)
    else
      match parameter? true [c], rest with
      | some (p, _), '\x7d' :: after => (.length p, after)
      | none, '\x7d' :: after =>
        if c = '\x7d' then (.value .count, '\x7d' :: after)
        else (.unknown (c == '\n'), '\x7d' :: after)
      | _, _ => afterName .count (c :: rest)
  | '\x7d' :: rest => (.unknown false, '\x7d' :: rest)
  | cs =>
    match parameter? true cs with
    | some (p, after) => afterName p after
    | none => (.unknown (cs.head? == some '\n'), cs.drop 1)

/-- Reads what stands in braces, up to the one that closes them. `quoted` says that they are in
quotes. -/
def inBraces (inner : PieceReader) (quoted : Bool) (place : Place) (cs : List Char)
    (made : Word → Piece) : Piece × List Char :=
  match inner (.braces quoted) cs with
  | (word, _ :: after) => (made word, after)
  | (word, []) =>
    (.unclosed (if quoted && place != .document then .quote else .brace) [made word], [])

/-- Reads what stands after a dollar. -/
def dollar (inner : PieceReader) (place : Place) (cs : List Char) : Piece × List Char :=
  match cs with
  | '(' :: '(' :: rest =>
    match closingTwo? 0 (rest.length + 1) rest with
    | some (expression, after) =>
      (.arithmetic (mapLines (· + after.count '\n') (inner .document expression).1), after)
    | none =>
      let (inside, _) := inner .document rest
      (match open? inside with
        | some .brace => .unclosed .quote []
        | _ => .unclosed .expression inside, [])
  | '(' :: rest =>
    match closing? {} rest with
    | some (script, after) => (.output { text := script, line := some (rest.count '\n') }, after)
    | none =>
      (.output { text := rest, line := some (rest.count '\n'), isClosed := false }, [])
  | '{' :: rest =>
    match braceFront rest with
    | (.value p, after) => (.parameter p .value [], after)
    | (.length p, after) => (.parameter p .length [], after)
    | (.operator p operator, after) =>
      let quoted := place.isQuoted && !operator.takesPattern
      inBraces inner quoted place after (.parameter p operator)
    | (.unknown isLine, after) => inBraces inner place.isQuoted place after (.unknown isLine)
  | _ =>
    match parameter? false cs with
    | some (p, rest) => (.parameter p .value [], rest)
    | none => (.char '$', cs)

/-- Reads one part, which starts with a given character. -/
def piece (inner : PieceReader) (place : Place) (c : Char) (rest : List Char) :
    Option Piece × List Char :=
  match c, rest with
  | '\\', '\n' :: rest => (none, rest)
  | '\\', d :: rest =>
    if place.quotesAll || place.quotes d then (some (.quoted [d]), rest)
    else (some (.char '\\'), d :: rest)
  | '\'', rest =>
    if place.quotesAll then
      match rest.dropWhile (· != '\'') with
      | _ :: after => (some (.quoted (rest.takeWhile (· != '\''))), after)
      | [] => (some (.unclosed .quote []), [])
    else (some (.char c), rest)
  | '"', rest =>
    if place = .document then (some (.char c), rest)
    else
      match inner .double rest with
      | (inside, _ :: after) => (some (.together inside), after)
      | (inside, []) => (some (.unclosed .quote inside), [])
  | '`', rest =>
    match backquoted? (place == .double) rest with
    | some (script, after) => (some (.output { text := script, line := none }), after)
    | none => (some (.unclosed .backquote []), [])
  | '$', rest =>
    let (piece, after) := dollar inner place rest
    (some piece, after)
  | c, rest => (some (.char c), rest)

/-- Reads parts of a word up to their end; `fuel` bounds their number and depth. -/
def pieces : (fuel : Nat) → PieceReader
  | 0, _, cs => ([], cs)
  | _, _, [] => ([], [])
  | fuel + 1, place, c :: rest =>
    if place.ends c then ([], c :: rest)
    else
      let (first, rest) := piece (pieces fuel) place c rest
      let (others, rest) := pieces fuel place rest
      (first.toList ++ others, rest)

/-- Reads a word. -/
def word (cs : List Char) : Word × List Char :=
  pieces (cs.length + 1) .bare cs

/-- Reads a text that the script holds. -/
def document (cs : List Char) : Word :=
  (pieces (cs.length + 1) .document cs).1

end BuildPlanner.Shell
