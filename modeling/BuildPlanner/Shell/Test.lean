import BuildPlanner.Shell.Expansion

/-!
# Tests

A test is a list of words: operands with operators before or between them, joined by `-a`, `-o`,
`!` and parentheses. A word that could be an operator is an operand where an operator between two
operands follows it.
-/

namespace BuildPlanner.Shell.Test

/-- Why a test has no answer. -/
inductive TestFault where
  /-- An operand is missing after an operator. -/
  | argumentExpected (operator : String)
  /-- Something is left after the test. -/
  | unexpectedOperator (operand : String)
  /-- A parenthesis is not closed. -/
  | closingExpected
  /-- A word is no number. -/
  | illegalNumber (word : String)
deriving DecidableEq, Repr

/-- What is said about a test without an answer. -/
def TestFault.message : TestFault → String
  | argumentExpected operator => s!"{operator}: argument expected"
  | unexpectedOperator operand =>
    if operand = "" then "unexpected operator" else s!"{operand}: unexpected operator"
  | closingExpected => "closing paren expected"
  | illegalNumber word => s!"Illegal number: {word}"

/-- The operators that stand before an operand. -/
def unaryOperators : List String :=
  ["-b", "-c", "-d", "-e", "-f", "-g", "-h", "-k", "-L", "-n", "-O", "-G", "-p", "-r", "-s", "-S",
    "-t", "-u", "-w", "-x", "-z"]

/-- The operators that stand between operands. -/
def binaryOperators : List String :=
  ["=", "!=", "<", ">", "-eq", "-ne", "-ge", "-gt", "-le", "-lt", "-nt", "-ot", "-ef"]

/-- The integer that a word writes. -/
def number (word : String) : Except TestFault Int :=
  match integer? word.toList with
  | some value => if Arithmetic.wrap value = value then .ok value else .error (.illegalNumber word)
  | none => .error (.illegalNumber word)

/-- When something was written; a directory counts as made before all that the run writes. -/
def writtenAt (h : Host) : Node → Int
  | .file file => file.modified
  | .directory => h.clock - 1

/-- Whether the first of two files was written later. -/
def isNewer (h : Host) (a b : String) : Bool :=
  match h.node (pathOf a), h.node (pathOf b) with
  | .ok a, .ok b => writtenAt h b < writtenAt h a
  | _, _ => false

/-- The names of the devices that are always there. -/
def devices : List String := ["null", "full", "zero", "random", "urandom", "tty"]

/-- Whether a device is at a location. -/
def isDevice : Location → Bool
  | ["dev", name] => devices.contains name
  | _ => false

/-- The operators that hold of a device. -/
def deviceOperators : List String := ["-e", "-c", "-r", "-w", "-O", "-G"]

/-- The answer of an operator before an operand. No channel is a terminal. -/
def unary (h : Host) (operator operand : String) : Except TestFault Bool :=
  let p := pathOf operand
  match operator with
  | "-n" => .ok (operand != "")
  | "-z" => .ok (operand == "")
  | "-t" => (number operand).map fun _ => false
  | _ => .ok <|
    if isDevice (h.namedLocation p) then deviceOperators.contains operator
    else match operator with
    | "-e" | "-r" | "-w" | "-O" | "-G" => h.exists? p
    | "-f" => h.isFile p
    | "-d" => h.isDirectory p
    | "-s" => h.isDirectory p || (h.file? p).any (·.content.size != 0)
    | "-x" => h.isDirectory p || (h.file? p).any (·.executable)
    | _ => false

/-- The answer of an operator between operands. -/
def binary (h : Host) (operator a b : String) : Except TestFault Bool :=
  match operator with
  | "=" => .ok (a == b)
  | "!=" => .ok (a != b)
  | "<" => .ok (a < b)
  | ">" => .ok (b < a)
  | "-nt" => .ok (isNewer h a b)
  | "-ot" => .ok (isNewer h b a)
  | "-ef" => .ok <| match h.spot (pathOf a), h.spot (pathOf b) with
    | .ok ⟨a, some _⟩, .ok ⟨b, some _⟩ => a == b
    | _, _ => false
  | _ => do
    let a ← number a
    let b ← number b
    match operator with
    | "-eq" => return a == b
    | "-ne" => return a != b
    | "-lt" => return a < b
    | "-le" => return a ≤ b
    | "-gt" => return b < a
    | _ => return b ≤ a

/-- What a word means in a test. -/
inductive Lexeme where
  /-- There is no word. -/
  | ending
  /-- An operand. -/
  | operand
  /-- An operator before an operand. -/
  | unary (operator : String)
  /-- An operator between operands. -/
  | binary (operator : String)
  /-- `!` -/
  | negation
  /-- `(` -/
  | opening
  /-- `)` -/
  | closing
  /-- `-a` -/
  | both
  /-- `-o` -/
  | either
deriving DecidableEq, Repr

/-- Whether a word that could be an operator is an operand, by the words after it. -/
def isOperand : List String → Bool
  | [] => true
  | [_] => false
  | next :: _ :: _ => binaryOperators.contains next

/-- What the first word of a test means. -/
def lexeme : List String → Lexeme
  | [] => .ending
  | word :: rest =>
    if word = "!" then .negation
    else if word = "(" then if rest.isEmpty then .operand else .opening
    else if word = ")" then .closing
    else if word = "-a" then .both
    else if word = "-o" then .either
    else if binaryOperators.contains word then .binary word
    else if unaryOperators.contains word && !isOperand rest then .unary word
    else .operand

/-- The answer of the test at the front, and the words from its last one on. -/
abbrev Answer : Type := Except TestFault (Bool × List String)

/-- The answer of operands with an operator, or of parentheses, where the first word means
something. -/
def primary (h : Host) (whole : Lexeme → List String → Answer) (meaning : Lexeme)
    (words : List String) : Answer := do
  let rest := words.drop 1
  match meaning, rest with
  | .ending, _ => return (false, words)
  | .opening, _ =>
    if lexeme rest = .closing then return (false, rest)
    else
      let (answer, after) ← whole (lexeme rest) rest
      if lexeme (after.drop 1) = .closing then return (answer, after.drop 1)
      else throw .closingExpected
  | .unary operator, operand :: _ => return (← unary h operator operand, rest)
  | .unary operator, [] => throw (.argumentExpected operator)
  | _, _ =>
    match lexeme rest, rest.drop 1 with
    | .binary operator, operand :: after =>
      return (← binary h operator (words.headD "") operand, operand :: after)
    | .binary operator, [] => throw (.argumentExpected operator)
    | _, _ => return (words.headD "" != "", words)

/-- The answer of a test that may be negated. -/
def negatable (h : Host) (whole : Lexeme → List String → Answer) :
    Lexeme → List String → Answer
  | .negation, word :: rest =>
    if rest.isEmpty then .ok (true, [word])
    else do
      let (answer, after) ← negatable h whole (lexeme rest) rest
      return (!answer, after)
  | meaning, words => primary h whole meaning words

/-- The answer of tests that all have to hold; `fuel` bounds their number. -/
def conjunction (h : Host) (whole : Lexeme → List String → Answer) :
    (fuel : Nat) → Lexeme → List String → Answer
  | 0, _, words => .ok (false, words)
  | fuel + 1, meaning, words => do
    let (answer, after) ← negatable h whole meaning words
    if lexeme (after.drop 1) = .both then
      let next := after.drop 2
      let (others, after) ← conjunction h whole fuel (lexeme next) next
      return (answer && others, after)
    else return (answer, after)

/-- The answer of tests of which one has to hold; `fuel` bounds their number and depth. -/
def disjunction (h : Host) : (fuel : Nat) → Lexeme → List String → Answer
  | 0, _, words => .ok (false, words)
  | fuel + 1, meaning, words => do
    let (answer, after) ← conjunction h (disjunction h fuel) fuel meaning words
    if lexeme (after.drop 1) = .either then
      let next := after.drop 2
      let (others, after) ← disjunction h fuel (lexeme next) next
      return (answer || others, after)
    else return (answer, after)

/-- The answer of any number of words, of which the first one means something. Words that are left
are told by the one before them. -/
def whole (h : Host) (meaning : Lexeme) (words : List String) : Except TestFault Bool := do
  match ← disjunction h (words.length + 1) meaning words with
  | (_, last :: _ :: _) => throw (.unexpectedOperator last)
  | (answer, _) => return answer

/-- The answer of a test, perhaps the opposite one. Of three words, an operator in the middle counts
before all others; in front of two or three more, a negation counts, but not twice. -/
def answerFrom (h : Host) ( isNegated : Bool) : List String → Except TestFault Bool
  | [] => .ok isNegated
  | first :: rest => do
    let isShort := rest.length = 2 || rest.length = 3
    let meaning := match rest with
      | [operator, _] => if binaryOperators.contains operator then some Lexeme.operand else none
      | _ => none
    if meaning.isNone && isShort && first = "(" && rest.getLast? = some ")" then
      return (← whole h (lexeme rest.dropLast) rest.dropLast) != isNegated
    else if meaning.isNone && isShort && first = "!" then answerFrom h true rest
    else return (← whole h (meaning.getD (lexeme (first :: rest))) (first :: rest)) != isNegated

/-- The answer of a test. -/
def answer (h : Host) (words : List String) : Except TestFault Bool := answerFrom h false words

end BuildPlanner.Shell.Test
