import BuildPlanner.Shell.Word

/-!
# Expressions

Numbers are computed as integers of 64 bits with a sign, from numbers and variables; a variable
without a number counts as zero. Of `&&`, `||` and `?:` only the part that is needed is computed.
An assignment changes a variable for what comes after it. What is wrong counts in the order in which
it stands: a text is computed up to where it is no expression.
-/

namespace BuildPlanner.Shell.Arithmetic

/-- Why an expression has no value. -/
inductive ExpressionFault where
  /-- Something else had to stand at some place. -/
  | expecting (what : String)
  /-- It divides by zero. -/
  | division
  /-- The value of a variable is no number. -/
  | illegalNumber (value : String)
deriving DecidableEq, Repr

/-- What is said about an expression without a value. -/
def ExpressionFault.message (text : String) : ExpressionFault → String
  | expecting what => s!"arithmetic expression: expecting {what}: \"" ++ text ++ "\""
  | division => "arithmetic expression: division by zero: \"" ++ text ++ "\""
  | illegalNumber value => s!"Illegal number: {value}"

/-- An expression. -/
inductive Expression where
  /-- A number. -/
  | number (value : Int)
  /-- A variable. -/
  | named (name : String)
  /-- A sign in front. -/
  | unary (sign : String) (inner : Expression)
  /-- A sign between. -/
  | binary (sign : String) (left right : Expression)
  /-- A choice. -/
  | choice (condition consequent alternative : Expression)
  /-- An assignment, with the sign that joins the old value and the new one. -/
  | assign (name : String) (sign : Option String) (value : Expression)
  /-- What stands before something that is wrong. -/
  | cut (inner : Expression) (fault : ExpressionFault)
deriving Repr, Inhabited

/-- The first that is wrong in an expression. -/
def Expression.fault? : Expression → Option ExpressionFault
  | number _ | named _ => none
  | unary _ inner => inner.fault?
  | binary _ left right => left.fault?.or right.fault?
  | choice condition consequent alternative =>
    condition.fault?.or (consequent.fault?.or alternative.fault?)
  | assign _ _ value => value.fault?
  | cut inner fault => inner.fault?.or (some fault)

/-! ## Reading -/

/-- The binary signs, from those that bind least to those that bind most. -/
def levels : List (List String) :=
  [["||"], ["&&"], ["|"], ["^"], ["&"], ["==", "!="], ["<=", ">=", "<", ">"], ["<<", ">>"],
    ["+", "-"], ["*", "/", "%"]]

/-- The signs that may stand before an equals sign. -/
def joiningSigns : List String := ["<<", ">>", "+", "-", "*", "/", "%", "&", "^", "|"]

/-- A reader of expressions. What follows is part of the answer if nothing is wrong. -/
abbrev Reading : Type := List Char → Expression × Option (List Char)

/-- The answer where something else had to stand after an expression. -/
def expected (what : String) (inner : Expression) : Expression × Option (List Char) :=
  (.cut inner (.expecting what), none)

/-- Drops blanks. -/
def skip (cs : List Char) : List Char :=
  cs.dropWhile fun c => c == ' ' || c == '\t' || c == '\n'

/-- The text after a sign at its front. -/
def after? (sign : String) (cs : List Char) : Option (List Char) :=
  if sign.toList.isPrefixOf cs then some (cs.drop sign.length) else none

/-- Whether a sign at the front is only the start of a longer one. -/
def isCut (sign : String) (rest : List Char) : Bool :=
  match sign, rest with
  | "|", '|' :: _ | "&", '&' :: _ | "<", '<' :: _ | ">", '>' :: _ => true
  | "<", '=' :: _ | ">", '=' :: _ => true
  | sign, '=' :: _ => joiningSigns.contains sign
  | _, _ => false

/-- The first of some signs that stands at the front. -/
def signOf (signs : List String) (cs : List Char) : Option (String × List Char) :=
  signs.findSome? fun sign =>
    match after? sign (skip cs) with
    | some rest => if isCut sign rest then none else some (sign, rest)
    | none => none

/-- The value of a digit in any base. -/
def digit (c : Char) : Nat :=
  if c.isDigit then c.toNat - '0'.toNat else c.toLower.toNat - 'a'.toNat + 10

/-- The greatest number. -/
def greatest : Nat := 9223372036854775807

/-- The number that digits write at the front, up to a greatest one, and what follows them. -/
def digitsIn (greatest base : Nat) (cs : List Char) : Option (Nat × List Char) :=
  let digits := cs.takeWhile fun c => c.isAlphanum && digit c < base
  let value := digits.foldl (fun value c => base * value + digit c) 0
  if digits = [] then none else some (min value greatest, cs.drop digits.length)

/-- The number at the front, in base eight or sixteen if it starts so, and what follows it. -/
def number? (greatest : Nat) (cs : List Char) : Option (Nat × List Char) :=
  let inEight := digitsIn greatest (if cs.head? = some '0' then 8 else 10) cs
  match cs with
  | '0' :: 'x' :: digits | '0' :: 'X' :: digits => (digitsIn greatest 16 digits).or inEight
  | _ => inEight

/-- The assignment at the front: the variable, and the sign before the equals sign. -/
def assignment? (cs : List Char) : Option (String × Option String × List Char) :=
  let name := cs.takeWhile isNameChar
  if name.head?.any startsName then
    match skip (cs.drop name.length) with
    | '=' :: '=' :: _ => none
    | '=' :: rest => some (.ofList name, none, rest)
    | rest =>
      (joiningSigns.findSome? fun sign =>
        match after? sign rest with
        | some ('=' :: rest) => some (.ofList name, some sign, rest)
        | _ => none)
  else none

/-- Reads a number, a variable, or an expression in parentheses, perhaps after signs. -/
def primary (whole : Reading) : (fuel : Nat) → Reading
  | 0, _ => expected "primary" (.number 0)
  | fuel + 1, cs =>
    match skip cs with
    | '(' :: rest =>
      match whole rest with
      | (inner, none) => (inner, none)
      | (inner, some rest) =>
        match skip rest with
        | ')' :: rest => (inner, some rest)
        | _ => expected "')'" inner
    | cs =>
      match signOf ["-", "+", "!", "~"] cs with
      | some (sign, rest) =>
        let (inner, rest) := primary whole fuel rest
        (.unary sign inner, rest)
      | none =>
        let name := cs.takeWhile isNameChar
        if name.head?.any startsName then (.named (.ofList name), some (cs.drop name.length))
        else
          match number? greatest cs with
          | some (value, rest) => (.number value, some rest)
          | none => expected "primary" (.number 0)

/-- Reads what follows the left side of binary signs of one level; `fuel` bounds its length. -/
def binaryRest (signs : List String) (operand : Reading) :
    (fuel : Nat) → Expression → Option (List Char) → Expression × Option (List Char)
  | 0, left, rest => (left, rest)
  | _, left, none => (left, none)
  | fuel + 1, left, some cs =>
    match signOf signs cs with
    | none => (left, some cs)
    | some (sign, rest) =>
      let (right, rest) := operand rest
      binaryRest signs operand fuel (.binary sign left right) rest

/-- Reads an expression of binary signs of the given levels and above. -/
def binary (operand : Reading) : List (List String) → Reading
  | [], cs => operand cs
  | signs :: above, cs =>
    let (left, rest) := binary operand above cs
    binaryRest signs (binary operand above) cs.length left rest

/-- Reads an expression that is no assignment; `fuel` bounds how many choices are left of each
other. -/
def choice (whole : Reading) : (fuel : Nat) → Reading
  | 0, _ => expected "primary" (.number 0)
  | fuel + 1, cs =>
    match binary (primary whole cs.length) levels cs with
    | (condition, none) => (condition, none)
    | (condition, some rest) =>
      match skip rest with
      | '?' :: rest =>
        match whole rest with
        | (consequent, none) => (.choice condition consequent (.number 0), none)
        | (consequent, some rest) =>
          match skip rest with
          | ':' :: rest =>
            let (alternative, rest) := choice whole fuel rest
            (.choice condition consequent alternative, rest)
          | _ =>
            let (consequent, rest) := expected "':'" consequent
            (.choice condition consequent (.number 0), rest)
      | rest => (condition, some rest)

/-- Reads an expression; `fuel` bounds how deep it is. -/
def whole : (fuel : Nat) → Reading
  | 0, _ => expected "primary" (.number 0)
  | fuel + 1, cs =>
    match assignment? (skip cs) with
    | some (name, sign, rest) =>
      let (value, rest) := whole fuel rest
      (.assign name sign value, rest)
    | none => choice (whole fuel) (cs.length + 1) cs

/-- Reads a text as an expression. -/
def parse (cs : List Char) : Expression :=
  match whole (cs.length + 1) cs with
  | (expression, none) => expression
  | (expression, some rest) =>
    if skip rest = [] then expression else .cut expression (.expecting "EOF")

/-! ## Values -/

/-- The variables, the latest first. -/
abbrev Variables : Type := List (String × String)

/-- A number as an integer of 64 bits with a sign. -/
def wrap (value : Int) : Int := value.bmod 18446744073709551616

/-- The number of a truth value. -/
def ofBool (value : Bool) : Int := if value then 1 else 0

/-- An operation on the bits of two numbers. -/
def onBits (f : Nat → Nat → Nat) (a b : Int) : Int :=
  wrap (f (a.emod 18446744073709551616).toNat (b.emod 18446744073709551616).toNat : Nat)

/-- The value of a binary sign, of which both sides are computed. -/
def apply (sign : String) (a b : Int) : Except ExpressionFault Int :=
  match sign with
  | "+" => .ok (wrap (a + b))
  | "-" => .ok (wrap (a - b))
  | "*" => .ok (wrap (a * b))
  | "/" => if b = 0 then .error .division else .ok (wrap (a.tdiv b))
  | "%" => if b = 0 then .error .division else .ok (wrap (a.tmod b))
  | "<<" => .ok (wrap (a * (Nat.pow 2 (b.emod 64).toNat : Nat)))
  | ">>" => .ok (a.fdiv (Nat.pow 2 (b.emod 64).toNat : Nat))
  | "<" => .ok (ofBool (a < b))
  | ">" => .ok (ofBool (b < a))
  | "<=" => .ok (ofBool (a ≤ b))
  | ">=" => .ok (ofBool (b ≤ a))
  | "==" => .ok (ofBool (a = b))
  | "!=" => .ok (ofBool (a ≠ b))
  | "&" => .ok (onBits (· &&& ·) a b)
  | "|" => .ok (onBits (· ||| ·) a b)
  | "^" => .ok (onBits (· ^^^ ·) a b)
  | _ => .error (.expecting "EOF")

/-- The value of a sign in front. -/
def applyUnary (sign : String) (a : Int) : Int :=
  match sign with
  | "-" => wrap (-a)
  | "!" => ofBool (a = 0)
  | "~" => -a - 1
  | _ => a

/-- The number that the value of a variable writes, perhaps between blanks. -/
def numberOf (text : String) : Except ExpressionFault Int :=
  let cs := skip text.toList
  let digits := match cs with
    | '-' :: rest | '+' :: rest => rest
    | cs => cs
  let isNegative := cs.head? = some '-'
  match number? (if isNegative then greatest + 1 else greatest) digits with
  | some (value, rest) =>
    if skip rest != [] then .error (.illegalNumber text)
    else .ok (if isNegative then -value else value)
  | none => if cs = [] then .ok 0 else .error (.illegalNumber text)

/-- Fails if something is wrong in an expression that is not computed. -/
def pass (expression : Expression) : Except ExpressionFault Unit :=
  match expression.fault? with
  | some fault => .error fault
  | none => .ok ()

/-- The value of an expression, and the variables with what it assigns in front of them. -/
def evaluate : Expression → Variables → Except ExpressionFault (Int × Variables)
  | .number value, store => .ok (wrap value, store)
  | .named name, store => do
    return (← numberOf ((store.lookup name).getD ""), store)
  | .unary sign inner, store => do
    let (value, store) ← evaluate inner store
    return (applyUnary sign value, store)
  | .binary "&&" left right, store => do
    let (value, store) ← evaluate left store
    if value = 0 then
      pass right
      return (0, store)
    let (value, store) ← evaluate right store
    return (ofBool (value ≠ 0), store)
  | .binary "||" left right, store => do
    let (value, store) ← evaluate left store
    if value ≠ 0 then
      pass right
      return (1, store)
    let (value, store) ← evaluate right store
    return (ofBool (value ≠ 0), store)
  | .binary sign left right, store => do
    let (a, store) ← evaluate left store
    let (b, store) ← evaluate right store
    return (← apply sign a b, store)
  | .choice condition consequent alternative, store => do
    let (value, store) ← evaluate condition store
    if value ≠ 0 then
      let result ← evaluate consequent store
      pass alternative
      return result
    pass consequent
    evaluate alternative store
  | .assign name sign value, store => do
    let (value, store) ← evaluate value store
    let value ← match sign with
      | some sign => do apply sign (← numberOf ((store.lookup name).getD "")) value
      | none => pure value
    return (value, (name, toString value) :: store)
  | .cut inner fault, store => do
    discard (evaluate inner store)
    throw fault

/-- The value of a text, and what it assigns to variables, in order. -/
def valueOf (cs : List Char) (store : Variables) : Except ExpressionFault (Int × Variables) := do
  let (value, after) ← evaluate (parse cs) store
  return (value, (after.take (after.length - store.length)).reverse)

end BuildPlanner.Shell.Arithmetic
