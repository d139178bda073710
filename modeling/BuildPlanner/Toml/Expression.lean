import BuildPlanner.Toml.Moment
import BuildPlanner.Toml.Number
import BuildPlanner.Toml.Table

/-!
# Keys and values

A key is a list of names with dots between them; a name is bare or quoted. Arrays may go over
several lines, with comments, and end in a comma; tables in braces stay on one line. Both may be
nested, and keys may have parts, up to a fixed number.
-/

namespace BuildPlanner.Toml

/-- The most containers that may be nested, and the most parts of a key. -/
def maxDepth : Nat := 79

/-! ## Comments -/

/-- Drops a comment that starts here; what is left starts at its line end. -/
def skipComment : List Char → List Char
  | '#' :: rest => rest.dropWhile isPlain
  | cs => cs

theorem length_skipComment (cs : List Char) : (skipComment cs).length ≤ cs.length := by
  unfold skipComment
  split
  · have := (List.dropWhile_sublist (l := ‹List Char›) isPlain).length_le
    simp only [List.length_cons]
    omega
  · exact Nat.le_refl _

/-- Drops spaces, comments and line ends. A comment has to be followed by a line end. -/
def skipTrivia (cs : List Char) : Option (List Char) :=
  match h : lineEnd? (skipComment (skipSpaces cs)) with
  | some after =>
    have := length_lineEnd h
    have := length_skipComment (skipSpaces cs)
    have := length_skipSpaces cs
    skipTrivia after
  | none => if (skipSpaces cs).head? = some '#' then none else some (skipSpaces cs)
termination_by cs.length
decreasing_by omega

/-! ## Keys -/

/-- Whether a character may stand in a bare name. -/
def isBare (c : Char) : Bool :=
  c.isAlphanum || c == '_' || c == '-'

/-- Reads the text of one name of a key. -/
def nameText : Reader String := fun cs =>
  match cs with
  | '"' :: _ | '\'' :: _ => (quotedLine cs).map fun (text, rest) => (.ofList text, rest)
  | _ =>
    let name := cs.takeWhile isBare
    if name = [] then none else some (.ofList name, cs.dropWhile isBare)

/-- Reads one name of a key. -/
def name : Reader Name := fun cs =>
  (nameText cs).map fun (text, rest) => (⟨text, ⟨cs, rest⟩⟩, rest)

/-- Reads a key with at most the given number of names; each may have spaces around it. -/
def names : (most : Nat) → Reader (List Name)
  | 0, _ => none
  | most + 1, cs => do
    let (first, rest) ← name (skipSpaces cs)
    match skipSpaces rest with
    | '.' :: rest =>
      let (others, rest) ← names most rest
      return (first :: others, rest)
    | rest => return ([first], rest)

/-- A key: the tables that lead to a member, and its name. -/
structure Key where
  /-- The tables on the way. -/
  path : List Name
  /-- The name. -/
  name : Name
deriving DecidableEq, Repr

/-- Reads a key, with the spaces around it. -/
def key : Reader Key := fun cs => do
  let (names, rest) ← names maxDepth cs
  return (⟨names.dropLast, ← names.getLast?⟩, rest)

/-! ## Values -/

/-- Reads what a value that is no container says. -/
def content : Reader Scalar := fun cs =>
  match cs with
  | '"' :: _ | '\'' :: _ => (quoted cs).map fun (text, rest) => (.text (.ofList text), rest)
  | 't' :: 'r' :: 'u' :: 'e' :: rest => some (.boolean true, rest)
  | 'f' :: 'a' :: 'l' :: 's' :: 'e' :: rest => some (.boolean false, rest)
  | _ => (moment cs).orElse fun _ => number cs

/-- Reads a value that is no container. -/
def scalar : Reader Value := fun cs =>
  (content cs).map fun (content, rest) => (.scalar content ⟨cs, rest⟩, rest)

/-- Reads the items of an array, up to its closing bracket; `fuel` bounds their number. -/
def items (item : Reader Value) : (fuel : Nat) → Reader (List Value)
  | 0, _ => none
  | fuel + 1, cs => do
    match ← skipTrivia cs with
    | ']' :: rest => return ([], rest)
    | rest =>
      let (first, rest) ← item rest
      match ← skipTrivia rest with
      | ',' :: rest =>
        let (others, rest) ← items item fuel rest
        return (first :: others, rest)
      | ']' :: rest => return ([first], rest)
      | _ => none

/-- Reads a member: a key, an equals sign and a value, with the spaces around it. -/
def member (item : Reader Value) : Reader (Key × Value) := fun cs => do
  let (key, rest) ← key cs
  match rest with
  | '=' :: rest =>
    let (value, rest) ← item (skipSpaces rest)
    return ((key, value), skipSpaces rest)
  | _ => none

/-- Reads the members of a table in braces, up to the closing brace, and adds them to those read
before; `fuel` bounds their number. -/
def inlineMembers (item : Reader Value) : (fuel : Nat) → Members → Reader Members
  | 0, _, _ => none
  | fuel + 1, before, cs => do
    let ((key, value), rest) ← member item cs
    let members ← before.add false false key.path key.name value
    match rest with
    | ',' :: rest => inlineMembers item fuel members rest
    | '}' :: rest => return (members, rest)
    | _ => none

/-- Reads a table in braces. -/
def inlineTable (item : Reader Value) : Reader Value := fun cs => do
  match skipSpaces (cs.drop 1) with
  | '}' :: rest => return (.table (.inline ⟨cs, rest⟩) [], rest)
  | inside =>
    let (members, rest) ← inlineMembers item inside.length [] inside
    return (.table (.inline ⟨cs, rest⟩) members, rest)

/-- Reads a value with at most the given number of containers in each other. -/
def value : (depth : Nat) → Reader Value
  | 0, cs => scalar cs
  | depth + 1, cs =>
    match cs with
    | '[' :: rest =>
      (items (value depth) cs.length rest).map fun (items, rest) => (.array items ⟨cs, rest⟩, rest)
    | '{' :: _ => inlineTable (value depth) cs
    | _ => scalar cs

end BuildPlanner.Toml
