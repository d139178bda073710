/-!
# JSON documents

A JSON value and its indented text: two spaces for each level, one item a line, and empty arrays
and objects on one line. Control characters are escaped, and all other characters stand as they
are.
-/

namespace BuildPlanner

/-- A JSON value; the members of an object keep their order. -/
inductive Json where
  /-- No value. -/
  | null
  /-- A text. -/
  | text (value : String)
  /-- An array. -/
  | array (items : List Json)
  /-- An object. -/
  | object (members : List (String × Json))
deriving Inhabited

namespace Json

/-- A text, or no value. -/
def ofText? : Option String → Json
  | some value => text value
  | none => null

/-- The escape of a character, if it has one of two characters. -/
def shortEscape? : Char → Option Char
  | '"' => some '"'
  | '\\' => some '\\'
  | '\x08' => some 'b'
  | '\x0c' => some 'f'
  | '\n' => some 'n'
  | '\r' => some 'r'
  | '\t' => some 't'
  | _ => none

/-- A character inside a quoted text. -/
def escapeChar (c : Char) : List Char :=
  match shortEscape? c with
  | some short => ['\\', short]
  | none =>
    if c.toNat < 0x20 then
      ['\\', 'u', '0', '0', Nat.digitChar (c.toNat / 16), Nat.digitChar (c.toNat % 16)]
    else [c]

/-- A text in quotes. -/
def quote (s : String) : String :=
  .ofList ('"' :: s.toList.flatMap escapeChar ++ ['"'])

/-- A line break and the indentation of a level. -/
def newline (level : Nat) : String :=
  .ofList ('\n' :: List.replicate (2 * level) ' ')

mutual

/-- The text of a value at a level of indentation. -/
def pretty (level : Nat) : Json → String
  | null => "null"
  | text value => quote value
  | array [] => "[]"
  | array (item :: items) =>
    "[" ++ newline (level + 1) ++ pretty (level + 1) item ++ prettyItems (level + 1) items ++
      newline level ++ "]"
  | object [] => "\x7b\x7d"
  | object ((key, value) :: members) =>
    "\x7b" ++ newline (level + 1) ++ quote key ++ ": " ++ pretty (level + 1) value ++
      prettyMembers (level + 1) members ++ newline level ++ "\x7d"

/-- The text of the items after the first. -/
def prettyItems (level : Nat) : List Json → String
  | [] => ""
  | item :: items => "," ++ newline level ++ pretty level item ++ prettyItems level items

/-- The text of the members after the first. -/
def prettyMembers (level : Nat) : List (String × Json) → String
  | [] => ""
  | (key, value) :: members =>
    "," ++ newline level ++ quote key ++ ": " ++ pretty level value ++ prettyMembers level members

end

/-- The indented text of a document. -/
def document (value : Json) : String :=
  pretty 0 value

end Json

end BuildPlanner
