import BuildPlanner.Glob.Matching

/-!
# Patterns in scripts

In a pattern of a script a character that was quoted stands for itself. A bracket may also list
classes of characters by their names; one that is not closed is a character like others.
-/

namespace BuildPlanner.Shell

/-- A text of which it is known which characters were quoted. -/
abbrev Field : Type := List (Char × Bool)

namespace Pattern

open Glob

/-- The classes of characters that have names. -/
def classes : List (String × List Listed) :=
  let upper := Listed.range 'A' 'Z'
  let lower := Listed.range 'a' 'z'
  let digit := Listed.range '0' '9'
  [("upper", [upper]), ("lower", [lower]), ("digit", [digit]), ("alpha", [upper, lower]),
    ("alnum", [upper, lower, digit]), ("xdigit", [digit, .range 'a' 'f', .range 'A' 'F']),
    ("blank", [.one ' ', .one '\t']), ("space", [.one ' ', .range '\t' '\r']),
    ("cntrl", [.range '\x00' '\x1f', .one '\x7f']), ("print", [.range ' ' '~']),
    ("graph", [.range '!' '~']),
    ("punct", [.range '!' '/', .range ':' '@', .range '[' (Char.ofNat 96), .range '\x7b' '~'])]

/-- The named class at the front, after the bracket that opens its name. -/
def class? (field : Field) : Option (List Listed × Field) :=
  match field with
  | (':', false) :: rest =>
    let name := rest.takeWhile (·.1.isAlpha)
    match rest.drop name.length with
    | (':', false) :: (']', false) :: after =>
      (classes.lookup (.ofList (name.map (·.1)))).map fun listed => (listed, after)
    | _ => none
  | _ => none

/-- Takes the character at the front; a backslash gives way to the one after it. -/
def literal? : Field → Option (Char × Field)
  | ('\\', false) :: (c, _) :: rest => some (c, rest)
  | (c, _) :: rest => some (c, rest)
  | [] => none

/-- What a bracket lists, up to the one that closes it; `fuel` bounds the number of characters. The
first character may be a closing bracket. -/
def listed? (first : Bool) : (fuel : Nat) → Field → Option (List Listed × Field)
  | 0, _ => none
  | fuel + 1, field =>
    match field, first with
    | (']', false) :: rest, false => some ([], rest)
    | _, _ =>
      let named := match field with
        | ('[', false) :: rest => class? rest
        | _ => none
      match named, literal? field with
      | some (listed, rest), _ =>
        (listed? false fuel rest).map fun (others, after) => (listed ++ others, after)
      | none, none => none
      | none, some (low, ('-', false) :: rest) =>
        if rest.head? = some (']', false) then
          (listed? false fuel (('-', false) :: rest)).map fun (others, after) =>
            (.one low :: others, after)
        else
          match literal? rest with
          | some (high, rest) =>
            (listed? false fuel rest).map fun (others, after) => (.range low high :: others, after)
          | none => none
      | none, some (c, rest) =>
        (listed? false fuel rest).map fun (others, after) => (.one c :: others, after)

/-- The bracket that starts a text, and what follows it. -/
def bracket? (field : Field) : Option (Token × Field) :=
  match field with
  | ('!', false) :: rest =>
    (listed? true (rest.length + 1) rest).map fun (listed, after) => (.except listed, after)
  | _ => (listed? true (field.length + 1) field).map fun (listed, after) => (.within listed, after)

/-- The pattern that a text writes; `fuel` bounds the number of characters. -/
def tokensOf : (fuel : Nat) → Field → List Token
  | 0, _ => []
  | _, [] => []
  | fuel + 1, ('*', false) :: rest => .anySequence :: tokensOf fuel rest
  | fuel + 1, ('?', false) :: rest => .anyChar :: tokensOf fuel rest
  | fuel + 1, ('[', false) :: rest =>
    match bracket? rest with
    | some (token, after) => token :: tokensOf fuel after
    | none => .char '[' :: tokensOf fuel rest
  | fuel + 1, ('\\', false) :: (c, _) :: rest => .char c :: tokensOf fuel rest
  | fuel + 1, (c, _) :: rest => .char c :: tokensOf fuel rest

/-- The pattern that a text writes. -/
def ofField (field : Field) : List Token := tokensOf field.length field

/-- Whether a text has wildcards that were not quoted. -/
def hasWildcards (field : Field) : Bool :=
  field.any fun (c, quoted) => !quoted && (c == '*' || c == '?' || c == '[')

end Pattern

end BuildPlanner.Shell
