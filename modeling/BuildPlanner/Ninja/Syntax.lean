import BuildPlanner.Statement
import BuildPlanner.Text.Lines

/-!
# Ninja syntax

How comments, variables, rules and build statements are written in a build description. In a path
a dollar, a space, a colon and a newline get a dollar before them. In a value a dollar is written
twice and a newline becomes a space.
-/

namespace BuildPlanner.Ninja

/-- Writes the characters of a path. -/
def escapePathChars (cs : List Char) : List Char :=
  cs.flatMap fun c => if c = '$' ∨ c = ' ' ∨ c = ':' ∨ c = '\n' then ['$', c] else [c]

/-- Writes a path in a build line. -/
def escapePath (p : Path) : String :=
  .ofList (escapePathChars p.text.toList)

/-- Writes the characters of a value. -/
def escapeValueChars (cs : List Char) : List Char :=
  cs.flatMap fun c => if c = '$' then ['$', '$'] else if c = '\n' then [' '] else [c]

/-- Writes the value of a variable. -/
def escapeValue (value : String) : String :=
  .ofList (escapeValueChars value.toList)

/-- Writes a comment, line by line. -/
def comment (text : String) : String :=
  .join ((Text.lines text).map fun line => "# " ++ line ++ "\n")

/-- Writes a variable of the whole description. -/
def assignment (key value : String) : String :=
  key ++ " = " ++ value ++ "\n"

/-- Writes an indented binding. -/
def binding (key value : String) : String :=
  "  " ++ assignment key value

/-- Writes a binding that may be absent. -/
def optionalBinding (key : String) (value : Option String) : String :=
  match value with
  | some value => binding key value
  | none => ""

/-- Writes a rule. -/
def rule (r : Rule) : String :=
  "rule " ++ r.name ++ "\n" ++ binding "command" r.command ++ optionalBinding "depfile" r.depfile ++
    optionalBinding "deps" r.deps ++ "\n"

/-- Writes paths with spaces between them. -/
def pathList (paths : List Path) : String :=
  " ".intercalate (paths.map escapePath)

/-- Writes the first line of a statement. -/
def buildLine (s : Statement) : String :=
  "build " ++ pathList s.outputs ++ ": " ++ s.rule ++
    (if s.inputs.isEmpty then "" else " " ++ pathList s.inputs) ++ "\n"

/-- Writes a statement. -/
def build (s : Statement) : String :=
  buildLine s ++ .join (s.bindings.map fun (key, value) => binding key (escapeValue value)) ++ "\n"

end BuildPlanner.Ninja
