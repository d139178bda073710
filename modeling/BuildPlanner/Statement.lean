import BuildPlanner.Path.Basic

/-!
# Rules and statements

A rule is a command with references to variables. A statement applies a rule to inputs and outputs
and binds its variables. `Statement.expand` is the command that runs for a statement: in a rule's
text `$in` and `$out` stand for the inputs and outputs, two dollars for one, and any other
reference for the bound value, or for nothing.
-/

namespace BuildPlanner

/-- A command of a toolchain, with references to variables. -/
structure Rule where
  /-- The name by which statements refer to the rule. -/
  name : String
  /-- The command. -/
  command : String
  /-- The dependency file that the command writes, if it writes one. -/
  depfile : Option String := none
  /-- How dependencies are told, if they are. -/
  deps : Option String := none
deriving DecidableEq, Repr, Inhabited

/-- What a statement does. -/
inductive StatementKind where
  /-- It makes an object from a source. -/
  | compile
  /-- It makes an archive from objects. -/
  | archive
  /-- It makes a linkable resource from a resource script. -/
  | resource
  /-- It makes an executable. -/
  | link
deriving DecidableEq, Repr, Inhabited

namespace StatementKind

/-- All kinds. -/
def all : List StatementKind := [compile, archive, resource, link]

/-- The name of the kind. -/
def name : StatementKind → String
  | compile => "compile"
  | archive => "archive"
  | resource => "resource"
  | link => "link"

end StatementKind

/-- The application of a rule. -/
structure Statement where
  /-- What the statement does. -/
  kind : StatementKind
  /-- The name of the rule that is applied. -/
  rule : String
  /-- The files that it makes. -/
  outputs : List Path
  /-- The files that it reads. -/
  inputs : List Path
  /-- The bindings of variables, in the order in which they are written. -/
  bindings : List (String × String)
deriving DecidableEq, Repr, Inhabited

namespace Statement

/-- The value of a variable: its first binding counts. -/
def binding? (s : Statement) (name : String) : Option String :=
  s.bindings.lookup name

/-- The paths with spaces between them. -/
def joinPaths (paths : List Path) : String :=
  " ".intercalate (paths.map Path.text)

/-- What a reference to a variable stands for. -/
def value (s : Statement) (name : String) : String :=
  if name = "in" then joinPaths s.inputs
  else if name = "out" then joinPaths s.outputs
  else if name = "" then "$"
  else (s.binding? name).getD ""

/-- Whether a character may stand in a name that has no braces around it. -/
def isNameChar (c : Char) : Bool :=
  c.isAlphanum || c == '_' || c == '-'

/-- Replaces the references in a command; `value` says what each stands for. -/
def expandChars (value : List Char → List Char) : List Char → List Char
  | [] => []
  | '$' :: '$' :: rest => '$' :: expandChars value rest
  | '$' :: '{' :: rest =>
    value (rest.takeWhile (· != '}')) ++ expandChars value ((rest.dropWhile (· != '}')).drop 1)
  | '$' :: rest =>
    value (rest.takeWhile isNameChar) ++ expandChars value (rest.dropWhile isNameChar)
  | c :: rest => c :: expandChars value rest
termination_by command => command.length
decreasing_by
  all_goals simp only [List.length_cons, List.length_drop]
  · omega
  · have := (List.dropWhile_sublist (l := rest) (· != '}')).length_le
    omega
  · have := (List.dropWhile_sublist (l := rest) isNameChar).length_le
    omega
  · omega

/-- The command that a rule runs for the statement. -/
def expand (s : Statement) (command : String) : String :=
  .ofList (expandChars (fun name => (s.value (.ofList name)).toList) command.toList)

@[simp] theorem expandChars_nil (value : List Char → List Char) : expandChars value [] = [] := by
  simp [expandChars]

end Statement

end BuildPlanner
