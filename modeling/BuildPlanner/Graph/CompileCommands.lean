import BuildPlanner.Graph.Basic

/-!
# Compilation databases

One entry for each statement that compiles, with the command that runs for it, for editors and
other tools.
-/

namespace BuildPlanner

/-- An entry of a compilation database. -/
structure CompileCommand where
  /-- Where the command runs; the paths in it start there. -/
  directory : String
  /-- The source. -/
  file : String
  /-- The command. -/
  command : String
  /-- The object, if the statement has an output. -/
  output : Option String
deriving DecidableEq, Repr, Inhabited

namespace BuildGraph

/-- The name of the compilation database at the root of a workspace. -/
def compileCommandsName : String := "compile_commands.json"

/-- The entry of a statement; a statement of another kind, or without a rule or an input, has
none. -/
def compileCommand? (g : BuildGraph) (directory : Path) (s : Statement) : Option CompileCommand :=
  if s.kind = .compile then do
    let rule ← g.rule? s.rule
    let file ← s.inputs.head?
    return { directory := directory.text
             file := file.text
             command := s.expand rule.command
             output := s.outputs.head?.map Path.text }
  else none

/-- The compilation database of a build graph. -/
def compileCommands (g : BuildGraph) (directory : Path) : List CompileCommand :=
  g.statements.filterMap (g.compileCommand? directory)

end BuildGraph

/-- An entry as a JSON object. -/
def CompileCommand.toJson (c : CompileCommand) : Json :=
  .object
    ([("directory", .text c.directory), ("file", .text c.file), ("command", .text c.command)] ++
      (c.output.map fun value => ("output", Json.text value)).toList)

/-- The text of a compilation database. -/
def CompileCommand.document (commands : List CompileCommand) : String :=
  Json.document (.array (commands.map toJson))

end BuildPlanner
