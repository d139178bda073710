import BuildPlanner.Json
import BuildPlanner.Ninja.Syntax
import BuildPlanner.Project
import BuildPlanner.Toolchain

/-!
# Build graphs

A build graph holds the rules of a toolchain and the statements of each project. It is written as a
build description with `BuildGraph.render`, and as a JSON document with `BuildGraph.toJson`.
-/

namespace BuildPlanner

/-- What is emitted for a project. -/
structure EmittedProject where
  /-- The name of the project. -/
  name : String
  /-- The name of its kind. -/
  kind : String
  /-- The archive or program that it makes, if it makes one. -/
  artifact : Option Path
  /-- Its statements. -/
  statements : List Statement
deriving DecidableEq, Repr, Inhabited

/-- What is built for a toolchain and a configuration. -/
structure BuildGraph where
  /-- The platform of the toolchain. -/
  platform : Platform
  /-- The configuration. -/
  configuration : Configuration
  /-- The rules. -/
  rules : List Rule
  /-- The projects. -/
  projects : List EmittedProject
deriving DecidableEq, Repr, Inhabited

namespace BuildGraph

/-- All statements, in the order in which they are emitted. -/
def statements (g : BuildGraph) : List Statement :=
  g.projects.flatMap (·.statements)

/-- What is emitted for the project of a given name. -/
def project? (g : BuildGraph) (name : String) : Option EmittedProject :=
  g.projects.find? (·.name == name)

/-- The rule of a given name. -/
def rule? (g : BuildGraph) (name : String) : Option Rule :=
  g.rules.find? (·.name == name)

/-- The version of the syntax that the description needs. -/
def requiredVersion : String := "1.3"

/-- The first lines of the description. -/
def header (g : BuildGraph) : String :=
  Ninja.comment s!"Generated by shipwright for {g.platform} ({g.configuration}). Do not edit." ++
    "\n" ++ Ninja.assignment "ninja_required_version" requiredVersion ++ "\n"

/-- The part of the description for a project; one without statements has none. -/
def projectPart (p : EmittedProject) : String :=
  if p.statements.isEmpty then ""
  else Ninja.comment s!"{p.name} ({p.kind})" ++ .join (p.statements.map Ninja.build)

/-- The build description. -/
def render (g : BuildGraph) : String :=
  g.header ++ .join (g.rules.map Ninja.rule) ++ .join (g.projects.map projectPart)

end BuildGraph

/-! ## As a JSON document -/

/-- A rule as a JSON object; absent bindings are left out. -/
def Rule.toJson (r : Rule) : Json :=
  .object ([("name", .text r.name), ("command", .text r.command)] ++
    (r.depfile.map fun value => ("depfile", Json.text value)).toList ++
    (r.deps.map fun value => ("deps", Json.text value)).toList)

/-- A statement as a JSON object. -/
def Statement.toJson (s : Statement) : Json :=
  .object
    [("kind", .text s.kind.name),
     ("rule", .text s.rule),
     ("outputs", .array (s.outputs.map fun p => .text p.text)),
     ("inputs", .array (s.inputs.map fun p => .text p.text)),
     ("variables",
      .array (s.bindings.map fun (key, value) => .array [.text key, .text value]))]

/-- An emitted project as a JSON object. -/
def EmittedProject.toJson (p : EmittedProject) : Json :=
  .object
    [("name", .text p.name),
     ("kind", .text p.kind),
     ("artifact", .ofText? (p.artifact.map Path.text)),
     ("statements", .array (p.statements.map Statement.toJson))]

/-- A build graph as a JSON document. -/
def BuildGraph.toJson (g : BuildGraph) : Json :=
  .object
    [("toolchain", .text g.platform.name),
     ("configuration", .text g.configuration.name),
     ("rules", .array (g.rules.map Rule.toJson)),
     ("projects", .array (g.projects.map EmittedProject.toJson))]

end BuildPlanner
