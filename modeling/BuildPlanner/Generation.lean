import BuildPlanner.Graph.CompileCommands
import BuildPlanner.Graph.Emission
import BuildPlanner.Workspace

/-!
# Generation

A workspace is checked, its umbrella sources are written, its projects are resolved, and the build
description is written with, if wanted, a compilation database. A plan is the same graph without
anything written.
-/

namespace BuildPlanner

/-- What to generate. -/
structure GenerationOptions where
  /-- The configuration. -/
  configuration : Configuration
  /-- Whether a compilation database is written. -/
  emitCompileCommands : Bool
  /-- Whether nothing is written at all. -/
  planOnly : Bool
deriving DecidableEq, Repr, Inhabited

/-- What has been generated. -/
structure Generated where
  /-- The build graph. -/
  graph : BuildGraph
  /-- The resolved projects. -/
  projects : List Project
  /-- The build description, if it was written. -/
  ninjaFile : Option Path
  /-- The compilation database, if it was written. -/
  compileCommands : Option Path
deriving DecidableEq, Repr, Inhabited

/-- What is reported about an emitted project. -/
def EmittedProject.note (emitted : EmittedProject) : String :=
  if emitted.kind = ProjectKind.headerOnly.name then s!"{emitted.name}: header-only, no statements"
  else s!"{emitted.name}: {emitted.statements.length} statements"

namespace BuildGraph

variable (toolchain : Toolchain) (configuration : Configuration)

/-- What is reported about projects as they are emitted, up to the first that cannot be. -/
def emissionNotes (archives : Archives) : List Project → List String
  | [] => []
  | p :: rest =>
    match p.emit toolchain configuration archives with
    | .error _ => []
    | .ok emitted => emitted.note :: emissionNotes (archivesAfter archives p emitted) rest

/-- Generates the build graph of projects and reports on each of them. -/
def generateReporting (projects : List Project) : Activity Failure BuildGraph := do
  if (← get).isVerbose then
    (emissionNotes toolchain configuration [] projects).forM (.report .detail)
  .ofModel fun _ => generate toolchain configuration projects

/-- Generates the build graph of projects and writes it as a build description. -/
def write (p : Path) (projects : List Project) : Activity Failure BuildGraph := do
  let graph ← generateReporting toolchain configuration projects
  (Files.write p graph.render).mapFault (Failure.within "failed to write build description")
  return graph

end BuildGraph

namespace Workspace

variable (ws : Workspace) (toolchain : Toolchain) (options : GenerationOptions)

/-- The compilation database at the root of the workspace. -/
def compileCommandsFile : Path := ws.root.entry BuildGraph.compileCommandsName

/-- Reports that something is generated for projects. -/
def announce (projects : List Project) : Activity Failure Unit :=
  .report .info
    s!"Generating {projects.length} project(s) for {toolchain.platform} ({options.configuration})"

/-- Computes the graph and writes nothing. -/
def plan : Activity Failure Generated := do
  let projects ← ws.resolveReporting toolchain.platform options.configuration
  announce toolchain options projects
  let graph ← BuildGraph.generateReporting toolchain options.configuration projects
  return { graph, projects, ninjaFile := none, compileCommands := none }

/-- Writes the compilation database of a graph. -/
def writeCompileCommands (graph : BuildGraph) : Activity Failure Path := do
  let commands := graph.compileCommands ws.root
  Files.write ws.compileCommandsFile (CompileCommand.document commands)
  .report .info s!"Wrote {ws.compileCommandsFile} ({commands.length} entries)"
  return ws.compileCommandsFile

/-- Writes the umbrella sources, the build description and, if wanted, the compilation
database. -/
def generateFiles : Activity Failure Generated := do
  discard (ws.aggregateTests toolchain.platform)
  let projects ← ws.resolveReporting toolchain.platform options.configuration
  announce toolchain options projects
  let ninjaFile := ws.ninjaFile toolchain.platform options.configuration
  let graph ← (BuildGraph.write toolchain options.configuration ninjaFile projects).mapFault
    (Failure.within "failed to generate build description")
  .report .info s!"Wrote {ninjaFile} ({graph.statements.length} statements)"
  let compileCommands ←
    if options.emitCompileCommands then some <$> ws.writeCompileCommands graph else pure none
  return { graph, projects, ninjaFile := some ninjaFile, compileCommands }

/-- Generates what the options ask for. -/
def generate : Activity Failure Generated := do
  .ofModel fun _ => ws.validate toolchain.platform
  if options.planOnly then ws.plan toolchain options else ws.generateFiles toolchain options

end Workspace

end BuildPlanner
