import BuildPlanner.PipelineFault
import BuildPlanner.Process.Run
import BuildPlanner.Report

/-!
# Build executors

An executor runs a build description to its end and answers with a code. The usual one runs
`ninja` at the root of the workspace: the configured program, or the one that is found by name.
-/

namespace BuildPlanner

/-- What is to be built. -/
structure BuildRequest where
  /-- Where the executor runs; the paths of the description start there. -/
  root : Path
  /-- The build description. -/
  buildFile : Path
  /-- The number of parallel jobs, if one is asked for. -/
  jobs : Option Nat
deriving DecidableEq, Repr, Inhabited

/-- Runs a build to its end. -/
abbrev Executor : Type := BuildRequest → Activity PipelineFault Int

namespace Ninja

/-- The name of the program where none is configured. -/
def defaultProgram : Path := ⟨"ninja"⟩

/-- The program that runs: a configured path has to lead to a file, and a single name is searched
for. -/
def locate (h : Host) (configured : Option Path) : Except PipelineFault Path :=
  let name := configured.getD defaultProgram
  let found :=
    if 1 < name.components.length then if h.isFile name then some name else none
    else h.find? name.text
  match found with
  | some program => .ok program
  | none => .error (.executorNotFound name.text)

/-- The command that runs for a request. -/
def command (program : Path) (request : BuildRequest) : Command where
  program := program
  arguments := ["-f", request.buildFile.text] ++
    (request.jobs.map fun jobs => ["-j", toString jobs]).getD []
  directory := some request.root

/-- The executor that runs the program. -/
def executor (configured : Option Path) : Executor := fun request => do
  let program ← .ofView fun h => locate h configured
  let command := command program request
  .report .info s!"Running {command.text}"
  command.exitCode.mapFault (.io "build")

end Ninja

end BuildPlanner
