import BuildPlanner.Deployment
import BuildPlanner.Executor
import BuildPlanner.Generation

/-!
# Runs

A run generates, builds and deploys, in this order, and the first stage that fails ends it. Besides
its result it keeps what the executor and the copy utility were asked to do.
-/

namespace BuildPlanner

/-- What a run is to do. -/
structure PipelineOptions where
  /-- The configuration. -/
  configuration : Configuration
  /-- Whether nothing is built and deployed. -/
  noBuild : Bool
  /-- Whether nothing is deployed. -/
  noDeploy : Bool
  /-- Whether a compilation database is written. -/
  emitCompileCommands : Bool
  /-- The number of parallel jobs, if one is asked for. -/
  jobs : Option Nat
deriving DecidableEq, Repr, Inhabited

/-- What a successful run did. -/
structure PipelineReport where
  /-- The build description. -/
  ninjaFile : Path
  /-- The number of its statements. -/
  statements : Nat
  /-- Whether it was built. -/
  built : Bool
  /-- The projects whose data was deployed. -/
  deployed : List String
deriving DecidableEq, Repr, Inhabited

/-- A finished run. -/
structure PipelineRun where
  /-- How it ended. -/
  result : Except PipelineFault PipelineReport
  /-- What the executor was asked for. -/
  requests : List BuildRequest
  /-- What the copy utility was asked for. -/
  calls : List CopyCall

namespace Workspace

variable (ws : Workspace) (toolchain : Toolchain) (options : PipelineOptions)

/-- What a run generates. -/
def generationOptions : GenerationOptions where
  configuration := options.configuration
  emitCompileCommands := options.emitCompileCommands
  planOnly := false

/-- The build description that a run builds. -/
def describedBy (generated : Generated) : Path :=
  generated.ninjaFile.getD (ws.ninjaFile toolchain.platform options.configuration)

/-- What the executor is asked for. -/
def buildRequest (generated : Generated) : BuildRequest where
  root := ws.root
  buildFile := ws.describedBy toolchain options generated
  jobs := options.jobs

/-- The report after generation, with what came after it. -/
def report (generated : Generated) (built : Bool) (deployed : List String) : PipelineReport where
  ninjaFile := ws.describedBy toolchain options generated
  statements := generated.graph.statements.length
  built := built
  deployed := deployed

/-- The end of a run that has built. -/
def runDeploy (hook : DeployHook) (generated : Generated) (h : Host) : PipelineRun × Host :=
  let requests := [ws.buildRequest toolchain options generated]
  if options.noDeploy then
    (⟨.ok (ws.report toolchain options generated true []), requests, []⟩,
      h.report .info "Skipping deploy (--no-deploy)")
  else
    let targets := deployTargets ws.root generated.projects
    let (deployment, after) := deploy hook targets h
    let report := ws.report toolchain options generated true (targets.map (·.project))
    (⟨deployment.result.map fun _ => report, requests, deployment.calls⟩, after)

/-- The end of a run that has generated. -/
def runBuild (executor : Executor) (hook : DeployHook) (generated : Generated) (h : Host) :
    PipelineRun × Host :=
  if options.noBuild then
    (⟨.ok (ws.report toolchain options generated false []), [], []⟩,
      h.report .info "Skipping build (--no-build)")
  else
    let request := ws.buildRequest toolchain options generated
    match executor request h with
    | (.error fault, after) => (⟨.error fault, [request], []⟩, after)
    | (.ok code, after) =>
      if code = 0 then ws.runDeploy toolchain options hook generated after
      else (⟨.error (.build code), [request], []⟩, after)

/-- Generates, builds and deploys. -/
def run (executor : Executor) (hook : DeployHook) (h : Host) : PipelineRun × Host :=
  match ws.generate toolchain (generationOptions options) h with
  | (.error failure, after) => (⟨.error (.generate failure), [], []⟩, after)
  | (.ok generated, after) => ws.runBuild toolchain options executor hook generated after

end Workspace

end BuildPlanner
