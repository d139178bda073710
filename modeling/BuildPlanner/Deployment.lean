import BuildPlanner.Replica
import BuildPlanner.PipelineFault
import BuildPlanner.Process.Run
import BuildPlanner.Project
import BuildPlanner.Report

/-!
# Deployment

The data directory of an executable is copied next to it after a build. A copy utility does it
and answers with a code: up to its threshold the code means success, perhaps with warnings. The
first failure ends the deployment.
-/

namespace BuildPlanner

/-- One use of a copy utility. -/
structure CopyCall where
  /-- The directory to copy. -/
  source : Path
  /-- The directory that becomes its copy. -/
  destination : Path
deriving DecidableEq, Repr, Inhabited

/-- A data directory to deploy. -/
structure DeployTarget where
  /-- The project whose data it is. -/
  project : String
  /-- What is to be copied, and where. -/
  call : CopyCall
deriving DecidableEq, Repr, Inhabited

/-- A copy utility. -/
structure DeployHook where
  /-- The highest code that means success. -/
  threshold : Int
  /-- Copies a directory, knowing the calls before. -/
  copy : List CopyCall → CopyCall → Activity Failure Int

/-- The name of the deployed directory. -/
def dataDirectoryName : String := "data"

/-- The data directory of a project, if it is an executable that has one. -/
def deployTarget? (root : Path) (p : Project) : Option DeployTarget := do
  let data ← (← p.executable?).dataDir
  return ⟨p.name, root.join data, (root.join p.deployDir).entry dataDirectoryName⟩

/-- The data directories of projects, in their order. -/
def deployTargets (root : Path) (projects : List Project) : List DeployTarget :=
  projects.filterMap (deployTarget? root)

/-- What became of a deployment. -/
structure Deployment where
  /-- The calls that were made, in order. -/
  calls : List CopyCall
  /-- How it ended. -/
  result : Except PipelineFault Unit

/-- What a call amounts to. -/
def DeployHook.judge (hook : DeployHook) (project : String) :
    Except Failure Int → Except PipelineFault Unit
  | .error failure => .error (.io "deploy" failure)
  | .ok code =>
    if hook.threshold < code then .error (.deploy project code hook.threshold) else .ok ()

/-- Reports that a data directory is deployed. -/
def DeployTarget.announce (target : DeployTarget) (h : Host) : Host :=
  h.report .info s!"Deploying {target.call.source} -> {target.call.destination}"

/-- Reports that a copy utility succeeded with warnings. -/
def DeployTarget.warn (target : DeployTarget) (answer : Except Failure Int) (h : Host) : Host :=
  match answer with
  | .ok code =>
    if 0 < code then
      h.report .warning s!"{target.project}: deploy finished with warnings (code {code})"
    else h
  | .error _ => h

/-- Deploys the targets after the given calls have been made. -/
def deployAfter (hook : DeployHook) (calls : List CopyCall) :
    List DeployTarget → Host → Deployment × Host
  | [], h => (⟨calls, .ok ()⟩, h)
  | target :: rest, h =>
    let (answer, after) := hook.copy calls target.call (target.announce h)
    match hook.judge target.project answer with
    | .ok _ => deployAfter hook (calls ++ [target.call]) rest (target.warn answer after)
    | .error fault => (⟨calls ++ [target.call], .error fault⟩, after)

/-- Deploys the targets, up to the first failure. -/
def deploy (hook : DeployHook) (targets : List DeployTarget) (h : Host) : Deployment × Host :=
  deployAfter hook [] targets h

/-! ## Copy utilities -/

namespace Robocopy

/-- Codes from eight on mean that something was not copied; the code eight itself is let pass. -/
def threshold : Int := 8

/-- The command that copies a directory. -/
def command (call : CopyCall) : Command where
  program := ⟨"robocopy"⟩
  arguments :=
    ["/w:1", "/mir", "/njh", "/njs", "/ndl", "/nc", "/ns", "/np", call.source.text,
      call.destination.text]
  directory := none

/-- The copy utility of the Windows system. -/
def hook : DeployHook where
  threshold := threshold
  copy _ call := (command call).exitCode

end Robocopy

/-- Copies a directory, which has to be there. -/
def copyDirectory (call : CopyCall) : Activity Failure Int := fun h =>
  if h.isDirectory call.source then
    match Replica.make call.source call.destination h with
    | (.ok changes, after) =>
      (.ok 0, after.report .detail s!"copied {changes.copied}, removed {changes.removed}")
    | (.error failure, after) => (.error failure, after)
  else (.error (.of (.note s!"data directory not found: {call.source}")), h)

/-- The copy utility of other systems, which is part of the program. -/
def nativeHook : DeployHook where
  threshold := 0
  copy _ call := copyDirectory call

end BuildPlanner
