import BuildPlanner.Failure

/-!
# Faults of a run

At which stage a run came to nothing, with the text, the code and the advice shown for it.
-/

namespace BuildPlanner

/-- A stage that failed. -/
inductive PipelineFault where
  /-- Nothing could be generated. -/
  | generate (failure : Failure)
  /-- The build ended with a code other than zero. -/
  | build (code : Int)
  /-- The data of a project could not be copied. -/
  | deploy (project : String) (code threshold : Int)
  /-- The build executor is not there. -/
  | executorNotFound (program : String)
  /-- A stage could not do its work. -/
  | io (stage : String) (failure : Failure)
deriving DecidableEq, Repr

namespace PipelineFault

/-- What is said about the fault. -/
def message : PipelineFault → String
  | generate failure => "generation failed: " ++ failure.message
  | build code => s!"build failed (executor exited with code {code})"
  | deploy project code threshold =>
    s!"deploy of `{project}` failed with code {code} (threshold {threshold})"
  | executorNotFound program => s!"build executor `{program}` not found"
  | io stage failure => s!"{stage} stage failed: " ++ failure.message

/-- The code by which the fault is known to tools. -/
def code : PipelineFault → String
  | generate _ => "shipwright::generate"
  | build _ => "shipwright::build"
  | deploy .. => "shipwright::deploy"
  | executorNotFound _ => "shipwright::executor_not_found"
  | io .. => "shipwright::io"

/-- How the fault can be mended, where there is advice. -/
def help : PipelineFault → Option String
  | executorNotFound _ => some "install ninja, or set `[build] ninja` in .shipwright/config.toml"
  | _ => none

end PipelineFault

end BuildPlanner
