import BuildPlanner.Glob.Pattern
import BuildPlanner.ModelError
import BuildPlanner.Toml.SchemaFault
import BuildPlanner.Tree.Fault

/-!
# Failures

Why an activity came to nothing: a cause, and what was being done, the outermost first.
-/

namespace BuildPlanner

/-- Why an activity failed. -/
inductive Cause where
  /-- The projects are at fault. -/
  | model (fault : ModelError)
  /-- A pattern cannot be read. -/
  | pattern (fault : Glob.PatternFault)
  /-- A file or a directory is at fault. -/
  | tree (fault : TreeFault)
  /-- A directory cannot be walked through. -/
  | walk (directory : Path) (fault : TreeFault)
  /-- A configuration text is not well formed. -/
  | malformed
  /-- A value in a configuration text is not what it should be. -/
  | schema (error : Toml.SchemaError)
  /-- Something else, in words. -/
  | note (text : String)
deriving DecidableEq, Repr

/-- What is said about a cause. -/
def Cause.message : Cause → String
  | model fault => fault.message
  | pattern fault => fault.message
  | tree fault => fault.message
  | walk directory fault =>
    s!"IO error for operation on {directory}: " ++ fault.message ++ ": " ++ fault.message
  | malformed => "TOML parse error"
  | schema error => error.message
  | note text => text

/-- A failed activity. -/
structure Failure where
  /-- What was being done, the outermost first. -/
  contexts : List String
  /-- Why it failed. -/
  cause : Cause
deriving DecidableEq, Repr

namespace Failure

/-- A failure of which nothing but the cause is known. -/
def of (cause : Cause) : Failure := ⟨[], cause⟩

/-- The failure as seen from what was being done around it. -/
def within (context : String) (failure : Failure) : Failure :=
  { failure with contexts := context :: failure.contexts }

/-- What is said about the failure. -/
def message (failure : Failure) : String :=
  ": ".intercalate (failure.contexts ++ [failure.cause.message])

end Failure

end BuildPlanner
