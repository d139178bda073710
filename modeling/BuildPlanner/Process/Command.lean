import BuildPlanner.Path.Basic

/-!
# Commands

A program with its arguments and the directory in which it runs.
-/

namespace BuildPlanner

/-- A program call. -/
structure Command where
  /-- The program: a path, or a name that is searched for. -/
  program : Path
  /-- The arguments. -/
  arguments : List String
  /-- Where the program runs, if not where the run was started. -/
  directory : Option Path
deriving DecidableEq, Repr, Inhabited

namespace Command

/-- The call as one would type it, without quoting. -/
def text (c : Command) : String :=
  " ".intercalate (c.program.text :: c.arguments)

/-- The call with one more argument. -/
def argument (c : Command) (argument : String) : Command :=
  { c with arguments := c.arguments ++ [argument] }

end Command

end BuildPlanner
