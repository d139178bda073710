import BuildPlanner.Failure
import BuildPlanner.Process.Command
import BuildPlanner.Report
import BuildPlanner.Shell.Run
import BuildPlanner.Text.Lines

/-!
# Running programs

A command runs to its end before anything else is done, and what it did to the tree stays done. A
program that a signal ended has the code -1.
-/

namespace BuildPlanner

namespace Command

/-- Whether a call holds the character that ends texts. -/
def hasNul (c : Command) : Bool :=
  (c.program.text :: c.arguments ++ (c.directory.map Path.text).toList).any
    (·.toList.contains '\x00')

end Command

namespace Host

/-- Runs the program at a path. -/
def runAt (h : Host) (p : Path) (arguments : List String) :
    Except TreeFault (Shell.Ending × Host) :=
  (h.launch maxInterpreters p arguments).map (Shell.onHost h)

/-- Runs the first program of a name in the directories that are searched. One that may not be run
is passed over, and is the fault only if there is no other. -/
def runNamed (h : Host) (name : String) (arguments : List String) :
    TreeFault → List Path → Except TreeFault (Shell.Ending × Host)
  | fault, [] => .error fault
  | fault, directory :: directories =>
    match h.runAt (directory.entry name) arguments with
    | .ok ended => .ok ended
    | .error .notExecutable => runNamed h name arguments .notExecutable directories
    | .error .notFound | .error .notDirectory => runNamed h name arguments fault directories
    | .error other => .error other

/-- The host as a program sees it that runs in a directory. -/
def inDirectory (h : Host) (directory : Option Path) : Except TreeFault Host :=
  match directory with
  | none => .ok h
  | some p =>
    match h.spot p with
    | .error fault => .error fault
    | .ok ⟨_, none⟩ => .error .notFound
    | .ok ⟨_, some (.file _)⟩ => .error .notDirectory
    | .ok ⟨location, some .directory⟩ => .ok { h with workingDirectory := location }

/-- Runs a command; what it did stays done. -/
def run (h : Host) (c : Command) : Except TreeFault (Shell.Ending × Host) := do
  if c.hasNul then throw .nulInCall
  let inner ← h.inDirectory c.directory
  let (ending, after) ←
    if c.program.text = "" then throw .notFound
    else if c.program.text.toList.contains '/' then inner.runAt c.program c.arguments
    else inner.runNamed c.program.text c.arguments .notFound h.searchPath
  return (ending, { after with workingDirectory := h.workingDirectory })

end Host

/-- The code of a process that ended by a signal. -/
def killedCode : Int := -1

/-- The code of an ending. -/
def Shell.Ending.code : Shell.Ending → Int
  | exited code => code
  | killed _ => killedCode

namespace Command

/-- Runs the command. The answer is the code with which it ends. -/
def exitCode (c : Command) : Activity Failure Int := fun h =>
  let h := h.report .detail s!"exec: {c.text}"
  match h.run c with
  | .ok (ending, after) => (.ok ending.code, after)
  | .error fault => (.error ⟨[s!"failed to execute `{c.program}`"], .tree fault⟩, h)

end Command

/-- The first line that a program writes when it is asked for its version, if it succeeds. Nothing
that it writes goes to the run. -/
def toolVersion (program : Path) : StateM Host (Option String) := fun h =>
  match Host.run { h with output := "" } ⟨program, ["--version"], none⟩ with
  | .error _ => (none, h)
  | .ok (ending, after) =>
    let version := match ending with
      | .exited 0 => (Text.lines after.output).head?.map Text.trim
      | _ => none
    (version, { after with output := h.output, errors := h.errors })

end BuildPlanner
