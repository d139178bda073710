import BuildPlanner.Shell.Builtin

/-!
# Processes that wait

A process that has been started to run by itself runs when the shell needs to know how it ends, or
starts another one. So it comes after what the shell does itself at once, and before what takes
longer.
-/

namespace BuildPlanner.Shell

open Act

/-- Runs commands; the flag says that the answer is tested, so that a failure does not end the
shell. -/
abbrev Runner : Type := Bool → Command → Act Unit

variable (runner : Runner)

/-! ## Running them -/

/-- Runs a process that has been started, unless a signal has ended it. -/
def runStarted (p : Started) : Act Unit := fun s =>
  let noted (ending : Ending) (s : State) : State :=
    { s with ended := (p.process, ending) :: s.ended }
  match p.signal with
  | some signal => (.ok (), noted (.killed signal) s)
  | none =>
  let frame := { p.frame with outerTraps := some (s.outerTraps.getD s.traps) }
  let host := { s.host with workingDirectory := p.directory }
  let (result, inner) := runner false p.command { s with toFrame := frame, host }
  let after := rejoined s inner
  match result with
  | .error (.kill signal) => (.error (.kill signal), after)
  | _ => (.ok (), noted (.exited (inner.status % codes)) after)

/-- Runs the processes that have been started. -/
def settle : Act Unit := do
  let s ← get
  set { s with waiting := [] }
  s.waiting.forM (runStarted runner)

/-- Does what has to be done before another process is started. -/
def prepare : Act Unit := do
  settle runner
  reap
  discard giveUpNumber

/-! ## Waiting for them -/

/-- Waits for the processes that have been started. The answer is the code for a signal that comes
meanwhile, if something runs on it. -/
def await : Act (Option Nat) := do
  settle runner
  let s ← get
  reap
  return if s.outerTraps.isSome then none else s.pending.getLast?.map (128 + ·)

/-- Waits for one job after the other. The answer is the code of the last one, or another. -/
def awaitEach (code : Nat) : List String → Act Nat
  | [] => return code
  | word :: words => do
    let known := (← get).jobs
    let process ← match word.startsWith "%", natural? word with
      | true, _ => pure (← jobOf word).process
      | false, some process => pure process
      | false, none => fail s!"Illegal number: {word}"
    match known.find? (·.process == process) with
    | none => awaitEach code words
    | some old =>
      match ← if old.ending.isSome then pure none else await runner with
      | some code => return code
      | none =>
        let s ← get
        let ending := ((s.jobs.find? (·.process == old.process)).bind Job.ending).getD (.exited 0)
        match old.ending, ending with
        | none, .killed signal => (endedBy signal).forM fun text => write errorChannel (text ++ "\n")
        | _, _ => pure ()
        modify fun s =>
          { s with jobs := s.jobs.map fun job =>
              { job with isAwaited := job.isAwaited || job.process == old.process } }
        awaitEach ending.status words

/-- Waits for jobs, or for all of them. -/
def wait (words : List String) : Act Nat := do
  let (_, words) ← splitOptions [] words
  if words.isEmpty then
    match ← await runner with
    | some code => return code
    | none =>
      modify fun s => { s with jobs := s.jobs.map ({ · with isAwaited := true }) }
      return 0
  else awaitEach runner notFoundCode words

end BuildPlanner.Shell
