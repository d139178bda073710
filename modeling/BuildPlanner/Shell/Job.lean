import BuildPlanner.Shell.Options

/-!
# Jobs

A command that a script starts to run by itself is a job of its shell. Its process runs as soon as
the shell starts another process, waits or ends, but not before. The shell knows how it has ended
when it has looked, and forgets the job when it has said so, or has waited for it and needs its
number.
-/

namespace BuildPlanner.Shell

open Act

/-! ## Which jobs there are -/

/-- Whether the number of a job can be had by another. -/
def Job.isDone (job : Job) : Bool := job.ending.isSome && job.isAwaited

/-- The first number that no job needs. -/
def freeNumber (jobs : List Job) : Nat :=
  let taken := (jobs.filter fun job => !job.isDone).map Job.number
  ((List.range (taken.length + 1)).map (· + 1)).find? (!taken.contains ·) |>.getD 1

/-- Forgets the job of which another process takes the place. -/
def giveUpNumber : Act Nat := do
  let s ← get
  let number := freeNumber s.jobs
  set { s with jobs := s.jobs.filter (·.number != number) }
  return number

/-- Looks how jobs have ended. -/
def reap : Act Unit := do
  let s ← get
  let seen (job : Job) : Job :=
    { job with ending := job.ending.or (s.ended.lookup job.process) }
  modify fun s => { s with jobs := s.jobs.map seen }
  if s.jobs.any fun job => job.ending != (seen job).ending then noteEnd

/-! ## What names a job -/

/-- The number that digits write, if it fits into 31 bits. -/
def count? (word : String) : Option Nat :=
  let digits := word.toList
  if digits != [] && digits.all Char.isDigit && decimal digits ≤ 2147483647 then
    some (decimal digits)
  else none

/-- The job that a word names, which starts with a percent sign; no word names the last one. -/
def jobOf (word : Option String) : Act Job := do
  let jobs := (← get).jobs
  let orFail (text : String) (job : Option Job) : Act Job :=
    match job with
    | some job => return job
    | none => fail text
  let shown := word.getD ""
  let missing := s!"No such job: {shown}"
  match (word.getD "%").toList with
  | '%' :: [] | '%' :: ['+'] | '%' :: ['%'] => orFail "No current job" jobs.head?
  | '%' :: ['-'] => orFail "No previous job" jobs[1]?
  | '%' :: ['?'] =>
    if 1 < jobs.length then fail s!"{shown}: ambiguous" else orFail missing jobs.head?
  | '%' :: digits =>
    orFail missing ((count? (.ofList digits)).bind fun number =>
      jobs.find? (·.number == number))
  | _ => fail missing

/-! ## Signals -/

/-- What is said about a process that a signal has ended, where a shell waits for it. -/
def endedBy (signal : Nat) : Option String :=
  if 34 ≤ signal then some s!"Real-time signal {signal - 34}"
  else if 32 ≤ signal then some s!"Unknown signal {signal}"
  else List.lookup signal
   [(1, "Hangup"), (3, "Quit"), (4, "Illegal instruction"), (5, "Trace/breakpoint trap"),
    (6, "Aborted"), (7, "Bus error"), (8, "Floating point exception"), (9, "Killed"),
    (10, "User defined signal 1"), (11, "Segmentation fault"), (12, "User defined signal 2"),
    (14, "Alarm clock"), (15, "Terminated"), (16, "Stack fault"), (24, "CPU time limit exceeded"),
    (25, "File size limit exceeded"), (26, "Virtual timer expired"),
    (27, "Profiling timer expired"), (29, "I/O possible"), (30, "Power failure"),
    (31, "Bad system call")]

/-! ## Commands -/

/-- What is said about how a job has ended. -/
def Ending.text : Ending → String
  | exited 0 => "Done"
  | exited code => s!"Done({code})"
  | killed 2 => "Interrupt"
  | killed 13 => "Broken pipe"
  | killed signal => (endedBy signal).getD ""

/-- Says how far a job is, and forgets it if it has ended. -/
def showJob (job : Job) : Act Unit := do
  let jobs := (← get).jobs
  let sign := if jobs.head? = some job then "+" else if jobs[1]? = some job then "-" else " "
  let state := match job.ending with
    | some ending => ending.text
    | none => "Running"
  let shown := s!"[{job.number}] {sign} {state}"
  let others := String.join (List.replicate (job.size - 1) " | ")
  print (.ofList (shown.toList.rightpad 33 ' ') ++ others ++ "\n")
  if job.ending.isSome then
    modify fun s => { s with jobs := s.jobs.filter (·.number != job.number) }

/-- Lists jobs, or their processes. -/
def jobs (words : List String) : Act Nat := do
  let (letters, words) ← splitOptions ['l', 'p'] words
  reap
  let act (job : Job) : Act Unit :=
    if letters.getLast? = some 'p' then
      let first := job.process + 1 - job.size
      print s!"{first}\n"
    else showJob job
  if words.isEmpty then (← get).jobs.forM act
  words.forM fun word => do act (← jobOf word)
  return 0

/-- Lets a job run on, which is not possible where nobody controls jobs. -/
def resume (words : List String) : Act Nat := do
  let (_, words) ← splitOptions [] words
  discard (jobOf words.head?)
  let shown := words.headD "(null)"
  fail s!"job {shown} not created under job control"

end BuildPlanner.Shell
