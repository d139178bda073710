import BuildPlanner.Shell.Waiting

/-!
# Running texts

A script is read while it runs: a line is read when those before it have run, so that what they
changed counts for it. What is to be done on a signal, or when a shell ends, is a script as well. A
file is read on when it has gained lines, and a shell may ask for each line.
-/

namespace BuildPlanner.Shell

open Act

variable (runner : Runner)

/-- Whether a token is the end of a line. -/
def LineToken.endsLine (next : LineToken) : Bool :=
  match next.token with
  | .sign .newline => true
  | _ => false

variable (tested : Bool)

/-- Lines that have been read. -/
structure ReadLines where
  /-- The first one. -/
  first : Nat
  /-- The one after the last. -/
  after : Nat
  /-- How many without commands are at the front. -/
  blank : Nat

/-- Runs the lines of a script from one on; `told` is run for those that are read, and `fuel` bounds
their number. The answer is whether there were any commands. -/
def runLines (told : ReadLines → Act Unit) (last : Nat) : (fuel line : Nat) →
    List LineToken → Act Bool
  | 0, _, _ => return false
  | fuel + 1, line, all => do
    let blank := (all.takeWhile LineToken.endsLine).length
    match all.drop blank with
    | [] =>
      told ⟨line, last + 1, blank⟩
      return false
    | all =>
      let aliases := (← get).aliases
      match nextLine last aliases (depthOf aliases all) all with
      | .error fault =>
        told ⟨line, fault.line + 1, blank⟩
        modify fun s => { s with line := fault.line }
        fail fault.message
      | .ok next =>
        told ⟨line, next.after, blank⟩
        modify fun s => { s with readLine := min next.after last }
        runner tested next.command
        discard (runLines told last fuel next.after next.rest)
        return true

/-- Runs a text that starts with a line. The answer is whether there were any commands. -/
def runText (told : ReadLines → Act Unit) (line : Nat) (text : List Char) : Act Bool := fun s =>
  let tokens := checked s.aliases maxInner (tokensFrom line text)
  let last := lastLineOf (line + text.count '\n') tokens
  let (result, after) := runLines runner tested told last (tokens.length + 1) line tokens s
  (result, { after with readLine := s.readLine })

/-- Runs a script that is no file; one without commands succeeds. -/
def runScript (script : List Char) : Act Unit := do
  unless ← runText runner tested (fun _ => return ()) 1 script do setStatus 0

/-! ## Signals and ends -/

/-- Runs what is due because of a signal or at the end, where the last command has ended with
`status`. It counts for that only if it says so, or if something is wrong. The flag says that the
code of a `return` counts. -/
def runInterruption (action : String) (status : Nat) ( returns : Bool) : Act Unit := do
  tryCatch (runScript runner false action.toList) fun jump => do
    match jump with
    | .return true => unless returns do setStatus status
    | .return false | .break _ | .continue _ => setStatus status
    | _ => pure ()
    throw jump
  setStatus status

/-- Runs what is due because of signals. -/
def runPending : Act Unit := do
  let s ← get
  let isCopy := s.outerTraps.isSome
  let signals := s.due ++ if isCopy then [] else s.pending
  unless signals.isEmpty do
    let status := s.interrupted.getD s.status
    set { s with due := [], pending := if isCopy then s.pending else [], interrupted := some status }
    tryCatch
      ((signals.eraseDups.mergeSort fun a b => decide (a ≤ b)).forM fun signal => do
        let action := ((signalName? signal).bind (List.lookup · (← get).traps)).getD ""
        runInterruption runner action status true)
      fun jump => do
        modify fun after => { after with interrupted := s.interrupted }
        throw jump
    modify fun after => { after with interrupted := s.interrupted }

/-- Runs what is to be done when the shell ends. -/
def runAtExit : Act Unit := do
  let s ← get
  match s.traps.lookup exitName with
  | some action =>
    set { s with
      traps := s.traps.filter (·.1 != exitName), running := none, interrupted := some s.status }
    runInterruption runner action s.status false
  | none => return ()

/-- Does something to the end of its shell, and what is to be done there. Processes that it has
started come to their end as well. -/
def toEnd (act : Act Unit) : Act Unit := fun s =>
  let (result, after) := match act s with
    | (.error (.kill signal), after) => (.error (.kill signal), after)
    | (.error (.die signal), after) => (.error (.die signal), after)
    | (_, after) => runAtExit runner after
  let (settled, after) := settle runner after
  (match settled with
    | .error jump => .error jump
    | .ok _ => result, after)

/-- Runs a script that stands in a word, in a shell of its own. -/
def runInside (script : InnerScript) : Act Unit := do
  match script.commandOf script.tokens with
  | .ok command => toEnd runner (runner false command)
  | .error fault => fail fault.message

/-! ## Files -/

/-- The lines of a text from one to before another. -/
def linesBetween (text : List Char) (first after : Nat) : List Char :=
  let lines := ((text.splitOn '\n').drop (first - 1)).take (after - first)
  let isLast := text.count '\n' + 1 < after
  List.intercalate ['\n'] lines ++ if isLast || lines.isEmpty then [] else ['\n']

/-- Writes what a variable says for each line that somebody is asked for. -/
def ask (name : String) (count : Nat) : Act Unit := do
  let sign := ((← variableValue name).getD "").toList
  (List.replicate count ()).forM fun _ => do
    write errorChannel (← textOfQuoted (runInside runner) (document sign))

/-- Says that lines are read, as far as the options ask for it. The flag says that they are those of
the shell itself. -/
def tellLines ( isMain : Bool) (text : List Char) (before : Nat) (read : ReadLines) : Act Unit := do
  if isMain && (← get).has 'i' then
    ask runner "PS1" (read.blank + 1)
    ask runner "PS2" (read.after - read.first - (read.blank + 1))
  if (← get).has 'v' then
    let shown := linesBetween text (read.first - before) (read.after - before)
    write errorChannel (.ofList shown)

/-- Runs what is left of a file, in which zeros do not count, and what it gains while it runs; `fuel`
bounds how often. The answer is whether there were any commands. -/
def runFileFrom ( isMain : Bool) : (fuel line : Nat) → Opening → Act Bool
  | 0, _, _ => return false
  | fuel + 1, line, opening => do
    let text := (opening.rest? (← get).host).getD []
    let script := text.filter (· != '\x00')
    if text.isEmpty then return false
    let hasRun ← runText runner false (tellLines runner isMain script (line - 1)) line script
    let goesOn ← runFileFrom isMain fuel (line + script.count '\n') (opening.advance text.length)
    return hasRun || goesOn

/-- The most often that a file gains lines while it runs. -/
def maxGains : Nat := 1000

/-- Runs a script that is a file. -/
def runFile ( isMain : Bool) (opening : Opening) : Act Unit := do
  unless ← runFileFrom runner isMain maxGains 1 opening do setStatus 0

/-- How often a shell that does not end with its input says so. -/
def maxReminders : Nat := 50

/-- What is done at the end of the input of a shell. -/
def atInputEnd : Act Unit := do
  if (← get).has 'I' then
    (List.replicate maxReminders ()).forM fun _ => do
      write errorChannel "\nUse \"exit\" to leave shell.\n"
      if (← get).has 'i' then ask runner "PS1" 1
  else if (← get).has 'i' then write errorChannel "\n"

/-- Runs the input of a shell. Where somebody is asked for it, what is wrong ends the input and not
the shell. -/
def runInput (opening : Opening) : Act Unit := do
  fun s =>
    match runFile runner true opening s with
    | (.error .fail, after) =>
      if after.has 'i' then ask runner "PS1" 1 after else (.error .fail, after)
    | result => result
  atInputEnd runner

end BuildPlanner.Shell
