import BuildPlanner.Shell.Call

/-!
# Running commands

A command runs in a shell: the words of a call are replaced by what they stand for, its
redirections are opened, and what it names is called. Other commands run those that they are made
of. A process runs a shell to its end.
-/

namespace BuildPlanner.Shell

open Act

variable (runner : Runner)

/-! ## Calls -/

/-- Runs a call of nothing: its variables are set and stay so. -/
def runNothing (errors : Option Endpoint) (assignments : List (String × Word)) : Act Unit := do
  trace runner errors (← assignAll runner changeVariable assignments) []
  setStatus (← get).captured

/-- Runs a call of which the words are known. -/
def runCallee (tested : Bool) (errors : Option Endpoint) (assignments : List (String × Word))
    (c : Callee) (words : List String) : Act Unit := do
  let name := c.words.headD ""
  let isSpecial := !c.isDirect && specialCommands.contains name
  let replaces := name = "exec" && 1 < c.words.length
  let act (change : Variable → Act Unit) : Act Unit := do
    trace runner errors (← assignAll runner change assignments) words
    dispatch runner tested isSpecial c
  let hide (v : Variable) : Act Unit := hideVariable { v with isExported := true }
  if c.isProgram (← get).functions then
    unless c.isOfSystem || assignments.any (·.1 == searchName) do lookFor name
    inScope (act hide)
  else if isSpecial then act fun v => changeVariable { v with isExported := replaces }
  else inScope (act hide)

/-- Runs a call. -/
def runCall (tested : Bool) (assignments : List (String × Word)) (words : List Word)
    (redirects : List Redirect) : Act Unit := do
  modify fun s => { s with captured := 0 }
  let words ← callWords runner [] words
  let s ← get
  let errors := s.channels.lookup errorChannel
  let c := calleeOf s.functions words
  let name := c.words.headD ""
  let refused : Act Unit := do
    setStatus misuseCode
    if !c.isDirect && specialCommands.contains name then throw .fail
  let act := if words.isEmpty then runNothing runner errors assignments
    else runCallee runner tested errors assignments c words
  withRedirects runner (name = "exec") redirects refused act

/-! ## Commands -/

/-- Ends the shell if a command failed, unless its answer is tested. -/
def checkFailure (tested : Bool) : Act Unit := do
  let s ← get
  if s.has 'e' && !tested && s.status != 0 then throw .exit

/-- Whether the last command succeeded. -/
def succeeded : Act Bool := do
  return (← get).status == 0

/-- Runs the body of a loop once. The answer is whether the loop goes on. -/
def runBody (tested : Bool) (body : Command) : Act Bool := fun s =>
  let (result, after) := runner tested body { s with loops := s.loops + 1 }
  let after := { after with loops := s.loops }
  match result with
  | .error (.break loops) =>
    (if loops ≤ 1 then .ok false else .error (.break (loops - 1)), after)
  | .error (.continue loops) =>
    (if loops ≤ 1 then .ok true else .error (.continue (loops - 1)), after)
  | .error jump => (.error jump, after)
  | .ok _ => (.ok true, after)

/-- Runs a loop with a condition, where `last` is how its body ended; `fuel` bounds the number of
times. -/
def runLoop (tested holds : Bool) (condition body : Command) : (fuel last : Nat) → Act Unit
  | 0, _ => exit misuseCode
  | fuel + 1, last => do
    runner true condition
    if (← succeeded) == holds then
      if ← runBody runner tested body then
        runLoop tested holds condition body fuel (← get).status
    else setStatus last

/-- The bound for the times that a loop runs. -/
def maxRounds : Nat := 100000000

/-- Runs a loop over texts. -/
def runEach (tested : Bool) (name : String) (body : Command) : List String → Act Unit
  | [] => return ()
  | value :: rest => do
    setVariable name value
    if ← runBody runner tested body then runEach tested name body rest

/-- Whether one of some patterns matches a text. -/
def matchesAny (text : String) : List Word → Act Bool
  | [] => return false
  | pattern :: rest => do
    if Glob.isMatch (← patternOfWord (runInside runner) pattern) text.toList then return true
    else matchesAny text rest

/-- Runs the first arm of which a pattern matches a text. -/
def runChoice (tested : Bool) (text : String) : List (List Word × Command) → Act Unit
  | [] => setStatus 0
  | (patterns, body) :: rest => do
    if ← matchesAny runner text patterns then runner tested body
    else runChoice tested text rest

/-- The names of the programs that the parts of a pipe run, as far as the script says. -/
def namesInPipe : Command → List String
  | .pipe first second => namesInPipe first ++ namesInPipe second
  | .simple _ _ (word :: _) _ => ((plain? word).map String.ofList).toList.filter isName
  | _ => []

/-- Looks for the programs that a pipe runs. -/
def lookForAll (names : List String) : Act Unit := do
  let s ← get
  (names.filter fun name => Callee.isProgram s.functions { words := [name] }).forM lookFor

/-- The number of bytes that the first command of a pipe can be ahead of the second one. -/
def pipeSize : Nat := 65536

/-- Runs two commands of which the second reads what the first one writes, as far as a limit. The
answer is whether the second one would have read more. -/
def runPipeWithin (tested : Bool) (first second : Command) (limit : Nat) : Act Bool := do
  let before ← get
  let written ← capture (some limit) (toEnd runner (runner true first))
  modify fun s => { s with captured := before.captured }
  let number := (← get).openings.length
  let endpoint ← opened (.text written.text.toList)
  inSubshell do
    setChannel inputChannel (some endpoint)
    toEnd runner (runner tested second)
  let left := (((← get).openings[number]?).bind (Opening.rest? before.host)).getD []
  return written.isCut && left.isEmpty

/-- Runs two commands of which the second reads what the first one writes, and ends the first one
when it is too far ahead; `fuel` bounds how often the limit is doubled. -/
def runPipe (tested : Bool) (first second : Command) : (fuel limit : Nat) → Act Unit
  | 0, limit => discard (runPipeWithin runner tested first second limit)
  | fuel + 1, limit => fun s =>
    match runPipeWithin runner tested first second limit s with
    | (.ok true, _) => runPipe tested first second fuel (2 * limit) s
    | (.ok false, after) => (.ok (), after)
    | (.error jump, after) => (.error jump, after)

/-- The most often that the limit of a pipe is doubled. -/
def maxDoublings : Nat := 6

/-- The number of processes that a command takes. -/
def sizeOf : Command → Nat
  | .pipe first second => sizeOf first + sizeOf second
  | _ => 1

/-- Starts a command that runs by itself. -/
def start (inner : Command) : Act Unit := do
  let number ← giveUpNumber
  modify fun s =>
    let process := s.lastProcess + sizeOf inner
    let channels := (inputChannel, .nothing) :: s.channels.filter (·.1 != inputChannel)
    let frame := { copied s with channels }
    let command := Command.subshell s.line inner
    let started : Started := { process, frame, directory := s.host.workingDirectory, command }
    { s with
      status := 0, lastProcess := process, lastJob := some process
      waiting := s.waiting ++ [started], jobs := { number, process, size := sizeOf inner } :: s.jobs }

/-- Notes the line of a command. -/
def setLine (line : Nat) : Act Unit := modify fun s => { s with line }

/-- Runs a command; `fuel` bounds how deep commands and scripts are in each other. -/
def run : (fuel : Nat) → Runner
  | 0, _, _ => exit misuseCode
  | fuel + 1, tested, command => do
    let runner := run fuel
    if (← get).has 'n' then return ()
    match command with
    | .nothing => setStatus 0
    | .simple line assignments words redirects =>
      setLine line
      tryCatch (runCall runner tested assignments words redirects) fun jump => do
        if jump matches .return _ then checkFailure tested
        throw jump
      runPending runner
      checkFailure tested
    | .redirected line inner redirects =>
      setLine line
      withRedirects runner false redirects (setStatus misuseCode) (runner tested inner)
      checkFailure tested
    | .sequence first second =>
      runner tested first
      runner tested second
    | .both first second =>
      runner true first
      if ← succeeded then runner tested second
    | .either first second =>
      runner true first
      unless ← succeeded do runner tested second
    | .negated inner =>
      runner true inner
      setStatus (if ← succeeded then 1 else 0)
    | .pipe first second =>
      lookForAll (namesInPipe command)
      prepare runner
      runPipe runner tested first second maxDoublings pipeSize
      noteEnd
      runPending runner
      checkFailure tested
    | .subshell line inner =>
      setLine line
      prepare runner
      inSubshell (toEnd runner (runner tested inner))
      noteEnd
      runPending runner
      checkFailure tested
    | .background inner => start inner
    | .conditional condition consequent alternative =>
      runner true condition
      runner tested (if ← succeeded then consequent else alternative)
    | .loop holds condition body => runLoop runner tested holds condition body maxRounds 0
    | .each line name words body =>
      setLine line
      let values ← match words with
        | some words => fieldsOfAll (runInside runner) words
        | none => pure (← get).arguments
      if values.isEmpty then setStatus 0 else runEach runner tested name body values
    | .choice line word arms =>
      setLine line
      let text ← textOfWord (runInside runner) word
      runChoice runner tested text arms
    | .define name body =>
      forget name
      modify fun s => { s with functions := (name, body) :: s.functions, status := 0 }

/-! ## Processes -/

/-- The bound for commands and scripts in each other. -/
def maxDepth : Nat := 10000

/-- Runs the shell on a host with the words that it is called with. -/
def onHost (h : Host) (words : List String) : Ending × Host :=
  let searched := ":".intercalate (h.searchPath.map Path.text)
  let given := [("HOME", Text.bytes h.home.text), (searchName, Text.bytes searched)]
  let first := State.first { h with output := "", errors := "" } given
  let (result, after) := runShell (run maxDepth) (words.map Text.bytes) first
  let host :=
    { after.host with
      output := h.output ++ Text.ofBytes after.host.output
      errors := h.errors ++ Text.ofBytes after.host.errors }
  match result with
  | .error (.kill signal) | .error (.die signal) => (.killed signal, host)
  | _ => (.exited (after.status % codes), host)

end BuildPlanner.Shell
