import BuildPlanner.Shell.Job

/-!
# Signals

A signal ends a process, unless a trap says what runs instead. What a trap says runs after the
command during which the signal came. A copy of a shell has the number of the shell itself, so a
signal to that number goes to the shell.
-/

namespace BuildPlanner.Shell

open Act

/-- The names of signals, from the one with the number one on. -/
def signalNames : List String :=
  ["HUP", "INT", "QUIT", "ILL", "TRAP", "ABRT", "BUS", "FPE", "KILL", "USR1", "SEGV", "USR2",
    "PIPE", "ALRM", "TERM", "16", "CHLD", "CONT", "STOP", "TSTP", "TTIN", "TTOU", "URG", "XCPU",
    "XFSZ", "VTALRM", "PROF", "WINCH", "IO", "PWR", "SYS", "32", "33", "RTMIN"] ++
  (List.range 15).map (fun n => s!"RTMIN+{n + 1}") ++
  (List.range 14).map (fun n => s!"RTMAX-{14 - n}") ++ ["RTMAX"]

/-- The condition under which something runs at the end of a shell. -/
def exitName : String := "EXIT"

/-- The name of a signal by its number; zero is the end of the shell. -/
def signalName? (number : Nat) : Option String :=
  if number = 0 then some exitName else signalNames[number - 1]?

/-- The signals that end no process. -/
def harmlessSignals : List Nat := [0, 17, 18, 23, 28]

/-- The signals that stop a process. -/
def stoppingSignals : List Nat := [19, 20, 21, 22]

/-- The signal that ends a process where none is named. -/
def defaultSignal : Nat := 15

/-- The signal that no trap is for. -/
def killSignal : Nat := 9

/-- The greatest number of a signal. -/
def maxSignal : Nat := 64

/-- The number of a signal by its number or its name. -/
def signal? (word : String) : Option Nat :=
  match count? word with
  | some number => if number ≤ maxSignal then some number else none
  | none =>
    if word.toUpper = exitName then some 0
    else (signalNames.idxOf? word.toUpper).map (· + 1)

/-- What a signal does to the shell. -/
def deliver (signal : Nat) : Act Unit := do
  let s ← get
  let traps := if signal = killSignal then [] else s.outerTraps.getD s.traps
  match (signalName? signal).bind (List.lookup · traps) with
  | some "" => return ()
  | some _ => if signal != 0 then set { s with pending := s.pending ++ [signal] }
  | none => unless harmlessSignals.contains signal do throw (.kill signal)

/-- Whether a signal ends a process that has not run yet. -/
def Started.isEndedBy (signal : Nat) (p : Started) : Bool :=
  let isIgnored := (signalName? signal).any fun name => (p.frame.traps.lookup name).isSome
  signal = killSignal || !(isIgnored || (harmlessSignals ++ stoppingSignals).contains signal)

/-- Sends a signal to a process. The answer is whether it is there. -/
def sendToProcess (signal process : Nat) : Act Bool := do
  let s ← get
  match s.waiting.find? (·.process == process) with
  | some _ =>
    let hit (p : Started) : Started :=
      if p.process = process && p.isEndedBy signal then { p with signal := p.signal.or signal }
      else p
    set { s with waiting := s.waiting.map hit }
    return true
  | none =>
    if process = s.process then
      deliver signal
      return true
    else return s.jobs.any fun job => job.process == process && job.ending.isNone

/-- Sends a signal to the processes or jobs that a word names. The answer is whether there are
any: a job is not a group of processes where nobody controls jobs. -/
def sendToNamed (signal : Nat) (word : String) : Act Bool := do
  let (isGroup, digits) := match word.toList with
    | '-' :: digits => (true, String.ofList digits)
    | _ => (false, word)
  if word.startsWith "%" then
    discard (jobOf word)
    return false
  else match natural? digits with
  | none => fail s!"Illegal number: {digits}"
  | some 0 =>
    deliver signal
    return true
  | some process => if isGroup then return false else sendToProcess signal process

/-- Sends a signal to processes. -/
def sendTo (signal : Nat) : List String → Act Nat
  | [] => return 0
  | word :: words => do
    let isThere ← sendToNamed signal word
    unless isThere do complain "No such process\n"
    let others ← sendTo signal words
    return if isThere then others else 1

/-- Lists the signals, or names one. -/
def listSignals : List String → Act Nat
  | [] => do
    print "0\n"
    signalNames.forM fun name => print (name ++ "\n")
    return 0
  | word :: _ => do
    match natural? word with
    | none => fail s!"Illegal number: {word}"
    | some number =>
      let number := if 128 < number then number - 128 else number
      match if number = 0 then none else signalName? number with
      | some name => print (name ++ "\n")
      | none => fail s!"invalid signal number or exit status: {word}"
      return 0

/-- What is said about a call of `kill` that cannot be understood. -/
def killUsage : String :=
  "Usage: kill [-s sigspec | -signum | -sigspec] [pid | job]... or\nkill -l [exitstatus]"

/-- The number of a signal that can be sent, by its number or its name. -/
def sendable? (word : String) : Option Nat :=
  if word.toUpper = exitName then none else signal? word

/-- Sends a signal to processes, or names signals. -/
def kill (words : List String) : Act Nat := do
  let send (signal : Nat) (words : List String) : Act Nat :=
    if words.isEmpty then fail killUsage else sendTo signal words
  match (words.headD "").toList with
  | '-' :: letters =>
    match sendable? (.ofList letters) with
    | some signal => send signal (words.drop 1)
    | none =>
      let check (name : String) : Act Unit := do
        if (sendable? name).isNone then fail s!"invalid signal number or name: {name}"
      let (options, words) ← splitArguments ['l'] [('s', check)] words
      let signals := options.filterMap fun (letter, name) =>
        if letter = 's' then sendable? name else none
      if options.any (·.1 == 'l') then
        if signals.isEmpty || words.isEmpty then listSignals words else fail killUsage
      else send (signals.getLastD defaultSignal) words
  | _ => send defaultSignal words

/-- Lists the traps. -/
def listTraps : Act Unit := do
  let s ← get
  (exitName :: signalNames).forM fun name =>
    match s.traps.lookup name with
    | some action => print (s!"trap -- {quoted action} {name}\n")
    | none => return ()

/-- Sets what runs under conditions, up to the first that is none. -/
def setTraps (action : Option String) : List String → Act Nat
  | [] => return 0
  | word :: words => do
    match (signal? word).bind signalName? with
    | none =>
      write errorChannel s!"trap: {word}: bad trap\n"
      return 1
    | some name =>
      modify fun s =>
        { s with traps := (action.map ((name, ·))).toList ++ s.traps.filter (·.1 != name) }
      setTraps action words

/-- Sets what runs under conditions, or lists it. -/
def trap (words : List String) : Act Nat := do
  let words ← match words with
    | "--" :: rest => pure rest
    | word :: _ =>
      match word.toList with
      | '-' :: letter :: _ => fail s!"Illegal option -{letter}"
      | _ => pure words
    | [] => pure []
  match words with
  | [] => listTraps; return 0
  | [condition] => setTraps none [condition]
  | action :: conditions =>
    if (count? action).any (· ≤ maxSignal) then setTraps none words
    else setTraps (if action = "-" then none else some action) conditions

end BuildPlanner.Shell
