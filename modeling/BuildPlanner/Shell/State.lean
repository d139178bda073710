import BuildPlanner.Host
import BuildPlanner.Shell.Script
import BuildPlanner.Shell.Variable
import BuildPlanner.Text.Bytes

/-!
# The state of a shell

A shell works on a host, with variables, functions and channels of its own. A command changes the
state, and may end more than itself: a loop, a function, or the whole shell. All texts of a shell
are bytes, each written as a character; they become texts of characters where the host gets them.
-/

namespace BuildPlanner.Shell

/-- What a channel is open on. -/
inductive Endpoint where
  /-- The output of the run. -/
  | output
  /-- The errors of the run. -/
  | errors
  /-- A device that takes everything and holds nothing. -/
  | nothing
  /-- A device that takes nothing. -/
  | full
  /-- A text that is put into a word, by its number. -/
  | captured (number : Nat)
  /-- What has been opened, by its number. -/
  | opening (number : Nat)
deriving DecidableEq, Repr, Inhabited

/-- What has been opened, as far as it has been read or written. -/
inductive Opening where
  /-- A text of which this is left. -/
  | text (rest : List Char)
  /-- A file from a position on. -/
  | file (location : Location) (mode : RedirectMode) (position : Nat)
deriving Repr, Inhabited

/-- A text that a command writes, for a word or for another command that reads it. -/
structure Capture where
  /-- The parts of the text, the latest first. -/
  parts : List String := []
  /-- The number of its bytes. -/
  size : Nat := 0
  /-- The number of bytes after which nothing is read any more. -/
  limit : Option Nat := none
deriving Repr, Inhabited

/-- The text. -/
def Capture.text (c : Capture) : String := String.join c.parts.reverse

/-- Whether more has been written than is read. -/
def Capture.isCut (c : Capture) : Bool := c.limit.any (· < c.size)

/-- The text with more behind it. -/
def Capture.add (text : String) (c : Capture) : Capture :=
  { c with parts := text :: c.parts, size := c.size + text.length }

/-- A program that has been found. -/
structure Located where
  /-- The name. -/
  name : String
  /-- The path of the program. -/
  path : String
  /-- Whether the directory has been changed since. -/
  isOld : Bool
deriving Repr, Inhabited

/-- What a function or a command hides, as it is outside. -/
structure Hidden where
  /-- The names of the variables, the latest first, with what is known of them. -/
  saved : List (String × Option Variable) := []
  /-- The letters of the options that are set. -/
  options : Option (List Char) := none
deriving Repr, Inhabited

/-- How a process has ended. -/
inductive Ending where
  /-- With a code. -/
  | exited (code : Nat)
  /-- By a signal. -/
  | killed (signal : Nat)
deriving DecidableEq, Repr, Inhabited

/-- How many codes there are that a process can end with; of a greater one the remainder counts. -/
def codes : Nat := 256

/-- The code that a shell has for an ending. -/
def Ending.status : Ending → Nat
  | exited code => code
  | killed signal => 128 + signal

/-- A command that runs by itself, as the shell knows it that has started it. -/
structure Job where
  /-- The number by which the shell names it. -/
  number : Nat
  /-- The number of its process, or of its last one. -/
  process : Nat
  /-- How many processes it has. -/
  size : Nat
  /-- How it has ended, as soon as the shell knows. -/
  ending : Option Ending := none
  /-- Whether the shell has waited for it. -/
  isAwaited : Bool := false
deriving DecidableEq, Repr, Inhabited

/-- What a shell has for itself; a copy of the shell starts with it and does not change it. -/
structure Frame where
  /-- The name of the script. -/
  name : String
  /-- The arguments. -/
  arguments : List String
  /-- The variables. -/
  table : VariableTable
  /-- The functions, the latest first. -/
  functions : List (String × Command) := []
  /-- The words that stand for other texts where a command starts, in the order in which they were
  first set. -/
  aliases : Aliases := []
  /-- What the functions and commands hide that run and may hide something, the innermost first. -/
  hidden : List Hidden := []
  /-- The channels that are open, the latest first. -/
  channels : List (Nat × Endpoint) :=
    [(inputChannel, .opening 0), (outputChannel, .output), (errorChannel, .errors)]
  /-- How the last command ended. -/
  status : Nat := 0
  /-- How the last command ended before what runs because of a signal, or at the end. -/
  interrupted : Option Nat := none
  /-- The line of the command that runs. -/
  line : Nat := 1
  /-- The line that the script has been read to. -/
  readLine : Nat := 1
  /-- Whether what stands before a call that is told is made; nothing is told then. -/
  isTelling : Bool := false
  /-- The built-in command that runs, which messages name. -/
  running : Option String := none
  /-- The letters of the options that are set. -/
  options : List Char := []
  /-- What runs on a signal, or when the shell ends. -/
  traps : List (String × String) := []
  /-- What runs on a signal in the shell that this one is a copy of. -/
  outerTraps : Option (List (String × String)) := none
  /-- The signals that this copy of the shell got and for which something has still to run. -/
  due : List Nat := []
  /-- The number of loops that run. -/
  loops : Nat := 0
  /-- The number of functions that run. -/
  depth : Nat := 0
  /-- How the last script ended whose output was put into the words of the command. -/
  captured : Nat := 0
  /-- Whether a command could not write. -/
  hasFailedToWrite : Bool := false
  /-- The number of the process. -/
  process : Nat := 4711
  /-- The commands that were started to run by themselves, the latest first. -/
  jobs : List Job := []
  /-- The process of the last one of them. -/
  lastJob : Option Nat := none
  /-- The argument that the next option is looked for in, from one on. -/
  optionIndex : Nat := 1
  /-- The letters of that argument that have been passed over, if it has been started. -/
  optionOffset : Option Nat := none
  /-- The permissions that new files do not get. -/
  mask : Nat := 18
  /-- The limits that have been set, by their letters, below which one may go and not; the latest
  first. -/
  limits : List (Char × Option Nat × Option Nat) := []
  /-- The programs that have been found by their names, the latest last. -/
  located : List Located := []
deriving Inhabited

/-- A process that has been started and has not run yet. -/
structure Started where
  /-- Its number. -/
  process : Nat
  /-- The shell that it starts with. -/
  frame : Frame
  /-- The directory in which it works. -/
  directory : Location
  /-- What it runs. -/
  command : Command
  /-- The signal that ends it before it runs. -/
  signal : Option Nat := none
deriving Inhabited

/-- The state of a shell: what it has for itself, and what it shares with its copies. -/
structure State extends Frame where
  /-- The host. -/
  host : Host
  /-- What has been opened; channels that are copies of each other share it. -/
  openings : List Opening := [.text []]
  /-- The texts that commands write for words and for others. -/
  captures : List Capture := []
  /-- The signals that the shell got and for which something has still to run. -/
  pending : List Nat := []
  /-- The processes that have not run yet, the first one first. -/
  waiting : List Started := []
  /-- How processes that ran by themselves have ended. -/
  ended : List (Nat × Ending) := []
  /-- The number of the process that was started last. -/
  lastProcess : Nat := 4711
deriving Inhabited

/-- Whether an option is set. -/
def State.has (s : State) (letter : Char) : Bool := s.options.contains letter

/-- What ends more than a command. -/
inductive Jump where
  /-- The shell ends. -/
  | exit
  /-- The shell ends because something is wrong, unless a command is there to take the blame. -/
  | fail
  /-- The shell is ended by a signal. -/
  | kill (signal : Nat)
  /-- The copy of the shell that runs is ended by a signal. -/
  | die (signal : Nat)
  /-- The running function or file ends, perhaps with a code of its own. -/
  | return (hasCode : Bool)
  /-- The given number of loops end. -/
  | break (loops : Nat)
  /-- The given number of loops end, and the last of them goes on. -/
  | continue (loops : Nat)
deriving DecidableEq, Repr, Inhabited

/-- What a shell does. -/
abbrev Act (α : Type) : Type := ExceptT Jump (StateM State) α

/-- The code of a failure of the shell itself. -/
def misuseCode : Nat := 2

/-- The path that bytes write. -/
def pathOf (text : String) : Path := ⟨Text.ofBytes text⟩

namespace Act

/-- Sets how the last command ended. -/
def setStatus (status : Nat) : Act Unit := modify fun s => { s with status }

/-- Writes to a file from a position on, or at its end. The answer holds the position after it. -/
def writeFile (location : Location) (mode : RedirectMode) (position : Nat) (text : String)
    (h : Host) : Nat × Host :=
  match h.tree.node? location with
  | some (.file file) =>
    let start := if mode == .append then file.content.size else position
    let content := file.content.write start text
    (start + text.length, h.put location (.file { file with content, modified := h.clock }))
  | _ => (position, h)

/-- Writes to what has been opened, if this can be written. -/
def writeOpening? (number : Nat) (text : String) (s : State) : Option State :=
  match s.openings[number]? with
  | some (.file location mode position) =>
    if mode == .read then none
    else
      let (position, host) := writeFile location mode position text s.host
      some { s with host, openings := s.openings.set number (.file location mode position) }
  | _ => none

/-- The signal that a process gets when nothing reads what it writes. -/
def pipeSignal : Nat := 13

/-- What happens to a process that writes what nothing reads: it ends, unless a trap says otherwise
or that nothing happens. -/
def breakOff : Act Unit := do
  let s ← get
  match s.traps.lookup "PIPE" with
  | none => throw (.die pipeSignal)
  | some action =>
    set { s with
      hasFailedToWrite := true, due := s.due ++ if action = "" then [] else [pipeSignal] }

/-- Writes to where a channel goes. -/
def writeTo (endpoint : Option Endpoint) (text : String) : Act Unit := do
  if text = "" then return ()
  match endpoint with
  | some .output =>
    modify fun s => { s with host := { s.host with output := s.host.output ++ text } }
  | some .errors =>
    modify fun s => { s with host := { s.host with errors := s.host.errors ++ text } }
  | some .nothing => return ()
  | some (.captured number) =>
    modify fun s => { s with captures := s.captures.modify number (Capture.add text) }
    if ((← get).captures[number]?).any Capture.isCut then breakOff
  | some (.opening number) =>
    modify fun s => (writeOpening? number text s).getD { s with hasFailedToWrite := true }
  | some .full | none => modify fun s => { s with hasFailedToWrite := true }

/-- Writes to a channel. -/
def write (channel : Nat) (text : String) : Act Unit := do
  writeTo ((← get).channels.lookup channel) text

/-- Writes to the output. -/
def print (text : String) : Act Unit := write outputChannel text

/-- Writes what is wrong. -/
def complain (text : String) : Act Unit := do
  let s ← get
  let running := (s.running.map (· ++ ": ")).getD ""
  write errorChannel s!"{s.name}: {s.line}: {running}{text}\n"

/-- Ends the shell with a code. -/
def exit {α : Type} (code : Nat) : Act α := do
  setStatus code
  throw .exit

/-- Ends the shell because of something that is wrong. -/
def fail {α : Type} (text : String) : Act α := do
  complain text
  setStatus misuseCode
  throw .fail

/-- Opens something. -/
def opened (opening : Opening) : Act Endpoint := do
  let s ← get
  set { s with openings := s.openings ++ [opening] }
  return .opening s.openings.length

/-- The traps that a copy of a shell keeps: signals that nothing happens on. -/
def keptTraps (s : State) : List (String × String) := s.traps.filter (·.2 == "")

/-- What a copy of a shell has for itself. -/
def copied (s : State) : Frame :=
  { s.toFrame with
    traps := keptTraps s, outerTraps := some (s.outerTraps.getD s.traps), jobs := [], due := [] }

/-- The state after something was done with what another shell has for itself: what it did to the
host and what it has read stay. -/
def rejoined (s inner : State) : State :=
  { inner with
    toFrame := s.toFrame
    host := { inner.host with workingDirectory := s.host.workingDirectory } }

/-- Does something in a copy of the shell. -/
def inSubshell (act : Act Unit) : Act Unit := fun s =>
  let (result, inner) := act { s with toFrame := copied s }
  let after := rejoined s inner
  match result with
  | .error (.kill signal) => (.error (.kill signal), { after with status := inner.status })
  | .error (.die signal) => (.ok (), { after with status := (Ending.killed signal).status })
  | _ => (.ok (), { after with status := inner.status % codes })

/-- What is written to the output by something that is done in a copy of the shell, perhaps up to a
limit. -/
def capture (limit : Option Nat) (act : Act Unit) : Act Capture := fun s =>
  let number := s.captures.length
  let channels := (outputChannel, .captured number) :: s.channels
  let (result, after) := inSubshell act { s with channels, captures := s.captures ++ [{ limit }] }
  let captured := (after.captures[number]?).getD {}
  (result.map fun _ => captured,
    { after with channels := s.channels, captures := s.captures.take number
                 status := s.status, captured := after.status })

/-- The signal that a shell gets when a process ends that it has started. -/
def childSignal : Nat := 17

/-- Notes that a process has ended that the shell has started, if something runs then. -/
def noteEnd : Act Unit := modify fun s =>
  if (s.traps.lookup "CHLD").any (· != "") then { s with due := childSignal :: s.due } else s

/-- The value of a variable. -/
def variableValue (name : String) : Act (Option String) := do
  return (← get).table.value? name

/-- The variable in which the argument stands that the next option is looked for in. -/
def indexName : String := "OPTIND"

/-- The variable that names the directories in which programs are looked for. -/
def searchName : String := "PATH"

/-- Fails unless a text may be the name of a variable. -/
def requireName (name : String) : Act Unit := do
  unless isName name do
    let shown := String.ofList (name.toList.takeWhile (· != '='))
    fail s!"{shown}: bad variable name"

/-- Sets the argument that the next option is looked for in. -/
def setIndex (value : String) : Act Unit := do
  match natural? value with
  | some index => modify fun s => { s with optionIndex := max 1 index, optionOffset := none }
  | none => fail s!"Illegal number: {value}"

/-- Does what goes with a variable when it is set. -/
def noteSetting (name : String) (value : Option String) : Act Unit := do
  if name = indexName then setIndex (value.getD "")
  if name = searchName then modify fun s => { s with located := [] }

/-- Changes a variable, whatever its name is. -/
def changeVariable (change : Variable) : Act Unit := do
  let name := change.name
  if ((← get).table.known? name).any (·.isFixed) then fail s!"{name}: is read only"
  noteSetting name change.value
  modify fun s =>
    let change := { change with isExported := change.isExported || s.has 'a' }
    { s with table := s.table.change change }

/-- Sets a variable; an equals sign in its name and what follows it do not count. -/
def setVariable (name value : String) : Act Unit := do
  let name := String.ofList (name.toList.takeWhile (· != '='))
  requireName name
  changeVariable { name, value }

/-- Says more of a variable, and sets it if there is a value. -/
def declareVariable (change : Variable) : Act Unit := do
  match change.value, (← get).table.known? change.name with
  | none, some v => modify fun s => { s with table := s.table.put (v.marked change) }
  | _, _ =>
    requireName change.name
    changeVariable change

/-- Removes a variable. -/
def unsetVariable (name : String) : Act Unit := do
  requireName name
  changeVariable { name }

/-! ## Scopes -/

/-- Hides a variable to the end of the innermost scope. It is set if there is a value and is else as
it was; an unknown one with a value may have any name. -/
def hideVariable (change : Variable) : Act Unit := do
  let name := change.name
  let old := (← get).table.known? name
  match old with
  | some v =>
    modify fun s => { s with table := s.table.put { v with isKept := true } }
    if change.value.isSome then changeVariable change
  | none =>
    if change.value.isNone then requireName name
    changeVariable { change with isKept := true }
  modify fun s =>
    { s with
      hidden := s.hidden.modifyHead fun scope =>
        { scope with saved := (name, old) :: scope.saved } }

/-- Makes a variable what it was when it was hidden. -/
def showVariable (name : String) : Option Variable → Act Unit
  | some old => do
    noteSetting name old.value
    modify fun s => { s with table := s.table.put old }
  | none => do
    let v := ((← get).table.known? name).getD { name }
    let free : Variable := { v with isFixed := false, isKept := false }
    modify fun s => { s with table := s.table.put free }
    unsetVariable name

/-- Ends the innermost scope. -/
def leaveScope : Act Unit := do
  match (← get).hidden with
  | [] => return ()
  | scope :: outer =>
    modify fun s => { s with hidden := outer, options := scope.options.getD s.options }
    scope.saved.forM fun (name, old) => showVariable name old

/-- Does something in a scope. What ends the shell leaves the scope as it is. -/
def inScope (act : Act Unit) : Act Unit := do
  let depth := (← get).hidden.length
  modify fun s => { s with hidden := {} :: s.hidden }
  let leave : Act Unit := do
    (List.range ((← get).hidden.length - depth)).forM fun _ => leaveScope
  tryCatch act fun jump => do
    if jump matches .return _ | .break _ | .continue _ then leave
    throw jump
  leave

/-- Sets the arguments. -/
def setArguments (arguments : List String) : Act Unit := modify fun s =>
  { s with arguments, optionIndex := 1, optionOffset := none }

end Act

end BuildPlanner.Shell
