import BuildPlanner.Process.Program
import BuildPlanner.Shell.Redirection

/-!
# Calls

A call names a function, a built-in command or a program. A program is again a script, which runs
in a shell of its own on the same host; it gets to see the variables that are meant for it.
-/

namespace BuildPlanner.Shell

open Act

variable (runner : Runner)

/-! ## Shells -/

/-- The options that only the call of a shell can set. -/
def readsCommand : Char := 'c'

/-- The option that makes a shell read what it runs from its input. -/
def readsInput : Char := 's'

/-- Runs a script with a name and arguments, to the end of its shell. -/
def runMain (name : String) (arguments : List String) (act : Act Unit) : Act Unit := do
  modify fun s => { s with name, arguments, line := 0 }
  if (← get).has 'i' then changeOption true 'm'
  refuseMonitor
  modify fun s => { s with line := 1 }
  toEnd runner act

/-- Runs a shell with the words that it is called with. -/
def runShell (words : List String) : Act Unit := do
  let called := (← get).name
  let words := (← setByWords (optionLetters ++ callLetters) (words.length + 1) words).getD []
  match (← get).has readsCommand, (← get).has readsInput, words with
  | true, _, script :: rest =>
    runMain runner (rest.headD called) (rest.drop 1) (runScript runner false script.toList)
  | true, _, [] => fail "-c requires an argument"
  | false, false, file :: rest =>
    runMain runner file rest (runInput runner (← openingOf file (pathOf file)))
  | false, _, words =>
    let text ← readAll inputChannel
    runMain runner called words (runInput runner (.text text))

/-- The names that a shell knows whether they have values or not. -/
def knownNames : List String :=
  ["IFS", "MAIL", "MAILPATH", searchName, "PS1", "PS2", "PS4", indexName]

/-- The variables that a shell starts with, if it gets some. -/
def firstVariables (directory : String) (given : List (String × String)) : VariableTable :=
  let own := [("IFS", defaultSplitters), (indexName, "1"), ("PWD", directory), ("PPID", "1")]
  let usual := [(searchName, systemPath), ("PS1", "# "), ("PS2", "> "), ("PS4", "+ ")]
  let names := (own ++ given ++ usual).map (·.1) ++ knownNames
  names.eraseDups.map fun name =>
    { name
      value := (own ++ given ++ usual).lookup name
      isExported := name = "PWD" || given.any (·.1 == name)
      isKept := knownNames.contains name }

/-- The name by which a shell is called. -/
def shellName : String := "/bin/sh"

/-- A shell that starts on a host, with the variables that it gets. -/
def State.first (host : Host) (given : List (String × String)) : State :=
  let directory := Text.bytes host.workingPath.text
  { host, name := shellName, arguments := [], line := 0
    table := firstVariables directory given }

/-- The variables that programs get to see. -/
def environment (s : State) : List (String × String) :=
  VariableTable.values (s.table.filter (·.isExported))

/-- Runs a program, given by the words that its shell is called with. The answer is the signal that
ended it, if one did. -/
def runProgram (words : List String) : Act (Option Nat) := fun s =>
  let first := State.first s.host (environment s)
  let process := s.lastProcess + 1
  let (result, after) := runShell runner words
    { first with
      channels := s.channels, openings := s.openings, captures := s.captures
      traps := keptTraps s, mask := s.mask, limits := s.limits, process, lastProcess := process }
  let s := { rejoined s after with pending := s.pending, ended := s.ended }
  match result with
  | .error (.kill signal) | .error (.die signal) =>
    (.ok (some signal), { s with status := (Ending.killed signal).status })
  | _ => (.ok none, { s with status := after.status % codes })

/-! ## Programs -/

/-- The code of a program that cannot be run. -/
def notRunCode : Nat := 126

/-- The code of a shell that looked for a program and found a fault. -/
def launchCode : TreeFault → Nat
  | .notFound | .notDirectory | .tooManyLevels | .nameTooLong => notFoundCode
  | _ => notRunCode

/-- The words that the shell is called with to run the first of some programs that can be run; a
text that names no interpreter is a script. -/
def launchFirst (h : Host) (arguments : List String) :
    TreeFault → List Path → Except TreeFault (List String)
  | fault, [] => .error fault
  | fault, p :: rest =>
    match h.launch Host.maxInterpreters p [] with
    | .ok words => .ok (words.map Text.bytes ++ arguments)
    | .error .badFormat => .ok (Text.bytes p.text :: arguments)
    | .error .notFound | .error .notDirectory => launchFirst h arguments fault rest
    | .error other => launchFirst h arguments other rest

/-- Says that a program cannot be run. -/
def refuse (name : String) (fault : TreeFault) (code : Nat) : Act Unit := do
  let reason := openReason "not found" fault
  complain s!"{name}: {reason}"
  setStatus code

/-- Runs a program in place of the shell. -/
def replaceBy (name : String) (arguments : List String) : Act Unit := do
  match launchFirst (← get).host arguments .notFound (← candidates name) with
  | .error fault => refuse name fault (launchCode fault)
  | .ok words =>
    settle runner
    modify fun s => { s with traps := keptTraps s }
    (← runProgram runner words).forM fun signal => throw (.die signal)
  throw .exit

/-- Runs a program, perhaps one of the system, and says so if a signal ends it. -/
def runNamed ( isOfSystem : Bool) (name : String) (arguments : List String) : Act Unit := do
  let h := (← get).host
  let searched ← candidatesOf isOfSystem name
  let found := searched.any fun p => (h.program? p).isSome
  match launchFirst h arguments .notFound searched with
  | .error fault =>
    let isPath := name.toList.contains '/'
    refuse name fault (if found || isPath then launchCode fault else notFoundCode)
  | .ok words =>
    prepare runner
    let ended ← runProgram runner words
    noteEnd
    ended.forM fun signal =>
      (endedBy signal).forM fun text => write errorChannel (text ++ "\n")

/-! ## Functions -/

/-- The most functions that run inside of each other. -/
def maxFunctions : Nat := 1000

/-- Runs the body of a function. -/
def runBodyOf (tested : Bool) (body : Command) : Act Unit := do
  if maxFunctions < (← get).depth then
    fail s!"Maximum function recursion depth ({maxFunctions}) reached"
  runner tested body

/-- Runs a function. -/
def runFunction (tested : Bool) (body : Command) (arguments : List String) : Act Unit := fun s =>
  let (result, after) := runBodyOf runner tested body
    { s with
      arguments, loops := 0, depth := s.depth + 1
      optionIndex := 1, optionOffset := none }
  let after :=
    { after with
      arguments := s.arguments, loops := s.loops, depth := s.depth
      optionIndex := s.optionIndex, optionOffset := s.optionOffset }
  match result with
  | .error (.return _) => (.ok (), after)
  | _ => (result, after)

/-! ## Built-in commands -/

/-- Does what a built-in command does. Failures of those that are not special only count for the
code. -/
def asBuiltin (isSpecial : Bool) (name : String) (act : Act Nat) : Act Unit := fun s =>
  let (result, after) := (do
    let code ← act
    if (← get).hasFailedToWrite then
      complain s!"{name}: I/O error"
      setStatus (code ||| 1)
    else setStatus code : Act Unit) { s with running := some name, hasFailedToWrite := false }
  let after := { after with running := s.running, hasFailedToWrite := false }
  match result with
  | .error .fail => (if isSpecial then .error .fail else .ok (), after)
  | _ => (result, after)

/-- The file that a name stands for when it is run in the shell itself, and what it is opened as. -/
def sourced (name : String) : Act (String × Opening) := do
  let h := (← get).host
  let isPath := name.toList.contains '/'
  match (← candidates name).find? fun p => isPath || h.isFile p with
  | none => fail s!"{name}: not found"
  | some p => return (Text.bytes p.text, ← openingOf name p)

/-- Runs a file in the shell itself. -/
def source (name : String) : Act Unit := do
  let (shown, opening) ← sourced name
  modify fun s => { s with running := some shown }
  fun s =>
    match runFile runner false opening s with
    | (.error (.return _), after) => (.ok (), after)
    | result => result

/-- The built-in commands; some run others or say which there are. -/
def runBuiltin? (tested : Bool) (name : String) (arguments : List String) : Option (Act Nat) :=
  let done (act : Act Unit) : Act Nat := do
    act
    return (← get).status
  match name with
  | "eval" =>
    some (done (runScript runner tested (" ".intercalate arguments).toList))
  | "." => some do
    match ← splitOptions [] arguments with
    | (_, []) => return 0
    | (_, file :: _) => done (source runner file)
  | "exec" => some do
    match arguments with
    | [] => return 0
    | program :: rest => done (replaceBy runner program rest)
  | "type" =>
    some (arguments.foldlM (fun code word => do
      return code ||| (← describeName builtinNames false word)) 0)
  | "command" => some do
    match ← splitOptions ['p', 'v', 'V'] arguments with
    | (letters, word :: _) =>
      if letters.contains 'V' then describeName builtinNames (letters.contains 'p') word
      else resolveName builtinNames (letters.contains 'p') word
    | (_, []) => return 0
  | "hash" => some (hash builtinNames arguments)
  | "wait" => some (wait runner arguments)
  | _ => (builtins.lookup name).map fun builtin => builtin arguments

/-! ## Words of calls -/

/-- What the words of a call say. -/
structure Callee where
  /-- The name and the arguments. -/
  words : List String
  /-- Whether no function is meant. -/
  isDirect : Bool := false
  /-- Whether a program is one of the system. -/
  isOfSystem : Bool := false
deriving Inhabited

/-- What follows the options of the word that says that no function is meant, if they are such that
something follows. -/
def afterCommand? (isOfSystem : Bool) : List String → Option Callee
  | [] => none
  | word :: rest =>
    match word.toList with
    | ['-', '-'] => if rest.isEmpty then none else some ⟨rest, true, isOfSystem⟩
    | '-' :: letter :: letters =>
      if (letter :: letters).all (· == 'p') then afterCommand? true rest else none
    | _ => some ⟨word :: rest, true, isOfSystem⟩

/-- What the words of a call say; `fuel` bounds their number. -/
def callee : (fuel : Nat) → Callee → Callee
  | 0, c => c
  | fuel + 1, c =>
    match c.words with
    | "command" :: rest =>
      match afterCommand? c.isOfSystem rest with
      | some inner => callee fuel inner
      | none => c
    | _ => c

/-- What words call where some functions are defined. -/
def calleeOf (functions : List (String × Command)) (words : List String) : Callee :=
  if functions.any (·.1 == "command") then { words } else callee words.length { words }

/-- Whether a program is called where some functions are defined. -/
def Callee.isProgram (functions : List (String × Command)) (c : Callee) : Bool :=
  let name := c.words.headD ""
  (c.isDirect || !functions.any (·.1 == name)) && !builtinNames.contains name

/-- The commands that set variables by their arguments. -/
def assigningCommands : List String := ["alias", "export", "local", "readonly"]

/-- The texts of the words of a call. Those that set a variable are not split. -/
def callWords : List String → List Word → Act (List String)
  | before, [] => return before
  | before, word :: rest => do
    let functions := (← get).functions
    let c := calleeOf functions before
    let name := c.words.headD ""
    let assigns := assigningCommands.contains name &&
      (c.isDirect || !functions.any (·.1 == name))
    let texts ← match if assigns then assignment? word else none with
      | some (name, value) =>
        let text ← assignedText (runInside runner) value
        pure [name ++ "=" ++ text]
      | none => fieldsOf (runInside runner) word
    callWords (before ++ texts) rest

/-! ## Calls -/

/-- Changes variables by words, each of which counts for those after it. The answer holds the names
with what the words stand for. -/
def assignAll (change : Variable → Act Unit) (assignments : List (String × Word)) :
    Act (List (String × String)) :=
  assignments.mapM fun (name, word) => do
    let value ← assignedText (runInside runner) word
    change { name, value }
    return (name, value)

/-- Writes a call to where errors went before it, if calls are told. -/
def trace (errors : Option Endpoint) (assigned : List (String × String)) (words : List String) :
    Act Unit := do
  let s ← get
  if s.has 'x' && !s.isTelling then
    let sign := ((← variableValue "PS4").getD "").toList
    modify fun s => { s with isTelling := true }
    let shown ← textOfQuoted (runInside runner) (document sign)
    modify fun s => { s with isTelling := false }
    let assigned := assigned.map fun (name, value) => name ++ "=" ++ value
    writeTo errors (shown ++ " ".intercalate (assigned ++ words) ++ "\n")

/-- Calls a function, a built-in command or a program. -/
def dispatch (tested isSpecial : Bool) (c : Callee) : Act Unit := do
  let name := c.words.headD ""
  let arguments := c.words.drop 1
  let s ← get
  match if c.isDirect then none else s.functions.lookup name with
  | some body => runFunction runner tested body arguments
  | none =>
    match runBuiltin? runner tested name arguments with
    | some act => asBuiltin isSpecial name act
    | none => runNamed runner c.isOfSystem name arguments

end BuildPlanner.Shell
