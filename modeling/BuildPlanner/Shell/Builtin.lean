import BuildPlanner.Process.Program
import BuildPlanner.Shell.Printing
import BuildPlanner.Shell.Signal
import BuildPlanner.Shell.Test

/-!
# Built-in commands

The commands that a shell does itself and that do not run other commands. Each answers with the
code with which it ends.
-/

namespace BuildPlanner.Shell

open Act

/-- The number that a command is called with, or another. -/
def countOr (default : Nat) : List String → Act Nat
  | [] => return default
  | word :: _ =>
    match natural? word with
    | some value => return value
    | none => fail s!"Illegal number: {word}"

/-- Splits a word at its first equals sign. -/
def splitAssignment (word : String) : String × Option String :=
  let name := word.toList.takeWhile (· != '=')
  match word.toList.drop name.length with
  | _ :: value => (.ofList name, some (.ofList value))
  | [] => (.ofList name, none)

/-- Does something for one word after the other. -/
def forEach (words : List String) (act : String → Act Unit) : Act Nat := do
  words.forM act
  return 0

/-- Does something for one word after the other; the answer is one if it fails for any. -/
def forEachTested (act : String → Act Bool) : List String → Act Nat
  | [] => return 0
  | word :: words => do
    let succeeded ← act word
    let others ← forEachTested act words
    return if succeeded then others else 1

/-! ## Commands on the state -/

/-- The path of the directory in which the shell works. -/
def workingDirectory : Act String := do
  return Text.bytes ("/" ++ "/".intercalate (← get).host.workingDirectory)

/-- Whether a path is looked for only where it says. -/
def isPlaced (target : String) : Bool :=
  match target.toList.splitOn '/' with
  | [] :: _ | ['.'] :: _ | ['.', '.'] :: _ => true
  | _ => false

/-- The directory that a path leads to, from the directories that the user names or else from where
the shell works; the flag says that it is one of the former. -/
def findDirectory (target : String) : Act (Option (Location × Bool)) := do
  let searched := ((← variableValue "CDPATH").getD "").toList.splitOn ':'
  let h := (← get).host
  let directory? (p : Path) : Option Location :=
    match h.spot p with
    | .ok ⟨location, some .directory⟩ => some location
    | _ => none
  let found := if isPlaced target then none else searched.findSome? fun directory =>
    let p := if directory = [] then pathOf target
      else (pathOf (.ofList directory)).entry (Text.ofBytes target)
    (directory? p).map ((·, directory != []))
  return found.or ((directory? (pathOf target)).map ((·, false)))

/-- Changes the directory. -/
def changeDirectory (words : List String) : Act Nat := do
  let (_, words) ← splitOptions ['L', 'P'] words
  let word := words.headD ((← variableValue "HOME").getD "")
  let last ← variableValue "OLDPWD"
  let target := if word = "-" then last.getD "" else word
  let old ← workingDirectory
  match ← findDirectory (if target = "" then "." else target) with
  | some (location, isShown) =>
    changeVariable { name := "OLDPWD", value := old, isExported := true }
    modify fun s =>
      { s with
        host := { s.host with workingDirectory := location }
        located := s.located.map fun found => { found with isOld := true } }
    changeVariable { name := "PWD", value := ← workingDirectory, isExported := true }
    if isShown || word = "-" then print ((← workingDirectory) ++ "\n")
    return 0
  | none =>
    complain s!"can't cd to {target}"
    return misuseCode

/-- Writes the directory. -/
def printDirectory (words : List String) : Act Nat := do
  discard (splitOptions ['L', 'P'] words)
  print ((← workingDirectory) ++ "\n")
  return 0

/-- Drops arguments. -/
def shift (words : List String) : Act Nat := do
  let number ← countOr 1 words
  let arguments := (← get).arguments
  if arguments.length < number then fail "can't shift that many"
  setArguments (arguments.drop number)
  return 0

/-- Lists variables as a script can set them. -/
def listVariablesWith (command : String) (table : VariableTable) : Act Unit := do
  (table.mergeSort fun a b => decide (a.name ≤ b.name)).forM fun v => do
    let value := (v.value.map fun value => "=" ++ quoted value).getD ""
    print (command ++ " " ++ v.name ++ value ++ "\n")

/-- Whether the first option of a command is a given one. -/
def asksFor (letter : Char) (words : List String) : Bool :=
  match words.head?.map String.toList with
  | some ('-' :: first :: _) => first == letter
  | _ => false

/-- Lets programs see variables, or lists those that they see. -/
def exportCommand (words : List String) : Act Nat := do
  let (_, words) ← if asksFor 'p' words then pure ([], []) else splitOptions [] words
  if words.isEmpty then
    listVariablesWith "export" ((← get).table.filter (·.isExported))
  forEach words fun word => do
    let (name, value) := splitAssignment word
    declareVariable { name, value, isExported := true }

/-- Makes variables keep their values, or lists those that do. -/
def readonlyCommand (words : List String) : Act Nat := do
  let (_, words) ← if asksFor 'p' words then pure ([], []) else splitOptions [] words
  if words.isEmpty then
    listVariablesWith "readonly" ((← get).table.filter (·.isFixed))
  forEach words fun word => do
    let (name, value) := splitAssignment word
    declareVariable { name, value, isFixed := true }

/-- Hides variables while the running function runs. -/
def localCommand (words : List String) : Act Nat := do
  if (← get).hidden.isEmpty then fail "not in a function"
  forEach words fun word => do
    if word = "-" then
      modify fun s =>
        { s with
          hidden := s.hidden.modifyHead fun scope =>
            { scope with options := scope.options.or s.options } }
    else
      let (name, value) := splitAssignment word
      hideVariable { name, value }

/-- Removes variables or functions. -/
def unset (words : List String) : Act Nat := do
  let (letters, names) ← splitOptions ['f', 'v'] words
  forEach names fun word => do
    let name := (splitAssignment word).1
    if letters.getLast? = some 'f' then
      modify fun s => { s with functions := s.functions.filter (·.1 != name) }
    else
      unsetVariable name

/-- Ends loops. -/
def leaveLoops (jump : Nat → Jump) (words : List String) : Act Nat := do
  let number ← countOr 1 words
  if number = 0 then
    let word := words.headD ""
    fail s!"Illegal number: {word}"
  let number := min number (← get).loops
  if number = 0 then return 0
  else
    setStatus 0
    throw (jump number)

/-- The permissions that are left by a mask, as letters. -/
def maskLetters (mask : Nat) : String :=
  let letters (shift : Nat) : List Char :=
    let bits := 7 - (mask >>> shift) % 8
    (if bits.testBit 2 then ['r'] else []) ++ (if bits.testBit 1 then ['w'] else []) ++
      (if bits.testBit 0 then ['x'] else [])
  "u=" ++ .ofList (letters 6) ++ ",g=" ++ .ofList (letters 3) ++ ",o=" ++ .ofList (letters 0)

/-- The permissions that letters name, repeated for those that they are for, where some are had. -/
def permissionsOf (had positions : Nat) (letters : List Char) : Nat :=
  let bits := letters.map fun c =>
    match c with
    | 'r' => 4
    | 'w' => 2
    | 'x' => 1
    | 'u' => had / 64
    | 'g' => had / 8
    | 'o' => had
    | 'X' => if had &&& 73 = 0 then 0 else 1
    | _ => 0
  (bits.foldl (· ||| ·) 0) % 8 * positions

/-- The permissions after changes for some positions, each a sign and letters, as far as they can be
read; `fuel` bounds their number. -/
def changeModes (had positions : Nat) : (fuel mode : Nat) → List Char → Option (Nat × List Char)
  | 0, _, _ => none
  | fuel + 1, mode, sign :: rest =>
    let letters := rest.takeWhile "rwxugoXs".toList.contains
    let after := rest.drop letters.length
    let value := permissionsOf had positions letters
    let mode? := match sign with
      | '=' => some (value ||| (mode &&& (511 - positions * 7)))
      | '+' => some (mode ||| value)
      | '-' => some (mode &&& (511 - value))
      | _ => none
    match mode?, after with
    | none, _ => none
    | some mode, [] => some (mode, [])
    | some mode, ',' :: after => some (mode, after)
    | some mode, after => changeModes had positions fuel mode after
  | _, mode, [] => some (mode, [])

/-- The permissions that a text of letters makes of others; `fuel` bounds the length of the text. -/
def modeOf (had : Nat) : (fuel mode : Nat) → List Char → Option Nat
  | 0, _, _ => none
  | _, mode, [] => some mode
  | fuel + 1, mode, cs =>
    let who := cs.takeWhile "augo".toList.contains
    let position (c : Char) : Nat := match c with
      | 'a' => 73
      | 'u' => 64
      | 'g' => 8
      | _ => 1
    let positions := if who = [] then 73 else who.foldl (fun all c => all ||| position c) 0
    (changeModes had positions (cs.length + 1) mode (cs.drop who.length)).bind
      fun (mode, rest) => modeOf had fuel mode rest

/-- Sets or writes the permissions that new files do not get. -/
def umask (words : List String) : Act Nat := do
  let (letters, words) ← splitOptions ['S'] words
  match words with
  | [] =>
    let mask := (← get).mask
    print (if letters.isEmpty then
        .ofList ((Nat.toDigits 8 mask).leftpad 4 '0') ++ "\n"
      else maskLetters mask ++ "\n")
    return 0
  | word :: _ =>
    let digits := word.toList
    if digits.head?.any Char.isDigit then
      if digits.all Printing.isOctal then
        let value := digits.foldl (fun value d => 8 * value + (d.toNat - '0'.toNat)) 0
        modify fun s => { s with mask := value % 512 }
        return 0
      else fail s!"Illegal number: {word}"
    else
      let had := 511 - (← get).mask
      match modeOf had (digits.length + 1) had digits with
      | some mode =>
        modify fun s => { s with mask := 511 - mode }
        return 0
      | none => fail s!"Illegal mode: {word}"

/-! ## Limits -/

/-- The limits by their letters, in the order in which they are listed, with the limits that hold
if none is set. -/
def limitNames : List (Char × String × Option Nat) :=
  [('t', "time(seconds)", none), ('f', "file(blocks)", none), ('d', "data(kbytes)", none),
    ('s', "stack(kbytes)", some 8192), ('c', "coredump(blocks)", none),
    ('m', "memory(kbytes)", none), ('l', "locked memory(kbytes)", none), ('p', "process", none),
    ('n', "nofiles", some 1048576), ('v', "vmemory(kbytes)", none), ('w', "locks", none),
    ('r', "rtprio", some 0)]

/-- Whether one limit is below or at another; the second one is missing if there is none. -/
def isWithin (limit outer : Option Nat) : Bool :=
  match limit, outer with
  | _, none => true
  | none, some _ => false
  | some a, some b => decide (a ≤ b)

/-- Sets a limit, or both that a letter names; one that holds for others cannot be raised. -/
def setLimit (letter : Char) (kind : Option Char) (soft hard : Option Nat) (word : String) :
    Act Unit := do
  let value ←
    if word = "unlimited" then pure none
    else if word.toList.all Char.isDigit then pure (some (decimal word.toList))
    else fail "bad number"
  let newSoft := if kind = some 'H' then soft else value
  let newHard := if kind = some 'S' then hard else value
  if !isWithin newSoft newHard then fail "error setting limit (Invalid argument)"
  if !isWithin newHard hard then fail "error setting limit (Operation not permitted)"
  modify fun s => { s with limits := (letter, newSoft, newHard) :: s.limits }

/-- Sets or writes limits. -/
def ulimit (words : List String) : Act Nat := do
  let (letters, words) ← splitOptions (limitNames.map (·.1) ++ ['H', 'S', 'a']) words
  let kind := (letters.filter fun c => c == 'H' || c == 'S').getLast?
  let chosen := (letters.filter fun c => limitNames.any (·.1 == c)).getLastD 'f'
  let limits := (← get).limits
  let limitOf (letter : Char) (usual : Option Nat) : Option Nat × Option Nat :=
    (limits.lookup letter).getD (usual, usual)
  let shown (letter : Char) (usual : Option Nat) : String :=
    let (soft, hard) := limitOf letter usual
    ((if kind = some 'H' then hard else soft).map toString).getD "unlimited" ++ "\n"
  let usual := ((limitNames.lookup chosen).map (·.2)).getD none
  match letters.contains 'a', words with
  | true, [] =>
    limitNames.forM fun (letter, name, usual) =>
      print (.ofList (name.toList.rightpad 20 ' ') ++ " " ++ shown letter usual)
  | false, [] => print (shown chosen usual)
  | false, [word] =>
    let (soft, hard) := limitOf chosen usual
    setLimit chosen kind soft hard word
  | _, _ => fail "too many arguments"
  return 0

/-! ## Names of commands -/

/-- The group of a name, of so many: its first byte counts seventeen times, the others once. -/
def groupOf (count : Nat) (name : String) : Nat :=
  let bytes := name.toList.map Char.toNat
  bytes.foldl (fun total byte => total + byte) (16 * bytes.headD 0) % count

/-- Things in the order of the groups of their names. -/
def inGroups {α : Type} (count : Nat) (name : α → String) (things : List α) : List α :=
  things.mergeSort fun a b => decide (groupOf count (name a) ≤ groupOf count (name b))

/-- The number of groups in which aliases are listed. -/
def aliasGroups : Nat := 39

/-- The number of groups in which programs are listed. -/
def programGroups : Nat := 31

/-- Aliases with one more, which takes the place of one of its name. -/
def withAlias (name value : String) (aliases : Aliases) : Aliases :=
  if aliases.any (·.1 == name) then
    aliases.map fun old => if old.1 = name then (name, value) else old
  else aliases ++ [(name, value)]

/-- Splits a word at its first equals sign after the first character. -/
def splitAlias (word : String) : String × Option String :=
  match splitAssignment (word.drop 1).toString with
  | (rest, some value) => ((word.take 1).toString ++ rest, some value)
  | (_, none) => (word, none)

/-- Sets aliases, or lists them. -/
def aliasCommand (words : List String) : Act Nat := do
  let shown (name value : String) : String := name ++ "=" ++ quoted value ++ "\n"
  if words.isEmpty then
    (inGroups aliasGroups (·.1) (← get).aliases).forM fun (name, value) =>
      print (shown name value)
  forEachTested (fun word => do
    match splitAlias word with
    | (name, some value) =>
      modify fun s => { s with aliases := withAlias name value s.aliases }
      return true
    | (name, none) =>
      match (← get).aliases.lookup name with
      | some value => print (shown name value); return true
      | none => write errorChannel s!"alias: {name} not found\n"; return false) words

/-- Removes aliases. -/
def unalias (words : List String) : Act Nat := do
  if asksFor 'a' words then
    modify fun s => { s with aliases := [] }
    return 0
  let (_, words) ← splitOptions [] words
  forEachTested (fun name => do
    if (← get).aliases.any (·.1 == name) then
      modify fun s => { s with aliases := s.aliases.filter (·.1 != name) }
      return true
    else write errorChannel s!"unalias: {name} not found\n"; return false) words

/-- The paths that the name of a program may stand for in directories with colons between them. -/
def candidatesIn (directories name : String) : List Path :=
  if name.toList.contains '/' then [pathOf name]
  else (directories.toList.splitOn ':').map fun directory =>
    (pathOf (.ofList directory)).entry (Text.ofBytes name)

/-- The paths that the name of a program may stand for. -/
def candidates (name : String) : Act (List Path) := do
  return candidatesIn ((← variableValue searchName).getD "") name

/-- The directories that are searched for programs where a script asks for those of the system. -/
def systemPath : String := "/usr/local/sbin:/usr/local/bin:/usr/sbin:/usr/bin:/sbin:/bin"

/-- The paths that the name of a program may stand for, perhaps of one of the system. -/
def candidatesOf ( isOfSystem : Bool) (name : String) : Act (List Path) := do
  if isOfSystem then return candidatesIn systemPath name else candidates name

/-- The path of the program of a name; a path need only lead to something. -/
def programPath? ( isOfSystem : Bool) (name : String) : Act (Option String) := do
  let h := (← get).host
  let isPath := name.toList.contains '/'
  let found := (← candidatesOf isOfSystem name).find? fun p =>
    if isPath then h.exists? p else (h.program? p).isSome
  return found.map fun p => Text.bytes p.text

/-- Notes that no program of a name has been found. -/
def forget (name : String) : Act Unit :=
  modify fun s => { s with located := s.located.filter (·.name != name) }

/-- Notes that the program of a name has been found at a path. -/
def locate (name path : String) : Act Unit := modify fun s =>
  if name.toList.contains '/' || s.functions.any (·.1 == name) then s
  else if s.located.any (·.name == name) then
    { s with located := s.located.map fun found =>
        if found.name == name then ⟨name, path, false⟩ else found }
  else { s with located := s.located ++ [⟨name, path, false⟩] }

/-- Looks for the program of a name before it is run, and notes whether it has been found. -/
def lookFor (name : String) : Act Unit := do
  match ← programPath? false name with
  | some path => locate name path
  | none => forget name

/-- What the name of a command stands for. -/
inductive NameKind where
  /-- A word of the language. -/
  | keyword
  /-- Another text. -/
  | alias (value : String)
  /-- A function. -/
  | function
  /-- A built-in command. -/
  | builtin (isSpecial : Bool)
  /-- A program. -/
  | program (path : String)
  /-- Nothing. -/
  | nothing
deriving DecidableEq, Repr

/-- Finds what the name of a command stands for, where the given names are built-in commands. -/
def nameKind (builtins : List String) ( isOfSystem : Bool) (name : String) : Act NameKind := do
  let s ← get
  if reservedWords.contains name then return .keyword
  match s.aliases.lookup name with
  | some value => return .alias value
  | none =>
    if s.functions.any (·.1 == name) then return .function
    else if specialCommands.contains name then return .builtin true
    else if builtins.contains name then return .builtin false
    else
      let before? := if isOfSystem then none else s.located.find? (·.name == name)
      let path? ← match before? with
        | some found => pure (some found.path)
        | none => programPath? isOfSystem name
      match path? with
      | some path => return .program path
      | none => return .nothing

/-- The code of a program that is not found. -/
def notFoundCode : Nat := 127

/-- Whether the program of a name has been found before, where its directories are the usual ones;
if not, it is from now on. -/
def isLocated ( isOfSystem : Bool) (name : String) (kind : NameKind) : Act Bool := do
  match kind, isOfSystem with
  | .program path, false =>
    if (← get).located.any (·.name == name) then return true
    else
      locate name path
      return false
  | _, _ => return false

/-- Says what the name of a command stands for. -/
def describeName (builtins : List String) ( isOfSystem : Bool) (name : String) : Act Nat := do
  let kind ← nameKind builtins isOfSystem name
  let isLocated ← isLocated isOfSystem name kind
  let text := match kind with
    | .keyword => " is a shell keyword"
    | .alias value => " is an alias for " ++ value
    | .function => " is a shell function"
    | .builtin true => " is a special shell builtin"
    | .builtin false => " is a shell builtin"
    | .program path => (if isLocated then " is a tracked alias for " else " is ") ++ path
    | .nothing => ": not found"
  print (name ++ text ++ "\n")
  return if kind = .nothing then notFoundCode else 0

/-- Writes how the name of a command can be written as a command, if it stands for one. -/
def resolveName (builtins : List String) ( isOfSystem : Bool) (name : String) : Act Nat := do
  let kind ← nameKind builtins isOfSystem name
  discard (isLocated isOfSystem name kind)
  match kind with
  | .alias value => print (s!"alias {name}=" ++ quoted value ++ "\n"); return 0
  | .program path => print (path ++ "\n"); return 0
  | .nothing => return notFoundCode
  | _ => print (name ++ "\n"); return 0

/-- Lists the programs that have been found. -/
def listLocated : Act Unit := do
  (inGroups programGroups (·.name) (← get).located).forM fun found =>
    print (found.path ++ (if found.isOld then "*" else "") ++ "\n")

/-- Looks for a program anew. The answer is whether the name stands for a command. -/
def relocate (builtins : List String) (name : String) : Act Bool := do
  let s ← get
  if name.toList.contains '/' || builtins.contains name || s.functions.any (·.1 == name) then
    return true
  forget name
  match ← programPath? false name with
  | some path =>
    locate name path
    return true
  | none =>
    let reason :=
      if (← candidates name).any s.host.exists? then TreeFault.notExecutable.reason
      else "not found"
    complain s!"{name}: {reason}"
    return false

/-- Looks for programs, so that they are found sooner. -/
def hash (builtins : List String) (words : List String) : Act Nat := do
  let (letters, words) ← splitOptions ['r'] words
  if !letters.isEmpty then
    modify fun s => { s with located := [] }
    return 0
  if words.isEmpty then listLocated
  forEachTested (relocate builtins) words

/-! ## Reading -/

/-- What is left to be read of something that has been opened, but no more than `length` bytes, if it
can be read. -/
def Opening.part? (h : Host) (length : Nat) : Opening → Option (List Char)
  | .text rest => some (rest.take length)
  | .file location mode position =>
    if mode == .read || mode == .make then
      ((h.tree.node? location).bind Node.file?).map fun file => file.content.part position length
    else none

/-- What is left to be read of something that has been opened, if it can be read. -/
def Opening.rest? (h : Host) : Opening → Option (List Char)
  | .text rest => some rest
  | .file location mode position =>
    let size := (((h.tree.node? location).bind Node.file?).map (·.content.size)).getD 0
    Opening.part? h size (.file location mode position)

/-- What has been opened after the given number of bytes has been read. -/
def Opening.advance (count : Nat) : Opening → Opening
  | .text rest => .text (rest.drop count)
  | .file location mode position => .file location mode (position + count)

/-- What is open on a channel that can be read, and its number. -/
def openingOn (channel : Nat) : Act (Option (Nat × Opening)) := do
  let s ← get
  match s.channels.lookup channel with
  | some (.opening number) =>
    let opening? := s.openings[number]?
    return (opening?.filter fun opening => (opening.part? s.host 0).isSome).map ((number, ·))
  | _ => return none

/-- Goes on in what has been opened. -/
def advance (number count : Nat) : Act Unit := modify fun s =>
  { s with openings := s.openings.modify number (Opening.advance count) }

/-- Reads all that is left on a channel. -/
def readAll (channel : Nat) : Act (List Char) := do
  match ← openingOn channel with
  | none => return []
  | some (number, opening) =>
    let text := (opening.rest? (← get).host).getD []
    advance number text.length
    return text

/-- A line that is read. -/
structure InputLine where
  /-- The characters, each with whether it has lost its meaning. -/
  line : Field := []
  /-- How many characters of the text it takes, with its end. -/
  size : Nat
  /-- Whether there is an end. -/
  isEnded : Bool
deriving Repr, Inhabited

/-- The line that starts after so many characters more. -/
def InputLine.after (count : Nat) (read : InputLine) : InputLine :=
  { read with size := count + read.size }

/-- The line with a character in front of it, which takes so many. -/
def InputLine.cons (count : Nat) (c : Char × Bool) (read : InputLine) : InputLine :=
  { read with line := c :: read.line, size := count + read.size }

/-- The first line of a text. A backslash that is not taken as it is joins lines, and drops its
meaning from other characters, even with zeros between them; else zeros do not count. -/
def nextInputLine (raw : Bool) : List Char → InputLine
  | [] => { size := 0, isEnded := false }
  | '\n' :: _ => { size := 1, isEnded := true }
  | '\x00' :: rest => (nextInputLine raw rest).after 1
  | c :: rest =>
    if raw || c != '\\' then (nextInputLine raw rest).cons 1 (c, false)
    else escaped 1 rest
  termination_by text => (text.length, 0)
where
  /-- The line that starts with so many characters, of which the first is a backslash and the others
  are zeros. -/
  escaped (count : Nat) : List Char → InputLine
    | [] => { size := count, isEnded := false }
    | '\n' :: rest => (nextInputLine raw rest).after (count + 1)
    | '\x00' :: rest => escaped (count + 1) rest
    | d :: rest => (nextInputLine raw rest).cons (count + 1) (d, true)
  termination_by text => (text.length, 1)

/-- The number of bytes in which a line is looked for first. -/
def usualLine : Nat := 256

/-- How often the number of bytes is doubled in which a line is looked for. -/
def lineDoublings : Nat := 16

/-- The next line of what has been opened. It is looked for in a number of bytes, which is doubled
`fuel` times as long as the line does not end in them, and then in all. -/
def Opening.nextLine (h : Host) (raw : Bool) (opening : Opening) : (fuel length : Nat) → InputLine
  | 0, _ => nextInputLine raw ((opening.rest? h).getD [])
  | fuel + 1, length =>
    let part := (opening.part? h length).getD []
    let next := nextInputLine raw part
    if next.isEnded || part.length < length then next
    else opening.nextLine h raw fuel (2 * length)

/-- A line of which a part has been shared out. All texts are kept from their ends. -/
structure Sharing where
  /-- The parts that are complete, the latest first. -/
  complete : List (List Char) := []
  /-- The part that goes on. -/
  current : List Char := []
  /-- How many more parts there can be; the last one goes on to the end. -/
  left : Nat
  /-- The last part without the splitters at its end, as far as they do not count. -/
  cut : Option (List Char) := none
  /-- Whether a blank ended the last part, and nothing has come since but blanks. -/
  afterBlank : Bool := false

namespace Sharing

/-- Takes the next character of the last part. -/
def takeLast (splitters : List Char) (s : Sharing) (c : Char) : Sharing :=
  let isSplitter := splitters.contains c
  let next := { s with current := c :: s.current }
  if isSplitter && defaultSplitters.toList.contains c then
    { next with cut := s.cut.or (some s.current) }
  else { next with cut := if isSplitter && s.afterBlank then s.cut else none, afterBlank := false }

/-- Takes the next character. One that has lost its meaning does not split, and is not noticed by
those that do. -/
def take (splitters : List Char) (s : Sharing) : Char × Bool → Sharing
  | (c, true) => { s with current := c :: s.current, afterBlank := false }
  | (c, false) =>
    let isSplitter := splitters.contains c
    let isBlank := isSplitter && defaultSplitters.toList.contains c
    if s.left = 0 then s.takeLast splitters c
    else if !isSplitter then { s with current := c :: s.current, afterBlank := false }
    else if s.afterBlank then { s with afterBlank := isBlank }
    else if isBlank && s.current.isEmpty then s
    else if s.left = 1 then
      { s with left := 0, cut := some s.current, current := c :: s.current, afterBlank := isBlank }
    else
      { s with
        complete := s.current :: s.complete, current := [], left := s.left - 1
        afterBlank := isBlank }

/-- The parts. -/
def parts (s : Sharing) : List String :=
  ((s.cut.getD s.current) :: s.complete).reverse.map fun part => .ofList part.reverse

end Sharing

/-- The parts of a line for a number of variables; the last one gets what is left. -/
def shares (splitters : List Char) (count : Nat) (line : Field) : List String :=
  (line.foldl (Sharing.take splitters) { left := count }).parts

/-- Reads a line into variables. -/
def read (words : List String) : Act Nat := do
  let (options, names) ← splitArguments ['r'] [('p', fun _ => return ())] words
  let isRaw := options.any (·.1 == 'r')
  if names.isEmpty then fail "arg count"
  match ← openingOn inputChannel with
  | none =>
    names.forM fun name => setVariable name ""
    return 1
  | some (number, opening) =>
    let next := opening.nextLine (← get).host isRaw lineDoublings usualLine
    advance number next.size
    let parts := shares (← splitters) names.length next.line
    (names.zip (parts ++ names.map fun _ => "")).forM fun (name, value) => setVariable name value
    return if next.isEnded then 0 else 1

/-! ## Printing -/

/-- Writes a format. -/
def printf (words : List String) : Act Nat := do
  let (_, words) ← splitOptions [] words
  match words with
  | [] => fail "usage: printf format [arg ...]"
  | format :: arguments =>
    let written := Printing.printf format arguments
    print written.text
    written.invalid.forM fun (argument, reason) => complain s!"{argument}: {reason}"
    match written.fault with
    | some directive => fail directive
    | none => return if written.invalid.isEmpty then 0 else 1

/-- The answer of a test as a code. -/
def test (words : List String) : Act Nat := do
  match Test.answer (← get).host words with
  | .ok answer => return if answer then 0 else 1
  | .error fault => fail fault.message

/-- The answer of a test in brackets as a code. A last word that starts with a bracket closes it. -/
def bracketTest (words : List String) : Act Nat := do
  if (words.getLastD "").startsWith "]" then test words.dropLast else fail "missing ]"

/-! ## All of them -/

/-- The built-in commands that neither run others nor say which there are. -/
def builtins : List (String × (List String → Act Nat)) :=
  [("true", fun _ => return 0),
   (":", fun _ => return 0),
   ("false", fun _ => return 1),
   ("echo", fun words => do print (Printing.echo words); return 0),
   ("printf", printf),
   ("test", test),
   ("[", bracketTest),
   ("kill", kill),
   ("cd", changeDirectory),
   ("chdir", changeDirectory),
   ("pwd", printDirectory),
   ("set", setCommand),
   ("getopts", getopts),
   ("shift", shift),
   ("export", exportCommand),
   ("readonly", readonlyCommand),
   ("local", localCommand),
   ("unset", unset),
   ("alias", aliasCommand),
   ("unalias", unalias),
   ("trap", trap),
   ("read", read),
   ("umask", umask),
   ("jobs", jobs),
   ("fg", resume),
   ("bg", resume),
   ("times", fun _ => do
      let line := "0m0.000000s 0m0.000000s\n"
      print (line ++ line)
      return 0),
   ("ulimit", ulimit),
   ("exit", fun words => do
      let s ← get
      exit (← countOr (s.interrupted.getD s.status) words)),
   ("return", fun words => do
      setStatus (← countOr (← get).status words)
      throw (.return !words.isEmpty)),
   ("break", leaveLoops .break),
   ("continue", leaveLoops .continue)]

/-- The built-in commands that run others or say which there are. -/
def runningCommands : List String := [".", "eval", "exec", "command", "type", "hash", "wait"]

/-- The names of all built-in commands. -/
def builtinNames : List String := runningCommands ++ builtins.map (·.1)

end BuildPlanner.Shell
