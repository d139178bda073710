import BuildPlanner.Shell.State

/-!
# Options

The options of a shell have names, and most of them letters. A script looks for options among its
own arguments one after the other; the shell remembers how far it has come.
-/

namespace BuildPlanner.Shell

open Act

/-- The options by their names, in the order in which they are listed. -/
def optionNames : List (String × Char) :=
  [("errexit", 'e'), ("noglob", 'f'), ("ignoreeof", 'I'), ("interactive", 'i'), ("monitor", 'm'),
    ("noexec", 'n'), ("stdin", 's'), ("xtrace", 'x'), ("verbose", 'v'), ("vi", 'V'),
    ("emacs", 'E'), ("noclobber", 'C'), ("allexport", 'a'), ("notify", 'b'), ("nounset", 'u'),
    ("privileged", 'p'), ("nolog", '1'), ("debug", '2')]

/-- The letters of options. -/
def optionLetters : List Char := (optionNames.map (·.2)).filter Char.isAlpha

/-- The letters that count only where a shell is called. -/
def callLetters : List Char := ['c', 'l']

/-- Sets an option, or no longer. -/
def changeOption (value : Bool) (letter : Char) : Act Unit := modify fun s =>
  let others := s.options.filter (· != letter)
  { s with options := if value then letter :: others else others }

/-- Sets an option by its letter. -/
def setOption (known : List Char) (value : Bool) (letter : Char) :
    Act Unit := do
  if known.contains letter then changeOption value letter
  else fail s!"Illegal option -{letter}"

/-- Lists the options. -/
def listOptions (value : Bool) : Act Unit := do
  if value then print "Current option settings\n"
  optionNames.forM fun (name, letter) => do
    let isSet := (← get).has letter
    let shown := String.ofList (name.toList.rightpad 16 ' ')
    let sign := if isSet then "-" else "+"
    print (if value then shown ++ (if isSet then "on" else "off") ++ "\n"
      else s!"set {sign}o {name}\n")

/-- Sets options by letters; a letter that asks for a name takes the next word. -/
def setLetters (known : List Char) (value : Bool) :
    List Char → List String → Act (List String)
  | [], words => return words
  | 'o' :: letters, [] => do
    listOptions value
    setLetters known value letters []
  | 'o' :: letters, name :: words => do
    match optionNames.lookup name with
    | some letter => changeOption value letter
    | none => fail s!"Illegal option -o {name}"
    setLetters known value letters words
  | letter :: letters, words => do
    setOption known value letter
    setLetters known value letters words

/-- Sets options by the words at the front. The answer is the words after them, or nothing if they
end without a word that says so; `fuel` bounds their number. -/
def setByWords (known : List Char) : (fuel : Nat) → List String →
    Act (Option (List String))
  | 0, _ | _, [] => return none
  | fuel + 1, word :: words => do
    match word.toList with
    | ['-'] =>
      changeOption false 'x'
      changeOption false 'v'
      return if words.isEmpty then none else some words
    | ['-', '-'] => return some words
    | '-' :: letters => setByWords known fuel (← setLetters known true letters words)
    | '+' :: letters => setByWords known fuel (← setLetters known false letters words)
    | _ => return some (word :: words)

/-- A text in single quotes, in which those of the text stand in double quotes; `fuel` bounds the
number of characters. -/
def quoteChars : (fuel : Nat) → List Char → List Char
  | 0, _ => []
  | fuel + 1, cs =>
    let plain := cs.takeWhile (· != '\'')
    let after := cs.drop plain.length
    let quotes := after.takeWhile (· == '\'')
    let rest := after.drop quotes.length
    ['\''] ++ plain ++ ['\''] ++
      (if quotes = [] then [] else ['"'] ++ quotes ++ ['"']) ++
      (if rest = [] then [] else quoteChars fuel rest)

/-- A text as a script can write it. -/
def quoted (text : String) : String := .ofList (quoteChars (text.length + 1) text.toList)

/-- The variables with their values, sorted. -/
def listVariables : Act Unit := do
  let all := (← get).table.values.mergeSort fun a b => decide (a.1 ≤ b.1)
  all.forM fun (name, value) => print (name ++ "=" ++ quoted value ++ "\n")

/-- Unsets the option that lets a shell control jobs, which takes a terminal, and says so. A copy of
a shell does not care. -/
def refuseMonitor : Act Unit := do
  let s ← get
  if s.has 'm' && s.outerTraps.isNone then
    complain "can't access tty; job control turned off"
    changeOption false 'm'

/-- Sets options and arguments. -/
def setCommand (words : List String) : Act Nat := do
  if words.isEmpty then listVariables
  let given ← setByWords optionLetters (words.length + 1) words
  refuseMonitor
  given.forM setArguments
  return 0

/-! ## Options of commands -/

/-- Options that take arguments, with what checks an argument. -/
abbrev ValuedOptions : Type := List (Char × (String → Act Unit))

/-- The options at the front of the words of a command, each with its argument, and the words after
them, where the letters of a word have been begun; `fuel` bounds the number of letters. -/
def argumentsAfter (known : List Char) (valued : ValuedOptions) :
    (fuel : Nat) → List Char → List String → Act (List (Char × String) × List String)
  | 0, _, words => return ([], words)
  | fuel + 1, [], words =>
    match words.head?.map String.toList with
    | some ['-', '-'] => return ([], words.drop 1)
    | some ('-' :: letter :: letters) =>
      argumentsAfter known valued fuel (letter :: letters) (words.drop 1)
    | _ => return ([], words)
  | fuel + 1, letter :: letters, words => do
    let (argument, letters, words) ←
      match valued.lookup letter, letters, words with
      | some _, [], [] => fail s!"No arg for -{letter} option"
      | some check, [], word :: words =>
        check word
        pure (word, [], words)
      | some check, letters, words =>
        check (.ofList letters)
        pure (String.ofList letters, [], words)
      | none, letters, words =>
        if known.contains letter then pure ("", letters, words)
        else fail s!"Illegal option -{letter}"
    let (others, rest) ← argumentsAfter known valued fuel letters words
    return ((letter, argument) :: others, rest)

/-- The options at the front of the words of a command, each with its argument, and the words after
them. -/
def splitArguments (known : List Char) (valued : ValuedOptions) (words : List String) :
    Act (List (Char × String) × List String) :=
  let count := words.foldl (fun total word => total + word.length + 1) 1
  argumentsAfter known valued count [] words

/-- The letters of the options at the front of the words of a command, and the words after them. -/
def splitOptions (known : List Char) (words : List String) : Act (List Char × List String) := do
  let (options, words) ← splitArguments known [] words
  return (options.map (·.1), words)

/-! ## Options of scripts -/

/-- What the next option among arguments is. -/
structure FoundOption where
  /-- The letter, or what stands for one that is none. -/
  letter : Char
  /-- What is said about it. -/
  complaint : Option String := none
  /-- The argument that goes with it; `none` if there is none. -/
  argument : Option String := some ""
  /-- The number of the argument that comes next. -/
  index : Nat
  /-- The letters of the argument before that which have been passed over, if it goes on. -/
  offset : Option Nat := none
  /-- Whether there are no more options. -/
  isLast : Bool := false
deriving Repr

/-- The letters at the place that the shell remembers, with the number of the next argument and of
the letters before them. -/
def lettersAt (arguments : List String) (index : Nat) (offset : Option Nat) :
    Option (List Char × Nat × Nat) :=
  let current := offset.bind fun offset =>
    match (arguments[index - 2]?).map String.toList with
    | some word => if index ≤ 1 then none else some (word.drop offset, offset)
    | none => none
  match current with
  | some (letter :: letters, offset) => some (letter :: letters, index, offset)
  | _ =>
    match (arguments[index - 1]?).map String.toList with
    | some ('-' :: letter :: letters) => some (letter :: letters, index + 1, 1)
    | _ => none

/-- Whether a letter is an option by a list of letters, and whether it then takes an argument. -/
def takesArgument? (letter : Char) : List Char → Option Bool
  | [] => none
  | c :: ':' :: rest => if c = letter then some true else takesArgument? letter rest
  | c :: rest => if c = letter then some false else takesArgument? letter rest

/-- The next option by a list of letters, in which a colon follows those with an argument. One at
the front says that nothing is told about what is wrong. -/
def nextOption (known : List Char) (arguments : List String) (index : Nat)
    (offset : Option Nat) : FoundOption :=
  let isQuiet := known.head? = some ':'
  match lettersAt arguments index offset with
  | none => { letter := '?', index, isLast := true, argument := none }
  | some (['-'], next, 1) => { letter := '?', index := next, isLast := true, argument := none }
  | some ([], next, _) => { letter := '?', index := next, isLast := true, argument := none }
  | some (letter :: letters, next, passed) =>
    let offset := passed + 1
    match takesArgument? letter known with
    | none =>
      { letter := '?', index := next, offset := some offset
        complaint := if isQuiet then none else some s!"Illegal option -{letter}\n"
        argument := if isQuiet then some letter.toString else none }
    | some false => { letter, index := next, offset := some offset }
    | some true =>
      match letters, arguments[next - 1]? with
      | _ :: _, _ => { letter, index := next, argument := some (.ofList letters) }
      | [], some word => { letter, index := next + 1, argument := some word }
      | [], none =>
        { letter := if isQuiet then ':' else '?', index := next
          complaint := if isQuiet then none else some s!"No arg for -{letter} option\n"
          argument := if isQuiet then some letter.toString else none }

/-- The variable with the argument of an option. -/
def argumentName : String := "OPTARG"

/-- Looks for options from the first argument on. -/
def restartOptions : Act Unit := modify fun s => { s with optionIndex := 1, optionOffset := none }

/-- Looks for the next option. When a variable cannot be set, the first argument comes next. -/
def getopts : List String → Act Nat
  | known :: name :: given => do
    let s ← get
    let arguments := if given.isEmpty then s.arguments else given
    let (index, offset) :=
      if s.optionIndex ≤ arguments.length + 1 then (s.optionIndex, s.optionOffset) else (1, none)
    let found := nextOption known.toList arguments index offset
    found.complaint.forM (write errorChannel)
    restartOptions
    unless found.isLast do
      match found.argument with
      | some argument => setVariable argumentName argument
      | none => unsetVariable argumentName
    setVariable indexName (toString found.index)
    restartOptions
    setVariable name found.letter.toString
    modify fun s => { s with optionIndex := found.index, optionOffset := found.offset }
    return if found.isLast then 1 else 0
  | _ => fail "Usage: getopts optstring var [arg...]"

end BuildPlanner.Shell
