/-!
# Options

How the words of a command line are told apart. An option has a long name, and perhaps a letter;
letters may stand together after one dash. Its value follows after an equals sign or as the next
word, which may not look like an option. After two dashes every word is an operand. No option may
be given twice.
-/

namespace BuildPlanner.CommandLine

/-- An option that a command knows. -/
structure OptionRule where
  /-- The name after two dashes. -/
  long : String
  /-- The letter after one dash. -/
  short : Option Char
  /-- Which values it takes; `none` if it takes no value. -/
  takes : Option (String → Bool)

/-- What a command line asks for instead of being run. -/
inductive Halt where
  /-- It cannot be understood. -/
  | usage
  /-- It asks for help. -/
  | help
  /-- It asks for the version. -/
  | version
deriving DecidableEq, Repr

/-- The words of a command line, told apart. -/
structure Words where
  /-- The options, with their values. -/
  options : List (String × Option String)
  /-- The operands, in order. -/
  operands : List String
deriving DecidableEq, Repr, Inhabited

namespace Words

/-- Whether an option is given. -/
def has (w : Words) (name : String) : Bool :=
  w.options.any (·.1 == name)

/-- The value of an option, if it is given. -/
def value? (w : Words) (name : String) : Option String :=
  (w.options.lookup name).join

end Words

/-- The name of the option that asks for help. -/
def helpName : String := "help"

/-- The name of the option that asks for the version. -/
def versionName : String := "version"

/-- Takes note of an option. -/
def note (w : Words) (option : OptionRule) (value : Option String) : Except Halt Words :=
  if option.long = helpName then .error .help
  else if option.long = versionName then .error .version
  else if w.has option.long then .error .usage
  else .ok { w with options := w.options ++ [(option.long, value)] }

/-- Takes note of an option with a value. -/
def noteValue (w : Words) (option : OptionRule) (accepts : String → Bool) (value : String) :
    Except Halt Words :=
  if accepts value then note w option (some value) else .error .usage

/-- Whether a word looks like an option. -/
def looksLikeOption (word : String) : Bool :=
  match word.toList with
  | '-' :: _ :: _ => true
  | _ => false

/-- What is left to be read after an option: the rest of the line, or an option that waits for the
next word. -/
inductive Step where
  /-- The option is complete. -/
  | done (w : Words)
  /-- The option waits for its value. -/
  | waits (w : Words) (option : OptionRule) (accepts : String → Bool)

/-- Reads a long option, without its dashes. -/
def longOption (known : List OptionRule) (w : Words) (cs : List Char) : Except Halt Step := do
  let name := cs.takeWhile (· != '=')
  let given := (cs.dropWhile (· != '=')).tail?
  match known.find? fun option => option.long.toList == name with
  | none => throw .usage
  | some option =>
    match option.takes, given with
    | none, none => return .done (← note w option none)
    | none, some _ => throw .usage
    | some accepts, some value => return .done (← noteValue w option accepts (.ofList value))
    | some accepts, none => return .waits w option accepts

/-- Reads letters after one dash. -/
def shortOptions (known : List OptionRule) (w : Words) : List Char → Except Halt Step
  | [] => .ok (.done w)
  | letter :: rest => do
    match known.find? fun option => option.short == some letter with
    | none => throw .usage
    | some option =>
      match option.takes, rest with
      | none, _ => shortOptions known (← note w option none) rest
      | some accepts, [] => return .waits w option accepts
      | some accepts, '=' :: value => return .done (← noteValue w option accepts (.ofList value))
      | some accepts, value => return .done (← noteValue w option accepts (.ofList value))

/-- Tells the words of a command line apart, up to a given number of operands. Where that is
`none`, the first operand ends the line, and what follows it is left. -/
def scan (known : List OptionRule) (most : Option Nat) (w : Words) :
    List String → Except Halt (Words × List String)
  | [] => .ok (w, [])
  | "--" :: rest =>
    match most with
    | some count =>
      if w.operands.length + rest.length ≤ count then
        .ok ({ w with operands := w.operands ++ rest }, [])
      else .error .usage
    | none => .error .usage
  | word :: rest =>
    if looksLikeOption word then do
      let step ← match word.toList with
        | '-' :: '-' :: cs => longOption known w cs
        | cs => shortOptions known w (cs.drop 1)
      match step, rest with
      | .done w, rest => scan known most w rest
      | .waits .., [] => throw .usage
      | .waits w option accepts, value :: rest =>
        if looksLikeOption value then throw .usage
        else scan known most (← noteValue w option accepts value) rest
    else
      match most with
      | none => .ok ({ w with operands := [word] }, rest)
      | some count =>
        if w.operands.length < count then
          scan known most { w with operands := w.operands ++ [word] } rest
        else .error .usage

end BuildPlanner.CommandLine
