import BuildPlanner.Shell.Token

/-!
# Reading scripts

A script is read line by line, where a line is a list of commands that may go over several lines of
the text. The words that open and close commands mean this only where a command may start. A line
that cannot be read ends the script when it is reached.
-/

namespace BuildPlanner.Shell

/-- A name in double quotes. -/
def inQuotes (name : String) : String := "\"" ++ name ++ "\""

/-- The words that close a part of a command. -/
def closingWords : List String :=
  ["then", "else", "elif", "fi", "do", "done", "esac", "\x7d"]

/-- The words that mean something where a command may start. -/
def reservedWords : List String :=
  closingWords ++ ["if", "while", "until", "for", "case", "in", "\x7b", "!"]

/-- The text of a token that is a word without quotes. -/
def Token.plain? : Token → Option String
  | word w => (Shell.plain? w).map .ofList
  | _ => none

/-- A token as messages name it; `isCommand` says that a command may start with it. -/
def Token.shown ( isCommand : Bool) : Token → String
  | sign .newline => Sign.newline.text
  | sign s => inQuotes s.text
  | redirect .. | document .. => "redirection"
  | faulty .. => "word"
  | word w =>
    match (Shell.plain? w).map String.ofList with
    | some text => if isCommand && reservedWords.contains text then inQuotes text else "word"
    | none => "word"

/-- What is wrong with a line because of a token. -/
def LineToken.fault (next : LineToken) ( isCommand : Bool) (expected : Option String) :
    SyntaxFault :=
  match next.token with
  | .faulty fault _ => fault
  | token => ⟨next.line, .unexpected (token.shown (isCommand && !next.isBare)) expected⟩

/-- A reader of commands, for which there are aliases. -/
abbrev Reading (α : Type) : Type :=
  ReaderT Aliases (StateT (List LineToken) (Except SyntaxFault)) α

/-- A bound for how deep commands are in each other, and for their number, with what aliases stand
for. -/
def depthOf (aliases : Aliases) (all : List LineToken) : Nat :=
  (4 * all.length + 16) * aliases.foldl (fun total named => total + named.2.length + 1) 1

namespace Reading

/-- The next token. -/
def peek? : Reading (Option Token) := do
  return (← get).head?.map (·.token)

/-- Passes over the next token. -/
def skip : Reading Unit := modify List.tail

/-- The word that comes next, if it has no quotes and can be one of the language. -/
def peekWord? : Reading (Option String) := do
  return ((← get).head?.filter (!·.isBare)).bind (·.token.plain?)

/-- Fails because of the next token, where a command may start. -/
def unexpected {α : Type} (last : Nat) (expected : Option String) : Reading α := do
  match (← get).head? with
  | some next => throw (next.fault true expected)
  | none => throw ⟨last, .unexpected "end of file" expected⟩

/-- Fails because of the next token, where no command may start. -/
def unexpectedPart {α : Type} (last : Nat) (expected : Option String) : Reading α := do
  match (← get).head? with
  | some next => throw (next.fault false expected)
  | none => throw ⟨last, .unexpected "end of file" expected⟩

/-- Passes over a sign if it comes next. -/
def skipSign (sign : Sign) : Reading Bool := do
  match ← peek? with
  | some (.sign next) => if next = sign then skip; return true else return false
  | _ => return false

/-- Passes over the ends of lines; `fuel` bounds their number. -/
def skipNewlines : (fuel : Nat) → Reading Unit
  | 0 => return ()
  | fuel + 1 => do if ← skipSign .newline then skipNewlines fuel

/-- Passes over a word if it comes next. -/
def skipWord (word : String) : Reading Bool := do
  if (← peekWord?) = some word then skip; return true else return false

/-- Passes over a word that has to come next. -/
def expect (last : Nat) (word : String) : Reading Unit := do
  unless ← skipWord word do unexpected last (some (inQuotes word))

/-- Puts what an alias stands for in place of it, if one comes next that did not come out of itself.
`words` says that the words of the language are none. The answer is whether there was one. -/
def expandAlias (words : Bool) : Reading Bool := do
  match ← get with
  | [] => return false
  | next :: others =>
    let name := next.token.plain?.getD ""
    let isWord := words && !next.isBare && reservedWords.contains name
    let aliases ← read
    match if isWord || next.origins.contains name then none else aliases.lookup name with
    | none => return false
    | some text =>
      set (next.replaced name text.toList others)
      return true

/-- Puts what aliases stand for in place of them, as long as one comes next; `fuel` bounds how
often. -/
def expandWithin (words : Bool) : (fuel : Nat) → Reading Unit
  | 0 => return ()
  | fuel + 1 => do if ← expandAlias words then expandWithin words fuel

/-- Puts what aliases stand for in place of them, as long as one comes next. -/
def expandAliases (words : Bool) : Reading Unit := do
  if ← expandAlias words then expandWithin words (depthOf (← read) (← get))

/-- Passes over the ends of lines to where a command may start; `fuel` bounds their number. -/
def toCommand : (fuel : Nat) → Reading Unit
  | 0 => return ()
  | fuel + 1 => do
    skipNewlines fuel
    if ← expandAlias true then toCommand fuel

/-- Whether an alias is looked for in any case. -/
def isNext : Reading Bool := do return (← get).head?.any (·.isNext)

/-- Reads a word, if one comes next. -/
def wordNext? : Reading (Option Word) := do
  if ← isNext then expandAliases false
  match ← peek? with
  | some (.word word) => skip; return some (withAliases (← read) word)
  | _ => return none

/-- Whether a list of commands ends here. -/
def atEnd : Reading Bool := do
  match ← peek? with
  | none => return true
  | some (.sign .close) | some (.sign .endOfArm) => return true
  | some _ => return (← peekWord?).any closingWords.contains

end Reading

open Reading

/-- The name and the value of an assignment. -/
def assignment? (word : Word) : Option (String × Word) :=
  match word with
  | .char c :: rest => if startsName c then (ends rest).map fun (name, value) =>
      (.ofList (c :: name), value) else none
  | _ => none
where
  /-- Splits at the equals sign after the characters of a name. -/
  ends : Word → Option (List Char × Word)
    | .char '=' :: value => some ([], value)
    | .char c :: rest =>
      if isNameChar c then (ends rest).map fun (name, value) => (c :: name, value) else none
    | _ => none

/-- What has been read of a call. -/
structure Call where
  /-- The line in which it starts. -/
  line : Nat
  /-- The variables that are set for it. -/
  assignments : List (String × Word) := []
  /-- Its words. -/
  words : List Word := []
  /-- Its redirections. -/
  redirects : List Redirect := []
deriving Inhabited

/-- The redirection that comes next. -/
def redirectNext? (last : Nat) : Reading (Option Redirect) := do
  match ← peek? with
  | some (.redirect channel mode) =>
    skip
    match ← wordNext? with
    | some target => return some ⟨channel, mode, target⟩
    | none => unexpectedPart last none
  | some (.document channel text) =>
    skip
    return some ⟨channel, .text, withAliases (← read) text⟩
  | _ => return none

/-- Reads the rest of a call; `fuel` bounds the number of tokens. -/
def callRest (last : Nat) : (fuel : Nat) → Call → Reading Call
  | 0, call => return call
  | fuel + 1, call => do
    if call.words.isEmpty || (← isNext) then expandAliases false
    match ← redirectNext? last with
    | some redirect => callRest last fuel { call with redirects := call.redirects ++ [redirect] }
    | none =>
      match ← wordNext? with
      | some word =>
        match call.words, assignment? word with
        | [], some assigned =>
          callRest last fuel { call with assignments := call.assignments ++ [assigned] }
        | _, _ => callRest last fuel { call with words := call.words ++ [word] }
      | none => return call

/-- Reads the redirections after a command; `fuel` bounds their number. -/
def redirectsNext (last : Nat) : (fuel : Nat) → Reading (List Redirect)
  | 0 => return []
  | fuel + 1 => do
    match ← redirectNext? last with
    | some redirect => return redirect :: (← redirectsNext last fuel)
    | none => return []

variable (last : Nat) (command : Reading Command)

/-- Reads commands of which each reads what the one before writes. -/
def pipeline : (fuel : Nat) → Reading Command
  | 0 => command
  | fuel + 1 => do
    let first ← command
    if ← skipSign .pipe then
      toCommand fuel
      return .pipe first (← pipeline fuel)
    else return first

/-- Reads a pipeline that may be negated. -/
def negatable (fuel : Nat) : Reading Command := do
  if ← skipWord "!" then return .negated (← pipeline command fuel) else pipeline command fuel

/-- Reads what depends on the command before. -/
def andOrRest : (fuel : Nat) → Command → Reading Command
  | 0, first => return first
  | fuel + 1, first => do
    if ← skipSign .both then
      toCommand fuel
      andOrRest fuel (.both first (← negatable command fuel))
    else if ← skipSign .either then
      toCommand fuel
      andOrRest fuel (.either first (← negatable command fuel))
    else return first

/-- Reads commands of which each may depend on those before. -/
def andOr (fuel : Nat) : Reading Command := do
  andOrRest command fuel (← negatable command fuel)

/-- Reads the commands of a line, up to its end. -/
def lineOf : (fuel : Nat) → Reading Command
  | 0 => return .nothing
  | fuel + 1 => do
    expandAliases true
    match ← peek? with
    | none | some (.sign .newline) => return .nothing
    | some _ =>
      let first ← andOr command fuel
      let background ← skipSign .ampersand
      let first := if background then .background first else first
      let more ← if background then pure true else skipSign .semicolon
      unless more do return first
      expandAliases true
      if ← atEnd then return first else return first.andThen (← lineOf fuel)

/-- Reads commands on any number of lines, up to what ends them. -/
def body : (fuel : Nat) → Reading Command
  | 0 => return .nothing
  | fuel + 1 => do
    toCommand fuel
    if ← atEnd then return .nothing
    else
      let first ← lineOf command fuel
      if ← skipSign .newline then return first.andThen (← body fuel) else return first

/-- Reads commands that may not be missing, up to a word. -/
def needed (word : String) (fuel : Nat) : Reading Command := do
  toCommand fuel
  if ← atEnd then
    unexpected last (if (← peek?).isNone then some (inQuotes word) else none)
  else body command fuel

/-- Reads a choice by a condition after its first word. -/
def conditionalRest : (fuel : Nat) → Reading Command
  | 0 => return .nothing
  | fuel + 1 => do
    let condition ← needed last command "then" fuel
    expect last "then"
    let consequent ← needed last command "fi" fuel
    if ← skipWord "elif" then
      return .conditional condition consequent (← conditionalRest fuel)
    else
      let alternative ← if ← skipWord "else" then needed last command "fi" fuel else pure .nothing
      expect last "fi"
      return .conditional condition consequent alternative

/-- Reads the body of a loop. -/
def loopBody (fuel : Nat) : Reading Command := do
  expect last "do"
  let inner ← needed last command "done" fuel
  expect last "done"
  return inner

/-- Reads words up to what is none; `fuel` bounds their number. -/
def wordsNext : (fuel : Nat) → Reading (List Word)
  | 0 => return []
  | fuel + 1 => do
    match ← wordNext? with
    | some word => return word :: (← wordsNext fuel)
    | none => return []

/-- Whether a text may be the name of a variable. -/
def isName (text : String) : Bool :=
  text.toList.head?.any startsName && text.toList.all isNameChar

/-- The built-in commands whose failures end the shell, and after which the variables that are set
for them stay set. -/
def specialCommands : List String :=
  [".", ":", "break", "continue", "eval", "exec", "exit", "export", "local", "readonly", "return",
    "set", "shift", "times", "trap", "unset"]

/-- Whether a text may be the name of a function. -/
def canBeFunction (text : String) : Bool :=
  isName text && !specialCommands.contains text

/-- Reads a loop over words after its first word. -/
def eachRest (line : Nat) (fuel : Nat) : Reading Command := do
  match (← peekWord?).filter isName with
  | none =>
    match ← peek? with
    | some (.faulty fault _) => throw fault
    | _ => throw ⟨((← get).head?.map (·.line)).getD last, .badLoopVariable⟩
  | some name =>
    skip
    toCommand fuel
    let words ← if ← skipWord "in" then some <$> wordsNext fuel else pure none
    let isEnded ← skipSign .semicolon
    if words.isSome && !isEnded then
      unless ← skipSign .newline do unexpectedPart last none
    toCommand fuel
    return .each line name words (← loopBody last command fuel)

/-- Reads the patterns of an arm, up to the parenthesis. What is no word stands for the pattern
before it. -/
def patterns (before : Word) : (fuel : Nat) → Reading (List Word)
  | 0 => return []
  | fuel + 1 => do
    let word ← match ← wordNext? with
      | some word => pure word
      | none =>
        match ← peek? with
        | some (.faulty ..) | none => unexpectedPart last (some (inQuotes Sign.close.text))
        | some _ => skip; pure before
    if ← skipSign .pipe then return word :: (← patterns word fuel)
    else if ← skipSign .close then return [word]
    else unexpectedPart last (some (inQuotes Sign.close.text))

/-- Reads the arms of a choice, up to its last word. -/
def arms : (fuel : Nat) → Reading (List (List Word × Command))
  | 0 => return []
  | fuel + 1 => do
    skipNewlines fuel
    if ← skipWord "esac" then return []
    else
      discard (skipSign .open)
      let patterns ← patterns last [] fuel
      let inner ← body command fuel
      if ← skipSign .endOfArm then return (patterns, inner) :: (← arms fuel)
      else
        unless ← skipWord "esac" do unexpected last (some (inQuotes Sign.endOfArm.text))
        return [(patterns, inner)]

/-- Reads a choice by patterns after its first word. -/
def choiceRest (line : Nat) (fuel : Nat) : Reading Command := do
  match ← wordNext? with
  | some word =>
    toCommand fuel
    expect last "in"
    return .choice line word (← arms last command fuel)
  | none => unexpectedPart last (some "word")

/-- Reads a call, or the definition of a function. -/
def call (line : Nat) (fuel : Nat) : Reading Command := do
  let made ← callRest last fuel { line }
  match made.words, made.redirects, made.assignments with
  | [name], [], [] =>
    if ← skipSign .open then
      let closing := ((← get).head?.map (·.line)).getD last
      unless ← skipSign .close do unexpectedPart last (some (inQuotes Sign.close.text))
      match ((plain? name).map String.ofList).filter canBeFunction with
      | some name =>
        toCommand fuel
        return .define name (← command)
      | none => throw ⟨closing, .badFunctionName⟩
    else return .simple made.line [] made.words []
  | [], [], [] => unexpected last none
  | _, _, _ => return .simple made.line made.assignments made.words made.redirects

/-- Reads a command that its first word or sign makes more than a call. -/
def compound? (line : Nat) (fuel : Nat) : Reading (Option Command) := do
  if ← skipSign .open then
    let inner ← needed last command Sign.close.text fuel
    unless ← skipSign .close do unexpected last (some (inQuotes Sign.close.text))
    return some (.subshell line inner)
  match ← peekWord? with
  | some "if" => skip; return some (← conditionalRest last command fuel)
  | some "while" =>
    skip
    let condition ← needed last command "do" fuel
    return some (.loop true condition (← loopBody last command fuel))
  | some "until" =>
    skip
    let condition ← needed last command "do" fuel
    return some (.loop false condition (← loopBody last command fuel))
  | some "for" => skip; return some (← eachRest last command line fuel)
  | some "case" => skip; return some (← choiceRest last command line fuel)
  | some "\x7b" =>
    skip
    let inner ← needed last command "\x7d" fuel
    expect last "\x7d"
    return some inner
  | some word =>
    if closingWords.contains word || word = "!" || word = "in" then unexpected last none
    else return none
  | none => return none

/-- Reads a command; `fuel` bounds how deep commands are in each other. -/
def commandNext : (fuel : Nat) → Reading Command
  | 0 => return .nothing
  | fuel + 1 => do
    expandAliases true
    let line := ((← get).head?.map (·.line)).getD last
    match ← compound? last (commandNext fuel) line fuel with
    | some made =>
      expandAliases true
      match ← redirectsNext last fuel with
      | [] => return made
      | redirects =>
        modify fun all => match all with
          | next :: rest => { next with isBare := true } :: rest
          | [] => []
        return .redirected line made redirects
    | none => call last (commandNext fuel) line fuel

/-- A line of a script. -/
structure ScriptLine where
  /-- What it says. -/
  command : Command
  /-- The number of the line of the text that follows it. -/
  after : Nat
  /-- The tokens that follow it. -/
  rest : List LineToken
deriving Inhabited

/-- The next line; `fuel` bounds how deep commands are in each other. -/
def nextLine (aliases : Aliases) (fuel : Nat) (all : List LineToken) :
    Except SyntaxFault ScriptLine :=
  match ((lineOf (commandNext last fuel) fuel).run aliases).run all with
  | .error fault => .error fault
  | .ok (command, []) => .ok ⟨command, last + 1, []⟩
  | .ok (command, next :: rest) =>
    match next.token with
    | .sign .newline => .ok ⟨command, next.line, rest⟩
    | _ => .error (next.fault true none)

/-! ## Scripts in words -/

/-- The line in which a script ends whose text ends in a given one. -/
def lastLineOf (line : Nat) (all : List LineToken) : Nat :=
  max line ((all.getLast?.map (·.line)).getD 0)

/-- The tokens of a script in a word. The parenthesis that closes it is one of them. -/
def InnerScript.tokens (script : InnerScript) : List LineToken :=
  match script.line with
  | none => tokensOf script.text
  | some line =>
    tokensFrom line script.text ++
      if script.isClosed then
        [{ line := line + script.text.count '\n', token := .sign .close }]
      else []

/-- The commands of a script in a word, given by its tokens. They have to go up to the parenthesis
that closes it; what follows those of one in backquotes does not count. -/
def InnerScript.commandOf (script : InnerScript) (all : List LineToken) :
    Except SyntaxFault Command :=
  let last := lastLineOf (script.line.getD 1 + script.text.count '\n') all
  let fuel := depthOf script.aliases all
  match ((body (commandNext last fuel) fuel).run script.aliases).run all with
  | .error fault => .error fault
  | .ok (command, []) => if script.isClosed then .ok command else .error ⟨last, .unclosed .script⟩
  | .ok (command, next :: rest) =>
    match next.token with
    | .faulty fault _ => .error fault
    | _ =>
      if script.line.isNone || (script.isClosed && rest.isEmpty) then .ok command
      else .error (next.fault true (some (inQuotes Sign.close.text)))

/-- The scripts in the words of a token. -/
def Token.scripts : Token → List InnerScript
  | .word w | .document _ w | .faulty _ w => scriptsIn w
  | _ => []

/-- Tokens in which words with scripts that cannot be read say so; `fuel` bounds how deep scripts
are in each other. -/
def checked (aliases : Aliases) : (fuel : Nat) → List LineToken → List LineToken
  | 0, all => all
  | fuel + 1, all =>
    all.map fun next =>
      let fault? (script : InnerScript) : Option SyntaxFault :=
        match { script with aliases }.commandOf (checked aliases fuel script.tokens) with
        | .error fault => some fault
        | .ok _ => none
      match next.token.scripts.findSome? fault? with
      | some fault => { next with token := .faulty fault [] }
      | none => next

/-- The most scripts that are looked for in each other before the outermost one runs. -/
def maxInner : Nat := 1000

end BuildPlanner.Shell
