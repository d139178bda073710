/-!
# The syntax of shell scripts

Build tools are often small shell scripts. A script is made of commands, and a command of words. A
word is not yet a text: it has parts that stand for parameters, for what a script writes, or for a
number, and what is quoted in it is never taken apart.
-/

namespace BuildPlanner.Shell

/-! ## Words -/

/-- Whether a character may start the name of a variable. -/
def startsName (c : Char) : Bool :=
  c.isAlpha || c == '_'

/-- Whether a character may stand in the name of a variable. -/
def isNameChar (c : Char) : Bool :=
  c.isAlphanum || c == '_'

/-- What a shell keeps a value for. -/
inductive Parameter where
  /-- The name of the script, or one of its arguments. -/
  | argument (number : Nat)
  /-- The number of arguments. -/
  | count
  /-- All arguments, as one text or each for itself. -/
  | all (joined : Bool)
  /-- How the last command ended. -/
  | status
  /-- The process that runs the script. -/
  | process
  /-- The options that are set. -/
  | flags
  /-- The command that runs by itself. -/
  | background
  /-- A variable. -/
  | named (name : String)
deriving DecidableEq, Repr, Inhabited

/-- What is taken of a parameter. Where a word is used for a parameter that is not set, `strict`
says that an empty one counts as not set. -/
inductive Operator where
  /-- The value. -/
  | value
  /-- The length of the value. -/
  | length
  /-- The value, or else a word. -/
  | orWord (strict : Bool)
  /-- The value, which becomes a word if there is none. -/
  | orAssign (strict : Bool)
  /-- The value; if there is none, the script fails with a word. -/
  | orFail (strict : Bool)
  /-- A word if there is a value, else nothing. -/
  | ifSet (strict : Bool)
  /-- The value without what a pattern matches at its end. -/
  | withoutEnd (longest : Bool)
  /-- The value without what a pattern matches at its start. -/
  | withoutStart (longest : Bool)
deriving DecidableEq, Repr, Inhabited

/-- What a script may leave open. -/
inductive Unclosed where
  /-- A quote. -/
  | quote
  /-- A backquote. -/
  | backquote
  /-- The parenthesis of a script whose output is put into a word. -/
  | script
  /-- The parentheses of an expression. -/
  | expression
  /-- The brace of a parameter. -/
  | brace
deriving DecidableEq, Repr, Inhabited

/-- What is said about a script that leaves something open. -/
def Unclosed.message : Unclosed → String
  | quote => "Unterminated quoted string"
  | backquote => "EOF in backquote substitution"
  | script => "end of file unexpected (expecting \")\")"
  | expression => "Missing '))'"
  | brace => "Missing '\x7d'"

/-- Words that stand for other texts where a command starts. -/
abbrev Aliases : Type := List (String × String)

/-- A script whose output is put into a word. -/
structure InnerScript where
  /-- The text. -/
  text : List Char
  /-- The line in which it starts, if its lines count with those of the script around it. While the
  word is read, this is the number of lines that end after it. -/
  line : Option Nat
  /-- Whether it is closed. -/
  isClosed : Bool := true
  /-- The aliases that count for it. -/
  aliases : Aliases := []
deriving Repr, Inhabited

/-- A part of a word. -/
inductive Piece where
  /-- A character. -/
  | char (c : Char)
  /-- A text in which no character means anything else. -/
  | quoted (text : List Char)
  /-- Parts in double quotes. -/
  | together (pieces : List Piece)
  /-- What is taken of a parameter, with the word that goes with it. -/
  | parameter (p : Parameter) (operator : Operator) (word : List Piece)
  /-- What a script writes. -/
  | output (script : InnerScript)
  /-- The value of an expression. -/
  | arithmetic (expression : List Piece)
  /-- Something taken of a parameter that nobody knows, with the word that goes with it. The flag
  says that it is the end of a line, which does not count as one. -/
  | unknown (isLine : Bool) (word : List Piece)
  /-- Something that goes on to the end of the script, with what it holds. -/
  | unclosed (what : Unclosed) (inside : List Piece)
deriving Inhabited

/-- A word. -/
abbrev Word : Type := List Piece

/-- The text of a word that is only characters. -/
def plain? : Word → Option (List Char)
  | [] => some []
  | .char c :: pieces => (plain? pieces).map (c :: ·)
  | _ => none

mutual

/-- What a part of a word leaves open. -/
def Piece.open? : Piece → Option Unclosed
  | .unclosed what inner => (open? inner).or what
  | .together inner | .parameter _ _ inner | .arithmetic inner | .unknown _ inner =>
    open? inner
  | .output script => if script.isClosed then none else some .script
  | _ => none

/-- What a word leaves open. -/
def open? : List Piece → Option Unclosed
  | [] => none
  | piece :: pieces => piece.open?.or (open? pieces)

end

mutual

/-- A part of a word with its scripts changed. -/
def Piece.mapScripts (f : InnerScript → InnerScript) : Piece → Piece
  | .together inner => .together (mapScripts f inner)
  | .parameter p operator inner => .parameter p operator (mapScripts f inner)
  | .arithmetic inner => .arithmetic (mapScripts f inner)
  | .unknown isLine inner => .unknown isLine (mapScripts f inner)
  | .unclosed what inner => .unclosed what (mapScripts f inner)
  | .output script => .output (f script)
  | piece => piece

/-- A word with its scripts changed. -/
def mapScripts (f : InnerScript → InnerScript) : List Piece → List Piece
  | [] => []
  | piece :: pieces => piece.mapScripts f :: mapScripts f pieces

end

/-- A word with the lines of its scripts changed. -/
def mapLines (f : Nat → Nat) : Word → Word :=
  mapScripts fun script => { script with line := script.line.map f }

/-- A word with the aliases that count for its scripts. -/
def withAliases (aliases : Aliases) (word : Word) : Word :=
  if aliases.isEmpty then word else mapScripts (fun script => { script with aliases }) word

mutual

/-- The scripts in a part of a word. -/
def Piece.scripts : Piece → List InnerScript
  | .together inner | .parameter _ _ inner | .arithmetic inner | .unknown _ inner
  | .unclosed _ inner => scriptsIn inner
  | .output script => [script]
  | _ => []

/-- The scripts in a word. -/
def scriptsIn : List Piece → List InnerScript
  | [] => []
  | piece :: pieces => piece.scripts ++ scriptsIn pieces

end

mutual

/-- The ends of lines in a part of a word that do not count. -/
def Piece.lostLines : Piece → Nat
  | .together inner | .parameter _ _ inner | .arithmetic inner | .unclosed _ inner =>
    lostLines inner
  | .unknown isLine inner => (if isLine then 1 else 0) + lostLines inner
  | _ => 0

/-- The ends of lines in a word that do not count. -/
def lostLines : List Piece → Nat
  | [] => 0
  | piece :: pieces => piece.lostLines + lostLines pieces

end

/-! ## Faults -/

/-- What is wrong with a line. -/
inductive SyntaxReason where
  /-- Something was found where it must not stand, and perhaps one thing had to stand there. -/
  | unexpected (found : String) (expected : Option String)
  /-- Something is left open. -/
  | unclosed (what : Unclosed)
  /-- A loop is not over a variable. -/
  | badLoopVariable
  /-- A function has no name that a variable could have. -/
  | badFunctionName
deriving DecidableEq, Repr, Inhabited

/-- What is said about what is wrong with a line. -/
def SyntaxReason.message : SyntaxReason → String
  | unexpected found expected =>
    s!"{found} unexpected" ++ (expected.map fun word => s!" (expecting {word})").getD ""
  | unclosed what => what.message
  | badLoopVariable => "Bad for loop variable"
  | badFunctionName => "Bad function name"

/-- Why a line cannot be read. -/
structure SyntaxFault where
  /-- The number of the line. -/
  line : Nat
  /-- What is wrong with it. -/
  reason : SyntaxReason
deriving DecidableEq, Repr, Inhabited

/-- What is said about a line that cannot be read. -/
def SyntaxFault.message (fault : SyntaxFault) : String := "Syntax error: " ++ fault.reason.message

/-! ## Commands -/

/-- What a redirection does with a channel. -/
inductive RedirectMode where
  /-- It writes a file anew. -/
  | replace
  /-- It writes a file anew, whatever the options say. -/
  | force
  /-- It writes at the end of a file. -/
  | append
  /-- It reads a file. -/
  | read
  /-- It reads a file, which is made if it is missing. -/
  | make
  /-- It takes what another channel is. -/
  | channel
  /-- It reads the word itself. -/
  | text
deriving DecidableEq, Repr, Inhabited

/-- A redirection. -/
structure Redirect where
  /-- The channel. -/
  channel : Nat
  /-- What is done with it. -/
  mode : RedirectMode
  /-- The file, the other channel, or the text. -/
  target : Word
deriving Inhabited

/-- A command. -/
inductive Command where
  /-- Nothing to do. -/
  | nothing
  /-- A call of a program, a function or a built-in command, in a line of the script. -/
  | simple (line : Nat) (assignments : List (String × Word)) (words : List Word)
    (redirects : List Redirect)
  /-- A command with redirections. -/
  | redirected (line : Nat) (command : Command) (redirects : List Redirect)
  /-- Two commands, one after the other. -/
  | sequence (first second : Command)
  /-- The second command runs if the first succeeds. -/
  | both (first second : Command)
  /-- The second command runs if the first fails. -/
  | either (first second : Command)
  /-- A command that fails if it succeeds. -/
  | negated (command : Command)
  /-- The second command reads what the first one writes. -/
  | pipe (first second : Command)
  /-- A command of which nothing but its effects on the host stays. -/
  | subshell (line : Nat) (command : Command)
  /-- A command that runs by itself. -/
  | background (command : Command)
  /-- A choice by a condition. -/
  | conditional (condition consequent alternative : Command)
  /-- A loop as long as a condition holds, or does not hold. -/
  | loop (holds : Bool) (condition body : Command)
  /-- A loop over words, or over the arguments. -/
  | each (line : Nat) (name : String) (words : Option (List Word)) (body : Command)
  /-- A choice by patterns. -/
  | choice (line : Nat) (word : Word) (arms : List (List Word × Command))
  /-- The definition of a function. -/
  | define (name : String) (body : Command)
deriving Inhabited

/-- Two commands, of which the first may be nothing. -/
def Command.andThen : Command → Command → Command
  | nothing, second => second
  | first, nothing => first
  | first, second => sequence first second

end BuildPlanner.Shell
