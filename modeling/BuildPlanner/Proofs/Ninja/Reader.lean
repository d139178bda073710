import BuildPlanner.Statement

/-!
# Reading a build description

How the executor reads a description.  A description is a list of lines, where a newline after a
dollar ends no line; a line that starts with `#` is a comment.  The lines that are indented bind
variables for the line before them, which assigns a variable, names a rule or says what is built.

In a text a dollar stands before what it escapes: `$$`, `$ ` and `$:` stand for a dollar, a space
and a colon, a dollar before a newline continues the line, and `$name` and `${name}` refer to a
variable (`symbols`).  In a line that says what is built, the first colon that is not escaped ends
the outputs, and spaces that are not escaped separate paths (`readPaths`).  The values of rules are
kept as they are written; they are evaluated for each block (`Block.command`).

The reader covers what descriptions of builds are made of.  Pools, defaults, included files,
implicit dependencies, carriage returns outside comments and references in the values of blocks are
faults here, so that what it reads is read in the same way by the executor.
-/

namespace BuildPlanner.Ninja

/-! ## Lines -/

/-- What has been read of a line. -/
inductive Scan where
  /-- Spaces at most. -/
  | start
  /-- The start of a comment. -/
  | comment
  /-- The start of another line. -/
  | text
  /-- The start of another line, with a dollar last that escapes what follows. -/
  | escaped
deriving DecidableEq, Repr

/-- What has been read of a line after one more character. -/
def Scan.after : Scan → Char → Scan
  | start, ' ' => start
  | start, '#' => comment
  | comment, _ => comment
  | escaped, _ => text
  | _, '$' => escaped
  | _, _ => text

/-- The lines of a text, where `state` is read of the first; the text after the last newline is a
line too. -/
def linesFrom : Scan → List Char → List (List Char)
  | _, [] => [[]]
  | state, c :: rest =>
    if c = '\n' ∧ state ≠ .escaped then [] :: linesFrom .start rest
    else (linesFrom (state.after c) rest).modifyHead (c :: ·)

/-! ## Escapes and references -/

/-- What a part of a text stands for. -/
inductive Symbol where
  /-- A character that is not escaped. -/
  | plain (c : Char)
  /-- A character that is escaped. -/
  | quoted (c : Char)
  /-- The value of a variable. -/
  | reference (name : List Char)
deriving DecidableEq, Repr

/-- Whether a character may stand in the name of a rule or a variable. -/
def isKeyChar (c : Char) : Bool :=
  Statement.isNameChar c || c == '.'

/-- Reads the escapes and references of a text. -/
def symbols : List Char → Option (List Symbol)
  | [] => some []
  | '\r' :: _ => none
  | '$' :: '$' :: rest => (symbols rest).map (.quoted '$' :: ·)
  | '$' :: ' ' :: rest => (symbols rest).map (.quoted ' ' :: ·)
  | '$' :: ':' :: rest => (symbols rest).map (.quoted ':' :: ·)
  | '$' :: '\n' :: rest => symbols (rest.dropWhile (· = ' '))
  | '$' :: '{' :: rest =>
    let name := rest.takeWhile isKeyChar
    if name = [] ∨ (rest.dropWhile isKeyChar).head? ≠ some '}' then none
    else (symbols ((rest.dropWhile isKeyChar).drop 1)).map (.reference name :: ·)
  | '$' :: rest =>
    let name := rest.takeWhile Statement.isNameChar
    if name = [] then none
    else (symbols (rest.dropWhile Statement.isNameChar)).map (.reference name :: ·)
  | c :: rest => (symbols rest).map (.plain c :: ·)
termination_by text => text.length
decreasing_by
  all_goals simp only [List.length_cons, List.length_drop]
  · omega
  · omega
  · omega
  · have := (List.dropWhile_sublist (l := rest) (· = ' ')).length_le
    omega
  · have := (List.dropWhile_sublist (l := rest) isKeyChar).length_le
    omega
  · have := (List.dropWhile_sublist (l := rest) Statement.isNameChar).length_le
    omega
  · omega

/-- The characters that symbols stand for, where `scope` gives the values of variables. -/
def evaluate (scope : List Char → Option (List Char)) : List Symbol → Option (List Char)
  | [] => some []
  | .plain c :: rest => (evaluate scope rest).map (c :: ·)
  | .quoted c :: rest => (evaluate scope rest).map (c :: ·)
  | .reference name :: rest => do return (← scope name) ++ (← evaluate scope rest)

/-- Reads a value that refers to no variable. -/
def readValue (text : List Char) : Option String :=
  ((symbols text).bind (evaluate fun _ => none)).map .ofList

/-- Reads the paths of a list.  No colon ends it and no bar makes a part of it implicit. -/
def readPaths (list : List Symbol) : Option (List String) :=
  if list.contains (.plain ':') || list.contains (.plain '|') then none
  else ((list.splitOn (.plain ' ')).filter (!·.isEmpty)).mapM fun path =>
    (evaluate (fun _ => none) path).map .ofList

/-! ## Blocks -/

/-- What is built from what, with the variables that are bound for it. -/
structure Block where
  /-- The outputs. -/
  outputs : List Symbol
  /-- The name of the rule. -/
  rule : String
  /-- The inputs. -/
  inputs : List Symbol
  /-- The variables with their values, in the order of the lines. -/
  bindings : List (String × String)
deriving DecidableEq, Repr

/-- What a line stands for, together with the indented lines after it. -/
inductive Item where
  /-- A variable of the whole description. -/
  | assignment (key value : String)
  /-- A rule. -/
  | rule (r : Rule)
  /-- A block. -/
  | block (b : Block)
deriving DecidableEq, Repr

/-- Reads a name and an equals sign; the value is what follows, from its first character that is no
space. -/
def readBinding (line : List Char) : Option (String × List Char) :=
  let text := line.dropWhile (· = ' ')
  let key := text.takeWhile isKeyChar
  match (text.dropWhile isKeyChar).dropWhile (· = ' ') with
  | '=' :: value => if key = [] then none else some (.ofList key, value.dropWhile (· = ' '))
  | _ => none

/-- The last value of a variable. -/
def lastValue (bindings : List (String × List Char)) (key : String) : Option String :=
  (bindings.reverse.lookup key).map .ofList

/-- Whether a rule may bind the variable, with a value whose escapes and references are sound. -/
def isRuleBinding (binding : String × List Char) : Bool :=
  ["command", "depfile", "deps"].contains binding.1 && (symbols binding.2).isSome

/-- Reads a rule from what follows its keyword and from the lines that are indented after it. -/
def readRule (text : List Char) (bindings : List (String × List Char)) : Option Rule := do
  let rest := text.dropWhile (· = ' ')
  let name := rest.takeWhile isKeyChar
  guard (name ≠ [] ∧ (rest.dropWhile isKeyChar).all (· = ' ') ∧ bindings.all isRuleBinding)
  let command ← lastValue bindings "command"
  guard (command ≠ "")
  return { name := .ofList name
           command
           depfile := lastValue bindings "depfile"
           deps := lastValue bindings "deps" }

/-- Whether the symbol is a character of a name. -/
def Symbol.inKey : Symbol → Bool
  | plain c => isKeyChar c
  | _ => false

/-- The characters that are not escaped. -/
def plainChars (list : List Symbol) : List Char :=
  list.filterMap fun symbol =>
    match symbol with
    | .plain c => some c
    | _ => none

/-- Reads what is built from what. -/
def readBlock (text : List Char) (bindings : List (String × List Char)) : Option Block := do
  let list ← symbols text
  let rest := list.dropWhile (· ≠ .plain ':')
  guard (rest ≠ [])
  let afterColon := (rest.drop 1).dropWhile (· = .plain ' ')
  let rule := afterColon.takeWhile Symbol.inKey
  guard (rule ≠ [])
  let values ← bindings.mapM fun (key, value) => (readValue value).map (key, ·)
  return { outputs := list.takeWhile (· ≠ .plain ':')
           rule := .ofList (plainChars rule)
           inputs := afterColon.dropWhile Symbol.inKey
           bindings := values }

/-- Reads an assignment. -/
def readAssignment (line : List Char) : Option Item := do
  let (key, value) ← readBinding line
  return .assignment key (← readValue value)

/-- The words that start lines this reader does not cover. -/
def otherKeywords : List String := ["pool", "default", "include", "subninja"]

/-- Reads a line that is not indented, with the bindings of the lines after it. -/
def readItem (line : List Char) (bindings : List (String × List Char)) : Option Item :=
  let word := String.ofList (line.takeWhile isKeyChar)
  let rest := line.dropWhile isKeyChar
  if word = "rule" then (readRule rest bindings).map .rule
  else if word = "build" then (readBlock rest bindings).map .block
  else if otherKeywords.contains word || !bindings.isEmpty then none
  else readAssignment line

/-! ## Descriptions -/

/-- What has been read of the lines after a point: the bindings of the indented lines that come
first, and the items of the others. -/
abbrev Reading := List (String × List Char) × List Item

/-- Reads one more line before what has been read. -/
def readLine (line : List Char) : Reading → Option Reading
  | (bindings, items) =>
    match line.dropWhile (· = ' ') with
    | [] => if bindings = [] then some ([], items) else none
    | '#' :: _ => some (bindings, items)
    | _ =>
      if line.head? = some ' ' then (readBinding line).map fun b => (b :: bindings, items)
      else (readItem line bindings).map fun item => ([], item :: items)

/-- Reads lines; all but the last ended in a newline, and nothing may stand after the last one. -/
def readLines : List (List Char) → Option Reading
  | [] => none
  | [last] => if last = [] then some ([], []) else none
  | line :: rest => (readLines rest).bind (readLine line)

/-- Reads the lines of a text. -/
def readText (text : List Char) : Option Reading :=
  readLines (linesFrom .start text)

/-- Reads a description. -/
def read (description : String) : Option (List Item) :=
  match readText description.toList with
  | some ([], items) => some items
  | _ => none

/-- What is built from what, with the paths read. -/
structure Step where
  /-- The outputs. -/
  outputs : List String
  /-- The name of the rule. -/
  rule : String
  /-- The inputs. -/
  inputs : List String
  /-- The variables with their values, in the order of the lines. -/
  bindings : List (String × String)
deriving DecidableEq, Repr

/-- What a description says at one place. -/
inductive Entry where
  /-- A variable of the whole description. -/
  | assignment (key value : String)
  /-- A rule. -/
  | rule (r : Rule)
  /-- What is built from what. -/
  | step (s : Step)
deriving DecidableEq, Repr

/-- Reads the paths of a block; something has to be built. -/
def Block.step? (b : Block) : Option Step := do
  let outputs ← readPaths b.outputs
  guard (outputs ≠ [])
  return { outputs, rule := b.rule, inputs := ← readPaths b.inputs, bindings := b.bindings }

/-- Reads the paths of an item. -/
def Item.entry? : Item → Option Entry
  | assignment key value => some (.assignment key value)
  | rule r => some (.rule r)
  | block b => b.step?.map .step

/-- Reads a description with its paths. -/
def readEntries (description : String) : Option (List Entry) :=
  (read description).bind (·.mapM Item.entry?)

/-- The value of a variable in a block: its last binding counts. -/
def Block.value (b : Block) (name : List Char) : Option (List Char) :=
  (b.bindings.reverse.lookup (.ofList name)).map String.toList

/-- The command that runs for a block: the command of its rule, with each reference replaced by the
value that is bound, once. -/
def Block.command (b : Block) (r : Rule) : Option String :=
  ((symbols r.command.toList).bind (evaluate b.value)).map .ofList

/-- The rules among items. -/
def rulesOf (items : List Item) : List Rule :=
  items.filterMap fun item =>
    match item with
    | .rule r => some r
    | _ => none

/-- The blocks among items. -/
def blocksOf (items : List Item) : List Block :=
  items.filterMap fun item =>
    match item with
    | .block b => some b
    | _ => none

/-- The command that a description runs for a block, by the rule that the block names. -/
def commandOf (items : List Item) (b : Block) : Option String :=
  ((rulesOf items).find? (·.name == b.rule)).bind b.command

end BuildPlanner.Ninja
