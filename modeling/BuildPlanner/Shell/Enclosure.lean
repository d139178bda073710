import BuildPlanner.Shell.Syntax

/-!
# What is enclosed

A script whose output is put into a word goes up to the parenthesis that closes it. On the way there
are quotes, comments and braces, in which a parenthesis closes nothing, and the patterns of a
choice, each of which ends in a parenthesis that nothing opens.
-/

namespace BuildPlanner.Shell

/-- What is open at some place of a script. -/
inductive Enclosure where
  /-- Parentheses, which may be part of a word. -/
  | parentheses (inWord : Bool)
  /-- The arms of a choice by patterns. -/
  | arms
  /-- The braces of a parameter; in quotes single ones mean nothing. -/
  | braces (quoted : Bool)
  /-- Single quotes. -/
  | single
  /-- Double quotes. -/
  | double
  /-- Backquotes. -/
  | backquotes
  /-- A comment. -/
  | comment
  /-- The parentheses of an expression. -/
  | expression
  /-- A text that the script holds. -/
  | document
deriving DecidableEq, Repr, Inhabited

/-- A scan of a script. -/
structure Scan where
  /-- What is open, the innermost first. -/
  isOpen : List Enclosure := []
  /-- The word that goes on, the last character first. -/
  word : List Char := []
  /-- Whether a command may start with this word. -/
  isFirst : Bool := true
  /-- The lines that end the texts that the script holds below this line; the flag says that tabs in
  front do not count. -/
  held : List (Bool × List Char) := []
deriving Repr, Inhabited

/-- The words after which a command may start. -/
def leadingWords : List (List Char) :=
  ["if", "then", "else", "elif", "do", "while", "until", "!", "in", "\x7b"].map String.toList

/-- The line that ends a text, as it stands after the sign of the text. -/
def lastLine (cs : List Char) : Bool × List Char :=
  let tabs := cs.head? = some '-'
  let word := (if tabs then cs.drop 1 else cs).dropWhile fun c => c == ' ' || c == '\t'
  let shown := word.takeWhile fun c => !(" \t\n;&|<>()".toList.contains c)
  (tabs, shown.filter fun c => !("'\"\\".toList.contains c))

namespace Scan

/-- Ends the word that goes on. The words of a choice open and close its arms. -/
def endWord (s : Scan) : Scan :=
  let word := s.word.reverse
  let s := { s with word := [], isFirst := if word = [] then s.isFirst else false }
  if leadingWords.contains word then { s with isFirst := true }
  else s

/-- What is open after the word that goes on. -/
def afterWord (s : Scan) : List Enclosure :=
  if s.isFirst && s.word.reverse = "case".toList then .arms :: s.isOpen
  else if s.isFirst && s.word.reverse = "esac".toList && s.isOpen.head? = some .arms then
    s.isOpen.tail
  else s.isOpen

/-- Ends the word that goes on, before a character that may start a command or not. -/
def separate (s : Scan) ( startsCommand : Bool) : Scan :=
  let s := { s.endWord with isOpen := s.afterWord }
  if startsCommand then { s with isFirst := true } else s

/-- The scan inside of something that a character opens. -/
def enter (s : Scan) (c : Char) (what : Enclosure) : Scan :=
  { s with isOpen := what :: s.isOpen, word := c :: s.word }

/-- The scan after the innermost enclosure. -/
def leave (s : Scan) (c : Char) : Scan := { s with isOpen := s.isOpen.tail, word := c :: s.word }

/-- The scan after a character that means nothing else. -/
def pass (s : Scan) (c : Char) : Scan := { s with word := c :: s.word }

/-- The scan after the end of a line. -/
def newline (s : Scan) : Scan :=
  let s := s.separate true
  if s.held.isEmpty then s else { s with isOpen := .document :: s.isOpen }

/-- The scan after the end of a line of a text. -/
def heldLine (s : Scan) : Scan :=
  let line := s.word.reverse
  let s := { s with word := [] }
  match s.held with
  | (tabs, last) :: others =>
    if (if tabs then line.dropWhile (· == '\t') else line) = last then
      { s with held := others, isOpen := if others.isEmpty then s.isOpen.tail else s.isOpen }
    else s
  | [] => { s with isOpen := s.isOpen.tail }

/-- The scan after a character where commands stand. -/
def command (s : Scan) (c : Char) : Scan :=
  match c with
  | ' ' | '\t' | '<' | '>' => s.separate false
  | ';' | '&' | '|' => s.separate true
  | '\n' => s.newline
  | '(' =>
    let s := s.separate true
    { s with isOpen := .parentheses false :: s.isOpen }
  | ')' =>
    let s := s.separate true
    match s.isOpen.head? with
    | some .arms => s
    | some (.parentheses true) => { s.leave c with isFirst := false }
    | _ => { s with isOpen := s.isOpen.tail, isFirst := false }
  | '#' => if s.word = [] then { s with isOpen := .comment :: s.isOpen } else s.pass c
  | '\'' => s.enter c .single
  | '"' => s.enter c .double
  | '`' => s.enter c .backquotes
  | _ => s.pass c

/-- The scan after a character, inside of what is open. -/
def step (s : Scan) (c : Char) : Scan :=
  match s.isOpen.head? with
  | some .single => if c = '\'' then s.leave c else s
  | some .backquotes => if c = '`' then s.leave c else s
  | some .double => if c = '"' then s.leave c else if c = '`' then s.enter c .backquotes else s
  | some (.braces quoted) =>
    if c = '\x7d' then s.leave c
    else if c = '\'' && !quoted then s.enter c .single
    else if c = '"' then s.enter c .double
    else if c = '`' then s.enter c .backquotes
    else s
  | some .comment => if c = '\n' then { s with isOpen := s.isOpen.tail }.newline else s
  | some .expression =>
    if c = '(' then { s with isOpen := .expression :: s.isOpen }
    else if c = ')' then s.leave c
    else if c = '`' then s.enter c .backquotes
    else s
  | some .document => if c = '\n' then s.heldLine else s.pass c
  | _ => s.command c

/-- The scan after a character that is quoted by a backslash. -/
def quoted (s : Scan) (c : Char) : Scan :=
  match s.isOpen.head? with
  | some .single => if c = '\'' then s.leave c else s
  | some .comment => s.step c
  | some .document => (s.step '\\').step c
  | _ => s.pass '\\'

/-- The scan after the sign of a text, where this is one. -/
def holds (s : Scan) (rest : List Char) : Scan :=
  match s.isOpen.head? with
  | none | some (.parentheses _) | some .arms =>
    { s.separate false with held := s.held ++ [lastLine rest] }
  | _ => (s.step '<').step '<'

/-- Whether braces are in quotes that start with the given characters; those with a pattern never
are. -/
def bracesIn (s : Scan) (rest : List Char) : Enclosure :=
  let after := match rest with
    | c :: others => if startsName c then others.dropWhile isNameChar else others
    | [] => []
  let takesPattern := after.head? = some '#' || after.head? = some '%'
  let inQuotes := s.isOpen.head? = some .double || s.isOpen.head? = some (.braces true)
  .braces (inQuotes && !takesPattern)

/-- The scan after a dollar and an opening character, if this means anything, before others. -/
def dollar? (s : Scan) (c : Char) (rest : List Char) : Option Scan :=
  match s.isOpen.head?, c with
  | some .single, _ | some .backquotes, _ | some .comment, _ | some .document, _ => none
  | _, '(' =>
    some { s with isOpen := .parentheses true :: s.isOpen, word := [], isFirst := true }
  | _, '\x7b' => some (s.enter c (s.bracesIn rest))
  | _, _ => none

/-- Whether a character closes what was open before the scan. -/
def closes (s : Scan) (c : Char) : Bool :=
  c == ')' && (s.separate false).isOpen.isEmpty

end Scan

/-- Splits at the parenthesis that closes a script. -/
def closing? (s : Scan) : List Char → Option (List Char × List Char)
  | [] => none
  | '\\' :: c :: rest => after ['\\', c] (closing? (s.quoted c) rest)
  | '<' :: '<' :: rest => after ['<', '<'] (closing? (s.holds rest) rest)
  | '$' :: '(' :: '(' :: rest =>
    let inner := (s.dollar? '(' rest).map fun s =>
      { s with isOpen := .expression :: .expression :: s.isOpen.tail }
    after ['$', '(', '('] (closing? (inner.getD s) rest)
  | '$' :: c :: rest =>
    match s.dollar? c rest with
    | some inner => after ['$', c] (closing? inner rest)
    | none => after ['$'] (closing? (s.step '$') (c :: rest))
  | c :: rest => if s.closes c then some ([], rest) else after [c] (closing? (s.step c) rest)
where
  /-- Puts characters in front of what is enclosed. -/
  after (cs : List Char) (found : Option (List Char × List Char)) :
      Option (List Char × List Char) :=
    found.map fun (inside, rest) => (cs ++ inside, rest)

/-- Splits at the two parentheses that close an expression; one by itself closes nothing that is
not open. `fuel` bounds the number of characters. -/
def closingTwo? (depth : Nat) : (fuel : Nat) → List Char → Option (List Char × List Char)
  | 0, _ => none
  | _, [] => none
  | fuel + 1, cs =>
    let next (depth count : Nat) : Option (List Char × List Char) :=
      closing?.after (cs.take count) (closingTwo? depth fuel (cs.drop count))
    match cs with
    | '\\' :: _ :: _ => next depth 2
    | '$' :: '(' :: '(' :: rest =>
      match closingTwo? 0 fuel rest with
      | some (inside, _) => next depth (inside.length + 5)
      | none => none
    | '$' :: '(' :: rest =>
      match closing? {} rest with
      | some (inside, _) => next depth (inside.length + 3)
      | none => none
    | '(' :: _ => next (depth + 1) 1
    | ')' :: rest =>
      match depth, rest with
      | 0, ')' :: after => some ([], after)
      | 0, _ => next 0 1
      | depth + 1, _ => next depth 1
    | _ => next depth 1

end BuildPlanner.Shell
