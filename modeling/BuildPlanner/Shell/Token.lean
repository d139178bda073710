import BuildPlanner.Shell.Word

/-!
# Tokens

A script is first taken apart into words, signs and redirections. A text that the script itself
holds for a redirection starts after the line of the redirection, and is taken out there.
-/

namespace BuildPlanner.Shell

/-- What stands between words. -/
inductive Sign where
  /-- The end of a line. -/
  | newline
  /-- `;` -/
  | semicolon
  /-- `;;` -/
  | endOfArm
  /-- `&` -/
  | ampersand
  /-- `&&` -/
  | both
  /-- `|` -/
  | pipe
  /-- `||` -/
  | either
  /-- `(` -/
  | «open»
  /-- `)` -/
  | close
deriving DecidableEq, Repr, Inhabited

/-- The sign as it is written. -/
def Sign.text : Sign → String
  | newline => "newline"
  | semicolon => ";"
  | endOfArm => ";;"
  | ampersand => "&"
  | both => "&&"
  | pipe => "|"
  | either => "||"
  | «open» => "("
  | close => ")"

/-- What a script is made of. -/
inductive Token where
  /-- A word. -/
  | word (word : Word)
  /-- What stands between words. -/
  | sign (sign : Sign)
  /-- The front of a redirection; its target follows. -/
  | redirect (channel : Nat) (mode : RedirectMode)
  /-- A redirection from a text that the script holds. -/
  | document (channel : Nat) (text : Word)
  /-- A word that cannot be read, as far as it goes. -/
  | faulty (fault : SyntaxFault) (word : Word)
deriving Inhabited

/-- A text that the script holds below the line of its redirection. -/
structure Awaited where
  /-- Whether tabs at the front of its lines do not count. -/
  tabs : Bool
  /-- The word that says where it ends. -/
  last : Word
deriving Inhabited

/-- A token and where it has been read. -/
structure LineToken where
  /-- The number of the line that has been reached when it has been read. -/
  line : Nat
  /-- The token. -/
  token : Token
  /-- The number of characters from its first one to the end of the script; zero if it is not
  written there. -/
  place : Nat := 0
  /-- The characters that follow it. -/
  rest : List Char := []
  /-- The texts that are read below its line because of what stands before it. -/
  awaited : List Awaited := []
  /-- The aliases that it came out of. -/
  origins : List String := []
  /-- Whether an alias is looked for in any case, since one with a blank at its end came before. -/
  isNext : Bool := false
  /-- Whether it cannot be a word of the language, whatever it is. -/
  isBare : Bool := false
deriving Inhabited

/-- The sign at the front. -/
def sign? : List Char → Option (Sign × List Char)
  | '\n' :: rest => some (.newline, rest)
  | ';' :: ';' :: rest => some (.endOfArm, rest)
  | ';' :: rest => some (.semicolon, rest)
  | '&' :: '&' :: rest => some (.both, rest)
  | '&' :: rest => some (.ampersand, rest)
  | '|' :: '|' :: rest => some (.either, rest)
  | '|' :: rest => some (.pipe, rest)
  | '(' :: rest => some (.open, rest)
  | ')' :: rest => some (.close, rest)
  | _ => none

/-- The channel from which commands read. -/
def inputChannel : Nat := 0

/-- The channel to which commands write. -/
def outputChannel : Nat := 1

/-- The channel to which commands write what is wrong. -/
def errorChannel : Nat := 2

/-- The sign of a redirection at the front, with the channel it has where none is named. -/
def redirect? : List Char → Option (Nat × RedirectMode × List Char)
  | '>' :: '>' :: rest => some (outputChannel, .append, rest)
  | '>' :: '&' :: rest => some (outputChannel, .channel, rest)
  | '>' :: '|' :: rest => some (outputChannel, .force, rest)
  | '>' :: rest => some (outputChannel, .replace, rest)
  | '<' :: '<' :: rest => some (inputChannel, .text, rest)
  | '<' :: '&' :: rest => some (inputChannel, .channel, rest)
  | '<' :: '>' :: rest => some (inputChannel, .make, rest)
  | '<' :: rest => some (inputChannel, .read, rest)
  | _ => none

/-- The front of a redirection: the digit of its channel, if it is named, and its sign. -/
def redirection? (cs : List Char) : Option (Nat × RedirectMode × List Char) :=
  let digits := (cs.take 1).takeWhile Char.isDigit
  (redirect? (cs.drop digits.length)).map fun (channel, mode, rest) =>
    (if digits = [] then channel else decimal digits, mode, rest)

/-- Drops the blanks of a line, and line ends after a backslash. -/
def skipBlanks : List Char → List Char
  | ' ' :: rest => skipBlanks rest
  | '\t' :: rest => skipBlanks rest
  | '\\' :: '\n' :: rest => skipBlanks rest
  | cs => cs

/-- The characters of a word without what quotes them. -/
def bareText : Word → List Char
  | [] => []
  | .char c :: rest => c :: bareText rest
  | .quoted text :: rest => text ++ bareText rest
  | .together inner :: rest => inner.flatMap quotedText ++ bareText rest
  | _ :: rest => bareText rest
where
  /-- The characters of a part in double quotes. -/
  quotedText : Piece → List Char
    | .char c => [c]
    | .quoted text => text
    | _ => []

/-- The lines of a text up to one that is the given text, and what follows it. `tabs` says that tabs
at the front of a line do not count; `fuel` bounds the number of lines. -/
def documentLines (tabs : Bool) (last : List Char) : (fuel : Nat) → List Char →
    List Char × List Char
  | 0, cs => ([], cs)
  | _, [] => ([], [])
  | fuel + 1, cs =>
    let line := cs.takeWhile (· != '\n')
    let below := cs.drop line.length
    let line := if tabs then line.dropWhile (· == '\t') else line
    if line = last then ([], below.drop 1)
    else
      let (lines, rest) := documentLines tabs last fuel (below.drop 1)
      (line ++ below.take 1 ++ lines, rest)

/-- A word with the lines of its scripts, where the text that it is read from ends in a line. -/
def placed (last : Nat) (word : Word) : Word := mapLines (last - ·) word

/-- What a text that a script holds leaves open where it leaves something open: quotes stand in
braces there. -/
def inText : Unclosed → Unclosed
  | .quote => .brace
  | what => what

/-- What is read below a line. -/
structure HeldTexts where
  /-- The texts. -/
  texts : List Word := []
  /-- What is wrong with one of them. -/
  fault : Option SyntaxFault := none
  /-- The line after them. -/
  line : Nat
  /-- What follows them. -/
  rest : List Char
deriving Inhabited

/-- Reads the texts that a script holds from a line on. A line that ends a text counts as ended also
where the script ends with it. -/
def heldTexts (line : Nat) (cs : List Char) : List Awaited → HeldTexts
  | [] => { line, rest := cs }
  | awaited :: others =>
    let (lines, after) := documentLines awaited.tabs (bareText awaited.last) (cs.length + 1) cs
    let isAtEnd := after.isEmpty && cs.getLast?.any (· != '\n') && lines.getLast?.all (· == '\n')
    let below := line + (cs.count '\n' - after.count '\n') + (if isAtEnd then 1 else 0)
    let text := if (plain? awaited.last).isSome then
        placed (line + lines.count '\n') (document lines)
      else [.quoted lines]
    let found := heldTexts below after others
    let fault := ((open? text).filter (· != .script)).map fun what =>
      ⟨below, .unclosed (inText what)⟩
    { found with texts := text :: found.texts, fault := fault.or found.fault }

/-- The text that is read after the sign of a redirection, and the rest of the line. Nothing is read
if it is not said where the text ends. -/
def awaited? (cs : List Char) : Option (Awaited × List Char) :=
  let tabs := cs.head? = some '-'
  let (last, rest) := word (skipBlanks (if tabs then cs.drop 1 else cs))
  if last.isEmpty then none else some (⟨tabs, last⟩, rest)

/-- The fault of a word that leaves something open and ends in a line. -/
def openFault? (line : Nat) (word : Word) : Option SyntaxFault :=
  ((open? word).filter (· != .script)).map fun what => ⟨line, .unclosed what⟩

/-- Takes a script apart; `fuel` bounds the number of tokens, `line` is where they start, and
`awaited` are the texts that are read below this line. The texts are part of the answer. Where a
token of `known` stands, which are those of a script that ends in the same way, they are taken. -/
def tokens : (fuel line : Nat) → (awaited : List Awaited) → (known : List LineToken) →
    List Char → List LineToken × List Word
  | 0, _, awaited, _, _ => ([], awaited.map fun _ => [])
  | fuel + 1, line, awaited, known, cs =>
    let shown := skipBlanks cs
    let place := shown.length
    let line := line + (cs.take (cs.length - place)).count '\n'
    let known := known.dropWhile (place < ·.place)
    let noTexts : List Word := awaited.map fun _ => []
    let after (line : Nat) (token : Token) (rest : List Char)
        (read : List LineToken × List Word) : List LineToken × List Word :=
      ({ line, token, place, rest, awaited } :: read.1, read.2)
    let endOf (word : Word) (rest : List Char) : Nat :=
      line + (shown.take (place - rest.length)).count '\n' - lostLines word
    if known.head?.any fun next =>
        next.place = place && next.awaited.length = awaited.length then (known, noTexts)
    else
      match shown with
      | [] => ([], noTexts)
      | '#' :: rest => tokens fuel line awaited known (rest.dropWhile (· != '\n'))
      | cs =>
        match redirection? cs with
        | some (channel, mode, rest) =>
          match if mode = .text then awaited? rest else none with
          | some (text, rest) =>
            let below := endOf text.last rest
            match openFault? below text.last with
            | some fault => after line (.faulty fault text.last) rest ([], noTexts)
            | none =>
              let read := tokens fuel below (awaited ++ [text]) known rest
              after line (.document channel (read.2[awaited.length]?.getD [])) rest read
          | none =>
            after line (.redirect channel mode) rest (tokens fuel line awaited known rest)
        | none =>
          match sign? cs with
          | some (.newline, rest) =>
            let found := heldTexts (line + 1) rest awaited
            let token := match found.fault with
              | some fault => .faulty fault []
              | none => .sign .newline
            let below := (tokens fuel found.line [] known found.rest).1
            after found.line token found.rest (below, found.texts)
          | some (sign, rest) =>
            after line (.sign sign) rest (tokens fuel line awaited known rest)
          | none =>
            let (word, rest) := word cs
            let word := if (scriptsIn word).isEmpty then word
              else placed (line + cs.count '\n') word
            let line := endOf word rest
            match openFault? line word with
            | some fault => after line (.faulty fault word) rest ([], noTexts)
            | none => after line (.word word) rest (tokens fuel line awaited known rest)

/-- The tokens of a script that starts in a line. -/
def tokensFrom (line : Nat) (script : List Char) : List LineToken :=
  (tokens (script.length + 1) line [] [] script).1

/-- The tokens of a script. -/
def tokensOf (script : List Char) : List LineToken := tokensFrom 1 script

/-- The tokens with a text in place of the first one; `name` is what stood for it, and `others` are
those that follow. An alias is looked for in any case behind a text that ends in a blank. -/
def LineToken.replaced (next : LineToken) (name : String) (text : List Char)
    (others : List LineToken) : List LineToken :=
  let below := next.rest.length
  let known := others.map fun other => { other with line := other.line + text.count '\n' }
  let read :=
    (tokens (text.length + below + 1) next.line next.awaited known (text ++ next.rest)).1
  let endsInBlank := text.getLast?.any fun c => c == ' ' || c == '\t'
  let (inside, behind) := read.span (below < ·.place)
  inside.map (fun token => { token with origins := name :: next.origins }) ++
    behind.modifyHead fun token => { token with isNext := token.isNext || endsInBlank }

end BuildPlanner.Shell
