import BuildPlanner.Shell.Arithmetic
import BuildPlanner.Shell.State
import BuildPlanner.Shell.Trimming

/-!
# What words stand for

A word stands for a list of texts. First its parts are replaced by what they stand for; then it is
split where the value of a parameter that was not quoted has blanks; and then a text with wildcards
that were not quoted is replaced by the paths that match it, if there are any.
-/

namespace BuildPlanner.Shell

open Act

/-- A part of what a word stands for. -/
inductive Mark where
  /-- A character, whether it was quoted, and whether it came out of a parameter. -/
  | char (c : Char) (quoted fromValue : Bool)
  /-- Something stood here, even if it was empty. -/
  | something
  /-- Here one argument ends and the next begins. -/
  | edge
deriving DecidableEq, Repr, Inhabited

/-- The characters that blanks of values are split at where no others are set. -/
def defaultSplitters : String := " \t\n"

/-- The characters that values are split at. -/
def splitters : Act (List Char) := do
  return ((← variableValue "IFS").getD defaultSplitters).toList

/-- The text that joins arguments. -/
def joiner : Act String := do
  return .ofList ((← splitters).take 1)

/-- The options that are set, as a parameter. -/
def flagsOf (s : State) : String :=
  .ofList ("pubaCEVvxsnmiIfe".toList.filter s.has)

/-- The value of a parameter. -/
def valueOf (p : Parameter) : Act (Option String) := do
  let s ← get
  match p with
  | .argument 0 => return some s.name
  | .argument (number + 1) => return s.arguments[number]?
  | .count => return some (toString s.arguments.length)
  | .all _ =>
    let text := (← joiner).intercalate s.arguments
    return some text
  | .status => return some (toString s.status)
  | .flags => return some (flagsOf s)
  | .process => return some (toString s.process)
  | .background => return s.lastJob.map toString
  | .named name => return s.table.value? name

/-- A parameter as messages name it. -/
def Parameter.shown : Parameter → String
  | argument number => toString number
  | count => "#"
  | all joined => if joined then "*" else "@"
  | Parameter.status => "?"
  | process => "$"
  | flags => "-"
  | background => "!"
  | Parameter.named name => name

/-- The marks of a text. -/
def marksOf (inQuotes : Bool) (text : String) : List Mark :=
  text.toList.map fun c => .char c inQuotes (!inQuotes)

/-- The marks of arguments that stay apart. -/
def marksApart (inQuotes : Bool) (texts : List String) : List Mark :=
  let each := texts.map fun text =>
    if inQuotes then .something :: marksOf true text else marksOf false text
  List.intercalate [.edge] each

/-- The marks of the value of a parameter; `apart` says that arguments stay apart. -/
def valueMarks (apart inQuotes : Bool) (p : Parameter) : Act (List Mark) := do
  match p, apart, inQuotes with
  | .all false, true, _ | .all true, true, false =>
    return marksApart inQuotes (← get).arguments
  | _, _, _ =>
    match ← valueOf p with
    | some value => return marksOf inQuotes value
    | none =>
      match (← get).has 'u', p with
      | true, .argument _ | true, .named _ | true, .background =>
        fail s!"{p.shown}: parameter not set"
      | _, _ => return []

/-- The text of marks. -/
def textOf (marks : List Mark) : String :=
  .ofList (marks.filterMap fun
    | .char c _ _ => some c
    | _ => none)

/-- The characters of marks, and whether they were quoted. -/
def fieldOf (marks : List Mark) : Field :=
  marks.filterMap fun
    | .char c quoted _ => some (c, quoted)
    | _ => none

/-- The pattern of marks. -/
def patternOf (marks : List Mark) : List Glob.Token := Pattern.ofField (fieldOf marks)

/-- Marks without a number of characters at their start. -/
def dropMarks : Nat → List Mark → List Mark
  | 0, marks => marks
  | _, [] => []
  | number, .something :: marks => .something :: dropMarks number marks
  | number + 1, _ :: marks => dropMarks number marks

/-- Marks up to a number of characters. -/
def takeMarks : Nat → List Mark → List Mark
  | _, [] => []
  | number, .something :: marks => .something :: takeMarks number marks
  | 0, _ => []
  | number + 1, mark :: marks => mark :: takeMarks number marks

/-- Marks without a part that a pattern matches. -/
def trimmed (trim : Trim) (pattern : Field) (marks : List Mark) : List Mark :=
  let texts := (marks.splitOn .edge).map fieldOf
  let tokens := Pattern.ofField pattern
  match texts, trim.atStart with
  | [text], true => dropMarks (startLength trim.isLongest tokens (text.map (·.1))) marks
  | [text], false => takeMarks (lengthBefore trim.isLongest tokens (text.map (·.1))) marks
  | _, _ =>
    let count := (texts.map (·.length + 1)).foldl (· + ·) 0 - 1
    match (Row.of texts pattern).find? trim count with
    | some number => if trim.atStart then dropMarks number marks else takeMarks number marks
    | none => marks

/-- Marks as they are where a word is used for a value. -/
def asValue (marks : List Mark) : List Mark :=
  marks.map fun
    | .char c false _ => .char c false true
    | mark => mark

/-- What has been written as a part of a word: zeros and the line ends at its end do not count. -/
def partOf (written : String) : String :=
  let kept := written.toList.filter (· != '\x00')
  .ofList (kept.reverse.dropWhile (· == '\n')).reverse

/-- What is said about a parameter without a value where none is said. -/
def missingValue (strict : Bool) : String :=
  if strict then "parameter not set or null" else "parameter not set"

/-! ## Homes -/

/-- Whether parts of a word start with a tilde that stands for the home directory. -/
def startsAtHome : Word → Bool
  | [.char '~'] | .char '~' :: .char '/' :: _ => true
  | _ => false

/-- The value of an assignment with the home directory in place of each tilde at its start or after
a colon. -/
def withHomes (home : Option String) : ( isStart : Bool) → Word → Word
  | _, [] => []
  | true, .char '~' :: rest =>
    let others := withHomes home false rest
    match home, rest with
    | some home, [] | some home, .char '/' :: _ | some home, .char ':' :: _ =>
      .quoted home.toList :: others
    | _, _ => .char '~' :: others
  | _, .char ':' :: rest => .char ':' :: withHomes home true rest
  | _, piece :: rest => piece :: withHomes home false rest

/-! ## Parts of words -/

mutual

/-- What a part of a word stands for. `run` runs a script, and `apart` says that arguments stay
apart. -/
def expandPiece (run : InnerScript → Act Unit) (apart inQuotes : Bool) :
    Piece → Act (List Mark)
  | .char c => return [.char c inQuotes false]
  | .quoted text => return .something :: text.map fun c => .char c true false
  | .unknown .. => fail "Bad substitution"
  | .unclosed .. => return []
  | .together inner => do
    let marks ← expandPieces run apart true none inner
    let isAll := match inner with
      | [.parameter (.all false) .value _] => true
      | _ => false
    return if isAll && marks.isEmpty then [] else .something :: marks
  | .output script => do
    let written ← capture none (run script)
    noteEnd
    return marksOf inQuotes (partOf written.text)
  | .arithmetic expression => do
    let text := textOf (← expandPieces run false true none expression)
    match Arithmetic.valueOf text.toList (← get).table.values with
    | .ok (value, assigned) =>
      assigned.forM fun (name, value) => setVariable name value
      return marksOf inQuotes (toString value)
    | .error fault => fail (fault.message text)
  | .parameter p operator word => do
    let value ← valueOf p
    let isGiven (strict : Bool) : Bool := value.any fun value => !strict || value != ""
    let home ← variableValue "HOME"
    let start := if inQuotes then none else home
    match operator with
    | .value => valueMarks apart inQuotes p
    | .length => return marksOf inQuotes (toString (textOf (← valueMarks false true p)).length)
    | .orWord strict =>
      if isGiven strict then valueMarks apart inQuotes p
      else return asValue (← expandPieces run apart inQuotes start word)
    | .ifSet strict =>
      if isGiven strict then return asValue (← expandPieces run apart inQuotes start word)
      else return []
    | .orAssign strict =>
      if isGiven strict then valueMarks apart inQuotes p
      else
        let text := textOf (← expandPieces run false inQuotes start word)
        match p with
        | .named name => setVariable name text
        | _ => fail s!"{p.shown}: bad variable name"
        return marksOf inQuotes text
    | .orFail strict =>
      if isGiven strict then valueMarks apart inQuotes p
      else
        let text := textOf (← expandPieces run false inQuotes start word)
        let reason := if text = "" then missingValue strict else text
        fail s!"{p.shown}: {reason}"
    | .withoutStart longest =>
      let marks ← valueMarks apart inQuotes p
      if value.isNone then return []
      return trimmed ⟨true, longest⟩ (fieldOf (← expandPieces run false false home word)) marks
    | .withoutEnd longest =>
      let marks ← valueMarks apart inQuotes p
      if value.isNone then return []
      return trimmed ⟨false, longest⟩ (fieldOf (← expandPieces run false false home word)) marks

/-- What parts of a word stand for; if `home` is given, a tilde at the start stands for it. -/
def expandPieces (run : InnerScript → Act Unit) (apart inQuotes : Bool)
    (home : Option String) : List Piece → Act (List Mark)
  | [] => return []
  | piece :: pieces => do
    let first ← match if startsAtHome (piece :: pieces) then home else none with
      | some home => pure (.something :: marksOf true home)
      | none => expandPiece run apart inQuotes piece
    return first ++ (← expandPieces run apart inQuotes none pieces)

end

/-! ## Splitting -/

/-- The texts that have been split off so far. -/
structure Splitting where
  /-- Those that are complete, the latest first. -/
  complete : List Field := []
  /-- The one that goes on, from its end. -/
  current : Option Field := none
  /-- Whether a blank ended the last one. -/
  afterBlank : Bool := false

namespace Splitting

/-- Ends the text that goes on. -/
def close (s : Splitting) : Splitting :=
  match s.current with
  | some field => { s with complete := field.reverse :: s.complete, current := none }
  | none => s

/-- Takes the next mark. -/
def take (splitters : List Char) (s : Splitting) : Mark → Splitting
  | .edge => { s.close with afterBlank := false }
  | .something => { s with current := some (s.current.getD []), afterBlank := false }
  | .char c quoted fromValue =>
    if fromValue && splitters.contains c then
      if defaultSplitters.toList.contains c then
        { s.close with afterBlank := s.afterBlank || s.current.isSome }
      else if s.current.isNone && s.afterBlank then { s with afterBlank := false }
      else { { s with current := some (s.current.getD []) }.close with afterBlank := false }
    else { s with current := some ((c, quoted) :: s.current.getD []), afterBlank := false }

end Splitting

/-- Splits marks into texts. -/
def split (splitters : List Char) (marks : List Mark) : List Field :=
  (marks.foldl (Splitting.take splitters) {}).close.complete.reverse

/-! ## Paths -/

/-- The paths that a further component leads to from others. -/
def pathsBelow (h : Host) (component : Field) (starts : List String) : List String :=
  if Pattern.hasWildcards component then
    let pattern := Pattern.ofField component
    let hidden := component.head?.any (·.1 == '.')
    starts.flatMap fun start =>
      let directory := pathOf (if start = "" then "." else start)
      let names := (h.names directory).map Text.bytes
      let names := if hidden && h.isDirectory directory then "." :: ".." :: names else names
      (names.filter fun name =>
        (hidden || name.toList.head? != some '.') && Glob.isMatch pattern name.toList).map
          (start ++ ·)
  else starts.map (· ++ .ofList (component.map (·.1)))

/-- The paths that components lead to, with slashes between them. -/
def pathsOf (h : Host) : List Field → List String → List String
  | [], starts => starts
  | [last], starts => pathsBelow h last starts
  | component :: rest, starts => pathsOf h rest ((pathsBelow h component starts).map (· ++ "/"))

/-- The texts that a text stands for: the paths that match it, in ascending order, or else itself. -/
def paths (s : State) (field : Field) : List String :=
  let itself := String.ofList (field.map (·.1))
  if Pattern.hasWildcards field && !s.has 'f' then
    let all := pathsOf s.host (field.splitOnP (·.1 == '/')) [""]
    let found := all.filter fun p => s.host.exists? (pathOf p)
    if found.isEmpty then [itself] else found.mergeSort fun a b => decide (a ≤ b)
  else [itself]

/-! ## Words -/

/-- What a word stands for where a tilde may stand for the home directory. -/
def marksOfWord (run : InnerScript → Act Unit) (apart : Bool) (word : Word) :
    Act (List Mark) := do
  expandPieces run apart false (← variableValue "HOME") word

/-- The texts that a word stands for. -/
def fieldsOf (run : InnerScript → Act Unit) (word : Word) : Act (List String) := do
  let marks ← marksOfWord run true word
  return (split (← splitters) marks).flatMap (paths (← get))

/-- The texts that words stand for. -/
def fieldsOfAll (run : InnerScript → Act Unit) : List Word → Act (List String)
  | [] => return []
  | word :: words => do
    let first ← fieldsOf run word
    return first ++ (← fieldsOfAll run words)

/-- The one text that a word stands for where it is not split. -/
def textOfWord (run : InnerScript → Act Unit) (word : Word) : Act String := do
  return textOf (← marksOfWord run false word)

/-- The pattern that a word stands for. -/
def patternOfWord (run : InnerScript → Act Unit) (word : Word) : Act (List Glob.Token) := do
  return patternOf (← marksOfWord run false word)

/-- The text that the value of an assignment stands for. -/
def assignedText (run : InnerScript → Act Unit) (value : Word) : Act String := do
  let value := withHomes (← variableValue "HOME") true value
  return textOf (← expandPieces run false false none value)

/-- The text that a word stands for in double quotes. -/
def textOfQuoted (run : InnerScript → Act Unit) (word : Word) : Act String := do
  return textOf (← expandPieces run false true none word)

end BuildPlanner.Shell
