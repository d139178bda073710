import BuildPlanner.Host
import BuildPlanner.Text.Bytes

/-!
# Programs

A program is named by a path, or by a name that is searched for. A path is taken from the directory
in which the program runs, not from where the run was started. A file that is run names in its
first line the program that runs it, and in the end this is the shell.
-/

namespace BuildPlanner.Host

/-- The program that a path leads to, if it may be run. -/
def program? (h : Host) (p : Path) : Option File :=
  (h.file? p).filter (·.executable)

/-- The first entry of that name in the directories that are searched, if it may be run. -/
def onSearchPath? (h : Host) (name : String) : Option Path :=
  (h.searchPath.map fun directory => directory.entry name).find? fun p => (h.program? p).isSome

/-- The path of the directory where the run was started. -/
def workingPath (h : Host) : Path :=
  ⟨"/" ++ "/".intercalate h.workingDirectory⟩

/-- The steps of a relative path without a dot at its front. -/
def stepsOf (p : Path) : Path :=
  Path.ofComponents (p.components.dropWhile (· == .here))

/-- The program of a given name: a name of several steps is a path, a single one is searched for. -/
def find? (h : Host) (name : String) : Option Path :=
  let p : Path := ⟨name⟩
  if name = "" then none
  else if 1 < p.components.length then
    let absolute := if p.isAbsolute then p else h.workingPath.join (stepsOf p)
    if (h.program? absolute).isSome then some absolute else none
  else h.onSearchPath? name

/-! ## What runs a file -/

/-- Where the shell is. -/
def shellLocations : List Location :=
  [["bin", "sh"], ["usr", "bin", "sh"], ["bin", "dash"], ["usr", "bin", "dash"]]

/-- The program that runs a file, as its first line says, with an argument for it. -/
structure Interpreter where
  /-- The program. -/
  program : Path
  /-- The argument. -/
  argument : Option String
deriving DecidableEq, Repr

/-- Whether a character separates the words of a first line. -/
def separates (c : Char) : Bool := c == ' ' || c == '\t'

/-- The number of bytes of a file that are looked at to find what runs it. -/
def headLength : Nat := 256

/-- What the first line says after its mark, in bytes. Where it does not end in the part that is
looked at, it counts up to there, but what runs the file has to end before. A zero stands for the
end of the file. -/
def directive? (head : List Char) : Option (List Char) :=
  let text := head.takeWhile (· != '\x00')
  let line := text.takeWhile (· != '\n')
  let named := head.dropWhile separates
  if line.length < text.length then some line
  else if head.length < headLength - 2 then some (head ++ ['\x00'])
  else if (named.dropWhile fun c => !separates c && c != '\x00').isEmpty then none
  else some head.dropLast

/-- The program and the argument that a first line names. -/
def interpreterIn? (line : List Char) : Option Interpreter :=
  let line := ((line.reverse.dropWhile separates).reverse).dropWhile separates
  let program := line.takeWhile fun c => !separates c && c != '\x00'
  let text (cs : List Char) : String := Text.ofBytes (.ofList (cs.takeWhile (· != '\x00')))
  let argument := match line.drop program.length with
    | [] | '\x00' :: _ => none
    | after => some (text (after.dropWhile separates))
  if line = [] then none else some ⟨⟨text program⟩, argument⟩

/-- What the first line of a file says that runs it. -/
def interpreter? (content : Content) : Option Interpreter :=
  match content.raw.toList.take headLength with
  | '#' :: '!' :: head => (directive? head).bind interpreterIn?
  | _ => none

/-- The words that the shell is called with to run the program at a path; `fuel` bounds the number
of files that run each other. -/
def launch (h : Host) : (fuel : Nat) → Path → List String → Except TreeFault (List String)
  | fuel, p, arguments =>
    match h.spot p with
    | .error fault => .error fault
    | .ok ⟨_, none⟩ => .error .notFound
    | .ok ⟨_, some .directory⟩ => .error .notExecutable
    | .ok ⟨location, some (.file file)⟩ =>
      if !file.executable then .error .notExecutable
      else
        match fuel with
        | 0 => .error .tooManyLevels
        | fuel + 1 =>
          if shellLocations.contains location then .ok arguments
          else
            match interpreter? file.content with
            | none => .error .badFormat
            | some interpreter =>
              launch h fuel interpreter.program
                (interpreter.argument.toList ++ p.text :: arguments)

/-- The most files that run each other. -/
def maxInterpreters : Nat := 6

end BuildPlanner.Host
