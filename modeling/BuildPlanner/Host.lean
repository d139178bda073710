import BuildPlanner.Path.Basic
import BuildPlanner.Tree.Basic
import BuildPlanner.Tree.Fault

/-!
# Hosts

What a run sees of the machine that it runs on: a directory tree, the directory in which it was
started, the user's home, the directories that are searched for programs, the time, and what
programs have written. A path is followed step by step through the tree, so every directory on the
way has to be there, also before a step up. The operations return the changed host, or the fault
that left it unchanged.
-/

namespace BuildPlanner

/-- The machine as a run sees it. -/
structure Host where
  /-- The files. -/
  tree : Tree
  /-- Where the run was started. -/
  workingDirectory : Location
  /-- The home of the user. -/
  home : Path
  /-- The directories that are searched for programs. -/
  searchPath : List Path
  /-- The time, in seconds. -/
  clock : Int
  /-- What programs have written to the output of the run. -/
  output : String
  /-- What programs have written to the errors of the run, and what was reported while it ran. -/
  errors : String
  /-- Whether details are reported. -/
  isVerbose : Bool
deriving Inhabited

/-- The place that a path leads to. -/
structure Spot where
  /-- Where it is; its parent is a directory. -/
  location : Location
  /-- What stands there, if anything. -/
  node : Option Node
deriving DecidableEq, Repr

/-- The longest name of a directory entry, in bytes. -/
def maxNameLength : Nat := 255

/-- The longest path, in bytes. -/
def maxPathLength : Nat := 4095

/-- The way from the top of a tree to a place in it: the names and what stands there, the last
first. -/
abbrev Way := List (String × Tree)

/-- The location that a way leads to. -/
def Way.location (way : Way) : Location := (way.map (·.1)).reverse

/-- What stands at the end of a way from the top of a tree. -/
def Way.last (t : Tree) (way : Way) : Tree := (way.head?.map (·.2)).getD t

/-- The way that goes on to a location below what stands at its end. -/
def Tree.way? (t : Tree) (way : Way) : Location → Option Way
  | [] => some way
  | name :: rest => ((way.last t).children.lookup name).bind fun next =>
    t.way? ((name, next) :: way) rest

/-- Follows the pieces of a path from the end of a way. -/
def Tree.follow (t : Tree) (way : Way) : List (List Char) → Except TreeFault Spot
  | [] => .ok ⟨way.location, some (way.last t).top⟩
  | piece :: pieces =>
    match way.last t with
    | .file _ => .error .notDirectory
    | .directory children =>
      match Component.ofPiece? piece with
      | some .up => t.follow (way.drop 1) pieces
      | some (.name name) =>
        if maxNameLength < name.utf8ByteSize then .error .nameTooLong
        else
          match children.lookup name, pieces with
          | some next, _ => t.follow ((name, next) :: way) pieces
          | none, [] => .ok ⟨way.location ++ [name], none⟩
          | none, _ :: _ => .error .notFound
      | _ => t.follow way pieces

namespace Host

/-- Where relative paths start. -/
def origin (h : Host) (p : Path) : Location :=
  if p.isAbsolute then [] else h.workingDirectory

/-- Where a path leads if every directory on its way is there. -/
def namedLocation (h : Host) (p : Path) : Location :=
  p.components.foldl step (h.origin p)
where
  /-- Where one more component leads. -/
  step (location : Location) : Component → Location
    | .name name => location ++ [name]
    | .up => location.dropLast
    | _ => location

/-- The fault of a path that no system call takes. -/
def pathFault? (p : Path) : Option TreeFault :=
  if p.text.toList.contains '\x00' then some .nulInPath
  else if p.text = "" then some .notFound
  else if maxPathLength < p.text.utf8ByteSize then some .nameTooLong
  else none

/-- The place that the given pieces of a path lead to. -/
def followPieces (h : Host) (p : Path) (pieces : List (List Char)) : Except TreeFault Spot :=
  match pathFault? p with
  | some fault => .error fault
  | none =>
    match h.tree.way? [] (h.origin p) with
    | some way => h.tree.follow way pieces
    | none => .error .notFound

/-- The place that a path leads to. -/
def spot (h : Host) (p : Path) : Except TreeFault Spot :=
  h.followPieces p p.pieces

/-- What stands where a path leads to. -/
def node (h : Host) (p : Path) : Except TreeFault Node :=
  match h.spot p with
  | .error fault => .error fault
  | .ok ⟨_, none⟩ => .error .notFound
  | .ok ⟨_, some node⟩ => .ok node

/-- Whether a path leads to something. -/
def exists? (h : Host) (p : Path) : Bool :=
  h.node p matches .ok _

/-- The file that a path leads to, if there is one. -/
def file? (h : Host) (p : Path) : Option File :=
  match h.node p with
  | .ok (.file file) => some file
  | _ => none

/-- Whether a path leads to a file. -/
def isFile (h : Host) (p : Path) : Bool :=
  (h.file? p).isSome

/-- Whether a path leads to a directory. -/
def isDirectory (h : Host) (p : Path) : Bool :=
  h.node p matches .ok .directory

/-- The names in the directory that a path leads to, in ascending order; nothing else has names. -/
def names (h : Host) (p : Path) : List String :=
  match h.spot p with
  | .ok ⟨location, some .directory⟩ => h.tree.names location
  | _ => []

/-- What the file holds that a path leads to. -/
def content (h : Host) (p : Path) : Except TreeFault Content :=
  match h.node p with
  | .error fault => .error fault
  | .ok .directory => .error .isDirectory
  | .ok (.file file) => .ok file.content

/-- The text that the file holds that a path leads to. -/
def read (h : Host) (p : Path) : Except TreeFault String :=
  match h.content p with
  | .error fault => .error fault
  | .ok (.bytes _) => .error .notText
  | .ok (.text text) => .ok text

/-- The host with a node put at a location. -/
def put (h : Host) (location : Location) (node : Node) : Host :=
  { h with tree := h.tree.put location node }

/-- Whether a path ends in a slash. -/
def endsInSlash (p : Path) : Bool :=
  p.text.toList.getLast? == some '/'

/-- The pieces of a path without the empty ones at its end. -/
def solidPieces (p : Path) : List (List Char) :=
  (p.pieces.reverse.dropWhile (· == [])).reverse

/-- The place where a file can be written: a path with a slash at its end names a directory. -/
def fileSpot (h : Host) (p : Path) : Except TreeFault Spot :=
  if endsInSlash p then
    match h.followPieces p (solidPieces p) with
    | .error fault => .error fault
    | .ok _ => .error .isDirectory
  else
    match h.spot p with
    | .ok ⟨_, some .directory⟩ => .error .isDirectory
    | result => result

/-- Writes a file, which keeps whether it is executable. -/
def write (h : Host) (p : Path) (text : String) : Except TreeFault Host := do
  let spot ← h.fileSpot p
  let executable := ((spot.node.bind Node.file?).map (·.executable)).getD false
  return h.put spot.location (.file ⟨.text text, h.clock, executable⟩)

/-- Copies a file over another, with whether it is executable. -/
def copy (h : Host) (source destination : Path) : Except TreeFault Host := do
  match ← h.node source with
  | .directory => throw .isDirectory
  | .file file =>
    let spot ← h.fileSpot destination
    return h.put spot.location (.file { file with modified := h.clock })

/-- Makes a directory. -/
def makeDirectory (h : Host) (p : Path) : Except TreeFault Host := do
  match ← h.followPieces p (solidPieces p) with
  | ⟨_, some _⟩ => throw .exists
  | ⟨location, none⟩ => return h.put location .directory

/-- Removes the file, or the directory with all that it holds, that a path leads to. -/
def remove (h : Host) (p : Path) : Except TreeFault Host := do
  match ← h.spot p with
  | ⟨_, none⟩ => throw .notFound
  | ⟨location, some _⟩ => return { h with tree := h.tree.erase location }

/-- Sets the time of a file, and whether it is executable. -/
def mark (h : Host) (p : Path) (modified : Int) (executable : Bool) : Except TreeFault Host := do
  match ← h.spot p with
  | ⟨location, some (.file file)⟩ =>
    return h.put location (.file { file with modified, executable })
  | ⟨_, some .directory⟩ => return h
  | ⟨_, none⟩ => throw .notFound

end Host

/-- An activity on a host, which may fail; what it did before it failed stays done. -/
abbrev Activity (ε α : Type) : Type := ExceptT ε (StateM Host) α

namespace Activity

variable {ε ε' α : Type}

/-- The activity that changes the host in one step. -/
def ofStep (step : Host → Except ε Host) : Activity ε Unit := fun h =>
  match step h with
  | .ok after => (.ok (), after)
  | .error fault => (.error fault, h)

/-- The activity that looks at the host and leaves it as it is. -/
def ofView (view : Host → Except ε α) : Activity ε α := fun h => (view h, h)

/-- The activity with its faults seen as others. -/
def mapFault (f : ε → ε') (a : Activity ε α) : Activity ε' α := fun h =>
  match a h with
  | (.ok value, after) => (.ok value, after)
  | (.error fault, after) => (.error (f fault), after)

end Activity

end BuildPlanner
