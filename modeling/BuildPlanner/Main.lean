import BuildPlanner.CommandLine
import Std.Data.HashMap

/-!
# The program

The rim of the program: what a run may look at is read from the machine into a `Host`, the command
line is run there, and what has changed in the tree is written back. Programs of the machine are
not started; on the host, one that fails stands in for each of them.
-/

namespace BuildPlanner.Machine

/-! ## Paths of the machine -/

/-- The location that an absolute path leads to. -/
def locationOf (path : String) : Location :=
  (path.splitOn "/").filter (· != "")

/-- The path that leads to a location. -/
def pathOf (location : Location) : String :=
  "/" ++ "/".intercalate location

/-- A location and those above it, the nearest first. -/
def upwards (location : Location) : List Location :=
  ((List.range (location.length + 1)).map location.take).reverse

/-! ## Reading -/

/-- The entries of a host's tree that are read from the machine. -/
abbrev Entries := List (Location × Node)

/-- What stands in for a program of the machine. -/
def standIn : File := ⟨.text "#!/bin/sh\nexit 126\n", 0, true⟩

/-- The directories on the way to a location, and the one that is there. -/
def directoriesTo (location : Location) : Entries :=
  (upwards location).map fun above => (above, .directory)

/-- Whether a file is at a location. -/
def isFile (location : Location) : IO Bool := do
  try
    return (← (← IO.FS.realPath (pathOf location)).metadata).type matches .file
  catch _ => return false

/-- What is in a directory. -/
def listing (location : Location) : IO (List IO.FS.DirEntry) := do
  try
    return (← (← IO.FS.realPath (pathOf location)).readDir).toList
  catch _ => return []

/-- What bytes write. -/
def contentOf (bytes : ByteArray) : Content :=
  match String.fromUTF8? bytes with
  | some text => .text text
  | none => .bytes (.ofList (bytes.toList.map Text.byteChar))

/-- Reads a file; one that cannot be read counts as empty. -/
def readText (location : Location) : IO Entries := do
  let bytes ← try IO.FS.readBinFile (pathOf location) catch _ => pure .empty
  return [(location, .file ⟨contentOf bytes, 0, false⟩)]

/-- The most levels of directories that are read. -/
def maxDepth : Nat := 64

/-- Reads what lies below a location; `depth` bounds the levels. Links are passed over. -/
def readBelow : (depth : Nat) → Location → IO Entries
  | 0, _ => return []
  | depth + 1, location => do
    let parts ← (← listing location).mapM fun entry => do
      let inner := location ++ [entry.fileName]
      match (← entry.path.symlinkMetadata).type with
      | .dir => return (inner, .directory) :: (← readBelow depth inner)
      | .file => readText inner
      | _ => return []
    return parts.flatten

/-- The programs in a directory. -/
def readPrograms (location : Location) : IO Entries := do
  let programs := (← listing location).map fun entry =>
    (location ++ [entry.fileName], Node.file standIn)
  return directoriesTo location ++ programs

/-- Reads a file if there is one. -/
def readIfFile (location : Location) : IO Entries := do
  if ← isFile location then
    return directoriesTo location.dropLast ++ (← readText location)
  else return []

/-- The manifest that a command line names. -/
def namedManifest (words : List String) : Option Path :=
  match CommandLine.parse words with
  | .ok ⟨_, .build arguments⟩ => arguments.workspace.manifest
  | .ok ⟨_, .linkplan _ arguments⟩ => arguments.manifest
  | _ => none

/-- The directory of the named manifest, or of the nearest one upwards from a location. -/
def workspaceLocation? (location : Location) (named : Option Path) : IO (Option Location) := do
  match named with
  | some p =>
    try
      return some (locationOf (← IO.FS.realPath p.text).toString).dropLast
    catch _ => return none
  | none => (upwards location).findM? fun above => isFile (above ++ [manifestName])

/-- Reads what a command line may look at. -/
def readHost (words : List String) : IO Host := do
  let workingDirectory := locationOf (← IO.currentDir).toString
  let home := (← IO.getEnv "HOME").getD "/"
  let searched := (((← IO.getEnv "PATH").getD "").splitOn ":").filter (· != "")
  let programs ← searched.mapM fun directory => readPrograms (locationOf directory)
  let settings ← readIfFile (locationOf (Settings.fileIn ⟨home⟩).text)
  let workspace ← match ← workspaceLocation? workingDirectory (namedManifest words) with
    | some location => do pure (directoriesTo location ++ (← readBelow maxDepth location))
    | none => pure []
  return {
    tree := .ofEntries
      (workspace ++ settings ++ directoriesTo workingDirectory ++ programs.flatten)
    workingDirectory
    home := ⟨home⟩
    searchPath := searched.map Path.mk
    clock := 0
    output := ""
    errors := ""
    isVerbose := false }

/-! ## Writing -/

/-- Writes what stands at a location. -/
def writeNode (location : Location) : Node → IO Unit
  | .directory => IO.FS.createDirAll (pathOf location)
  | .file ⟨.text text, _, _⟩ => IO.FS.writeFile (pathOf location) text
  | .file ⟨.bytes bytes, _, _⟩ =>
    IO.FS.writeBinFile (pathOf location) ⟨bytes.toList.toArray.map fun c => c.toNat.toUInt8⟩

/-- Removes what stood at a location; what lay below it may be gone already. -/
def removeNode (location : Location) : Node → IO Unit
  | .directory => try IO.FS.removeDirAll (pathOf location) catch _ => pure ()
  | .file _ => try IO.FS.removeFile (pathOf location) catch _ => pure ()

/-- Writes the changes of a tree back to the machine. -/
def writeChanges (before after : Tree) : IO Unit := do
  let old := Std.HashMap.ofList before.entries
  let new := Std.HashMap.ofList after.entries
  for (location, node) in before.entries do
    unless new.contains location do removeNode location node
  for (location, node) in after.entries do
    unless old[location]? == some node do writeNode location node

end BuildPlanner.Machine

open BuildPlanner in
/-- Runs the program with the words of a command line. -/
def main (words : List String) : IO UInt32 := do
  let before ← Machine.readHost words
  let (outcome, after) := CommandLine.run words before
  Machine.writeChanges before.tree after.tree
  (← IO.getStdout).putStr outcome.output
  (← IO.getStderr).putStr outcome.errors
  return outcome.code.toUInt32
