import BuildPlanner.Failure
import BuildPlanner.Glob.Search
import BuildPlanner.Host

/-!
# Reading and writing files

Files are written with the directories above them, and found by patterns. What was made before a
failure stays.
-/

namespace BuildPlanner.Files

/-- The failure of an operation on a tree. -/
def treeFailure (context : String) (fault : TreeFault) : Failure :=
  ⟨[context], .tree fault⟩

/-- Makes a directory after those above it are made; `fuel` bounds their number. -/
def makeAll : (fuel : Nat) → Path → Activity TreeFault Unit
  | 0, _ => fun h => (.error .notFound, h)
  | fuel + 1, p => fun h =>
    if p.text = "" then (.ok (), h)
    else
      match h.makeDirectory p with
      | .ok after => (.ok (), after)
      | .error .notFound =>
        match p.parent? with
        | none => (.error .notFound, h)
        | some parent =>
          match makeAll fuel parent h with
          | (.error fault, after) => (.error fault, after)
          | (.ok _, after) =>
            match after.makeDirectory p with
            | .ok made => (.ok (), made)
            | .error fault => (if after.isDirectory p then .ok () else .error fault, after)
      | .error fault => (if h.isDirectory p then .ok () else .error fault, h)

/-- Makes a directory and those above it, unless something stands there. -/
def ensureDirectory (p : Path) : Activity Failure Unit := fun h =>
  if h.exists? p then (.ok (), h)
  else
    (makeAll (p.pieces.length + 1) p).mapFault
      (treeFailure s!"failed to create directory: {p}") h

/-- Reads a file. -/
def read (p : Path) : Activity Failure String :=
  .ofView fun h => (h.read p).mapError (treeFailure s!"failed to read file: {p}")

/-- Makes the directory above a path. -/
def ensureParent (p : Path) : Activity Failure Unit :=
  match p.parent? with
  | some parent => ensureDirectory parent
  | none => pure ()

/-- Writes a file; the directories above it are made. -/
def write (p : Path) (text : String) : Activity Failure Unit := do
  ensureParent p
  .ofStep fun h => (h.write p text).mapError (treeFailure s!"failed to write file: {p}")

/-- The files that patterns find below a base, sorted. -/
def find (base : Path) (patterns : List String) : Activity Failure (List Path) :=
  .ofView fun h => (Glob.files h base patterns).mapError fun (pattern, fault) =>
    ⟨[s!"invalid glob pattern: {pattern}"], .pattern fault⟩

end BuildPlanner.Files
