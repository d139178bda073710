import BuildPlanner.Files
import BuildPlanner.Path.Relative

/-!
# Replicas of directories

A destination becomes a copy of a source. A file is copied where the destination has none there,
or one of another size, or an older one. What stands in the way is removed, and so is what the
source does not have. Every directory is listed before anything is done for it.
-/

namespace BuildPlanner.Replica

/-- What the making of a replica has changed. -/
structure Changes where
  /-- The number of copied files. -/
  copied : Nat
  /-- The number of removed entries; a directory that stands in the way counts as one. -/
  removed : Nat
deriving DecidableEq, Repr, Inhabited

/-- Whether a file has to be copied over what stands at a destination. -/
def needsCopy (ours : File) (theirs : Option Node) : Bool :=
  match theirs with
  | some (.file file) =>
    ours.content.size != file.content.size || file.modified < ours.modified
  | _ => true

/-- Removes what stands in the way, if the condition holds. -/
def removeIf (condition : Bool) (target : Path) : Activity Failure Nat := fun h =>
  if condition then
    match h.remove target with
    | .ok after => (.ok 1, after)
    | .error fault => (.error (Files.treeFailure s!"failed to remove {target}" fault), h)
  else (.ok 0, h)

/-- Makes a directory at the destination. -/
def placeDirectory (target : Path) : Activity Failure Changes := fun h => (do
  let removed ← removeIf (h.isFile target) target
  Files.ensureDirectory target
  return ⟨0, removed⟩ : Activity Failure Changes) h

/-- Copies a file to the destination, if it has to be copied. -/
def placeFile (source target : Path) (file : File) : Activity Failure Changes := fun h =>
  if needsCopy file (h.node target).toOption then (do
    let removed ← removeIf (h.isDirectory target) target
    .ofStep fun h => (h.copy source target).mapError
      (Files.treeFailure s!"failed to copy {source} to {target}")
    return ⟨1, removed⟩ : Activity Failure Changes) h
  else (.ok ⟨0, 0⟩, h)

/-- The changes of two parts together. -/
def Changes.add (a b : Changes) : Changes := ⟨a.copied + b.copied, a.removed + b.removed⟩

/-- An entry of a directory as it was listed. -/
structure Entry where
  /-- Where it is. -/
  path : Path
  /-- What stands there. -/
  node : Node
deriving Repr

/-- The entries of a directory, by name. -/
def entries (h : Host) (directory : Path) : List Entry :=
  (h.names directory).filterMap fun name =>
    (h.node (directory.entry name)).toOption.map fun node => ⟨directory.entry name, node⟩

/-- Where an entry of the source belongs in the destination. -/
def target (source destination : Path) (entry : Path) : Path :=
  destination.join (Path.relativeTo source entry)

/-- Runs an activity for one item after the other and adds up the changes. -/
def sumOver {α : Type} (act : α → Activity Failure Changes) : List α → Activity Failure Changes
  | [] => pure ⟨0, 0⟩
  | item :: items => do
    let first ← act item
    let others ← sumOver act items
    return first.add others

/-- Copies listed entries and what lies below them; `fuel` bounds the levels. -/
def copyEntries (source destination : Path) : (fuel : Nat) → List Entry → Activity Failure Changes
  | 0, _ => pure ⟨0, 0⟩
  | fuel + 1, listed => sumOver (copyEntry fuel) listed
where
  /-- Copies one entry and what lies below it. -/
  copyEntry (fuel : Nat) (entry : Entry) : Activity Failure Changes := fun h =>
    match entry.node with
    | .file file => placeFile entry.path (target source destination entry.path) file h
    | .directory => (do
      let inner := entries h entry.path
      let first ← placeDirectory (target source destination entry.path)
      let others ← copyEntries source destination fuel inner
      return first.add others : Activity Failure Changes) h

/-- What lies below a directory, each after what lies below it; `fuel` bounds the levels. -/
def contentsFirst (h : Host) : (fuel : Nat) → Path → List Path
  | 0, _ => []
  | fuel + 1, directory =>
    (h.names directory).flatMap fun name =>
      contentsFirst h fuel (directory.entry name) ++ [directory.entry name]

/-- The entries of the destination that the source does not have. -/
def extraneous (h : Host) (source destination : Path) : List Path :=
  (contentsFirst h (maxPathLength + 1) destination).filter fun p =>
    !h.exists? (target destination source p)

/-- Removes an entry, unless it is gone already. -/
def removeEntry (p : Path) : Activity Failure Changes := fun h => (do
  let removed ← removeIf (h.exists? p) p
  return ⟨0, removed⟩ : Activity Failure Changes) h

/-- Copies what the source has. -/
def copyAll (source destination : Path) : Activity Failure Changes := fun h =>
  match h.node source with
  | .error fault => (.error ⟨[s!"failed to walk {source}"], .walk source fault⟩, h)
  | .ok _ => copyEntries source destination (maxPathLength + 1) (entries h source) h

/-- Removes what the source does not have. -/
def removeExtraneous (source destination : Path) : Activity Failure Changes := fun h =>
  sumOver removeEntry (extraneous h source destination) h

/-- Makes the destination a copy of the source. -/
def make (source destination : Path) : Activity Failure Changes := do
  Files.ensureDirectory destination
  let copied ← copyAll source destination
  let removed ← removeExtraneous source destination
  return copied.add removed

end BuildPlanner.Replica
