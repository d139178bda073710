import BuildPlanner.Define
import BuildPlanner.Path.Basic

/-!
# Tasks for a toolchain

What a toolchain is asked to do, with every path known: compile a source, archive objects, link an
executable, compile a resource script.
-/

namespace BuildPlanner

/-- Make an object from a source. -/
structure CompileTask where
  /-- The source. -/
  source : Path
  /-- The object to make. -/
  object : Path
  /-- The include directories, in search order. -/
  includeDirs : List Path
  /-- The defines, in order. -/
  defines : List Define
  /-- The warning level. -/
  warningLevel : Nat
deriving DecidableEq, Repr

/-- Make an archive from objects. -/
structure ArchiveTask where
  /-- The objects, in order. -/
  objects : List Path
  /-- The archive to make. -/
  output : Path
deriving DecidableEq, Repr

/-- Make an executable. -/
structure LinkTask where
  /-- The objects, in order. -/
  objects : List Path
  /-- The archives, in link order. -/
  libraries : List Path
  /-- The system libraries, in link order. -/
  standardLibraries : List String
  /-- The directories that the linker searches. -/
  libraryDirs : List Path
  /-- The executable to make. -/
  output : Path
  /-- The compiled resource, if there is one. -/
  resource : Option Path
deriving DecidableEq, Repr

/-- Make a linkable resource from a resource script. -/
structure ResourceTask where
  /-- The resource script. -/
  source : Path
  /-- The resource to make. -/
  output : Path
deriving DecidableEq, Repr

/-- What is made of a project's objects. -/
inductive ArtifactKind where
  /-- An archive. -/
  | staticLibrary
  /-- A program. -/
  | executable
deriving DecidableEq, Repr

/-- The file in a directory with the stem of another file and a given extension. -/
def Path.withStemOf (directory file : Path) (extension : String) : Path :=
  let stem := file.fileStem?.getD ""
  if extension = "" then directory.entry stem else directory.entry (stem ++ "." ++ extension)

end BuildPlanner
