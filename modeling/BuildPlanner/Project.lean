import BuildPlanner.Define
import BuildPlanner.Path.Order

/-!
# Projects

A project is a static library, a library of headers alone, or an executable, made concrete for one
toolchain and one configuration: its sources are found and sorted, and every path is known.
-/

namespace BuildPlanner

/-- The highest warning level that a toolchain knows. -/
def maxWarningLevel : Nat := 4

/-- The warning level of a project that names none. -/
def defaultWarningLevel : Nat := 4

/-- The source patterns of a project that names none. -/
def defaultSourcePatterns : List String := ["**/*.cpp", "**/*.c"]

/-- What an executable is linked from, and what is deployed with it. -/
structure ExecutableSpec where
  /-- The library projects to link, by name, in link order. -/
  libraries : List String
  /-- The system libraries. -/
  standardLibraries : List String
  /-- Directories that the linker searches. -/
  libraryDirs : List Path
  /-- The resource script, if there is one. -/
  resourceFile : Option Path
  /-- The data directory that is copied next to the executable, if there is one. -/
  dataDir : Option Path
deriving DecidableEq, Repr, Inhabited

/-- What a project produces. -/
inductive ProjectKind where
  /-- One archive of the compiled sources. -/
  | staticLibrary
  /-- Nothing: it is headers and what it tells the projects that use it. -/
  | headerOnly
  /-- A linked program. -/
  | executable (spec : ExecutableSpec)
deriving DecidableEq, Repr, Inhabited

namespace ProjectKind

/-- The name of the kind in reports. -/
def name : ProjectKind → String
  | staticLibrary => "static-lib"
  | headerOnly => "header-only"
  | executable _ => "executable"

/-- Whether other projects may link a project of this kind. -/
def isLibrary : ProjectKind → Bool
  | executable _ => false
  | _ => true

end ProjectKind

/-- A project with everything about it known. -/
structure Project where
  /-- The name. -/
  name : String
  /-- Where the sources were looked for. -/
  sourceDir : Path
  /-- Where objects go. -/
  buildDir : Path
  /-- Where archives and executables go. -/
  deployDir : Path
  /-- The sources, sorted. -/
  sources : List Path
  /-- The include directories, in the order in which they are searched. -/
  includeDirs : List Path
  /-- The defines, in the order in which they are given. -/
  defines : List Define
  /-- The warning level. -/
  warningLevel : Nat
  /-- What the project produces. -/
  kind : ProjectKind
deriving DecidableEq, Repr, Inhabited

namespace Project

/-- The project with its sources sorted. -/
def withSources (p : Project) (sources : List Path) : Project :=
  { p with sources := Path.sort sources }

/-- Whether the project produces nothing. -/
def isHeaderOnly (p : Project) : Bool :=
  p.kind matches .headerOnly

/-- What the project is linked from, if it is an executable. -/
def executable? (p : Project) : Option ExecutableSpec :=
  match p.kind with
  | .executable spec => some spec
  | _ => none

/-- The library projects that the project links. -/
def libraryDependencies (p : Project) : List String :=
  (p.executable?.map (·.libraries)).getD []

end Project

end BuildPlanner
