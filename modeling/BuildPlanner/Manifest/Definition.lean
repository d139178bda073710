import BuildPlanner.Platform
import BuildPlanner.Project

/-!
# Manifests

What a manifest says: where sources, intermediate files and artifacts are kept, and the projects in
the order in which they are declared. A project says what others get that use it, which toolchains
it is built with, and what is added for one of them.
-/

namespace BuildPlanner

/-- The file name of a manifest. -/
def manifestName : String := "Shipwright.toml"

/-- Where a workspace keeps its files; the paths start at its root. -/
structure WorkspaceDirs where
  /-- The directory of all source directories. -/
  codeDir : Path
  /-- The directory of intermediate files. -/
  buildDir : Path
  /-- The directory of artifacts. -/
  deployDir : Path
deriving DecidableEq, Repr

instance : Inhabited WorkspaceDirs := ⟨⟨"Code"⟩, ⟨"Build"⟩, ⟨"Deploy"⟩⟩

/-- What a declared project is to produce. -/
inductive DefinedKind where
  /-- An archive. -/
  | staticLibrary
  /-- Nothing. -/
  | headerOnly
  /-- A program. -/
  | executable
deriving DecidableEq, Repr, Inhabited

/-- The name of a kind in a manifest. -/
def DefinedKind.name : DefinedKind → String
  | staticLibrary => "static-lib"
  | headerOnly => "header-only"
  | executable => "executable"

/-- What a project gives to the projects that use it. -/
structure PublicPart where
  /-- Include directories below its source directory. -/
  includeDirs : List Path := []
  /-- Defines. -/
  defines : List Define := []
deriving DecidableEq, Repr, Inhabited

/-- What is added to a project for one toolchain. -/
structure Additions where
  /-- Source patterns. -/
  sources : List String := []
  /-- Include directories below the source directory. -/
  includeDirs : List Path := []
  /-- Defines. -/
  defines : List Define := []
  /-- System libraries. -/
  standardLibs : List String := []
  /-- Directories that the linker searches. -/
  libDirs : List Path := []
deriving DecidableEq, Repr, Inhabited

/-- The tests that are put together in an umbrella source. -/
structure TestAggregate where
  /-- Where the tests are looked for, below the code directory. -/
  root : Path
  /-- The pattern that finds them. -/
  pattern : String
  /-- The umbrella source, below the source directory of the project. -/
  output : Path
deriving DecidableEq, Repr, Inhabited

namespace TestAggregate

/-- The pattern where none is given. -/
def defaultPattern : String := "**/*.test.cpp"

/-- The umbrella source where none is given. -/
def defaultOutput : Path := ⟨"test.cpp"⟩

end TestAggregate

/-- A declared project. -/
structure ProjectDefinition where
  /-- The name. -/
  name : String
  /-- What the project is to produce. -/
  kind : DefinedKind
  /-- The source directory below the code directory, if it is not the name. -/
  path : Option Path := none
  /-- The source patterns. -/
  sources : List String := defaultSourcePatterns
  /-- Include directories below the source directory. -/
  includeDirs : List Path := []
  /-- Defines. -/
  defines : List Define := []
  /-- The warning level. -/
  warningLevel : Nat := defaultWarningLevel
  /-- The projects whose public parts are taken over. -/
  uses : List String := []
  /-- What the project gives to those that use it. -/
  publicPart : PublicPart := {}
  /-- The toolchains that the project is built with; none are named for all. -/
  toolchains : List Platform := []
  /-- What is added for single toolchains, by their names in ascending order. -/
  additions : List (String × Additions) := []
  /-- The library projects that an executable links, in order. -/
  links : List String := []
  /-- The system libraries that an executable links. -/
  standardLibs : List String := []
  /-- The directories that the linker searches, below the root. -/
  libDirs : List Path := []
  /-- The resource script, below the source directory. -/
  resource : Option Path := none
  /-- The data directory, below the root. -/
  data : Option Path := none
  /-- The tests that are put together. -/
  testAggregate : Option TestAggregate := none
deriving DecidableEq, Repr, Inhabited

namespace ProjectDefinition

/-- Whether the project is built with a toolchain. -/
def enabledFor (d : ProjectDefinition) (platform : Platform) : Bool :=
  d.toolchains.isEmpty || d.toolchains.contains platform

/-- What is added for a toolchain, if anything. -/
def additionsFor (d : ProjectDefinition) (platform : Platform) : Option Additions :=
  d.additions.lookup platform.name

/-- The source directory below the code directory. -/
def relativeSourceDir (d : ProjectDefinition) : Path :=
  d.path.getD ⟨d.name⟩

/-- Whether other projects may link the project. -/
def isLibrary (d : ProjectDefinition) : Bool :=
  d.kind != .executable

end ProjectDefinition

/-- A manifest. -/
structure Manifest where
  /-- Where files are kept. -/
  workspace : WorkspaceDirs := default
  /-- The declared projects, in order. -/
  projects : List ProjectDefinition := []
deriving DecidableEq, Repr, Inhabited

namespace Manifest

/-- The declared project of a given name. -/
def project? (m : Manifest) (name : String) : Option ProjectDefinition :=
  m.projects.find? (·.name == name)

end Manifest

end BuildPlanner
