import BuildPlanner.Manifest.Definition
import BuildPlanner.Toml.Document
import BuildPlanner.Toml.Schema

/-!
# Reading manifests

The shapes of a manifest and of what it holds, and how its text is read. The keys under which a
project adds something for a toolchain have to name toolchains, or what they add would be lost
without a word.
-/

namespace BuildPlanner

open Toml Decoder

namespace Manifest

/-- The largest warning level that can be written. -/
def warningLevelBound : Nat := 255

/-- The names of the kinds of projects. -/
def kindNames : List (String × DefinedKind) :=
  [("static-lib", .staticLibrary), ("staticlib", .staticLibrary), ("header-only", .headerOnly),
    ("exe", .executable), ("executable", .executable)]

/-- The names of the platforms. -/
def platformNames : List (String × Platform) :=
  Platform.all.map fun platform => (platform.name, platform)

/-- Where files are kept. -/
def workspaceShape : Shape WorkspaceDirs where
  name := "WorkspaceConfig"
  isClosed := true
  start := default
  fields :=
    [field "code-dir" path fun r v => { r with codeDir := v },
     field "build-dir" path fun r v => { r with buildDir := v },
     field "deploy-dir" path fun r v => { r with deployDir := v }]

/-- What a project gives to others. -/
def publicShape : Shape PublicPart where
  name := "PublicDef"
  isClosed := true
  start := {}
  fields :=
    [field "include-dirs" (list path) fun r v => { r with includeDirs := v },
     field "defines" (list define) fun r v => { r with defines := v }]

/-- What is added for a toolchain. -/
def additionsShape : Shape Additions where
  name := "ToolchainOverride"
  isClosed := true
  start := {}
  fields :=
    [field "sources" (list string) fun r v => { r with sources := v },
     field "include-dirs" (list path) fun r v => { r with includeDirs := v },
     field "defines" (list define) fun r v => { r with defines := v },
     field "standard-libs" (list string) fun r v => { r with standardLibs := v },
     field "lib-dirs" (list path) fun r v => { r with libDirs := v }]

/-- The tests that are put together. -/
def testAggregateShape : Shape TestAggregate where
  name := "TestAggregateDef"
  isClosed := true
  start := ⟨⟨""⟩, TestAggregate.defaultPattern, TestAggregate.defaultOutput⟩
  fields :=
    [needed "root" path fun r v => { r with root := v },
     field "pattern" string fun r v => { r with pattern := v },
     field "output" path fun r v => { r with output := v }]

/-- A project. -/
def projectShape : Shape ProjectDefinition where
  name := "ProjectDef"
  isClosed := true
  start := { name := "", kind := .staticLibrary }
  fields :=
    [needed "name" string fun r v => { r with name := v },
     needed "kind" (choice kindNames) fun r v => { r with kind := v },
     field "path" path fun r v => { r with path := some v },
     field "sources" (list string) fun r v => { r with sources := v },
     field "include-dirs" (list path) fun r v => { r with includeDirs := v },
     field "defines" (list define) fun r v => { r with defines := v },
     field "warning-level" (natural warningLevelBound "u8") fun r v => { r with warningLevel := v },
     field "uses" (list string) fun r v => { r with uses := v },
     field "public" publicShape.decoder fun r v => { r with publicPart := v },
     field "toolchains" (list (choice platformNames)) fun r v => { r with toolchains := v },
     field "toolchain" (map additionsShape.decoder) fun r v => { r with additions := v },
     field "links" (list string) fun r v => { r with links := v },
     field "standard-libs" (list string) fun r v => { r with standardLibs := v },
     field "lib-dirs" (list path) fun r v => { r with libDirs := v },
     field "resource" path fun r v => { r with resource := some v },
     field "data" path fun r v => { r with data := some v },
     field "test-aggregate" testAggregateShape.decoder fun r v =>
       { r with testAggregate := some v }]

/-- A manifest. -/
def shape : Shape Manifest where
  name := "Manifest"
  isClosed := true
  start := {}
  fields :=
    [field "workspace" workspaceShape.decoder fun r v => { r with workspace := v },
     field "project" (list projectShape.decoder) fun r v => { r with projects := v }]

/-- Why a manifest cannot be read. -/
inductive Fault where
  /-- The text is not well formed. -/
  | malformed
  /-- A value is not what it should be. -/
  | schema (error : SchemaError)
  /-- A project adds something for an unknown toolchain. -/
  | additions (key project : String) (fault : ModelError)
deriving DecidableEq, Repr

/-- Where additions for an unknown toolchain were found. -/
def additionsContext (key project : String) : String :=
  s!"in `[project.toolchain.{key}]` of project `{project}`"

/-- Checks the keys under which a project adds something. -/
def checkAdditions (d : ProjectDefinition) : List (String × Additions) → Except Fault Unit
  | [] => .ok ()
  | (key, _) :: rest =>
    match Platform.parse key with
    | .error fault => .error (.additions key d.name fault)
    | .ok _ => checkAdditions d rest

/-- Checks the keys under which the projects add something. -/
def checkProjects : List ProjectDefinition → Except Fault Unit
  | [] => .ok ()
  | d :: rest => do
    checkAdditions d d.additions
    checkProjects rest

/-- Reads a manifest. -/
def parse (text : String) : Except Fault Manifest :=
  match Toml.parse text with
  | none => .error .malformed
  | some table =>
    match shape.decoder table with
    | .error misfit => .error (.schema (.ofMisfit text misfit))
    | .ok manifest => do
      checkProjects manifest.projects
      return manifest

end Manifest

end BuildPlanner
