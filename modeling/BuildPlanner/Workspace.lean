import BuildPlanner.Configuration
import BuildPlanner.Files
import BuildPlanner.Manifest.Decode
import BuildPlanner.References
import BuildPlanner.Report
import BuildPlanner.Umbrella

/-!
# Workspaces

A workspace is a manifest and the directory in which it stands. For a platform and a configuration
its declared projects are resolved: directories are laid out, the public parts of used projects are
taken over, additions for the toolchain are made, and sources are looked for. All paths of a
resolved project start at the root of the workspace.
-/

namespace BuildPlanner

/-- A manifest and where it stands. -/
structure Workspace where
  /-- The directory of the workspace. -/
  root : Path
  /-- The manifest file. -/
  manifestPath : Path
  /-- What the manifest says. -/
  manifest : Manifest
deriving DecidableEq, Repr, Inhabited

/-- The activity of a computation on projects. -/
def Activity.ofModel {α : Type} (compute : Host → Except ModelError α) : Activity Failure α :=
  .ofView fun h => (compute h).mapError fun fault => .of (.model fault)

/-- The failure of a manifest that cannot be read. -/
def Manifest.Fault.failure : Manifest.Fault → Failure
  | malformed => .of .malformed
  | schema error => .of (.schema error)
  | additions key project fault => ⟨[additionsContext key project], .model fault⟩

namespace Workspace

/-- Loads a workspace by its manifest. -/
def load (manifestPath : Path) : Activity Failure Workspace :=
  .ofView fun h => do
    let text ← (h.read manifestPath).mapError
      (Files.treeFailure s!"failed to read manifest: {manifestPath}")
    let manifest ← (Manifest.parse text).mapError fun fault =>
      fault.failure.within s!"failed to parse manifest: {manifestPath}"
    return { root := manifestPath.parent?.getD ⟨"."⟩, manifestPath, manifest }

/-- The manifest nearest to a directory, upwards. -/
def findManifest? (h : Host) (start : Path) : Option Path :=
  (start.ancestors.map fun directory => directory.entry manifestName).find? h.isFile

/-! ## Layout -/

/-- The directory of a project below a directory for all projects. -/
def layoutDir (base : Path) (name : String) (platform : Platform) (configuration : Configuration) :
    Path :=
  ((base.entry name).entry platform.directoryName).entry configuration.directoryName

variable (ws : Workspace)

/-- The build description. -/
def ninjaFile (platform : Platform) (configuration : Configuration) : Path :=
  ws.root.entry s!"build-{platform}-{configuration}.ninja"

/-- The directory of the intermediate files of a project. -/
def buildDir (name : String) (platform : Platform) (configuration : Configuration) : Path :=
  layoutDir ws.manifest.workspace.buildDir name platform configuration

/-- The directory of the artifacts of a project. -/
def deployDir (name : String) (platform : Platform) (configuration : Configuration) : Path :=
  layoutDir ws.manifest.workspace.deployDir name platform configuration

/-- The directory of the sources of a project. -/
def sourceDir (d : ProjectDefinition) : Path :=
  ws.manifest.workspace.codeDir.join d.relativeSourceDir

/-- The declared projects that are built with a toolchain. -/
def enabled (platform : Platform) : List ProjectDefinition :=
  ws.manifest.projects.filter (·.enabledFor platform)

/-- Checks the references between the projects. -/
def validate (platform : Platform) : Except ModelError Unit :=
  References.validate (ws.enabled platform)

/-! ## Umbrella sources -/

/-- Where the tests of a project are looked for. -/
def testRoot (tests : TestAggregate) : Path :=
  (ws.root.join ws.manifest.workspace.codeDir).join tests.root

/-- The umbrella source of a project, below the root. -/
def umbrellaPath (d : ProjectDefinition) (tests : TestAggregate) : Path :=
  (ws.sourceDir d).join tests.output

end Workspace

/-- Writes the umbrella source of the tests that a pattern finds below a root. -/
def Umbrella.write (root : Path) (pattern : String) (output : Path) : Activity Failure Unit := do
  let found ← (Files.find root [pattern]).mapFault
    (Failure.within s!"failed to discover tests under {root}")
  let included := Umbrella.includes root output found
  (Files.write output (Umbrella.render included)).mapFault
    (Failure.within "failed to write test umbrella")
  .report .info s!"aggregated {included.length} test sources into {output}"

namespace Workspace

variable (ws : Workspace)

/-- Writes the umbrella source of a project. The answer is its path below the root. -/
def aggregate (d : ProjectDefinition) (tests : TestAggregate) : Activity Failure Path := do
  let output := ws.umbrellaPath d tests
  (Umbrella.write (ws.testRoot tests) tests.pattern (ws.root.join output)).mapFault
    (Failure.within s!"failed to aggregate tests for `{d.name}`")
  return output

/-- Writes the umbrella sources of the given projects. -/
def aggregateAll : List ProjectDefinition → Activity Failure (List Path)
  | [] => pure []
  | d :: rest =>
    match d.testAggregate with
    | none => aggregateAll rest
    | some tests => do
      let output ← ws.aggregate d tests
      return output :: (← aggregateAll rest)

/-- Writes the umbrella sources of all projects that have one. -/
def aggregateTests (platform : Platform) : Activity Failure (List Path) :=
  ws.aggregateAll (ws.enabled platform)

/-! ## Resolution -/

/-- Keeps the first of items that are the same. -/
def keepFirst {α : Type} (same : α → α → Bool) (items : List α) : List α :=
  (items.foldl (fun kept item => if kept.any (same · item) then kept else item :: kept) []).reverse

/-- The projects that a project uses. -/
def used (enabled : List ProjectDefinition) (d : ProjectDefinition) :
    Except ModelError (List ProjectDefinition) :=
  d.uses.mapM fun name =>
    match enabled.find? (·.name == name) with
    | some other => .ok other
    | none => .error (.unknownReference d.name name)

/-- The include directories of a project, with repeats. -/
def includeDirs (used : List ProjectDefinition) (d : ProjectDefinition) (additions : Additions) :
    List Path :=
  used.flatMap (fun other => other.publicPart.includeDirs.map (ws.sourceDir other).join) ++
    d.includeDirs.map (ws.sourceDir d).join ++ additions.includeDirs.map (ws.sourceDir d).join

/-- The include directory for the tests of a project. -/
def testIncludeDirs (d : ProjectDefinition) : List Path :=
  if d.kind = .headerOnly then []
  else (d.testAggregate.map fun tests => ws.manifest.workspace.codeDir.join tests.root).toList

/-- The defines of a project, with repeats. -/
def defines (used : List ProjectDefinition) (d : ProjectDefinition) (additions : Additions) :
    List Define :=
  used.flatMap (·.publicPart.defines) ++ d.defines ++ additions.defines

/-- What the resolved project produces. -/
def kind (d : ProjectDefinition) (additions : Additions) : ProjectKind :=
  match d.kind with
  | .headerOnly => .headerOnly
  | .staticLibrary => .staticLibrary
  | .executable =>
    .executable
      { libraries := d.links
        standardLibraries := d.standardLibs ++ additions.standardLibs
        libraryDirs := d.libDirs ++ additions.libDirs
        resourceFile := d.resource.map (ws.sourceDir d).join
        dataDir := d.data }

/-- The sources that patterns find for a project. Patterns that cannot be read are the fault of the
project. -/
def discover (h : Host) (project : String) (directory : Path) (patterns : List String) :
    Except ModelError (List Path) :=
  (Glob.files h directory patterns).mapError fun _ =>
    .invalidPattern project (", ".intercalate patterns)

/-- The sources of a project: what the patterns find, and the umbrella source. -/
def sources (h : Host) (d : ProjectDefinition) (additions : Additions) :
    Except ModelError (List Path) :=
  if d.kind = .headerOnly then .ok []
  else do
    let found ← discover h d.name (ws.root.join (ws.sourceDir d)) (d.sources ++ additions.sources)
    let inside := found.map fun file => (Path.below? ws.root file).getD file
    let all := inside ++ (d.testAggregate.map (ws.umbrellaPath d)).toList
    if all.isEmpty then throw (.noSources d.name (ws.sourceDir d)) else return all

/-- Resolves a project among the enabled ones. -/
def resolveProject (h : Host) (enabled : List ProjectDefinition) (platform : Platform)
    (configuration : Configuration) (d : ProjectDefinition) : Except ModelError Project := do
  let additions := (d.additionsFor platform).getD {}
  let used ← used enabled d
  let sources ← ws.sources h d additions
  return { name := d.name
           kind := ws.kind d additions
           sourceDir := ws.sourceDir d
           buildDir := ws.buildDir d.name platform configuration
           deployDir := ws.deployDir d.name platform configuration
           sources := Path.sort sources
           includeDirs := keepFirst Path.same
             (ws.includeDirs used d additions ++ ws.testIncludeDirs d)
           defines := keepFirst (· == ·) (defines used d additions)
           warningLevel := min d.warningLevel maxWarningLevel }

/-- Resolves all enabled projects, in their order, after their references have been checked. -/
def resolve (h : Host) (platform : Platform) (configuration : Configuration) :
    Except ModelError (List Project) := do
  ws.validate platform
  (ws.enabled platform).mapM (ws.resolveProject h (ws.enabled platform) platform configuration)

/-! ## Reports on the resolution -/

/-- What is reported about a project that asks for a higher warning level than there is. -/
def clampNote? (d : ProjectDefinition) : Option String :=
  if maxWarningLevel < d.warningLevel then
    some s!"{d.name}: warning level {d.warningLevel} clamped to {maxWarningLevel}"
  else none

/-- What is reported about a project whose sources cannot be looked for. -/
def searchNote? (h : Host) (platform : Platform) (d : ProjectDefinition) : Option String :=
  let additions := (d.additionsFor platform).getD {}
  let directory := ws.root.join (ws.sourceDir d)
  match Files.find directory (d.sources ++ additions.sources) h with
  | (.ok _, _) => none
  | (.error failure, _) => some s!"source discovery failed for {d.name}: {failure.message}"

/-- What is reported about a resolved project. -/
def resolutionNote (p : Project) : String :=
  s!"resolved {p.name} ({p.kind.name}, {p.sources.length} sources)"

/-- Resolves a project among the enabled ones and reports on it. -/
def resolveProjectReporting (enabled : List ProjectDefinition) (platform : Platform)
    (configuration : Configuration) (d : ProjectDefinition) : Activity Failure Project := do
  discard (.ofModel fun _ => used enabled d)
  (clampNote? d).forM (.report .warning)
  let h ← get
  match ws.resolveProject h enabled platform configuration d with
  | .ok p =>
    .report .detail (resolutionNote p)
    return p
  | .error fault =>
    (ws.searchNote? h platform d).forM (.report .detail)
    throw (.of (.model fault))

/-- Resolves all enabled projects and reports on each of them. -/
def resolveReporting (platform : Platform) (configuration : Configuration) :
    Activity Failure (List Project) := do
  .ofModel fun _ => ws.validate platform
  let enabled := ws.enabled platform
  enabled.mapM (ws.resolveProjectReporting enabled platform configuration)

end Workspace

end BuildPlanner
