import BuildPlanner.Proofs.Layout
import BuildPlanner.Proofs.Runs

/-!
# Data directories beside artifacts

The data of an executable is deployed to a directory of one fixed name among its artifacts.  With
the usual directories of a workspace it meets nothing that is built, unless the GNU toolchain links
an executable of that very name: then the program itself is where its data is to go
(`deployTargets_meet_iff`).
-/

namespace BuildPlanner

variable {toolchain : Toolchain} {configuration : Configuration} {projects : List Project}

/-- One path is the other one, or a directory on the way to it. -/
def Path.Meets (p q : Path) : Prop :=
  p.components <+: q.components ∨ q.components <+: p.components

theorem Path.meets_of_same {p q : Path} (h : p.same q = true) : p.Meets q := by
  rw [Path.same_iff] at h
  exact .inl (h ▸ List.prefix_rfl)

theorem Path.same_of_meets {p q : Path} (levels : p.components.length = q.components.length)
    (h : p.Meets q) : p.same q = true := by
  rw [Path.same_iff]
  obtain below | above := h
  · exact below.eq_of_length levels
  · exact (above.eq_of_length levels.symm).symm

/-! ## The name of the directory -/

theorem Path.withExtension_ne_data (stem extension : String) :
    withExtension stem extension ≠ "data" := by
  intro same
  have dot : '.' ∈ (withExtension stem extension).toList := by simp [toList_withExtension]
  rw [same] at dot
  exact absurd dot (by decide)

/-- Programs of the GNU toolchain alone are called as their projects are. -/
theorem Project.data_mem_artifactNames_iff {p : Project} :
    "data" ∈ p.artifactNames toolchain configuration ↔
      toolchain.platform = .gcc ∧ p.executable?.isSome ∧ p.name = "data" := by
  cases kind : p.kind with
  | headerOnly => simp [artifactNames, executable?, kind]
  | staticLibrary =>
    have other : toolchain.artifactName .staticLibrary p.name ≠ "data" := by
      cases toolchain with
      | gcc tools =>
        intro same
        have chars := congrArg String.toList same
        simp [Toolchain.artifactName, Gcc.artifactName] at chars
      | msvc tools =>
        rw [(Toolchain.artifactName_msvc tools p.name).1]
        exact Path.withExtension_ne_data p.name "lib"
    simp [artifactNames, executable?, kind, other.symm]
  | executable spec =>
    simp only [artifactNames, executable?, kind, Option.isSome_some, true_and]
    cases toolchain with
    | gcc tools =>
      simp [Toolchain.programNames, Toolchain.databaseExtensions, Toolchain.artifactName,
        Gcc.artifactName, Toolchain.platform, eq_comm]
    | msvc tools =>
      rw [Toolchain.programNames, (Toolchain.artifactName_msvc tools p.name).2]
      simp [Toolchain.platform, (Path.withExtension_ne_data _ _).symm,
        Path.withExtension_ne_data]

/-! ## Where data goes -/

theorem mem_deployTargets_iff {root : Path} {t : DeployTarget} :
    t ∈ deployTargets root projects ↔
      ∃ p ∈ projects, ∃ spec data, p.executable? = some spec ∧ spec.dataDir = some data ∧
        t = ⟨p.name, root.join data, (root.join p.deployDir).entry dataDirectoryName⟩ := by
  have one (p : Project) : deployTarget? root p = some t ↔
      ∃ spec data, p.executable? = some spec ∧ spec.dataDir = some data ∧
        t = ⟨p.name, root.join data, (root.join p.deployDir).entry dataDirectoryName⟩ := by
    rw [deployTarget?]
    cases p.executable? with
    | none => simp
    | some spec => cases named : spec.dataDir <;> simp [named, eq_comm]
  simp [deployTargets, List.mem_filterMap, one]

namespace Workspace

variable {ws : Workspace} {h : Host} {platform : Platform}

/-- The workspace keeps its intermediate files and its artifacts where workspaces usually do. -/
structure UsualDirs (ws : Workspace) : Prop where
  buildDir : ws.manifest.workspace.buildDir = (default : WorkspaceDirs).buildDir
  deployDir : ws.manifest.workspace.deployDir = (default : WorkspaceDirs).deployDir

theorem components_of_laidOut (usual : ws.UsualDirs) {p : Project}
    (laid : ws.LaidOut platform configuration p) :
    p.buildDir.components = [.name "Build", .name p.name, .name platform.directoryName,
      .name configuration.directoryName] ∧
    p.deployDir.components = [.name "Deploy", .name p.name, .name platform.directoryName,
      .name configuration.directoryName] := by
  have build : (⟨"Build"⟩ : Path).components = [.name "Build"] := by decide
  have deploy : (⟨"Deploy"⟩ : Path).components = [.name "Deploy"] := by decide
  rw [laid.buildDir, laid.deployDir, Workspace.buildDir, Workspace.deployDir, usual.buildDir,
    usual.deployDir, components_layoutDir _ laid.name, components_layoutDir _ laid.name]
  exact ⟨congrArg (· ++ _) build, congrArg (· ++ _) deploy⟩

theorem components_destination (usual : ws.UsualDirs) {p : Project}
    (laid : ws.LaidOut platform configuration p) :
    ((ws.root.join p.deployDir).entry dataDirectoryName).components =
      ws.root.components ++ (p.deployDir.components ++ [.name "data"]) := by
  rw [Path.components_entry _ (by decide),
    Path.components_join ws.root (components_of_laidOut usual laid).2, List.append_assoc]
  rfl

variable (names : ∀ d ∈ ws.manifest.projects, IsEntryName d.name) (usual : ws.UsualDirs)
  (resolved : ws.resolve h toolchain.platform configuration = .ok projects) {g : BuildGraph}

include names usual resolved

/-- A program of the GNU toolchain that is called like the directory of its data is in its place. -/
theorem exists_output_of_data {t : DeployTarget} (ht : t ∈ deployTargets ws.root projects)
    (generated : BuildGraph.generate toolchain configuration projects = .ok g)
    (gcc : toolchain.platform = .gcc) (data : t.project = "data") :
    ∃ s ∈ g.statements, ∃ output ∈ s.outputs,
      t.call.destination.same (ws.root.join output) = true := by
  obtain ⟨p, hp, spec, directory, executable, -, rfl⟩ := mem_deployTargets_iff.1 ht
  have laid := laidOut_of_resolve names resolved hp
  have own : "data" ∈ p.artifactNames toolchain configuration :=
    Project.data_mem_artifactNames_iff.2 ⟨gcc, by rw [executable]; rfl, data⟩
  obtain ⟨s, hs, output, houtput, place⟩ := mem_places_iff.1
    (BuildGraph.mem_places_of_mem_artifactNames generated hp laid.name own)
  have joined : (ws.root.join output).components = ws.root.components ++ output.components :=
    Path.components_join ws.root (by rw [place, (components_of_laidOut usual laid).2]; rfl)
  refine ⟨s, hs, output, houtput, Path.same_iff.2 ?_⟩
  rw [components_destination usual laid, joined, place]

/-- Data meets nothing that is built but a program that is called like its directory. -/
theorem data_of_meets {t : DeployTarget} (ht : t ∈ deployTargets ws.root projects)
    (generated : BuildGraph.generate toolchain configuration projects = .ok g) {s : Statement}
    (hs : s ∈ g.statements) {output : Path} (houtput : output ∈ s.outputs)
    (meets : t.call.destination.Meets (ws.root.join output)) :
    toolchain.platform = .gcc ∧ t.project = "data" ∧
      t.call.destination.same (ws.root.join output) = true := by
  have laid {p : Project} (hp : p ∈ projects) := laidOut_of_resolve names resolved hp
  obtain ⟨p, hp, spec, directory, -, -, rfl⟩ := mem_deployTargets_iff.1 ht
  have destination := components_destination usual (laid hp)
  obtain ⟨q, hq, made⟩ := BuildGraph.mem_places_of_generate (fun p hp => (laid hp).name) generated
    (mem_places_iff.2 ⟨s, hs, output, houtput, rfl⟩)
  obtain ⟨build, deploy⟩ := components_of_laidOut usual (laid hq)
  -- Both have five components below the root, so one is not inside the other.
  have joined : (ws.root.join output).components = ws.root.components ++ output.components := by
    obtain ⟨file, place⟩ | ⟨file, -, place⟩ := made
    · exact Path.components_join ws.root (by rw [place, build]; rfl)
    · exact Path.components_join ws.root (by rw [place, deploy]; rfl)
  have levels : ((ws.root.join p.deployDir).entry dataDirectoryName).components.length =
      (ws.root.join output).components.length := by
    rw [destination, joined, (components_of_laidOut usual (laid hp)).2]
    obtain ⟨file, place⟩ | ⟨file, -, place⟩ := made
    · rw [place, build]
      simp
    · rw [place, deploy]
      simp
  have same := Path.same_of_meets levels meets
  have components := Path.same_iff.1 same
  rw [destination, joined, List.append_cancel_left_eq, (components_of_laidOut usual (laid hp)).2]
    at components
  obtain ⟨file, place⟩ | ⟨file, hfile, place⟩ := made
  · rw [place, build] at components
    simp at components
  · rw [place, deploy] at components
    simp only [List.cons_append, List.nil_append, List.cons.injEq, Component.name.injEq, true_and,
      and_true] at components
    obtain ⟨name, rfl⟩ := components
    obtain ⟨gcc, -, data⟩ := Project.data_mem_artifactNames_iff.1 hfile
    exact ⟨gcc, name.trans data, same⟩

end Workspace

/-- With the usual directories data is deployed to the place of what is built, to a directory of it
or into it, only where the GNU toolchain links an executable that is called like the directory and
has data of its own; and there the program and its data have one place. -/
theorem deployTargets_meet_iff {ws : Workspace}
    (names : ∀ d ∈ ws.manifest.projects, IsEntryName d.name) (usual : ws.UsualDirs) {h : Host}
    {toolchain : Toolchain} {configuration : Configuration} {projects : List Project}
    {g : BuildGraph} (resolved : ws.resolve h toolchain.platform configuration = .ok projects)
    (generated : BuildGraph.generate toolchain configuration projects = .ok g) :
    (∀ t ∈ deployTargets ws.root projects, ∀ s ∈ g.statements, ∀ output ∈ s.outputs,
      t.call.destination.Meets (ws.root.join output) →
        toolchain.platform = .gcc ∧ t.project = "data" ∧
          t.call.destination.same (ws.root.join output) = true) ∧
    ((∃ t ∈ deployTargets ws.root projects, ∃ s ∈ g.statements, ∃ output ∈ s.outputs,
        t.call.destination.Meets (ws.root.join output)) ↔
      toolchain.platform = .gcc ∧ ∃ t ∈ deployTargets ws.root projects, t.project = "data") := by
  refine ⟨fun t ht s hs output houtput meets =>
    Workspace.data_of_meets names usual resolved ht generated hs houtput meets, ?_⟩
  constructor
  · rintro ⟨t, ht, s, hs, output, houtput, meets⟩
    obtain ⟨gcc, data, -⟩ :=
      Workspace.data_of_meets names usual resolved ht generated hs houtput meets
    exact ⟨gcc, t, ht, data⟩
  · rintro ⟨gcc, t, ht, data⟩
    obtain ⟨s, hs, output, houtput, same⟩ :=
      Workspace.exists_output_of_data names usual resolved ht generated gcc data
    exact ⟨t, ht, s, hs, output, houtput, Path.meets_of_same same⟩

/-- A program with the name of the directory that its data is deployed to, and a library whose name
holds that name. -/
def namesakeWorkspace : Workspace :=
  { root := ⟨"./w"⟩
    manifestPath := ⟨"./w/Shipwright.toml"⟩
    manifest :=
      { projects :=
          [{ name := "libdata.a", kind := .staticLibrary, sources := []
             testAggregate := some ⟨⟨"tests"⟩, "*.c", ⟨"data.c"⟩⟩ },
            { name := "data", kind := .executable, sources := [], links := ["libdata.a"]
              data := some ⟨"assets"⟩
              testAggregate := some ⟨⟨"tests"⟩, "*.c", ⟨"data.c"⟩⟩ }] } }

theorem namesakeWorkspace_names :
    ∀ d ∈ namesakeWorkspace.manifest.projects, IsEntryName d.name := by
  decide

theorem namesakeWorkspace_usual : namesakeWorkspace.UsualDirs := ⟨rfl, rfl⟩

/-- The data of the program is to be deployed, whichever toolchain links it. -/
theorem exists_target_namesakeWorkspace {platform : Platform} {projects : List Project}
    (resolved : namesakeWorkspace.resolve default platform .debug = .ok projects) :
    ∃ t ∈ deployTargets namesakeWorkspace.root projects, t.project = "data" := by
  have targets := Workspace.deployTargets_eq
    ((Workspace.forall₂_of_resolve resolved).2.imp fun d p one => ⟨_, one⟩)
  rw [targets]
  cases platform <;> decide +kernel

/-- The Microsoft toolchain links a program of another name, and there nothing is met. -/
theorem deployTargets_meet_iff_namesakeWorkspace :
    (∃ projects g, namesakeWorkspace.resolve default .msvc .debug = .ok projects ∧
      BuildGraph.generate (.msvc {}) .debug projects = .ok g ∧
      (∃ t ∈ deployTargets namesakeWorkspace.root projects, t.project = "data") ∧
      ¬ ∃ t ∈ deployTargets namesakeWorkspace.root projects, ∃ s ∈ g.statements,
        ∃ output ∈ s.outputs, t.call.destination.Meets (namesakeWorkspace.root.join output)) ∧
    ∃ projects g, namesakeWorkspace.resolve default .gcc .debug = .ok projects ∧
      BuildGraph.generate (.gcc {}) .debug projects = .ok g ∧
      ∃ t ∈ deployTargets namesakeWorkspace.root projects, ∃ s ∈ g.statements,
        ∃ output ∈ s.outputs, t.call.destination.Meets (namesakeWorkspace.root.join output) := by
  constructor
  · let toolchain : Toolchain := .msvc {}
    obtain ⟨g, made⟩ := exists_eq_ok (x := namesakeWorkspace.resolve default toolchain.platform
      .debug >>= BuildGraph.generate toolchain .debug) (by decide +kernel)
    obtain ⟨projects, resolved, generated⟩ := bind_eq_ok.1 made
    obtain ⟨-, meet⟩ := deployTargets_meet_iff namesakeWorkspace_names namesakeWorkspace_usual
      resolved generated
    exact ⟨projects, g, resolved, generated, exists_target_namesakeWorkspace resolved,
      fun met => absurd (meet.1 met).1 (by decide)⟩
  · let toolchain : Toolchain := .gcc {}
    obtain ⟨g, made⟩ := exists_eq_ok (x := namesakeWorkspace.resolve default toolchain.platform
      .debug >>= BuildGraph.generate toolchain .debug) (by decide +kernel)
    obtain ⟨projects, resolved, generated⟩ := bind_eq_ok.1 made
    obtain ⟨-, meet⟩ := deployTargets_meet_iff namesakeWorkspace_names namesakeWorkspace_usual
      resolved generated
    exact ⟨projects, g, resolved, generated,
      meet.2 ⟨rfl, exists_target_namesakeWorkspace resolved⟩⟩

/-- The data of the program is to be deployed to where the GNU toolchain links the program. -/
theorem target_eq_output_namesakeWorkspace :
    ∃ projects g, namesakeWorkspace.resolve default .gcc .debug = .ok projects ∧
      BuildGraph.generate (.gcc {}) .debug projects = .ok g ∧
      ∃ t ∈ deployTargets namesakeWorkspace.root projects, ∃ s ∈ g.statements,
        ∃ output ∈ s.outputs,
          t.call.destination.same (namesakeWorkspace.root.join output) = true := by
  let toolchain : Toolchain := .gcc {}
  obtain ⟨g, made⟩ := exists_eq_ok (x := namesakeWorkspace.resolve default toolchain.platform
    .debug >>= BuildGraph.generate toolchain .debug) (by decide +kernel)
  obtain ⟨projects, resolved, generated⟩ := bind_eq_ok.1 made
  obtain ⟨t, ht, data⟩ := exists_target_namesakeWorkspace resolved
  exact ⟨projects, g, resolved, generated, t, ht,
    Workspace.exists_output_of_data namesakeWorkspace_names namesakeWorkspace_usual resolved ht
      generated rfl data⟩

end BuildPlanner
