import BuildPlanner.Proofs.Outputs

/-!
# One configuration beside another

What is built for a toolchain and a configuration stands apart from what is built for another pair
of them, and so do the build descriptions, wherever the directories of the workspace are
(`outputs_apart_of_resolve`).

* The statements of a project make files in its directory of intermediate files, and in its
  directory of artifacts those that are named after it (`Project.mem_places_of_emit`).
* Both directories end in the names of the project, the platform and the configuration
  (`Workspace.LaidOut`), so the last four components of a place tell what it was made for.
-/

namespace BuildPlanner

open BuildPlanner.Path (withExtension IsExtension)

variable {toolchain : Toolchain} {configuration : Configuration}

/-! ## Where a project is built -/

/-- The names of what a project leaves in its directory of artifacts. -/
def Project.artifactNames (p : Project) (toolchain : Toolchain) (configuration : Configuration) :
    List String :=
  match p.kind with
  | .headerOnly => []
  | .staticLibrary => [toolchain.artifactName .staticLibrary p.name]
  | .executable _ => toolchain.programNames configuration p.name

/-- The object of a source and its database are in the directory of the object. -/
theorem Toolchain.mem_outputs_compile {task : CompileTask} (directory : Path) {name : String}
    (hname : IsEntryName name) (object : task.object = directory.entry name) {output : Path}
    (houtput : output ∈ (toolchain.compile task configuration).outputs) :
    ∃ file, output.components = directory.components ++ [.name file] := by
  have first : task.object.components = directory.components ++ [.name name] := by
    rw [object, Path.components_entry directory hname]
  cases toolchain with
  | gcc tools =>
    rw [List.mem_singleton.1 houtput]
    exact ⟨name, first⟩
  | msvc tools =>
    obtain rfl | database := List.mem_cons.1 houtput
    · exact ⟨name, first⟩
    · rw [Msvc.database?] at database
      split at database
      · rw [Option.toList_some, List.mem_singleton] at database
        rw [database, Msvc.databasePath, object,
          Path.components_withStemOf_entry directory hname (by decide)]
        exact ⟨_, rfl⟩
      · cases database

namespace Project

variable {p : Project} {place : List Component}

theorem mem_places_compileStatements
    (hplace : place ∈ places (p.sources.map (p.compileStatement toolchain configuration))) :
    ∃ file, place = p.buildDir.components ++ [.name file] := by
  obtain ⟨s, hs, output, houtput, rfl⟩ := mem_places_iff.1 hplace
  obtain ⟨source, -, rfl⟩ := List.mem_map.1 hs
  have object : IsEntryName (withExtension source.stem toolchain.objectExtension) :=
    Path.isEntryName_withExtension (Path.slash_notMem_stem source)
      toolchain.isExtension_objectExtension
  exact Toolchain.mem_outputs_compile p.buildDir object (objectOf_eq source) houtput

/-- Whatever the sources are called, all that is made for a project is an entry of one of its
directories, and what is made among its artifacts has one of their names. -/
theorem mem_places_of_emit {archives : Archives} {e : EmittedProject} (name : IsEntryName p.name)
    (h : p.emit toolchain configuration archives = .ok e) (hplace : place ∈ places e.statements) :
    (∃ file, place = p.buildDir.components ++ [.name file]) ∨
      ∃ file ∈ p.artifactNames toolchain configuration,
        place = p.deployDir.components ++ [.name file] := by
  have deployed {names : List String}
      (hplace : place ∈ entriesOf p.deployDir.components names) :
      ∃ file ∈ names, place = p.deployDir.components ++ [.name file] := by
    obtain ⟨file, hfile, rfl⟩ := List.mem_map.1 hplace
    exact ⟨file, hfile, rfl⟩
  obtain ⟨-, rfl⟩ | ⟨kind, -, rfl⟩ |
    ⟨spec, resource, libraries, kind, -, made, -, rfl⟩ := emit_cases h
  · cases hplace
  · rw [artifactNames, kind]
    rw [places_append, places_archiveStatement name] at hplace
    exact (List.mem_append.1 hplace).imp mem_places_compileStatements deployed
  · rw [artifactNames, kind]
    rw [places_append, places_append, places_linkStatement name,
      places_resource configuration made] at hplace
    refine (List.mem_append.1 hplace).imp (fun built => ?_) deployed
    obtain compiled | resource := List.mem_append.1 built
    · exact mem_places_compileStatements compiled
    · obtain ⟨file, -, rfl⟩ := List.mem_map.1 resource
      exact ⟨file, rfl⟩

/-- Every artifact of a project is made. -/
theorem mem_places_of_mem_artifactNames {archives : Archives} {e : EmittedProject}
    (name : IsEntryName p.name) (h : p.emit toolchain configuration archives = .ok e)
    {file : String} (hfile : file ∈ p.artifactNames toolchain configuration) :
    p.deployDir.components ++ [.name file] ∈ places e.statements := by
  obtain ⟨kind, rfl⟩ | ⟨kind, -, rfl⟩ | ⟨spec, resource, libraries, kind, -, -, -, rfl⟩ :=
    emit_cases h <;> rw [artifactNames, kind] at hfile
  · cases hfile
  · rw [places_append, places_archiveStatement name]
    exact List.mem_append_right _ (List.mem_map_of_mem hfile)
  · rw [places_append, places_linkStatement name]
    exact List.mem_append_right _ (List.mem_map_of_mem hfile)

end Project

theorem BuildGraph.mem_places_of_generate {projects : List Project} {g : BuildGraph}
    (names : ∀ p ∈ projects, IsEntryName p.name)
    (generated : generate toolchain configuration projects = .ok g) {place : List Component}
    (hplace : place ∈ places g.statements) :
    ∃ p ∈ projects, (∃ file, place = p.buildDir.components ++ [.name file]) ∨
      ∃ file ∈ p.artifactNames toolchain configuration,
        place = p.deployDir.components ++ [.name file] := by
  obtain ⟨s, hs, made⟩ := mem_places_iff.1 hplace
  obtain ⟨e, he, hs⟩ := List.mem_flatMap.1 hs
  obtain ⟨p, hp⟩ := mem_zip_of_generate generated he
  obtain ⟨archives, emitted⟩ := emit_of_generate generated hp
  have hp : p ∈ projects := (List.of_mem_zip hp).1
  exact ⟨p, hp, Project.mem_places_of_emit (names p hp) emitted (mem_places_iff.2 ⟨s, hs, made⟩)⟩

theorem BuildGraph.mem_places_of_mem_artifactNames {projects : List Project} {g : BuildGraph}
    (generated : generate toolchain configuration projects = .ok g) {p : Project}
    (hp : p ∈ projects) (name : IsEntryName p.name) {file : String}
    (hfile : file ∈ p.artifactNames toolchain configuration) :
    p.deployDir.components ++ [.name file] ∈ places g.statements := by
  obtain ⟨e, hpair⟩ := exists_mem_zip_of_generate generated hp
  obtain ⟨archives, emitted⟩ := emit_of_generate generated hpair
  obtain ⟨s, hs, made⟩ :=
    mem_places_iff.1 (Project.mem_places_of_mem_artifactNames name emitted hfile)
  exact mem_places_iff.2 ⟨s, List.mem_flatMap.2 ⟨e, (List.of_mem_zip hpair).2, hs⟩, made⟩

/-! ## What a place was made for -/

namespace Workspace

variable {ws : Workspace} {h : Host} {platform : Platform} {projects : List Project}

/-- The directories of the project are laid out for its name. -/
structure LaidOut (ws : Workspace) (platform : Platform) (configuration : Configuration)
    (p : Project) : Prop where
  name : IsEntryName p.name
  buildDir : p.buildDir = ws.buildDir p.name platform configuration
  deployDir : p.deployDir = ws.deployDir p.name platform configuration

theorem laidOut_of_resolve (names : ∀ d ∈ ws.manifest.projects, IsEntryName d.name)
    (resolved : ws.resolve h platform configuration = .ok projects) {p : Project}
    (hp : p ∈ projects) : ws.LaidOut platform configuration p := by
  obtain ⟨d, hd, one⟩ := exists_of_mem_forall₂ (forall₂_of_resolve resolved).2.flip hp
  obtain ⟨others, found, -, -, rfl⟩ := exists_of_resolveProject one
  exact ⟨names d (List.mem_filter.1 hd).1, rfl, rfl⟩

/-- A file that is made for a toolchain and a configuration is in directories of their names. -/
theorem exists_directories_of_mem_places
    (names : ∀ d ∈ ws.manifest.projects, IsEntryName d.name)
    (resolved : ws.resolve h toolchain.platform configuration = .ok projects) {g : BuildGraph}
    (generated : BuildGraph.generate toolchain configuration projects = .ok g)
    {place : List Component} (hplace : place ∈ places g.statements) :
    ∃ base project file, place = base ++
      [.name project, .name toolchain.platform.directoryName, .name configuration.directoryName,
        .name file] := by
  have laid {p : Project} (hp : p ∈ projects) := laidOut_of_resolve names resolved hp
  obtain ⟨p, hp, ⟨file, rfl⟩ | ⟨file, -, rfl⟩⟩ :=
    BuildGraph.mem_places_of_generate (fun p hp => (laid hp).name) generated hplace
  · rw [(laid hp).buildDir, buildDir, components_layoutDir _ (laid hp).name, List.append_assoc]
    exact ⟨_, p.name, file, rfl⟩
  · rw [(laid hp).deployDir, deployDir, components_layoutDir _ (laid hp).name, List.append_assoc]
    exact ⟨_, p.name, file, rfl⟩

theorem components_ninjaFile (ws : Workspace) (platform : Platform)
    (configuration : Configuration) :
    (ws.ninjaFile platform configuration).components =
      ws.root.components ++ [.name s!"build-{platform}-{configuration}.ninja"] :=
  Path.components_entry ws.root (isEntryName_ninjaFile platform configuration)

/-- Build descriptions for different pairs have different names. -/
theorem ninjaFile_injective {platform' : Platform} {configuration' : Configuration}
    (same : (ws.ninjaFile platform configuration).components =
      (ws.ninjaFile platform' configuration').components) :
    (platform, configuration) = (platform', configuration') := by
  rw [components_ninjaFile, components_ninjaFile, List.append_cancel_left_eq, List.singleton_inj,
    Component.name.injEq] at same
  revert same
  cases platform <;> cases platform' <;> cases configuration <;> cases configuration' <;> decide

end Workspace

/-- Nothing that is made for one toolchain and configuration is made for another pair, on whatever
files the two are resolved, and their build descriptions are different files. -/
theorem outputs_apart_of_resolve {ws : Workspace}
    (names : ∀ d ∈ ws.manifest.projects, IsEntryName d.name) {toolchain toolchain' : Toolchain}
    {configuration configuration' : Configuration}
    (other : (toolchain.platform, configuration) ≠ (toolchain'.platform, configuration'))
    {h h' : Host} {projects projects' : List Project} {g g' : BuildGraph}
    (resolved : ws.resolve h toolchain.platform configuration = .ok projects)
    (generated : BuildGraph.generate toolchain configuration projects = .ok g)
    (resolved' : ws.resolve h' toolchain'.platform configuration' = .ok projects')
    (generated' : BuildGraph.generate toolchain' configuration' projects' = .ok g') :
    (∀ s ∈ g.statements, ∀ output ∈ s.outputs, ∀ s' ∈ g'.statements, ∀ output' ∈ s'.outputs,
      output.same output' = false) ∧
    (ws.ninjaFile toolchain.platform configuration).same
      (ws.ninjaFile toolchain'.platform configuration') = false := by
  simp only [← Bool.not_eq_true, Path.same_iff]
  refine ⟨fun s hs output houtput s' hs' output' houtput' same => other ?_,
    fun same => other (Workspace.ninjaFile_injective same)⟩
  obtain ⟨base, project, file, place⟩ :=
    Workspace.exists_directories_of_mem_places names resolved generated
      (mem_places_iff.2 ⟨s, hs, output, houtput, rfl⟩)
  obtain ⟨base', project', file', place'⟩ :=
    Workspace.exists_directories_of_mem_places names resolved' generated'
      (mem_places_iff.2 ⟨s', hs', output', houtput', rfl⟩)
  rw [place, place'] at same
  -- The bases may be nested or equal: the four last components are compared from the end.
  obtain ⟨-, tails⟩ := List.append_inj' same rfl
  simp only [List.cons.injEq, Component.name.injEq] at tails
  obtain ⟨-, platforms, configurations, -, -⟩ := tails
  rw [Platform.directoryName_injective platforms,
    Configuration.directoryName_injective configurations]

/-- A workspace whose artifacts are among the intermediate files of one of its projects for the GNU
toolchain, where another project has the name of that platform. -/
def nestedWorkspace : Workspace :=
  { root := ⟨"/w"⟩
    manifestPath := ⟨"/w/Shipwright.toml"⟩
    manifest :=
      { workspace := ⟨⟨"Code"⟩, ⟨"Build"⟩, ⟨"Build/app/GCC/Debug"⟩⟩
        projects :=
          [{ name := "GCC", kind := .staticLibrary, sources := []
             testAggregate := some ⟨⟨"tests"⟩, "*.c", ⟨".."⟩⟩ },
            { name := "app", kind := .executable, sources := [], links := ["GCC"]
              testAggregate := some ⟨⟨"tests"⟩, "*.c", ⟨"GCC.c"⟩⟩ }] } }

theorem outputs_apart_of_resolve_nestedWorkspace :
    ∃ projects g projects' g',
      nestedWorkspace.resolve default .gcc .debug = .ok projects ∧
      BuildGraph.generate (.gcc {}) .debug projects = .ok g ∧
      nestedWorkspace.resolve default .msvc .release = .ok projects' ∧
      BuildGraph.generate (.msvc {}) .release projects' = .ok g' ∧
      (∀ s ∈ g.statements, ∀ output ∈ s.outputs, ∀ s' ∈ g'.statements, ∀ output' ∈ s'.outputs,
        output.same output' = false) ∧
      (nestedWorkspace.ninjaFile .gcc .debug).same (nestedWorkspace.ninjaFile .msvc .release) =
        false := by
  let toolchain : Toolchain := .gcc {}
  let toolchain' : Toolchain := .msvc {}
  obtain ⟨g, made⟩ := exists_eq_ok (x := nestedWorkspace.resolve default toolchain.platform
    .debug >>= BuildGraph.generate toolchain .debug) (by decide +kernel)
  obtain ⟨projects, resolved, generated⟩ := bind_eq_ok.1 made
  obtain ⟨g', made'⟩ := exists_eq_ok (x := nestedWorkspace.resolve default toolchain'.platform
    .release >>= BuildGraph.generate toolchain' .release) (by decide +kernel)
  obtain ⟨projects', resolved', generated'⟩ := bind_eq_ok.1 made'
  have names : ∀ d ∈ nestedWorkspace.manifest.projects, IsEntryName d.name := by decide
  have other : (toolchain.platform, Configuration.debug) ≠
      (toolchain'.platform, Configuration.release) := by decide
  have apart := outputs_apart_of_resolve names other resolved generated resolved' generated'
  exact ⟨projects, g, projects', g', resolved, generated, resolved', generated', apart⟩

end BuildPlanner
