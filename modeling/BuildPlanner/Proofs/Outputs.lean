import BuildPlanner.Proofs.Commands
import BuildPlanner.Proofs.Production
import BuildPlanner.Proofs.Resolution

/-!
# Every file is made once

No two statements of a generated graph make the same file, and none makes a file twice, whichever
projects and kinds of files they are; no two compilations share a dependency file
(`nodup_outputs_of_resolve`).

* What is made in different directories is different (`nodup_flatMap_of_dropLast`).
* So it is enough that no two directories of projects are the same (`Separate`).
* The directories of resolved projects differ, since the names do and since what is built and what
  is deployed are kept apart (`Workspace.separate_of_resolve`).
-/

namespace BuildPlanner

/-- Places differ if they are in different directories. -/
theorem nodup_flatMap_of_dropLast {α : Type} {xs : List α} {places : α → List (List Component)}
    {directories : α → List (List Component)} (distinct : (xs.flatMap directories).Nodup)
    (each : ∀ x ∈ xs, (places x).Nodup)
    (inside : ∀ x ∈ xs, ∀ place ∈ places x, place.dropLast ∈ directories x) :
    (xs.flatMap places).Nodup := by
  refine List.nodup_flatMap.2 ⟨each, ?_⟩
  refine (List.nodup_flatMap.1 distinct).2.imp_of_mem fun {x y} hx hy apart => ?_
  intro place first second
  exact apart (inside x hx place first) (inside y hy place second)

/-! ## What the statements of a graph make -/

/-- Projects in directories of their own, with names and sources that name files. -/
structure Separate (projects : List Project) : Prop where
  directories : (projects.flatMap Project.directories).Nodup
  names : ∀ p ∈ projects, IsEntryName p.name
  sources : ∀ p ∈ projects, ∀ source ∈ p.sources, source.fileName?.isSome

namespace BuildGraph

variable {toolchain : Toolchain} {configuration : Configuration} {projects : List Project}
  {g : BuildGraph}

/-- What is made for projects that are kept apart differs, if it differs for each of them. -/
theorem nodup_flatMap_of_separate (separate : Separate projects)
    (h : generate toolchain configuration projects = .ok g)
    {f : EmittedProject → List (List Component)}
    (each : ∀ p ∈ projects, ∀ archives e, p.emit toolchain configuration archives = .ok e →
      (f e).Nodup ∧ ∀ place ∈ f e, place.dropLast ∈ p.directories) :
    ((projects.zip g.projects).flatMap fun pair => f pair.2).Nodup := by
  have same : (projects.zip g.projects).map Prod.fst = projects :=
    List.map_fst_zip (Nat.le_of_eq (generate_split h).1)
  have distinct := separate.directories
  rw [← same, List.flatMap_map] at distinct
  have each : ∀ pair ∈ projects.zip g.projects,
      (f pair.2).Nodup ∧ ∀ place ∈ f pair.2, place.dropLast ∈ pair.1.directories := by
    intro pair hpair
    obtain ⟨archives, emitted⟩ := emit_of_generate h hpair
    exact each pair.1 (List.of_mem_zip hpair).1 archives pair.2 emitted
  exact nodup_flatMap_of_dropLast distinct (fun pair hpair => (each pair hpair).1)
    fun pair hpair => (each pair hpair).2

/-- No place is made twice in a graph of projects that are kept apart. -/
theorem nodup_places_of_generate (separate : Separate projects)
    (h : generate toolchain configuration projects = .ok g) : (places g.statements).Nodup := by
  have whole : places g.statements =
      (projects.zip g.projects).flatMap fun pair => places pair.2.statements := by
    rw [statements_of_generate h, places, emittedStatements, List.flatMap_assoc, List.map_flatMap]
    rfl
  rw [whole]
  refine nodup_flatMap_of_separate separate h (f := fun e => places e.statements)
    fun p hp archives e emitted => ?_
  exact Project.nodup_places_of_emit ((List.nodup_flatMap.1 separate.directories).1 p hp)
    (separate.names p hp) (separate.sources p hp) emitted

/-! ## Dependency files -/

/-- The file in which the command of a statement notes what it has read, if its rule has one. -/
def dependencyFile? (g : BuildGraph) (s : Statement) : Option Path :=
  ((g.rule? s.rule).bind (·.depfile)).map fun text => ⟨s.expand text⟩

theorem dependencyFile?_gcc {tools : Gcc} (rules : g.rules = (Toolchain.gcc tools).rules)
    (task : CompileTask) :
    g.dependencyFile? (Gcc.compile task configuration) = some (Gcc.depfilePath task.object) := by
  rw [dependencyFile?, rule?, rules, Toolchain.rules, Gcc.rules_eq]
  exact congrArg (fun text => some (Path.mk text)) (Gcc.expand_dependencies task configuration)

theorem dependencyFile?_archive_link {tools : Gcc} {s : Statement}
    (rules : g.rules = (Toolchain.gcc tools).rules) (h : s.rule = "ar" ∨ s.rule = "ld") :
    g.dependencyFile? s = none := by
  rw [dependencyFile?, rule?, rules, Toolchain.rules, Gcc.rules_eq]
  obtain h | h := h <;> rw [h] <;> rfl

theorem dependencyFile?_msvc {tools : Msvc} (rules : g.rules = (Toolchain.msvc tools).rules)
    (s : Statement) : g.dependencyFile? s = none := by
  have none : ∀ r ∈ g.rules, r.depfile = none := by
    rw [rules, Toolchain.rules, Msvc.rules_eq]
    simp
  cases found : g.rule? s.rule with
  | none =>
    rw [dependencyFile?, found]
    rfl
  | some r =>
    rw [dependencyFile?, found, Option.bind_some, none r (List.mem_of_find?_eq_some found)]
    rfl

/-- A dependency file is next to the object and has its stem. -/
theorem dependencyFiles_compileStatements {p : Project} {tools : Gcc}
    (rules : g.rules = (Toolchain.gcc tools).rules)
    (named : ∀ source ∈ p.sources, source.fileName?.isSome) :
    ((p.sources.map (p.compileStatement (.gcc tools) configuration)).filterMap
        g.dependencyFile?).map Path.components =
      entriesOf p.buildDir.components
        ((p.sources.map Path.stem).map fun stem => Path.withExtension stem "d") := by
  have each : ∀ source ∈ p.sources,
      g.dependencyFile? (p.compileStatement (.gcc tools) configuration source) =
        some (Gcc.depfilePath (p.objectOf (.gcc tools) source)) :=
    fun source _ => dependencyFile?_gcc rules _
  rw [List.filterMap_map, Function.comp_def, List.filterMap_congr each, List.filterMap_eq_map',
    entriesOf, List.map_map, List.map_map, List.map_map]
  refine List.map_congr_left fun source hsource => ?_
  rw [Function.comp_apply, Project.objectOf_eq]
  exact Path.components_parentOrEmpty_withStemOf p.buildDir
    (Path.stem_ne_empty (named source hsource)) (Path.slash_notMem_stem source)
    (Toolchain.gcc tools).isExtension_objectExtension (by decide)

/-- The dependency files of a project are in its directory of intermediate files, each once. -/
theorem dependencyFiles_of_emit {p : Project} {archives : Archives} {e : EmittedProject}
    (rules : g.rules = toolchain.rules) (named : ∀ source ∈ p.sources, source.fileName?.isSome)
    (h : p.emit toolchain configuration archives = .ok e) :
    ∃ names : List String, names.Nodup ∧
      (e.statements.filterMap g.dependencyFile?).map Path.components =
        entriesOf p.buildDir.components names := by
  cases toolchain with
  | msvc tools =>
    refine ⟨[], List.nodup_nil, ?_⟩
    rw [List.filterMap_eq_nil_iff.2 fun s _ => dependencyFile?_msvc rules s]
    rfl
  | gcc tools =>
    have distinct (kind : p.kind ≠ .headerOnly) :
        ((p.sources.map Path.stem).map fun stem => Path.withExtension stem "d").Nodup :=
      (Project.nodup_stems_of_emit h kind).map fun a b same =>
        ((Path.withExtension_inj (by decide) (by decide)).1 same).1
    have last (s : Statement) (rule : s.rule = "ar" ∨ s.rule = "ld") :
        (((p.sources.map (p.compileStatement (.gcc tools) configuration)) ++ [s]).filterMap
          g.dependencyFile?).map Path.components =
            entriesOf p.buildDir.components
              ((p.sources.map Path.stem).map fun stem => Path.withExtension stem "d") := by
      rw [List.filterMap_append, List.filterMap_cons_none (dependencyFile?_archive_link rules rule),
        List.filterMap_nil, List.append_nil, dependencyFiles_compileStatements rules named]
    obtain ⟨-, rfl⟩ | ⟨kind, -, rfl⟩ |
      ⟨spec, resource, libraries, kind, -, made, -, rfl⟩ := Project.emit_cases h
    · exact ⟨[], List.nodup_nil, rfl⟩
    · exact ⟨_, distinct (by simp [kind]), last _ (.inl rfl)⟩
    · obtain ⟨-, rfl⟩ | ⟨_, _, _, -, -, extension, -⟩ := Project.resource_eq_ok made
      · refine ⟨_, distinct (by simp [kind]), ?_⟩
        rw [Option.map_none, Option.toList_none, List.append_nil]
        exact last _ (.inr rfl)
      · exact absurd rfl extension

/-- No dependency file is written twice for projects that are kept apart. -/
theorem nodup_dependencyFiles_of_generate (separate : Separate projects)
    (h : generate toolchain configuration projects = .ok g) :
    ((g.statements.filterMap g.dependencyFile?).map Path.components).Nodup := by
  have whole : (g.statements.filterMap g.dependencyFile?).map Path.components =
      (projects.zip g.projects).flatMap fun pair =>
        (pair.2.statements.filterMap g.dependencyFile?).map Path.components := by
    rw [statements_of_generate h, emittedStatements, List.filterMap_flatMap, List.map_flatMap]
  rw [whole]
  refine nodup_flatMap_of_separate separate h
    (f := fun e => (e.statements.filterMap g.dependencyFile?).map Path.components)
    fun p hp archives e emitted => ?_
  obtain ⟨names, nodup, all⟩ :=
    dependencyFiles_of_emit (rules_of_generate h) (separate.sources p hp) emitted
  rw [all]
  refine ⟨nodup_entriesOf nodup, fun place hplace => ?_⟩
  rw [dropLast_of_mem_entriesOf hplace]
  exact List.mem_cons_self

/-- Every compilation of the GNU toolchain has a dependency file. -/
theorem isSome_dependencyFile? (gcc : toolchain.platform = .gcc)
    (h : generate toolchain configuration projects = .ok g) {s : Statement} (hs : s ∈ g.statements)
    (kind : s.kind = .compile) : (g.dependencyFile? s).isSome := by
  cases toolchain with
  | msvc tools => cases gcc
  | gcc tools =>
    cases issued_of_generate h hs with
    | compile task =>
      exact Option.isSome_of_eq_some (dependencyFile?_gcc (rules_of_generate h) task)
    | archive task => cases kind
    | link task => cases kind
    | resource task issued => cases issued

end BuildGraph

/-! ## Resolved projects -/

namespace Workspace

variable {ws : Workspace} {h : Host} {platform : Platform} {configuration : Configuration}
  {projects : List Project}

theorem components_layoutDir (base : Path) {name : String} (hname : IsEntryName name)
    (platform : Platform) (configuration : Configuration) :
    (layoutDir base name platform configuration).components =
      base.components ++
        [.name name, .name platform.directoryName, .name configuration.directoryName] := by
  have platforms : IsEntryName platform.directoryName := by cases platform <;> decide
  have configurations : IsEntryName configuration.directoryName := by
    cases configuration <;> decide
  rw [layoutDir, Path.components_entry _ configurations, Path.components_entry _ platforms,
    Path.components_entry _ hname, List.append_assoc, List.append_assoc]
  rfl

/-- The directories for projects differ, where the names do. -/
theorem nodup_layoutDirs {buildDir deployDir : Path} (apart : buildDir.same deployDir = false)
    (platform : Platform) (configuration : Configuration) {names : List String}
    (distinct : names.Nodup) (entries : ∀ name ∈ names, IsEntryName name) :
    (names.flatMap fun name =>
      [(layoutDir buildDir name platform configuration).components,
        (layoutDir deployDir name platform configuration).components]).Nodup := by
  have differ : buildDir.components ≠ deployDir.components := by
    rwa [← Bool.not_eq_true, Path.same_iff] at apart
  -- Two directories that are the same are laid out for one name, below the same directory.
  have injective {base other : Path} {a b : String} (ha : IsEntryName a) (hb : IsEntryName b)
      (same : (layoutDir base a platform configuration).components =
        (layoutDir other b platform configuration).components) :
      base.components = other.components ∧ a = b := by
    rw [components_layoutDir base ha, components_layoutDir other hb] at same
    obtain ⟨bases, tails⟩ := List.append_inj' same rfl
    exact ⟨bases, Component.name.inj (List.cons.inj tails).1⟩
  refine List.nodup_flatMap.2 ⟨fun a ha => ?_, distinct.imp_of_mem fun {a b} ha hb other => ?_⟩
  · rw [List.nodup_cons, List.mem_singleton]
    exact ⟨fun same => differ (injective (entries a ha) (entries a ha) same).1,
      List.nodup_singleton _⟩
  · intro place first second
    simp only [List.mem_cons, List.not_mem_nil, or_false] at first second
    obtain rfl | rfl := first <;> obtain same | same := second <;>
      exact other (injective (entries a ha) (entries b hb) same).2

/-- Resolved projects are kept apart by what is declared. -/
theorem separate_of_resolve (names : ∀ d ∈ ws.manifest.projects, IsEntryName d.name)
    (apart : ws.manifest.workspace.buildDir.same ws.manifest.workspace.deployDir = false)
    (resolved : ws.resolve h platform configuration = .ok projects)
    (named : ∀ p ∈ projects, ∀ source ∈ p.sources, source.fileName?.isSome) :
    Separate projects := by
  obtain ⟨well, all⟩ := forall₂_of_resolve resolved
  have same : (ws.enabled platform).map (·.name) = projects.map (·.name) :=
    map_eq_map_of_forall₂ all fun _ _ one => (resolves_of_resolveProject one).name.symm
  have directories : ((ws.enabled platform).map fun d =>
      [(ws.buildDir d.name platform configuration).components,
        (ws.deployDir d.name platform configuration).components]) =
      projects.map Project.directories := by
    refine map_eq_map_of_forall₂ all fun _ _ one => ?_
    obtain ⟨others, found, -, -, rfl⟩ := exists_of_resolveProject one
    rfl
  have entries : ∀ name ∈ (ws.enabled platform).map (·.name), IsEntryName name := by
    intro name hname
    obtain ⟨d, hd, rfl⟩ := List.mem_map.1 hname
    exact names d (List.mem_filter.1 hd).1
  refine ⟨?_, fun p hp => entries _ (same ▸ List.mem_map_of_mem hp), named⟩
  have laid := nodup_layoutDirs apart platform configuration well.nodup entries
  rw [List.flatMap_map] at laid
  rw [List.flatMap_def, ← directories, ← List.flatMap_def]
  exact laid

end Workspace

/-- No place is an output of two statements of a graph, or twice of one, and no two statements share
a dependency file, which every compilation of the GNU toolchain has. -/
theorem nodup_outputs_of_resolve {ws : Workspace} {h : Host} {toolchain : Toolchain}
    {configuration : Configuration} {projects : List Project} {g : BuildGraph}
    (names : ∀ d ∈ ws.manifest.projects, IsEntryName d.name)
    (apart : ws.manifest.workspace.buildDir.same ws.manifest.workspace.deployDir = false)
    (resolved : ws.resolve h toolchain.platform configuration = .ok projects)
    (named : ∀ p ∈ projects, ∀ source ∈ p.sources, source.fileName?.isSome)
    (generated : BuildGraph.generate toolchain configuration projects = .ok g) :
    ((g.statements.flatMap (·.outputs)).map Path.components).Nodup ∧
      ((g.statements.filterMap g.dependencyFile?).map Path.components).Nodup ∧
      (toolchain.platform = .gcc →
        ∀ s ∈ g.statements, s.kind = .compile → (g.dependencyFile? s).isSome) := by
  have separate := Workspace.separate_of_resolve names apart resolved named
  exact ⟨BuildGraph.nodup_places_of_generate separate generated,
    BuildGraph.nodup_dependencyFiles_of_generate separate generated,
    fun gcc _ => BuildGraph.isSome_dependencyFile? gcc generated⟩

/-- A workspace that keeps artifacts below the intermediate files of a project, with several dots in
names, and with a resource where it can be compiled. -/
def dottedWorkspace : Workspace :=
  { root := ⟨"/w"⟩
    manifestPath := ⟨"/w/Shipwright.toml"⟩
    manifest :=
      { workspace := ⟨⟨"Code"⟩, ⟨"Build"⟩, ⟨"Build/core"⟩⟩
        projects :=
          [{ name := "core", kind := .staticLibrary, sources := []
             testAggregate := some ⟨⟨"tests"⟩, "*.c", ⟨".core.obj.c"⟩⟩ },
            { name := "app.pdb", kind := .executable, sources := [], links := ["core"]
              toolchains := [.msvc], resource := some ⟨"app.rc"⟩
              testAggregate := some ⟨⟨"tests"⟩, "*.c", ⟨"app.c"⟩⟩ },
            { name := "app.o", kind := .executable, sources := [], links := ["core"]
              toolchains := [.gcc]
              testAggregate := some ⟨⟨"tests"⟩, "*.c", ⟨"app.c"⟩⟩ }] } }

theorem nodup_outputs_of_resolve_dottedWorkspace :
    (∃ projects g, dottedWorkspace.resolve default .msvc .debug = .ok projects ∧
      BuildGraph.generate (.msvc {}) .debug projects = .ok g ∧
      ((g.statements.flatMap (·.outputs)).map Path.components).Nodup) ∧
    ∃ projects g, dottedWorkspace.resolve default .gcc .debug = .ok projects ∧
      BuildGraph.generate (.gcc {}) .debug projects = .ok g ∧
      ((g.statements.flatMap (·.outputs)).map Path.components).Nodup ∧
      ((g.statements.filterMap g.dependencyFile?).map Path.components).Nodup ∧
      ∀ s ∈ g.statements, s.kind = .compile → (g.dependencyFile? s).isSome := by
  have runs : ∀ toolchain ∈ [Toolchain.gcc {}, .msvc {}], ∃ projects g,
      dottedWorkspace.resolve default toolchain.platform .debug = .ok projects ∧
      (∀ p ∈ projects, ∀ source ∈ p.sources, source.fileName?.isSome) ∧
      BuildGraph.generate toolchain .debug projects = .ok g := by
    refine List.forall_mem_cons.2 ⟨?_, List.forall_mem_singleton.2 ?_⟩
    · exact ⟨_, _, by cbv, by decide, by cbv⟩
    · exact ⟨_, _, by cbv, by decide, by cbv⟩
  constructor
  · obtain ⟨projects, g, resolved, named, generated⟩ := runs (.msvc {}) (by decide)
    exact ⟨projects, g, resolved, generated,
      (nodup_outputs_of_resolve (by decide) (by decide) resolved named generated).1⟩
  · obtain ⟨projects, g, resolved, named, generated⟩ := runs (.gcc {}) (by decide)
    obtain ⟨outputs, dependencies, each⟩ :=
      nodup_outputs_of_resolve (by decide) (by decide) resolved named generated
    exact ⟨projects, g, resolved, generated, outputs, dependencies, each rfl⟩

end BuildPlanner
