import BuildPlanner.Proofs.Emission
import BuildPlanner.Proofs.Entries

/-!
# What is made for a project

Everything that the statements of a project make is an entry of its directory of intermediate files
or of its directory of artifacts, and no name is there twice (`Project.places_of_emit`).

* A file that is made of a source has the stem of the source, and different extensions stand for
  different kinds of files (`Toolchain.objectExtensions_apart`).
* Objects that are told apart by the check for collisions have different stems
  (`Project.nodup_stems_of_emit`).
* An artifact and its database are named after the project (`Toolchain.nodup_programNames`).
-/

namespace BuildPlanner

/-! ## Lists of entries -/

/-- The components of paths to entries of a directory. -/
def entriesOf (directory : List Component) (names : List String) : List (List Component) :=
  names.map fun name => directory ++ [.name name]

theorem nodup_entriesOf {directory : List Component} {names : List String} (h : names.Nodup) :
    (entriesOf directory names).Nodup := by
  refine h.map fun a b same => ?_
  simpa using same

theorem dropLast_of_mem_entriesOf {directory : List Component} {names : List String}
    {place : List Component} (h : place ∈ entriesOf directory names) :
    place.dropLast = directory := by
  obtain ⟨name, -, rfl⟩ := List.mem_map.1 h
  exact List.dropLast_concat

theorem entriesOf_append (directory : List Component) (names more : List String) :
    entriesOf directory (names ++ more) = entriesOf directory names ++ entriesOf directory more :=
  List.map_append

/-- A build description has a name of its own in its directory. -/
theorem isEntryName_ninjaFile (platform : Platform) (configuration : Configuration) :
    IsEntryName s!"build-{platform}-{configuration}.ninja" := by
  cases platform <;> cases configuration <;> decide

/-! ## What statements make -/

/-- The components of what statements make. -/
def places (statements : List Statement) : List (List Component) :=
  (statements.flatMap (·.outputs)).map Path.components

theorem mem_places_iff {statements : List Statement} {place : List Component} :
    place ∈ places statements ↔
      ∃ s ∈ statements, ∃ output ∈ s.outputs, output.components = place := by
  simp only [places, List.mem_map, List.mem_flatMap]
  constructor
  · rintro ⟨output, ⟨s, hs, houtput⟩, same⟩
    exact ⟨s, hs, output, houtput, same⟩
  · rintro ⟨s, hs, output, houtput, same⟩
    exact ⟨output, ⟨s, hs, houtput⟩, same⟩

theorem places_append (statements more : List Statement) :
    places (statements ++ more) = places statements ++ places more := by
  rw [places, List.flatMap_append, List.map_append]
  rfl

theorem places_singleton (s : Statement) : places [s] = s.outputs.map Path.components := by
  rw [places, List.flatMap_singleton]

namespace Toolchain

open BuildPlanner.Path (withExtension IsExtension)

variable (toolchain : Toolchain) (configuration : Configuration)

/-- The extensions of the databases that are made with an object or a program. -/
def databaseExtensions : List String :=
  match toolchain with
  | gcc _ => []
  | msvc _ => if configuration.hasDebugSymbols then ["pdb"] else []

/-- The extensions of what is made of a source. -/
def objectExtensions : List String :=
  toolchain.objectExtension :: toolchain.databaseExtensions configuration

/-- The names of what is linked for an executable. -/
def programNames (name : String) : List String :=
  toolchain.artifactName .executable name ::
    (toolchain.databaseExtensions configuration).map (withExtension name)

theorem isExtension_objectExtension : IsExtension toolchain.objectExtension := by
  cases toolchain
  · exact (by decide : IsExtension Gcc.objectExtension)
  · exact (by decide : IsExtension Msvc.objectExtension)

/-- The extensions of what a toolchain makes of sources and of resources differ. -/
theorem objectExtensions_apart :
    (∀ extension ∈ toolchain.objectExtensions configuration, IsExtension extension) ∧
      (toolchain.objectExtensions configuration).Nodup ∧
      Msvc.resourceExtension ∉ toolchain.objectExtensions configuration := by
  have extensions :
      toolchain.objectExtensions configuration ∈ [["o"], ["obj"], ["obj", "pdb"]] := by
    cases toolchain <;> cases configuration <;> simp [objectExtensions, objectExtension,
      databaseExtensions, Gcc.objectExtension, Msvc.objectExtension, Configuration.hasDebugSymbols]
  exact (by decide : ∀ extensions ∈ [["o"], ["obj"], ["obj", "pdb"]],
    (∀ extension ∈ extensions, IsExtension extension) ∧ extensions.Nodup ∧
      Msvc.resourceExtension ∉ extensions) _ extensions

/-- A database has the stem of the file that it belongs to. -/
theorem components_database? (directory : Path) {stem extension : String} (nonempty : stem ≠ "")
    (slash : '/' ∉ stem.toList) (h : IsExtension extension) (tools : Msvc) :
    (Msvc.database? (directory.entry (withExtension stem extension)) configuration).toList.map
        Path.components =
      entriesOf directory.components
        (((msvc tools).databaseExtensions configuration).map (withExtension stem)) := by
  rw [Msvc.database?, databaseExtensions]
  cases configuration.hasDebugSymbols
  · rfl
  · simp only [if_true, Option.toList_some, List.map_singleton, Msvc.databasePath, entriesOf]
    rw [Path.components_parentOrEmpty_withStemOf directory nonempty slash h (by decide)]

/-- What is made of a source has the stem of the object and is in its directory. -/
theorem components_outputs_compile {task : CompileTask} (directory : Path) {stem : String}
    (nonempty : stem ≠ "") (slash : '/' ∉ stem.toList)
    (object : task.object = directory.entry (withExtension stem toolchain.objectExtension)) :
    (toolchain.compile task configuration).outputs.map Path.components =
      entriesOf directory.components
        ((toolchain.objectExtensions configuration).map (withExtension stem)) := by
  have first : task.object.components =
      directory.components ++ [.name (withExtension stem toolchain.objectExtension)] := by
    rw [object, Path.components_entry directory
      (Path.isEntryName_withExtension slash toolchain.isExtension_objectExtension)]
  rw [objectExtensions, List.map_cons, entriesOf, List.map_cons, ← first]
  cases toolchain with
  | gcc tools => rfl
  | msvc tools =>
    have databases := components_database? configuration directory nonempty slash
      (msvc tools).isExtension_objectExtension tools
    rw [← object] at databases
    exact congrArg _ databases

end Toolchain

/-! ## What is made for a project -/

namespace Project

open BuildPlanner.Path (withExtension IsExtension)

variable {p : Project} {toolchain : Toolchain} {configuration : Configuration}

/-- The directories of what is made for a project. -/
def directories (p : Project) : List (List Component) :=
  [p.buildDir.components, p.deployDir.components]

/-- The names of what is made of sources with given stems, and of a resource script. -/
def builtNames (toolchain : Toolchain) (configuration : Configuration) (stems : List String)
    (resource : Option Path) : List String :=
  (stems.product (toolchain.objectExtensions configuration) ++
      resource.toList.map fun file => (file.stem, Msvc.resourceExtension)).map
    fun file => withExtension file.1 file.2

theorem nodup_builtNames {stems : List String} (distinct : stems.Nodup) (resource : Option Path) :
    (builtNames toolchain configuration stems resource).Nodup := by
  obtain ⟨made, differ, other⟩ := toolchain.objectExtensions_apart configuration
  have extensions : ∀ file ∈ stems.product (toolchain.objectExtensions configuration) ++
      resource.toList.map fun file => (file.stem, Msvc.resourceExtension),
      IsExtension file.2 := by
    intro file hfile
    obtain hfile | hfile := List.mem_append.1 hfile
    · exact made _ (List.pair_mem_product.1 hfile).2
    · obtain ⟨source, -, rfl⟩ := List.mem_map.1 hfile
      exact (by decide : IsExtension Msvc.resourceExtension)
  refine List.Nodup.map_on (fun a ha b hb same => ?_) ?_
  · exact Prod.ext_iff.2 ((Path.withExtension_inj (extensions a ha) (extensions b hb)).1 same)
  refine (distinct.product differ).append ?_ ?_
  · cases resource
    · exact List.nodup_nil
    · exact List.nodup_singleton _
  · intro file object resource
    obtain ⟨source, -, rfl⟩ := List.mem_map.1 resource
    exact other (List.pair_mem_product.1 object).2

theorem objectOf_eq (source : Path) :
    p.objectOf toolchain source =
      p.buildDir.entry (withExtension source.stem toolchain.objectExtension) :=
  Path.withStemOf_eq _ _ toolchain.isExtension_objectExtension.nonempty

/-- What the compilations make, where every source names a file. -/
theorem places_compileStatements (named : ∀ source ∈ p.sources, source.fileName?.isSome) :
    places (p.sources.map (p.compileStatement toolchain configuration)) =
      entriesOf p.buildDir.components
        (builtNames toolchain configuration (p.sources.map Path.stem) none) := by
  have each : ∀ source ∈ p.sources,
      (p.compileStatement toolchain configuration source).outputs.map Path.components =
        entriesOf p.buildDir.components
          ((toolchain.objectExtensions configuration).map (withExtension source.stem)) := by
    intro source hsource
    exact toolchain.components_outputs_compile configuration p.buildDir
      (Path.stem_ne_empty (named source hsource)) (Path.slash_notMem_stem source)
      (objectOf_eq source)
  rw [places, List.flatMap_map, List.map_flatMap, List.flatMap_congr each]
  simp only [entriesOf, builtNames, List.product, List.flatMap_map, List.map_flatMap, List.map_map,
    Option.toList_none, List.map_nil, List.append_nil]
  rfl

/-- What the statement for a resource script makes, if there is one. -/
theorem places_resource (configuration : Configuration) {spec : ExecutableSpec}
    {resource : Option (Path × Statement)} (h : p.resource toolchain spec = .ok resource) :
    places (resource.map (·.2)).toList =
      entriesOf p.buildDir.components
        (builtNames toolchain configuration [] spec.resourceFile) := by
  rw [Project.resource] at h
  cases file : spec.resourceFile with
  | none =>
    rw [file] at h
    cases h
    rfl
  | some source =>
    rw [file] at h
    obtain ⟨pair, made, rfl⟩ := map_eq_ok.1 h
    rw [resourceStatement] at made
    cases toolchain with
    | gcc tools => exact absurd made (by simp [Toolchain.resourceExtension?])
    | msvc tools =>
      obtain rfl := Except.ok.inj made
      have output := Path.components_withStemOf p.buildDir source
        (by decide : IsExtension Msvc.resourceExtension)
      exact congrArg List.singleton output

theorem builtNames_append (stems : List String) (resource : Option Path) :
    builtNames toolchain configuration stems none ++
        builtNames toolchain configuration [] resource =
      builtNames toolchain configuration stems resource := by
  simp [builtNames, List.product]

end Project

namespace Toolchain

open BuildPlanner.Path (withExtension)

variable (toolchain : Toolchain) (configuration : Configuration) {name : String}

theorem artifactName_msvc (tools : Msvc) (name : String) :
    (msvc tools).artifactName .staticLibrary name = withExtension name "lib" ∧
      (msvc tools).artifactName .executable name = withExtension name "exe" := by
  rw [withExtension, withExtension, String.append_assoc, String.append_assoc]
  exact ⟨rfl, rfl⟩

theorem isEntryName_artifactName (kind : ArtifactKind) (h : IsEntryName name) :
    IsEntryName (toolchain.artifactName kind name) := by
  cases toolchain with
  | gcc tools =>
    cases kind with
    | staticLibrary =>
      have slash : '/' ∉ ("lib" ++ name).toList := by simp [h.slash]
      have whole := Path.isEntryName_withExtension slash (by decide : Path.IsExtension "a")
      rwa [withExtension, String.append_assoc] at whole
    | executable => exact h
  | msvc tools =>
    obtain ⟨library, program⟩ := artifactName_msvc tools name
    cases kind with
    | staticLibrary =>
      rw [library]
      exact Path.isEntryName_withExtension h.slash (by decide)
    | executable =>
      rw [program]
      exact Path.isEntryName_withExtension h.slash (by decide)

theorem nodup_programNames (name : String) :
    (toolchain.programNames configuration name).Nodup := by
  cases toolchain with
  | gcc tools => exact List.nodup_singleton _
  | msvc tools =>
    rw [programNames, (artifactName_msvc tools name).2, databaseExtensions]
    split
    · rw [List.map_singleton, List.nodup_cons, List.mem_singleton,
        Path.withExtension_inj (by decide) (by decide)]
      exact ⟨fun same => absurd same.2 (by decide), List.nodup_singleton _⟩
    · exact List.nodup_singleton _

theorem components_outputs_link {task : LinkTask} (directory : Path) (h : IsEntryName name)
    (output : task.output = directory.entry (toolchain.artifactName .executable name)) :
    (toolchain.link task configuration).outputs.map Path.components =
      entriesOf directory.components (toolchain.programNames configuration name) := by
  have first : task.output.components =
      directory.components ++ [.name (toolchain.artifactName .executable name)] := by
    rw [output, Path.components_entry directory (toolchain.isEntryName_artifactName _ h)]
  rw [programNames, entriesOf, List.map_cons, ← first]
  cases toolchain with
  | gcc tools => rfl
  | msvc tools =>
    have databases := components_database? configuration directory h.nonempty h.slash
      (by decide : Path.IsExtension "exe") tools
    rw [← (artifactName_msvc tools name).2, ← output] at databases
    exact congrArg _ databases

end Toolchain

namespace Project

open BuildPlanner.Path (withExtension)

variable {p : Project} {toolchain : Toolchain} {configuration : Configuration}

theorem places_archiveStatement (h : IsEntryName p.name) :
    places [p.archiveStatement toolchain] =
      entriesOf p.deployDir.components [toolchain.artifactName .staticLibrary p.name] := by
  have output : (p.archiveStatement toolchain).outputs =
      [toolchain.libraryPath p.deployDir p.name] := toolchain.outputs_archive _
  rw [places_singleton, output, List.map_singleton, Toolchain.libraryPath,
    Path.components_entry _ (toolchain.isEntryName_artifactName _ h)]
  rfl

theorem places_linkStatement (h : IsEntryName p.name) (spec : ExecutableSpec)
    (libraries : List Path) (resource : Option Path) :
    places [p.linkStatement toolchain configuration spec libraries resource] =
      entriesOf p.deployDir.components (toolchain.programNames configuration p.name) := by
  rw [places_singleton]
  exact toolchain.components_outputs_link configuration p.deployDir h rfl

/-! ## Collisions -/

theorem collisionAfter_eq_none_iff (earlier sources : List (Path × List Component)) :
    collisionAfter earlier sources = none ↔
      (sources.map Prod.snd).Nodup ∧
        ∀ place ∈ sources.map Prod.snd, place ∉ earlier.map Prod.snd := by
  induction sources generalizing earlier with
  | nil => simp [collisionAfter]
  | cons pair sources ih =>
    obtain ⟨source, place⟩ := pair
    rw [collisionAfter]
    cases found : earlier.find? fun other => other.2 == place with
    | some other =>
      have mem : place ∈ earlier.map Prod.snd := by
        have same : other.2 = place := by simpa using List.find?_some found
        exact List.mem_map.2 ⟨other, List.mem_of_find?_eq_some found, same⟩
      simp only [reduceCtorEq, false_iff, not_and]
      intro _ fresh
      exact fresh place List.mem_cons_self mem
    | none =>
      have fresh : place ∉ earlier.map Prod.snd := by
        intro mem
        obtain ⟨other, hother, same⟩ := List.mem_map.1 mem
        exact absurd (beq_iff_eq.2 same) (List.find?_eq_none.1 found other hother)
      simp only [ih, List.map_cons, List.nodup_cons, List.mem_cons, not_or, forall_eq_or_imp]
      constructor
      · rintro ⟨distinct, others⟩
        exact ⟨⟨fun mem => (others place mem).1 rfl, distinct⟩, fresh,
          fun other hother => (others other hother).2⟩
      · rintro ⟨⟨new, distinct⟩, -, others⟩
        exact ⟨distinct, fun other hother =>
          ⟨fun same => new (same ▸ hother), others other hother⟩⟩

theorem compileStatements_of_emit {archives : Archives} {e : EmittedProject}
    (h : p.emit toolchain configuration archives = .ok e) (kind : p.kind ≠ .headerOnly) :
    ∃ compiled, p.compileStatements toolchain configuration = .ok compiled := by
  unfold emit at h
  split at h
  · next headers => exact absurd headers kind
  · obtain ⟨compiled, made, -⟩ := bind_eq_ok.1 h
    exact ⟨compiled, made⟩
  · obtain ⟨compiled, made, -⟩ := bind_eq_ok.1 h
    exact ⟨compiled, made⟩

theorem firstCollision_of_compileStatements {compiled : List Statement}
    (h : p.compileStatements toolchain configuration = .ok compiled) :
    firstCollision (p.objectOf toolchain) p.sources = none := by
  unfold compileStatements at h
  split at h
  · cases h
  · split at h
    · cases h
    · next none => exact none

/-- No two sources of a project that is emitted have the same stem. -/
theorem nodup_stems_of_emit {archives : Archives} {e : EmittedProject}
    (h : p.emit toolchain configuration archives = .ok e) (kind : p.kind ≠ .headerOnly) :
    (p.sources.map Path.stem).Nodup := by
  obtain ⟨compiled, made⟩ := compileStatements_of_emit h kind
  have none := firstCollision_of_compileStatements made
  have distinct := ((collisionAfter_eq_none_iff [] _).1 none).1
  -- The object is a function of the stem, so different objects have different stems.
  have objects : (p.sources.map fun source => (p.objectOf toolchain source).components) =
      (p.sources.map Path.stem).map fun stem =>
        (p.buildDir.entry (withExtension stem toolchain.objectExtension)).components := by
    rw [List.map_map]
    refine List.map_congr_left fun source _ => ?_
    rw [Function.comp_apply, objectOf_eq]
  rw [List.map_map, Function.comp_def, objects] at distinct
  exact distinct.of_map _

/-- Everything that is made for a project is an entry of one of its directories, and no name is
there twice. -/
theorem places_of_emit {archives : Archives} {e : EmittedProject} (name : IsEntryName p.name)
    (named : ∀ source ∈ p.sources, source.fileName?.isSome)
    (h : p.emit toolchain configuration archives = .ok e) :
    ∃ built deployed : List String, built.Nodup ∧ deployed.Nodup ∧
      places e.statements =
        entriesOf p.buildDir.components built ++ entriesOf p.deployDir.components deployed := by
  obtain ⟨-, rfl⟩ | ⟨kind, -, rfl⟩ |
    ⟨spec, resource, libraries, kind, -, made, -, rfl⟩ := emit_cases h
  · exact ⟨[], [], List.nodup_nil, List.nodup_nil, rfl⟩
  · have stems := nodup_stems_of_emit h (by simp [kind])
    refine ⟨builtNames toolchain configuration (p.sources.map Path.stem) none,
      [toolchain.artifactName .staticLibrary p.name], nodup_builtNames stems none,
      List.nodup_singleton _, ?_⟩
    rw [places_append, places_compileStatements named, places_archiveStatement name]
  · have stems := nodup_stems_of_emit h (by simp [kind])
    refine ⟨builtNames toolchain configuration (p.sources.map Path.stem) spec.resourceFile,
      toolchain.programNames configuration p.name, nodup_builtNames stems spec.resourceFile,
      toolchain.nodup_programNames configuration p.name, ?_⟩
    rw [places_append, places_append, places_compileStatements named,
      places_resource configuration made, places_linkStatement name,
      ← builtNames_append (p.sources.map Path.stem) spec.resourceFile, entriesOf_append]

/-- What is made for a project is made in its directories, and once. -/
theorem nodup_places_of_emit {archives : Archives} {e : EmittedProject}
    (apart : p.directories.Nodup) (name : IsEntryName p.name)
    (named : ∀ source ∈ p.sources, source.fileName?.isSome)
    (h : p.emit toolchain configuration archives = .ok e) :
    (places e.statements).Nodup ∧
      ∀ place ∈ places e.statements, place.dropLast ∈ p.directories := by
  obtain ⟨built, deployed, nodupBuilt, nodupDeployed, all⟩ := places_of_emit name named h
  have differ : p.buildDir.components ≠ p.deployDir.components := by
    simpa [directories] using apart
  rw [all]
  constructor
  · refine (nodup_entriesOf nodupBuilt).append (nodup_entriesOf nodupDeployed) ?_
    intro place first second
    rw [← dropLast_of_mem_entriesOf first, ← dropLast_of_mem_entriesOf second] at differ
    exact differ rfl
  · intro place hplace
    rw [directories, List.mem_cons, List.mem_singleton]
    exact (List.mem_append.1 hplace).imp dropLast_of_mem_entriesOf dropLast_of_mem_entriesOf

end Project

end BuildPlanner
