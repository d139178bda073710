import BuildPlanner.Graph.Emission
import BuildPlanner.Proofs.Basic

/-!
# What is emitted for each project

A build graph that is generated holds one emitted project for each project, in their order
(`generate_emission`).  A library of headers has no statement.  A static library has one compilation
for each source and then one archive of their objects.  An executable has its compilations, one
resource statement if it names a resource, and then one link; the link reads the objects, the
archive of the latest library of each name that is listed, and the resource.

* `emit_cases` says all that the emission of a project can be.
* `emitAll_split` says that each project is emitted with what the libraries before it left.
* `Toolchain.Issued` holds of every statement of a graph (`issued_of_generate`).
-/

namespace BuildPlanner

/-! ## Statements of a toolchain -/

namespace Toolchain

variable (toolchain : Toolchain) (configuration : Configuration)

@[simp] theorem kind_compile (task : CompileTask) :
    (toolchain.compile task configuration).kind = .compile := by
  cases toolchain <;> rfl

@[simp] theorem inputs_compile (task : CompileTask) :
    (toolchain.compile task configuration).inputs = [task.source] := by
  cases toolchain <;> rfl

@[simp] theorem head?_outputs_compile (task : CompileTask) :
    (toolchain.compile task configuration).outputs.head? = some task.object := by
  cases toolchain <;> rfl

@[simp] theorem kind_archive (task : ArchiveTask) : (toolchain.archive task).kind = .archive := by
  cases toolchain <;> rfl

@[simp] theorem inputs_archive (task : ArchiveTask) :
    (toolchain.archive task).inputs = task.objects := by
  cases toolchain <;> rfl

@[simp] theorem outputs_archive (task : ArchiveTask) :
    (toolchain.archive task).outputs = [task.output] := by
  cases toolchain <;> rfl

@[simp] theorem kind_link (task : LinkTask) :
    (toolchain.link task configuration).kind = .link := by
  cases toolchain <;> rfl

@[simp] theorem head?_outputs_link (task : LinkTask) :
    (toolchain.link task configuration).outputs.head? = some task.output := by
  cases toolchain <;> rfl

/-- The GNU link statement leaves a resource out, and no GNU link is asked for one. -/
theorem inputs_link (task : LinkTask)
    (h : task.resource = none ∨ toolchain.resourceExtension? ≠ none) :
    (toolchain.link task configuration).inputs =
      task.objects ++ task.libraries ++ task.resource.toList := by
  cases toolchain with
  | gcc tools =>
    obtain h | h := h
    · rw [h, Option.toList_none, List.append_nil]
      rfl
    · exact absurd rfl h
  | msvc tools => rfl

/-- The statements that a toolchain makes of the tasks of a generated graph. -/
inductive Issued : Statement → Prop
  | compile (task : CompileTask) : Issued (toolchain.compile task configuration)
  | archive (task : ArchiveTask) (objects : task.objects ≠ []) : Issued (toolchain.archive task)
  | link (task : LinkTask) (objects : task.objects ≠ [])
      (resource : task.resource = none ∨ toolchain.resourceExtension? ≠ none) :
      Issued (toolchain.link task configuration)
  | resource (task : ResourceTask) {s : Statement} (issued : toolchain.resource? task = some s) :
      Issued s

end Toolchain

/-! ## One project -/

namespace Project

variable (p : Project) (toolchain : Toolchain) (configuration : Configuration)

/-- The statement that archives the objects of the project. -/
def archiveStatement : Statement :=
  toolchain.archive
    { objects := p.objects toolchain, output := toolchain.libraryPath p.deployDir p.name }

/-- The statement that links the objects of the project with archives and a resource. -/
def linkStatement (spec : ExecutableSpec) (libraries : List Path) (resource : Option Path) :
    Statement :=
  toolchain.link
    { objects := p.objects toolchain
      libraries
      standardLibraries := spec.standardLibraries
      libraryDirs := spec.libraryDirs
      output := toolchain.executablePath p.deployDir p.name
      resource }
    configuration

variable {p toolchain configuration}

theorem objects_ne_nil (h : p.sources ≠ []) : p.objects toolchain ≠ [] := by
  simpa [objects] using h

theorem compileStatements_eq_ok {compiled : List Statement}
    (h : p.compileStatements toolchain configuration = .ok compiled) :
    p.sources ≠ [] ∧ compiled = p.sources.map (p.compileStatement toolchain configuration) := by
  unfold compileStatements at h
  split at h
  · cases h
  · next sources =>
    refine ⟨by simpa using sources, ?_⟩
    split at h
    · cases h
    · exact (Except.ok.inj h).symm

theorem resourceStatement_eq_ok {source output : Path} {s : Statement}
    (h : p.resourceStatement toolchain source = .ok (output, s)) :
    toolchain.resourceExtension? ≠ none ∧ toolchain.resource? ⟨source, output⟩ = some s := by
  unfold resourceStatement at h
  cases toolchain with
  | gcc tools => cases h
  | msvc tools =>
    obtain ⟨made, issued⟩ := Prod.mk.inj (Except.ok.inj h)
    rw [← made, ← issued]
    exact ⟨Option.some_ne_none _, rfl⟩

theorem resource_eq_ok {spec : ExecutableSpec} {resource : Option (Path × Statement)}
    (h : p.resource toolchain spec = .ok resource) :
    (spec.resourceFile = none ∧ resource = none) ∨
      ∃ source output s, spec.resourceFile = some source ∧ resource = some (output, s) ∧
        toolchain.resourceExtension? ≠ none ∧ toolchain.resource? ⟨source, output⟩ = some s := by
  unfold Project.resource at h
  split at h
  · next file => exact .inl ⟨file, (Except.ok.inj h).symm⟩
  · next source file =>
    obtain ⟨⟨output, s⟩, made, rfl⟩ := map_eq_ok.1 h
    exact .inr ⟨source, output, s, file, rfl, resourceStatement_eq_ok made⟩

/-- All that the emission of a project can be. -/
theorem emit_cases {archives : Archives} {e : EmittedProject}
    (h : p.emit toolchain configuration archives = .ok e) :
    (p.kind = .headerOnly ∧ e = ⟨p.name, p.kind.name, none, []⟩) ∨
    (p.kind = .staticLibrary ∧ p.sources ≠ [] ∧
      e = ⟨p.name, p.kind.name, some (toolchain.libraryPath p.deployDir p.name),
        p.sources.map (p.compileStatement toolchain configuration) ++
          [p.archiveStatement toolchain]⟩) ∨
    ∃ spec resource libraries, p.kind = .executable spec ∧ p.sources ≠ [] ∧
      p.resource toolchain spec = .ok resource ∧
      linkedArchives archives spec.libraries = .ok libraries ∧
      e = ⟨p.name, p.kind.name, some (toolchain.executablePath p.deployDir p.name),
        p.sources.map (p.compileStatement toolchain configuration) ++
          (resource.map (·.2)).toList ++
          [p.linkStatement toolchain configuration spec libraries (resource.map (·.1))]⟩ := by
  unfold emit at h
  split at h
  · next kind => exact .inl ⟨kind, (Except.ok.inj h).symm⟩
  · next kind =>
    obtain ⟨compiled, made, h⟩ := bind_eq_ok.1 h
    obtain ⟨sources, rfl⟩ := compileStatements_eq_ok made
    exact .inr (.inl ⟨kind, sources, (Except.ok.inj h).symm⟩)
  · next spec kind =>
    obtain ⟨compiled, made, h⟩ := bind_eq_ok.1 h
    obtain ⟨sources, rfl⟩ := compileStatements_eq_ok made
    obtain ⟨resource, resources, h⟩ := bind_eq_ok.1 h
    split at h
    · cases h
    · next libraries linked =>
      exact .inr (.inr ⟨spec, resource, libraries, kind, sources, resources, linked,
        (Except.ok.inj h).symm⟩)

theorem name_of_emit {archives : Archives} {e : EmittedProject}
    (h : p.emit toolchain configuration archives = .ok e) : e.name = p.name := by
  obtain ⟨-, rfl⟩ | ⟨-, -, rfl⟩ | ⟨_, _, _, -, -, -, -, rfl⟩ := emit_cases h <;> rfl

theorem kind_of_emit {archives : Archives} {e : EmittedProject}
    (h : p.emit toolchain configuration archives = .ok e) : e.kind = p.kind.name := by
  obtain ⟨-, rfl⟩ | ⟨-, -, rfl⟩ | ⟨_, _, _, -, -, -, -, rfl⟩ := emit_cases h <;> rfl

theorem issued_of_emit {archives : Archives} {e : EmittedProject}
    (h : p.emit toolchain configuration archives = .ok e) :
    ∀ s ∈ e.statements, toolchain.Issued configuration s := by
  have compiled : ∀ s ∈ p.sources.map (p.compileStatement toolchain configuration),
      toolchain.Issued configuration s := by
    intro s hs
    obtain ⟨source, -, rfl⟩ := List.mem_map.1 hs
    exact .compile _
  intro s hs
  obtain ⟨-, rfl⟩ | ⟨-, sources, rfl⟩ |
    ⟨spec, resource, libraries, -, sources, resources, -, rfl⟩ := emit_cases h
  · cases hs
  · obtain hs | hs := List.mem_append.1 hs
    · exact compiled s hs
    · rw [List.mem_singleton.1 hs]
      exact .archive _ (objects_ne_nil sources)
  · obtain ⟨-, rfl⟩ | ⟨source, output, made, -, rfl, extension, issued⟩ := resource_eq_ok resources
    · simp only [Option.map_none, Option.toList_none, List.append_nil, List.mem_append,
        List.mem_singleton] at hs
      obtain hs | rfl := hs
      · exact compiled s hs
      · exact .link _ (objects_ne_nil sources) (.inl rfl)
    · simp only [Option.map_some, Option.toList_some, List.mem_append, List.mem_singleton] at hs
      obtain (hs | rfl) | rfl := hs
      · exact compiled s hs
      · exact .resource _ issued
      · exact .link _ (objects_ne_nil sources) (.inr extension)

end Project

/-! ## What the projects before leave -/

/-- The latest library of a given name, with what is emitted for it. -/
def latestLibrary (before : List (Project × EmittedProject)) (name : String) :
    Option (Project × EmittedProject) :=
  before.reverse.find? fun pair => pair.1.kind.isLibrary && pair.1.name == name

/-- The archive of the latest library of a given name; a library of headers has none. -/
def latestArchive (before : List (Project × EmittedProject)) (name : String) : List Path :=
  ((latestLibrary before name).bind (·.2.artifact)).toList

/-- What emitted projects leave for linking. -/
def archivesLeft (before : List (Project × EmittedProject)) : Archives :=
  before.foldl (fun archives pair => BuildGraph.archivesAfter archives pair.1 pair.2) []

theorem archivesLeft_concat (before : List (Project × EmittedProject)) (p : Project)
    (e : EmittedProject) :
    archivesLeft (before ++ [(p, e)]) = BuildGraph.archivesAfter (archivesLeft before) p e := by
  simp [archivesLeft]

theorem lookup_archivesLeft (before : List (Project × EmittedProject)) (name : String) :
    (archivesLeft before).lookup name = (latestLibrary before name).map (·.2.artifact) := by
  -- The latest library stands at the end, so the induction is on the end of the list.
  induction before using List.reverseRecOn with
  | nil => rfl
  | append_singleton before pair ih =>
    obtain ⟨p, e⟩ := pair
    rw [archivesLeft_concat]
    simp only [latestLibrary, List.reverse_append, List.reverse_singleton, List.singleton_append,
      List.find?_cons, BuildGraph.archivesAfter]
    cases library : p.kind.isLibrary with
    | false => simpa [latestLibrary] using ih
    | true =>
      by_cases same : p.name = name
      · simp [same]
      · have other : (p.name == name) = false := by simpa using same
        have other' : (name == p.name) = false := by simpa using Ne.symm same
        simpa [List.lookup_cons, other, other', latestLibrary] using ih

theorem linkedArchives_eq_ok {archives : Archives} {names : List String} {libraries : List Path}
    (h : linkedArchives archives names = .ok libraries) :
    (∀ name ∈ names, (archives.lookup name).isSome) ∧
      libraries = names.flatMap fun name => ((archives.lookup name).bind id).toList := by
  induction names generalizing libraries with
  | nil => exact ⟨by simp, (Except.ok.inj h).symm⟩
  | cons name names ih =>
    rw [linkedArchives] at h
    cases found : archives.lookup name with
    | none =>
      rw [found] at h
      cases h
    | some archive =>
      rw [found] at h
      obtain ⟨rest, linked, rfl⟩ := map_eq_ok.1 h
      obtain ⟨known, rfl⟩ := ih linked
      refine ⟨?_, by simp [found]⟩
      intro other hother
      obtain rfl | hother := List.mem_cons.1 hother
      · rw [found]
        rfl
      · exact known other hother

/-- The links of a project that is emitted after others. -/
theorem linkedArchives_archivesLeft {before : List (Project × EmittedProject)}
    {names : List String} {libraries : List Path}
    (h : linkedArchives (archivesLeft before) names = .ok libraries) :
    (∀ name ∈ names, (latestLibrary before name).isSome) ∧
      libraries = names.flatMap (latestArchive before) := by
  obtain ⟨known, rfl⟩ := linkedArchives_eq_ok h
  constructor
  · intro name hname
    simpa [lookup_archivesLeft] using known name hname
  · refine List.flatMap_congr fun name _ => ?_
    rw [lookup_archivesLeft, latestArchive]
    cases latestLibrary before name <;> rfl

/-! ## All projects -/

namespace BuildGraph

variable {toolchain : Toolchain} {configuration : Configuration}

/-- Each project is emitted with what the libraries before it left. -/
theorem emitAll_split (before : List (Project × EmittedProject)) {projects : List Project}
    {emitted : List EmittedProject}
    (h : emitAll toolchain configuration (archivesLeft before) projects = .ok emitted) :
    projects.length = emitted.length ∧
      ∀ between p e after, projects.zip emitted = between ++ (p, e) :: after →
        p.emit toolchain configuration (archivesLeft (before ++ between)) = .ok e := by
  induction projects generalizing before emitted with
  | nil =>
    cases h
    exact ⟨rfl, fun between p e after split => by simp at split⟩
  | cons p rest ih =>
    obtain ⟨e, first, h⟩ := bind_eq_ok.1 h
    obtain ⟨others, tail, same⟩ := bind_eq_ok.1 h
    cases same
    rw [← archivesLeft_concat] at tail
    obtain ⟨lengths, each⟩ := ih _ tail
    refine ⟨by simp [lengths], ?_⟩
    intro between q f after split
    cases between with
    | nil =>
      obtain ⟨⟨rfl, rfl⟩, -⟩ := by simpa using split
      simpa using first
    | cons pair between =>
      obtain ⟨rfl, later⟩ := by simpa using split
      simpa using each between q f after later

theorem generate_split {projects : List Project} {g : BuildGraph}
    (h : generate toolchain configuration projects = .ok g) :
    projects.length = g.projects.length ∧
      ∀ before p e after, projects.zip g.projects = before ++ (p, e) :: after →
        p.emit toolchain configuration (archivesLeft before) = .ok e := by
  obtain ⟨emitted, all, same⟩ := bind_eq_ok.1 h
  cases same
  exact emitAll_split [] all

theorem mem_zip_of_generate {projects : List Project} {g : BuildGraph}
    (h : generate toolchain configuration projects = .ok g) {e : EmittedProject}
    (he : e ∈ g.projects) : ∃ p, (p, e) ∈ projects.zip g.projects := by
  obtain ⟨i, hi, rfl⟩ := List.getElem_of_mem he
  have hp : i < projects.length := (generate_split h).1 ▸ hi
  refine ⟨projects[i], List.mem_iff_getElem.2 ⟨i, ?_, List.getElem_zip⟩⟩
  rw [List.length_zip]
  omega

theorem exists_mem_zip_of_generate {projects : List Project} {g : BuildGraph}
    (h : generate toolchain configuration projects = .ok g) {p : Project} (hp : p ∈ projects) :
    ∃ e, (p, e) ∈ projects.zip g.projects := by
  have same : (projects.zip g.projects).map Prod.fst = projects :=
    List.map_fst_zip (Nat.le_of_eq (generate_split h).1)
  obtain ⟨⟨_, e⟩, hpair, rfl⟩ := List.mem_map.1 (same ▸ hp)
  exact ⟨e, hpair⟩

theorem emit_of_generate {projects : List Project} {g : BuildGraph}
    (h : generate toolchain configuration projects = .ok g) {pair : Project × EmittedProject}
    (hpair : pair ∈ projects.zip g.projects) :
    ∃ archives, pair.1.emit toolchain configuration archives = .ok pair.2 := by
  obtain ⟨before, after, split⟩ := List.append_of_mem hpair
  exact ⟨_, (generate_split h).2 before _ _ after split⟩

theorem rules_of_generate {projects : List Project} {g : BuildGraph}
    (h : generate toolchain configuration projects = .ok g) : g.rules = toolchain.rules := by
  obtain ⟨emitted, -, same⟩ := bind_eq_ok.1 h
  cases same
  rfl

/-- A generated graph holds nothing but statements that the toolchain makes of tasks. -/
theorem issued_of_generate {projects : List Project} {g : BuildGraph}
    (h : generate toolchain configuration projects = .ok g) {s : Statement}
    (hs : s ∈ g.statements) : toolchain.Issued configuration s := by
  obtain ⟨e, he, hs⟩ := List.mem_flatMap.1 hs
  obtain ⟨p, hp⟩ := mem_zip_of_generate h he
  obtain ⟨before, after, split⟩ := List.append_of_mem hp
  exact Project.issued_of_emit ((generate_split h).2 before p e after split) s hs

end BuildGraph

/-! ## The shape of each emitted project -/

/-- The first outputs of statements: the objects of compilations, the object of a resource. -/
def products (statements : List Statement) : List Path :=
  statements.filterMap (·.outputs.head?)

/-- The statement makes the project's object of a source, of this source alone. -/
def Project.Compiles (p : Project) (toolchain : Toolchain) (source : Path) (s : Statement) : Prop :=
  s.kind = .compile ∧ s.inputs = [source] ∧ s.outputs.head? = some (p.objectOf toolchain source)

/-- The statement makes one resource object of a resource script. -/
def CompilesResource (source : Path) (s : Statement) : Prop :=
  s.kind = .resource ∧ s.inputs = [source] ∧ s.outputs.length = 1

/-- What a project may be emitted as, after other projects and what was emitted for them. -/
inductive Emission (toolchain : Toolchain) (before : List (Project × EmittedProject))
    (p : Project) (e : EmittedProject) : Prop
  | headerOnly (kind : p.kind = .headerOnly) (statements : e.statements = [])
      (artifact : e.artifact = none)
  | staticLibrary (kind : p.kind = .staticLibrary) (compiled : List Statement)
      (archive : Statement) (output : Path)
      (statements : e.statements = compiled ++ [archive])
      (compiles : List.Forall₂ (p.Compiles toolchain) p.sources compiled)
      (archives : archive.kind = .archive)
      (inputs : archive.inputs = products compiled)
      (outputs : archive.outputs = [output])
      (artifact : e.artifact = some output)
  | executable (spec : ExecutableSpec) (kind : p.kind = .executable spec)
      (compiled resources : List Statement) (link : Statement) (output : Path)
      (statements : e.statements = compiled ++ resources ++ [link])
      (compiles : List.Forall₂ (p.Compiles toolchain) p.sources compiled)
      (resource : List.Forall₂ CompilesResource spec.resourceFile.toList resources)
      (known : ∀ name ∈ spec.libraries, (latestLibrary before name).isSome)
      (links : link.kind = .link)
      (inputs : link.inputs =
        products compiled ++ spec.libraries.flatMap (latestArchive before) ++ products resources)
      (outputs : link.outputs.head? = some output)
      (artifact : e.artifact = some output)

namespace Project

variable {p : Project} {toolchain : Toolchain} {configuration : Configuration}

theorem compiles_compileStatement (source : Path) :
    p.Compiles toolchain source (p.compileStatement toolchain configuration source) :=
  ⟨toolchain.kind_compile configuration _, toolchain.inputs_compile configuration _,
    toolchain.head?_outputs_compile configuration _⟩

theorem compiles_sources :
    List.Forall₂ (p.Compiles toolchain) p.sources
      (p.sources.map (p.compileStatement toolchain configuration)) := by
  rw [List.forall₂_map_right_iff, List.forall₂_same]
  exact fun source _ => compiles_compileStatement source

theorem products_compileStatement :
    products (p.sources.map (p.compileStatement toolchain configuration)) =
      p.objects toolchain := by
  rw [products, List.filterMap_map, objects, ← List.filterMap_eq_map]
  exact List.filterMap_congr fun source _ => toolchain.head?_outputs_compile configuration _

theorem compilesResource_of_resource? {task : ResourceTask} {s : Statement}
    (h : toolchain.resource? task = some s) :
    CompilesResource task.source s ∧ s.outputs = [task.output] := by
  cases toolchain with
  | gcc tools => cases h
  | msvc tools =>
    cases h
    exact ⟨⟨rfl, rfl, rfl⟩, rfl⟩

theorem emission_of_emit {before : List (Project × EmittedProject)} {e : EmittedProject}
    (h : p.emit toolchain configuration (archivesLeft before) = .ok e) :
    Emission toolchain before p e := by
  obtain ⟨kind, rfl⟩ | ⟨kind, -, rfl⟩ |
    ⟨spec, resource, libraries, kind, -, resources, linked, rfl⟩ := emit_cases h
  · exact .headerOnly kind rfl rfl
  · exact .staticLibrary kind _ (p.archiveStatement toolchain) _ rfl compiles_sources
      (toolchain.kind_archive _) (by simp [archiveStatement, products_compileStatement])
      (toolchain.outputs_archive _) rfl
  · obtain ⟨known, rfl⟩ := linkedArchives_archivesLeft linked
    obtain ⟨file, rfl⟩ | ⟨source, output, s, file, rfl, extension, issued⟩ :=
      resource_eq_ok resources
    · refine .executable spec kind _ [] _ _ rfl compiles_sources ?_ known
        (toolchain.kind_link configuration _) ?_ (toolchain.head?_outputs_link configuration _) rfl
      · rw [file]
        exact .nil
      · rw [linkStatement, toolchain.inputs_link configuration _ (.inl rfl),
          products_compileStatement]
        rfl
    · obtain ⟨compiles, outputs⟩ := compilesResource_of_resource? issued
      refine .executable spec kind _ [s] _ _ rfl compiles_sources ?_ known
        (toolchain.kind_link configuration _) ?_ (toolchain.head?_outputs_link configuration _) rfl
      · rw [file]
        exact .cons compiles .nil
      · rw [linkStatement, toolchain.inputs_link configuration _ (.inr extension),
          products_compileStatement]
        simp [products, outputs]

end Project

/-- Projects are emitted one by one and in order, each in the shape of its kind. -/
theorem generate_emission {toolchain : Toolchain} {configuration : Configuration}
    {projects : List Project} {g : BuildGraph}
    (h : BuildGraph.generate toolchain configuration projects = .ok g) :
    projects.length = g.projects.length ∧
      ∀ before p e after, projects.zip g.projects = before ++ (p, e) :: after →
        e.name = p.name ∧ e.kind = p.kind.name ∧ Emission toolchain before p e := by
  obtain ⟨lengths, each⟩ := BuildGraph.generate_split h
  refine ⟨lengths, fun before p e after split => ?_⟩
  have emitted := each before p e after split
  exact ⟨Project.name_of_emit emitted, Project.kind_of_emit emitted,
    Project.emission_of_emit emitted⟩

/-- Two libraries of one name, a library of headers between them, and an executable that links the
later one twice. -/
def sampleProjects : List Project :=
  [⟨"core", ⟨"Code/old"⟩, ⟨"Build/old"⟩, ⟨"Deploy/old"⟩, [⟨"Code/old/a b.c"⟩], [], [], 4,
      .staticLibrary⟩,
    ⟨"api", ⟨"Code/api"⟩, ⟨"Build/api"⟩, ⟨"Deploy/api"⟩, [], [], [], 4, .headerOnly⟩,
    ⟨"core", ⟨"Code/core"⟩, ⟨"Build/core"⟩, ⟨"Deploy/core"⟩,
      [⟨"Code/core/a.cpp"⟩, ⟨"Code/core/$b.cpp"⟩], [⟨"Code/api"⟩], [⟨"COST", some "5 $"⟩], 4,
      .staticLibrary⟩,
    ⟨"app", ⟨"Code/app"⟩, ⟨"Build/app"⟩, ⟨"Deploy/app"⟩, [⟨"Code/app/main.cpp"⟩], [], [], 4,
      .executable ⟨["core", "api", "core"], ["user32.lib"], [], some ⟨"Code/app/app.rc"⟩, none⟩⟩]

theorem generate_emission_sampleProjects :
    ∃ g, BuildGraph.generate (.msvc {}) .debug sampleProjects = .ok g ∧
      sampleProjects.length = g.projects.length ∧
      ∀ before p e after, sampleProjects.zip g.projects = before ++ (p, e) :: after →
        e.name = p.name ∧ e.kind = p.kind.name ∧ Emission (.msvc {}) before p e := by
  obtain ⟨g, hg⟩ : ∃ g, BuildGraph.generate (.msvc {}) .debug sampleProjects = .ok g := ⟨_, by cbv⟩
  exact ⟨g, hg, generate_emission hg⟩

end BuildPlanner
