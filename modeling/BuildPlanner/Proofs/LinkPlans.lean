import BuildPlanner.CommandLine
import BuildPlanner.Proofs.Planning
import BuildPlanner.Proofs.Resolution

/-!
# Link plans

The command that lists what an executable links finds libraries by their names among the resolved
projects, and the graph takes what the libraries before the executable have left.  Both come to the
same archives in the same order, and the system libraries follow in both (`linkplan_of_generate`).

* The link statement reads and passes the archives of the latest libraries
  (`Project.exists_link_of_emit`).
* The names of resolved projects differ, so the latest library of a name is the only project that
  has it (`linkInputs_of_generate`).
-/

namespace BuildPlanner

variable {toolchain : Toolchain} {configuration : Configuration} {p : Project}
  {spec : ExecutableSpec}

/-! ## The link statement -/

/-- A link statement passes archives and system libraries in their order: the GNU linker has them
in variables of their own, and the Microsoft linker after the objects. -/
def Toolchain.PassesLibraries (toolchain : Toolchain) (link : Statement)
    (objects archives : List Path) (system : List String) : Prop :=
  match toolchain with
  | .gcc _ =>
    link.bindings.lookup "ld_in_libs" = some (Text.joinArguments (archives.map Path.text)) ∧
      link.bindings.lookup "ld_in_standard_libs" =
        some (Text.joinArguments (system.map fun name => "-l" ++ name))
  | .msvc _ =>
    link.bindings.lookup "link_in_files" =
      some (Text.joinArguments ((objects ++ archives).map Path.text ++ system))

namespace Project

theorem passesLibraries_linkStatement (spec : ExecutableSpec) (archives : List Path)
    (resource : Option Path) :
    toolchain.PassesLibraries (p.linkStatement toolchain configuration spec archives resource)
      (p.objects toolchain) archives spec.standardLibraries := by
  cases toolchain with
  | gcc tools => exact ⟨rfl, rfl⟩
  | msvc tools => rfl

/-- The link statement of an executable is its last one.  It reads the objects, then the archives of
the libraries before it, and then a resource. -/
theorem exists_link_of_emit {before : List (Project × EmittedProject)} {e : EmittedProject}
    (h : p.emit toolchain configuration (archivesLeft before) = .ok e)
    (kind : p.kind = .executable spec) :
    ∃ compiled resources link, e.statements = compiled ++ resources ++ [link] ∧
      (∀ s ∈ compiled, s.kind = .compile) ∧ (∀ s ∈ resources, s.kind = .resource) ∧
      link.kind = .link ∧
      link.inputs = products compiled ++ spec.libraries.flatMap (latestArchive before) ++
        products resources ∧
      toolchain.PassesLibraries link (products compiled)
        (spec.libraries.flatMap (latestArchive before)) spec.standardLibraries := by
  obtain ⟨headers, -⟩ | ⟨library, -⟩ | ⟨spec', resource, libraries, kind', -, made, linked, rfl⟩ :=
    emit_cases h
  · simp [kind] at headers
  · simp [kind] at library
  obtain rfl : spec' = spec := by simpa [kind] using kind'.symm
  obtain ⟨-, rfl⟩ := linkedArchives_archivesLeft linked
  have compiled : ∀ s ∈ p.sources.map (p.compileStatement toolchain configuration),
      s.kind = .compile := by
    intro s hs
    obtain ⟨source, -, rfl⟩ := List.mem_map.1 hs
    exact toolchain.kind_compile configuration _
  refine ⟨_, _, _, rfl, compiled, ?_, toolchain.kind_link configuration _, ?_, ?_⟩
  · intro s hs
    obtain ⟨-, rfl⟩ | ⟨source, output, made, -, rfl, -, issued⟩ := resource_eq_ok made
    · cases hs
    · rw [List.mem_singleton.1 hs]
      exact (compilesResource_of_resource? issued).1.1
  · rw [products_compileStatement]
    obtain ⟨-, rfl⟩ | ⟨source, output, made, -, rfl, extension, issued⟩ := resource_eq_ok made
    · rw [linkStatement, toolchain.inputs_link configuration _ (.inl rfl)]
      rfl
    · rw [linkStatement, toolchain.inputs_link configuration _ (.inr extension)]
      simp [products, (compilesResource_of_resource? issued).2]
  · rw [products_compileStatement]
    exact passesLibraries_linkStatement spec' _ _

theorem artifact_of_emit {archives : Archives} {e : EmittedProject}
    (h : p.emit toolchain configuration archives = .ok e) (library : p.kind.isLibrary = true) :
    e.artifact =
      if p.isHeaderOnly then none else some (toolchain.libraryPath p.deployDir p.name) := by
  obtain ⟨kind, rfl⟩ | ⟨kind, -, rfl⟩ | ⟨spec, resource, libraries, kind, -, -, -, rfl⟩ :=
    emit_cases h
  · simp [isHeaderOnly, kind]
  · simp [isHeaderOnly, kind]
  · rw [kind] at library
    cases library

end Project

/-! ## What is planned -/

/-- What a plan lists: the archives of libraries that have been emitted, and the system
libraries. -/
def plannedInputs (before : List (Project × EmittedProject)) (spec : ExecutableSpec) :
    List CommandLine.LinkInput :=
  spec.libraries.flatMap (fun name =>
    (latestArchive before name).map fun archive => ⟨archive.text, "Built from: " ++ name⟩) ++
    spec.standardLibraries.map fun name => ⟨name, "From: system"⟩

theorem names_plannedInputs (before : List (Project × EmittedProject)) (spec : ExecutableSpec) :
    (plannedInputs before spec).map (·.name) =
      (spec.libraries.flatMap (latestArchive before)).map Path.text ++ spec.standardLibraries := by
  simp [plannedInputs, List.map_flatMap, Function.comp_def]

theorem plannedInputs_eq_nil_iff {before : List (Project × EmittedProject)} :
    plannedInputs before spec = [] ↔
      spec.libraries.flatMap (latestArchive before) = [] ∧ spec.standardLibraries = [] := by
  rw [← List.map_eq_nil_iff, names_plannedInputs, List.append_eq_nil_iff, List.map_eq_nil_iff]

/-- The project of the name that is linked is the library that has left its archive. -/
theorem linkInputs_of_generate {projects : List Project}
    (distinct : (projects.map (·.name)).Nodup) {g : BuildGraph}
    (generated : BuildGraph.generate toolchain configuration projects = .ok g)
    {before after : List (Project × EmittedProject)} {e : EmittedProject}
    (split : projects.zip g.projects = before ++ (p, e) :: after)
    (kind : p.kind = .executable spec) :
    CommandLine.linkInputs toolchain projects spec = plannedInputs before spec := by
  have emitted := (BuildGraph.generate_split generated).2 before p e after split
  have known : ∀ name ∈ spec.libraries, (latestLibrary before name).isSome := by
    obtain ⟨headers, -⟩ | ⟨library, -⟩ | ⟨spec', resource, libraries, kind', -, -, linked, -⟩ :=
      Project.emit_cases emitted
    · simp [kind] at headers
    · simp [kind] at library
    · obtain rfl : spec' = spec := by simpa [kind] using kind'.symm
      exact (linkedArchives_archivesLeft linked).1
  rw [CommandLine.linkInputs, plannedInputs, List.filterMap_eq_flatMap_toList]
  refine congrArg (· ++ _) (List.flatMap_congr fun name hname => ?_)
  obtain ⟨⟨q, f⟩, latest⟩ := Option.isSome_iff_exists.1 (known name hname)
  have hqf : (q, f) ∈ before := List.mem_reverse.1 (List.mem_of_find?_eq_some latest)
  have listed : (q, f) ∈ projects.zip g.projects := split ▸ List.mem_append_left _ hqf
  obtain ⟨library, rfl⟩ : q.kind.isLibrary = true ∧ q.name = name := by
    simpa using List.find?_some latest
  obtain ⟨archives, made⟩ := BuildGraph.emit_of_generate generated listed
  rw [find?_key_of_mem distinct (List.of_mem_zip listed).1, latestArchive, latest,
    Option.bind_some, Project.artifact_of_emit made library]
  cases headers : q.isHeaderOnly <;> simp [headers]

/-! ## The command -/

namespace CommandLine

/-- The line of a plan that lists nothing. -/
def nothingLine : String := "  (nothing to link beyond the project's own objects)"

theorem linkLines_eq (index : Nat) (inputs : List LinkInput) :
    linkLines index inputs = (inputs.zipIdx index).flatMap fun entry =>
      [s!"  {entry.2}. {entry.1.name}", "     " ++ entry.1.origin, ""] := by
  induction inputs generalizing index with
  | nil => rfl
  | cons input inputs ih => rw [linkLines, ih, List.zipIdx_cons, List.flatMap_cons]

/-- The lines about what is linked have a number in the third place, or nothing there. -/
theorem nothingLine_notMem_linkLines (index : Nat) (inputs : List LinkInput) :
    nothingLine ∉ linkLines index inputs := by
  induction inputs generalizing index with
  | nil => simp [linkLines]
  | cons input inputs ih =>
    have numbered : nothingLine ≠ "  " ++ index.repr ++ ". " ++ input.name := by
      intro same
      have chars := congrArg String.toList same
      cases digits : index.repr.toList with
      | nil => simp [nothingLine, digits] at chars
      | cons digit rest =>
        have number : digit.isDigit := isDigit_of_mem_repr (digits ▸ List.mem_cons_self)
        have third : '(' = digit := by
          simp [nothingLine, digits] at chars
          exact chars.1
        rw [← third] at number
        exact absurd number (by decide)
    have further : nothingLine ≠ "     " ++ input.origin := by
      intro same
      have chars := congrArg String.toList same
      simp [nothingLine] at chars
    simp only [linkLines, List.mem_append, List.mem_cons, List.not_mem_nil, or_false, not_or]
    exact ⟨⟨numbered, further, by decide⟩, ih (index + 1)⟩

theorem nothingLine_mem_linkPlan_iff (toolchain : Toolchain) (configuration : Configuration)
    (projects : List Project) (p : Project) (spec : ExecutableSpec) :
    nothingLine ∈ linkPlan toolchain configuration projects p spec ↔
      linkInputs toolchain projects spec = [] := by
  have title : nothingLine ≠ "Link order for '" ++ p.name ++ "' (" ++ toolchain.platform.name ++
      ", " ++ configuration.name ++ "):" := by
    intro same
    have chars := congrArg String.toList same
    simp [nothingLine] at chars
  have header : nothingLine ∉
      [s!"Link order for '{p.name}' ({toolchain.platform}, {configuration}):", ""] := by
    rw [List.mem_cons, List.mem_singleton, not_or]
    exact ⟨title, by decide⟩
  rw [linkPlan, List.mem_append, or_iff_right header]
  cases linkInputs toolchain projects spec with
  | nil => simp [nothingLine]
  | cons input rest => simpa using nothingLine_notMem_linkLines 1 (input :: rest)

theorem reportComplaints_eq (h : Host) (files : List Path) :
    ∃ errors, Settings.reportComplaints h files = { h with errors } := by
  have all (texts : List String) : ∀ k : Host, ∃ errors,
      texts.foldl (fun k text => k.report .warning text) k = { k with errors } := by
    induction texts with
    | nil => exact fun k => ⟨k.errors, rfl⟩
    | cons text texts ih =>
      intro k
      obtain ⟨first, told⟩ : ∃ errors, k.report .warning text = { k with errors } :=
        Activity.Silent.of_observes (Activity.Observes.report (ε := Failure) .warning text) k
      obtain ⟨errors, rest⟩ := ih { k with errors := first }
      exact ⟨errors, by rw [List.foldl_cons, told, rest]⟩
  exact all _ h

theorem silent_loadForRoot (root : Path) :
    (Settings.loadForRoot root : Activity Failure Settings).Silent := by
  intro h
  obtain ⟨errors, complained⟩ :=
    reportComplaints_eq h [Settings.fileIn h.home, Settings.fileIn root]
  exact ⟨errors, by rw [Settings.loadForRoot, complained]⟩

/-- A session starts without a change to anything but what is reported. -/
theorem silent_startSession (arguments : WorkspaceArguments) : (startSession arguments).Silent := by
  have view {α : Type} (view : Host → Except Failure α) : (Activity.ofView view).Silent :=
    .of_observes (.ofView view)
  have done {α : Type} (value : α) : (pure value : Activity Failure α).Silent :=
    .of_observes (.pure value)
  have chosen (platform : Option Platform) : (chooseToolchainReporting platform).Silent :=
    (view _).bind fun _ => (Activity.Silent.of_observes (.report _ _)).bind fun _ => done _
  have opened : (Session.start arguments.manifest arguments.platform).Silent :=
    (view _).bind fun _ => (view _).bind fun ws =>
      (silent_loadForRoot ws.root).bind fun _ => (chosen _).bind fun _ => done _
  exact opened.bind fun _ => (view _).bind fun _ => done _

/-- The command resolves what its session is about. -/
theorem linkplan_of_resolve {arguments : WorkspaceArguments} {session : Session}
    {configuration : Configuration} {h after : Host}
    (started : startSession arguments h = (.ok (session, configuration), after))
    {projects : List Project} (resolved : session.workspace.resolve h session.toolchain.platform
      configuration = .ok projects) {p : Project}
    (found : projects.find? (·.name == p.name) = some p) {spec : ExecutableSpec}
    (kind : p.kind = .executable spec) :
    ∃ errors, linkplan p.name arguments h =
      (.ok ⟨0, lines (linkPlan session.toolchain configuration projects p spec), ""⟩,
        { h with errors }) := by
  obtain ⟨reports, left⟩ := silent_startSession arguments h
  rw [started] at left
  obtain rfl : after = { h with errors := reports } := left
  have files : Glob.files { h with errors := reports } = Glob.files h := Glob.files_congr rfl rfl
  have same := session.workspace.resolve_congr (h := h) session.toolchain.platform configuration
    fun d _ => congrFun (congrFun files _) _
  obtain ⟨errors, done⟩ := Workspace.resolveReporting_of_ok (same.trans resolved)
  refine ⟨errors, ?_⟩
  rw [linkplan, Activity.bind_run, started]
  dsimp only
  rw [Activity.bind_run, done]
  dsimp only
  rw [found]
  dsimp only
  rw [kind]
  rfl

end CommandLine

/-- What is listed for an executable is what its link statement links: the archives that it reads
after the objects and before a resource, and then the system libraries in the order in which it
passes them.  They are numbered from one on, and that there are none is said where there are none.
The command prints this list wherever it is called for the workspace. -/
theorem linkplan_of_generate {ws : Workspace} {h : Host} {toolchain : Toolchain}
    {configuration : Configuration} {projects : List Project} {g : BuildGraph}
    (resolved : ws.resolve h toolchain.platform configuration = .ok projects)
    (generated : BuildGraph.generate toolchain configuration projects = .ok g)
    {before after : List (Project × EmittedProject)} {p : Project} {e : EmittedProject}
    (split : projects.zip g.projects = before ++ (p, e) :: after) {spec : ExecutableSpec}
    (kind : p.kind = .executable spec) :
    ∃ (archives : List Path) (inputs : List CommandLine.LinkInput),
      (∃ compiled resources link, e.statements = compiled ++ resources ++ [link] ∧
        (∀ s ∈ compiled, s.kind = .compile) ∧ (∀ s ∈ resources, s.kind = .resource) ∧
        link.kind = .link ∧ link.inputs = products compiled ++ archives ++ products resources ∧
        toolchain.PassesLibraries link (products compiled) archives spec.standardLibraries) ∧
      archives = spec.libraries.flatMap (latestArchive before) ∧
      inputs.map (·.name) = archives.map Path.text ++ spec.standardLibraries ∧
      inputs = plannedInputs before spec ∧
      CommandLine.linkPlan toolchain configuration projects p spec =
        [s!"Link order for '{p.name}' ({toolchain.platform}, {configuration}):", ""] ++
          (if inputs = [] then [CommandLine.nothingLine]
          else (inputs.zipIdx 1).flatMap fun entry =>
            [s!"  {entry.2}. {entry.1.name}", "     " ++ entry.1.origin, ""]) ∧
      (CommandLine.nothingLine ∈ CommandLine.linkPlan toolchain configuration projects p spec ↔
        archives = [] ∧ spec.standardLibraries = []) ∧
      ∀ arguments settings started,
        CommandLine.startSession arguments h =
          (.ok (⟨ws, settings, toolchain⟩, configuration), started) →
        ∃ errors, CommandLine.linkplan p.name arguments h =
          (.ok ⟨0, CommandLine.lines (CommandLine.linkPlan toolchain configuration projects p spec),
            ""⟩, { h with errors }) := by
  have distinct := Workspace.nodup_names_of_resolve resolved
  have hp : p ∈ projects := (List.of_mem_zip (split ▸ List.mem_append_cons_self)).1
  have emitted := (BuildGraph.generate_split generated).2 before p e after split
  have planned := linkInputs_of_generate distinct generated split kind
  refine ⟨_, _, Project.exists_link_of_emit emitted kind, rfl, names_plannedInputs before spec, rfl,
    ?_, ?_, fun arguments settings left started =>
      CommandLine.linkplan_of_resolve started resolved (find?_key_of_mem distinct hp) kind⟩
  · rw [CommandLine.linkPlan, planned, CommandLine.linkLines_eq]
    simp only [List.isEmpty_iff]
    rfl
  · rw [CommandLine.nothingLine_mem_linkPlan_iff, planned, plannedInputs_eq_nil_iff]

/-- A workspace with a program that links a library twice, a library of headers between, and a
system library. -/
def linkedWorkspace : Workspace :=
  { root := ⟨"/w"⟩
    manifestPath := ⟨"/w/Shipwright.toml"⟩
    manifest :=
      { projects :=
          [{ name := "api", kind := .headerOnly },
            { name := "core", kind := .staticLibrary, sources := ["*.c"] },
            { name := "app", kind := .executable, sources := ["*.c"]
              links := ["core", "api", "core"], standardLibs := ["m"] }] } }

/-- The workspace as it is written. -/
def linkedHost : Host :=
  { (default : Host) with
    tree := .directory [("w", .directory
      [("Shipwright.toml", .file ⟨.text
        ("[[project]]\nname=\"api\"\nkind=\"header-only\"\n" ++
        "[[project]]\nname=\"core\"\nkind=\"static-lib\"\nsources=[\"*.c\"]\n" ++
        "[[project]]\nname=\"app\"\nkind=\"executable\"\nsources=[\"*.c\"]\n" ++
        "links=[\"core\",\"api\",\"core\"]\nstandard-libs=[\"m\"]"), 1, false⟩),
      ("Code", .directory (["core", "app"].map fun name =>
        (name, .directory [(name ++ ".c", .file default)])))])] }

/-- The program links the library where it is named, for the second time after the headers, and the
command says so. -/
theorem linkplan_of_generate_linkedHost :
    let arguments : CommandLine.WorkspaceArguments :=
      ⟨some ⟨"/w/Shipwright.toml"⟩, some .gcc, some .debug⟩
    ∃ projects g before p e after spec,
      linkedWorkspace.resolve linkedHost .gcc .debug = .ok projects ∧
      BuildGraph.generate (.gcc {}) .debug projects = .ok g ∧
      projects.zip g.projects = before ++ (p, e) :: after ∧ p.kind = .executable spec ∧
      p.name = "app" ∧
      (∃ compiled resources link, e.statements = compiled ++ resources ++ [link] ∧
        link.inputs = products compiled ++ spec.libraries.flatMap (latestArchive before) ++
          products resources) ∧
      ∃ settings started,
        CommandLine.startSession arguments linkedHost =
          (.ok (⟨linkedWorkspace, settings, .gcc {}⟩, .debug), started) ∧
        ∃ errors, CommandLine.linkplan "app" arguments linkedHost =
          (.ok ⟨0, CommandLine.lines (CommandLine.linkPlan (.gcc {}) .debug projects p spec), ""⟩,
            { linkedHost with errors }) := by
  intro arguments
  let toolchain : Toolchain := .gcc {}
  obtain ⟨g, made⟩ := exists_eq_ok (x := linkedWorkspace.resolve linkedHost toolchain.platform
    .debug >>= BuildGraph.generate toolchain .debug) (by decide +kernel)
  obtain ⟨projects, resolved, generated⟩ := bind_eq_ok.1 made
  have declared : ∃ d ∈ linkedWorkspace.enabled toolchain.platform,
      d.name = "app" ∧ d.kind = .executable := by decide +kernel
  obtain ⟨p, hp, name, spec, kind⟩ := Workspace.exists_executable_of_resolve resolved declared
  obtain ⟨e, hpair⟩ := BuildGraph.exists_mem_zip_of_generate generated hp
  obtain ⟨before, after, split⟩ := List.append_of_mem hpair
  obtain ⟨archives, inputs, ⟨compiled, resources, link, statements, -, -, -, reads, -⟩,
    linked, -, -, -, -, command⟩ :=
    linkplan_of_generate resolved generated split kind
  have read : (CommandLine.startSession arguments linkedHost).1.toOption.map
      (fun started => (started.1.workspace, started.1.toolchain, started.2)) =
        some (linkedWorkspace, .gcc {}, .debug) := by decide +kernel
  cases started : CommandLine.startSession arguments linkedHost with
  | mk result left =>
    rw [started] at read
    cases result with
    | error failure => cases read
    | ok value =>
      obtain ⟨⟨ws, settings, toolchain⟩, configuration⟩ := value
      simp only [Except.toOption, Option.map_some, Option.some.injEq, Prod.mk.injEq] at read
      obtain ⟨rfl, rfl, rfl⟩ := read
      have printed := command arguments settings left started
      rw [name] at printed
      exact ⟨projects, g, before, p, e, after, spec, resolved, generated, split, kind, name,
        ⟨compiled, resources, link, statements, linked ▸ reads⟩, settings, left, rfl, printed⟩

end BuildPlanner
