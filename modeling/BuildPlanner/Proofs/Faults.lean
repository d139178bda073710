import BuildPlanner.Proofs.Emission
import BuildPlanner.Proofs.Places

/-!
# Why a graph is not generated

`Project.Refused` says of each project, after the ones before it, what keeps it from being emitted:
the first of a lack of sources, two sources with one object, a resource that the toolchain cannot
compile, and a name to link that no library before the project has (`Project.emit_eq_error_iff`).
The fault of a graph is that of the first project that is refused, and there is a graph if none is
(`BuildGraph.generate_verdict`).
-/

namespace BuildPlanner

/-! ## Collisions -/

/-- A collision is that of the first source whose place is taken, by one of those before it. -/
theorem collisionAfter_eq_some_iff {earlier sources : List (Path × List Component)}
    {first second : Path} :
    collisionAfter earlier sources = some (first, second) ↔
      ∃ before place after, sources = before ++ (second, place) :: after ∧
        collisionAfter earlier before = none ∧
        (before.reverse ++ earlier).find? (fun other => other.2 == place) = some (first, place) := by
  induction sources generalizing earlier with
  | nil => simp [collisionAfter]
  | cons pair sources ih =>
    obtain ⟨source, place⟩ := pair
    rw [collisionAfter]
    cases found : earlier.find? fun other => other.2 == place with
    | some other =>
      have same : other.2 = place := by simpa using List.find?_some found
      constructor
      · rintro ⟨⟩
        exact ⟨[], place, sources, rfl, rfl, by rw [← same] at found ⊢; exact found⟩
      · rintro ⟨before, there, after, split, free, taken⟩
        cases before with
        | nil =>
          obtain ⟨⟨rfl, rfl⟩, -⟩ := by simpa using split
          rw [List.reverse_nil, List.nil_append, found] at taken
          cases taken
          rfl
        | cons pair before =>
          obtain ⟨rfl, -⟩ := by simpa using split
          simp [collisionAfter, found] at free
    | none =>
      rw [ih]
      constructor
      · rintro ⟨before, there, after, rfl, free, taken⟩
        refine ⟨(source, place) :: before, there, after, rfl, ?_, by simpa using taken⟩
        simpa only [collisionAfter, found] using free
      · rintro ⟨before, there, after, split, free, taken⟩
        cases before with
        | nil =>
          obtain ⟨⟨rfl, rfl⟩, -⟩ := by simpa using split
          rw [List.reverse_nil, List.nil_append, found] at taken
          cases taken
        | cons pair before =>
          obtain ⟨rfl, rfl⟩ := by simpa using split
          refine ⟨before, there, after, rfl, ?_, by simpa using taken⟩
          simpa only [collisionAfter, found] using free

namespace Project

variable (p : Project) (toolchain : Toolchain)

/-- The objects of the sources are in different places. -/
def ObjectsDiffer (sources : List Path) : Prop :=
  sources.Pairwise fun a b => ¬ (p.objectOf toolchain a).same (p.objectOf toolchain b)

/-- The second of two sources of the project has the object of the first. -/
def Collides (p : Project) (toolchain : Toolchain) (first second : Path) : Prop :=
  [first, second].Sublist p.sources ∧
    (p.objectOf toolchain first).same (p.objectOf toolchain second)

/-- The second source is the first whose object is the same as that of an earlier source of the
project, and the first one is that earlier source. -/
def FirstCollision (first second : Path) : Prop :=
  ∃ before after, p.sources = before ++ second :: after ∧ p.ObjectsDiffer toolchain before ∧
    first ∈ before ∧ (p.objectOf toolchain first).same (p.objectOf toolchain second)

variable {p toolchain}

theorem FirstCollision.collides {first second : Path}
    (h : p.FirstCollision toolchain first second) : p.Collides toolchain first second := by
  obtain ⟨before, after, sources, -, hfirst, same⟩ := h
  refine ⟨?_, same⟩
  rw [sources]
  exact (List.singleton_sublist.2 hfirst).append (List.singleton_sublist.2 List.mem_cons_self)

/-- The sources with the places of their objects. -/
def placed (p : Project) (toolchain : Toolchain) (source : Path) : Path × List Component :=
  (source, (p.objectOf toolchain source).components)

theorem objectsDiffer_iff {sources : List Path} :
    p.ObjectsDiffer toolchain sources ↔
      collisionAfter [] (sources.map (p.placed toolchain)) = none := by
  rw [collisionAfter_eq_none_iff, List.map_map, List.Nodup, List.pairwise_map, ObjectsDiffer]
  simp [Path.same_iff, placed]

theorem firstCollision_eq_some_iff {first second : Path} :
    firstCollision (p.objectOf toolchain) p.sources = some (first, second) ↔
      p.FirstCollision toolchain first second := by
  change collisionAfter [] (p.sources.map (p.placed toolchain)) = _ ↔ _
  rw [collisionAfter_eq_some_iff]
  -- Where the places before differ, the source that took a place is found by it.
  have taken {before : List Path} {place : List Component}
      (free : collisionAfter [] (before.map (p.placed toolchain)) = none) :
      ((before.map (p.placed toolchain)).reverse ++ []).find? (fun other => other.2 == place) =
          some (first, place) ↔
        first ∈ before ∧ (p.objectOf toolchain first).components = place := by
    have distinct := ((collisionAfter_eq_none_iff [] _).1 free).1
    have mem : (first, place) ∈ before.map (p.placed toolchain) ↔
        first ∈ before ∧ (p.objectOf toolchain first).components = place := by
      simp [placed]
    rw [List.append_nil, ← mem]
    constructor
    · intro found
      exact List.mem_reverse.1 (List.mem_of_find?_eq_some found)
    · intro h
      have distinct : ((before.map (p.placed toolchain)).reverse.map Prod.snd).Nodup := by
        rwa [List.map_reverse, List.nodup_reverse]
      exact find?_key_of_mem distinct (List.mem_reverse.2 h)
  constructor
  · rintro ⟨before, place, after, split, free, found⟩
    obtain ⟨before, rest, sources, rfl, others⟩ := List.map_eq_append_iff.1 split
    obtain ⟨other, after, rfl, same, rfl⟩ := List.map_eq_cons_iff.1 others
    obtain ⟨rfl, rfl⟩ := Prod.mk.inj same
    obtain ⟨mem, same⟩ := (taken free).1 found
    exact ⟨before, after, sources, objectsDiffer_iff.2 free, mem, Path.same_iff.2 same⟩
  · rintro ⟨before, after, sources, differ, mem, same⟩
    have free := objectsDiffer_iff.1 differ
    refine ⟨before.map (p.placed toolchain), (p.objectOf toolchain second).components,
      after.map (p.placed toolchain), ?_, free, (taken free).2 ⟨mem, Path.same_iff.1 same⟩⟩
    rw [sources, List.map_append, List.map_cons]
    rfl

theorem objectsDiffer_sources_iff :
    p.ObjectsDiffer toolchain p.sources ↔ firstCollision (p.objectOf toolchain) p.sources = none :=
  objectsDiffer_iff

end Project

/-! ## Names that are linked -/

/-- A library of the name, with sources or without, is among the projects. -/
def OffersLibrary (before : List Project) (name : String) : Prop :=
  ∃ q ∈ before, (q.kind = .staticLibrary ∨ q.kind = .headerOnly) ∧ q.name = name

theorem isSome_lookup_archivesLeft_iff {before : List (Project × EmittedProject)} {name : String} :
    ((archivesLeft before).lookup name).isSome ↔ OffersLibrary (before.map Prod.fst) name := by
  have library (kind : ProjectKind) :
      kind.isLibrary = true ↔ kind = .staticLibrary ∨ kind = .headerOnly := by
    cases kind <;> simp [ProjectKind.isLibrary]
  rw [lookup_archivesLeft, Option.isSome_map, latestLibrary, List.find?_isSome]
  simp [OffersLibrary, library]

/-- The fault of links is that of the first name that has left no archive. -/
theorem linkedArchives_eq_error_iff {archives : Archives} {names : List String} {name : String} :
    linkedArchives archives names = .error name ↔
      ∃ earlier later, names = earlier ++ name :: later ∧
        (∀ other ∈ earlier, (archives.lookup other).isSome) ∧
        ¬ (archives.lookup name).isSome := by
  have first : linkedArchives archives names = .error name ↔
      names.find? (fun other => (archives.lookup other).isNone) = some name := by
    induction names with
    | nil => simp [linkedArchives]
    | cons other names ih =>
      rw [linkedArchives, List.find?_cons]
      cases archives.lookup other with
      | none => simp
      | some archive =>
        rw [Option.isNone_some, ← ih]
        cases linkedArchives archives names <;> simp [Except.map]
  rw [first, List.find?_eq_some_iff_append]
  simp only [Option.isNone_iff_eq_none, Option.not_isSome_iff_eq_none, Bool.not_eq_true',
    Option.isNone_eq_false_iff]
  constructor
  · rintro ⟨unknown, earlier, later, split, known⟩
    exact ⟨earlier, later, split, known, unknown⟩
  · rintro ⟨earlier, later, split, known, unknown⟩
    exact ⟨unknown, earlier, later, split, known⟩

/-! ## One project -/

namespace Project

variable {p : Project} {toolchain : Toolchain} {configuration : Configuration}

/-- The project is an executable that names a resource. -/
def NamesResource (p : Project) (source : Path) : Prop :=
  ∃ spec, p.kind = .executable spec ∧ spec.resourceFile = some source

/-- What keeps a project from being emitted after other projects: the first fault that applies. -/
inductive Refused (p : Project) (toolchain : Toolchain) (before : List Project) :
    ModelError → Prop
  | noSources (kind : p.kind ≠ .headerOnly) (sources : p.sources = []) :
      Refused p toolchain before (.noSources p.name p.sourceDir)
  | objectCollision {first second : Path} (kind : p.kind ≠ .headerOnly)
      (collision : p.FirstCollision toolchain first second) :
      Refused p toolchain before (.objectCollision p.name first second)
  | unsupportedCapability {source : Path} (sources : p.sources ≠ [])
      (differ : p.ObjectsDiffer toolchain p.sources) (resource : p.NamesResource source)
      (incapable : toolchain.resourceExtension? = none) :
      Refused p toolchain before
        (.unsupportedCapability toolchain.platform.name p.name source)
  | outOfOrder {spec : ExecutableSpec} {earlier later : List String} {name : String}
      (sources : p.sources ≠ []) (differ : p.ObjectsDiffer toolchain p.sources)
      (kind : p.kind = .executable spec)
      (capable : spec.resourceFile = none ∨ toolchain.resourceExtension? ≠ none)
      (split : spec.libraries = earlier ++ name :: later)
      (known : ∀ other ∈ earlier, OffersLibrary before other)
      (unknown : ¬ OffersLibrary before name) :
      Refused p toolchain before (.outOfOrder p.name name)

theorem compileStatements_eq_error_iff {fault : ModelError} :
    p.compileStatements toolchain configuration = .error fault ↔
      (p.sources = [] ∧ fault = .noSources p.name p.sourceDir) ∨
        ∃ first second, p.FirstCollision toolchain first second ∧
          fault = .objectCollision p.name first second := by
  simp only [← firstCollision_eq_some_iff]
  unfold compileStatements
  cases sources : p.sources with
  | nil => simp [firstCollision, collisionAfter, eq_comm]
  | cons source rest =>
    rw [List.isEmpty_cons, if_neg Bool.false_ne_true]
    cases firstCollision (p.objectOf toolchain) (source :: rest) with
    | none => simp
    | some pair =>
      obtain ⟨first, second⟩ := pair
      simp [eq_comm]

theorem exists_compileStatements_iff :
    (∃ compiled, p.compileStatements toolchain configuration = .ok compiled) ↔
      p.sources ≠ [] ∧ p.ObjectsDiffer toolchain p.sources := by
  rw [objectsDiffer_sources_iff]
  unfold compileStatements
  cases sources : p.sources with
  | nil => simp
  | cons source rest =>
    rw [List.isEmpty_cons, if_neg Bool.false_ne_true]
    cases firstCollision (p.objectOf toolchain) (source :: rest) <;> simp

theorem resource_eq_error_iff {spec : ExecutableSpec} {fault : ModelError} :
    p.resource toolchain spec = .error fault ↔
      toolchain.resourceExtension? = none ∧ ∃ source, spec.resourceFile = some source ∧
        fault = .unsupportedCapability toolchain.platform.name p.name source := by
  unfold Project.resource
  cases spec.resourceFile with
  | none => simp
  | some source => cases toolchain <;> simp [resourceStatement, Except.map, eq_comm,
      Toolchain.resourceExtension?, Toolchain.resource?]

theorem exists_resource_iff {spec : ExecutableSpec} :
    (∃ resource, p.resource toolchain spec = .ok resource) ↔
      spec.resourceFile = none ∨ toolchain.resourceExtension? ≠ none := by
  unfold Project.resource
  cases spec.resourceFile with
  | none => simp
  | some source => cases toolchain <;> simp [resourceStatement, Except.map,
      Toolchain.resourceExtension?, Toolchain.resource?]

/-- The steps of an emission, and which of them fails. -/
theorem emit_eq_error_iff_fails {archives : Archives} {fault : ModelError} :
    p.emit toolchain configuration archives = .error fault ↔
      (p.kind ≠ .headerOnly ∧ p.compileStatements toolchain configuration = .error fault) ∨
      ∃ spec, p.kind = .executable spec ∧
        (∃ compiled, p.compileStatements toolchain configuration = .ok compiled) ∧
        (p.resource toolchain spec = .error fault ∨
          (∃ resource, p.resource toolchain spec = .ok resource) ∧
            ∃ name, linkedArchives archives spec.libraries = .error name ∧
              fault = .outOfOrder p.name name) := by
  unfold emit
  cases p.kind with
  | headerOnly => simp
  | staticLibrary => simp [bind_eq_error, pure, Except.pure]
  | executable spec =>
    simp only [ne_eq, reduceCtorEq, not_false_eq_true, true_and, ProjectKind.executable.injEq,
      exists_eq_left']
    cases p.compileStatements toolchain configuration with
    | error other => simp [bind, Except.bind]
    | ok compiled =>
      cases p.resource toolchain spec with
      | error other => simp [bind, Except.bind]
      | ok resource =>
        cases linkedArchives archives spec.libraries <;>
          simp [bind, Except.bind, throw, throwThe, MonadExceptOf.throw, pure, Except.pure,
            @eq_comm _ fault]

variable (configuration) in
/-- A project is refused for the first fault that applies, and for nothing else. -/
theorem emit_eq_error_iff {before : List (Project × EmittedProject)} {fault : ModelError} :
    p.emit toolchain configuration (archivesLeft before) = .error fault ↔
      p.Refused toolchain (before.map Prod.fst) fault := by
  rw [emit_eq_error_iff_fails, compileStatements_eq_error_iff, exists_compileStatements_iff]
  simp only [resource_eq_error_iff, exists_resource_iff, linkedArchives_eq_error_iff,
    isSome_lookup_archivesLeft_iff]
  constructor
  · rintro (⟨kind, ⟨sources, rfl⟩ | ⟨first, second, collision, rfl⟩⟩ |
      ⟨spec, kind, ⟨sources, differ⟩, ⟨incapable, source, file, rfl⟩ |
        ⟨capable, name, ⟨earlier, later, split, known, unknown⟩, rfl⟩⟩)
    · exact .noSources kind sources
    · exact .objectCollision kind collision
    · exact .unsupportedCapability sources differ ⟨spec, kind, file⟩ incapable
    · exact .outOfOrder sources differ kind capable split known unknown
  · rintro (⟨kind, sources⟩ | ⟨kind, collision⟩ | ⟨sources, differ, ⟨spec, kind, file⟩, incapable⟩ |
      ⟨sources, differ, kind, capable, split, known, unknown⟩)
    · exact .inl ⟨kind, .inl ⟨sources, rfl⟩⟩
    · exact .inl ⟨kind, .inr ⟨_, _, collision, rfl⟩⟩
    · exact .inr ⟨spec, kind, ⟨sources, differ⟩, .inl ⟨incapable, _, file, rfl⟩⟩
    · exact .inr ⟨_, kind, ⟨sources, differ⟩,
        .inr ⟨capable, _, ⟨_, _, split, known, unknown⟩, rfl⟩⟩

variable (configuration) in
theorem exists_emit_iff {before : List (Project × EmittedProject)} :
    (∃ e, p.emit toolchain configuration (archivesLeft before) = .ok e) ↔
      ∀ fault, ¬ p.Refused toolchain (before.map Prod.fst) fault := by
  simp only [← emit_eq_error_iff configuration]
  cases p.emit toolchain configuration (archivesLeft before) <;> simp

/-- The objects of an emitted project differ. -/
theorem not_collides_of_emit {archives : Archives} {e : EmittedProject}
    (h : p.emit toolchain configuration archives = .ok e) (kind : p.kind ≠ .headerOnly)
    (first second : Path) : ¬ p.Collides toolchain first second := by
  rintro ⟨both, same⟩
  obtain ⟨compiled, made⟩ := compileStatements_of_emit h kind
  have distinct := ((collisionAfter_eq_none_iff [] _).1 (firstCollision_of_compileStatements made)).1
  rw [List.map_map] at distinct
  have pair := distinct.sublist (both.map _)
  rw [Path.same_iff] at same
  simp [same] at pair

/-- The GNU toolchain emits no executable that names a resource. -/
theorem not_namesResource_of_emit {archives : Archives} {e : EmittedProject}
    (h : p.emit toolchain configuration archives = .ok e) (gcc : toolchain.platform = .gcc)
    (source : Path) : ¬ p.NamesResource source := by
  rintro ⟨spec, kind, file⟩
  obtain ⟨other, -⟩ | ⟨other, -⟩ | ⟨spec', resource, libraries, other, -, made, -⟩ := emit_cases h
  · rw [kind] at other
    cases other
  · rw [kind] at other
    cases other
  · rw [kind] at other
    cases other
    obtain ⟨none, -⟩ | ⟨_, _, _, -, -, extension, -⟩ := resource_eq_ok made
    · rw [file] at none
      cases none
    · cases toolchain with
      | gcc tools => exact extension rfl
      | msvc tools => cases gcc

end Project

/-! ## All projects -/

namespace BuildGraph

variable {toolchain : Toolchain} {configuration : Configuration}

/-- None of the projects is refused after those before it. -/
def Accepted (toolchain : Toolchain) (before projects : List Project) : Prop :=
  ∀ between p after, projects = between ++ p :: after →
    ∀ fault, ¬ p.Refused toolchain (before ++ between) fault

/-- The fault is that of the first of the projects that is refused. -/
def FirstRefused (toolchain : Toolchain) (before projects : List Project) (fault : ModelError) :
    Prop :=
  ∃ between p after, projects = between ++ p :: after ∧ Accepted toolchain before between ∧
    p.Refused toolchain (before ++ between) fault

theorem accepted_nil (before : List Project) : Accepted toolchain before [] := by
  intro between p after split
  simp at split

theorem accepted_cons_iff {before rest : List Project} {p : Project} :
    Accepted toolchain before (p :: rest) ↔
      (∀ fault, ¬ p.Refused toolchain before fault) ∧
        Accepted toolchain (before ++ [p]) rest := by
  constructor
  · intro accepted
    refine ⟨by simpa using accepted [] p rest rfl, fun between q after split => ?_⟩
    simpa using accepted (p :: between) q after (by rw [split, List.cons_append])
  · rintro ⟨first, others⟩ between q after split
    cases between with
    | nil =>
      obtain ⟨rfl, -⟩ := by simpa using split
      simpa using first
    | cons other between =>
      obtain ⟨rfl, later⟩ := by simpa using split
      simpa using others between q after later

theorem firstRefused_cons_iff {before rest : List Project} {p : Project} {fault : ModelError} :
    FirstRefused toolchain before (p :: rest) fault ↔
      p.Refused toolchain before fault ∨
        (∀ other, ¬ p.Refused toolchain before other) ∧
          FirstRefused toolchain (before ++ [p]) rest fault := by
  constructor
  · rintro ⟨between, q, after, split, accepted, refused⟩
    cases between with
    | nil =>
      obtain ⟨rfl, -⟩ := by simpa using split
      exact .inl (by simpa using refused)
    | cons other between =>
      obtain ⟨rfl, later⟩ := by simpa using split
      obtain ⟨first, others⟩ := accepted_cons_iff.1 accepted
      exact .inr ⟨first, between, q, after, later, others, by simpa using refused⟩
  · rintro (refused | ⟨first, between, q, after, rfl, others, refused⟩)
    · exact ⟨[], p, rest, rfl, accepted_nil before, by simpa using refused⟩
    · exact ⟨p :: between, q, after, rfl, accepted_cons_iff.2 ⟨first, others⟩,
        by simpa using refused⟩

/-- The projects are accepted unless one of them is the first that is refused. -/
theorem accepted_iff {before projects : List Project} :
    Accepted toolchain before projects ↔
      ∀ fault, ¬ FirstRefused toolchain before projects fault := by
  induction projects generalizing before with
  | nil => simp [accepted_nil, FirstRefused]
  | cons p rest ih =>
    simp only [accepted_cons_iff, firstRefused_cons_iff, ih, not_or, not_and, forall_and]
    refine and_congr_right fun first => ?_
    exact ⟨fun others fault _ => others fault, fun others fault => others fault first⟩

/-- What is emitted after other projects fails for the first of the projects that is refused. -/
theorem emitAll_eq_error_iff (before : List (Project × EmittedProject)) {projects : List Project}
    {fault : ModelError} :
    emitAll toolchain configuration (archivesLeft before) projects = .error fault ↔
      FirstRefused toolchain (before.map Prod.fst) projects fault := by
  induction projects generalizing before with
  | nil => simp [emitAll, FirstRefused]
  | cons p rest ih =>
    rw [firstRefused_cons_iff, ← Project.emit_eq_error_iff configuration,
      ← Project.exists_emit_iff configuration, emitAll, bind_eq_error]
    refine or_congr_right ?_
    have others (e : EmittedProject) :
        (emitAll toolchain configuration (archivesAfter (archivesLeft before) p e) rest >>=
            fun others => pure (e :: others)) = .error fault ↔
          FirstRefused toolchain (before.map Prod.fst ++ [p]) rest fault := by
      rw [← archivesLeft_concat, bind_eq_error, ih]
      simp [pure, Except.pure]
    simp only [others, exists_and_right]

variable (configuration) in
/-- The fault of a graph is that of the first project that is refused. -/
theorem generate_eq_error_iff {projects : List Project} {fault : ModelError} :
    generate toolchain configuration projects = .error fault ↔
      FirstRefused toolchain [] projects fault := by
  have all : emitAll toolchain configuration [] projects = .error fault ↔ _ :=
    emitAll_eq_error_iff []
  rw [generate, bind_eq_error, all]
  simp [pure, Except.pure]

/-- A graph is refused for the fault of the first project that is refused, and where none is refused
there is a graph. -/
theorem generate_verdict (toolchain : Toolchain) (configuration : Configuration)
    (projects : List Project) :
    (∀ fault, generate toolchain configuration projects = .error fault ↔
      ∃ before p after, projects = before ++ p :: after ∧ Accepted toolchain [] before ∧
        p.Refused toolchain before fault) ∧
    ((∃ g, generate toolchain configuration projects = .ok g) ↔
      Accepted toolchain [] projects) := by
  refine ⟨fun fault => generate_eq_error_iff configuration, ?_⟩
  simp only [accepted_iff, ← generate_eq_error_iff configuration]
  cases generate toolchain configuration projects <;> simp

-- A program is no library to link.
example : generate (.gcc {}) .debug
    [{ (default : Project) with
        name := "tool", kind := .executable default, sources := [⟨"tool.c"⟩] },
      { (default : Project) with
        name := "app", kind := .executable { (default : ExecutableSpec) with libraries := ["tool"] }
        sources := [⟨"app.c"⟩] }] = .error (.outOfOrder "app" "tool") := rfl

end BuildGraph

end BuildPlanner
