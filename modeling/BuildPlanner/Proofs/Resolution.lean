import BuildPlanner.Proofs.Faults
import BuildPlanner.Proofs.References
import BuildPlanner.Proofs.Sorting
import BuildPlanner.Workspace

/-!
# What is resolved can be generated

Where the references of the enabled projects have been checked, the projects that a project uses are
always found, so nothing but a pattern or a lack of sources keeps a workspace from being resolved;
and the resolved projects are in an order in which every linked library has been emitted, so nothing
but two sources with one object, or a resource for a toolchain without a resource compiler, keeps
their graph from being generated (`generate_of_validate`).

* `Workspace.exists_of_resolveProject` says all that a resolved project is.
* `Workspace.Resolves` is what is known of it without its sources.
-/

namespace BuildPlanner

/-- What a project was declared to produce. -/
def ProjectKind.declared : ProjectKind → DefinedKind
  | staticLibrary => .staticLibrary
  | headerOnly => .headerOnly
  | executable _ => .executable

namespace Workspace

variable {ws : Workspace} {h : Host} {enabled : List ProjectDefinition} {platform : Platform}
  {configuration : Configuration} {d : ProjectDefinition} {p : Project}

/-! ## One project -/

theorem used_eq_ok {others : List ProjectDefinition} (found : used enabled d = .ok others) :
    List.Forall₂ (fun name other => enabled.find? (·.name == name) = some other)
      d.uses others := by
  refine (forall₂_of_mapM_eq_ok found).imp fun name other one => ?_
  split at one
  · next known =>
    cases one
    exact known
  · cases one

/-- The projects that a project uses are found where references have been checked. -/
theorem exists_used (well : References.WellDeclared enabled) (hd : d ∈ enabled) :
    ∃ others, used enabled d = .ok others := by
  cases failed : used enabled d with
  | ok others => exact ⟨others, rfl⟩
  | error fault =>
    obtain ⟨name, hname, one⟩ := exists_of_mapM_eq_error failed
    obtain ⟨other, hother, same⟩ := well.known d hd name (List.mem_append_left _ hname)
    split at one
    · cases one
    · next unknown => exact absurd (beq_iff_eq.2 same) (List.find?_eq_none.1 unknown other hother)

theorem sources_eq_error {additions : Additions} {fault : ModelError}
    (failed : ws.sources h d additions = .error fault) :
    (∃ pattern, fault = .invalidPattern d.name pattern) ∨
      fault = .noSources d.name (ws.sourceDir d) := by
  unfold sources at failed
  split at failed
  · cases failed
  obtain failed | ⟨found, -, failed⟩ := bind_eq_error.1 failed
  · unfold discover at failed
    cases searched : Glob.files h (ws.root.join (ws.sourceDir d))
        (d.sources ++ additions.sources) with
    | ok files =>
      rw [searched] at failed
      cases failed
    | error cause =>
      rw [searched] at failed
      cases failed
      exact .inl ⟨_, rfl⟩
  · dsimp only at failed
    split at failed
    · cases failed
      exact .inr rfl
    · cases failed

theorem sources_eq_nil_iff {additions : Additions} {found : List Path}
    (looked : ws.sources h d additions = .ok found) : found = [] ↔ d.kind = .headerOnly := by
  unfold sources at looked
  split at looked
  · next headers =>
    cases looked
    exact ⟨fun _ => headers, fun _ => rfl⟩
  · next sources =>
    obtain ⟨files, -, looked⟩ := bind_eq_ok.1 looked
    dsimp only at looked
    split at looked
    · cases looked
    · next nonempty =>
      cases looked
      exact ⟨fun none => absurd (List.isEmpty_iff.2 none) nonempty,
        fun headers => absurd headers sources⟩

theorem declared_kind (ws : Workspace) (d : ProjectDefinition) (additions : Additions) :
    (ws.kind d additions).declared = d.kind := by
  unfold kind
  split <;> next same => rw [same]; rfl

/-- All that a resolved project is. -/
theorem exists_of_resolveProject
    (resolved : ws.resolveProject h enabled platform configuration d = .ok p) :
    ∃ others found, used enabled d = .ok others ∧
      ws.sources h d ((d.additionsFor platform).getD {}) = .ok found ∧
      p =
        { name := d.name
          kind := ws.kind d ((d.additionsFor platform).getD {})
          sourceDir := ws.sourceDir d
          buildDir := ws.buildDir d.name platform configuration
          deployDir := ws.deployDir d.name platform configuration
          sources := Path.sort found
          includeDirs := keepFirst Path.same
            (ws.includeDirs others d ((d.additionsFor platform).getD {}) ++ ws.testIncludeDirs d)
          defines := keepFirst (· == ·) (defines others d ((d.additionsFor platform).getD {}))
          warningLevel := min d.warningLevel maxWarningLevel } := by
  obtain ⟨others, found, resolved⟩ := bind_eq_ok.1 resolved
  obtain ⟨files, looked, same⟩ := bind_eq_ok.1 resolved
  exact ⟨others, files, found, looked, (Except.ok.inj same).symm⟩

/-- What a resolved project has of its declaration, whatever was found for it. -/
structure Resolves (d : ProjectDefinition) (p : Project) : Prop where
  name : p.name = d.name
  kind : p.kind.declared = d.kind
  warningLevel : p.warningLevel ≤ 4
  sources : p.sources = [] ↔ d.kind = .headerOnly

theorem resolves_of_resolveProject
    (resolved : ws.resolveProject h enabled platform configuration d = .ok p) : Resolves d p := by
  obtain ⟨others, found, -, looked, rfl⟩ := exists_of_resolveProject resolved
  exact ⟨rfl, declared_kind ws d _, min_le_right _ _,
    Path.sort_eq_nil_iff.trans (sources_eq_nil_iff looked)⟩

/-- A resolved executable links what it was declared to link. -/
theorem libraries_of_resolveProject {spec : ExecutableSpec}
    (resolved : ws.resolveProject h enabled platform configuration d = .ok p)
    (kind : p.kind = .executable spec) : spec.libraries = d.links := by
  obtain ⟨others, found, -, -, rfl⟩ := exists_of_resolveProject resolved
  dsimp only [Workspace.kind] at kind
  split at kind
  · cases kind
  · cases kind
  · cases kind
    rfl

/-! ## All projects -/

variable {projects : List Project}

theorem forall₂_of_resolve (resolved : ws.resolve h platform configuration = .ok projects) :
    References.WellDeclared (ws.enabled platform) ∧
      List.Forall₂ (fun d p => ws.resolveProject h (ws.enabled platform) platform configuration d =
        .ok p) (ws.enabled platform) projects := by
  obtain ⟨_, valid, all⟩ := bind_eq_ok.1 resolved
  exact ⟨References.wellDeclared_of_validate valid, forall₂_of_mapM_eq_ok all⟩

theorem nodup_names_of_resolve (resolved : ws.resolve h platform configuration = .ok projects) :
    (projects.map (·.name)).Nodup := by
  obtain ⟨well, all⟩ := forall₂_of_resolve resolved
  have same : (ws.enabled platform).map (·.name) = projects.map (·.name) :=
    map_eq_map_of_forall₂ all fun _ _ one => (resolves_of_resolveProject one).name.symm
  exact same ▸ well.nodup

theorem exists_executable_of_resolve
    (resolved : ws.resolve h platform configuration = .ok projects) {name : String}
    (declared : ∃ d ∈ ws.enabled platform, d.name = name ∧ d.kind = .executable) :
    ∃ p ∈ projects, p.name = name ∧ ∃ spec, p.kind = .executable spec := by
  obtain ⟨d, hd, rfl, executable⟩ := declared
  obtain ⟨p, hp, one⟩ := exists_of_mem_forall₂ (forall₂_of_resolve resolved).2 hd
  have resolves := resolves_of_resolveProject one
  have same := resolves.kind
  rw [executable] at same
  cases kind : p.kind with
  | executable spec => exact ⟨p, hp, resolves.name, spec, kind⟩
  | staticLibrary => simp [kind, ProjectKind.declared] at same
  | headerOnly => simp [kind, ProjectKind.declared] at same

theorem resolve_eq_error (valid : ws.validate platform = .ok ()) {fault : ModelError}
    (failed : ws.resolve h platform configuration = .error fault) :
    ∃ d ∈ ws.enabled platform, (∃ pattern, fault = .invalidPattern d.name pattern) ∨
      fault = .noSources d.name (ws.sourceDir d) := by
  rw [resolve, valid] at failed
  obtain ⟨d, hd, failed⟩ := exists_of_mapM_eq_error failed
  obtain ⟨others, found⟩ := exists_used (References.wellDeclared_of_validate valid) hd
  obtain failed | ⟨_, -, failed⟩ := bind_eq_error.1 failed
  · rw [found] at failed
    cases failed
  obtain failed | ⟨_, -, failed⟩ := bind_eq_error.1 failed
  · exact ⟨d, hd, sources_eq_error failed⟩
  · cases failed

/-- What a resolved project links is a library before it. -/
theorem offersLibrary_of_resolve
    (resolved : ws.resolve h platform configuration = .ok projects)
    {before after : List Project} {spec : ExecutableSpec}
    (split : projects = before ++ p :: after) (kind : p.kind = .executable spec)
    {name : String} (hname : name ∈ spec.libraries) : OffersLibrary before name := by
  obtain ⟨well, all⟩ := forall₂_of_resolve resolved
  rw [split] at all
  obtain ⟨earlier, d, later, declared, resolvedBefore, resolvedHere⟩ :=
    exists_split_of_forall₂ all
  rw [libraries_of_resolveProject resolvedHere kind] at hname
  rw [declared] at well
  obtain ⟨e, he, rfl, library⟩ := well.exists_library hname
  obtain ⟨q, hq, resolvedLibrary⟩ := exists_of_mem_forall₂ resolvedBefore he
  have resolves := resolves_of_resolveProject resolvedLibrary
  refine ⟨q, hq, ?_, resolves.name⟩
  have same := resolves.kind
  cases kind : q.kind with
  | executable spec =>
    rw [kind] at same
    exact absurd same.symm library
  | staticLibrary => exact .inl rfl
  | headerOnly => exact .inr rfl

/-- A graph of resolved projects fails to be generated for nothing but a collision of objects, or a
resource where the toolchain has no resource compiler. -/
theorem generate_eq_error_of_resolve
    (resolved : ws.resolve h platform configuration = .ok projects) {toolchain : Toolchain}
    {fault : ModelError}
    (failed : BuildGraph.generate toolchain configuration projects = .error fault) :
    ∃ p ∈ projects,
      (∃ first second, p.Collides toolchain first second ∧
        fault = .objectCollision p.name first second) ∨
      ∃ source, toolchain.platform = .gcc ∧ p.NamesResource source ∧
        fault = .unsupportedCapability toolchain.platform.name p.name source := by
  obtain ⟨before, p, after, split, -, refused⟩ :=
    (BuildGraph.generate_eq_error_iff configuration).1 failed
  have hp : p ∈ projects := by simp [split]
  cases refused with
  | noSources kind sources =>
    obtain ⟨d, -, one⟩ := exists_of_mem_forall₂ (forall₂_of_resolve resolved).2.flip hp
    have resolves := resolves_of_resolveProject one
    have headers := resolves.kind.trans (resolves.sources.1 sources)
    cases same : p.kind with
    | headerOnly => exact absurd same kind
    | staticLibrary => simp [same, ProjectKind.declared] at headers
    | executable spec => simp [same, ProjectKind.declared] at headers
  | objectCollision kind collision => exact ⟨p, hp, .inl ⟨_, _, collision.collides, rfl⟩⟩
  | unsupportedCapability sources differ resource incapable =>
    cases toolchain with
    | gcc tools => exact ⟨p, hp, .inr ⟨_, rfl, resource, rfl⟩⟩
    | msvc tools => cases incapable
  | outOfOrder sources differ kind capable libraries known unknown =>
    refine absurd (offersLibrary_of_resolve resolved split kind ?_) unknown
    simp [libraries]

theorem generate_eq_error_iff_of_resolve
    (resolved : ws.resolve h platform configuration = .ok projects) (toolchain : Toolchain) :
    (∃ fault, BuildGraph.generate toolchain configuration projects = .error fault) ↔
      ∃ p ∈ projects, (∃ first second, p.Collides toolchain first second) ∨
        (toolchain.platform = .gcc ∧ ∃ source, p.NamesResource source) := by
  constructor
  · rintro ⟨fault, failed⟩
    obtain ⟨p, hp, ⟨first, second, collides, -⟩ | ⟨source, gcc, resource, -⟩⟩ :=
      generate_eq_error_of_resolve resolved failed
    · exact ⟨p, hp, .inl ⟨first, second, collides⟩⟩
    · exact ⟨p, hp, .inr ⟨gcc, source, resource⟩⟩
  · rintro ⟨p, hp, faulty⟩
    cases generated : BuildGraph.generate toolchain configuration projects with
    | error fault => exact ⟨fault, rfl⟩
    | ok g =>
      exfalso
      obtain ⟨e, hpair⟩ := BuildGraph.exists_mem_zip_of_generate generated hp
      obtain ⟨archives, emitted⟩ := BuildGraph.emit_of_generate generated hpair
      obtain ⟨first, second, collides⟩ | ⟨gcc, source, resource⟩ := faulty
      · refine Project.not_collides_of_emit emitted (fun headers => ?_) first second collides
        obtain ⟨d, -, one⟩ := exists_of_mem_forall₂ (forall₂_of_resolve resolved).2.flip hp
        have resolves := resolves_of_resolveProject one
        have none := resolves.sources.2 (by rw [← resolves.kind, headers]; rfl)
        have two := collides.1
        rw [none] at two
        cases two
      · exact Project.not_namesResource_of_emit emitted gcc source resource

end Workspace

/-- Where the references are checked, a workspace is not resolved only for a pattern that cannot be
read or for a lack of sources.  The projects that it is resolved to are those that are enabled, and
their graph is generated unless two sources of a project have one object or an executable names a
resource that the GNU toolchain cannot compile. -/
theorem generate_of_validate {ws : Workspace} {platform : Platform}
    (valid : ws.validate platform = .ok ()) (h : Host) (configuration : Configuration) :
    (∀ d ∈ ws.enabled platform, ∃ others, Workspace.used (ws.enabled platform) d = .ok others) ∧
    (∀ fault, ws.resolve h platform configuration = .error fault →
      ∃ d ∈ ws.enabled platform, (∃ pattern, fault = .invalidPattern d.name pattern) ∨
        fault = .noSources d.name (ws.sourceDir d)) ∧
    ∀ projects, ws.resolve h platform configuration = .ok projects →
      List.Forall₂ Workspace.Resolves (ws.enabled platform) projects ∧
      ∀ toolchain : Toolchain, toolchain.platform = platform →
        (∀ fault, BuildGraph.generate toolchain configuration projects = .error fault →
          ∃ p ∈ projects,
            (∃ first second, p.Collides toolchain first second ∧
              fault = .objectCollision p.name first second) ∨
            ∃ source, platform = .gcc ∧ p.NamesResource source ∧
              fault = .unsupportedCapability platform.name p.name source) ∧
        ((∃ fault, BuildGraph.generate toolchain configuration projects = .error fault) ↔
          ∃ p ∈ projects, (∃ first second, p.Collides toolchain first second) ∨
            (platform = .gcc ∧ ∃ source, p.NamesResource source)) := by
  have well := References.wellDeclared_of_validate valid
  refine ⟨fun d hd => Workspace.exists_used well hd,
    fun fault failed => Workspace.resolve_eq_error valid failed, fun projects resolved => ?_⟩
  refine ⟨(Workspace.forall₂_of_resolve resolved).2.imp fun d p one =>
    Workspace.resolves_of_resolveProject one, ?_⟩
  rintro toolchain rfl
  exact ⟨fun fault failed => Workspace.generate_eq_error_of_resolve resolved failed,
    Workspace.generate_eq_error_iff_of_resolve resolved toolchain⟩

/-- A program with an icon, which links a library and a library of headers that both of them use. -/
def iconWorkspace : Workspace :=
  { root := ⟨"/w"⟩
    manifestPath := ⟨"/w/Shipwright.toml"⟩
    manifest :=
      { projects :=
          [{ name := "api", kind := .headerOnly, sources := ["["] },
            { name := "core", kind := .staticLibrary, sources := [], uses := ["api"]
              warningLevel := 9, testAggregate := some ⟨⟨"tests"⟩, "*.c", ⟨"core.c"⟩⟩ },
            { name := "app", kind := .executable, sources := [], uses := ["api"]
              links := ["core", "api", "core"], resource := some ⟨"app.rc"⟩
              testAggregate := some ⟨⟨"tests"⟩, "*.c", ⟨"app.c"⟩⟩ }] } }

/-- The icon is compiled by the Microsoft toolchain, and by the GNU toolchain it is not. -/
theorem generate_of_validate_iconWorkspace :
    (∃ projects, iconWorkspace.resolve default .msvc .debug = .ok projects ∧
      List.Forall₂ Workspace.Resolves (iconWorkspace.enabled .msvc) projects ∧
      ∃ g, BuildGraph.generate (.msvc {}) .debug projects = .ok g) ∧
    ∃ projects, iconWorkspace.resolve default .gcc .debug = .ok projects ∧
      List.Forall₂ Workspace.Resolves (iconWorkspace.enabled .gcc) projects ∧
      ∃ fault, BuildGraph.generate (.gcc {}) .debug projects = .error fault ∧
        ∃ p ∈ projects, (∃ first second, p.Collides (.gcc {}) first second ∧
            fault = .objectCollision p.name first second) ∨
          ∃ source, Platform.gcc = .gcc ∧ p.NamesResource source ∧
            fault = .unsupportedCapability Platform.gcc.name p.name source := by
  have valid : ∀ platform, iconWorkspace.validate platform = .ok () := by
    intro platform
    cases platform <;> decide +kernel
  constructor
  · obtain ⟨g, made⟩ := exists_eq_ok (x := iconWorkspace.resolve default .msvc .debug >>=
      BuildGraph.generate (.msvc {}) .debug) (by decide +kernel)
    obtain ⟨projects, resolved, generated⟩ := bind_eq_ok.1 made
    obtain ⟨-, -, all⟩ := generate_of_validate (valid .msvc) default .debug
    exact ⟨projects, resolved, (all projects resolved).1, g, generated⟩
  · obtain ⟨projects, resolved⟩ :=
      exists_eq_ok (x := iconWorkspace.resolve default .gcc .debug) (by decide +kernel)
    have none : (iconWorkspace.resolve default .gcc .debug >>=
        BuildGraph.generate (.gcc {}) .debug).toOption.isNone := by decide +kernel
    rw [resolved] at none
    obtain ⟨fault, failed⟩ := exists_eq_error none
    obtain ⟨-, -, all⟩ := generate_of_validate (valid .gcc) default .debug
    obtain ⟨resolves, generates⟩ := all projects resolved
    exact ⟨projects, resolved, resolves, fault, failed, (generates (.gcc {}) rfl).1 fault failed⟩

end BuildPlanner
