import BuildPlanner.Proofs.LinkPlans

/-!
# Projects in the place of others

Of a project that has been emitted the later ones see no more than the archive that it leaves, and
this archive is told by its name, its deploy directory and its kind.  So where projects are replaced
by others of which these three are the same (`Project.Alike`), nothing changes for those that stay
(`BuildGraph.emitAll_of_alike`), also where a name is declared again and hides an earlier project.
-/

namespace BuildPlanner

/-! ## Alike projects -/

/-- The same kind of project in the same place: what others see of a project. -/
structure Project.Alike (p q : Project) : Prop where
  name : p.name = q.name
  deployDir : p.deployDir = q.deployDir
  kind : p.kind.name = q.kind.name

/-- The kind of a project that links other libraries. -/
def ProjectKind.relink (libraries : List String) : ProjectKind → ProjectKind
  | .executable spec => .executable { spec with libraries }
  | kind => kind

theorem ProjectKind.name_relink (libraries : List String) (kind : ProjectKind) :
    (kind.relink libraries).name = kind.name := by
  cases kind <;> rfl

/-- The project with other sources, include directories, defines and links, and with another warning
level. -/
def Project.revise (p : Project) (sources includeDirs : List Path) (defines : List Define)
    (warningLevel : Nat) (libraries : List String) : Project :=
  { p with sources, includeDirs, defines, warningLevel, kind := p.kind.relink libraries }

namespace Project

variable {p q : Project} {toolchain : Toolchain} {configuration : Configuration}
  {archives : Archives} {e f : EmittedProject}

theorem alike_revise (p : Project) (sources includeDirs : List Path) (defines : List Define)
    (warningLevel : Nat) (libraries : List String) :
    p.Alike (p.revise sources includeDirs defines warningLevel libraries) :=
  ⟨rfl, rfl, (p.kind.name_relink libraries).symm⟩

theorem Alike.isLibrary (alike : p.Alike q) : p.kind.isLibrary = q.kind.isLibrary := by
  have kind := alike.kind
  revert kind
  cases p.kind <;> cases q.kind <;> simp [ProjectKind.name, ProjectKind.isLibrary]

theorem Alike.isHeaderOnly (alike : p.Alike q) : p.isHeaderOnly = q.isHeaderOnly := by
  have kind := alike.kind
  revert kind
  rw [Project.isHeaderOnly, Project.isHeaderOnly]
  cases p.kind <;> cases q.kind <;> simp [ProjectKind.name]

/-- Alike projects leave the same for those after them. -/
theorem Alike.archivesAfter_eq (alike : p.Alike q)
    (made : p.emit toolchain configuration archives = .ok e)
    (remade : q.emit toolchain configuration archives = .ok f) :
    BuildGraph.archivesAfter archives p e = BuildGraph.archivesAfter archives q f := by
  rw [BuildGraph.archivesAfter, BuildGraph.archivesAfter, alike.isLibrary]
  cases library : q.kind.isLibrary with
  | false => rfl
  | true =>
    rw [artifact_of_emit made (alike.isLibrary.trans library), artifact_of_emit remade library,
      alike.isHeaderOnly, alike.deployDir, alike.name]

/-- Projects of which one is replaced by an alike one are alike throughout. -/
theorem forall₂_alike {projects others : List Project} (lengths : others.length = projects.length)
    (i : Nat) (stays : ∀ j, j ≠ i → others[j]? = projects[j]?)
    (alike : ∀ p ∈ projects[i]?, ∀ q ∈ others[i]?, p.Alike q) :
    List.Forall₂ Alike projects others := by
  rw [List.forall₂_iff_get]
  refine ⟨lengths.symm, fun j hj hj' => ?_⟩
  by_cases here : j = i
  · subst here
    exact alike _ (List.getElem?_eq_getElem hj) _ (List.getElem?_eq_getElem hj')
  · have same := stays j here
    rw [List.getElem?_eq_getElem hj, List.getElem?_eq_getElem hj', Option.some.injEq] at same
    rw [List.get_eq_getElem, List.get_eq_getElem, same]
    exact ⟨rfl, rfl, rfl⟩

end Project

/-! ## All projects -/

namespace BuildGraph

variable {toolchain : Toolchain} {configuration : Configuration} {archives : Archives}
  {projects others : List Project} {emitted reemitted : List EmittedProject}

/-- Where projects are replaced by alike ones, the same is emitted for those that stay. -/
theorem emitAll_of_alike (alike : List.Forall₂ Project.Alike projects others)
    (made : emitAll toolchain configuration archives projects = .ok emitted)
    (remade : emitAll toolchain configuration archives others = .ok reemitted) (i : Nat)
    (stays : others[i]? = projects[i]?) : reemitted[i]? = emitted[i]? := by
  -- Both runs have the same archives at each project, as those before it left the same.
  induction alike generalizing archives emitted reemitted i with
  | nil =>
    cases made
    cases remade
    rfl
  | cons one _ ih =>
    obtain ⟨e, first, made⟩ := bind_eq_ok.1 made
    obtain ⟨rest, later, same⟩ := bind_eq_ok.1 made
    cases same
    obtain ⟨f, second, remade⟩ := bind_eq_ok.1 remade
    obtain ⟨rerest, relater, same⟩ := bind_eq_ok.1 remade
    cases same
    cases i with
    | zero =>
      obtain rfl := Option.some.inj stays
      exact congrArg some (Except.ok.inj (second.symm.trans first))
    | succ i =>
      rw [← one.archivesAfter_eq first second] at relater
      exact ih later relater i stays

theorem emitAll_of_generate {g : BuildGraph}
    (made : generate toolchain configuration projects = .ok g) :
    emitAll toolchain configuration [] projects = .ok g.projects := by
  obtain ⟨emitted, all, same⟩ := bind_eq_ok.1 made
  cases same
  exact all

theorem projects_of_alike {g g' : BuildGraph}
    (alike : List.Forall₂ Project.Alike projects others)
    (made : generate toolchain configuration projects = .ok g)
    (remade : generate toolchain configuration others = .ok g') (i : Nat)
    (stays : others[i]? = projects[i]?) : g'.projects[i]? = g.projects[i]? :=
  emitAll_of_alike alike (emitAll_of_generate made) (emitAll_of_generate remade) i stays

end BuildGraph

/-- Where one project is replaced by one of the same name, deploy directory and kind, the same is
emitted for every other project.  So other sources, include directories, defines, links or another
warning level of a project change nothing for the others. -/
theorem generate_elsewhere (toolchain : Toolchain) (configuration : Configuration)
    {projects : List Project} {g : BuildGraph}
    (made : BuildGraph.generate toolchain configuration projects = .ok g) (i : Nat) :
    (∀ others g', others.length = projects.length →
      (∀ j, j ≠ i → others[j]? = projects[j]?) →
      (∀ p ∈ projects[i]?, ∀ q ∈ others[i]?, p.Alike q) →
      BuildGraph.generate toolchain configuration others = .ok g' →
      ∀ j, j ≠ i → g'.projects[j]? = g.projects[j]?) ∧
    ∀ sources includeDirs defines warningLevel libraries g',
      BuildGraph.generate toolchain configuration (projects.modify i fun p =>
        p.revise sources includeDirs defines warningLevel libraries) = .ok g' →
      ∀ j, j ≠ i → g'.projects[j]? = g.projects[j]? := by
  constructor
  · intro others g' lengths stays alike remade j other
    exact BuildGraph.projects_of_alike (Project.forall₂_alike lengths i stays alike) made remade j
      (stays j other)
  · intro sources includeDirs defines warningLevel libraries g' remade j other
    have stays (k : Nat) (other : k ≠ i) : (projects.modify i fun p =>
        p.revise sources includeDirs defines warningLevel libraries)[k]? = projects[k]? :=
      List.getElem?_modify_ne _ _ (Ne.symm other)
    refine BuildGraph.projects_of_alike (Project.forall₂_alike (List.length_modify _ _ _) i stays
      fun p hp q hq => ?_) made remade j (stays j other)
    rw [List.getElem?_modify_eq, Option.mem_def.1 hp] at hq
    cases hq
    exact p.alike_revise sources includeDirs defines warningLevel libraries

/-- The archive that the executable links stays where it is when the library is made of other
sources, and when the earlier library of its name is built elsewhere. -/
theorem generate_elsewhere_sampleProjects :
    let edited := sampleProjects.modify 2 fun p =>
      p.revise [⟨"Code/core/z.cpp"⟩] [] [⟨"NDEBUG", none⟩] 0 ["api"]
    let moved := sampleProjects.set 0
      ⟨"core", ⟨"Code/older"⟩, ⟨"Build/older"⟩, ⟨"Deploy/old"⟩, [⟨"Code/older/b.c"⟩], [], [], 1,
        .staticLibrary⟩
    ∃ g g' g'', BuildGraph.generate (.msvc {}) .debug sampleProjects = .ok g ∧
      BuildGraph.generate (.msvc {}) .debug edited = .ok g' ∧
      BuildGraph.generate (.msvc {}) .debug moved = .ok g'' ∧
      g'.projects[3]? = g.projects[3]? ∧ g''.projects[3]? = g.projects[3]? := by
  intro edited moved
  obtain ⟨g, made⟩ := exists_eq_ok
    (show (BuildGraph.generate (.msvc {}) .debug sampleProjects).toOption.isSome by decide +kernel)
  obtain ⟨g', remade⟩ := exists_eq_ok
    (show (BuildGraph.generate (.msvc {}) .debug edited).toOption.isSome by decide +kernel)
  obtain ⟨g'', rebuilt⟩ := exists_eq_ok
    (show (BuildGraph.generate (.msvc {}) .debug moved).toOption.isSome by decide +kernel)
  have afterEdit := (generate_elsewhere (.msvc {}) .debug made 2).2
    [⟨"Code/core/z.cpp"⟩] [] [⟨"NDEBUG", none⟩] 0 ["api"] g' remade 3 (by decide)
  have afterMove := (generate_elsewhere (.msvc {}) .debug made 0).1 moved g'' (by decide)
    (fun j other => List.getElem?_set_ne (Ne.symm other))
    (by rintro p ⟨⟩ q ⟨⟩; exact ⟨rfl, rfl, rfl⟩) rebuilt 3 (by decide)
  exact ⟨g, g', g'', made, remade, rebuilt, afterEdit, afterMove⟩

end BuildPlanner
