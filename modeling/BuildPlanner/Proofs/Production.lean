import BuildPlanner.Proofs.Emission

/-!
# What is consumed has been produced

The statements of a generated graph stand in an order in which they can be run: an archive or a link
reads only what statements before it make.

* `Emission.artifact_archived`: what a library leaves for linking is an output of its own archive
  statement.
* `archived_of_mem_latestArchive`: so what an executable links is an output of an archive statement
  before it, also where libraries share a name.
* `Emission.produced`: the objects and the resource are made by the executable itself.
* `produced_of_generate`: the two together, for every place in the order of the graph.
-/

namespace BuildPlanner

/-! ## Statements and what they make -/

/-- One of the statements makes the file. -/
def Produced (statements : List Statement) (file : Path) : Prop :=
  ∃ s ∈ statements, file ∈ s.outputs

/-- One of the statements makes the file as an archive. -/
def Archived (statements : List Statement) (file : Path) : Prop :=
  ∃ s ∈ statements, s.kind = .archive ∧ file ∈ s.outputs

theorem Archived.produced {statements : List Statement} {file : Path}
    (h : Archived statements file) : Produced statements file := by
  obtain ⟨s, hs, -, made⟩ := h
  exact ⟨s, hs, made⟩

theorem Produced.mono {statements more : List Statement} {file : Path}
    (h : Produced statements file) (sub : statements ⊆ more) : Produced more file := by
  obtain ⟨s, hs, made⟩ := h
  exact ⟨s, sub hs, made⟩

theorem produced_of_mem_products {statements : List Statement} {file : Path}
    (h : file ∈ products statements) : Produced statements file := by
  obtain ⟨s, hs, head⟩ := List.mem_filterMap.1 h
  exact ⟨s, hs, List.mem_of_mem_head? head⟩

/-- The statements that are emitted for projects. -/
def emittedStatements (before : List (Project × EmittedProject)) : List Statement :=
  before.flatMap (·.2.statements)

/-! ## One project -/

section Project

variable {toolchain : Toolchain} {before : List (Project × EmittedProject)} {p : Project}
  {e : EmittedProject}

/-- What a library leaves for linking is an output of its archive statement. -/
theorem Emission.artifact_archived (h : Emission toolchain before p e)
    (library : p.kind.isLibrary) : ∀ file ∈ e.artifact, Archived e.statements file := by
  intro file made
  cases h with
  | headerOnly kind statements artifact =>
    rw [artifact] at made
    cases made
  | staticLibrary _ compiled archive output statements _ archives _ outputs artifact =>
    rw [artifact] at made
    obtain rfl := Option.some.inj made
    refine ⟨archive, ?_, archives, ?_⟩
    · rw [statements]
      exact List.mem_append_right _ (List.mem_singleton_self archive)
    · rw [outputs]
      exact List.mem_singleton_self output
  | executable spec kind =>
    rw [kind] at library
    cases library

/-- What is linked for a name is an output of an archive statement of the projects before, whichever
of them have that name. -/
theorem archived_of_mem_latestArchive
    (left : ∀ pair ∈ before, pair.1.kind.isLibrary →
      ∀ file ∈ pair.2.artifact, Archived pair.2.statements file)
    {name : String} {file : Path} (h : file ∈ latestArchive before name) :
    Archived (emittedStatements before) file := by
  rw [latestArchive, Option.mem_toList] at h
  obtain ⟨pair, latest, artifact⟩ := Option.bind_eq_some_iff.1 h
  have mem : pair ∈ before := List.mem_reverse.1 (List.mem_of_find?_eq_some latest)
  have library : pair.1.kind.isLibrary := by
    have found := List.find?_some latest
    rw [Bool.and_eq_true] at found
    exact found.1
  obtain ⟨s, hs, kind, made⟩ := left pair mem library file artifact
  exact ⟨s, List.mem_flatMap.2 ⟨pair, mem, hs⟩, kind, made⟩

theorem kind_eq_compile {sources : List Path} {compiled : List Statement}
    (h : List.Forall₂ (p.Compiles toolchain) sources compiled) :
    ∀ s ∈ compiled, s.kind = .compile := by
  induction h with
  | nil => exact fun s hs => absurd hs List.not_mem_nil
  | cons first _ ih => exact List.forall_mem_cons.2 ⟨first.1, ih⟩

theorem kind_eq_resource {sources : List Path} {resources : List Statement}
    (h : List.Forall₂ CompilesResource sources resources) :
    ∀ s ∈ resources, s.kind = .resource := by
  induction h with
  | nil => exact fun s hs => absurd hs List.not_mem_nil
  | cons first _ ih => exact List.forall_mem_cons.2 ⟨first.1, ih⟩

/-- A statement in a list with one archive or link, which stands at its end, is that one. -/
theorem eq_of_kind {own rest earlier : List Statement} {s last : Statement}
    (split : earlier ++ [last] = own ++ s :: rest) (kind : s.kind = .archive ∨ s.kind = .link)
    (others : ∀ t ∈ earlier, t.kind = .compile ∨ t.kind = .resource) :
    own = earlier ∧ s = last := by
  obtain rfl | ⟨rest, final, rfl⟩ := List.eq_nil_or_concat rest
  · obtain ⟨rfl, same⟩ := List.append_inj' split rfl
    exact ⟨rfl, (List.singleton_inj.1 same).symm⟩
  · -- Otherwise it would stand before the end, where nothing is archived or linked.
    rw [List.concat_eq_append, ← List.cons_append, ← List.append_assoc] at split
    obtain ⟨rfl, -⟩ := List.append_inj' split rfl
    have other := others s (List.mem_append_right _ List.mem_cons_self)
    obtain kind | kind := kind <;> rw [kind] at other <;> simp at other

/-- What an archive or a link of a project reads is made by the projects before or by the statements
of the project before it. -/
theorem Emission.produced (h : Emission toolchain before p e)
    (left : ∀ pair ∈ before, pair.1.kind.isLibrary →
      ∀ file ∈ pair.2.artifact, Archived pair.2.statements file)
    {own rest : List Statement} {s : Statement} (split : e.statements = own ++ s :: rest)
    (kind : s.kind = .archive ∨ s.kind = .link) :
    ∀ file ∈ s.inputs, Produced (emittedStatements before ++ own) file := by
  intro file hfile
  cases h with
  | headerOnly _ statements =>
    rw [statements] at split
    cases own <;> cases split
  | staticLibrary _ compiled archive output statements compiles _ inputs =>
    rw [statements] at split
    obtain ⟨rfl, rfl⟩ := eq_of_kind split kind fun t ht => .inl (kind_eq_compile compiles t ht)
    rw [inputs] at hfile
    exact (produced_of_mem_products hfile).mono (List.subset_append_right _ _)
  | executable spec _ compiled resources link output statements compiles resource known _ inputs =>
    rw [statements] at split
    have others : ∀ t ∈ compiled ++ resources, t.kind = .compile ∨ t.kind = .resource := by
      intro t ht
      exact (List.mem_append.1 ht).imp (kind_eq_compile compiles t) (kind_eq_resource resource t)
    obtain ⟨rfl, rfl⟩ := eq_of_kind split kind others
    rw [inputs, List.append_assoc] at hfile
    obtain object | hfile := List.mem_append.1 hfile
    · refine (produced_of_mem_products object).mono fun t ht => ?_
      exact List.mem_append_right _ (List.mem_append_left _ ht)
    obtain library | resource := List.mem_append.1 hfile
    · obtain ⟨name, -, library⟩ := List.mem_flatMap.1 library
      exact (archived_of_mem_latestArchive left library).produced.mono
        (List.subset_append_left _ _)
    · refine (produced_of_mem_products resource).mono fun t ht => ?_
      exact List.mem_append_right _ (List.mem_append_right _ ht)

end Project

/-! ## The graph -/

/-- An element of joined lists stands in one of them, after the lists before it. -/
theorem exists_of_flatMap_eq {α β : Type} {f : α → List β} {xs : List α} {earlier later : List β}
    {s : β} (h : xs.flatMap f = earlier ++ s :: later) :
    ∃ before x after own rest, xs = before ++ x :: after ∧ f x = own ++ s :: rest ∧
      earlier = before.flatMap f ++ own := by
  induction xs generalizing earlier with
  | nil => cases earlier <;> cases h
  | cons x xs ih =>
    rw [List.flatMap_cons, List.append_eq_append_iff] at h
    obtain ⟨between, rfl, h⟩ | ⟨between, hx, h⟩ := h
    · obtain ⟨before, y, after, own, rest, rfl, hy, rfl⟩ := ih h
      exact ⟨x :: before, y, after, own, rest, rfl, hy, by simp⟩
    · cases between with
      | nil =>
        have later : xs.flatMap f = [] ++ s :: later := h.symm
        obtain ⟨before, y, after, own, rest, rfl, hy, none⟩ := ih later
        rw [List.append_nil] at hx
        refine ⟨x :: before, y, after, own, rest, rfl, hy, ?_⟩
        rw [List.flatMap_cons, List.append_assoc, ← none, List.append_nil, hx]
      | cons t between =>
        cases h
        exact ⟨[], x, xs, earlier, between, rfl, hx, rfl⟩

namespace BuildGraph

variable {toolchain : Toolchain} {configuration : Configuration} {projects : List Project}
  {g : BuildGraph}

theorem statements_of_generate (h : generate toolchain configuration projects = .ok g) :
    g.statements = emittedStatements (projects.zip g.projects) := by
  have same : (projects.zip g.projects).map Prod.snd = g.projects :=
    List.map_snd_zip (Nat.le_of_eq (generate_split h).1.symm)
  rw [statements, emittedStatements]
  nth_rewrite 1 [← same]
  exact List.flatMap_map ..

theorem emission_of_split (h : generate toolchain configuration projects = .ok g)
    {before after : List (Project × EmittedProject)} {p : Project} {e : EmittedProject}
    (split : projects.zip g.projects = before ++ (p, e) :: after) : Emission toolchain before p e :=
  Project.emission_of_emit ((generate_split h).2 before p e after split)

/-- What libraries leave for linking has been archived when it is linked. -/
theorem archived_of_split (h : generate toolchain configuration projects = .ok g)
    {before after : List (Project × EmittedProject)}
    (split : projects.zip g.projects = before ++ after) :
    ∀ pair ∈ before, pair.1.kind.isLibrary →
      ∀ file ∈ pair.2.artifact, Archived pair.2.statements file := by
  intro pair hpair library
  obtain ⟨first, between, rfl⟩ := List.append_of_mem hpair
  rw [List.append_assoc] at split
  exact (emission_of_split h split).artifact_archived library

end BuildGraph

/-- What an archive or a link reads is made by a statement before it, and what a link takes for a
library that its project lists is made by an archive statement before it. -/
theorem produced_of_generate {toolchain : Toolchain} {configuration : Configuration}
    {projects : List Project} {g : BuildGraph}
    (h : BuildGraph.generate toolchain configuration projects = .ok g) :
    (∀ earlier s later, g.statements = earlier ++ s :: later →
      s.kind = .archive ∨ s.kind = .link → ∀ file ∈ s.inputs, Produced earlier file) ∧
    ∀ before p e after spec, projects.zip g.projects = before ++ (p, e) :: after →
      p.kind = .executable spec →
        ∃ compiled resources link,
          g.statements = emittedStatements before ++ (compiled ++ resources) ++
            link :: emittedStatements after ∧
          e.statements = compiled ++ resources ++ [link] ∧ link.kind = .link ∧
          link.inputs = products compiled ++ spec.libraries.flatMap (latestArchive before) ++
            products resources ∧
          ∀ name ∈ spec.libraries, ∀ file ∈ latestArchive before name,
            Archived (emittedStatements before) file := by
  constructor
  · intro earlier s later statements kind
    rw [BuildGraph.statements_of_generate h] at statements
    obtain ⟨before, ⟨p, e⟩, after, own, rest, split, mine, rfl⟩ := exists_of_flatMap_eq statements
    exact (BuildGraph.emission_of_split h split).produced (BuildGraph.archived_of_split h split)
      mine kind
  · intro before p e after spec split executable
    have emission := BuildGraph.emission_of_split h split
    cases emission with
    | headerOnly kind =>
      rw [executable] at kind
      cases kind
    | staticLibrary kind =>
      rw [executable] at kind
      cases kind
    | executable spec' kind compiled resources link output statements _ _ _ links inputs =>
      rw [executable] at kind
      cases kind
      refine ⟨compiled, resources, link, ?_, statements, links, inputs, fun name _ file hfile =>
        archived_of_mem_latestArchive (BuildGraph.archived_of_split h split) hfile⟩
      rw [BuildGraph.statements_of_generate h, split]
      simp [emittedStatements, statements]

theorem produced_of_generate_sampleProjects :
    ∃ g, BuildGraph.generate (.msvc {}) .debug sampleProjects = .ok g ∧
      (∀ earlier s later, g.statements = earlier ++ s :: later →
        s.kind = .archive ∨ s.kind = .link → ∀ file ∈ s.inputs, Produced earlier file) ∧
      ∀ before p e after spec, sampleProjects.zip g.projects = before ++ (p, e) :: after →
        p.kind = .executable spec →
          ∃ compiled resources link,
            g.statements = emittedStatements before ++ (compiled ++ resources) ++
              link :: emittedStatements after ∧
            e.statements = compiled ++ resources ++ [link] ∧ link.kind = .link ∧
            link.inputs = products compiled ++ spec.libraries.flatMap (latestArchive before) ++
              products resources ∧
            ∀ name ∈ spec.libraries, ∀ file ∈ latestArchive before name,
              Archived (emittedStatements before) file := by
  obtain ⟨g, hg⟩ : ∃ g, BuildGraph.generate (.msvc {}) .debug sampleProjects = .ok g := ⟨_, by cbv⟩
  exact ⟨g, hg, produced_of_generate hg⟩

end BuildPlanner
