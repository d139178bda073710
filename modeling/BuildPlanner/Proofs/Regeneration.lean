import BuildPlanner.Proofs.Descent
import BuildPlanner.Proofs.Discovery
import BuildPlanner.Proofs.Frames
import BuildPlanner.Proofs.Rewriting
import BuildPlanner.Proofs.Runs

/-!
# Generating again

Discovery looks at which files there are, not at what they hold.  So where the umbrella sources are
there already, and nothing that is looked for is the build description or the compilation database,
all that a generation writes is decided by the host that it starts on
(`Workspace.Ready.exists_generateFiles`), and a second generation writes the same
(`Workspace.generate_again`).
-/

namespace BuildPlanner

theorem Umbrella.exists_write {h : Host} {root output : Path} {pattern : String} {found : List Path}
    (searched : Glob.files h root [pattern] = .ok found) (there : h.isFile output = true) :
    ∃ after, write root pattern output h = (.ok (), after) ∧
      h.Wrote after [(output, source root output found)] := by
  obtain ⟨reaches, file, stands⟩ := Host.isFile_iff.1 there
  obtain ⟨middle, written, wrote⟩ := Files.exists_write reaches (by rw [stands]; nofun)
    (source root output found)
  refine ⟨_, Activity.bind_eq_ok.2 ⟨found, h, ?_, Activity.bind_eq_ok.2 ⟨(), middle, ?_, rfl⟩⟩,
    wrote.report _ _⟩
  · exact Activity.mapFault_eq_ok.2 (Activity.ofView_eq_ok.2 ⟨mapError_eq_ok.2 searched, rfl⟩)
  · exact Activity.mapFault_eq_ok.2 written

namespace Workspace

variable {ws : Workspace} {h k after : Host} {projects : List ProjectDefinition}

/-! ## Umbrella sources -/

section Umbrellas

variable (ws)

/-- The umbrella source of a project, with what it holds. -/
def umbrellaWriting? (h : Host) (d : ProjectDefinition) : Option (Path × String) :=
  d.testAggregate.map fun tests =>
    let root := ws.testRoot tests
    let output := ws.root.join (ws.umbrellaPath d tests)
    (output, Umbrella.source root output
      ((Glob.files h root [tests.pattern]).toOption.getD []))

/-- The umbrella sources of projects, with what they hold. -/
def umbrellaWritings (h : Host) (projects : List ProjectDefinition) : List (Path × String) :=
  projects.filterMap (ws.umbrellaWriting? h)

theorem umbrellaWritings_cons_of_none (h : Host) {d : ProjectDefinition}
    (rest : List ProjectDefinition) (has : d.testAggregate = none) :
    ws.umbrellaWritings h (d :: rest) = ws.umbrellaWritings h rest :=
  List.filterMap_cons_none (by rw [umbrellaWriting?, has]; rfl)

theorem umbrellaWritings_cons_of_some {d : ProjectDefinition} {tests : TestAggregate}
    {found : List Path} (rest : List ProjectDefinition) (has : d.testAggregate = some tests)
    (searched : Glob.files h (ws.testRoot tests) [tests.pattern] = .ok found) :
    ws.umbrellaWritings h (d :: rest) =
      (ws.root.join (ws.umbrellaPath d tests), Umbrella.source (ws.testRoot tests)
        (ws.root.join (ws.umbrellaPath d tests)) found) :: ws.umbrellaWritings h rest :=
  List.filterMap_cons_some (by rw [umbrellaWriting?, has]; simp [searched, Except.toOption])

theorem umbrellaWritings_congr
    (files : ∀ d ∈ projects, ∀ tests, d.testAggregate = some tests →
      Glob.files k (ws.testRoot tests) [tests.pattern] =
        Glob.files h (ws.testRoot tests) [tests.pattern]) :
    ws.umbrellaWritings k projects = ws.umbrellaWritings h projects := by
  refine List.filterMap_congr fun d hd => Option.map_congr fun tests has => ?_
  simp only [files d hd tests has]

variable {ws}

theorem fst_mem_umbrellaFiles {w : Path × String} (hw : w ∈ ws.umbrellaWritings h projects) :
    w.1 ∈ ws.umbrellaFiles projects := by
  obtain ⟨d, hd, made⟩ := List.mem_filterMap.1 hw
  obtain ⟨tests, has, rfl⟩ := Option.map_eq_some_iff.1 made
  exact List.mem_filterMap.2 ⟨d, hd, by rw [has]; rfl⟩

/-- What replaces files that were there is found where they were found. -/
theorem files_of_wrote {writings : List (Path × String)} (wrote : h.Wrote after writings)
    (tidy : h.tree.Tidy) (there : ∀ w ∈ writings, h.isFile w.1 = true) :
    Glob.files after = Glob.files h := by
  funext base patterns
  refine Glob.files_eq wrote.edited tidy fun _ _ _ _ _ _ => ?_
  rintro ⟨w, hw, place⟩
  obtain ⟨-, file, stands⟩ := Host.isFile_iff.1 (there w hw)
  rw [place, stands]
  nofun

/-- Umbrella sources that are there are written over, each for what was found from the start. -/
theorem exists_aggregateAll (tidy : h.tree.Tidy)
    (umbrellas : ∀ p ∈ ws.umbrellaFiles projects, h.isFile p = true)
    (readable : ∀ d ∈ projects, ∀ tests, d.testAggregate = some tests →
      ∃ found, Glob.files h (ws.testRoot tests) [tests.pattern] = .ok found) :
    ∃ outputs after, ws.aggregateAll projects h = (.ok outputs, after) ∧
      h.Wrote after (ws.umbrellaWritings h projects) := by
  induction projects generalizing h with
  | nil => exact ⟨[], h, rfl, .of_tree rfl rfl⟩
  | cons d rest ih =>
    obtain ⟨first, others⟩ := List.forall_mem_cons.1 readable
    cases has : d.testAggregate with
    | none =>
      rw [ws.umbrellaFiles_cons_of_none rest has] at umbrellas
      rw [ws.umbrellaWritings_cons_of_none h rest has, aggregateAll_cons_of_none has]
      exact ih tidy umbrellas others
    | some tests =>
      rw [ws.umbrellaFiles_cons_of_some rest has] at umbrellas
      obtain ⟨there, remaining⟩ := List.forall_mem_cons.1 umbrellas
      obtain ⟨found, searched⟩ := first tests has
      obtain ⟨k, written, wrote⟩ := Umbrella.exists_write searched there
      have same : Glob.files k = Glob.files h := files_of_wrote wrote tidy (by simpa using there)
      obtain ⟨outputs, after, done, later⟩ := ih (wrote.edited.tidy tidy)
        (fun p hp => wrote.isFile (remaining p hp)) (by rwa [same])
      have repeated : ws.umbrellaWritings k rest = ws.umbrellaWritings h rest :=
        ws.umbrellaWritings_congr fun _ _ _ _ => by rw [same]
      rw [repeated] at later
      rw [ws.umbrellaWritings_cons_of_some rest has searched]
      exact ⟨_, after, (aggregateAll_cons_eq_ok has).2 ⟨k, outputs, written, done, rfl⟩,
        wrote.trans later⟩

theorem exists_files_of_aggregateAll {outputs : List Path}
    (done : ws.aggregateAll projects h = (.ok outputs, after)) {d : ProjectDefinition}
    (hd : d ∈ projects) {tests : TestAggregate} (has : d.testAggregate = some tests) (k : Host) :
    ∃ found, Glob.files k (ws.testRoot tests) [tests.pattern] = .ok found := by
  obtain ⟨before, later, rfl⟩ := List.append_of_mem hd
  obtain ⟨_, middle, _, -, done⟩ := aggregateAll_append done
  obtain ⟨_, _, written, -⟩ := (aggregateAll_cons_eq_ok has).1 done
  obtain ⟨found, _, _, searched, -⟩ := Umbrella.write_eq_ok written
  exact Glob.exists_files searched k

end Umbrellas

end Workspace

/-! ## Descriptions -/

namespace BuildGraph

variable {toolchain : Toolchain} {configuration : Configuration} {projects : List Project}
  {graph : BuildGraph} {h after : Host} {p : Path}

theorem edits_write : (write toolchain configuration p projects).Edits [p] := by
  refine .bind (.of_observes (observes_generateReporting _ _ _)) fun graph => ?_
  exact .bind (.mapFault _ (Files.edits_write _ _)) fun _ => .pure _

theorem exists_write (made : generate toolchain configuration projects = .ok graph)
    (reaches : h.Reaches p) (free : h.tree.node? (h.namedLocation p) ≠ some .directory) :
    ∃ after, write toolchain configuration p projects h = (.ok graph, after) ∧
      h.Wrote after [(p, graph.render)] := by
  obtain ⟨errors, done⟩ := (observes_generateReporting toolchain configuration projects).run
    (h := h) (congrArg (Except.mapError _) made)
  have start : h.Wrote { h with errors } [] := .of_tree rfl rfl
  obtain ⟨after, written, wrote⟩ :=
    Files.exists_write (start.edited.reaches reaches) free graph.render
  refine ⟨after, Activity.bind_eq_ok.2 ⟨graph, _, done, Activity.bind_eq_ok.2
    ⟨(), after, Activity.mapFault_eq_ok.2 written, rfl⟩⟩, start.trans wrote⟩

theorem write_eq_ok (done : write toolchain configuration p projects h = (.ok graph, after)) :
    generate toolchain configuration projects = .ok graph ∧ Host.pathFault? p = none ∧
      h.tree.node? (h.namedLocation p) ≠ some .directory := by
  obtain ⟨graph, middle, reported, rest⟩ := Activity.bind_eq_ok.1 done
  obtain ⟨made, errors, rfl⟩ := (observes_generateReporting _ _ _).eq_ok reported
  obtain ⟨_, _, written, ⟨⟩⟩ := Activity.bind_eq_ok.1 rest
  have free := Files.free_of_write (Activity.mapFault_eq_ok.1 written)
  exact ⟨mapError_eq_ok.1 made, free⟩

end BuildGraph

namespace Workspace

section Descriptions

variable (ws : Workspace) (toolchain : Toolchain) (options : GenerationOptions)

/-- The build description of a graph and, if wanted, the compilation database, with what they
hold. -/
def graphWritings (graph : BuildGraph) : List (Path × String) :=
  (ws.ninjaFile toolchain.platform options.configuration, graph.render) ::
    if options.emitCompileCommands then
      [(ws.compileCommandsFile, CompileCommand.document (graph.compileCommands ws.root))]
    else []

/-- All that a generation of a graph writes where the umbrella sources are there. -/
def writings (h : Host) (graph : BuildGraph) : List (Path × String) :=
  ws.umbrellaWritings h (ws.enabled toolchain.platform) ++ ws.graphWritings toolchain options graph

/-- What has been generated when the files of a graph are written. -/
def generatedOf (graph : BuildGraph) (projects : List Project) : Generated :=
  { graph, projects
    ninjaFile := some (ws.ninjaFile toolchain.platform options.configuration)
    compileCommands := if options.emitCompileCommands then some ws.compileCommandsFile else none }

variable {ws toolchain options} {h after : Host} {generated : Generated}

theorem fst_of_mem_graphWritings {graph : BuildGraph} {w : Path × String}
    (hw : w ∈ ws.graphWritings toolchain options graph) :
    w.1 = ws.ninjaFile toolchain.platform options.configuration ∨ w.1 = ws.compileCommandsFile := by
  rcases List.mem_cons.1 hw with rfl | hw
  · exact .inl rfl
  · split at hw
    · exact .inr (congrArg Prod.fst (List.mem_singleton.1 hw))
    · cases hw

/-- What is written when files are generated can be written from the start. -/
theorem free_of_generateFiles
    (made : ws.generateFiles toolchain options h = (.ok generated, after)) :
    ∀ w ∈ ws.graphWritings toolchain options generated.graph,
      Host.pathFault? w.1 = none ∧ h.tree.node? (h.namedLocation w.1) ≠ some .directory := by
  obtain ⟨outputs, aggregated, resolved, described, first, second, third, -, fourth⟩ :=
    generateFiles_eq_ok_iff.1 made
  obtain ⟨-, taken, free⟩ := BuildGraph.write_eq_ok third
  -- Nothing that is done removes a directory, so what is none later was none at the start.
  have first := (ws.edits_aggregateAll _).run first
  have second : aggregated.EditedAt resolved [] :=
    (Activity.Edits.of_observes (ws.observes_resolveReporting _ _)).run second
  have before {p : Path} (free : resolved.tree.node? (resolved.namedLocation p) ≠ some .directory) :
      h.tree.node? (h.namedLocation p) ≠ some .directory := first.free (second.free free)
  have told : (announce toolchain options generated.projects).Edits [] := .report _ _
  have description := before ((told resolved).free free)
  cases emits : options.emitCompileCommands with
  | true =>
    rw [emits, if_pos rfl] at fourth
    obtain ⟨_, emitted, -⟩ := Activity.map_eq_ok.1 fourth
    obtain ⟨_, _, written, -⟩ := Activity.bind_eq_ok.1 emitted
    obtain ⟨taken', free'⟩ := Files.free_of_write written
    have noted (text : String) : described.EditedAt (described.report .info text) [] :=
      Host.edited_report _ _ _
    have third := BuildGraph.edits_write.run third
    have database := before ((told resolved).free (third.free ((noted _).free free')))
    simpa [graphWritings, emits] using ⟨⟨taken, description⟩, taken', database⟩
  | false => simpa [graphWritings, emits] using ⟨taken, description⟩

theorem exists_writeCompileCommands {graph : BuildGraph}
    (reaches : h.Reaches ws.compileCommandsFile)
    (free : h.tree.node? (h.namedLocation ws.compileCommandsFile) ≠ some .directory) :
    ∃ after, ws.writeCompileCommands graph h = (.ok ws.compileCommandsFile, after) ∧
      h.Wrote after
        [(ws.compileCommandsFile, CompileCommand.document (graph.compileCommands ws.root))] := by
  obtain ⟨middle, written, wrote⟩ := Files.exists_write reaches free
    (CompileCommand.document (graph.compileCommands ws.root))
  exact ⟨_, Activity.bind_eq_ok.2 ⟨(), middle, written, rfl⟩, wrote.report _ _⟩

/-- What a generation of files needs of a host so that nothing has to be made for it. -/
structure Ready (ws : Workspace) (toolchain : Toolchain) (options : GenerationOptions) (h : Host)
    (projects : List Project) (graph : BuildGraph) : Prop where
  tidy : h.tree.Tidy
  umbrellas : ∀ p ∈ ws.umbrellaFiles (ws.enabled toolchain.platform), h.isFile p = true
  readable : ∀ d ∈ ws.enabled toolchain.platform, ∀ tests, d.testAggregate = some tests →
    ∃ found, Glob.files h (ws.testRoot tests) [tests.pattern] = .ok found
  resolved : ws.resolve h toolchain.platform options.configuration = .ok projects
  drawn : BuildGraph.generate toolchain options.configuration projects = .ok graph
  writable : ∀ w ∈ ws.graphWritings toolchain options graph,
    h.Reaches w.1 ∧ h.tree.node? (h.namedLocation w.1) ≠ some .directory

namespace Ready

variable {projects : List Project} {graph : BuildGraph}

/-- All that is written is decided from the start. -/
theorem exists_generateFiles (ready : ws.Ready toolchain options h projects graph) :
    ∃ after, ws.generateFiles toolchain options h =
        (.ok (ws.generatedOf toolchain options graph projects), after) ∧
      h.Wrote after (ws.writings toolchain options h graph) := by
  obtain ⟨outputs, aggregated, first, wrote⟩ :=
    exists_aggregateAll ready.tidy ready.umbrellas ready.readable
  have files : Glob.files aggregated = Glob.files h :=
    files_of_wrote wrote ready.tidy fun w hw => ready.umbrellas _ (fst_mem_umbrellaFiles hw)
  have resolves : ws.resolve aggregated toolchain.platform options.configuration = .ok projects :=
    (ws.resolve_congr _ _ fun d _ => by rw [files]).trans ready.resolved
  obtain ⟨errors, second⟩ := resolveReporting_of_ok resolves
  have silent : h.Wrote { aggregated with errors }
      (ws.umbrellaWritings h (ws.enabled toolchain.platform)) := wrote.trans_of_tree rfl rfl
  have told : h.Wrote (announce toolchain options projects { aggregated with errors }).2
      (ws.umbrellaWritings h (ws.enabled toolchain.platform)) := by
    unfold announce
    dsimp only [Activity.report_run]
    exact silent.report _ _
  obtain ⟨⟨reaches, free⟩, database⟩ := List.forall_mem_cons.1 ready.writable
  obtain ⟨described, third, wrote'⟩ := BuildGraph.exists_write ready.drawn
    (told.edited.reaches reaches) (told.edited.free_iff.2 free)
  have noted := (told.trans wrote').report .info
    (descriptionNote (ws.ninjaFile toolchain.platform options.configuration) graph)
  unfold writings graphWritings
  cases emits : options.emitCompileCommands with
  | true =>
    rw [emits, if_pos rfl] at database
    obtain ⟨reaches, free⟩ := database _ List.mem_cons_self
    obtain ⟨after, fourth, wrote''⟩ := exists_writeCompileCommands
      (noted.edited.reaches reaches) (noted.edited.free_iff.2 free)
    refine ⟨after, generateFiles_eq_ok_iff.2
      ⟨outputs, aggregated, _, described, first, second, third, rfl, ?_⟩, ?_⟩
    · rw [if_pos emits]
      exact Activity.map_eq_ok.2 ⟨_, fourth, (if_pos emits).symm⟩
    · have all := noted.trans wrote''
      rwa [List.append_assoc, List.singleton_append] at all
  | false =>
    refine ⟨_, generateFiles_eq_ok_iff.2
      ⟨outputs, aggregated, _, described, first, second, third, rfl, ?_⟩, noted⟩
    rw [generatedOf, emits]
    rfl

theorem of_wrote {k : Host} {writings : List (Path × String)}
    (ready : ws.Ready toolchain options h projects graph) (wrote : h.Wrote k writings)
    (files : ∀ d ∈ ws.enabled toolchain.platform,
      Glob.files k (ws.root.join (ws.sourceDir d)) (sourcePatterns toolchain.platform d) =
        Glob.files h (ws.root.join (ws.sourceDir d)) (sourcePatterns toolchain.platform d)) :
    ws.Ready toolchain options k projects graph where
  tidy := wrote.edited.tidy ready.tidy
  umbrellas p hp := wrote.isFile (ready.umbrellas p hp)
  readable d hd tests has := by
    obtain ⟨found, searched⟩ := ready.readable d hd tests has
    exact Glob.exists_files searched k
  resolved := (ws.resolve_congr _ _ files).trans ready.resolved
  drawn := ready.drawn
  writable w hw := by
    obtain ⟨reaches, free⟩ := ready.writable w hw
    exact ⟨wrote.edited.reaches reaches, wrote.edited.free_iff.2 free⟩

end Ready

end Descriptions

/-! ## The directory of a workspace -/

section Rooted

variable {ws : Workspace} {h after : Host}

/-- The directory of the workspace is there; the empty path is where the run was started. -/
def IsRooted (ws : Workspace) (h : Host) : Prop :=
  h.isDirectory (if ws.root.text = "" then ⟨"."⟩ else ws.root) = true

instance (ws : Workspace) (h : Host) : Decidable (ws.IsRooted h) :=
  inferInstanceAs (Decidable (_ = true))

theorem IsRooted.reaches {name : String} (rooted : ws.IsRooted h) (kept : IsKeptName name)
    (taken : Host.pathFault? (ws.root.entry name) = none) : h.Reaches (ws.root.entry name) := by
  unfold IsRooted at rooted
  by_cases empty : ws.root.text = ""
  · obtain root : ws.root = ⟨""⟩ := congrArg Path.mk empty
    rw [if_pos empty, Host.isDirectory_here_iff] at rooted
    rw [root, Path.entry_empty] at taken ⊢
    exact (Host.reaches_iff_of_pieces taken (List.splitOn_eq_singleton kept.entry.slash)
      kept.isShort).2 rooted
  · rw [if_neg empty] at rooted
    exact (Host.reaches_entry_iff empty kept taken).2 (Host.isDirectory_iff.1 rooted)

theorem IsRooted.reaches_ninjaFile (rooted : ws.IsRooted h) {platform : Platform}
    {configuration : Configuration}
    (taken : Host.pathFault? (ws.ninjaFile platform configuration) = none) :
    h.Reaches (ws.ninjaFile platform configuration) :=
  rooted.reaches (by cases platform <;> cases configuration <;> decide) taken

theorem IsRooted.reaches_compileCommandsFile (rooted : ws.IsRooted h)
    (taken : Host.pathFault? ws.compileCommandsFile = none) : h.Reaches ws.compileCommandsFile :=
  rooted.reaches (by decide) taken

/-- A workspace that was loaded stands in its directory. -/
theorem isRooted_of_load {manifestPath : Path}
    (loaded : load manifestPath h = (.ok ws, after)) : ws.IsRooted h := by
  obtain ⟨view, -⟩ := Activity.ofView_eq_ok.1 loaded
  obtain ⟨text, held, view⟩ := bind_eq_ok.1 view
  obtain ⟨manifest, parsed, ⟨⟩⟩ := bind_eq_ok.1 view
  obtain ⟨file, found, -⟩ := Host.read_eq_ok_iff.1 (mapError_eq_ok.1 held)
  obtain ⟨reaches, stands⟩ := Host.node_eq_ok_iff.1 found
  have start := reaches.directories _ (h.origin_mem_stops manifestPath)
  unfold IsRooted
  cases above : manifestPath.parent? with
  | none =>
    rw [Host.namedLocation_of_parent?_eq_none above, start] at stands
    cases stands
  | some parent =>
    rw [Option.getD_some]
    by_cases empty : parent.text = ""
    · rw [if_pos empty, Host.isDirectory_here_iff]
      obtain ⟨-, relative⟩ | ⟨rfl, -⟩ | ⟨named, -⟩ := Path.parent?_cases above
      · rwa [Host.origin, relative] at start
      · exact absurd empty (by decide)
      · exact absurd empty named
    · rw [if_neg empty]
      exact (reaches.isDirectory_of_parent? above).resolve_left empty

end Rooted

/-! ## The second time -/

section Again

variable (ws : Workspace)

/-- All that is looked for among files for a project: patterns, each below a base. -/
def searches (platform : Platform) (d : ProjectDefinition) : List (Path × String) :=
  (sourcePatterns platform d).map (ws.root.join (ws.sourceDir d), ·) ++
    (d.testAggregate.map fun tests => (ws.testRoot tests, tests.pattern)).toList

/-- Nothing that is looked for finds the file of a path. -/
def Unmatched (platform : Platform) (h : Host) (p : Path) : Prop :=
  ∀ d ∈ ws.enabled platform, ∀ s ∈ ws.searches platform d, ∀ found,
    Glob.files h s.1 [s.2] = .ok found → ∀ q ∈ found, h.namedLocation q ≠ h.namedLocation p

instance (platform : Platform) (h : Host) (p : Path) : Decidable (ws.Unmatched platform h p) :=
  decidable_of_iff (∀ d ∈ ws.enabled platform, ∀ s ∈ ws.searches platform d,
      ∀ q ∈ (Glob.files h s.1 [s.2]).toOption.getD [], h.namedLocation q ≠ h.namedLocation p)
    ⟨fun all d hd s hs found searched => by simpa [searched, Except.toOption] using all d hd s hs,
      fun all d hd s hs => by
        specialize all d hd s hs
        cases searched : Glob.files h s.1 [s.2] with
        | error fault => simp [Except.toOption]
        | ok found => exact all found searched⟩

variable {ws} {toolchain : Toolchain} {options : GenerationOptions} {h after : Host}
  {generated : Generated}

theorem files_of_searches {platform : Platform} {written : Location → Prop} {d : ProjectDefinition}
    (edited : h.Edited after written fun _ => False) (tidy : h.tree.Tidy)
    (old : ∀ s ∈ ws.searches platform d, ∀ found, Glob.files after s.1 [s.2] = .ok found →
      ∀ q ∈ found, written (h.namedLocation q) → h.tree.node? (h.namedLocation q) ≠ none) :
    Glob.files after (ws.root.join (ws.sourceDir d)) (sourcePatterns platform d) =
        Glob.files h (ws.root.join (ws.sourceDir d)) (sourcePatterns platform d) ∧
      ∀ tests, d.testAggregate = some tests →
        Glob.files after (ws.testRoot tests) [tests.pattern] =
          Glob.files h (ws.testRoot tests) [tests.pattern] := by
  refine ⟨Glob.files_eq edited tidy fun pattern hpattern => old (_, pattern) ?_,
    fun tests has => Glob.files_eq edited tidy fun pattern hpattern => old (_, pattern) ?_⟩
  · exact List.mem_append_left _ (List.mem_map_of_mem hpattern)
  · obtain rfl := List.mem_singleton.1 hpattern
    exact List.mem_append_right _ (Option.mem_toList.2 (by rw [has]; rfl))

/-- What is found of all that was written stood there before, if it is not a description. -/
theorem stood_of_unmatched {graph : BuildGraph}
    (umbrellas : ∀ p ∈ ws.umbrellaFiles (ws.enabled toolchain.platform), h.isFile p = true)
    (description : ws.Unmatched toolchain.platform after
      (ws.ninjaFile toolchain.platform options.configuration))
    (database : ws.Unmatched toolchain.platform after ws.compileCommandsFile)
    (wrote : h.Wrote after (ws.writings toolchain options h graph))
    {d : ProjectDefinition} (hd : d ∈ ws.enabled toolchain.platform)
    {s : Path × String} (hs : s ∈ ws.searches toolchain.platform d) {found : List Path}
    (searched : Glob.files after s.1 [s.2] = .ok found) {q : Path} (hq : q ∈ found)
    (written : ∃ w ∈ ws.writings toolchain options h graph,
      h.namedLocation q = h.namedLocation w.1) :
    h.tree.node? (h.namedLocation q) ≠ none := by
  obtain ⟨w, hw, place⟩ := written
  rcases List.mem_append.1 hw with umbrella | written
  · obtain ⟨-, file, stands⟩ := Host.isFile_iff.1 (umbrellas _ (fst_mem_umbrellaFiles umbrella))
    rw [place, stands]
    nofun
  · rw [← wrote.namedLocation_eq] at place
    rcases fst_of_mem_graphWritings written with same | same <;> rw [same] at place
    · exact absurd place (description d hd s hs found searched q hq)
    · exact absurd place (database d hd s hs found searched q hq)

section Made

variable (tidy : h.tree.Tidy)
  (umbrellas : ∀ p ∈ ws.umbrellaFiles (ws.enabled toolchain.platform), h.isFile p = true)
  (made : ws.generateFiles toolchain options h = (.ok generated, after))
include tidy umbrellas made

/-- What is resolved after the umbrella sources are written is resolved from the start. -/
theorem resolve_of_generateFiles :
    ws.resolve h toolchain.platform options.configuration = .ok generated.projects ∧
      BuildGraph.generate toolchain options.configuration generated.projects =
        .ok generated.graph := by
  obtain ⟨outputs, aggregated, resolved, described, first, second, third, -⟩ :=
    generateFiles_eq_ok_iff.1 made
  obtain ⟨_, middle, done, wrote⟩ := exists_aggregateAll tidy umbrellas
    fun d hd tests has => exists_files_of_aggregateAll first hd has h
  obtain ⟨-, rfl⟩ := Prod.mk.inj (done.symm.trans first)
  have files : Glob.files middle = Glob.files h :=
    files_of_wrote wrote tidy fun w hw => umbrellas _ (fst_mem_umbrellaFiles hw)
  obtain ⟨resolves, -⟩ := (ws.observes_resolveReporting _ _).eq_ok second
  obtain ⟨drawn, -⟩ := BuildGraph.write_eq_ok third
  refine ⟨?_, drawn⟩
  rw [← mapError_eq_ok.1 resolves]
  exact (ws.resolve_congr _ _ fun d _ => by rw [files]).symm

theorem ready_of_generateFiles (rooted : ws.IsRooted h) :
    ws.Ready toolchain options h generated.projects generated.graph := by
  obtain ⟨outputs, aggregated, _, _, first, -⟩ := generateFiles_eq_ok_iff.1 made
  obtain ⟨resolved, drawn⟩ := resolve_of_generateFiles tidy umbrellas made
  refine ⟨tidy, umbrellas, fun d hd tests has => exists_files_of_aggregateAll first hd has h,
    resolved, drawn, fun w hw => ?_⟩
  obtain ⟨taken, free⟩ := free_of_generateFiles made w hw
  refine ⟨?_, free⟩
  rcases fst_of_mem_graphWritings hw with description | database
  · rw [description] at taken ⊢
    exact rooted.reaches_ninjaFile taken
  · rw [database] at taken ⊢
    exact rooted.reaches_compileCommandsFile taken

end Made

/-- The second time the same is found, so the same is written. -/
theorem Ready.exists_again {projects : List Project} {graph : BuildGraph}
    (ready : ws.Ready toolchain options h projects graph)
    (description : ws.Unmatched toolchain.platform after
      (ws.ninjaFile toolchain.platform options.configuration))
    (database : ws.Unmatched toolchain.platform after ws.compileCommandsFile)
    (wrote : h.Wrote after (ws.writings toolchain options h graph)) (clock : Int) :
    ∃ left, ws.generateFiles toolchain options { after with clock } =
        (.ok (ws.generatedOf toolchain options graph projects), left) ∧
      ∀ p c, left.content p = .ok c ↔ after.content p = .ok c := by
  have finds {d : ProjectDefinition} (hd : d ∈ ws.enabled toolchain.platform) :=
    files_of_searches wrote.edited ready.tidy
      fun s hs found searched q => stood_of_unmatched ready.umbrellas description database wrote hd
        hs searched
  have unchanged : Glob.files { after with clock } = Glob.files after := Glob.files_congr rfl rfl
  have later : h.Wrote { after with clock } (ws.writings toolchain options h graph) :=
    wrote.trans_of_tree rfl rfl
  have same : ws.writings toolchain options { after with clock } graph =
      ws.writings toolchain options h graph :=
    congrArg (· ++ _) (ws.umbrellaWritings_congr fun d hd tests has => by
      rw [unchanged, (finds hd).2 tests has])
  obtain ⟨left, done, again⟩ :=
    (ready.of_wrote later fun d hd => by rw [unchanged, (finds hd).1]).exists_generateFiles
  rw [same] at again
  exact ⟨left, done, later.again again⟩

/-- Where the umbrella sources are there and a generation succeeds, a plan comes to the same
projects and the same graph.  Where also nothing that is looked for finds the build description or
the compilation database once they stand, a second generation succeeds right after the first, and
all files hold what they held before it.  The workspace stands in its directory, as one that was
loaded does (`isRooted_of_load`). -/
theorem generate_again (tidy : h.tree.Tidy)
    (umbrellas : ∀ p ∈ ws.umbrellaFiles (ws.enabled toolchain.platform), h.isFile p = true)
    (writes : options.planOnly = false)
    (made : ws.generate toolchain options h = (.ok generated, after)) :
    (∃ planned left,
      ws.generate toolchain { options with planOnly := true } h = (.ok planned, left) ∧
      planned.graph = generated.graph ∧ planned.projects = generated.projects) ∧
    (ws.IsRooted h →
      ws.Unmatched toolchain.platform after
        (ws.ninjaFile toolchain.platform options.configuration) →
      ws.Unmatched toolchain.platform after ws.compileCommandsFile →
      ∀ clock, ∃ left, ws.generate toolchain options { after with clock } = (.ok generated, left) ∧
        ∀ p c, left.content p = .ok c ↔ after.content p = .ok c) := by
  have made := generateFiles_of_generate writes made
  obtain ⟨resolved, drawn⟩ := resolve_of_generateFiles tidy umbrellas made
  obtain ⟨_, valid, -⟩ := bind_eq_ok.1 resolved
  refine ⟨?_, fun rooted description database clock => ?_⟩
  · obtain ⟨errors, planned⟩ := (ws.observes_plan toolchain { options with planOnly := true }).run
      (bind_eq_ok.2 ⟨_, mapError_eq_ok.2 resolved,
        bind_eq_ok.2 ⟨_, mapError_eq_ok.2 drawn, rfl⟩⟩)
    exact ⟨_, _, (generate_of_validate_eq_ok valid).trans planned, rfl, rfl⟩
  · have ready := ready_of_generateFiles tidy umbrellas made rooted
    obtain ⟨first, done, wrote⟩ := ready.exists_generateFiles
    obtain ⟨same, rfl⟩ := Prod.mk.inj (done.symm.trans made)
    obtain ⟨left, again, held⟩ := ready.exists_again description database wrote clock
    refine ⟨left, ?_, held⟩
    rw [generate_of_validate_eq_ok valid, if_neg (by simp [writes]), again, same]

/-- A program with tests, and a library that takes all sources of the program. -/
def testedWorkspace : Workspace :=
  { root := ⟨"/w"⟩
    manifestPath := ⟨"/w/Shipwright.toml"⟩
    manifest :=
      { projects :=
          [{ name := "core", kind := .staticLibrary, path := some ⟨"app"⟩, sources := ["*.c"] },
            { name := "app", kind := .executable, sources := [], links := ["core"]
              testAggregate := some ⟨⟨"tests"⟩, "*.test.c", ⟨"all.c"⟩⟩ }] } }

/-- An umbrella source that is out of date. -/
def testedHost : Host :=
  { (default : Host) with
    tree := .directory [("w", .directory [("Code", .directory
      [("app", .directory [("all.c", .file ⟨.text "old", 1, false⟩)]),
      ("tests", .directory [("draw.test.c", .file default)])])])] }

theorem tidy_testedHost : testedHost.tree.Tidy := by
  have kept : ∀ name ∈ ["w", "Code", "app", "tests", "all.c", "draw.test.c"], IsKeptName name := by
    decide
  simp [testedHost, Tree.tidy_directory_iff, Tree.Tidy.file, kept]

/-- The library compiles the umbrella source, which is written over both times. -/
theorem generate_again_testedWorkspace :
    let options : GenerationOptions := ⟨.debug, true, false⟩
    ∃ generated after,
      testedWorkspace.generate (.gcc {}) options testedHost = (.ok generated, after) ∧
      (∃ planned left,
        testedWorkspace.generate (.gcc {}) { options with planOnly := true } testedHost =
          (.ok planned, left) ∧
        planned.graph = generated.graph ∧ planned.projects = generated.projects) ∧
      ∃ left, testedWorkspace.generate (.gcc {}) options { after with clock := 1 } =
          (.ok generated, left) ∧
        left.content ⟨"/w/Code/app/all.c"⟩ = .ok (.text
          "/* auto-generated by shipwright: do not edit */\n\n#include \"draw.test.c\"\n") := by
  intro options
  obtain ⟨generated, made⟩ := exists_eq_ok
    (x := (testedWorkspace.generate (.gcc {}) options testedHost).1) (by decide +kernel)
  obtain ⟨planned, again⟩ :=
    generate_again tidy_testedHost (by decide +kernel) rfl (Prod.ext made rfl)
  obtain ⟨left, done, held⟩ :=
    again (by decide +kernel) (by decide +kernel) (by decide +kernel) 1
  exact ⟨generated, _, Prod.ext made rfl, planned, left, done, (held _ _).2 (by decide +kernel)⟩

end Again

end Workspace

end BuildPlanner
