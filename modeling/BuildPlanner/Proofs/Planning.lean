import BuildPlanner.Generation
import BuildPlanner.Proofs.Activities
import BuildPlanner.Proofs.Searches

/-!
# Planning

Resolving projects and generating their graph look at the host and report what they do, and do
nothing else.  So what they answer is told without reports: by `Workspace.resolve` and by
`BuildGraph.generate`.
-/

namespace BuildPlanner

open Activity

namespace Workspace

variable (ws : Workspace) (platform : Platform) (configuration : Configuration)

/-- The patterns for the sources of a project. -/
def sourcePatterns (d : ProjectDefinition) : List String :=
  d.sources ++ ((d.additionsFor platform).getD {}).sources

/-- A project is resolved by what its patterns find. -/
theorem resolveProject_congr {h k : Host} (enabled : List ProjectDefinition) (d : ProjectDefinition)
    (files : Glob.files k (ws.root.join (ws.sourceDir d)) (sourcePatterns platform d) =
      Glob.files h (ws.root.join (ws.sourceDir d)) (sourcePatterns platform d)) :
    ws.resolveProject k enabled platform configuration d =
      ws.resolveProject h enabled platform configuration d := by
  have sources : ws.sources k d ((d.additionsFor platform).getD {}) =
      ws.sources h d ((d.additionsFor platform).getD {}) := by
    unfold sourcePatterns at files
    unfold Workspace.sources
    rw [discover, discover, files]
  simp only [resolveProject, sources]

/-- The projects are resolved by what their patterns find. -/
theorem resolve_congr {h k : Host}
    (files : ∀ d ∈ ws.enabled platform,
      Glob.files k (ws.root.join (ws.sourceDir d)) (sourcePatterns platform d) =
        Glob.files h (ws.root.join (ws.sourceDir d)) (sourcePatterns platform d)) :
    ws.resolve k platform configuration = ws.resolve h platform configuration := by
  unfold resolve
  rw [mapM_congr fun d hd => ws.resolveProject_congr platform configuration _ d (files d hd)]

theorem steady_resolveProject (enabled : List ProjectDefinition) (d : ProjectDefinition) :
    Steady fun h => ws.resolveProject h enabled platform configuration d := by
  intro h errors
  have files : Glob.files { h with errors } = Glob.files h := Glob.files_congr rfl rfl
  exact ws.resolveProject_congr platform configuration enabled d (by rw [files])

theorem observes_forM_report (severity : Severity) (text : Option String) :
    (text.forM (Activity.report severity) : Activity Failure Unit).Observes fun _ => .ok () := by
  cases text with
  | none => exact .pure ()
  | some text => exact .report severity text

/-- What is done about the outcome of a resolution does no more than report on it. -/
theorem observes_outcome (h : Host) (d : ProjectDefinition) (outcome : Except ModelError Project) :
    Observes
      (match outcome with
        | .ok p => do
          Activity.report .detail (resolutionNote p)
          return p
        | .error fault => do
          (ws.searchNote? h platform d).forM (Activity.report .detail)
          throw (Failure.of (.model fault)))
      fun _ => outcome.mapError fun fault => Failure.of (.model fault) := by
  cases outcome with
  | ok p => exact (Observes.report _ _).bind (fun _ => .pure p) fun _ _ _ => rfl
  | error fault => exact (observes_forM_report _ _).bind (fun _ => .throw _) fun _ _ _ => rfl

/-- A project is resolved as it is without reports. -/
theorem observes_resolveProjectReporting (enabled : List ProjectDefinition)
    (d : ProjectDefinition) :
    (ws.resolveProjectReporting enabled platform configuration d).Observes fun h =>
      (ws.resolveProject h enabled platform configuration d).mapError fun fault =>
        .of (.model fault) := by
  have steady := ws.steady_resolveProject platform configuration enabled d
  have resolved (h : Host) :=
    ws.observes_outcome platform h d (ws.resolveProject h enabled platform configuration d)
  refine ((Observes.ofView _).discard.bind (fun _ => (observes_forM_report _ _).bind
    (fun _ => .get_bind resolved) fun _ h errors => ?_) fun _ h errors => ?_).of_eq fun h => ?_
  · exact congrArg (Except.mapError _) (steady h errors)
  · exact congrArg (Except.mapError _) (steady h errors)
  · -- Names that are not known are the first thing that resolving finds.
    cases named : used enabled d with
    | ok others => rfl
    | error fault => rw [resolveProject, named]; rfl

/-- The projects are resolved as they are without reports. -/
theorem observes_resolveReporting :
    (ws.resolveReporting platform configuration).Observes fun h =>
      (ws.resolve h platform configuration).mapError fun fault => .of (.model fault) := by
  have steady (d : ProjectDefinition) : Steady fun h =>
      (ws.resolveProject h (ws.enabled platform) platform configuration d).mapError fun fault =>
        Failure.of (.model fault) :=
    fun h errors => congrArg (Except.mapError _)
      (ws.steady_resolveProject platform configuration (ws.enabled platform) d h errors)
  have all := Observes.mapM
    (ws.observes_resolveProjectReporting platform configuration (ws.enabled platform)) steady
    (ws.enabled platform)
  refine ((Observes.ofView _).bind (fun _ => all) fun _ h errors => ?_).of_eq fun h => ?_
  · simp only [steady _ h errors]
  · rw [resolve, mapError_bind, mapError_mapM]

variable {ws platform configuration} {h : Host}

theorem resolveReporting_of_ok {projects : List Project}
    (resolved : ws.resolve h platform configuration = .ok projects) :
    ∃ errors, ws.resolveReporting platform configuration h = (.ok projects, { h with errors }) :=
  (ws.observes_resolveReporting platform configuration).run (congrArg (Except.mapError _) resolved)

theorem resolveReporting_of_error {fault : ModelError}
    (failed : ws.resolve h platform configuration = .error fault) :
    ∃ errors, ws.resolveReporting platform configuration h =
      (.error (.of (.model fault)), { h with errors }) :=
  (ws.observes_resolveReporting platform configuration).run (congrArg (Except.mapError _) failed)

end Workspace

/-- The graph is generated as it is without reports. -/
theorem BuildGraph.observes_generateReporting (toolchain : Toolchain)
    (configuration : Configuration) (projects : List Project) :
    (generateReporting toolchain configuration projects).Observes fun _ =>
      (generate toolchain configuration projects).mapError fun fault => .of (.model fault) := by
  have notes (texts : List String) :
      (texts.forM (Activity.report .detail) : Activity Failure Unit).Observes fun _ => .ok () := by
    induction texts with
    | nil => exact .pure ()
    | cons text texts ih => exact (Observes.report _ text).bind (fun _ => ih) fun _ _ _ => rfl
  refine .get_bind fun h => ?_
  cases h.isVerbose with
  | true => exact (notes _).bind (fun _ => .ofView _) fun _ _ _ => rfl
  | false => exact .ofView _

/-- What is reported about a build description. -/
def Workspace.descriptionNote (description : Path) (graph : BuildGraph) : String :=
  s!"Wrote {description} ({graph.statements.length} statements)"

/-- The stages that a generation of files comes through, one after the other. -/
theorem Workspace.generateFiles_eq_ok_iff {ws : Workspace} {toolchain : Toolchain}
    {options : GenerationOptions} {h after : Host} {generated : Generated} :
    ws.generateFiles toolchain options h = (.ok generated, after) ↔
      ∃ outputs aggregated resolved described,
        ws.aggregateTests toolchain.platform h = (.ok outputs, aggregated) ∧
        ws.resolveReporting toolchain.platform options.configuration aggregated =
          (.ok generated.projects, resolved) ∧
        BuildGraph.write toolchain options.configuration
            (ws.ninjaFile toolchain.platform options.configuration) generated.projects
            (announce toolchain options generated.projects resolved).2 =
          (.ok generated.graph, described) ∧
        generated.ninjaFile = some (ws.ninjaFile toolchain.platform options.configuration) ∧
        (if options.emitCompileCommands then some <$> ws.writeCompileCommands generated.graph
          else pure none : Activity Failure (Option Path))
            (described.report .info (descriptionNote
              (ws.ninjaFile toolchain.platform options.configuration) generated.graph)) =
          (.ok generated.compileCommands, after) := by
  constructor
  · intro made
    obtain ⟨_, aggregated, discarded, rest⟩ := Activity.bind_eq_ok.1 made
    obtain ⟨outputs, first⟩ := Activity.discard_eq_ok.1 discarded
    obtain ⟨projects, resolved, second, rest⟩ := Activity.bind_eq_ok.1 rest
    obtain ⟨_, _, ⟨⟩, rest⟩ := Activity.bind_eq_ok.1 rest
    obtain ⟨graph, described, third, rest⟩ := Activity.bind_eq_ok.1 rest
    obtain ⟨_, _, ⟨⟩, rest⟩ := Activity.bind_eq_ok.1 rest
    have third := Activity.mapFault_eq_ok.1 third
    cases emits : options.emitCompileCommands with
    | true =>
      rw [emits, if_pos rfl] at rest
      obtain ⟨database, _, fourth, ⟨⟩⟩ := Activity.bind_eq_ok.1 rest
      exact ⟨outputs, aggregated, resolved, described, first, second, third, rfl, fourth⟩
    | false =>
      rw [emits, if_neg Bool.false_ne_true] at rest
      obtain ⟨database, _, fourth, ⟨⟩⟩ := Activity.bind_eq_ok.1 rest
      exact ⟨outputs, aggregated, resolved, described, first, second, third, rfl, fourth⟩
  · rintro ⟨outputs, aggregated, resolved, described, first, second, third, named, fourth⟩
    obtain ⟨graph, projects, ninjaFile, database⟩ := generated
    obtain rfl : ninjaFile = _ := named
    refine Activity.bind_eq_ok.2 ⟨(), aggregated, Activity.discard_eq_ok.2 ⟨outputs, first⟩, ?_⟩
    refine Activity.bind_eq_ok.2 ⟨projects, resolved, second, ?_⟩
    refine Activity.bind_eq_ok.2 ⟨(), _, rfl, ?_⟩
    refine Activity.bind_eq_ok.2 ⟨graph, described, Activity.mapFault_eq_ok.2 third, ?_⟩
    refine Activity.bind_eq_ok.2 ⟨(), _, rfl, ?_⟩
    cases emits : options.emitCompileCommands with
    | true =>
      rw [emits, if_pos rfl] at fourth
      rw [if_pos rfl]
      exact Activity.bind_eq_ok.2 ⟨database, after, fourth, rfl⟩
    | false =>
      rw [emits, if_neg Bool.false_ne_true] at fourth
      rw [if_neg Bool.false_ne_true]
      exact Activity.bind_eq_ok.2 ⟨database, after, fourth, rfl⟩

/-- A plan is what the projects and their graph are without reports. -/
theorem Workspace.observes_plan (ws : Workspace) (toolchain : Toolchain)
    (options : GenerationOptions) :
    (ws.plan toolchain options).Observes fun h => do
      let projects ← (ws.resolve h toolchain.platform options.configuration).mapError fun fault =>
        .of (.model fault)
      let graph ← (BuildGraph.generate toolchain options.configuration projects).mapError
        fun fault => .of (.model fault)
      return { graph, projects, ninjaFile := none, compileCommands := none } := by
  have generated (projects : List Project) :=
    (BuildGraph.observes_generateReporting toolchain options.configuration projects).bind
      (fun graph => .pure (Generated.mk graph projects none none)) fun _ _ _ => rfl
  have announced (projects : List Project) :
      (announce toolchain options projects).Observes fun _ => .ok () := .report _ _
  have rest (projects : List Project) :=
    (announced projects).bind (fun _ => generated projects) fun _ _ _ => rfl
  exact ((ws.observes_resolveReporting toolchain.platform options.configuration).bind rest
    fun _ _ _ => rfl).of_eq fun _ => rfl

end BuildPlanner
