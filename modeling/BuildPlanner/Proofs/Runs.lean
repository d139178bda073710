import BuildPlanner.Pipeline
import BuildPlanner.Proofs.Planning
import BuildPlanner.Proofs.Resolution
import BuildPlanner.Proofs.Writing

/-!
# Runs stop at the first failure

A run has generated all that it builds, has built all that it deploys, and deploys no further than
to the first failure, whatever the executor and the copy utility do (`run_stages`).

* `Workspace.declaredTargets` is what the manifest says is deployed.
* `DeployHook.steps` is what a copy utility does to one target after the other, and `deployAfter_eq`
  says which of these steps are made.
* What is built is the description that was written last (`Workspace.generateFiles_eq_ok`).
-/

namespace BuildPlanner

/-! ## Deployment -/

/-- One target of a deployment: what the copy utility answered for it, and what it left. -/
structure DeployStep where
  /-- The target. -/
  target : DeployTarget
  /-- The answer. -/
  answer : Except Failure Int
  /-- The host after the answer was looked at. -/
  left : Host

namespace DeployHook

variable (hook : DeployHook)

/-- Whether an answer ends a deployment. -/
def fails : Except Failure Int → Bool
  | .error _ => true
  | .ok code => hook.threshold < code

/-- What a copy utility does to a target after the given calls. -/
def step (calls : List CopyCall) (target : DeployTarget) (h : Host) : DeployStep :=
  let (answer, after) := hook.copy calls target.call (target.announce h)
  ⟨target, answer, if hook.fails answer then after else target.warn answer after⟩

/-- What a copy utility does to one target after the other, if it never stops. -/
def steps (calls : List CopyCall) : List DeployTarget → Host → List DeployStep
  | [], _ => []
  | target :: rest, h =>
    hook.step calls target h ::
      steps (calls ++ [target.call]) rest (hook.step calls target h).left

/-- Whether a step ends a deployment. -/
def stops (step : DeployStep) : Bool :=
  hook.fails step.answer

/-- The steps up to the first that ends the deployment. -/
def untilFailure (steps : List DeployStep) : List DeployStep :=
  steps.take (steps.findIdx hook.stops + 1)

/-- The host that steps leave of the one on which they begin. -/
def hostAfter (h : Host) (steps : List DeployStep) : Host :=
  (steps.getLast?.map (·.left)).getD h

/-- The fault of a step that fails. -/
def fault (step : DeployStep) : PipelineFault :=
  match step.answer with
  | .error failure => .io "deploy" failure
  | .ok code => .deploy step.target.project code hook.threshold

theorem hostAfter_cons (h : Host) (step : DeployStep) (steps : List DeployStep) :
    hostAfter h (step :: steps) = hostAfter step.left steps := by
  simp only [hostAfter, List.getLast?_cons]
  cases steps.getLast? <;> rfl

theorem map_target_steps (calls : List CopyCall) (targets : List DeployTarget) (h : Host) :
    (hook.steps calls targets h).map (·.target) = targets := by
  induction targets generalizing calls h with
  | nil => rfl
  | cons target rest ih => exact congrArg _ (ih _ _)

variable {hook}

theorem untilFailure_cons_of_stops {step : DeployStep} (h : hook.stops step = true)
    (steps : List DeployStep) : hook.untilFailure (step :: steps) = [step] := by
  simp [untilFailure, List.findIdx_cons, h]

theorem untilFailure_cons_of_not_stops {step : DeployStep} (h : hook.stops step = false)
    (steps : List DeployStep) :
    hook.untilFailure (step :: steps) = step :: hook.untilFailure steps := by
  simp [untilFailure, List.findIdx_cons, h]

theorem forall_mem_untilFailure_iff {steps : List DeployStep} :
    (∀ step ∈ hook.untilFailure steps, hook.stops step = false) ↔
      ∀ step ∈ steps, hook.stops step = false := by
  induction steps with
  | nil => rfl
  | cons step steps ih =>
    cases stopped : hook.stops step with
    | true => simp [untilFailure_cons_of_stops stopped, stopped]
    | false => simp [untilFailure_cons_of_not_stops stopped, stopped, ih]

theorem judge_eq_ok {project : String} {answer : Except Failure Int}
    (h : hook.fails answer = false) : hook.judge project answer = .ok () := by
  cases answer with
  | error failure => cases h
  | ok code =>
    have within : ¬ hook.threshold < code := by simpa [fails] using h
    rw [judge, if_neg within]

theorem judge_eq_error (step : DeployStep) (h : hook.stops step = true) :
    hook.judge step.target.project step.answer = .error (hook.fault step) := by
  obtain ⟨target, answer, left⟩ := step
  cases answer with
  | error failure => rfl
  | ok code =>
    have beyond : hook.threshold < code := by simpa [stops, fails] using h
    rw [judge, if_pos beyond]
    rfl

end DeployHook

/-- A deployment makes one step more, and goes on unless it fails. -/
theorem deployAfter_cons (hook : DeployHook) (calls : List CopyCall) (target : DeployTarget)
    (rest : List DeployTarget) (h : Host) :
    deployAfter hook calls (target :: rest) h =
      let step := hook.step calls target h
      if hook.stops step then
        (⟨calls ++ [target.call], .error (hook.fault step)⟩, step.left)
      else deployAfter hook (calls ++ [target.call]) rest step.left := by
  rw [deployAfter, DeployHook.step]
  cases called : hook.copy calls target.call (target.announce h) with
  | mk answer after =>
    dsimp only
    by_cases failed : hook.fails answer = true
    · have stopped (left : Host) : hook.stops ⟨target, answer, left⟩ = true := failed
      have judged := DeployHook.judge_eq_error ⟨target, answer, after⟩ (stopped after)
      dsimp only at judged
      rw [if_pos (stopped _), if_pos failed, judged]
    · have goesOn (left : Host) : ¬ hook.stops ⟨target, answer, left⟩ = true := failed
      rw [if_neg (goesOn _), if_neg failed, DeployHook.judge_eq_ok (Bool.eq_false_iff.2 failed)]

/-- A deployment makes the steps up to the first that fails, and by that it ends. -/
theorem deployAfter_eq (hook : DeployHook) (calls : List CopyCall) (targets : List DeployTarget)
    (h : Host) :
    deployAfter hook calls targets h =
      let steps := hook.steps calls targets h
      let made := hook.untilFailure steps
      (⟨calls ++ made.map (·.target.call),
        match steps.find? hook.stops with
        | none => .ok ()
        | some step => .error (hook.fault step)⟩,
      DeployHook.hostAfter h made) := by
  induction targets generalizing calls h with
  | nil => simp [deployAfter, DeployHook.steps, DeployHook.untilFailure, DeployHook.hostAfter]
  | cons target rest ih =>
    have same : (hook.step calls target h).target = target := rfl
    rw [deployAfter_cons, DeployHook.steps]
    dsimp only
    cases failed : hook.stops (hook.step calls target h) with
    | true =>
      rw [DeployHook.untilFailure_cons_of_stops failed, List.find?_cons_of_pos failed]
      rfl
    | false =>
      rw [DeployHook.untilFailure_cons_of_not_stops failed, DeployHook.hostAfter_cons,
        List.find?_cons_of_neg (by simp [failed]), if_neg Bool.false_ne_true, ih]
      simp [same]

/-! ## What is deployed -/

namespace Workspace

variable {ws : Workspace} {platform : Platform} {configuration : Configuration}

/-- What a declared project says is deployed, if anything: the data of an executable. -/
def declaredTarget? (ws : Workspace) (platform : Platform) (configuration : Configuration)
    (d : ProjectDefinition) : Option DeployTarget :=
  if d.kind = .executable then
    d.data.map fun data =>
      ⟨d.name, ws.root.join data,
        (ws.root.join (ws.deployDir d.name platform configuration)).entry "data"⟩
  else none

/-- What a workspace says is deployed, in the order of its projects. -/
def declaredTargets (ws : Workspace) (platform : Platform) (configuration : Configuration) :
    List DeployTarget :=
  (ws.enabled platform).filterMap (ws.declaredTarget? platform configuration)

/-- What is deployed for a resolved project is what it declared. -/
theorem deployTarget?_of_resolveProject {h : Host} {enabled : List ProjectDefinition}
    {d : ProjectDefinition} {p : Project}
    (resolved : ws.resolveProject h enabled platform configuration d = .ok p) :
    deployTarget? ws.root p = ws.declaredTarget? platform configuration d := by
  obtain ⟨others, found, -, -, rfl⟩ := exists_of_resolveProject resolved
  rw [deployTarget?, declaredTarget?, Project.executable?, Workspace.kind]
  cases kind : d.kind with
  | staticLibrary => rfl
  | headerOnly => rfl
  | executable => cases named : d.data <;> rfl

/-- Each enabled project is resolved, on the host as it is when its turn comes. -/
def ResolvedTo (ws : Workspace) (platform : Platform) (configuration : Configuration)
    (projects : List Project) : Prop :=
  List.Forall₂ (fun d p => ∃ h,
    ws.resolveProject h (ws.enabled platform) platform configuration d = .ok p)
    (ws.enabled platform) projects

theorem deployTargets_eq {projects : List Project}
    (resolved : ws.ResolvedTo platform configuration projects) :
    deployTargets ws.root projects = ws.declaredTargets platform configuration := by
  have same := map_eq_map_of_forall₂ resolved (f := ws.declaredTarget? platform configuration)
    (g := deployTarget? ws.root) fun d p ⟨h, one⟩ => (deployTarget?_of_resolveProject one).symm
  simpa [deployTargets, declaredTargets] using (congrArg (List.filterMap id) same).symm

/-! ## Generation -/

theorem resolvedTo_of_resolveReporting {projects : List Project} {h after : Host}
    (reported : ws.resolveReporting platform configuration h = (.ok projects, after)) :
    ws.ResolvedTo platform configuration projects := by
  obtain ⟨resolved, -⟩ := (ws.observes_resolveReporting platform configuration).eq_ok reported
  exact (forall₂_of_resolve (mapError_eq_ok.1 resolved)).2.imp fun d p one => ⟨h, one⟩

end Workspace

theorem BuildGraph.read_of_write {toolchain : Toolchain} {configuration : Configuration} {p : Path}
    {projects : List Project} {graph : BuildGraph} {h after : Host}
    (written : BuildGraph.write toolchain configuration p projects h = (.ok graph, after)) :
    after.read p = .ok graph.render := by
  obtain ⟨_, _, -, written⟩ := Activity.bind_eq_ok.1 written
  obtain ⟨_, _, written, same⟩ := Activity.bind_eq_ok.1 written
  cases same
  exact Files.read_of_write (Activity.mapFault_eq_ok.1 written)

namespace Workspace

variable {ws : Workspace} {toolchain : Toolchain} {h after : Host}

/-- The compilation database is not written over the build description. -/
theorem namedLocation_ninjaFile_ne (ws : Workspace) (platform : Platform)
    (configuration : Configuration) (h : Host) :
    h.namedLocation (ws.ninjaFile platform configuration) ≠
      h.namedLocation ws.compileCommandsFile := by
  have apart : s!"build-{platform}-{configuration}.ninja" ≠ BuildGraph.compileCommandsName := by
    cases platform <;> cases configuration <;> decide
  rw [ninjaFile, compileCommandsFile,
    Host.namedLocation_entry h _ (isEntryName_ninjaFile platform configuration),
    Host.namedLocation_entry h _ (by decide)]
  simpa using apart

theorem read_of_writeCompileCommands {graph : BuildGraph} {database q : Path} {text : String}
    (written : ws.writeCompileCommands graph h = (.ok database, after))
    (ne : h.namedLocation q ≠ h.namedLocation ws.compileCommandsFile)
    (held : h.read q = .ok text) : after.read q = .ok text := by
  obtain ⟨_, middle, first, rest⟩ := Activity.bind_eq_ok.1 written
  obtain ⟨_, _, reported, same⟩ := Activity.bind_eq_ok.1 rest
  cases reported
  cases same
  rw [Host.read_report]
  exact Files.read_of_write_of_ne first ne held

/-- What has been generated was resolved from what is enabled, and its graph is the last build
description that was written. -/
theorem generateFiles_eq_ok {options : GenerationOptions} {generated : Generated}
    (made : ws.generateFiles toolchain options h = (.ok generated, after)) :
    generated.ninjaFile = some (ws.ninjaFile toolchain.platform options.configuration) ∧
      ws.ResolvedTo toolchain.platform options.configuration generated.projects ∧
      after.read (ws.ninjaFile toolchain.platform options.configuration) =
        .ok generated.graph.render := by
  obtain ⟨_, _, _, described, -, resolved, written, named, rest⟩ := generateFiles_eq_ok_iff.1 made
  have held := BuildGraph.read_of_write written
  rw [← Host.read_report _ .info] at held
  refine ⟨named, resolvedTo_of_resolveReporting resolved, ?_⟩
  split at rest
  · obtain ⟨file, more, -⟩ := Activity.map_eq_ok.1 rest
    exact read_of_writeCompileCommands more (namedLocation_ninjaFile_ne ws _ _ _) held
  · rw [Activity.pure_run, Prod.mk.injEq] at rest
    exact rest.2 ▸ held

theorem generateFiles_of_generate {options : GenerationOptions} (write : options.planOnly = false)
    {generated : Generated} (made : ws.generate toolchain options h = (.ok generated, after)) :
    ws.generateFiles toolchain options h = (.ok generated, after) := by
  obtain ⟨_, middle, checked, rest⟩ := Activity.bind_eq_ok.1 made
  rw [if_neg (by simp [write])] at rest
  obtain ⟨-, rfl⟩ := Activity.ofView_eq_ok.1 checked
  exact rest

/-! ## Stages -/

variable {options : PipelineOptions} {executor : Executor} {hook : DeployHook}
  {generated : Generated}

/-- A run that has built deploys what is declared, up to the first failure, if it is to deploy. -/
theorem runDeploy_eq
    (resolved : ws.ResolvedTo toolchain.platform options.configuration generated.projects) :
    ws.runDeploy toolchain options hook generated h =
      let requests := [ws.buildRequest toolchain options generated]
      let targets := ws.declaredTargets toolchain.platform options.configuration
      let steps := hook.steps [] targets h
      let made := hook.untilFailure steps
      if options.noDeploy then
        (⟨.ok (ws.report toolchain options generated true []), requests, []⟩,
          h.report .info "Skipping deploy (--no-deploy)")
      else
        (⟨match steps.find? hook.stops with
          | none => .ok (ws.report toolchain options generated true (targets.map (·.project)))
          | some step => .error (hook.fault step),
        requests, made.map (·.target.call)⟩, DeployHook.hostAfter h made) := by
  have deployed := deployAfter_eq hook []
    (ws.declaredTargets toolchain.platform options.configuration) h
  rw [runDeploy, deployTargets_eq resolved]
  simp only [deploy, deployed, List.nil_append]
  split
  · rfl
  · split <;> rfl

/-- What a run that has generated is to build, and reports, names the description that was
written. -/
theorem describedBy_eq {description : Path} (file : generated.ninjaFile = some description) :
    ws.describedBy toolchain options generated = description := by
  rw [describedBy, file]
  rfl

theorem runBuild_of_error {fault : PipelineFault} (build : options.noBuild = false)
    (failed : executor (ws.buildRequest toolchain options generated) h = (.error fault, after)) :
    ws.runBuild toolchain options executor hook generated h =
      (⟨.error fault, [ws.buildRequest toolchain options generated], []⟩, after) := by
  rw [runBuild, if_neg (by simp [build])]
  simp only [failed]

theorem runBuild_of_ok {code : Int} (build : options.noBuild = false)
    (done : executor (ws.buildRequest toolchain options generated) h = (.ok code, after)) :
    ws.runBuild toolchain options executor hook generated h =
      if code = 0 then ws.runDeploy toolchain options hook generated after
      else (⟨.error (.build code), [ws.buildRequest toolchain options generated], []⟩, after) := by
  rw [runBuild, if_neg (by simp [build])]
  simp only [done]

end Workspace

/-! ## Runs -/

/-- A run that cannot generate does nothing more, and one that has generated is to build the
description that it wrote, once, or nothing.  A build that fails is the end; after one that does not,
the data of the executables is deployed in the order of the projects, or nothing is, and the first
answer that is an error or beyond the threshold is the end. -/
theorem run_stages (ws : Workspace) (toolchain : Toolchain) (options : PipelineOptions)
    (executor : Executor) (hook : DeployHook) (h : Host) :
    (∀ failure left,
      ws.generate toolchain (Workspace.generationOptions options) h = (.error failure, left) →
        ws.run toolchain options executor hook h =
          (⟨.error (.generate failure), [], []⟩, left)) ∧
    ∀ generated left,
      ws.generate toolchain (Workspace.generationOptions options) h = (.ok generated, left) →
        let run := ws.run toolchain options executor hook h
        let description := ws.ninjaFile toolchain.platform options.configuration
        let request : BuildRequest := ⟨ws.root, description, options.jobs⟩
        let report (built : Bool) (deployed : List String) : PipelineReport :=
          ⟨description, generated.graph.statements.length, built, deployed⟩
        left.read description = .ok generated.graph.render ∧
        (options.noBuild = true →
          run = (⟨.ok (report false []), [], []⟩,
            left.report .info "Skipping build (--no-build)")) ∧
        (options.noBuild = false →
          (∀ fault after, executor request left = (.error fault, after) →
            run = (⟨.error fault, [request], []⟩, after)) ∧
          (∀ code after, executor request left = (.ok code, after) → code ≠ 0 →
            run = (⟨.error (.build code), [request], []⟩, after)) ∧
          ∀ after, executor request left = (.ok 0, after) →
            (options.noDeploy = true →
              run = (⟨.ok (report true []), [request], []⟩,
                after.report .info "Skipping deploy (--no-deploy)")) ∧
            (options.noDeploy = false →
              let targets := ws.declaredTargets toolchain.platform options.configuration
              let steps := hook.steps [] targets after
              let made := hook.untilFailure steps
              steps.map (·.target) = targets ∧
              run = (⟨match steps.find? hook.stops with
                  | none => .ok (report true (targets.map (·.project)))
                  | some step => .error (hook.fault step),
                [request], made.map (·.target.call)⟩, DeployHook.hostAfter after made) ∧
              ((∃ done, run.1.result = .ok done) ↔ ∀ step ∈ made, hook.stops step = false))) := by
  constructor
  · intro failure left failed
    rw [Workspace.run, failed]
  intro generated left made run description request report
  obtain ⟨file, resolved, held⟩ :=
    Workspace.generateFiles_eq_ok (Workspace.generateFiles_of_generate rfl made)
  have described : ws.describedBy toolchain options generated = description :=
    Workspace.describedBy_eq file
  have asked : ws.buildRequest toolchain options generated = request := by
    rw [Workspace.buildRequest, described]
  have reported : ws.report toolchain options generated = report := by
    funext built deployed
    rw [Workspace.report, described]
  have stage : run = ws.runBuild toolchain options executor hook generated left := by
    simp only [run, Workspace.run, made]
  rw [stage]
  refine ⟨held, fun skip => ?_, fun build => ⟨fun fault after failed => ?_,
    fun code after done bad => ?_, fun after done => ?_⟩⟩
  · rw [Workspace.runBuild, if_pos skip, reported]
  · rw [← asked] at failed ⊢
    exact Workspace.runBuild_of_error build failed
  · rw [← asked] at done ⊢
    rw [Workspace.runBuild_of_ok build done, if_neg bad]
  · rw [← asked] at done ⊢
    have deployed : ws.runDeploy toolchain options hook generated after = _ :=
      Workspace.runDeploy_eq resolved
    rw [Workspace.runBuild_of_ok build done, if_pos rfl, deployed, reported]
    dsimp only
    refine ⟨fun skip => if_pos skip, fun deploys => ?_⟩
    rw [if_neg (by simp [deploys]), DeployHook.forall_mem_untilFailure_iff]
    refine ⟨hook.map_target_steps _ _ _, rfl, ?_⟩
    cases failed : (hook.steps [] (ws.declaredTargets toolchain.platform options.configuration)
        after).find? hook.stops with
    | none => simpa using failed
    | some step =>
      simpa using ⟨step, List.mem_of_find?_eq_some failed, List.find?_some failed⟩

/-- Three programs with data and one without. -/
def dataWorkspace : Workspace :=
  { root := ⟨"/w"⟩
    manifestPath := ⟨"/w/Shipwright.toml"⟩
    manifest :=
      { projects := ["app", "bare", "tool", "last"].map fun name =>
          { name, kind := .executable, sources := []
            data := if name = "bare" then none else some ⟨"Data/" ++ name⟩
            testAggregate := some ⟨⟨"tests"⟩, "*.c", ⟨"main.c"⟩⟩ } } }

/-- The first copy ends with a warning and the second one is beyond the threshold, so the third is
not made; and nothing is built where an icon cannot be compiled. -/
theorem run_stages_dataWorkspace_iconWorkspace :
    let options : PipelineOptions := ⟨.debug, false, false, true, some 4⟩
    let executor : Executor := fun _ h => (.ok 0, h)
    let hook : DeployHook := ⟨2, fun calls _ h => (.ok (if calls = [] then 1 else 3), h)⟩
    let h : Host := { (default : Host) with tree := .empty }
    (∃ left, dataWorkspace.run (.gcc {}) options executor hook h =
      (⟨.error (.deploy "tool" 3 2),
        [⟨⟨"/w"⟩, ⟨"/w/build-gcc-debug.ninja"⟩, some 4⟩],
        [⟨⟨"/w/Data/app"⟩, ⟨"/w/Deploy/app/GCC/Debug/data"⟩⟩,
          ⟨⟨"/w/Data/tool"⟩, ⟨"/w/Deploy/tool/GCC/Debug/data"⟩⟩]⟩, left)) ∧
    ∃ failure left, iconWorkspace.run (.gcc {}) options executor hook h =
      (⟨.error (.generate failure), [], []⟩, left) := by
  intro options executor hook h
  constructor
  · obtain ⟨generated, made⟩ := exists_eq_ok
      (x := (dataWorkspace.generate (.gcc {}) (Workspace.generationOptions options) h).1)
      (by decide +kernel)
    obtain ⟨-, -, builds⟩ := (run_stages dataWorkspace (.gcc {}) options executor hook h).2 generated
      _ (Prod.ext made rfl)
    obtain ⟨-, -, deploys⟩ := builds rfl
    obtain ⟨-, run, -⟩ := (deploys _ rfl).2 rfl
    have targets :
        dataWorkspace.declaredTargets (Toolchain.gcc {}).platform options.configuration =
          [⟨"app", ⟨"/w/Data/app"⟩, ⟨"/w/Deploy/app/GCC/Debug/data"⟩⟩,
            ⟨"tool", ⟨"/w/Data/tool"⟩, ⟨"/w/Deploy/tool/GCC/Debug/data"⟩⟩,
            ⟨"last", ⟨"/w/Data/last"⟩, ⟨"/w/Deploy/last/GCC/Debug/data"⟩⟩] := by decide +kernel
    have description : dataWorkspace.ninjaFile (Toolchain.gcc {}).platform options.configuration =
        ⟨"/w/build-gcc-debug.ninja"⟩ := by decide +kernel
    rw [run, targets, description]
    exact ⟨_, rfl⟩
  · obtain ⟨failure, failed⟩ := exists_eq_error
      (x := (iconWorkspace.generate (.gcc {}) (Workspace.generationOptions options) h).1)
      (by decide +kernel)
    exact ⟨failure, _, (run_stages iconWorkspace (.gcc {}) options executor hook h).1 failure _
      (Prod.ext failed rfl)⟩

end BuildPlanner
