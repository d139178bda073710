import BuildPlanner.Proofs.Planning
import BuildPlanner.Proofs.Resolution
import BuildPlanner.Proofs.Umbrellas

/-!
# What a failed generation leaves

A plan changes no file, and neither does a workspace that is not valid.  Where files are generated,
the umbrella sources come first; as long as the build description cannot be written, whatever the
reason (`Workspace.FailsEarly`), no other file has been touched (`Workspace.generate_frame`).
-/

namespace BuildPlanner.Workspace

variable {ws : Workspace} {toolchain : Toolchain} {options : GenerationOptions} {h : Host}

/-- A generation that comes to nothing before there is a build description to write: umbrella sources
cannot be written, projects cannot be resolved, or their graph cannot be generated. -/
inductive FailsEarly (ws : Workspace) (toolchain : Toolchain) (options : GenerationOptions)
    (h : Host) : Prop
  | aggregation {failure : Failure} {left : Host}
      (failed : ws.aggregateTests toolchain.platform h = (.error failure, left))
  | resolution {outputs : List Path} {middle : Host} {fault : ModelError}
      (aggregated : ws.aggregateTests toolchain.platform h = (.ok outputs, middle))
      (failed : ws.resolve middle toolchain.platform options.configuration = .error fault)
  | graph {outputs : List Path} {middle : Host} {projects : List Project} {fault : ModelError}
      (aggregated : ws.aggregateTests toolchain.platform h = (.ok outputs, middle))
      (resolved : ws.resolve middle toolchain.platform options.configuration = .ok projects)
      (failed : BuildGraph.generate toolchain options.configuration projects = .error fault)

theorem generate_of_validate_eq_error {fault : ModelError}
    (invalid : ws.validate toolchain.platform = .error fault) :
    ws.generate toolchain options h = (.error (.of (.model fault)), h) := by
  unfold generate
  rw [Activity.bind_run, Activity.ofModel, Activity.ofView, invalid]
  rfl

theorem generate_of_validate_eq_ok (valid : ws.validate toolchain.platform = .ok ()) :
    ws.generate toolchain options h =
      (if options.planOnly then ws.plan toolchain options else ws.generateFiles toolchain options)
        h := by
  unfold generate
  rw [Activity.bind_run, Activity.ofModel, Activity.ofView, valid]
  rfl

theorem write_of_generate_eq_error {projects : List Project} {fault : ModelError} {p : Path}
    {configuration : Configuration}
    (failed : BuildGraph.generate toolchain configuration projects = .error fault) :
    ∃ errors, BuildGraph.write toolchain configuration p projects h =
      (.error (.of (.model fault)), { h with errors }) := by
  have observes := BuildGraph.observes_generateReporting toolchain configuration projects
  obtain ⟨errors, done⟩ := observes.run (h := h) (congrArg (Except.mapError _) failed)
  unfold BuildGraph.write
  rw [Activity.bind_run, done]
  exact ⟨errors, rfl⟩

/-- What fails early leaves no files but umbrella sources. -/
theorem generateFiles_of_failsEarly (fails : ws.FailsEarly toolchain options h) :
    ∃ failure after, ws.generateFiles toolchain options h = (.error failure, after) ∧
      h.EditedAt after (ws.umbrellaFiles (ws.enabled toolchain.platform)) := by
  have edited := ws.edits_aggregateAll (ws.enabled toolchain.platform) h
  rw [← aggregateTests] at edited
  have reported {middle : Host} (errors : String)
      (edited : h.EditedAt middle (ws.umbrellaFiles (ws.enabled toolchain.platform))) :
      h.EditedAt { middle with errors } (ws.umbrellaFiles (ws.enabled toolchain.platform)) :=
    edited.trans (.of_tree rfl rfl)
  unfold generateFiles
  rw [Activity.bind_run, Activity.discard_run]
  cases fails with
  | aggregation failed =>
    rw [failed] at edited ⊢
    exact ⟨_, _, rfl, edited⟩
  | resolution aggregated failed =>
    rw [aggregated] at edited ⊢
    obtain ⟨errors, done⟩ := resolveReporting_of_error failed
    dsimp only
    rw [Activity.bind_run, done]
    exact ⟨_, _, rfl, reported errors edited⟩
  | graph aggregated resolved failed =>
    rw [aggregated] at edited ⊢
    obtain ⟨errors, done⟩ := resolveReporting_of_ok resolved
    dsimp only
    rw [Activity.bind_run, done]
    dsimp only [announce]
    rw [Activity.bind_run, Activity.report_run]
    dsimp only
    rw [Activity.bind_run, Activity.mapFault]
    obtain ⟨more, done⟩ := write_of_generate_eq_error failed
    rw [done]
    exact ⟨_, _, rfl, reported more ((reported errors edited).trans (Host.edited_report _ _ _))⟩

/-- A plan and an invalid workspace change no files, and what fails before there is a build
description to write changes none but umbrella sources.  So the build description and the
compilation database stay what they were, or absent, unless an umbrella source is one of them. -/
theorem generate_frame (ws : Workspace) (toolchain : Toolchain) (options : GenerationOptions)
    (h : Host) :
    (options.planOnly = true → (ws.generate toolchain options h).2.tree = h.tree) ∧
      (∀ fault, ws.validate toolchain.platform = .error fault →
        ws.generate toolchain options h = (.error (.of (.model fault)), h)) ∧
      (options.planOnly = false → ws.FailsEarly toolchain options h →
        ∃ failure after, ws.generate toolchain options h = (.error failure, after) ∧
          h.EditedAt after (ws.umbrellaFiles (ws.enabled toolchain.platform)) ∧
          ∀ p ∈ [ws.ninjaFile toolchain.platform options.configuration, ws.compileCommandsFile],
            (∀ q ∈ ws.umbrellaFiles (ws.enabled toolchain.platform),
              h.namedLocation q ≠ h.namedLocation p) →
            after.fileAt? (h.namedLocation p) = h.fileAt? (h.namedLocation p)) := by
  refine ⟨fun planOnly => ?_, fun fault => generate_of_validate_eq_error, fun writes fails => ?_⟩
  · cases checked : ws.validate toolchain.platform with
    | error fault => rw [generate_of_validate_eq_error checked]
    | ok done =>
      obtain ⟨errors, done⟩ := ws.observes_plan toolchain options h
      rw [generate_of_validate_eq_ok checked, if_pos planOnly, done]
  · suffices ∃ failure after, ws.generate toolchain options h = (.error failure, after) ∧
        h.EditedAt after (ws.umbrellaFiles (ws.enabled toolchain.platform)) by
      obtain ⟨failure, after, failed, edited⟩ := this
      refine ⟨failure, after, failed, edited, fun p hp apart => edited.fileAt?_eq ?_⟩
      rintro ⟨q, hq, same⟩
      exact apart q hq same.symm
    cases checked : ws.validate toolchain.platform with
    | error fault => exact ⟨_, h, generate_of_validate_eq_error checked, .refl h⟩
    | ok done =>
      rw [generate_of_validate_eq_ok checked, if_neg (by simp [writes])]
      exact generateFiles_of_failsEarly fails

/-- The icon of a program is in the way of a build description, so the old one stays; a plan and a
library that comes too late change nothing. -/
theorem generate_frame_iconWorkspace :
    let options : GenerationOptions := ⟨.debug, true, false⟩
    let old : File := ⟨.text "old", 1, false⟩
    let h : Host := { (default : Host) with
      tree := .directory [("w", .directory [("build-gcc-debug.ninja", .file old)])] }
    let late : Workspace := { iconWorkspace with
      manifest := { projects := iconWorkspace.manifest.projects.reverse } }
    (∃ failure after, iconWorkspace.generate (.gcc {}) options h = (.error failure, after) ∧
      after.fileAt? ["w", "build-gcc-debug.ninja"] = some old ∧
      after.fileAt? ["w", "compile_commands.json"] = none) ∧
    (iconWorkspace.generate (.gcc {}) { options with planOnly := true } h).2.tree = h.tree ∧
    ∃ failure, late.generate (.gcc {}) options h = (.error failure, h) := by
  intro options old h late
  refine ⟨?_, (generate_frame iconWorkspace (.gcc {}) _ h).1 rfl, ?_⟩
  · obtain ⟨outputs, aggregated⟩ := exists_eq_ok (x := (iconWorkspace.aggregateTests .gcc h).1)
      (by decide +kernel)
    obtain ⟨projects, resolved⟩ := exists_eq_ok
      (x := iconWorkspace.resolve (iconWorkspace.aggregateTests .gcc h).2 .gcc .debug)
      (by decide +kernel)
    have nothing : (iconWorkspace.resolve (iconWorkspace.aggregateTests .gcc h).2 .gcc .debug >>=
        BuildGraph.generate (.gcc {}) .debug).toOption.isNone := by decide +kernel
    rw [resolved] at nothing
    obtain ⟨fault, failed⟩ := exists_eq_error nothing
    obtain ⟨failure, after, made, -, kept⟩ :=
      (generate_frame iconWorkspace (.gcc {}) options h).2.2 rfl
        (.graph (Prod.ext aggregated rfl) resolved failed)
    have apart : ∀ q ∈ iconWorkspace.umbrellaFiles (iconWorkspace.enabled .gcc),
        h.namedLocation q ∉ [["w", "build-gcc-debug.ninja"], ["w", "compile_commands.json"]] := by
      decide +kernel
    have places : h.namedLocation (iconWorkspace.ninjaFile .gcc .debug) =
          ["w", "build-gcc-debug.ninja"] ∧
        h.namedLocation iconWorkspace.compileCommandsFile = ["w", "compile_commands.json"] := by
      decide +kernel
    have held : h.fileAt? ["w", "build-gcc-debug.ninja"] = some old ∧
        h.fileAt? ["w", "compile_commands.json"] = none := by decide +kernel
    have description := kept _ List.mem_cons_self
    have database := kept _ (List.mem_cons_of_mem _ List.mem_cons_self)
    dsimp only [Toolchain.platform, options] at description database
    rw [places.1, held.1] at description
    rw [places.2, held.2] at database
    refine ⟨failure, after, made, description fun q hq same => apart q hq ?_,
      database fun q hq same => apart q hq ?_⟩ <;> simp [same]
  · obtain ⟨fault, invalid⟩ := exists_eq_error (x := late.validate .gcc) (by decide +kernel)
    exact ⟨_, (generate_frame late (.gcc {}) options h).2.1 fault invalid⟩

end BuildPlanner.Workspace
