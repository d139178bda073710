import BuildPlanner.Proofs.Runs

/-!
# Paths that are seen from another directory

A build is started at the root of the workspace, and its command names two files: the program, which
has been looked for from where the run was started, and the build description, which has been
written from there.  Both paths are handed on as they are, and what is started sees them from the
root.  `Ninja.command_names_iff` says when they still name what was looked for and what was written;
on the host of `Ninja.strays_namesakeHost` another program is run than the one that was found.

* `Route` is what a relative path does to the place where it starts: it leads so many directories
  up, and from there down by names (`Host.namedLocation_eq_goal`).
* Seen from two places it leads to one place exactly if it comes out of both at one directory
  (`Route.goal_eq_iff`), and taken twice it leads nowhere else exactly if it goes down as far as up,
  the top of the tree apart (`Route.goal_goal_iff`).
-/

namespace BuildPlanner

/-! ## Routes -/

/-- Where a relative path leads, as it is seen from where it starts. -/
structure Route where
  /-- The number of directories that it leads up at first. -/
  up : Nat
  /-- The names by which it leads down from there. -/
  down : Location
deriving DecidableEq, Repr

namespace Route

/-- The route that goes on by one component. -/
def step (r : Route) : Component → Route
  | .name name => { r with down := r.down ++ [name] }
  | .up => if r.down = [] then { r with up := r.up + 1 } else { r with down := r.down.dropLast }
  | _ => r

/-- Where a route ends that starts at a location. -/
def goal (r : Route) (start : Location) : Location :=
  start.rdrop r.up ++ r.down

variable {r : Route} {start other : Location}

theorem goal_step (r : Route) (c : Component) (start : Location) :
    (r.step c).goal start = Host.namedLocation.step (r.goal start) c := by
  cases c with
  | name name => exact (List.append_assoc _ _ _).symm
  | up =>
    rw [step, Host.namedLocation.step, goal]
    split
    · next level =>
      rw [goal, level, List.append_nil, List.append_nil, List.rdrop_eq_reverse_drop_reverse,
        List.rdrop_eq_reverse_drop_reverse, List.dropLast_reverse, List.tail_drop]
    · next nonempty => exact (List.dropLast_append_of_ne_nil nonempty).symm
  | root => rfl
  | here => rfl

/-- A route leads to one place from two starts exactly if it leads up to one directory from both. -/
theorem goal_eq_iff : r.goal start = r.goal other ↔ start.rdrop r.up = other.rdrop r.up := by
  rw [goal, goal, List.append_cancel_right_eq]

/-- A route that is taken twice leads nowhere else exactly if it leads down as far as up, or if it
leads to the top of the tree and no further down than up. -/
theorem goal_goal_iff :
    r.goal (r.goal start) = r.goal start ↔
      r.down.length = r.up ∨ start.length ≤ r.up ∧ r.down.length ≤ r.up := by
  rw [goal_eq_iff, goal]
  constructor
  · intro same
    -- What is left of both starts is equally long, and the lengths leave no other case.
    have length := congrArg List.length same
    simp only [List.rdrop, List.length_take, List.length_append] at length
    omega
  · rintro (level | ⟨above, short⟩)
    · rw [← level, List.rdrop, List.length_append, Nat.add_sub_cancel, List.take_left]
    · have top : start.rdrop r.up = [] := by simp [List.rdrop, Nat.sub_eq_zero_of_le above]
      rw [top, List.nil_append, List.rdrop, Nat.sub_eq_zero_of_le short, List.take_zero]

end Route

/-- The route of a path. -/
def Path.route (p : Path) : Route :=
  p.components.foldl Route.step ⟨0, []⟩

/-! ## Hosts that are seen from a directory -/

namespace Host

variable {h : Host} {p q : Path}

/-- A path leads where its route ends. -/
theorem namedLocation_eq_goal (h : Host) (p : Path) :
    h.namedLocation p = p.route.goal (h.origin p) := by
  rw [namedLocation, Path.route]
  induction p.components using List.reverseRecOn with
  | nil => simp [Route.goal]
  | append_singleton components last ih =>
    rw [List.foldl_concat, List.foldl_concat, Route.goal_step, ih]

/-- The host as it is seen from the place that a path names. -/
def within (h : Host) (p : Path) : Host :=
  { h with workingDirectory := h.namedLocation p }

/-- What is started in a directory sees the host from there. -/
theorem eq_within_of_inDirectory {inner : Host} (entered : h.inDirectory (some p) = .ok inner) :
    inner = h.within p := by
  rw [inDirectory] at entered
  split at entered
  · cases entered
  · cases entered
  · cases entered
  · next location found =>
    obtain ⟨-, same⟩ := spot_eq_ok_iff.1 found
    obtain rfl : location = h.namedLocation p := (Spot.mk.inj same).1
    exact (Except.ok.inj entered).symm

theorem origin_within_of_isAbsolute (absolute : q.isAbsolute = true) :
    (h.within p).origin q = h.origin q := by
  rw [origin, origin, if_pos absolute, if_pos absolute]

theorem origin_of_not_isAbsolute (relative : ¬ q.isAbsolute = true) :
    h.origin q = h.workingDirectory :=
  if_neg relative

/-- Seen from another directory a path names the same place exactly if it is absolute or leads up to
one directory from both. -/
theorem namedLocation_within_eq_iff :
    (h.within p).namedLocation q = h.namedLocation q ↔
      q.isAbsolute = true ∨
        h.workingDirectory.rdrop q.route.up = (h.namedLocation p).rdrop q.route.up := by
  rw [namedLocation_eq_goal, namedLocation_eq_goal h q]
  by_cases absolute : q.isAbsolute = true
  · simp [origin_within_of_isAbsolute absolute, absolute]
  · rw [origin_of_not_isAbsolute absolute, origin_of_not_isAbsolute absolute, Route.goal_eq_iff,
      or_iff_right absolute, eq_comm]
    rfl

/-- An entry of a directory, seen from the directory itself, is the same exactly if the path of the
directory is absolute or leads nowhere else when it is taken twice. -/
theorem namedLocation_within_entry_iff {name : String} (hname : IsEntryName name) :
    (h.within p).namedLocation (p.entry name) = h.namedLocation (p.entry name) ↔
      p.isAbsolute = true ∨ p.route.down.length = p.route.up ∨
        h.workingDirectory.length ≤ p.route.up ∧ p.route.down.length ≤ p.route.up := by
  rw [namedLocation_entry _ _ hname, namedLocation_entry _ _ hname, List.append_cancel_right_eq,
    namedLocation_eq_goal, namedLocation_eq_goal h p]
  by_cases absolute : p.isAbsolute = true
  · simp [origin_within_of_isAbsolute absolute, absolute]
  · rw [origin_of_not_isAbsolute absolute, origin_of_not_isAbsolute absolute,
      or_iff_right absolute, ← Route.goal_goal_iff, within, namedLocation_eq_goal,
      origin_of_not_isAbsolute absolute]

/-! ## Commands that are run -/

/-- What runs at a path is an executable file. -/
theorem exists_file_of_runAt {arguments : List String} {ended : Shell.Ending × Host}
    (ran : h.runAt p arguments = .ok ended) :
    ∃ file, file.executable = true ∧ h.tree.node? (h.namedLocation p) = some (.file file) := by
  obtain ⟨words, launched, -⟩ := map_eq_ok.1 ran
  rw [maxInterpreters, launch] at launched
  split at launched
  · cases launched
  · cases launched
  · cases launched
  · next location file found =>
    obtain ⟨-, same⟩ := spot_eq_ok_iff.1 found
    obtain ⟨rfl, stands⟩ := Spot.mk.inj same
    split at launched
    · cases launched
    · next executable => exact ⟨file, by simpa using executable, stands.symm⟩

/-- A command that names its program by more than a name runs what the path leads to from its
directory. -/
theorem exists_file_of_run {c : Command} {ended : Shell.Ending × Host}
    (directory : c.directory = some p) (slash : '/' ∈ c.program.text.toList)
    (ran : h.run c = .ok ended) :
    h.inDirectory c.directory = .ok (h.within p) ∧ ∃ file, file.executable = true ∧
      h.tree.node? ((h.within p).namedLocation c.program) = some (.file file) := by
  rw [run] at ran
  split at ran
  · cases ran
  · obtain ⟨inner, entered, ran⟩ := bind_eq_ok.1 ran
    dsimp only at ran
    split at ran
    · cases ran
    · rw [if_pos (by simpa using slash)] at ran
      obtain ⟨_, launched, -⟩ := bind_eq_ok.1 ran
      rw [directory] at entered ⊢
      obtain rfl := eq_within_of_inDirectory entered
      exact ⟨entered, exists_file_of_runAt launched⟩

end Host

/-! ## The command of a build -/

/-- A path of several components is written with a slash. -/
theorem Path.slash_mem_of_several {p : Path} (several : 1 < p.components.length) :
    '/' ∈ p.text.toList := by
  by_contra slash
  have single : p.pieces = [p.text.toList] := List.splitOn_eq_singleton slash
  rw [components, single, componentsOfPieces, List.filterMap_nil, List.append_nil] at several
  unfold leading at several
  split at several
  · exact absurd several (by decide)
  · exact absurd several (by decide)
  · exact absurd several (Nat.not_lt.2 Option.length_toList_le)

namespace Ninja

variable {h left : Host} {configured program : Path} {generated : Generated}

/-- A configured path of several components is taken as it is, if it leads to a file. -/
theorem locate_eq_ok_iff (several : 1 < configured.components.length) :
    locate h (some configured) = .ok program ↔
      program = configured ∧ h.isFile configured = true := by
  rw [locate, Option.getD_some, if_pos several]
  by_cases file : h.isFile configured = true <;> simp [file, eq_comm]

/-- The command that builds what has been generated names the program as it is configured and the
description as it was written, and is started at the root.  It runs what the program leads to from
there.  That is what has been looked for exactly if the program is absolute or leads up to one
directory from both places, and the description leads to what has been written exactly if the root
is absolute or leads nowhere else when it is taken twice. -/
theorem command_names_iff (ws : Workspace) (toolchain : Toolchain) (options : PipelineOptions)
    (made : ws.generate toolchain (Workspace.generationOptions options) h = (.ok generated, left))
    (several : 1 < configured.components.length)
    (located : locate left (some configured) = .ok program) :
    let description := ws.ninjaFile toolchain.platform options.configuration
    let command := command program (ws.buildRequest toolchain options generated)
    let child := left.within ws.root
    command.program = configured ∧ command.directory = some ws.root ∧
      ["-f", description.text] <+: command.arguments ∧
      (∃ file, left.tree.node? (left.namedLocation configured) = some (.file file)) ∧
      left.read description = .ok generated.graph.render ∧
      (∀ ended, left.run command = .ok ended →
        left.inDirectory command.directory = .ok child ∧
          ∃ file, file.executable = true ∧
            left.tree.node? (child.namedLocation configured) = some (.file file)) ∧
      (child.namedLocation configured = left.namedLocation configured ↔
        configured.isAbsolute = true ∨
          left.workingDirectory.rdrop configured.route.up =
            child.workingDirectory.rdrop configured.route.up) ∧
      (child.namedLocation description = left.namedLocation description ↔
        ws.root.isAbsolute = true ∨ ws.root.route.down.length = ws.root.route.up ∨
          left.workingDirectory.length ≤ ws.root.route.up ∧
            ws.root.route.down.length ≤ ws.root.route.up) := by
  intro description command child
  obtain ⟨rfl, file⟩ := (locate_eq_ok_iff several).1 located
  obtain ⟨named, -, held⟩ :=
    Workspace.generateFiles_eq_ok (Workspace.generateFiles_of_generate rfl made)
  have requested : (ws.buildRequest toolchain options generated).buildFile = description :=
    Workspace.describedBy_eq named
  refine ⟨rfl, rfl, ?_, (Host.isFile_iff.1 file).2, held, fun ended ran => ?_,
    Host.namedLocation_within_eq_iff, ?_⟩
  · rw [← requested]
    exact List.prefix_append _ _
  · exact Host.exists_file_of_run rfl (Path.slash_mem_of_several several) ran
  · exact Host.namedLocation_within_entry_iff (isEntryName_ninjaFile _ _)

/-- A host with one program at the place of its start and one of the same name in `ws`. -/
def namesakeHost : Host :=
  { (default : Host) with
    tree := .directory [("bin", .directory [("sh", .file ⟨.text "", 0, true⟩)]),
      ("tools", .directory [("ninja", .file ⟨.text "#!/bin/sh\nexit 0\n", 0, true⟩)]),
      ("ws", .directory [("tools", .directory
        [("ninja", .file ⟨.text "#!/bin/sh\nexit 3\n", 0, true⟩)])])]
    searchPath := [⟨"/bin"⟩] }

/-- A workspace without projects. -/
def bareWorkspace (root : Path) : Workspace :=
  { root, manifestPath := root.entry "Shipwright.toml", manifest := { projects := [] } }

/-- A debug build. -/
def debugOptions : PipelineOptions := ⟨.debug, false, true, false, none⟩

/-- The host after the workspace has been generated on it. -/
def namesakeHostAfter (root : Path) : Host :=
  ((bareWorkspace root).generate (.gcc {}) (Workspace.generationOptions debugOptions)
    namesakeHost).2

/-- Absolute paths name the same from the root, and the program that has been checked is run. -/
theorem command_names_iff_namesakeHost :
    let left := namesakeHostAfter ⟨"/ws"⟩
    let child := left.within ⟨"/ws"⟩
    (locate left (some ⟨"/tools/ninja"⟩) = .ok ⟨"/tools/ninja"⟩ ∧
      child.namedLocation ⟨"/tools/ninja"⟩ = left.namedLocation ⟨"/tools/ninja"⟩ ∧
      child.namedLocation ⟨"/ws/build-gcc-debug.ninja"⟩ =
        left.namedLocation ⟨"/ws/build-gcc-debug.ninja"⟩) ∧
    ∃ ended file,
      left.run ⟨⟨"/tools/ninja"⟩, ["-f", "/ws/build-gcc-debug.ninja"], some ⟨"/ws"⟩⟩ = .ok ended ∧
        file.executable = true ∧ left.tree.node? ["tools", "ninja"] = some (.file file) := by
  intro left child
  have absolute : Path.isAbsolute ⟨"/tools/ninja"⟩ = true ∧ Path.isAbsolute ⟨"/ws"⟩ = true := by
    decide
  have place : left.namedLocation ⟨"/tools/ninja"⟩ = ["tools", "ninja"] := by decide +kernel
  have located : locate left (some ⟨"/tools/ninja"⟩) = .ok ⟨"/tools/ninja"⟩ :=
    (locate_eq_ok_iff (by decide)).2 ⟨rfl, by decide +kernel⟩
  obtain ⟨generated, made⟩ := exists_eq_ok
    (x := ((bareWorkspace ⟨"/ws"⟩).generate (.gcc {}) (Workspace.generationOptions debugOptions)
      namesakeHost).1) (by decide +kernel)
  replace made : (bareWorkspace ⟨"/ws"⟩).generate (.gcc {})
      (Workspace.generationOptions debugOptions) namesakeHost = (.ok generated, left) :=
    Prod.ext made rfl
  have described : (bareWorkspace ⟨"/ws"⟩).ninjaFile (Toolchain.gcc {}).platform
      debugOptions.configuration = ⟨"/ws/build-gcc-debug.ninja"⟩ := by decide +kernel
  have asked : (bareWorkspace ⟨"/ws"⟩).buildRequest (.gcc {}) debugOptions generated =
      ⟨⟨"/ws"⟩, ⟨"/ws/build-gcc-debug.ninja"⟩, none⟩ := by
    rw [Workspace.buildRequest, Workspace.describedBy_eq (Workspace.generateFiles_eq_ok
      (Workspace.generateFiles_of_generate rfl made)).1, ← described]
    rfl
  obtain ⟨-, -, -, -, -, runs, program, description⟩ :=
    command_names_iff (bareWorkspace ⟨"/ws"⟩) (.gcc {}) debugOptions made (by decide) located
  rw [described] at description
  rw [asked] at runs
  obtain ⟨ended, ran⟩ := exists_eq_ok (x := left.run (command ⟨"/tools/ninja"⟩
    ⟨⟨"/ws"⟩, ⟨"/ws/build-gcc-debug.ninja"⟩, none⟩)) (by decide +kernel)
  obtain ⟨-, file, executable, stands⟩ := runs ended ran
  have same := program.2 (.inl absolute.1)
  rw [same, place] at stands
  exact ⟨⟨located, same, description.2 (.inl absolute.2)⟩, ended, file, ran, executable, stands⟩

/-- A relative program is looked for from where the run was started and then run from the root,
where it is another one, and the path of the description leads elsewhere from there as well. -/
theorem strays_namesakeHost :
    let left := namesakeHostAfter ⟨"ws"⟩
    let child := left.within ⟨"ws"⟩
    let description := (bareWorkspace ⟨"ws"⟩).ninjaFile .gcc .debug
    locate left (some ⟨"tools/ninja"⟩) = .ok ⟨"tools/ninja"⟩ ∧
      (left.namedLocation ⟨"tools/ninja"⟩ = ["tools", "ninja"] ∧
        child.namedLocation ⟨"tools/ninja"⟩ = ["ws", "tools", "ninja"]) ∧
      (left.namedLocation description = ["ws", "build-gcc-debug.ninja"] ∧
        child.namedLocation description = ["ws", "ws", "build-gcc-debug.ninja"]) ∧
      ((bareWorkspace ⟨"ws"⟩).run (.gcc {}) debugOptions (executor (some ⟨"tools/ninja"⟩))
        Robocopy.hook namesakeHost).1.result = .error (.build 3) :=
  ⟨(locate_eq_ok_iff (by decide)).2 ⟨rfl, by decide +kernel⟩, by decide +kernel, by decide +kernel,
    by decide +kernel⟩

end Ninja

end BuildPlanner
