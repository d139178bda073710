import BuildPlanner.Proofs.Edits
import BuildPlanner.Workspace

/-!
# Umbrella sources on disk

The umbrella sources of projects are written one after the other, each from what is found when its
turn has come.  No other files are written (`Workspace.edits_aggregateAll`), so an umbrella source
lists all of these files at the end (`Workspace.includes_of_aggregateTests`), unless a later project
has its own in the same place: then the tests of the earlier project are in no umbrella source at all
(`Workspace.not_includes_sharingHost`).
-/

namespace BuildPlanner

/-! ## Includes -/

namespace Umbrella

/-- A text with the line that includes a file below a root. -/
def Includes (text : String) (root file : Path) : Prop :=
  (includeLine (Path.relativeTo root file).toSlash).toList <:+: text.toList

instance (text : String) (root file : Path) : Decidable (Includes text root file) :=
  inferInstanceAs (Decidable ((includeLine _).toList <:+: text.toList))

theorem mem_dropRepeatedTexts {text : String} {texts : List String} :
    text ∈ dropRepeatedTexts texts ↔ text ∈ texts := by
  fun_induction dropRepeatedTexts texts with
  | case1 a rest ih => simp [ih]
  | case2 a b rest _ ih => simp [ih]
  | case3 => rfl

theorem mem_includes {root output file : Path} {found : List Path} (hfile : file ∈ found)
    (other : file.same output = false) :
    (Path.relativeTo root file).toSlash ∈ includes root output found := by
  unfold includes
  rw [mem_dropRepeatedTexts, List.mem_mergeSort]
  exact List.mem_map_of_mem (List.mem_filter.2 ⟨hfile, by simp [other]⟩)

/-- An umbrella source includes all files but itself. -/
theorem includes_source {root output file : Path} {found : List Path} (hfile : file ∈ found)
    (other : file.same output = false) : Includes (source root output found) root file := by
  unfold Includes source render
  rw [String.toList_append, String.toList_join]
  refine List.IsInfix.trans (List.infix_of_mem_flatten ?_) (List.suffix_append _ _).isInfix
  exact List.mem_map_of_mem (List.mem_map_of_mem (mem_includes hfile other))

/-! ## Writing -/

theorem edits_write (root : Path) (pattern : String) (output : Path) :
    (write root pattern output).Edits [output] := by
  refine .bind (.mapFault _ (.ofView _)) fun found => ?_
  exact .bind (.mapFault _ (Files.edits_write _ _)) fun _ => .report _ _

/-- An umbrella source is written for what is found. -/
theorem write_eq_ok {root output : Path} {pattern : String} {h after : Host}
    (h₁ : write root pattern output h = (.ok (), after)) :
    ∃ found middle note, Glob.files h root [pattern] = .ok found ∧
      Files.write output (source root output found) h = (.ok (), middle) ∧
      after = middle.report .info note := by
  obtain ⟨found, start, searched, rest⟩ := Activity.bind_eq_ok.1 h₁
  obtain ⟨searched, rfl⟩ := Activity.ofView_eq_ok.1 (Activity.mapFault_eq_ok.1 searched)
  obtain ⟨_, middle, written, ⟨⟩⟩ := Activity.bind_eq_ok.1 rest
  exact ⟨found, middle, _, mapError_eq_ok.1 searched, Activity.mapFault_eq_ok.1 written, rfl⟩

theorem read_of_write {root output : Path} {pattern : String} {h after : Host} {found : List Path}
    (searched : Glob.files h root [pattern] = .ok found)
    (h₁ : write root pattern output h = (.ok (), after)) :
    after.read output = .ok (source root output found) := by
  obtain ⟨same, middle, note, searched', written, rfl⟩ := write_eq_ok h₁
  obtain rfl := Except.ok.inj (searched.symm.trans searched')
  rw [Host.read_report]
  exact Files.read_of_write written

end Umbrella

namespace Workspace

variable (ws : Workspace)

/-- The umbrella sources of projects. -/
def umbrellaFiles (projects : List ProjectDefinition) : List Path :=
  projects.filterMap fun d =>
    d.testAggregate.map fun tests => ws.root.join (ws.umbrellaPath d tests)

theorem umbrellaFiles_cons_of_none {d : ProjectDefinition} (rest : List ProjectDefinition)
    (has : d.testAggregate = none) : ws.umbrellaFiles (d :: rest) = ws.umbrellaFiles rest :=
  List.filterMap_cons_none (by rw [has]; rfl)

theorem umbrellaFiles_cons_of_some {d : ProjectDefinition} {tests : TestAggregate}
    (rest : List ProjectDefinition) (has : d.testAggregate = some tests) :
    ws.umbrellaFiles (d :: rest) =
      ws.root.join (ws.umbrellaPath d tests) :: ws.umbrellaFiles rest :=
  List.filterMap_cons_some (by rw [has]; rfl)

theorem edits_aggregate (d : ProjectDefinition) (tests : TestAggregate) :
    (ws.aggregate d tests).Edits [ws.root.join (ws.umbrellaPath d tests)] :=
  .bind (.mapFault _ (Umbrella.edits_write _ _ _)) fun _ => .pure _

/-- No files but umbrella sources are written. -/
theorem edits_aggregateAll (projects : List ProjectDefinition) :
    (ws.aggregateAll projects).Edits (ws.umbrellaFiles projects) := by
  induction projects with
  | nil => exact .pure []
  | cons d rest ih =>
    rw [aggregateAll]
    cases has : d.testAggregate with
    | none =>
      rw [ws.umbrellaFiles_cons_of_none rest has]
      exact ih
    | some tests =>
      rw [ws.umbrellaFiles_cons_of_some rest has]
      refine .bind ((ws.edits_aggregate d tests).subset ?_)
        fun _ => .bind (ih.subset ?_) fun _ => .pure _
      · exact List.cons_subset_cons _ (List.nil_subset _)
      · exact List.subset_cons_self _ _

variable {ws} {h after : Host} {before later : List ProjectDefinition} {d : ProjectDefinition}
  {tests : TestAggregate} {outputs : List Path}

theorem aggregateAll_cons_of_none (has : d.testAggregate = none) :
    ws.aggregateAll (d :: later) = ws.aggregateAll later := by
  rw [aggregateAll, has]

theorem aggregateAll_cons_eq_ok (has : d.testAggregate = some tests) :
    ws.aggregateAll (d :: later) h = (.ok outputs, after) ↔
      ∃ middle others,
        Umbrella.write (ws.testRoot tests) tests.pattern (ws.root.join (ws.umbrellaPath d tests)) h =
          (.ok (), middle) ∧
        ws.aggregateAll later middle = (.ok others, after) ∧
        ws.umbrellaPath d tests :: others = outputs := by
  rw [aggregateAll, has]
  constructor
  · intro done
    obtain ⟨output, middle, one, rest⟩ := Activity.bind_eq_ok.1 done
    obtain ⟨others, _, all, ⟨⟩⟩ := Activity.bind_eq_ok.1 rest
    obtain ⟨_, _, written, ⟨⟩⟩ := Activity.bind_eq_ok.1 one
    exact ⟨middle, others, Activity.mapFault_eq_ok.1 written, all, rfl⟩
  · rintro ⟨middle, others, written, done, rfl⟩
    have one : ws.aggregate d tests h = (.ok (ws.umbrellaPath d tests), middle) :=
      Activity.bind_eq_ok.2 ⟨(), middle, Activity.mapFault_eq_ok.2 written, rfl⟩
    exact Activity.bind_eq_ok.2 ⟨_, middle, one, Activity.bind_eq_ok.2 ⟨others, after, done, rfl⟩⟩

theorem aggregateAll_append (done : ws.aggregateAll (before ++ later) h = (.ok outputs, after)) :
    ∃ first middle rest, ws.aggregateAll before h = (.ok first, middle) ∧
      ws.aggregateAll later middle = (.ok rest, after) := by
  induction before generalizing h outputs with
  | nil => exact ⟨[], h, outputs, rfl, done⟩
  | cons d before ih =>
    rw [List.cons_append] at done
    cases has : d.testAggregate with
    | none =>
      rw [aggregateAll_cons_of_none has] at done ⊢
      exact ih done
    | some tests =>
      obtain ⟨k, others, written, done, -⟩ := (aggregateAll_cons_eq_ok has).1 done
      obtain ⟨first, middle, rest, done, left⟩ := ih done
      exact ⟨_, middle, rest, (aggregateAll_cons_eq_ok has).2 ⟨k, first, written, done, rfl⟩, left⟩

/-- The umbrella source of a project is what was written for it, unless a later project has its own
in the same place. -/
theorem read_of_aggregateAll (has : d.testAggregate = some tests)
    (done : ws.aggregateAll (d :: later) h = (.ok outputs, after))
    (alone : ∀ p ∈ ws.umbrellaFiles later,
      h.namedLocation p ≠ h.namedLocation (ws.root.join (ws.umbrellaPath d tests))) :
    ∃ found, Glob.files h (ws.testRoot tests) [tests.pattern] = .ok found ∧
      after.read (ws.root.join (ws.umbrellaPath d tests)) =
        .ok (Umbrella.source (ws.testRoot tests) (ws.root.join (ws.umbrellaPath d tests)) found) := by
  obtain ⟨k, others, one, done, -⟩ := (aggregateAll_cons_eq_ok has).1 done
  have first := Umbrella.edits_write (ws.testRoot tests) tests.pattern
    (ws.root.join (ws.umbrellaPath d tests)) h
  have rest := ws.edits_aggregateAll later k
  rw [one] at first
  rw [done] at rest
  obtain ⟨found, -, -, searched, -⟩ := Umbrella.write_eq_ok one
  refine ⟨found, searched, rest.read ?_ (Umbrella.read_of_write searched one)⟩
  rintro ⟨p, hp, same⟩
  rw [first.namedLocation_eq, first.namedLocation_eq] at same
  exact alone p hp same.symm

/-- After all umbrella sources are written, that of a project includes all files that were found for
it, but itself, unless a later project has its own in the same place. -/
theorem includes_of_aggregateTests {platform : Platform}
    (done : ws.aggregateTests platform h = (.ok outputs, after))
    (split : ws.enabled platform = before ++ d :: later) (has : d.testAggregate = some tests)
    (alone : ∀ p ∈ ws.umbrellaFiles later,
      h.namedLocation p ≠ h.namedLocation (ws.root.join (ws.umbrellaPath d tests))) :
    ∃ first middle found text, ws.aggregateAll before h = (.ok first, middle) ∧
      Glob.files middle (ws.testRoot tests) [tests.pattern] = .ok found ∧
      after.read (ws.root.join (ws.umbrellaPath d tests)) = .ok text ∧
      ∀ file ∈ found, file.same (ws.root.join (ws.umbrellaPath d tests)) = false →
        Umbrella.Includes text (ws.testRoot tests) file := by
  rw [aggregateTests, split] at done
  obtain ⟨first, middle, rest, earlier, done⟩ := aggregateAll_append done
  have edited := ws.edits_aggregateAll before h
  rw [earlier] at edited
  obtain ⟨found, searched, held⟩ := read_of_aggregateAll has done (by
    simpa only [edited.namedLocation_eq] using alone)
  exact ⟨first, middle, found, _, earlier, searched, held,
    fun file hfile other => Umbrella.includes_source hfile other⟩

/-- A program of a source directory that it shares with another, and with tests of its own. -/
def sharingProgram (name tests : String) : ProjectDefinition :=
  { name, kind := .executable, path := some ⟨"game"⟩
    testAggregate := some ⟨⟨tests⟩, "*.test.cpp", TestAggregate.defaultOutput⟩ }

/-- Two programs with one source directory. -/
def sharingWorkspace : Workspace :=
  { root := ⟨""⟩, manifestPath := ⟨"shipwright.toml"⟩
    manifest :=
      { projects := [sharingProgram "client" "clientTests", sharingProgram "server" "serverTests"] } }

/-- A test for each of the programs. -/
def sharingHost : Host :=
  { (default : Host) with
    tree := .directory [("Code", .directory
      [("clientTests", .directory [("draw.test.cpp", .file default)]),
      ("serverTests", .directory [("save.test.cpp", .file default)])])] }

theorem aggregateTests_sharingHost :
    sharingWorkspace.aggregateTests .gcc sharingHost =
      (.ok [⟨"Code/game/test.cpp"⟩, ⟨"Code/game/test.cpp"⟩],
        (sharingWorkspace.aggregateTests .gcc sharingHost).2) :=
  Prod.ext (by decide +kernel) rfl

/-- The test of the second program is in the umbrella source. -/
theorem includes_sharingHost :
    ∃ outputs after text,
      sharingWorkspace.aggregateTests .gcc sharingHost = (.ok outputs, after) ∧
      after.read ⟨"Code/game/test.cpp"⟩ = .ok text ∧
      Umbrella.Includes text ⟨"Code/serverTests"⟩ ⟨"Code/serverTests/save.test.cpp"⟩ := by
  have split : sharingWorkspace.enabled .gcc =
      [sharingProgram "client" "clientTests"] ++ sharingProgram "server" "serverTests" :: [] := by
    decide +kernel
  obtain ⟨first, middle, found, text, earlier, searched, held, included⟩ :=
    includes_of_aggregateTests aggregateTests_sharingHost split rfl nofun
  have files : Glob.files
      (sharingWorkspace.aggregateAll [sharingProgram "client" "clientTests"] sharingHost).2
      ⟨"Code/serverTests"⟩ ["*.test.cpp"] = .ok [⟨"Code/serverTests/save.test.cpp"⟩] := by
    decide +kernel
  have root : sharingWorkspace.testRoot ⟨⟨"serverTests"⟩, "*.test.cpp", TestAggregate.defaultOutput⟩ =
      ⟨"Code/serverTests"⟩ := by decide +kernel
  have output : sharingWorkspace.root.join (sharingWorkspace.umbrellaPath
      (sharingProgram "server" "serverTests")
      ⟨⟨"serverTests"⟩, "*.test.cpp", TestAggregate.defaultOutput⟩) = ⟨"Code/game/test.cpp"⟩ := by
    decide +kernel
  rw [earlier] at files
  rw [root, files] at searched
  obtain rfl := Except.ok.inj searched
  rw [root, output] at included
  rw [output] at held
  exact ⟨_, _, text, aggregateTests_sharingHost, held,
    included _ List.mem_cons_self (by decide +kernel)⟩

/-- The test of the first program is in no umbrella source. -/
theorem not_includes_sharingHost :
    sharingWorkspace.validate .gcc = .ok () ∧
      sharingWorkspace.enabled .gcc =
        [sharingProgram "client" "clientTests", sharingProgram "server" "serverTests"] ∧
      Glob.files sharingHost ⟨"Code/clientTests"⟩ ["*.test.cpp"] =
        .ok [⟨"Code/clientTests/draw.test.cpp"⟩] ∧
      ∃ outputs after text,
        sharingWorkspace.aggregateTests .gcc sharingHost = (.ok outputs, after) ∧
        after.read ⟨"Code/game/test.cpp"⟩ = .ok text ∧
        ¬ Umbrella.Includes text ⟨"Code/clientTests"⟩ ⟨"Code/clientTests/draw.test.cpp"⟩ := by
  have held : (sharingWorkspace.aggregateTests .gcc sharingHost).2.read ⟨"Code/game/test.cpp"⟩ =
      .ok "/* auto-generated by shipwright: do not edit */\n\n#include \"save.test.cpp\"\n" := by
    decide +kernel
  exact ⟨by decide +kernel, by decide +kernel, by decide +kernel, _, _, _,
    aggregateTests_sharingHost, held, by decide +kernel⟩

end Workspace

end BuildPlanner
