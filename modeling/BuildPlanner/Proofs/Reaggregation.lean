import BuildPlanner.Proofs.Regeneration

/-!
# Umbrella sources written again

An umbrella source leaves out what is spelled as it is itself, and nothing else that leads to it.
So where it is found in another spelling once it is there, it includes itself when it is written
again (`Umbrella.listsItself_untestedHost`).  Where it is not, and nothing is found by way of
directories that were made for it, it is written as it was (`Umbrella.write_again`).

* Of two searches that differ in what is new, the sources are told apart by what they include
  (`Umbrella.source_again_eq_iff`).
* From the second time on the same is found, and written, however the umbrella source is spelled
  (`Umbrella.files_of_write`).
-/

namespace BuildPlanner.Umbrella

variable {root output : Path} {found again : List Path}

/-! ## What is included -/

theorem mem_includes_iff {text : String} :
    text ∈ includes root output found ↔
      ∃ file ∈ found, file.same output = false ∧ (Path.relativeTo root file).toSlash = text := by
  unfold includes
  simp [mem_dropRepeatedTexts, and_assoc]

theorem pairwise_dropRepeatedTexts {texts : List String} (sorted : texts.Pairwise (· ≤ ·)) :
    (dropRepeatedTexts texts).Pairwise (· < ·) := by
  fun_induction dropRepeatedTexts texts with
  | case1 a rest ih => exact ih sorted.of_cons
  | case2 a b rest ne ih =>
    refine List.pairwise_cons.2 ⟨fun c hc => ?_, ih sorted.of_cons⟩
    have ascends := List.rel_of_pairwise_cons sorted List.mem_cons_self
    have later : b ≤ c := by
      obtain rfl | hc := List.mem_cons.1 (mem_dropRepeatedTexts.1 hc)
      · exact String.le_refl c
      · exact List.rel_of_pairwise_cons sorted.of_cons hc
    exact String.not_le.1 fun back => ne (String.le_antisymm ascends (String.le_trans later back))
  | case3 texts short =>
    cases texts with
    | nil => exact List.Pairwise.nil
    | cons a rest =>
      cases rest with
      | nil => exact List.pairwise_singleton _ a
      | cons b rest => exact absurd rfl (short a b rest)

theorem pairwise_includes (root output : Path) (found : List Path) :
    (includes root output found).Pairwise (· < ·) :=
  pairwise_dropRepeatedTexts (pairwise_mergeSort_le _)

/-- A source that includes more is longer. -/
theorem eq_of_render_eq {texts more : List String} (sub : texts.Sublist more)
    (same : render texts = render more) : texts = more := by
  have lengths (texts : List String) : (render texts).length =
      (headerLine ++ "\n\n").length +
        (texts.map fun text => (includeLine text).length).sum := by
    rw [render, String.length_append, String.length_join, List.map_map]
    rfl
  have longer : (texts.map fun text => (includeLine text).length).sum + more.length ≤
      (more.map fun text => (includeLine text).length).sum + texts.length := by
    clear same
    induction sub with
    | slnil => exact Nat.le_refl _
    | cons text _ ih =>
      have line : 0 < (includeLine text).length := by
        have ending : "\"\n".length = 2 := by decide
        rw [includeLine, String.length_append, ending]
        omega
      simp only [List.map_cons, List.sum_cons, List.length_cons]
      omega
    | cons_cons text _ ih =>
      simp only [List.map_cons, List.sum_cons, List.length_cons]
      omega
  have equal := lengths texts
  rw [same, lengths more] at equal
  exact sub.eq_of_length_le (by omega)

theorem source_eq_iff (more : includes root output found ⊆ includes root output again) :
    source root output again = source root output found ↔
      includes root output again ⊆ includes root output found := by
  have first := pairwise_includes root output found
  have second := pairwise_includes root output again
  constructor
  · intro same
    have sub := List.sublist_of_subperm_of_pairwise (List.subperm_of_subset first.nodup more) first
      second
    rw [eq_of_render_eq sub same.symm]
    exact List.Subset.refl _
  · intro fewer
    rw [source, source, List.Subset.antisymm_of_pairwise second first fewer more]

/-- A line is the same for all spellings of a path. -/
theorem toSlash_relativeTo_of_same {p q : Path} (same : p.same q = true) :
    (Path.relativeTo root p).toSlash = (Path.relativeTo root q).toSlash := by
  have components := Path.same_iff.1 same
  have whole : p.toSlash = q.toSlash := by rw [Path.toSlash, Path.toSlash, components]
  rw [Path.relativeTo, Path.relativeTo, Path.isAbsolute_of_same same, components]
  split
  · exact whole
  · split
    · rfl
    · exact whole

theorem mem_includes_of_same {p q : Path} (hp : p ∈ found) (same : p.same q = true)
    (other : q.same output = false) :
    (Path.relativeTo root q).toSlash ∈ includes root output found := by
  rw [← toSlash_relativeTo_of_same same]
  refine mem_includes hp ?_
  rwa [Path.same_congr same]

/-! ## What is found again -/

section Again

variable {all : List Path} {was : Path → Bool}

theorem exists_same_again {file : Path} (hfile : file ∈ Path.sort (all.filter was)) :
    ∃ again ∈ Path.sort all, again.same file = true :=
  Path.exists_same_of_mem_sort (List.mem_of_mem_filter (Path.sort_subset _ hfile))

theorem includes_subset_again :
    includes root output (Path.sort (all.filter was)) ⊆ includes root output (Path.sort all) := by
  intro text htext
  obtain ⟨file, hfile, other, rfl⟩ := mem_includes_iff.1 htext
  obtain ⟨again, hagain, same⟩ := exists_same_again hfile
  exact mem_includes_of_same hagain same other

/-- The source is the same if all that is new is left out or included already. -/
theorem source_again_eq_iff :
    source root output (Path.sort all) = source root output (Path.sort (all.filter was)) ↔
      ∀ file ∈ Path.sort all, was file = false → file.same output = false →
        (Path.relativeTo root file).toSlash ∈
          includes root output (Path.sort (all.filter was)) := by
  rw [source_eq_iff includes_subset_again]
  constructor
  · intro fewer file hfile _ other
    exact fewer (mem_includes hfile other)
  · intro included text htext
    obtain ⟨file, hfile, other, rfl⟩ := mem_includes_iff.1 htext
    cases old : was file with
    | false => exact included file hfile old other
    | true =>
      obtain ⟨first, hfirst, same⟩ := Path.exists_same_of_mem_sort
        (List.mem_filter.2 ⟨Path.sort_subset _ hfile, old⟩)
      exact mem_includes_of_same hfirst same other

/-- An umbrella source with a line for a path to itself. -/
def ListsItself (h : Host) (output : Path) (found : List Path) : Prop :=
  ∃ file ∈ found, file.same output = false ∧ h.namedLocation file = h.namedLocation output

instance (h : Host) (output : Path) (found : List Path) : Decidable (ListsItself h output found) :=
  inferInstanceAs (Decidable (∃ file ∈ found, _))

theorem ListsItself.of_filter {h : Host}
    (lists : ListsItself h output (Path.sort (all.filter was))) :
    ListsItself h output (Path.sort all) := by
  obtain ⟨file, hfile, other, place⟩ := lists
  obtain ⟨again, hagain, same⟩ := exists_same_again hfile
  refine ⟨again, hagain, ?_, ?_⟩
  · rwa [Path.same_congr same]
  · rwa [Host.namedLocation_of_same same]

end Again

/-! ## Writing again -/

variable {pattern : String} {h after : Host}

/-- Where an umbrella source is there already, the same is found once it has been written. -/
theorem files_of_write (tidy : h.tree.Tidy)
    (wrote : write root pattern output h = (.ok (), after)) (there : h.isFile output = true) :
    Glob.files after = Glob.files h := by
  obtain ⟨found, -, -, searched, -⟩ := write_eq_ok wrote
  obtain ⟨same, written, edited⟩ := exists_write searched there
  obtain rfl := (Prod.mk.inj (wrote.symm.trans written)).2
  exact Workspace.files_of_wrote edited tidy (by simpa using there)

/-- What is written for the second time is what was written, unless another spelling of the umbrella
source is found then, or something by way of a directory that was made for it.  From then on it
stays. -/
theorem write_again (tidy : h.tree.Tidy)
    (wrote : write root pattern output h = (.ok (), after)) :
    ∃ found again, Glob.files h root [pattern] = .ok found ∧
      Glob.files after root [pattern] = .ok again ∧
      after.read output = .ok (source root output found) ∧
      (∀ k : Host, k.tree = after.tree → k.workingDirectory = after.workingDirectory →
        ∃ last, write root pattern output k = (.ok (), last) ∧
          last.read output = .ok (source root output again)) ∧
      (source root output again = source root output found ↔
        ∀ file ∈ again, h.isFile file = false → file.same output = false →
          (Path.relativeTo root file).toSlash ∈ includes root output found) ∧
      (h.isFile output = true → again = found) ∧
      ((∀ file ∈ again, h.namedLocation file = h.namedLocation output → file.same output = true) →
        ¬ ListsItself h output found ∧ ¬ ListsItself h output again ∧
          ((∀ file ∈ again, file.same output = false →
              ∀ l ∈ h.stops file, h.tree.node? l ≠ none) →
            source root output again = source root output found)) := by
  obtain ⟨found, -, -, searched, -⟩ := write_eq_ok wrote
  have edited := (edits_write root pattern output).run wrote
  have held := read_of_write searched wrote
  obtain ⟨all, matched, rfl⟩ := Glob.exists_matchesBelow_of_edited edited tidy searched
  have later : Glob.files after root [pattern] = .ok (Path.sort all) :=
    map_eq_ok.2 ⟨all, matched, rfl⟩
  refine ⟨_, _, searched, later, held, fun k tree start => ?_, source_again_eq_iff, fun there => ?_,
    fun spelled => ?_⟩
  · rw [← Glob.files_congr tree start] at later
    have there : k.isFile output = true := by
      rw [Glob.isFile_congr tree start]
      exact Host.isFile_of_read held
    obtain ⟨last, written, -⟩ := exists_write later there
    exact ⟨last, written, read_of_write later written⟩
  · rw [files_of_write tidy wrote there, searched] at later
    exact (Except.ok.inj later).symm
  · have elsewhere : ¬ ListsItself h output (Path.sort all) := by
      rintro ⟨file, hfile, other, place⟩
      rw [spelled file hfile place] at other
      cases other
    refine ⟨fun lists => elsewhere lists.of_filter, elsewhere, fun way => ?_⟩
    refine source_again_eq_iff.2 fun file hfile new other => ?_
    have stands := Glob.isFile_of_mem_matchesBelow matched (Path.sort_subset _ hfile)
    -- The only new file is the umbrella source, and all that leads there is left out.
    have old : h.isFile file = true := by
      refine edited.isFile_of_stood stands (way file hfile other) ?_
      rintro ⟨p, hp, place⟩
      obtain rfl := List.mem_singleton.1 hp
      exact absurd ⟨file, hfile, other, place⟩ elsewhere
    rw [new] at old
    cases old

/-- A directory without tests. -/
def untestedHost : Host :=
  { (default : Host) with tree := .directory [("t", .directory [])] }

theorem tidy_untestedHost : untestedHost.tree.Tidy := by
  have kept : IsKeptName "t" := by decide
  simp [untestedHost, Tree.tidy_directory_iff, kept]

/-- An umbrella source that is found as it is spelled stays as it was written. -/
theorem write_again_untestedHost :
    ∃ after last, write ⟨"t"⟩ "*.cpp" ⟨"t/all.cpp"⟩ untestedHost = (.ok (), after) ∧
      Glob.files after ⟨"t"⟩ ["*.cpp"] = .ok [⟨"t/all.cpp"⟩] ∧
      write ⟨"t"⟩ "*.cpp" ⟨"t/all.cpp"⟩ { after with clock := 1 } = (.ok (), last) ∧
      last.read ⟨"t/all.cpp"⟩ = after.read ⟨"t/all.cpp"⟩ := by
  have done : (write ⟨"t"⟩ "*.cpp" ⟨"t/all.cpp"⟩ untestedHost).1 = .ok () := by decide +kernel
  obtain ⟨found, again, -, later, held, rewritten, -, -, stays⟩ :=
    write_again tidy_untestedHost (Prod.ext done rfl)
  obtain ⟨last, written, kept⟩ := rewritten { (write _ _ _ _).2 with clock := 1 } rfl rfl
  have files : Glob.files (write ⟨"t"⟩ "*.cpp" ⟨"t/all.cpp"⟩ untestedHost).2 ⟨"t"⟩ ["*.cpp"] =
      .ok [⟨"t/all.cpp"⟩] := by decide +kernel
  obtain rfl := Except.ok.inj (later.symm.trans files)
  refine ⟨_, last, Prod.ext done rfl, files, written, ?_⟩
  rw [kept, held, (stays (by decide +kernel)).2.2 (by decide +kernel)]

/-- In another spelling an umbrella source is found as a test, and includes itself when it is
written again. -/
theorem listsItself_untestedHost :
    let output : Path := ⟨"./t/all.cpp"⟩
    let after := (write ⟨"t"⟩ "*.cpp" output untestedHost).2
    let last := (write ⟨"t"⟩ "*.cpp" output after).2
    (write ⟨"t"⟩ "*.cpp" output untestedHost).1 = .ok () ∧
      (write ⟨"t"⟩ "*.cpp" output after).1 = .ok () ∧
      after.read output = .ok "/* auto-generated by shipwright: do not edit */\n\n" ∧
      last.read output =
        .ok "/* auto-generated by shipwright: do not edit */\n\n#include \"all.cpp\"\n" ∧
      Glob.files after ⟨"t"⟩ ["*.cpp"] = .ok [⟨"t/all.cpp"⟩] ∧
      ListsItself untestedHost output [⟨"t/all.cpp"⟩] := by
  decide +kernel

/-- By way of the directory that was made for the umbrella source a test is found that was there. -/
example :
    let h : Host := { (default : Host) with
      tree := .directory [("t", .directory [("y", .directory [("a.cpp", .file default)])])] }
    let after := (write ⟨"t"⟩ "x/../y/*.cpp" ⟨"t/x/all.cpp"⟩ h).2
    Glob.files h ⟨"t"⟩ ["x/../y/*.cpp"] = .ok [] ∧
      Glob.files after ⟨"t"⟩ ["x/../y/*.cpp"] = .ok [⟨"t/x/../y/a.cpp"⟩] := by
  decide +kernel

end BuildPlanner.Umbrella
