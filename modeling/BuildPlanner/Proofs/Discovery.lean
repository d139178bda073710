import BuildPlanner.Proofs.Edits
import BuildPlanner.Proofs.Patterns
import BuildPlanner.Proofs.Searches

/-!
# Searches on edited hosts

What a search finds on an edited host is what it found before, and files that were not there before:
it goes through whatever it starts at (`Glob.through_of_mem_search`), so all files that were there
are found by way of directories that were there (`Glob.filter_search`), also where directories have
been made.  So of what patterns find, that is what they found which was a file
(`Glob.matchesBelow_eq`).

* Where no directories have been made, patterns find the same unless something new is found
  (`Glob.files_eq`), whatever the files hold by now.
-/

namespace BuildPlanner.Glob

/-- Elements that give nothing can be left out. -/
theorem flatMap_filter {α β : Type} {keep : α → Prop} [DecidablePred keep] {f g : α → List β}
    {items : List α} (same : ∀ x ∈ items, f x = if keep x then g x else []) :
    (items.filter keep).flatMap g = items.flatMap f := by
  induction items with
  | nil => rfl
  | cons x items ih =>
    obtain ⟨first, others⟩ := List.forall_mem_cons.1 same
    rw [List.flatMap_cons, first, ← ih others]
    by_cases kept : keep x <;> simp [kept]

/-! ## Where nothing is found -/

/-- A search that leads on finds files only where it starts at a directory. -/
theorem filter_search_of_not_opens {h k : Host} {p : Path} (tidy : k.tree.Tidy)
    {directoriesOnly : Bool} {step : List Token} {rest : List (List Token)}
    (components : ∀ other ∈ step :: rest, IsComponent other) (closed : ¬ h.Opens p) :
    (search k directoriesOnly (step :: rest) p).filter h.isFile = [] := by
  refine List.filter_eq_nil_iff.2 fun q hq file => closed ?_
  obtain ⟨none, -⟩ | through := through_of_mem_search tidy directoriesOnly _ p q components hq
  · cases none
  · exact (Host.isFile_iff.1 file).1.opens through

/-- A search finds files only where it starts at something. -/
theorem filter_search_of_not_stands {h k : Host} {p : Path} (tidy : k.tree.Tidy)
    {directoriesOnly : Bool} {steps : List (List Token)}
    (components : ∀ step ∈ steps, IsComponent step) (absent : ¬ h.Stands p) :
    (search k directoriesOnly steps p).filter h.isFile = [] := by
  cases steps with
  | cons step rest =>
    exact filter_search_of_not_opens tidy components fun opens => absent opens.stands
  | nil =>
    refine List.filter_eq_nil_iff.2 fun q hq file => absent ?_
    rw [search] at hq
    split at hq
    · cases hq
    · obtain rfl := List.mem_singleton.1 hq
      obtain ⟨reaches, file, stands⟩ := Host.isFile_iff.1 file
      exact ⟨reaches.directories, by simp [stands]⟩

/-- A search from where nothing stands finds no files. -/
theorem ite_filter_search {h : Host} (tidy : h.tree.Tidy) {directoriesOnly : Bool}
    {steps : List (List Token)} (components : ∀ step ∈ steps, IsComponent step) (p : Path) :
    (if h.Stands p then (search h directoriesOnly steps p).filter h.isFile else []) =
      (search h directoriesOnly steps p).filter h.isFile := by
  split
  · rfl
  · next absent => exact (filter_search_of_not_stands tidy components absent).symm

section Edited

variable {h after : Host} {written made : Location → Prop} {p : Path} {l : Location}
  (edited : h.Edited after written made)
include edited

/-- Where a directory was reached, one is. -/
theorem isDirectory_eq_of_opens (opens : h.Opens p) : after.isDirectory p = h.isDirectory p := by
  have stood := opens _ (h.namedLocation_mem_course p)
  rw [Bool.eq_iff_iff, Host.isDirectory_iff, Host.isDirectory_iff, edited.namedLocation_eq,
    edited.reaches_iff_of_stops fun l hl => opens l (Host.mem_course.2 (.inl hl)),
    edited.directory stood, stood]

variable (tidy : h.tree.Tidy)
include tidy

theorem names_eq :
    h.names p = (after.names p).filter fun name => h.Stands (childPath p name) := by
  by_cases opens : h.Opens p
  · have same := isDirectory_eq_of_opens edited opens
    cases there : h.isDirectory p with
    | false =>
      rw [Host.names_of_not_isDirectory there, Host.names_of_not_isDirectory (same.trans there),
        List.filter_nil]
    | true =>
      rw [Host.names_of_isDirectory there, Host.names_of_isDirectory (same.trans there),
        edited.namedLocation_eq]
      refine tidy.names_eq_filter (edited.tidy tidy) fun name => ?_
      rw [decide_eq_true_iff]
      constructor
      · intro stood
        have kept := tidy.kept stood name (by simp)
        exact ⟨edited.stands_of_stood stood, (stands_childPath_iff kept.entry).2 ⟨opens, stood⟩⟩
      · rintro ⟨stands, stood⟩
        have kept := (edited.tidy tidy).kept stands name (by simp)
        exact ((stands_childPath_iff kept.entry).1 stood).2
  · rw [Host.names_of_not_isDirectory (Host.isDirectory_eq_false_of_not_opens opens)]
    refine (List.filter_eq_nil_iff.2 fun name hname => ?_).symm
    have kept := ((mem_names_iff (edited.tidy tidy)).1 hname).2.1
    rw [decide_eq_true_iff, stands_childPath_iff kept.entry]
    exact fun stood => opens stood.1

theorem below_eq (fuel : Nat) :
    below h fuel p = (below after fuel p).filter fun q => h.Stands q := by
  induction fuel generalizing p with
  | zero => rfl
  | succ fuel ih =>
    rw [below, below, List.filter_flatMap, names_eq edited tidy]
    refine flatMap_filter fun name hname => ?_
    rw [List.filter_cons, ← ih]
    by_cases stood : h.Stands (childPath p name)
    · simp only [stood, decide_true, if_true]
    · have other : h.isDirectory (childPath p name) = false :=
        Host.isDirectory_eq_false_of_not_opens fun opens => stood opens.stands
      simp only [below_of_not_isDirectory other, stood, decide_false, Bool.false_eq_true, if_false]

theorem descendants_eq_filter :
    descendants h p = (descendants after p).filter fun q => h.Stands q := by
  rw [descendants_eq tidy (Nat.le_max_left _ after.tree.height),
    descendants_eq (edited.tidy tidy) (Nat.le_max_right h.tree.height _), below_eq edited tidy]

section Step

variable {directoriesOnly : Bool} {step : List Token} {rest : List (List Token)}
  (opens : h.Opens p) (components : ∀ step ∈ rest, IsComponent step)
  (ih : ∀ q, (search after directoriesOnly rest q).filter h.isFile =
    (search h directoriesOnly rest q).filter h.isFile)
include opens components ih

theorem filter_search_of_literal? {text : List Char} (spelled : literal? step = some text) :
    (search after directoriesOnly (step :: rest) p).filter h.isFile =
      (search h directoriesOnly (step :: rest) p).filter h.isFile := by
  rw [search.eq_def, search.eq_def h]
  dsimp only
  rw [spelled, isDirectory_eq_of_opens edited opens]
  dsimp only
  by_cases inner : text = ['.'] ∨ text = ['.', '.']
  · rw [if_pos inner, if_pos inner]
    split
    · exact ih _
    · rfl
  rw [if_neg inner, if_neg inner]
  cases stood : h.exists? (childPath p (.ofList text)) with
  | true =>
    have stands : after.exists? (childPath p (.ofList text)) = true := by
      rw [Host.exists?_iff, edited.namedLocation_eq]
      exact (Host.exists?_iff.1 stood).imp edited.reaches edited.stands_of_stood
    rw [if_pos stands, if_pos rfl]
    exact ih _
  | false =>
    by_cases stands : after.exists? (childPath p (.ofList text)) = true
    · rw [if_pos stands, if_neg Bool.false_ne_true]
      refine filter_search_of_not_stands (edited.tidy tidy) components fun there => ?_
      have reaches := (edited.reaches_iff_of_stops there.1).1 (Host.exists?_iff.1 stands).1
      rw [Host.exists?_iff.2 ⟨reaches, there.2⟩] at stood
      cases stood
    · rw [if_neg stands, if_neg Bool.false_ne_true]

theorem filter_search_of_names (spelled : literal? step = none) (shallow : isTree step = false) :
    (search after directoriesOnly (step :: rest) p).filter h.isFile =
      (search h directoriesOnly (step :: rest) p).filter h.isFile := by
  rw [search.eq_def, search.eq_def h]
  dsimp only
  rw [spelled, isDirectory_eq_of_opens edited opens]
  dsimp only
  split
  · rfl
  rw [shallow, if_neg Bool.false_ne_true, if_neg Bool.false_ne_true, List.filter_append,
    List.filter_append]
  simp only [List.filter_flatMap, ih]
  congr 1
  rw [names_eq edited tidy, List.filter_comm]
  exact (flatMap_filter fun name _ => (ite_filter_search tidy components _).symm).symm

theorem filter_search_of_tree {next : List Token} (spelled : literal? step = none)
    (deep : isTree step = true) :
    (search after directoriesOnly (step :: next :: rest) p).filter h.isFile =
      (search h directoriesOnly (step :: next :: rest) p).filter h.isFile := by
  rw [search.eq_def, search.eq_def h]
  dsimp only
  rw [spelled, isDirectory_eq_of_opens edited opens]
  dsimp only
  split
  · rfl
  simp only [List.filter_flatMap, ih]
  rw [descendants_eq_filter edited tidy, List.filter_comm]
  exact (flatMap_filter fun q _ => (ite_filter_search tidy components q).symm).symm

end Step

omit edited tidy in
/-- A pattern for directories finds no files. -/
theorem filter_search_of_last {k : Host} (more : ∀ q, h.isFile q = true → k.isFile q = true)
    {directoriesOnly : Bool} {step : List Token} (spelled : literal? step = none)
    (deep : isTree step = true) : (search k directoriesOnly [step] p).filter h.isFile = [] := by
  rw [search.eq_def]
  dsimp only
  rw [spelled, deep]
  dsimp only
  split
  · rfl
  refine List.filter_eq_nil_iff.2 fun q hq file => ?_
  have directory := List.of_mem_filter hq
  rw [Host.isDirectory_eq_false_of_isFile (more q file)] at directory
  cases directory

/-- A search finds the files that it found before, and no others that were there before. -/
theorem filter_search (directoriesOnly : Bool) :
    ∀ (steps : List (List Token)) (p : Path), (∀ step ∈ steps, IsComponent step) →
      (search after directoriesOnly steps p).filter h.isFile =
        (search h directoriesOnly steps p).filter h.isFile
  | [], p, _ => by
    rw [search, search]
    cases file : h.isFile p with
    | false => split <;> split <;> simp [file]
    | true =>
      rw [Host.isDirectory_eq_false_of_isFile file,
        Host.isDirectory_eq_false_of_isFile (edited.isFile file)]
  | step :: rest, p, components => by
    by_cases opens : h.Opens p
    · have components := (List.forall_mem_cons.1 components).2
      have ih (q : Path) := filter_search directoriesOnly rest q components
      cases spelled : literal? step with
      | some text => exact filter_search_of_literal? edited tidy opens components ih spelled
      | none =>
        cases deep : isTree step with
        | false => exact filter_search_of_names edited tidy opens components ih spelled deep
        | true =>
          cases rest with
          | nil =>
            rw [filter_search_of_last (fun q => edited.isFile) spelled deep,
              filter_search_of_last (fun q => id) spelled deep]
          | cons next rest =>
            have components := (List.forall_mem_cons.1 components).2
            have ih (q : Path) := filter_search directoriesOnly rest q components
            exact filter_search_of_tree edited tidy opens components ih spelled deep
    · rw [filter_search_of_not_opens (edited.tidy tidy) components opens,
        filter_search_of_not_opens tidy components opens]

theorem filter_find {text : List Char} {search : Plan} (planned : plan text = .ok search) :
    (search.find after).filter h.isFile = (search.find h).filter h.isFile :=
  filter_search edited tidy _ _ _ (isComponent_of_plan planned)

/-- Of what is found, that is what was found which was a file before. -/
theorem matchesBelow_eq {base : Path} {patterns : List String} :
    matchesBelow h base patterns = (matchesBelow after base patterns).map (·.filter h.isFile) := by
  induction patterns with
  | nil => rfl
  | cons pattern rest ih =>
    rw [matchesBelow, matchesBelow, ih]
    cases planned : plan (patternBelow base pattern) with
    | error fault => rfl
    | ok search =>
      dsimp only
      rw [← filter_find edited tidy planned]
      cases matchesBelow after base rest with
      | error fault => rfl
      | ok others =>
        refine congrArg Except.ok ?_
        beta_reduce
        rw [List.filter_append, List.filter_filter]
        congr 1
        refine List.filter_congr fun q _ => ?_
        rw [Bool.eq_iff_iff, Bool.and_eq_true, iff_self_and]
        exact edited.isFile

end Edited

section NothingMade

variable {h after : Host} {written : Location → Prop}
  (edited : h.Edited after written fun _ => False) (tidy : h.tree.Tidy)
include edited tidy

/-- What patterns find is the same unless something new is found. -/
theorem files_eq {base : Path} {patterns : List String}
    (old : ∀ pattern ∈ patterns, ∀ found, files after base [pattern] = .ok found →
      ∀ q ∈ found, written (h.namedLocation q) → h.tree.node? (h.namedLocation q) ≠ none) :
    files after base patterns = files h base patterns := by
  unfold files
  congr 1
  induction patterns with
  | nil => rfl
  | cons pattern rest ih =>
    obtain ⟨first, others⟩ := List.forall_mem_cons.1 old
    rw [matchesBelow, matchesBelow, ih others]
    cases planned : plan (patternBelow base pattern) with
    | error fault => rfl
    | ok search =>
      have found : files after base [pattern] =
          .ok (Path.sort ((search.find after).filter after.isFile)) := by
        simp [files, matchesBelow, planned, Except.map]
      have same : (search.find after).filter after.isFile = (search.find after).filter h.isFile := by
        refine List.filter_congr fun q hq => Bool.eq_iff_iff.2 ⟨fun file => ?_, edited.isFile⟩
        obtain ⟨r, hr, spelled⟩ := Path.exists_same_of_mem_sort (List.mem_filter.2 ⟨hq, file⟩)
        have old := first _ found r hr
        rw [Host.namedLocation_of_same spelled] at old
        have reaches := edited.reaches_iff.1 (Host.isFile_iff.1 file).1
        exact edited.isFile_of_stood file (fun l hl => by simp [reaches.directories l hl]) old
      dsimp only
      rw [same, filter_find edited tidy planned]

end NothingMade

/-- What has been found is what is found and was a file. -/
theorem exists_matchesBelow_of_edited {h after : Host} {written made : Location → Prop}
    {base : Path} {patterns : List String} {found : List Path}
    (edited : h.Edited after written made) (tidy : h.tree.Tidy)
    (searched : files h base patterns = .ok found) :
    ∃ all, matchesBelow after base patterns = .ok all ∧ found = Path.sort (all.filter h.isFile) := by
  obtain ⟨old, earlier, rfl⟩ := map_eq_ok.1 searched
  rw [matchesBelow_eq edited tidy] at earlier
  obtain ⟨all, later, rfl⟩ := map_eq_ok.1 earlier
  exact ⟨all, later, rfl⟩

theorem isFile_of_mem_matchesBelow {h : Host} {base p : Path} {patterns : List String}
    {found : List Path} (searched : matchesBelow h base patterns = .ok found) (hp : p ∈ found) :
    h.isFile p = true := by
  obtain ⟨-, -, -, -, -, file⟩ := (mem_iff_of_matchesBelow searched).1 hp
  exact file

/-- Whether patterns can be read is not a matter of the host. -/
theorem exists_files {h : Host} {base : Path} {patterns : List String} {found : List Path}
    (searched : files h base patterns = .ok found) (k : Host) :
    ∃ found, files k base patterns = .ok found :=
  exists_files_iff.2 (exists_files_iff.1 ⟨found, searched⟩)

end BuildPlanner.Glob
