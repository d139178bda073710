import BuildPlanner.Proofs.Replicas

/-!
# What the files of a replica hold

Making a replica copies the files of the source that are outdated at the destination, and a file of
the same size that is not older is taken to be up to date, whatever it holds.  So after
`Replica.make` a file of the destination holds what the file of the source holds if it was outdated
or held that before (`Replica.holds_make_iff`), and otherwise it does not
(`Replica.make_staleHost`).
-/

namespace BuildPlanner

/-- Whether a file that stands at a place below a base has some content. -/
def Host.Holds (h : Host) (base : Path) (place : Location) (content : Content) : Prop :=
  ∃ file, h.below base place = some (.file file) ∧ file.content = content

/-- Making directories leaves all files where they are. -/
theorem Host.Grows.below_eq_file_iff {h after : Host} {added : Location → Prop} {base : Path}
    {place : Location} {file : File} (grows : h.Grows after added) :
    after.below base place = some (.file file) ↔ h.below base place = some (.file file) := by
  unfold Host.below
  rw [grows.namedLocation]
  obtain same | ⟨-, none, directory⟩ := grows.view (h.namedLocation base ++ place)
  · rw [same]
  · simp [none, directory]

namespace Replica

open Host

variable {h made after : Host} {source destination : Path} {place : Location} {changes : Changes}

theorem outdated_of_grows {added : Location → Prop} (grows : h.Grows made added) :
    outdated made source destination = outdated h source destination := by
  unfold outdated
  simp only [grows.below_eq_file_iff]

theorem mem_outdated_iff_needsCopy {file : File}
    (ours : h.below source place = some (.file file)) :
    place ∈ outdated h source destination ↔
      needsCopy file (h.below destination place) = true := by
  rw [needsCopy_iff, outdated, Set.mem_ofPred_eq]
  constructor
  · rintro ⟨found, stands, old⟩
    rw [ours] at stands
    cases stands
    exact old
  · exact fun old => ⟨file, ours, old⟩

/-- A file of a replica is a copy if the source's was outdated, and else it is what it was. -/
theorem Mirrored.holds_iff {file : File} (mirrored : Mirrored h after source destination changes)
    (ours : h.below source place = some (.file file)) :
    after.Holds destination place file.content ↔
      place ∈ outdated h source destination ∨ h.Holds destination place file.content := by
  rw [mem_outdated_iff_needsCopy ours]
  unfold Host.Holds
  rw [mirrored.replica, ours, Option.bind_some, replicaOf, isCurrent]
  by_cases old : needsCopy file (h.below destination place) = true
  · simp [old, copyOf]
  · simp [old]

/-- A file of the destination holds what the file of the source holds exactly if there was none of
that size there, or an older one, or one that held the same.  A destination that is absent holds
nothing. -/
theorem holds_make_iff (tidy : h.tree.Tidy) (fromDirectory : h.isDirectory source = true)
    (free : h.exists? destination = false ∨ h.isDirectory destination = true)
    (ensured : Files.ensureDirectory destination h = (.ok (), made))
    (apart : Apart made source destination)
    (done : make source destination h = (.ok changes, after)) :
    ∀ place file, h.below source place = some (.file file) →
      (after.Holds destination place file.content ↔
        place ∈ outdated h source destination ∨ h.Holds destination place file.content) := by
  have grows := Files.grows_of_ensureDirectory ensured
  have ready := ready_of_ensureDirectory tidy fromDirectory free ensured apart
  obtain ⟨left, counted, same, -, mirrored, -⟩ := exists_make ensured ready
  rw [done] at same
  cases same
  intro place file ours
  have held := mirrored.holds_iff (grows.below_eq_file_iff.2 ours)
  rw [outdated_of_grows grows] at held
  simpa only [Host.Holds, grows.below_eq_file_iff] using held

/-- A source and a destination with files of one size, of which one is newer at the destination and
one is older there. -/
def staleHost : Host :=
  { (default : Host) with
    clock := 9
    tree := .directory
      [("src", .directory
        [("a", .file ⟨.text "new", 5, false⟩), ("b", .file ⟨.text "new", 7, false⟩)]),
      ("dst", .directory
        [("a", .file ⟨.text "old", 7, false⟩), ("b", .file ⟨.text "old", 5, false⟩)])] }

theorem tidy_staleHost : staleHost.tree.Tidy := by
  have kept : ∀ name ∈ ["src", "dst", "a", "b"], IsKeptName name := by decide
  simp [staleHost, Tree.tidy_directory_iff, Tree.Tidy.file, kept]

theorem apart_staleHost : Apart staleHost ⟨"src"⟩ ⟨"dst"⟩ := by
  have source : staleHost.namedLocation ⟨"src"⟩ = ["src"] := by decide +kernel
  have destination : staleHost.namedLocation ⟨"dst"⟩ = ["dst"] := by decide +kernel
  have stops : staleHost.stops ⟨"src"⟩ ++ staleHost.stops ⟨"dst"⟩ = [[], []] := by decide +kernel
  have entry (first : String) (place : Location)
      (stands : staleHost.tree.node? ([first] ++ place) ≠ none) :
      ∃ node, (first :: place, node) ∈ staleHost.tree.entries := by
    obtain ⟨node, stands⟩ := Option.ne_none_iff_exists'.1 stands
    exact ⟨node, Tree.mem_entries (List.cons_ne_nil first place) stands⟩
  have taken : ∀ entry ∈ staleHost.tree.entries,
      pathFault? (Path.descend ⟨"src"⟩ (entry.1.drop 1)) = none ∧
        pathFault? (Path.descend ⟨"dst"⟩ (entry.1.drop 1)) = none := by decide +kernel
  refine ⟨?_, ?_, fun place stands => ?_, fun place stands => ?_, fun place hplace => ?_⟩
  · rw [source, destination]
    decide
  · rw [source, destination]
    decide
  · rw [below, source] at stands
    obtain ⟨node, listed⟩ := entry _ _ stands
    exact (taken _ listed).1
  · rw [below, below, source, destination] at stands
    obtain stands | stands := stands <;> obtain ⟨node, listed⟩ := entry _ _ stands <;>
      exact (taken _ listed).2
  · rw [stops, destination] at hplace
    simp at hplace

/-- What the two files of the source hold. -/
theorem below_staleHost :
    staleHost.below ⟨"src"⟩ ["a"] = some (.file ⟨.text "new", 5, false⟩) ∧
      staleHost.below ⟨"src"⟩ ["b"] = some (.file ⟨.text "new", 7, false⟩) := by
  decide +kernel

theorem exists_make_staleHost :
    ∃ after changes, make ⟨"src"⟩ ⟨"dst"⟩ staleHost = (.ok changes, after) ∧
      Mirrored staleHost after ⟨"src"⟩ ⟨"dst"⟩ changes := by
  have ensured : Files.ensureDirectory ⟨"dst"⟩ staleHost = (.ok (), staleHost) :=
    Files.ensureDirectory_of_exists (by decide +kernel)
  have ready := ready_of_ensureDirectory tidy_staleHost (by decide +kernel)
    (.inr (by decide +kernel)) ensured apart_staleHost
  obtain ⟨after, changes, done, -, mirrored, -⟩ := exists_make ensured ready
  exact ⟨after, changes, done, mirrored⟩

theorem holds_make_staleHost :
    ∃ after changes, make ⟨"src"⟩ ⟨"dst"⟩ staleHost = (.ok changes, after) ∧
      ¬ after.Holds ⟨"dst"⟩ ["a"] (.text "new") ∧ after.Holds ⟨"dst"⟩ ["b"] (.text "new") := by
  obtain ⟨after, changes, done, -⟩ := exists_make_staleHost
  have held := holds_make_iff tidy_staleHost (by decide +kernel) (.inr (by decide +kernel))
    (Files.ensureDirectory_of_exists (by decide +kernel)) apart_staleHost done
  obtain ⟨stale, fresh⟩ := below_staleHost
  have theirs : staleHost.below ⟨"dst"⟩ ["a"] = some (.file ⟨.text "old", 7, false⟩) := by
    decide +kernel
  refine ⟨after, changes, done, fun same => ?_, ?_⟩
  · obtain old | ⟨file, stands, content⟩ := (held _ _ stale).1 same
    · rw [mem_outdated_iff_needsCopy stale] at old
      exact absurd old (by decide +kernel)
    · rw [theirs] at stands
      cases stands
      exact absurd content (by decide)
  · rw [held _ _ fresh, mem_outdated_iff_needsCopy fresh]
    exact .inl (by decide +kernel)

/-- A file that is newer at the destination is not copied, and stays what it was. -/
theorem make_staleHost :
    ∃ after changes, make ⟨"src"⟩ ⟨"dst"⟩ staleHost = (.ok changes, after) ∧
      after.below ⟨"src"⟩ ["a"] = some (.file ⟨.text "new", 5, false⟩) ∧
      after.below ⟨"dst"⟩ ["a"] = some (.file ⟨.text "old", 7, false⟩) := by
  obtain ⟨after, changes, done, mirrored⟩ := exists_make_staleHost
  refine ⟨after, changes, done, ?_, ?_⟩
  · rw [mirrored.unchanged]
    exact below_staleHost.1
  · rw [mirrored.replica, below_staleHost.1]
    decide +kernel

end Replica

end BuildPlanner
