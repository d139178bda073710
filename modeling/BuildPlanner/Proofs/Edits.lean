import BuildPlanner.Proofs.Writing

/-!
# Edited hosts

Files are written one after the other, and for each of them directories may be made first.  What all
of this leaves (`Host.Edited`) has what was there before, but for the files that were written and for
directories that were made where nothing stood.  So every path leads where it led, and a file at
another place is what it was (`Host.Edited.fileAt?_eq`).

* `Activity.Edits` says of an activity which files it may write, and is put together as activities
  are.  It holds of what is left by a failure too.
-/

namespace BuildPlanner

namespace Host

variable {h middle after : Host} {p : Path} {written made : Location → Prop} {l : Location}

/-- A host on which files may have been written at some locations and directories made at others,
and nothing else has changed in the tree. -/
structure Edited (h after : Host) (written made : Location → Prop) : Prop where
  start : after.workingDirectory = h.workingDirectory
  tidy : h.tree.Tidy → after.tree.Tidy
  view : ∀ l, after.tree.node? l = h.tree.node? l ∨
    (made l ∧ h.tree.node? l = none ∧ after.tree.node? l = some .directory) ∨
    (written l ∧ h.tree.node? l ≠ some .directory ∧ ∃ file, after.tree.node? l = some (.file file))

/-- The file that stands at a location, if one does. -/
def fileAt? (h : Host) (l : Location) : Option File :=
  (h.tree.node? l).bind Node.file?

theorem fileAt?_eq_some {file : File} :
    h.fileAt? l = some file ↔ h.tree.node? l = some (.file file) := by
  unfold fileAt?
  cases stands : h.tree.node? l with
  | none => simp
  | some node => cases node <;> simp [Node.file?]

namespace Edited

theorem of_tree (start : after.workingDirectory = h.workingDirectory) (tree : after.tree = h.tree) :
    h.Edited after written made :=
  ⟨start, fun tidy => tree ▸ tidy, fun _ => .inl (by rw [tree])⟩

theorem refl (h : Host) : h.Edited h written made := .of_tree rfl rfl

theorem mono {written' made' : Location → Prop} (edited : h.Edited after written made)
    (hwritten : ∀ l, written l → written' l) (hmade : ∀ l, made l → made' l) :
    h.Edited after written' made' :=
  ⟨edited.start, edited.tidy, fun l => (edited.view l).imp_right
    (Or.imp (And.imp_left (hmade l)) (And.imp_left (hwritten l)))⟩

theorem directory (edited : h.Edited after written made)
    (stands : h.tree.node? l = some .directory) : after.tree.node? l = some .directory := by
  rcases edited.view l with same | ⟨-, none, -⟩ | ⟨-, other, -⟩
  · rw [same, stands]
  · simp [none] at stands
  · exact absurd stands other

theorem trans (first : h.Edited middle written made) (second : middle.Edited after written made) :
    h.Edited after written made := by
  refine ⟨second.start.trans first.start, second.tidy ∘ first.tidy, fun l => ?_⟩
  rcases second.view l with same | ⟨new, none, stands⟩ | ⟨changed, other, stands⟩
  · rw [same]
    exact first.view l
  · rcases first.view l with same | ⟨-, -, stood⟩ | ⟨-, -, file, stood⟩
    · exact .inr (.inl ⟨new, same ▸ none, stands⟩)
    · simp [none] at stood
    · simp [none] at stood
  · exact .inr (.inr ⟨changed, fun stood => other (first.directory stood), stands⟩)

theorem stands_of_stood (edited : h.Edited after written made) (stood : h.tree.node? l ≠ none) :
    after.tree.node? l ≠ none := by
  rcases edited.view l with same | ⟨-, -, new⟩ | ⟨-, -, file, new⟩
  · rwa [same]
  · simp [new]
  · simp [new]

theorem namedLocation_eq (edited : h.Edited after written made) (p : Path) :
    after.namedLocation p = h.namedLocation p := by
  unfold namedLocation origin
  rw [edited.start]

theorem stops_eq (edited : h.Edited after written made) (p : Path) : after.stops p = h.stops p := by
  unfold stops origin
  rw [edited.start]

/-- Where no directory stands, none stood before. -/
theorem free (edited : h.Edited after written made)
    (free : after.tree.node? (after.namedLocation p) ≠ some .directory) :
    h.tree.node? (h.namedLocation p) ≠ some .directory := by
  rw [edited.namedLocation_eq] at free
  exact fun stands => free (edited.directory stands)

theorem onWay_eq (edited : h.Edited after written made) (p : Path) : after.OnWay p = h.OnWay p := by
  funext l
  unfold OnWay origin
  rw [edited.start]

theorem reaches (edited : h.Edited after written made) (reaches : h.Reaches p) : after.Reaches p :=
  reaches.of_directories edited.start fun _ _ => edited.directory

/-- What is taken in all goes the way it went, where the directories on it stood. -/
theorem reaches_iff_of_stops (edited : h.Edited after written made)
    (stood : ∀ l ∈ h.stops p, h.tree.node? l = some .directory) : after.Reaches p ↔ h.Reaches p :=
  ⟨fun reaches => ⟨reaches.taken, reaches.short, stood⟩, edited.reaches⟩

theorem isFile (edited : h.Edited after written made) (file : h.isFile p = true) :
    after.isFile p = true := by
  obtain ⟨reaches, file, stood⟩ := isFile_iff.1 file
  rw [isFile_iff, edited.namedLocation_eq]
  refine ⟨edited.reaches reaches, ?_⟩
  rcases edited.view (h.namedLocation p) with same | ⟨-, none, -⟩ | ⟨-, -, stands⟩
  · exact ⟨file, same.trans stood⟩
  · simp [none] at stood
  · exact stands

/-- A file that something stood for, on a way that stood, is no new one. -/
theorem isFile_of_stood (edited : h.Edited after written made) (file : after.isFile p = true)
    (way : ∀ l ∈ h.stops p, h.tree.node? l ≠ none)
    (stood : written (h.namedLocation p) → h.tree.node? (h.namedLocation p) ≠ none) :
    h.isFile p = true := by
  obtain ⟨reaches, file, stands⟩ := isFile_iff.1 file
  rw [edited.namedLocation_eq] at stands
  refine isFile_iff.2 ⟨⟨reaches.taken, reaches.short, fun l hl => ?_⟩, ?_⟩
  · have directory := reaches.directories l (by rwa [edited.stops_eq])
    rcases edited.view l with same | ⟨-, none, -⟩ | ⟨-, -, file, new⟩
    · rw [← same, directory]
    · exact absurd none (way l hl)
    · simp [directory] at new
  · rcases edited.view (h.namedLocation p) with same | ⟨-, -, new⟩ | ⟨changed, other, -⟩
    · exact ⟨file, same.symm.trans stands⟩
    · simp [stands] at new
    · obtain ⟨node, old⟩ := Option.ne_none_iff_exists'.1 (stood changed)
      cases node with
      | directory => exact absurd old other
      | file file => exact ⟨file, old⟩

/-- A file is as it was, and there is none where none was, but where files were written. -/
theorem fileAt?_eq (edited : h.Edited after written made) (other : ¬ written l) :
    after.fileAt? l = h.fileAt? l := by
  unfold fileAt?
  rcases edited.view l with same | ⟨-, none, stands⟩ | ⟨changed, -, -⟩
  · rw [same]
  · rw [none, stands]
    rfl
  · exact absurd changed other

theorem read {text : String} (edited : h.Edited after written made)
    (other : ¬ written (h.namedLocation p)) (held : h.read p = .ok text) :
    after.read p = .ok text := by
  obtain ⟨file, stands, content⟩ := read_eq_ok_iff.1 held
  obtain ⟨reaches, stands⟩ := node_eq_ok_iff.1 stands
  refine read_eq_ok_iff.2 ⟨file, node_eq_ok_iff.2 ⟨edited.reaches reaches, ?_⟩, content⟩
  rw [← fileAt?_eq_some] at stands ⊢
  rw [edited.namedLocation_eq, edited.fileAt?_eq other, stands]

section NothingMade

variable (edited : h.Edited after written fun _ => False)
include edited

theorem directory_iff :
    after.tree.node? l = some .directory ↔ h.tree.node? l = some .directory := by
  refine ⟨fun stands => ?_, edited.directory⟩
  rcases edited.view l with same | ⟨no, -, -⟩ | ⟨-, -, file, new⟩
  · rw [← same, stands]
  · exact no.elim
  · simp [stands] at new

theorem free_iff : after.tree.node? (after.namedLocation p) ≠ some .directory ↔
    h.tree.node? (h.namedLocation p) ≠ some .directory := by
  rw [edited.namedLocation_eq, Ne, edited.directory_iff]

theorem reaches_iff : after.Reaches p ↔ h.Reaches p :=
  ⟨fun reaches => reaches.of_directories edited.start.symm fun _ _ => edited.directory_iff.1,
    edited.reaches⟩

end NothingMade

end Edited

/-- A host on which nothing has changed but the files of some paths, and that directories were made
on the way to them. -/
def EditedAt (h after : Host) (paths : List Path) : Prop :=
  h.Edited after (fun l => ∃ p ∈ paths, l = h.namedLocation p) fun l => ∃ p ∈ paths, h.OnWay p l

theorem EditedAt.subset {paths more : List Path} (edited : h.EditedAt after paths)
    (sub : paths ⊆ more) : h.EditedAt after more :=
  edited.mono (fun _ ⟨p, hp, place⟩ => ⟨p, sub hp, place⟩)
    fun _ ⟨p, hp, onWay⟩ => ⟨p, sub hp, onWay⟩

theorem EditedAt.trans {paths : List Path} (first : h.EditedAt middle paths)
    (second : middle.EditedAt after paths) : h.EditedAt after paths := by
  refine Edited.trans first (second.mono (fun l => ?_) fun l => ?_)
  · simp only [first.namedLocation_eq, imp_self]
  · simp only [first.onWay_eq, imp_self]

theorem Grows.edited {added : Location → Prop} (grows : h.Grows after added) :
    h.Edited after written added :=
  ⟨by rw [grows.others], grows.tidy, fun l => (grows.view l).imp_right .inl⟩

theorem edited_report (h : Host) (severity : Severity) (text : String) :
    h.Edited (h.report severity text) written made :=
  .of_tree (workingDirectory_report h severity text) (tree_report h severity text)

theorem edited_of_write {text : String} (h₁ : h.write p text = .ok after) :
    h.Edited after (· = h.namedLocation p) made := by
  obtain ⟨-, others, free, tidy, file, -, view⟩ := write_eq_ok h₁
  refine ⟨by rw [others], tidy, fun l => ?_⟩
  rw [view]
  by_cases same : l = h.namedLocation p
  · subst same
    exact .inr (.inr ⟨rfl, free, file, by simp⟩)
  · exact .inl (if_neg same)

end Host

namespace Activity

variable {ε ε' α β : Type} {paths more : List Path} {a : Activity ε α}

/-- An activity that, whatever comes of it, writes no files but those of some paths, and makes
directories on the way to them. -/
def Edits (a : Activity ε α) (paths : List Path) : Prop :=
  ∀ h : Host, h.EditedAt (a h).2 paths

namespace Edits

theorem run {h after : Host} {result : Except ε α} (edits : a.Edits paths)
    (done : a h = (result, after)) : h.EditedAt after paths := by
  have edited := edits h
  rwa [done] at edited

theorem subset (edits : a.Edits paths) (sub : paths ⊆ more) : a.Edits more :=
  fun h => (edits h).subset sub

theorem pure (value : α) : (Pure.pure value : Activity ε α).Edits paths :=
  fun h => .refl h

theorem ofView (view : Host → Except ε α) : (Activity.ofView view).Edits paths :=
  fun h => .refl h

theorem of_observes {view : Host → Except ε α} (observes : a.Observes view) : a.Edits paths := by
  intro h
  obtain ⟨errors, done⟩ := observes h
  rw [done]
  exact .of_tree rfl rfl

theorem bind {f : α → Activity ε β} (first : a.Edits paths)
    (rest : ∀ value, (f value).Edits paths) : (a >>= f).Edits paths := by
  intro h
  have edited := first h
  rw [bind_run]
  cases done : a h with
  | mk result middle =>
    rw [done] at edited
    cases result with
    | ok value => exact edited.trans (rest value middle)
    | error fault => exact edited

theorem mapFault (f : ε → ε') (edits : a.Edits paths) : (a.mapFault f).Edits paths := by
  intro h
  have edited := edits h
  rw [Activity.mapFault]
  cases done : a h with
  | mk result middle =>
    rw [done] at edited
    cases result <;> exact edited

theorem report (severity : Severity) (text : String) :
    (Activity.report severity text : Activity ε Unit).Edits paths :=
  fun h => Host.edited_report h severity text

end Edits

end Activity

/-- Writing a file changes no other, and it makes nothing but directories on the way, also where it
fails. -/
theorem Files.edits_write (p : Path) (text : String) : (write p text).Edits [p] := by
  refine .bind (fun h => ?_) fun _ h => ?_
  · have grows := grows_of_ensureParent (rfl : ensureParent p h = (_, (ensureParent p h).2))
    exact grows.edited.mono (fun _ => False.elim)
      fun l onWay => ⟨p, List.mem_singleton_self p, onWay⟩
  · rw [Activity.ofStep]
    cases written : h.write p text with
    | error fault => exact .refl h
    | ok made =>
      exact (Host.edited_of_write written).mono (fun l same => ⟨p, List.mem_singleton_self p, same⟩)
        fun _ => False.elim

end BuildPlanner
