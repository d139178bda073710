import BuildPlanner.Proofs.Edits
import Mathlib.Logic.Function.Basic

/-!
# Rewritten files

Where a path leads and no directory stands, a file is written without anything made for it, and then
all files hold what they held but this one (`Host.Wrote`).  What a list of texts leaves does not
depend on what its files held before, so to write the same list again changes nothing
(`Host.Wrote.again`).
-/

namespace BuildPlanner

/-- What files hold after texts have been written, one after the other. -/
def overlay (place : Path → Location) (writings : List (Path × String))
    (held : Location → Option Content) : Location → Option Content :=
  writings.foldl (fun held w => Function.update held (place w.1) (some (.text w.2))) held

section Overlay

variable {place : Path → Location} {writings : List (Path × String)}
  {held held' : Location → Option Content} {l : Location}

theorem overlay_of_notMem (other : ∀ w ∈ writings, l ≠ place w.1) :
    overlay place writings held l = held l := by
  unfold overlay
  induction writings generalizing held with
  | nil => rfl
  | cons w writings ih =>
    obtain ⟨first, others⟩ := List.forall_mem_cons.1 other
    rw [List.foldl_cons, ih others, Function.update_of_ne first]

/-- Files that are written hold the same, whatever they held before. -/
theorem overlay_congr (same : held l = held' l ∨ ∃ w ∈ writings, l = place w.1) :
    overlay place writings held l = overlay place writings held' l := by
  unfold overlay
  induction writings generalizing held held' with
  | nil =>
    rcases same with same | ⟨w, hw, -⟩
    · exact same
    · cases hw
  | cons w writings ih =>
    rw [List.foldl_cons, List.foldl_cons]
    apply ih
    by_cases here : l = place w.1
    · subst here
      rw [Function.update_self, Function.update_self]
      exact .inl rfl
    · rw [Function.update_of_ne here, Function.update_of_ne here]
      rcases same with same | ⟨w', hw', there⟩
      · exact .inl same
      · rcases List.mem_cons.1 hw' with rfl | hw'
        · exact absurd there here
        · exact .inr ⟨w', hw', there⟩

theorem overlay_overlay (place : Path → Location) (writings : List (Path × String))
    (held : Location → Option Content) :
    overlay place writings (overlay place writings held) = overlay place writings held := by
  funext l
  by_cases written : ∃ w ∈ writings, l = place w.1
  · exact overlay_congr (.inr written)
  · exact overlay_of_notMem fun w hw same => written ⟨w, hw, same⟩

end Overlay

namespace Host

variable {h middle after : Host} {p : Path} {writings before later : List (Path × String)}

/-- What the file at a location holds, if one stands there. -/
def contentAt? (h : Host) (l : Location) : Option Content :=
  (h.fileAt? l).map File.content

theorem content_eq_ok_iff {c : Content} :
    h.content p = .ok c ↔ h.Reaches p ∧ h.contentAt? (h.namedLocation p) = some c := by
  have holds : h.content p = .ok c ↔ ∃ file, h.node p = .ok (.file file) ∧ file.content = c := by
    unfold content
    cases h.node p with
    | error fault => simp
    | ok node => cases node <;> simp
  unfold contentAt?
  simp only [holds, node_eq_ok_iff, Option.map_eq_some_iff, fileAt?_eq_some, and_assoc,
    exists_and_left]

/-- A host on which texts have been written, one after the other, and nothing else was changed in
the tree. -/
structure Wrote (h after : Host) (writings : List (Path × String)) : Prop where
  edited : h.Edited after (fun l => ∃ w ∈ writings, l = h.namedLocation w.1) fun _ => False
  holds : after.contentAt? = overlay h.namedLocation writings h.contentAt?

namespace Wrote

theorem of_tree (start : after.workingDirectory = h.workingDirectory) (tree : after.tree = h.tree) :
    h.Wrote after [] := by
  refine ⟨.of_tree start tree, ?_⟩
  funext l
  unfold contentAt? fileAt?
  rw [tree]
  rfl

theorem namedLocation_eq (wrote : h.Wrote after writings) : after.namedLocation = h.namedLocation :=
  funext wrote.edited.namedLocation_eq

theorem trans (first : h.Wrote middle before) (second : middle.Wrote after later) :
    h.Wrote after (before ++ later) := by
  have same := first.namedLocation_eq
  refine ⟨.trans (first.edited.mono (fun l => ?_) fun _ => id)
    (second.edited.mono (fun l => ?_) fun _ => id), ?_⟩
  · rintro ⟨w, hw, place⟩
    exact ⟨w, List.mem_append_left _ hw, place⟩
  · rw [same]
    rintro ⟨w, hw, place⟩
    exact ⟨w, List.mem_append_right _ hw, place⟩
  · rw [second.holds, first.holds, same]
    unfold overlay
    rw [List.foldl_append]

/-- What is changed besides the tree does not matter. -/
theorem trans_of_tree (wrote : h.Wrote middle writings)
    (start : after.workingDirectory = middle.workingDirectory) (tree : after.tree = middle.tree) :
    h.Wrote after writings := by
  have whole := wrote.trans (of_tree start tree)
  rwa [List.append_nil] at whole

theorem report (wrote : h.Wrote middle writings) (severity : Severity) (text : String) :
    h.Wrote (middle.report severity text) writings :=
  wrote.trans_of_tree (workingDirectory_report _ _ _) (tree_report _ _ _)

theorem isFile (wrote : h.Wrote after writings) (there : h.isFile p = true) :
    after.isFile p = true :=
  wrote.edited.isFile there

/-- To write the same texts again leaves what all files hold. -/
theorem again {left : Host} (first : h.Wrote after writings) (second : after.Wrote left writings)
    (p : Path) (c : Content) : left.content p = .ok c ↔ after.content p = .ok c := by
  have same : left.contentAt? = after.contentAt? := by
    rw [second.holds, first.holds, first.namedLocation_eq, overlay_overlay]
  rw [content_eq_ok_iff, content_eq_ok_iff, second.edited.reaches_iff, second.namedLocation_eq,
    same]

end Wrote

theorem wrote_of_write {text : String} (h₁ : h.write p text = .ok after) :
    h.Wrote after [(p, text)] := by
  refine ⟨(edited_of_write h₁).mono (fun l place => ?_) fun _ => id, ?_⟩
  · exact ⟨(p, text), List.mem_singleton_self _, place⟩
  · obtain ⟨-, -, -, -, file, content, view⟩ := write_eq_ok h₁
    funext l
    unfold contentAt? fileAt? overlay
    rw [view, List.foldl_cons, List.foldl_nil]
    by_cases here : l = h.namedLocation p
    · subst here
      simp [Node.file?, content]
    · rw [if_neg here, Function.update_of_ne here]

end Host

/-- A file is written where a path leads and no directory stands. -/
theorem Files.exists_write {h : Host} {p : Path} (reaches : h.Reaches p)
    (free : h.tree.node? (h.namedLocation p) ≠ some .directory) (text : String) :
    ∃ after, write p text h = (.ok (), after) ∧ h.Wrote after [(p, text)] := by
  obtain ⟨after, written⟩ := Host.exists_write reaches free text
  refine ⟨after, ?_, Host.wrote_of_write written⟩
  unfold write
  rw [Activity.bind_run, ensureParent_of_reaches reaches]
  dsimp only
  rw [Activity.ofStep, written]
  rfl

end BuildPlanner
