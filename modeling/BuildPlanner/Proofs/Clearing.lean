import BuildPlanner.Proofs.Copying

/-!
# Clearing a directory

What the source does not have is removed from the destination, each entry after what lies below it,
so whatever is to be removed is there when its turn comes.  After some removals (`Replica.Cleared`)
these entries and what lay below them are gone, and everything else is as it was.
-/

namespace BuildPlanner.Replica

open Host

variable {h left : Host} {source destination base : Path} {done items : List Location}
  {more place : Location}

/-! ## Removing -/

/-- A host from which what stood at some places below a base was removed. -/
structure Cleared (h after : Host) (base : Path) (done : List Location) : Prop where
  others : after = { h with tree := after.tree }
  tidy : after.tree.Tidy
  gone : ∀ first ∈ done, ∀ place, first <+: place → after.below base place = none
  kept : ∀ l, (∀ first ∈ done, ¬ h.namedLocation base ++ first <+: l) →
    after.tree.node? l = h.tree.node? l
  still : done = [] → after = h

namespace Cleared

theorem nil (tidy : h.tree.Tidy) : Cleared h h base [] :=
  ⟨rfl, tidy, nofun, fun _ _ => rfl, fun _ => rfl⟩

theorem namedLocation_eq (cleared : Cleared h left base done) (p : Path) :
    left.namedLocation p = h.namedLocation p := by
  rw [cleared.others]
  rfl

theorem below_eq (cleared : Cleared h left base done) (clear : ∀ first ∈ done, ¬ first <+: place) :
    left.below base place = h.below base place := by
  rw [below, cleared.namedLocation_eq]
  refine cleared.kept _ fun first hfirst => ?_
  rw [List.prefix_append_right_inj]
  exact clear first hfirst

theorem concat (cleared : Cleared h left base done) (nonempty : more ≠ [])
    (stands : left.below base more ≠ none) :
    Cleared h (left.without (left.namedLocation base ++ more)) base (done ++ [more]) where
  others := by
    rw [without, cleared.others]
  tidy := tidy_without cleared.tidy stands
  gone first hfirst place inside := by
    rw [below_without nonempty]
    split_ifs with within
    · rfl
    · refine cleared.gone first ?_ place inside
      obtain hfirst | same := List.mem_append.1 hfirst
      · exact hfirst
      · rw [List.mem_singleton.1 same] at inside
        exact absurd inside within
  kept l clear := by
    have apart := clear more (by simp)
    rw [← cleared.namedLocation_eq] at apart
    rw [node?_without (by simp [nonempty]), if_neg apart]
    exact cleared.kept l fun first hfirst => clear first (List.mem_append_left _ hfirst)
  still empty := absurd empty (by simp)

/-- One more place is removed. -/
theorem removeEntry_eq (cleared : Cleared h left base done) (reaches : h.Reaches base)
    (apart : ∀ first ∈ done, ∀ l ∈ h.stops base, ¬ h.namedLocation base ++ first <+: l)
    (fresh : ∀ first ∈ done, ¬ first <+: more) (fits : base.Fits more)
    (stands : h.below base more ≠ none) :
    left.below base more ≠ none ∧
      removeEntry (base.descend more) left =
        (.ok ⟨0, 1⟩, left.without (left.namedLocation base ++ more)) := by
  have reaches : left.Reaches base := by
    refine reaches.of_directories (by rw [cleared.others]) fun l hl stood => ?_
    rw [cleared.kept l fun first hfirst => apart first hfirst l hl, stood]
  rw [← cleared.below_eq fresh] at stands
  have there := exists?_descend reaches fits
  rw [Option.isSome_iff_ne_none.2 stands] at there
  refine ⟨stands, ?_⟩
  rw [removeEntry, Activity.bind_run, removeIf_descend there reaches fits stands]
  rfl

end Cleared

/-- Everything listed is removed, if each place is listed after those below it. -/
theorem exists_removeAll (tidy : h.tree.Tidy) (reaches : h.Reaches base)
    (order : items.Pairwise fun first second => ¬ first <+: second)
    (each : ∀ more ∈ items, more ≠ [] ∧ base.Fits more ∧ h.below base more ≠ none)
    (apart : ∀ more ∈ items, ∀ l ∈ h.stops base, ¬ h.namedLocation base ++ more <+: l) :
    ∃ after, sumOver removeEntry (items.map base.descend) h = (.ok ⟨0, items.length⟩, after) ∧
      Cleared h after base items := by
  have count : (⟨0, items.length⟩ : Changes) = total (items.map fun _ => ⟨0, 1⟩) := by
    have counted := total_toNat (fun _ => false) (fun _ => true) items
    rw [List.countP_false, List.countP_true] at counted
    exact counted.symm
  rw [sumOver_map, count]
  refine exists_sumOver (I := fun done left => Cleared h left base done)
    (fun done more rest split left cleared => ?_) (.nil tidy)
  have hmore : more ∈ items := by simp [split]
  have hdone : ∀ first ∈ done, first ∈ items := fun first hfirst => by simp [split, hfirst]
  obtain ⟨nonempty, fits, stands⟩ := each more hmore
  rw [split, List.pairwise_append] at order
  have fresh : ∀ first ∈ done, ¬ first <+: more := fun first hfirst =>
    order.2.2 first hfirst more List.mem_cons_self
  obtain ⟨stands, removed⟩ := cleared.removeEntry_eq reaches
    (fun first hfirst => apart first (hdone first hfirst)) fresh fits stands
  exact ⟨_, removed, cleared.concat nonempty stands⟩

/-! ## What is left over -/

/-- The places below the destination that the source does not have, each after those below it. -/
def leftovers (h : Host) (source destination : Path) : List Location :=
  (h.tree.postorder (h.namedLocation destination) (maxPathLength + 1) []).filter fun place =>
    (h.below source place).isNone

theorem extraneous_eq (tidy : h.tree.Tidy) (reaches : h.Reaches destination)
    (fits : ∀ place, h.below destination place ≠ none → destination.Fits place)
    (stands : h.below destination [] ≠ none) (reaches' : h.Reaches source)
    (fits' : ∀ place, h.below source place ≠ none → source.Fits place) :
    extraneous h source destination = (leftovers h source destination).map destination.descend := by
  have contents : contentsFirst h (maxPathLength + 1) (destination.descend []) = _ :=
    contentsFirst_descend reaches fits stands
  rw [Path.descend_nil] at contents
  rw [extraneous, contents, List.filter_map, leftovers]
  refine congrArg _ (List.filter_congr fun place hplace => ?_)
  obtain ⟨rest, nonempty, -, rfl, found⟩ := Tree.mem_postorder_iff.1 hplace
  have names : ∀ name ∈ place, IsEntryName name := fun name hname =>
    (tidy.kept found name (List.mem_append_right _ hname)).entry
  rw [Function.comp_apply, target_descend destination source nonempty names]
  cases ours : h.below source place with
  | none =>
    have absent : ¬ h.exists? (source.descend place) = true := by
      rw [exists?_iff, namedLocation_descend h source names, ← below, ours]
      exact fun there => there.2 rfl
    simpa using absent
  | some node =>
    rw [exists?_descend reaches' (fits' place (by simp [ours])), ours]
    rfl

section Leftovers

variable {mid : Host} (ready : Ready h source destination)
  (copied : Copied h mid source destination (places h source))
include ready copied

/-- Nothing is left below a file that was placed. -/
theorem below_eq_none_of_file {first : Location} {file : File}
    (ours : h.below source first = some (.file file)) (inside : first <+: place)
    (other : first ≠ place) : mid.below destination place = none := by
  obtain ⟨rest, rfl⟩ := inside
  have placed := copied.placed first
    ((mem_places_iff ready).2 ⟨ready.ne_nil (by rw [ours]; nofun), by rw [ours]; nofun⟩) _ ours
  refine below_append_eq_none ?_ fun empty => other (by rw [empty, List.append_nil])
  rw [placed]
  exact replicaOf_file_ne_directory h.clock file _

/-- What the source does not have is left as it was, where no file was placed above it. -/
theorem below_eq_of_no_file (theirs : h.below source place = none)
    (clear : ∀ first, first <+: place → ∀ file, h.below source first ≠ some (.file file)) :
    mid.below destination place = h.below destination place := by
  refine copied.kept place (fun hplace => ((mem_places_iff ready).1 hplace).2 theirs)
    fun first hfirst inside => ?_
  obtain ⟨node, ours⟩ := Option.ne_none_iff_exists'.1 ((mem_places_iff ready).1 hfirst).2
  cases node with
  | directory => exact ours
  | file file => exact absurd ours (clear first inside file)

/-- No file was placed above what is left over. -/
theorem ne_file_of_stands {first : Location} (theirs : h.below source place = none)
    (stands : mid.below destination place ≠ none) (inside : first <+: place) (file : File) :
    h.below source first ≠ some (.file file) := by
  intro ours
  refine stands (below_eq_none_of_file ready copied ours inside ?_)
  rintro rfl
  rw [theirs] at ours
  cases ours

theorem stood_of_copied (stands : mid.below destination place ≠ none) :
    h.below source place ≠ none ∨ h.below destination place ≠ none := by
  refine or_iff_not_imp_left.2 fun theirs => ?_
  rw [not_not] at theirs
  rwa [← below_eq_of_no_file ready copied theirs fun first inside file =>
    ne_file_of_stands ready copied theirs stands inside file]

theorem fits_of_copied (stands : mid.below destination place ≠ none) : destination.Fits place :=
  (stood_of_copied ready copied stands).elim ready.fits_copy ready.fits_destination

theorem mem_leftovers_iff :
    place ∈ leftovers mid source destination ↔
      mid.below destination place ≠ none ∧ h.below source place = none := by
  have reaches := (copied.reaches ready).2
  rw [leftovers, List.mem_filter, Tree.mem_postorder_iff, copied.below_source ready,
    Option.isNone_iff_eq_none]
  refine and_congr_left fun theirs => ⟨?_, fun stands => ?_⟩
  · rintro ⟨rest, -, -, rfl, stands⟩
    exact stands
  · have short := (fits_of_copied ready copied stands).length_le (text_ne_empty reaches.taken)
    exact ⟨place, ready.ne_nil (by rw [theirs]; nofun), Nat.le_succ_of_le short, rfl, stands⟩

/-- Everything left over is removed. -/
theorem exists_removeExtraneous :
    ∃ after, removeExtraneous source destination mid =
        (.ok ⟨0, (leftovers mid source destination).length⟩, after) ∧
      Cleared mid after destination (leftovers mid source destination) := by
  obtain ⟨reaches', reaches⟩ := copied.reaches ready
  have same := copied.below_source ready
  have fits' (place : Location) (stands : mid.below source place ≠ none) : source.Fits place :=
    ready.fits_source (same place ▸ stands)
  have top := copied.below_destination ready.below_source ready.below_destination
  rw [removeExtraneous, extraneous_eq copied.tidy reaches
    (fun place stands => fits_of_copied ready copied stands) (by rw [top]; nofun) reaches' fits']
  refine exists_removeAll copied.tidy reaches ((Tree.pairwise_postorder copied.tidy).filter _)
    (fun more hmore => ?_) fun more hmore l hl inside => ?_
  · obtain ⟨stands, theirs⟩ := (mem_leftovers_iff ready copied).1 hmore
    exact ⟨ready.ne_nil (by rw [theirs]; nofun), fits_of_copied ready copied stands, stands⟩
  · -- What a path leads through is a directory of the source, so nothing above it is left over.
    obtain ⟨rest, rfl⟩ := inside
    rw [copied.stops_eq, copied.namedLocation_eq, List.append_assoc] at hl
    have ours := ready.steady _ (List.mem_append_right _ hl)
    have theirs := ((mem_leftovers_iff ready copied).1 hmore).2
    have inside : h.below source (more ++ rest) ≠ none := by rw [ours]; nofun
    exact below_ne_none_of_append inside theirs

/-- In the end there is a replica of the source. -/
theorem below_of_cleared {after : Host}
    (cleared : Cleared mid after destination (leftovers mid source destination))
    (place : Location) :
    after.below destination place = (h.below source place).bind fun ours =>
      replicaOf h.clock ours (h.below destination place) := by
  cases ours : h.below source place with
  | none =>
    by_cases clear : ∀ first ∈ leftovers mid source destination, ¬ first <+: place
    · rw [cleared.below_eq clear, Option.bind_none]
      by_contra stands
      exact clear place ((mem_leftovers_iff ready copied).2 ⟨stands, ours⟩) List.prefix_rfl
    · push Not at clear
      obtain ⟨first, hfirst, inside⟩ := clear
      exact cleared.gone first hfirst place inside
  | some node =>
    have clear : ∀ first ∈ leftovers mid source destination, ¬ first <+: place := by
      rintro first hfirst ⟨rest, rfl⟩
      have inside : h.below source (first ++ rest) ≠ none := by rw [ours]; nofun
      exact below_ne_none_of_append inside ((mem_leftovers_iff ready copied).1 hfirst).2
    rw [cleared.below_eq clear, Option.bind_some]
    by_cases empty : place = []
    · subst empty
      rw [ready.below_source] at ours
      obtain rfl := Option.some.inj ours
      rw [replicaOf_directory]
      exact copied.below_destination ready.below_source ready.below_destination
    · exact copied.placed place ((mem_places_iff ready).2 ⟨empty, by rw [ours]; nofun⟩) node ours

end Leftovers

end BuildPlanner.Replica
