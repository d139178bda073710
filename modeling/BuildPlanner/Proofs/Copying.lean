import BuildPlanner.Proofs.Placing

/-!
# Copying a directory

What the source has is placed at the destination entry by entry, each directory before what is in
it.  After some entries (`Replica.Copied`) these stand at the destination as they are to, nothing is
left below a file that was placed, and everything else is as it was.

* `Replica.exists_sumOver` is the induction over activities that are done one after the other.
* `Replica.exists_copyEntries` walks through the source and keeps whatever one placement keeps.
* `Replica.Copied.exists_place` is one placement.
-/

namespace BuildPlanner.Replica

open Host

/-! ## Sums -/

/-- All changes together. -/
def total (changes : List Changes) : Changes :=
  changes.foldr Changes.add ⟨0, 0⟩

theorem total_append (changes more : List Changes) :
    total (changes ++ more) = (total changes).add (total more) := by
  induction changes with
  | nil => simp [total, Changes.add]
  | cons first changes ih =>
    have first_add : total (first :: changes ++ more) = first.add (total (changes ++ more)) := rfl
    rw [first_add, ih]
    simp [total, Changes.add, Nat.add_assoc]

theorem total_flatMap {α : Type} (items : List α) (f : α → List Changes) :
    total (items.flatMap f) = total (items.map fun item => total (f item)) := by
  induction items with
  | nil => rfl
  | cons item items ih =>
    rw [List.flatMap_cons, total_append, ih]
    rfl

/-- What an item changes by one at most is counted. -/
theorem total_toNat {α : Type} (p q : α → Bool) (items : List α) :
    total (items.map fun item => ⟨(p item).toNat, (q item).toNat⟩) =
      ⟨items.countP p, items.countP q⟩ := by
  induction items with
  | nil => rfl
  | cons item items ih =>
    rw [List.map_cons, List.countP_cons, List.countP_cons, total, List.foldr_cons, ← total, ih,
      Changes.add, Nat.add_comm, Nat.add_comm (q item).toNat]
    cases p item <;> cases q item <;> rfl

/-- What every activity of a sum keeps, the sum keeps; its changes are theirs together. -/
theorem exists_sumOver {α : Type} {act : α → Activity Failure Changes} {cost : α → Changes}
    {I : List α → Host → Prop} {items : List α}
    (step : ∀ before item after, items = before ++ item :: after → ∀ h, I before h →
      ∃ left, act item h = (.ok (cost item), left) ∧ I (before ++ [item]) left)
    {h : Host} (start : I [] h) :
    ∃ after, sumOver act items h = (.ok (total (items.map cost)), after) ∧ I items after := by
  suffices all : ∀ rest before, items = before ++ rest → ∀ h, I before h →
      ∃ after, sumOver act rest h = (.ok (total (rest.map cost)), after) ∧ I items after from
    all items [] rfl h start
  intro rest
  induction rest with
  | nil =>
    rintro before rfl h kept
    exact ⟨h, rfl, (List.append_nil before).symm ▸ kept⟩
  | cons item rest ih =>
    intro before split h kept
    obtain ⟨left, done, kept⟩ := step before item rest split h kept
    obtain ⟨after, others, kept⟩ := ih (before ++ [item]) (by simp [split]) left kept
    refine ⟨after, ?_, kept⟩
    rw [sumOver, Activity.bind_run, done]
    dsimp only
    rw [Activity.bind_run, others]
    rfl

theorem sumOver_map {α β : Type} (act : β → Activity Failure Changes) (f : α → β)
    (items : List α) : sumOver act (items.map f) = sumOver (fun item => act (f item)) items := by
  induction items with
  | nil => rfl
  | cons item items ih => rw [List.map_cons, sumOver, sumOver, ih]

/-! ## The walk -/

section Walk

variable {h : Host} {source destination : Path} {whole : List Location}
  {I : List Location → Host → Prop}

/-- The changes by a place of the source that something stands at. -/
def changeOf (h : Host) (source destination : Path) (place : Location) : Changes :=
  changeAt ((h.below source place).getD .directory) (h.below destination place)

theorem preorder_eq_nil {base place : Location} (fuel : Nat)
    (other : h.tree.node? (base ++ place) ≠ some .directory) :
    h.tree.preorder base fuel place = [] := by
  cases fuel with
  | zero => rfl
  | succ fuel => rw [Tree.preorder, Tree.names_eq_nil other, List.flatMap_nil]

/-- A walk through the source keeps what each placement keeps, if it lists what there was at
first. -/
theorem exists_copyEntries (tidy : h.tree.Tidy)
    (listed : ∀ done left more, I done left → h.below source more = some .directory →
      entries left (source.descend more) =
        (h.tree.names (h.namedLocation source ++ more)).map fun name =>
          entryAt h source (more ++ [name]))
    (step : ∀ done more rest, whole = done ++ more :: rest → ∀ node,
      h.below source more = some node → ∀ left, I done left →
        ∃ after, placeNode source destination more node left =
          (.ok (changeOf h source destination more), after) ∧ I (done ++ [more]) after)
    (fuel : Nat) {more : Location} {done rest : List Location}
    (position : whole = done ++ h.tree.preorder (h.namedLocation source) fuel more ++ rest)
    {left : Host} (kept : I done left) :
    ∃ after, copyEntries source destination fuel
        ((h.tree.names (h.namedLocation source ++ more)).map fun name =>
          entryAt h source (more ++ [name])) left =
        (.ok (total ((h.tree.preorder (h.namedLocation source) fuel more).map
          (changeOf h source destination))), after) ∧
      I (done ++ h.tree.preorder (h.namedLocation source) fuel more) after := by
  induction fuel generalizing more done rest left with
  | zero =>
    refine ⟨left, ?_, by simpa [Tree.preorder] using kept⟩
    rw [copyEntries]
    rfl
  | succ fuel ih =>
    rw [copyEntries, sumOver_map, Tree.preorder, List.map_flatMap, total_flatMap]
    rw [Tree.preorder] at position
    -- After some names all places below them are done.
    refine exists_sumOver (I := fun before => I (done ++ before.flatMap fun name =>
      (more ++ [name]) :: h.tree.preorder (h.namedLocation source) fuel (more ++ [name])))
      (fun before name after split left kept => ?_) (by simpa using kept)
    have hname : name ∈ h.tree.names (h.namedLocation source ++ more) := by simp [split]
    rw [Tree.mem_names, List.append_assoc] at hname
    have names : ∀ other ∈ more ++ [name], IsEntryName other := fun other hother =>
      (tidy.kept hname other (List.mem_append_right _ hother)).entry
    have target := target_descend source destination (by simp) names
    rw [split] at position
    rw [List.flatMap_append, List.flatMap_singleton, ← List.append_assoc, List.map_cons]
    obtain ⟨node, stands⟩ := Option.ne_none_iff_exists'.1 hname
    obtain ⟨middle, placed, reached⟩ := step _ (more ++ [name]) _ (by simpa using position) node
      stands left kept
    cases node with
    | file file =>
      rw [preorder_eq_nil fuel (by simp [stands])]
      refine ⟨middle, ?_, by simpa using reached⟩
      rw [placeNode, ← target] at placed
      rw [copyEntries.copyEntry, entryAt, below, stands]
      exact placed
    | directory =>
      obtain ⟨after, inner, reached⟩ := ih (by simpa using position) reached
      refine ⟨after, ?_, by simpa using reached⟩
      rw [placeNode, ← target] at placed
      rw [copyEntries.copyEntry, entryAt, below, stands]
      dsimp only [Option.getD_some]
      rw [listed _ left _ kept stands, Activity.bind_run, placed]
      dsimp only
      rw [Activity.bind_run, inner]
      rfl

end Walk

/-! ## What is needed -/

/-- A source and a destination of which neither lies in the other.  Every path below them that is met
can be taken, and what one of the two paths leads through below the destination is a directory of the
source too. -/
structure Apart (h : Host) (source destination : Path) : Prop where
  notInside : ¬ h.namedLocation source <+: h.namedLocation destination
  notAround : ¬ h.namedLocation destination <+: h.namedLocation source
  sourceTaken : ∀ place, h.below source place ≠ none → pathFault? (source.descend place) = none
  destinationTaken : ∀ place, h.below source place ≠ none ∨ h.below destination place ≠ none →
    pathFault? (destination.descend place) = none
  steady : ∀ place, h.namedLocation destination ++ place ∈ h.stops source ++ h.stops destination →
    h.below source place = some .directory

/-- A source and a destination between which copying meets no fault. -/
structure Ready (h : Host) (source destination : Path) : Prop extends
    Apart h source destination where
  tidy : h.tree.Tidy
  fromDirectory : h.isDirectory source = true
  toDirectory : h.isDirectory destination = true

namespace Ready

variable {h : Host} {source destination : Path} {place : Location}

theorem reaches_source (ready : Ready h source destination) : h.Reaches source :=
  (isDirectory_iff.1 ready.fromDirectory).1

theorem reaches_destination (ready : Ready h source destination) : h.Reaches destination :=
  (isDirectory_iff.1 ready.toDirectory).1

theorem below_source (ready : Ready h source destination) : h.below source [] = some .directory := by
  rw [below, List.append_nil]
  exact (isDirectory_iff.1 ready.fromDirectory).2

theorem below_destination (ready : Ready h source destination) :
    h.below destination [] = some .directory := by
  rw [below, List.append_nil]
  exact (isDirectory_iff.1 ready.toDirectory).2

theorem kept_source (ready : Ready h source destination) (stands : h.below source place ≠ none) :
    ∀ name ∈ place, IsKeptName name := fun name hname =>
  ready.tidy.kept stands name (List.mem_append_right _ hname)

theorem fits_source (ready : Ready h source destination) (stands : h.below source place ≠ none) :
    source.Fits place :=
  ⟨ready.kept_source stands, ready.sourceTaken place stands⟩

theorem fits_copy (ready : Ready h source destination) (stands : h.below source place ≠ none) :
    destination.Fits place :=
  ⟨ready.kept_source stands, ready.destinationTaken place (.inl stands)⟩

theorem fits_destination (ready : Ready h source destination)
    (stands : h.below destination place ≠ none) : destination.Fits place where
  kept name hname := ready.tidy.kept stands name (List.mem_append_right _ hname)
  taken := ready.destinationTaken place (.inr stands)

theorem ne_nil (ready : Ready h source destination)
    (other : h.below source place ≠ some .directory) : place ≠ [] := by
  rintro rfl
  exact other ready.below_source

/-- Nothing of the source lies in the destination. -/
theorem source_apart (ready : Ready h source destination) (place : Location) :
    ¬ h.namedLocation destination <+: h.namedLocation source ++ place := fun inside =>
  (List.prefix_or_prefix_of_prefix inside (List.prefix_append _ _)).elim ready.notAround
    ready.notInside

/-- Both paths lead where they led, if nothing but the destination changes, and directories of the
source stay directories there. -/
theorem reaches_of_outside {after : Host} (ready : Ready h source destination)
    (others : after = { h with tree := after.tree })
    (outside : ∀ l, ¬ h.namedLocation destination <+: l → after.tree.node? l = h.tree.node? l)
    (directories : ∀ place, h.below source place = some .directory →
      h.below destination place = some .directory →
      after.below destination place = some .directory) :
    after.Reaches source ∧ after.Reaches destination := by
  have start : after.namedLocation destination = h.namedLocation destination := by
    rw [others]
    rfl
  have stays (l : Location) (hl : l ∈ h.stops source ++ h.stops destination)
      (stands : h.tree.node? l = some .directory) : after.tree.node? l = some .directory := by
    by_cases inside : h.namedLocation destination <+: l
    · obtain ⟨place, rfl⟩ := inside
      rw [← start]
      exact directories place (ready.steady place hl) stands
    · rw [outside l inside, stands]
  have same : after.workingDirectory = h.workingDirectory := by rw [others]
  exact ⟨ready.reaches_source.of_directories same fun l hl => stays l (List.mem_append_left _ hl),
    ready.reaches_destination.of_directories same fun l hl =>
      stays l (List.mem_append_right _ hl)⟩

end Ready

/-! ## The copy of a part -/

/-- A host on which some places of the source were placed at the destination. -/
structure Copied (h after : Host) (source destination : Path) (done : List Location) : Prop where
  others : after = { h with tree := after.tree }
  tidy : after.tree.Tidy
  outside : ∀ l, ¬ h.namedLocation destination <+: l → after.tree.node? l = h.tree.node? l
  placed : ∀ place ∈ done, ∀ ours, h.below source place = some ours →
    after.below destination place = replicaOf h.clock ours (h.below destination place)
  kept : ∀ place, place ∉ done →
    (∀ first ∈ done, first <+: place → h.below source first = some .directory) →
    after.below destination place = h.below destination place
  still : (∀ place ∈ done, ∀ ours, h.below source place = some ours →
    isCurrent ours (h.below destination place) = true) → after = h

/-- What something of the source stands below is a directory of it. -/
theorem eq_directory_of_prefix {h : Host} {source : Path} {first place : Location}
    (stands : h.below source place ≠ none) (inside : first <+: place) (other : first ≠ place) :
    h.below source first = some .directory := by
  obtain ⟨rest, rfl⟩ := inside
  exact below_eq_directory stands fun empty => other (by rw [empty, List.append_nil])

namespace Copied

variable {h left : Host} {source destination : Path} {done rest : List Location}
  {more place : Location} {ours : Node}

theorem nil (tidy : h.tree.Tidy) : Copied h h source destination [] where
  others := rfl
  tidy := tidy
  outside _ _ := rfl
  placed := nofun
  kept _ _ _ := rfl
  still _ := rfl

theorem namedLocation_eq (copied : Copied h left source destination done) (p : Path) :
    left.namedLocation p = h.namedLocation p := by
  rw [copied.others]
  rfl

theorem stops_eq (copied : Copied h left source destination done) (p : Path) :
    left.stops p = h.stops p := by
  rw [copied.others]
  rfl

theorem below_source (copied : Copied h left source destination done)
    (ready : Ready h source destination) (place : Location) :
    left.below source place = h.below source place := by
  rw [below, copied.namedLocation_eq]
  exact copied.outside _ (ready.source_apart place)

/-- A directory of both stays one. -/
theorem below_destination (copied : Copied h left source destination done)
    (ours : h.below source place = some .directory)
    (theirs : h.below destination place = some .directory) :
    left.below destination place = some .directory := by
  by_cases hplace : place ∈ done
  · rw [copied.placed place hplace _ ours, theirs]
    rfl
  · rw [copied.kept place hplace fun first hfirst inside => ?_, theirs]
    refine eq_directory_of_prefix (by rw [ours]; nofun) inside ?_
    rintro rfl
    exact hplace hfirst

theorem reaches (copied : Copied h left source destination done)
    (ready : Ready h source destination) : left.Reaches source ∧ left.Reaches destination :=
  ready.reaches_of_outside copied.others copied.outside fun _ => copied.below_destination

/-- What was placed is settled, and all else stays as it was. -/
theorem concat {after : Host} (copied : Copied h left source destination done)
    (fresh : ∀ first ∈ done, ¬ more <+: first) (stands : h.below source more = some ours)
    (settled : Settled left after (h.namedLocation destination ++ more) ours
      (h.below destination more))
    (theirs : left.below destination more = h.below destination more) :
    Copied h after source destination (done ++ [more]) := by
  have among {place : Location} : place ∈ done ++ [more] ↔ place ∈ done ∨ place = more := by simp
  have same {node : Node} (found : h.below source more = some node) : node = ours :=
    Option.some.inj (found.symm.trans stands)
  have clock : left.clock = h.clock := by rw [copied.others]
  cases current : isCurrent ours (h.below destination more) with
  | true =>
    obtain rfl := settled.stays current
    refine ⟨copied.others, copied.tidy, copied.outside, fun place hplace node found => ?_,
      fun place hplace clear => ?_, fun all => copied.still fun place hplace => ?_⟩
    · obtain hplace | rfl := among.1 hplace
      · exact copied.placed place hplace node found
      · rw [theirs, same found, replicaOf, if_pos current]
    · exact copied.kept place (fun hdone => hplace (among.2 (.inl hdone)))
        fun first hfirst => clear first (among.2 (.inl hfirst))
    · exact all place (among.2 (.inl hplace))
  | false =>
    have puts := settled.comes current
    have outside : ∀ l, ¬ h.namedLocation destination <+: l →
        after.tree.node? l = h.tree.node? l := by
      intro l hl
      have apart : ¬ h.namedLocation destination ++ more <+: l := fun inside =>
        hl ((List.prefix_append _ _).trans inside)
      rw [puts.view_of_apart apart, copied.outside l hl]
    rw [← copied.namedLocation_eq] at puts
    refine ⟨?_, puts.tidy copied.tidy, outside, fun place hplace node found => ?_,
      fun place hplace clear => ?_, fun all => ?_⟩
    · rw [puts.others, copied.others]
    · obtain hplace | rfl := among.1 hplace
      · have apart := fresh place hplace
        rw [puts.below_eq, if_neg (Tree.ne_of_not_within apart).symm, if_neg apart,
          copied.placed place hplace node found]
      · rw [puts.below_eq, if_pos rfl, same found, replicaOf, if_neg (by simp [current]), clock]
    · obtain ⟨hplace, other⟩ := not_or.1 (mt among.2 hplace)
      rw [puts.below_eq, if_neg other]
      split_ifs with inside
      · -- Nothing stands below what is not a directory.
        obtain rfl := same (clear more (among.2 (.inr rfl)) inside)
        obtain ⟨rest, rfl⟩ := inside
        have different : h.below destination more ≠ some .directory := by
          simpa [isCurrent] using current
        exact (below_append_eq_none different fun empty => other (by simp [empty])).symm
      · exact copied.kept place hplace fun first hfirst => clear first (among.2 (.inl hfirst))
    · have whole := all more (among.2 (.inr rfl)) ours stands
      rw [current] at whole
      cases whole

end Copied

/-! ## The copy of all -/

/-- The places below the source, in the order of the walk. -/
def places (h : Host) (source : Path) : List Location :=
  h.tree.preorder (h.namedLocation source) (maxPathLength + 1) []

section All

variable {h left : Host} {source destination : Path} {done rest : List Location}
  {more place : Location} {name : String} {ours : Node}

theorem mem_places_iff (ready : Ready h source destination) :
    place ∈ places h source ↔ place ≠ [] ∧ h.below source place ≠ none := by
  rw [places, Tree.mem_preorder_iff]
  constructor
  · rintro ⟨rest, nonempty, -, rfl, stands⟩
    exact ⟨nonempty, stands⟩
  · rintro ⟨nonempty, stands⟩
    have short := (ready.fits_source stands).length_le (text_ne_empty ready.reaches_source.taken)
    exact ⟨place, nonempty, Nat.le_succ_of_le short, rfl, stands⟩

theorem pairwise_places (ready : Ready h source destination) :
    (places h source).Pairwise fun first second => ¬ second <+: first :=
  Tree.pairwise_preorder ready.tidy

theorem nodup_places (ready : Ready h source destination) : (places h source).Nodup :=
  (pairwise_places ready).imp fun apart => (Tree.ne_of_not_within apart).symm

theorem not_prefix_of_places (ready : Ready h source destination)
    (position : places h source = done ++ more :: rest) : ∀ first ∈ done, ¬ more <+: first := by
  have order := pairwise_places ready
  rw [position, List.pairwise_append] at order
  exact fun first hfirst => order.2.2 first hfirst more List.mem_cons_self

/-- A directory was placed before what is in it. -/
theorem mem_of_places (ready : Ready h source destination)
    (position : places h source = done ++ (more ++ [name]) :: rest) (nonempty : more ≠ []) :
    more ∈ done := by
  have order := pairwise_places ready
  rw [position, List.pairwise_append, List.pairwise_cons] at order
  have inner : more ++ [name] ∈ places h source := by simp [position]
  have stands := ((mem_places_iff ready).1 inner).2
  have member : more ∈ places h source := (mem_places_iff ready).2
    ⟨nonempty, by rw [below_eq_directory stands (List.cons_ne_nil name [])]; nofun⟩
  rw [position, List.mem_append, List.mem_cons] at member
  obtain member | same | later := member
  · exact member
  · exact absurd (same ▸ List.prefix_rfl) (concat_not_within more name)
  · exact absurd (List.prefix_append more [name]) (order.2.1.1 more later)

theorem replicaOf_directory (clock : Int) (theirs : Option Node) :
    replicaOf clock .directory theirs = some .directory := by
  rw [replicaOf]
  split_ifs with current
  · simpa [isCurrent] using current
  · rfl

theorem replicaOf_file_ne_directory (clock : Int) (file : File) (theirs : Option Node) :
    replicaOf clock (.file file) theirs ≠ some .directory := by
  rw [replicaOf]
  split_ifs with current
  · rintro rfl
    cases current
  · nofun

/-- One more place of the source is placed. -/
theorem Copied.exists_place (copied : Copied h left source destination done)
    (ready : Ready h source destination) (position : places h source = done ++ more :: rest)
    (stands : h.below source more = some ours) :
    ∃ after, placeNode source destination more ours left =
        (.ok (changeOf h source destination more), after) ∧
      Copied h after source destination (done ++ [more]) := by
  have found : h.below source more ≠ none := by rw [stands]; nofun
  have fresh := not_prefix_of_places ready position
  have member : more ∈ places h source := by simp [position]
  have nonempty := ((mem_places_iff ready).1 member).1
  have unplaced : more ∉ done := fun hmore => fresh more hmore List.prefix_rfl
  have theirs : left.below destination more = h.below destination more := by
    refine copied.kept more unplaced fun first hfirst inside => ?_
    refine eq_directory_of_prefix found inside ?_
    rintro rfl
    exact unplaced hfirst
  obtain ⟨reaches', reaches⟩ := copied.reaches ready
  obtain ⟨parent, name, rfl⟩ := (List.eq_nil_or_concat' more).resolve_left nonempty
  have above : left.below destination parent = some .directory := by
    by_cases empty : parent = []
    · rw [empty]
      exact copied.below_destination ready.below_source ready.below_destination
    · rw [copied.placed parent (mem_of_places ready position empty) _
        (below_eq_directory found (List.cons_ne_nil name [])), replicaOf_directory]
  have change : changeOf h source destination (parent ++ [name]) =
      changeAt ours (left.below destination (parent ++ [name])) := by
    rw [changeOf, stands, theirs]
    rfl
  rw [change]
  cases ours with
  | directory =>
    obtain ⟨after, made, settled⟩ := exists_placeDirectory reaches (ready.fits_copy found) above
    rw [theirs, copied.namedLocation_eq] at settled
    exact ⟨after, made, copied.concat fresh stands settled theirs⟩
  | file file =>
    have disjoint : ¬ left.namedLocation destination <+: left.namedLocation source ∧
        ¬ left.namedLocation source <+: left.namedLocation destination := by
      rw [copied.namedLocation_eq, copied.namedLocation_eq]
      exact ⟨ready.notAround, ready.notInside⟩
    -- What a path leads through is a directory of the source, so no file of it is above.
    have apart : ∀ k, k ∈ left.stops source ∨ k ∈ left.stops destination →
        ¬ left.namedLocation destination ++ (parent ++ [name]) <+: k := by
      rintro k hk ⟨rest, rfl⟩
      rw [copied.stops_eq, copied.stops_eq, copied.namedLocation_eq, List.append_assoc] at hk
      have inside := ready.steady _ (List.mem_append.2 hk)
      by_cases empty : rest = []
      · rw [empty, List.append_nil, stands] at inside
        cases inside
      · rw [below_append_eq_none (by rw [stands]; nofun) empty] at inside
        cases inside
    obtain ⟨after, made, settled⟩ := exists_placeFile reaches (ready.fits_copy found) above reaches'
      (ready.fits_source found) (by rw [copied.below_source ready, stands]) disjoint apart
    rw [theirs, copied.namedLocation_eq] at settled
    exact ⟨after, made, copied.concat fresh stands settled theirs⟩

/-- Everything is copied. -/
theorem exists_copyAll (ready : Ready h source destination) :
    ∃ after, copyAll source destination h =
        (.ok (total ((places h source).map (changeOf h source destination))), after) ∧
      Copied h after source destination (places h source) := by
  have listed (done : List Location) (left : Host) (more : Location)
      (copied : Copied h left source destination done)
      (stands : h.below source more = some .directory) :
      entries left (source.descend more) =
        (h.tree.names (h.namedLocation source ++ more)).map fun name =>
          entryAt h source (more ++ [name]) := by
    have reaches := (copied.reaches ready).1
    have same := copied.below_source ready
    have names : left.tree.names (left.namedLocation source ++ more) =
        h.tree.names (h.namedLocation source ++ more) :=
      copied.tidy.names_eq ready.tidy fun name => by
        rw [List.append_assoc, List.append_assoc]
        exact iff_of_eq (congrArg (· ≠ none) (same (more ++ [name])))
    rw [entries_descend reaches (fun place stands => ready.fits_source (same place ▸ stands))
      (by rw [same, stands]; nofun), names]
    simp only [entryAt, same]
  have step (done : List Location) (more : Location) (rest : List Location)
      (position : places h source = done ++ more :: rest) (node : Node)
      (stands : h.below source more = some node) (left : Host)
      (copied : Copied h left source destination done) :
      ∃ after, placeNode source destination more node left =
          (.ok (changeOf h source destination more), after) ∧
        Copied h after source destination (done ++ [more]) :=
    copied.exists_place ready position stands
  have whole : places h source =
      [] ++ h.tree.preorder (h.namedLocation source) (maxPathLength + 1) [] ++ [] := by
    simp [places]
  obtain ⟨after, copied, reached⟩ := exists_copyEntries ready.tidy listed step (maxPathLength + 1)
    whole (Copied.nil ready.tidy)
  refine ⟨after, ?_, reached⟩
  rw [← listed [] h [] (.nil ready.tidy) ready.below_source] at copied
  obtain ⟨node, found⟩ : ∃ node, h.node source = .ok node :=
    ⟨.directory, node_eq_ok_iff.2 (isDirectory_iff.1 ready.fromDirectory)⟩
  rw [copyAll, found]
  exact copied

end All

end BuildPlanner.Replica
