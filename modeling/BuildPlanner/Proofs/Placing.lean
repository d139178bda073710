import BuildPlanner.Proofs.Listings
import BuildPlanner.Proofs.Writing

/-!
# Changes below a base

An entry below a base is removed, made a directory or copied through its path, and the view of the
tree says what this changes (`Host.Puts`): the entry, what lay below it, and nothing else.
-/

namespace BuildPlanner

namespace Host

variable {h after : Host} {base p : Path} {more place : Location} {name : String}

/-! ## Puts -/

/-- A host on which a node stands at a location, with nothing below it, and all else is as it was. -/
structure Puts (h after : Host) (l : Location) (node : Node) : Prop where
  others : after = { h with tree := after.tree }
  tidy : h.tree.Tidy → after.tree.Tidy
  view : ∀ k, after.tree.node? k =
    if k = l then some node else if l <+: k then none else h.tree.node? k

/-- A host without a location and all that lay below it. -/
def without (h : Host) (l : Location) : Host :=
  { h with tree := h.tree.erase l }

@[simp] theorem namedLocation_without (h : Host) (l : Location) (p : Path) :
    (h.without l).namedLocation p = h.namedLocation p := rfl

theorem node?_without {l : Location} (nonempty : l ≠ []) (k : Location) :
    (h.without l).tree.node? k = if l <+: k then none else h.tree.node? k := by
  rw [without, Tree.node?_erase _ _ _ nonempty]
  simp only [List.isPrefixOf_iff_prefix]

theorem below_without (nonempty : place ≠ []) (k : Location) :
    (h.without (h.namedLocation base ++ place)).below base k =
      if place <+: k then none else h.below base k := by
  have there : h.namedLocation base ++ place ≠ [] := by simp [nonempty]
  rw [below, below, node?_without there]
  simp only [namedLocation_without, List.prefix_append_right_inj]

theorem tidy_without (tidy : h.tree.Tidy) {l : Location} (stands : h.tree.node? l ≠ none) :
    (h.without l).tree.Tidy :=
  tidy.erase (tidy.kept stands)

theorem puts_put {directory : Location} (node : Node) (kept : IsKeptName name)
    (above : h.tree.node? directory = some .directory)
    (free : h.tree.node? (directory ++ [name]) ≠ some .directory) :
    h.Puts (h.put (directory ++ [name]) node) (directory ++ [name]) node where
  others := rfl
  tidy tidy := by
    refine tidy.put (List.forall_mem_append.2 ⟨tidy.kept (by rw [above]; nofun), ?_⟩) _
    simpa using kept
  view k := by
    rw [Host.put, Tree.node?_put node above free]
    split_ifs with same inside
    · rfl
    · obtain ⟨rest, rfl⟩ := inside
      refine Tree.node?_append_eq_none free fun empty => same ?_
      rw [empty, List.append_nil]
    · rfl

/-- What stood at a location may have been removed before something is put there. -/
theorem Puts.of_without {l : Location} {node : Node} (nonempty : l ≠ [])
    (stands : h.tree.node? l ≠ none) (puts : (h.without l).Puts after l node) :
    h.Puts after l node where
  others := by
    rw [puts.others]
    rfl
  tidy tidy := puts.tidy (tidy_without tidy stands)
  view k := by
    rw [puts.view, node?_without nonempty]
    split_ifs <;> rfl

theorem Puts.view_of_apart {l k : Location} {node : Node} (puts : h.Puts after l node)
    (apart : ¬ l <+: k) : after.tree.node? k = h.tree.node? k := by
  rw [puts.view, if_neg (Tree.ne_of_not_within apart).symm, if_neg apart]

theorem Puts.below_eq {node : Node} (puts : h.Puts after (h.namedLocation base ++ more) node)
    (place : Location) :
    after.below base place =
      if place = more then some node else if more <+: place then none else h.below base place := by
  have start : after.namedLocation base = h.namedLocation base := by
    rw [puts.others]
    rfl
  rw [below, start, puts.view]
  simp only [List.append_cancel_left_eq, List.prefix_append_right_inj, below]

theorem Reaches.without {l : Location} (reaches : h.Reaches p) (nonempty : l ≠ [])
    (apart : ∀ k ∈ h.stops p, ¬ l <+: k) : (h.without l).Reaches p := by
  refine reaches.of_directories rfl fun k hk stands => ?_
  rw [node?_without nonempty, if_neg (apart k hk), stands]

/-- A path does not lead through what is not a directory. -/
theorem Reaches.not_through {l : Location} (reaches : h.Reaches p)
    (other : h.tree.node? l ≠ some .directory) : ∀ k ∈ h.stops p, ¬ l <+: k := by
  rintro k hk ⟨rest, rfl⟩
  have stands := reaches.directories _ hk
  by_cases empty : rest = []
  · rw [empty, List.append_nil] at stands
    exact other stands
  · rw [Tree.node?_append_eq_none other empty] at stands
    cases stands

theorem concat_not_within (more : Location) (name : String) : ¬ more ++ [name] <+: more := by
  intro inside
  have shorter := inside.length_le
  simp at shorter

/-! ## One entry -/

/-- An entry that was removed can be made anew. -/
theorem without_descend (reaches : h.Reaches base) (above : h.below base more = some .directory)
    (apart : ∀ k ∈ h.stops base, ¬ h.namedLocation base ++ (more ++ [name]) <+: k) :
    (h.without (h.namedLocation base ++ (more ++ [name]))).Reaches base ∧
      (h.without (h.namedLocation base ++ (more ++ [name]))).below base more = some .directory ∧
      (h.without (h.namedLocation base ++ (more ++ [name]))).below base (more ++ [name]) = none := by
  have nonempty : more ++ [name] ≠ [] := by simp
  refine ⟨reaches.without (by simp) apart, ?_, ?_⟩
  · rw [below_without nonempty, if_neg (concat_not_within more name), above]
  · rw [below_without nonempty, if_pos List.prefix_rfl]

theorem remove_descend (reaches : h.Reaches base) (fits : base.Fits place)
    (stands : h.below base place ≠ none) :
    h.remove (base.descend place) = .ok (h.without (h.namedLocation base ++ place)) := by
  obtain ⟨node, found⟩ := Option.ne_none_iff_exists'.1 stands
  have spot := (reaches_descend reaches fits stands).spot_eq
  rw [namedLocation_descend h base fits.entries] at spot
  rw [below] at found
  rw [remove, spot, found]
  rfl

theorem solidPieces_entry (nonempty : base.text ≠ "") (hname : IsEntryName name) :
    solidPieces (base.entry name) = (base.entry name).pieces := by
  obtain ⟨before, -, pieces⟩ | pieces := Path.pieces_entry_of_ne_empty nonempty hname.slash <;>
    simp [solidPieces, pieces, hname.nonempty]

section Entry

variable (reaches : h.Reaches base) (fits : base.Fits (more ++ [name]))
  (above : h.below base more = some .directory)
include reaches fits above

theorem makeDirectory_descend (free : h.below base (more ++ [name]) = none) :
    h.makeDirectory (base.descend (more ++ [name])) =
      .ok (h.put (h.namedLocation base ++ (more ++ [name])) .directory) := by
  have nonempty := Path.text_descend_ne_empty (text_ne_empty reaches.taken)
    (fits.before (text_ne_empty reaches.taken)).entries
  have solid := solidPieces_entry nonempty (fits.entries name (by simp))
  have spot := (reaches_descend_concat reaches fits above).spot_eq
  rw [namedLocation_descend h base fits.entries, Host.spot, Path.descend_concat] at spot
  rw [below] at free
  rw [makeDirectory, Path.descend_concat, solid, spot, free]
  rfl

theorem fileSpot_descend (free : h.below base (more ++ [name]) ≠ some .directory) :
    h.fileSpot (base.descend (more ++ [name])) =
      .ok ⟨h.namedLocation base ++ (more ++ [name]), h.below base (more ++ [name])⟩ := by
  have reached := reaches_descend_concat reaches fits above
  have place := namedLocation_descend h base fits.entries
  rw [below, ← place] at free ⊢
  exact fileSpot_eq_ok_iff.2 ⟨reached, rfl, free⟩

omit reaches in
theorem puts_descend (node : Node) (free : h.below base (more ++ [name]) ≠ some .directory) :
    h.Puts (h.put (h.namedLocation base ++ (more ++ [name])) node)
      (h.namedLocation base ++ (more ++ [name])) node := by
  rw [below, ← List.append_assoc] at free
  rw [← List.append_assoc]
  exact puts_put node (fits.kept name (by simp)) above free

/-- A file is copied to where no directory stands. -/
theorem copy_descend {source : Path} {file : File} (reaches' : h.Reaches source)
    (fits' : source.Fits place) (stands : h.below source place = some (.file file))
    (free : h.below base (more ++ [name]) ≠ some .directory) :
    h.copy (source.descend place) (base.descend (more ++ [name])) =
      .ok (h.put (h.namedLocation base ++ (more ++ [name]))
        (.file { file with modified := h.clock })) := by
  have found := (node_descend_eq_ok_iff reaches' fits').2 stands
  have spot := fileSpot_descend reaches fits above free
  rw [copy, found]
  simp only [bind, Except.bind, pure, Except.pure, spot]

end Entry

end Host

namespace Replica

open Host

variable {h : Host} {source destination : Path} {more : Location} {name : String}

/-- Whether what stands at the destination can stay there. -/
def isCurrent : Node → Option Node → Bool
  | .directory, theirs => theirs = some .directory
  | .file file, theirs => !needsCopy file theirs

/-- Whether a file and a directory stand at one place. -/
def isConflict : Node → Option Node → Bool
  | .file _, some .directory => true
  | .directory, some (.file _) => true
  | _, _ => false

/-- The copy that is made of something. -/
def copyOf (clock : Int) : Node → Node
  | .directory => .directory
  | .file file => .file { file with modified := clock }

/-- What stands at the destination after something of the source was placed there. -/
def replicaOf (clock : Int) (ours : Node) (theirs : Option Node) : Option Node :=
  if isCurrent ours theirs then theirs else some (copyOf clock ours)

/-- What placing something of the source at the destination changes. -/
def changeAt (ours : Node) (theirs : Option Node) : Changes :=
  ⟨(ours ≠ .directory && !isCurrent ours theirs).toNat, (isConflict ours theirs).toNat⟩

theorem changeAt_of_ne_directory {file : File} {theirs : Option Node}
    (outdated : needsCopy file theirs = true) (other : theirs ≠ some .directory) :
    changeAt (.file file) theirs = ⟨1, 0⟩ := by
  rw [changeAt, isCurrent, outdated]
  match theirs with
  | none => rfl
  | some (.file _) => rfl
  | some .directory => exact absurd rfl other

theorem changeAt_of_not_needsCopy {file : File} {theirs : Option Node}
    (current : needsCopy file theirs = false) : changeAt (.file file) theirs = ⟨0, 0⟩ := by
  match theirs with
  | none => cases current
  | some .directory => cases current
  | some (.file _) =>
    rw [changeAt, isCurrent, current]
    rfl

/-- Places what stands at a place below the source. -/
def placeNode (source destination : Path) (place : Location) : Node → Activity Failure Changes
  | .directory => placeDirectory (destination.descend place)
  | .file file => placeFile (source.descend place) (destination.descend place) file

/-- What has become of a location at which something was placed: nothing has changed, or a copy
stands there alone. -/
structure Settled (h after : Host) (l : Location) (ours : Node) (theirs : Option Node) : Prop where
  stays : isCurrent ours theirs = true → after = h
  comes : isCurrent ours theirs = false → h.Puts after l (copyOf h.clock ours)

theorem Settled.of_eq {h : Host} {l : Location} {ours : Node} {theirs : Option Node}
    (current : isCurrent ours theirs = true) : Settled h h l ours theirs where
  stays _ := rfl
  comes outdated := by
    rw [current] at outdated
    cases outdated

theorem Settled.of_puts {h after : Host} {l : Location} {ours : Node} {theirs : Option Node}
    (outdated : isCurrent ours theirs = false) (puts : h.Puts after l (copyOf h.clock ours)) :
    Settled h after l ours theirs where
  stays current := by
    rw [current] at outdated
    cases outdated
  comes _ := puts

theorem removeIf_of_not {condition : Bool} (no : condition = false) (target : Path) (h : Host) :
    removeIf condition target h = (.ok 0, h) := by
  rw [removeIf, no]
  rfl

/-- What stands in the way below a base is removed. -/
theorem removeIf_descend {condition : Bool} {place : Location} (yes : condition = true)
    (reaches : h.Reaches destination) (fits : destination.Fits place)
    (stands : h.below destination place ≠ none) :
    removeIf condition (destination.descend place) h =
      (.ok 1, h.without (h.namedLocation destination ++ place)) := by
  rw [removeIf, if_pos yes, remove_descend reaches fits stands]

theorem placeDirectory_eq {target : Path} {removed : Nat} {middle after : Host}
    (cleared : removeIf (h.isFile target) target h = (.ok removed, middle))
    (made : Files.ensureDirectory target middle = (.ok (), after)) :
    placeDirectory target h = (.ok ⟨0, removed⟩, after) := by
  rw [placeDirectory, Activity.bind_run, cleared]
  dsimp only
  rw [Activity.bind_run, made]
  rfl

theorem placeFile_eq {target p : Path} {file : File} {removed : Nat} {middle after : Host}
    (outdated : needsCopy file (h.node target).toOption = true)
    (cleared : removeIf (h.isDirectory target) target h = (.ok removed, middle))
    (copied : middle.copy p target = .ok after) :
    placeFile p target file h = (.ok ⟨1, removed⟩, after) := by
  rw [placeFile, if_pos outdated, Activity.bind_run, cleared]
  dsimp only
  rw [Activity.bind_run, Activity.ofStep, copied]
  rfl

section Place

variable (reaches : h.Reaches destination) (fits : destination.Fits (more ++ [name]))
  (above : h.below destination more = some .directory)
include reaches fits above

theorem ensureDirectory_descend (free : h.below destination (more ++ [name]) = none) :
    Files.ensureDirectory (destination.descend (more ++ [name])) h =
      (.ok (), h.put (h.namedLocation destination ++ (more ++ [name])) .directory) := by
  have text := Path.text_descend_ne_empty (text_ne_empty reaches.taken) fits.entries
  have there := exists?_descend reaches fits
  rw [free] at there
  exact Files.ensureDirectory_of_makeDirectory text there
    (makeDirectory_descend reaches fits above free)

theorem exists_placeDirectory :
    ∃ after, placeDirectory (destination.descend (more ++ [name])) h =
        (.ok (changeAt .directory (h.below destination (more ++ [name]))), after) ∧
      Settled h after (h.namedLocation destination ++ (more ++ [name])) .directory
        (h.below destination (more ++ [name])) := by
  have isFile := isFile_descend_iff reaches fits
  cases theirs : h.below destination (more ++ [name]) with
  | none =>
    rw [theirs] at isFile
    exact ⟨_, placeDirectory_eq (removeIf_of_not (by simpa using isFile) _ _)
      (ensureDirectory_descend reaches fits above theirs),
      .of_puts rfl (puts_descend fits above .directory (by rw [theirs]; nofun))⟩
  | some node =>
    cases node with
    | directory =>
      have there := exists?_descend reaches fits
      rw [theirs] at isFile there
      exact ⟨h, placeDirectory_eq (removeIf_of_not (by simpa using isFile) _ _)
        (Files.ensureDirectory_of_exists there), .of_eq rfl⟩
    | file file =>
      -- The file is removed first, and then the place is free.
      have stands : h.below destination (more ++ [name]) ≠ none := by rw [theirs]; nofun
      have other : h.below destination (more ++ [name]) ≠ some .directory := by rw [theirs]; nofun
      obtain ⟨reaches', above', free⟩ := without_descend reaches above (reaches.not_through other)
      rw [theirs] at isFile
      refine ⟨_, placeDirectory_eq (removeIf_descend (isFile.2 ⟨file, rfl⟩) reaches fits stands)
        (ensureDirectory_descend reaches' fits above' free), .of_puts rfl ?_⟩
      exact .of_without (by simp) stands
        (puts_descend fits above' .directory (by rw [free]; nofun))

/-- A file is placed unless it is there; `apart` says that no path leads through the directory that
may stand in its way. -/
theorem exists_placeFile {file : File} (reaches' : h.Reaches source)
    (fits' : source.Fits (more ++ [name]))
    (ours : h.below source (more ++ [name]) = some (.file file))
    (disjoint : ¬ h.namedLocation destination <+: h.namedLocation source ∧
      ¬ h.namedLocation source <+: h.namedLocation destination)
    (apart : ∀ k, k ∈ h.stops source ∨ k ∈ h.stops destination →
      ¬ h.namedLocation destination ++ (more ++ [name]) <+: k) :
    ∃ after, placeFile (source.descend (more ++ [name])) (destination.descend (more ++ [name])) file
          h = (.ok (changeAt (.file file) (h.below destination (more ++ [name]))), after) ∧
      Settled h after (h.namedLocation destination ++ (more ++ [name])) (.file file)
        (h.below destination (more ++ [name])) := by
  have node := toOption_node_descend reaches fits
  by_cases outdated : needsCopy file (h.below destination (more ++ [name])) = true
  · have old : isCurrent (.file file) (h.below destination (more ++ [name])) = false := by
      rw [isCurrent, outdated]
      rfl
    have isDirectory := isDirectory_descend_iff reaches fits
    rw [← node] at outdated
    by_cases theirs : h.below destination (more ++ [name]) = some .directory
    · -- The directory is removed first, and then the file stands alone.
      have stands : h.below destination (more ++ [name]) ≠ none := by simp [theirs]
      have other : ¬ h.namedLocation destination ++ (more ++ [name]) <+:
          h.namedLocation source ++ (more ++ [name]) := fun inside =>
        (List.prefix_or_prefix_of_prefix ((List.prefix_append _ _).trans inside)
          (List.prefix_append _ _)).elim disjoint.1 disjoint.2
      obtain ⟨left, above', free⟩ :=
        without_descend reaches above fun k hk => apart k (.inr hk)
      have left' := reaches'.without (by simp) fun k hk => apart k (.inl hk)
      have ours' : (h.without (h.namedLocation destination ++ (more ++ [name]))).below source
          (more ++ [name]) = some (.file file) := by
        rw [below, namedLocation_without, node?_without (by simp), if_neg other]
        exact ours
      have copied := copy_descend left fits above' left' fits' ours' (by simp [free])
      have puts := puts_descend fits above' (copyOf h.clock (.file file)) (by simp [free])
      rw [theirs] at old ⊢
      exact ⟨_, placeFile_eq outdated
        (removeIf_descend (isDirectory.2 theirs) reaches fits stands) copied,
        .of_puts old (.of_without (by simp) stands puts)⟩
    · rw [changeAt_of_ne_directory (node ▸ outdated) theirs]
      exact ⟨_, placeFile_eq outdated (removeIf_of_not (by simpa [theirs] using isDirectory) _ _)
        (copy_descend reaches fits above reaches' fits' ours theirs),
        .of_puts old (puts_descend fits above _ theirs)⟩
  · have current : needsCopy file (h.below destination (more ++ [name])) = false := by
      simpa using outdated
    refine ⟨h, ?_, .of_eq (by rw [isCurrent, current]; rfl)⟩
    rw [changeAt_of_not_needsCopy current, placeFile, node, if_neg outdated]

end Place

end Replica

end BuildPlanner
