import BuildPlanner.Proofs.Clearing

/-!
# Replicas

After `Replica.make` the destination has what the source has and nothing else, whatever it had
before, and nothing else has changed (`Replica.Mirrored`).  The numbers of changes count the files
that were missing or outdated, what stood in the way, and what was left over.  Making the replica
once more changes nothing.
-/

namespace BuildPlanner.Replica

open Host

variable {h mid after made : Host} {source destination : Path} {place : Location}

/-! ## What is changed -/

/-- The files of the source that have no counterpart at the destination that is a file of the same
size and not older. -/
def outdated (h : Host) (source destination : Path) : Set Location :=
  {place | ∃ file, h.below source place = some (.file file) ∧
    ∀ other, h.below destination place = some (.file other) →
      file.content.size ≠ other.content.size ∨ other.modified < file.modified}

/-- The places where a file stands in the way of a directory, or a directory in the way of a file. -/
def conflicts (h : Host) (source destination : Path) : Set Location :=
  {place | ((∃ file, h.below source place = some (.file file)) ∧
      h.below destination place = some .directory) ∨
    (h.below source place = some .directory ∧
      ∃ file, h.below destination place = some (.file file))}

/-- The places of the destination that the source does not have, but for those in a directory that
stands in the way of a file. -/
def surplus (h : Host) (source destination : Path) : Set Location :=
  {place | h.below destination place ≠ none ∧ h.below source place = none ∧
    ∀ first file, first <+: place → h.below source first ≠ some (.file file)}

theorem needsCopy_iff {file : File} {theirs : Option Node} :
    needsCopy file theirs = true ↔ ∀ other, theirs = some (.file other) →
      file.content.size ≠ other.content.size ∨ other.modified < file.modified := by
  match theirs with
  | none => simp [needsCopy]
  | some .directory => simp [needsCopy]
  | some (.file other) => simp [needsCopy]

theorem isConflict_iff {ours : Node} {theirs : Option Node} :
    isConflict ours theirs = true ↔
      ((∃ file, ours = .file file) ∧ theirs = some .directory) ∨
        (ours = .directory ∧ ∃ file, theirs = some (.file file)) := by
  match ours, theirs with
  | .file _, none => simp [isConflict]
  | .file _, some (.file _) => simp [isConflict]
  | .file _, some .directory => simp [isConflict]
  | .directory, none => simp [isConflict]
  | .directory, some (.file _) => simp [isConflict]
  | .directory, some .directory => simp [isConflict]

/-- A set whose members are listed once has as many members as are counted. -/
theorem ncard_eq_countP {s : Set Location} {items : List Location} (nodup : items.Nodup)
    (p : Location → Bool) (same : ∀ place, place ∈ s ↔ place ∈ items ∧ p place = true) :
    s.ncard = items.countP p := by
  have listed : s = ((items.filter p).toFinset : Set Location) := by
    ext place
    simp [same]
  rw [listed, Set.ncard_coe_finset, List.toFinset_card_of_nodup (nodup.filter p),
    List.countP_eq_length_filter]

theorem mem_outdated_iff (ready : Ready h source destination) :
    place ∈ outdated h source destination ↔ place ∈ places h source ∧
      (decide ((h.below source place).getD .directory ≠ .directory) &&
        !isCurrent ((h.below source place).getD .directory) (h.below destination place)) = true := by
  rw [mem_places_iff ready, outdated, Set.mem_ofPred_eq]
  cases ours : h.below source place with
  | none => simp
  | some node =>
    cases node with
    | directory => simp
    | file file =>
      have nonempty : place ≠ [] := ready.ne_nil (by rw [ours]; nofun)
      simp [nonempty, isCurrent, needsCopy_iff]

theorem mem_conflicts_iff (ready : Ready h source destination) :
    place ∈ conflicts h source destination ↔ place ∈ places h source ∧
      isConflict ((h.below source place).getD .directory) (h.below destination place) = true := by
  rw [mem_places_iff ready, conflicts, Set.mem_ofPred_eq, isConflict_iff]
  by_cases empty : place = []
  · simp [empty, ready.below_source, ready.below_destination]
  · cases ours : h.below source place with
    | none => simp
    | some node => simp [empty]

theorem total_changeOf (ready : Ready h source destination) :
    total ((places h source).map (changeOf h source destination)) =
      ⟨(outdated h source destination).ncard, (conflicts h source destination).ncard⟩ := by
  rw [ncard_eq_countP (nodup_places ready) _ fun place => mem_outdated_iff ready,
    ncard_eq_countP (nodup_places ready) _ fun place => mem_conflicts_iff ready]
  exact total_toNat _ _ (places h source)

theorem length_leftovers (ready : Ready h source destination)
    (copied : Copied h mid source destination (places h source)) :
    (leftovers mid source destination).length = (surplus h source destination).ncard := by
  have nodup : (leftovers mid source destination).Nodup :=
    ((Tree.pairwise_postorder copied.tidy).filter _).imp Tree.ne_of_not_within
  rw [← List.countP_true]
  refine (ncard_eq_countP nodup _ fun place => ?_).symm
  rw [mem_leftovers_iff ready copied, surplus, Set.mem_ofPred_eq, eq_self_iff_true, and_true]
  constructor
  · rintro ⟨theirs, ours, clear⟩
    have same := below_eq_of_no_file ready copied ours fun first inside file =>
      clear first file inside
    exact ⟨same ▸ theirs, ours⟩
  · rintro ⟨stands, ours⟩
    have clear (first : Location) (file : File) (inside : first <+: place) :
        h.below source first ≠ some (.file file) :=
      ne_file_of_stands ready copied ours stands inside file
    rw [← below_eq_of_no_file ready copied ours fun first inside file => clear first file inside]
    exact ⟨stands, ours, clear⟩

/-! ## The replica -/

/-- A host on which a destination has become a replica of a source by some changes. -/
structure Mirrored (h after : Host) (source destination : Path) (changes : Changes) : Prop where
  others : after = { h with tree := after.tree }
  outside : ∀ l, ¬ h.namedLocation destination <+: l → after.tree.node? l = h.tree.node? l
  unchanged : ∀ place, after.below source place = h.below source place
  kinds : ∀ place, (after.below destination place).map (·.file?.isSome) =
    (h.below source place).map (·.file?.isSome)
  replica : ∀ place, after.below destination place =
    (h.below source place).bind fun ours => replicaOf h.clock ours (h.below destination place)
  copied : changes.copied = (outdated h source destination).ncard
  removed : changes.removed =
    (conflicts h source destination).ncard + (surplus h source destination).ncard

/-- The replica of something is of its kind. -/
theorem exists_replicaOf (clock : Int) (ours : Node) (theirs : Option Node) :
    ∃ node, replicaOf clock ours theirs = some node ∧ node.file?.isSome = ours.file?.isSome := by
  rw [replicaOf]
  split_ifs with current
  · cases theirs with
    | none => cases ours <;> simp [isCurrent, needsCopy] at current
    | some other =>
      refine ⟨other, rfl, ?_⟩
      cases ours <;> cases other <;> simp_all [isCurrent, needsCopy, Node.file?]
  · cases ours with
    | directory => exact ⟨.directory, rfl, rfl⟩
    | file file => exact ⟨_, rfl, rfl⟩

/-- Copying and removing make a replica; where nothing has to be done the host stays as it is. -/
theorem exists_make (ensured : Files.ensureDirectory destination h = (.ok (), made))
    (ready : Ready made source destination) :
    ∃ after changes, make source destination h = (.ok changes, after) ∧ after.tree.Tidy ∧
      Mirrored made after source destination changes ∧
      ((∀ place ours, made.below source place = some ours →
          isCurrent ours (made.below destination place) = true) →
        (∀ place, made.below destination place ≠ none → made.below source place ≠ none) →
        after = made) := by
  obtain ⟨mid, copiedAll, copied⟩ := exists_copyAll ready
  obtain ⟨after, removedAll, cleared⟩ := exists_removeExtraneous ready copied
  have replica := below_of_cleared ready copied cleared
  have outside (l : Location) (hl : ¬ made.namedLocation destination <+: l) :
      after.tree.node? l = made.tree.node? l := by
    rw [cleared.kept l fun first _ inside => ?_, copied.outside l hl]
    rw [copied.namedLocation_eq] at inside
    exact hl ((List.prefix_append _ _).trans inside)
  refine ⟨after, ⟨(outdated made source destination).ncard,
    (conflicts made source destination).ncard + (surplus made source destination).ncard⟩, ?_,
    cleared.tidy, ⟨?_, outside, fun place => ?_, fun place => ?_, replica, rfl, rfl⟩,
    fun current covered => ?_⟩
  · rw [total_changeOf ready] at copiedAll
    rw [length_leftovers ready copied] at removedAll
    rw [make, Activity.bind_run, ensured]
    dsimp only
    rw [Activity.bind_run, copiedAll]
    dsimp only
    rw [Activity.bind_run, removedAll]
    rfl
  · rw [cleared.others, copied.others]
  · have start : after.namedLocation source = made.namedLocation source := by
      rw [cleared.namedLocation_eq, copied.namedLocation_eq]
    rw [below, start]
    exact outside _ (ready.source_apart place)
  · rw [replica]
    cases made.below source place with
    | none => rfl
    | some ours =>
      obtain ⟨node, same, kind⟩ := exists_replicaOf made.clock ours (made.below destination place)
      rw [Option.bind_some, same, Option.map_some, kind, Option.map_some]
  · have same := copied.still fun place _ ours found => current place ours found
    refine (cleared.still (List.eq_nil_iff_forall_not_mem.2 fun place hplace => ?_)).trans same
    obtain ⟨stands, theirs⟩ := (mem_leftovers_iff ready copied).1 hplace
    rw [same] at stands
    exact covered place stands theirs

/-- A replica needs no copies, unless a file has a time to come. -/
theorem isCurrent_replicaOf {clock : Int} {ours : Node} {theirs : Option Node}
    (past : ∀ file, ours = .file file → file.modified ≤ clock) :
    isCurrent ours (replicaOf clock ours theirs) = true := by
  rw [replicaOf]
  split_ifs with current
  · exact current
  · cases ours with
    | directory => rfl
    | file file =>
      have early := past file rfl
      simpa [isCurrent, copyOf, needsCopy] using early

/-- After a replica is made another one can be made. -/
theorem ready_of_mirrored {changes : Changes} (ready : Ready h source destination)
    (tidy : after.tree.Tidy) (mirrored : Mirrored h after source destination changes) :
    Ready after source destination := by
  have start (p : Path) : after.namedLocation p = h.namedLocation p := by
    rw [mirrored.others]
    rfl
  have stops (p : Path) : after.stops p = h.stops p := by
    rw [mirrored.others]
    rfl
  have directory {place : Location} (ours : h.below source place = some .directory) :
      after.below destination place = some .directory := by
    rw [mirrored.replica, ours, Option.bind_some, replicaOf_directory]
  obtain ⟨reaches', reaches⟩ := ready.reaches_of_outside mirrored.others mirrored.outside
    fun place ours _ => directory ours
  refine ⟨⟨?_, ?_, fun place stands => ?_, fun place stands => ?_, fun place hplace => ?_⟩, tidy,
    isDirectory_iff.2 ⟨reaches', ?_⟩, isDirectory_iff.2 ⟨reaches, ?_⟩⟩
  · rw [start, start]
    exact ready.notInside
  · rw [start, start]
    exact ready.notAround
  · rw [mirrored.unchanged] at stands
    exact ready.sourceTaken place stands
  · refine ready.destinationTaken place (.inl ?_)
    obtain stands | stands := stands
    · rwa [mirrored.unchanged] at stands
    · rw [mirrored.replica] at stands
      intro none
      rw [none] at stands
      exact stands rfl
  · rw [start, stops, stops] at hplace
    rw [mirrored.unchanged]
    exact ready.steady place hplace
  · have top := (mirrored.unchanged []).trans ready.below_source
    rwa [below, List.append_nil] at top
  · have top := directory ready.below_source
    rwa [below, List.append_nil] at top

theorem exists?_of_isDirectory {p : Path} (there : h.isDirectory p = true) :
    h.exists? p = true := by
  obtain ⟨reaches, stands⟩ := isDirectory_iff.1 there
  exact exists?_iff.2 ⟨reaches, by rw [stands]; nofun⟩

/-- Where a replica is, making it changes nothing. -/
theorem make_of_isCurrent (ready : Ready h source destination)
    (current : ∀ place ours, h.below source place = some ours →
      isCurrent ours (h.below destination place) = true)
    (covered : ∀ place, h.below destination place ≠ none → h.below source place ≠ none) :
    make source destination h = (.ok ⟨0, 0⟩, h) := by
  have ensured := Files.ensureDirectory_of_exists (exists?_of_isDirectory ready.toDirectory)
  obtain ⟨after, ⟨copied, removed⟩, done, -, mirrored, still⟩ := exists_make ensured ready
  obtain rfl := still current covered
  have upToDate : outdated after source destination = ∅ := by
    refine Set.eq_empty_of_forall_notMem fun place hplace => ?_
    obtain ⟨file, ours, old⟩ := hplace
    have current := current place _ ours
    rw [isCurrent, needsCopy_iff.2 old] at current
    cases current
  have peaceful : conflicts after source destination = ∅ := by
    refine Set.eq_empty_of_forall_notMem fun place hplace => ?_
    obtain ⟨⟨file, ours⟩, theirs⟩ | ⟨ours, file, theirs⟩ := hplace <;>
      have current := current place _ ours <;> rw [theirs] at current <;> cases current
  have nothing : surplus after source destination = ∅ :=
    Set.eq_empty_of_forall_notMem fun place hplace => covered place hplace.1 hplace.2.1
  obtain rfl : copied = 0 := by
    have counted := mirrored.copied
    rwa [upToDate, Set.ncard_empty] at counted
  obtain rfl : removed = 0 := by
    have counted := mirrored.removed
    rwa [peaceful, nothing, Set.ncard_empty] at counted
  exact done

/-- Once the destination is there, a replica can be made. -/
theorem ready_of_ensureDirectory (tidy : h.tree.Tidy) (fromDirectory : h.isDirectory source = true)
    (free : h.exists? destination = false ∨ h.isDirectory destination = true)
    (ensured : Files.ensureDirectory destination h = (.ok (), made))
    (apart : Apart made source destination) : Ready made source destination := by
  have grows := Files.grows_of_ensureDirectory ensured
  obtain ⟨reaches, stands⟩ := isDirectory_iff.1 fromDirectory
  have there : made.isDirectory source = true := by
    rw [isDirectory_iff, grows.namedLocation]
    exact ⟨grows.reaches reaches, grows.node? stands⟩
  refine ⟨apart, grows.tidy tidy, there, ?_⟩
  obtain absent | present := free
  · have stood : made.below source [] ≠ none := by
      rw [below, List.append_nil, grows.namedLocation, grows.node? stands]
      exact Option.some_ne_none _
    have taken := apart.destinationTaken [] (.inl stood)
    exact Files.isDirectory_of_ensureDirectory (text_ne_empty taken) absent ensured
  · rw [Files.ensureDirectory_of_exists (exists?_of_isDirectory present)] at ensured
    cases ensured
    exact present

/-- A source with a file and a directory, and a destination with the one in the way of the other. -/
def crossedHost : Host :=
  { (default : Host) with
    clock := 9
    tree := .directory
      [("src", .directory
        [("a", .file ⟨.text "a", 5, false⟩),
          ("b", .directory [("c", .file ⟨.text "c", 4, true⟩)])]),
      ("dst", .directory
        [("a", .directory [("x", .file ⟨.text "x", 7, false⟩)]),
          ("b", .file ⟨.text "b", 7, false⟩),
          ("d", .directory [("e", .directory [])])])] }

/-- Nothing is copied from a directory with nothing in it. -/
theorem make_of_entries_eq_nil (ensured : Files.ensureDirectory destination h = (.ok (), made))
    (there : made.isDirectory source = true) (bare : entries made source = []) :
    make source destination h = removeExtraneous source destination made := by
  obtain ⟨node, found⟩ : ∃ node, made.node source = .ok node :=
    ⟨.directory, node_eq_ok_iff.2 (isDirectory_iff.1 there)⟩
  have copied : copyAll source destination made = (.ok ⟨0, 0⟩, made) := by
    rw [copyAll, found, bare, copyEntries]
    rfl
  rw [make, Activity.bind_run, ensured]
  dsimp only
  rw [Activity.bind_run, copied]
  dsimp only
  rw [Activity.bind_run]
  cases removeExtraneous source destination made with
  | mk result after =>
    cases result with
    | error fault => rfl
    | ok removed =>
      dsimp only
      rw [Activity.pure_run, Changes.add, Nat.zero_add, Nat.zero_add]

/-- An empty source, and a destination with an empty directory two levels below it. -/
def nestedHost : Host :=
  { (default : Host) with
    tree := .directory
      [("src", .directory []),
        ("dst", .directory [("a", .directory [("x", .directory [])])])] }

end BuildPlanner.Replica
