import BuildPlanner.Host
import BuildPlanner.Proofs.Entries

/-!
# What a path leads to

A path leads through locations, one for each of its pieces, and each of them has to be a directory.
Where they are, what the path leads to is what stands at its named location (`spot_eq_ok_iff`); so
whatever leaves these directories where they are changes nothing about the way.

* `Tree.follow_eq_ok_iff` says when the pieces of a path are followed to their end.
* `Host.Reaches` is what is needed of a tree for a path to be followed.
-/

namespace BuildPlanner

/-! ## Parts of a tree -/

namespace Tree

variable {t : Tree} {location more : Location} {name : String}

theorem part?_append (t : Option Tree) (location more : Location) :
    part? (location ++ more) t = part? more (part? location t) := by
  induction location generalizing t with
  | nil => rfl
  | cons first rest ih =>
    match t with
    | none => simp
    | some (file f) => simp [part?]
    | some (directory children) => exact ih _

theorem part?_concat (t : Option Tree) (location : Location) (name : String) :
    part? (location ++ [name]) t = (part? location t).bind fun u => u.children.lookup name := by
  rw [part?_append]
  match part? location t with
  | none => rfl
  | some (file f) => rfl
  | some (directory children) => rfl

/-- Nothing stands below what is not a directory. -/
theorem node?_append_eq_none (h : t.node? location ≠ some .directory) (nonempty : more ≠ []) :
    t.node? (location ++ more) = none := by
  obtain ⟨first, rest, rfl⟩ := List.exists_cons_of_ne_nil nonempty
  rw [node?, part?_append]
  rw [node?] at h
  cases stands : part? location (some t) with
  | none => simp
  | some u =>
    cases u with
    | file f => simp [part?]
    | directory children => exact absurd (by rw [stands]; rfl) h

/-- What something stands below is a directory. -/
theorem node?_eq_directory (h : t.node? (location ++ more) ≠ none) (nonempty : more ≠ []) :
    t.node? location = some .directory :=
  not_not.1 fun other => h (node?_append_eq_none other nonempty)

theorem node?_ne_none_of_append (h : t.node? (location ++ more) ≠ none) :
    t.node? location ≠ none := by
  cases more with
  | nil => rwa [List.append_nil] at h
  | cons first rest => simp [node?_eq_directory h (List.cons_ne_nil first rest)]

/-- Only a directory has names in it. -/
theorem names_eq_nil (h : t.node? location ≠ some .directory) : t.names location = [] := by
  rw [node?] at h
  rw [names]
  cases stands : part? location (some t) with
  | none => simp
  | some u =>
    cases u with
    | file f => simp [children]
    | directory children => exact absurd (by rw [stands]; rfl) h

end Tree

/-! ## Ways -/

/-- A way on which each tree stands under its name in the one before it. -/
def Way.Leads (t : Tree) : Way → Prop
  | [] => True
  | (name, next) :: way => Way.Leads t way ∧ (Way.last t way).children.lookup name = some next

namespace Way

variable {t : Tree} {way : Way}

theorem location_cons (name : String) (next : Tree) (way : Way) :
    Way.location ((name, next) :: way) = way.location ++ [name] := by
  simp [Way.location]

theorem location_drop (way : Way) : Way.location (way.drop 1) = way.location.dropLast := by
  cases way with
  | nil => rfl
  | cons step way => simp [Way.location]

theorem Leads.drop (h : way.Leads t) : Way.Leads t (way.drop 1) := by
  cases way with
  | nil => trivial
  | cons step way => exact h.1

theorem Leads.part? (h : way.Leads t) : Tree.part? way.location (some t) = some (way.last t) := by
  induction way with
  | nil => rfl
  | cons step way ih =>
    obtain ⟨name, next⟩ := step
    rw [location_cons, Tree.part?_concat, ih h.1]
    exact h.2

theorem Leads.node? (h : way.Leads t) : t.node? way.location = some (way.last t).top := by
  rw [Tree.node?, h.part?]
  rfl

theorem Leads.node?_concat (h : way.Leads t) (name : String) :
    t.node? (way.location ++ [name]) = ((way.last t).children.lookup name).map Tree.top := by
  rw [Tree.node?, Tree.part?_concat, h.part?]
  rfl

end Way

/-- A way goes on to whatever stands below its end. -/
theorem Tree.way?_cases {t : Tree} {way : Way} (h : way.Leads t) (location : Location) :
    (t.way? way location = none ∧ t.node? (way.location ++ location) = none) ∨
      ∃ further, t.way? way location = some further ∧ Way.Leads t further ∧
        Way.location further = way.location ++ location := by
  induction location generalizing way with
  | nil => exact .inr ⟨way, rfl, h, (List.append_nil _).symm⟩
  | cons name rest ih =>
    have onward : way.location ++ name :: rest = way.location ++ [name] ++ rest := by simp
    have stands := h.node?_concat name
    cases found : (way.last t).children.lookup name with
    | none =>
      rw [found] at stands
      refine .inl ⟨by rw [way?, found]; rfl, ?_⟩
      rw [onward]
      cases rest with
      | nil => rwa [List.append_nil]
      | cons second rest =>
        exact node?_append_eq_none (by rw [stands]; nofun) (List.cons_ne_nil second rest)
    | some next =>
      have leads : Way.Leads t ((name, next) :: way) := ⟨h, found⟩
      rw [onward, ← Way.location_cons name next way, way?, found]
      exact ih leads

/-! ## Pieces -/

namespace Location

/-- Where one more piece of a path leads. -/
def goOn (location : Location) (piece : List Char) : Location :=
  match Component.ofPiece? piece with
  | some component => Host.namedLocation.step location component
  | none => location

/-- Where pieces of a path start, one after the other. -/
def stops (location : Location) : List (List Char) → List Location
  | [] => []
  | piece :: pieces => location :: stops (location.goOn piece) pieces

theorem stops_append (location : Location) (pieces more : List (List Char)) :
    location.stops (pieces ++ more) =
      location.stops pieces ++ Location.stops (pieces.foldl goOn location) more := by
  induction pieces generalizing location with
  | nil => rfl
  | cons piece pieces ih => exact congrArg _ (ih _)

/-- Pieces that name nothing lead nowhere. -/
theorem stays_of_blank {pieces : List (List Char)}
    (blank : ∀ piece ∈ pieces, Component.ofPiece? piece = none) (location : Location) :
    pieces.foldl goOn location = location ∧ ∀ l ∈ location.stops pieces, l = location := by
  induction pieces with
  | nil => simp [stops]
  | cons piece pieces ih =>
    obtain ⟨first, others⟩ := List.forall_mem_cons.1 blank
    obtain ⟨stays, all⟩ := ih others
    have here : location.goOn piece = location := by rw [goOn, first]
    rw [List.foldl_cons, stops, here]
    exact ⟨stays, List.forall_mem_cons.2 ⟨rfl, all⟩⟩

end Location

/-- A piece that does not name more than an entry of a directory can be called. -/
def IsShort (piece : List Char) : Prop :=
  ∀ name, Component.ofPiece? piece = some (.name name) → name.utf8ByteSize ≤ maxNameLength

theorem ofPiece?_cases (piece : List Char) :
    Component.ofPiece? piece = none ∨ Component.ofPiece? piece = some .up ∨
      ∃ name, Component.ofPiece? piece = some (.name name) := by
  unfold Component.ofPiece?
  split
  · exact .inl rfl
  · exact .inl rfl
  · exact .inr (.inl rfl)
  · exact .inr (.inr ⟨_, rfl⟩)

/-- Pieces are followed to their end where each of them starts at a directory. -/
theorem Tree.follow_eq_ok_iff {t : Tree} {way : Way} (leads : way.Leads t)
    {pieces : List (List Char)} {spot : Spot} :
    t.follow way pieces = .ok spot ↔
      (∀ l ∈ way.location.stops pieces, t.node? l = some .directory) ∧
        (∀ piece ∈ pieces, IsShort piece) ∧
        spot = ⟨pieces.foldl Location.goOn way.location,
          t.node? (pieces.foldl Location.goOn way.location)⟩ := by
  induction pieces generalizing way with
  | nil => simp [follow, Location.stops, leads.node?, eq_comm]
  | cons piece pieces ih =>
    have here := leads.node?
    rw [Location.stops, List.forall_mem_cons, List.forall_mem_cons, List.foldl_cons]
    cases stands : way.last t with
    | file f =>
      rw [stands] at here
      simp [follow, stands, here, top]
    | directory children =>
      rw [stands] at here
      obtain blank | up | ⟨name, named⟩ := ofPiece?_cases piece
      · have stays : way.location.goOn piece = way.location := by rw [Location.goOn, blank]
        have short : IsShort piece := by simp [IsShort, blank]
        have step : t.follow way (piece :: pieces) = t.follow way pieces := by
          simp [follow, stands, blank]
        rw [stays, step, ih leads]
        simp [here, short, top]
      · have back : way.location.goOn piece = Way.location (way.drop 1) := by
          rw [Location.goOn, up, Way.location_drop]
          rfl
        have short : IsShort piece := by simp [IsShort, up]
        have step : t.follow way (piece :: pieces) = t.follow (way.drop 1) pieces := by
          simp [follow, stands, up]
        rw [back, step, ih leads.drop]
        simp [here, short, top]
      · have onward : way.location.goOn piece = way.location ++ [name] := by
          rw [Location.goOn, named]
          rfl
        have short : IsShort piece ↔ name.utf8ByteSize ≤ maxNameLength := by
          simp [IsShort, named]
        have next := leads.node?_concat name
        rw [stands] at next
        rw [onward, short]
        by_cases long : maxNameLength < name.utf8ByteSize
        · simp [follow, stands, named, long]
        cases found : children.lookup name with
        | none =>
          rw [Tree.children, found] at next
          cases pieces with
          | nil => simp [follow, stands, named, long, found, here, next, top, Location.stops,
              Nat.le_of_not_lt long, eq_comm]
          | cons second pieces =>
            simp [follow, stands, named, long, found, next, Location.stops]
        | some child =>
          have further : Way.Leads t ((name, child) :: way) := ⟨leads, by rw [stands]; exact found⟩
          have step : t.follow way (piece :: pieces) = t.follow ((name, child) :: way) pieces := by
            simp [follow, stands, named, long, found]
          rw [← Way.location_cons name child way, step, ih further]
          simp [here, Nat.le_of_not_lt long, top]

/-! ## Paths -/

namespace Host

variable {h : Host} {p : Path} {name : String}

/-- Where the pieces of a path start. -/
def stops (h : Host) (p : Path) : List Location :=
  (h.origin p).stops p.pieces

/-- A path that the system takes and that leads through directories only. -/
structure Reaches (h : Host) (p : Path) : Prop where
  taken : pathFault? p = none
  short : ∀ piece ∈ p.pieces, IsShort piece
  directories : ∀ l ∈ h.stops p, h.tree.node? l = some .directory

theorem namedLocation_eq (h : Host) (p : Path) :
    h.namedLocation p = p.pieces.foldl Location.goOn (h.origin p) := by
  have named (rest : List (List Char)) (location : Location) :
      (rest.filterMap Component.ofPiece?).foldl namedLocation.step location =
        rest.foldl Location.goOn location := by
    induction rest generalizing location with
    | nil => rfl
    | cons piece rest ih =>
      rw [List.foldl_cons, ← ih, List.filterMap_cons]
      cases found : Component.ofPiece? piece <;> simp [Location.goOn, found]
  cases split : p.pieces with
  | nil => exact absurd split (List.splitOn_ne_nil _ _)
  | cons first rest =>
    rw [namedLocation, Path.components, split, Path.componentsOfPieces, List.foldl_append, named,
      List.foldl_cons]
    congr 1
    unfold Path.leading
    split
    · split <;> rfl
    · rfl
    · cases found : Component.ofPiece? first <;> simp [Location.goOn, found]

/-- A path leads to the same place however it is spelled. -/
theorem namedLocation_of_same {q : Path} (same : p.same q = true) :
    h.namedLocation p = h.namedLocation q := by
  rw [namedLocation, namedLocation, origin, origin, Path.same_iff.1 same,
    Path.isAbsolute_of_same same]

/-- What has no parent leads nowhere else. -/
theorem namedLocation_of_parent?_eq_none (top : p.parent? = none) :
    h.namedLocation p = h.origin p := by
  rw [Path.parent?] at top
  cases split : p.pieces with
  | nil => exact absurd split (List.splitOn_ne_nil _ _)
  | cons first rest =>
    rw [split] at top
    dsimp only at top
    split at top
    · next blank =>
      have blank : ∀ piece ∈ rest, Component.ofPiece? piece = none := by
        simpa [Path.blankPiece] using blank
      split at top
      · next empty =>
        rw [namedLocation, Path.components, split, Path.componentsOfPieces, empty,
          List.filterMap_eq_nil_iff.2 blank, List.append_nil]
        cases rest <;> rfl
      · cases top
    · cases top

theorem followPieces_eq_ok_iff {pieces : List (List Char)} {spot : Spot} :
    h.followPieces p pieces = .ok spot ↔
      pathFault? p = none ∧ h.tree.node? (h.origin p) ≠ none ∧
        (∀ l ∈ (h.origin p).stops pieces, h.tree.node? l = some .directory) ∧
        (∀ piece ∈ pieces, IsShort piece) ∧
        spot = ⟨pieces.foldl Location.goOn (h.origin p),
          h.tree.node? (pieces.foldl Location.goOn (h.origin p))⟩ := by
  rw [followPieces]
  cases fault : pathFault? p with
  | some fault => simp
  | none =>
    have start : Way.Leads h.tree [] := trivial
    obtain ⟨missing, nothing⟩ | ⟨way, found, leads, location⟩ := Tree.way?_cases start (h.origin p)
    · have nothing : h.tree.node? (h.origin p) = none := nothing
      simp [missing, nothing]
    · have location : Way.location way = h.origin p := location
      have stands := leads.node?
      rw [location] at stands
      have followed : h.tree.follow way pieces = .ok spot ↔ _ := Tree.follow_eq_ok_iff leads
      rw [location] at followed
      simp [found, followed, stands]

theorem origin_mem_stops (h : Host) (p : Path) : h.origin p ∈ h.stops p := by
  rw [stops]
  cases split : p.pieces with
  | nil => exact absurd split (List.splitOn_ne_nil _ _)
  | cons first rest => exact List.mem_cons_self

theorem spot_eq_ok_iff {spot : Spot} :
    h.spot p = .ok spot ↔
      h.Reaches p ∧ spot = ⟨h.namedLocation p, h.tree.node? (h.namedLocation p)⟩ := by
  rw [Host.spot, followPieces_eq_ok_iff, ← namedLocation_eq]
  constructor
  · rintro ⟨taken, -, directories, short, same⟩
    exact ⟨⟨taken, short, directories⟩, same⟩
  · rintro ⟨⟨taken, short, directories⟩, same⟩
    refine ⟨taken, ?_, directories, short, same⟩
    rw [directories _ (h.origin_mem_stops p)]
    nofun

/-- A path leads where it led while the directories on its way are there. -/
theorem Reaches.of_directories {after : Host} (reaches : h.Reaches p)
    (start : after.workingDirectory = h.workingDirectory)
    (same : ∀ l ∈ h.stops p, h.tree.node? l = some .directory →
      after.tree.node? l = some .directory) :
    after.Reaches p where
  taken := reaches.taken
  short := reaches.short
  directories l hl := by
    rw [stops, origin, start] at hl
    exact same l hl (reaches.directories l hl)

theorem Reaches.spot_eq (reaches : h.Reaches p) :
    h.spot p = .ok ⟨h.namedLocation p, h.tree.node? (h.namedLocation p)⟩ :=
  spot_eq_ok_iff.2 ⟨reaches, rfl⟩

theorem node_eq_ok_iff {node : Node} :
    h.node p = .ok node ↔ h.Reaches p ∧ h.tree.node? (h.namedLocation p) = some node := by
  rw [Host.node]
  cases found : h.spot p with
  | error fault =>
    simp only [reduceCtorEq, false_iff]
    rintro ⟨reaches, -⟩
    rw [reaches.spot_eq] at found
    cases found
  | ok spot =>
    obtain ⟨reaches, rfl⟩ := spot_eq_ok_iff.1 found
    cases stands : h.tree.node? (h.namedLocation p) <;> simp [reaches]

theorem exists?_iff :
    h.exists? p = true ↔ h.Reaches p ∧ h.tree.node? (h.namedLocation p) ≠ none := by
  rw [exists?]
  cases found : h.node p with
  | error fault =>
    simp only [Bool.false_eq_true, false_iff]
    rintro ⟨reaches, stands⟩
    obtain ⟨node, stands⟩ := Option.ne_none_iff_exists'.1 stands
    rw [node_eq_ok_iff.2 ⟨reaches, stands⟩] at found
    cases found
  | ok node =>
    obtain ⟨reaches, stands⟩ := node_eq_ok_iff.1 found
    simp [reaches, stands]

theorem isDirectory_iff :
    h.isDirectory p = true ↔
      h.Reaches p ∧ h.tree.node? (h.namedLocation p) = some .directory := by
  rw [isDirectory, ← node_eq_ok_iff]
  cases h.node p with
  | error fault => simp
  | ok node => cases node <;> simp

theorem isFile_iff :
    h.isFile p = true ↔
      h.Reaches p ∧ ∃ file, h.tree.node? (h.namedLocation p) = some (.file file) := by
  simp only [← exists_and_left, ← node_eq_ok_iff]
  unfold isFile file?
  cases h.node p with
  | error fault => simp
  | ok node => cases node <;> simp

theorem isDirectory_eq_false_of_isFile (file : h.isFile p = true) : h.isDirectory p = false := by
  obtain ⟨-, file, stands⟩ := isFile_iff.1 file
  rw [Bool.eq_false_iff, Ne, isDirectory_iff, stands]
  simp

theorem names_of_isDirectory (there : h.isDirectory p = true) :
    h.names p = h.tree.names (h.namedLocation p) := by
  obtain ⟨reaches, stands⟩ := isDirectory_iff.1 there
  rw [names, reaches.spot_eq, stands]

/-- Nothing but a directory has names in it. -/
theorem names_of_not_isDirectory (other : h.isDirectory p = false) : h.names p = [] := by
  unfold names
  split
  · next place found =>
    obtain ⟨reaches, same⟩ := spot_eq_ok_iff.1 found
    have there := isDirectory_iff.2 ⟨reaches, (Spot.mk.inj same).2.symm⟩
    rw [other] at there
    cases there
  · rfl

theorem text_ne_empty (taken : pathFault? p = none) : p.text ≠ "" := by
  intro empty
  rw [pathFault?, empty] at taken
  simp at taken

theorem pathFault?_eq_none_iff :
    pathFault? p = none ↔
      '\x00' ∉ p.text.toList ∧ p.text ≠ "" ∧ p.text.utf8ByteSize ≤ maxPathLength := by
  rw [pathFault?]
  split
  · next nul => simpa using fun clean => absurd (by simpa using nul) clean
  · next clean =>
    split
    · next empty => simp [empty]
    · next nonempty =>
      split
      · next long => simp [Nat.not_le_of_lt long]
      · next fits => exact ⟨fun _ => ⟨by simpa using clean, nonempty, Nat.le_of_not_lt fits⟩,
          fun _ => rfl⟩

/-- A path is taken if one is taken that goes on from it. -/
theorem pathFault?_of_text {base : Path} {more : String} (nonempty : base.text ≠ "")
    (text : p.text = base.text ++ more) (taken : pathFault? p = none) :
    pathFault? base = none := by
  rw [pathFault?_eq_none_iff] at taken ⊢
  obtain ⟨clean, -, fits⟩ := taken
  rw [text] at clean fits
  refine ⟨fun nul => clean (by simp [nul]), nonempty, Nat.le_trans ?_ fits⟩
  rw [String.utf8ByteSize_append]
  exact Nat.le_add_right _ _

end Host

end BuildPlanner
