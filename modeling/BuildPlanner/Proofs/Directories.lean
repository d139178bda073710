import BuildPlanner.Files
import BuildPlanner.Proofs.Activities
import BuildPlanner.Proofs.Trees

/-!
# Making directories

A directory is made with those above it that are missing.  However far this gets, what was there
before is there afterwards, and nothing has come but directories on the way of the path
(`Host.Grows`).  So a file that could be read can be read still.
-/

namespace BuildPlanner

/-! ## Where something can be put -/

/-- A path that does not end at a directory ends at an entry of one. -/
theorem Tree.exists_entry_of_stops {t : Tree} {location : Location} {pieces : List (List Char)}
    (nonempty : pieces ≠ []) (stops : ∀ l ∈ location.stops pieces, t.node? l = some .directory)
    (other : t.node? (pieces.foldl Location.goOn location) ≠ some .directory) :
    ∃ directory piece name, piece ∈ pieces ∧ Component.ofPiece? piece = some (.name name) ∧
      pieces.foldl Location.goOn location = directory ++ [name] ∧
      t.node? directory = some .directory := by
  cases pieces using List.reverseRecOn with
  | nil => exact absurd rfl nonempty
  | append_singleton before piece =>
    rw [Location.stops_append, List.forall_mem_append] at stops
    have above := stops.2 _ List.mem_cons_self
    rw [List.foldl_append, List.foldl_cons, List.foldl_nil, Location.goOn] at other ⊢
    obtain blank | up | ⟨name, named⟩ := ofPiece?_cases piece
    · rw [blank] at other
      exact absurd above other
    · rw [up] at other
      refine absurd ?_ other
      change t.node? (List.dropLast _) = some .directory
      cases place : before.foldl Location.goOn location using List.reverseRecOn with
      | nil =>
        rwa [place] at above
      | append_singleton directory name =>
        rw [place] at above
        rw [List.dropLast_concat]
        exact node?_eq_directory (by simp [above]) (List.cons_ne_nil name [])
    · refine ⟨_, piece, name, by simp, named, ?_, above⟩
      rw [named]
      rfl

namespace Host

variable {h made : Host} {p : Path}

/-- A path that does not end at a directory ends at an entry of one. -/
theorem Reaches.exists_entry (reaches : h.Reaches p)
    (other : h.tree.node? (h.namedLocation p) ≠ some .directory) :
    ∃ directory name, h.namedLocation p = directory ++ [name] ∧ IsKeptName name ∧
      h.tree.node? directory = some .directory := by
  rw [namedLocation_eq] at other ⊢
  obtain ⟨directory, piece, name, hpiece, named, place, above⟩ :=
    Tree.exists_entry_of_stops (List.splitOn_ne_nil _ _) reaches.directories other
  obtain ⟨rfl, nonempty, here, up⟩ := ofPiece?_eq_some_name_iff.1 named
  have slash := notMem_of_mem_splitOn hpiece
  exact ⟨directory, name, place, ⟨⟨nonempty, slash, here, up⟩, reaches.short _ hpiece name named⟩,
    above⟩

/-- A path ends in blank pieces, if it ends in slashes. -/
theorem exists_blank (p : Path) : ∃ blank, p.pieces = solidPieces p ++ blank ∧
    ∀ piece ∈ blank, Component.ofPiece? piece = none := by
  refine ⟨(p.pieces.reverse.takeWhile (· == [])).reverse, ?_, fun piece hpiece => ?_⟩
  · rw [solidPieces, ← List.reverse_append, List.takeWhile_append_dropWhile, List.reverse_reverse]
  · have empty := List.all_eq_true.1 List.all_takeWhile piece (List.mem_reverse.1 hpiece)
    have empty : piece = [] := by simpa using empty
    rw [empty]
    rfl

theorem foldl_solidPieces (p : Path) (location : Location) :
    (solidPieces p).foldl Location.goOn location = p.pieces.foldl Location.goOn location := by
  obtain ⟨blank, whole, hblank⟩ := exists_blank p
  rw [whole, List.foldl_append, (Location.stays_of_blank hblank _).1]

theorem mem_pieces_of_mem_solidPieces {piece : List Char} (h : piece ∈ solidPieces p) :
    piece ∈ p.pieces :=
  List.mem_reverse.1 ((List.dropWhile_sublist _).mem (List.mem_reverse.1 h))

/-- A directory is made where nothing stood, as an entry of another. -/
theorem makeDirectory_eq_ok (h₁ : h.makeDirectory p = .ok made) :
    ∃ directory name, h.namedLocation p = directory ++ [name] ∧ IsKeptName name ∧
      h.tree.node? directory = some .directory ∧ h.tree.node? (directory ++ [name]) = none ∧
      made = h.put (directory ++ [name]) .directory := by
  rw [makeDirectory] at h₁
  obtain ⟨spot, followed, h₁⟩ := bind_eq_ok.1 h₁
  obtain ⟨-, start, stops, short, rfl⟩ := followPieces_eq_ok_iff.1 followed
  rw [foldl_solidPieces, ← namedLocation_eq] at h₁
  cases stands : h.tree.node? (h.namedLocation p) with
  | some node =>
    rw [stands] at h₁
    cases h₁
  | none =>
    rw [stands] at h₁
    obtain rfl := Except.ok.inj h₁
    rw [namedLocation_eq, ← foldl_solidPieces] at stands ⊢
    have nonempty : solidPieces p ≠ [] := by
      intro empty
      rw [empty] at stands
      exact start stands
    obtain ⟨directory, piece, name, hpiece, named, place, above⟩ :=
      Tree.exists_entry_of_stops nonempty stops (by rw [stands]; nofun)
    obtain ⟨rfl, nonempty, here, up⟩ := ofPiece?_eq_some_name_iff.1 named
    have slash := notMem_of_mem_splitOn (mem_pieces_of_mem_solidPieces hpiece)
    rw [place] at stands ⊢
    exact ⟨directory, name, rfl, ⟨⟨nonempty, slash, here, up⟩, short _ hpiece name named⟩, above,
      stands, rfl⟩

/-- What is made is a directory. -/
theorem isDirectory_of_makeDirectory (h₁ : h.makeDirectory p = .ok made) :
    made.isDirectory p = true := by
  obtain ⟨directory, name, place, -, above, free, rfl⟩ := makeDirectory_eq_ok h₁
  rw [makeDirectory] at h₁
  obtain ⟨spot, followed, -⟩ := bind_eq_ok.1 h₁
  obtain ⟨taken, -, stops, short, -⟩ := followPieces_eq_ok_iff.1 followed
  have view := Tree.node?_put .directory above (by rw [free]; nofun)
  obtain ⟨blank, whole, hblank⟩ := exists_blank p
  have stands : (h.put (directory ++ [name]) .directory).tree.node? (h.namedLocation p) =
      some .directory := by
    rw [Host.put, view, if_pos place]
  refine isDirectory_iff.2 ⟨⟨taken, fun piece hpiece => ?_, fun l hl => ?_⟩, stands⟩
  · rw [whole, List.mem_append] at hpiece
    obtain hpiece | hpiece := hpiece
    · exact short piece hpiece
    · simp [IsShort, hblank piece hpiece]
  · have hl : l ∈ h.stops p := hl
    rw [Host.stops, whole, Location.stops_append, List.mem_append] at hl
    obtain hl | hl := hl
    · have stood := stops l hl
      rw [Host.put, view, stood, ite_self]
    · rw [(Location.stays_of_blank hblank _).2 l hl, foldl_solidPieces, ← namedLocation_eq, stands]

/-! ## Growth -/

/-- A host on which all is as it was, but that there may be new directories, where some could be
added. -/
structure Grows (h after : Host) (added : Location → Prop) : Prop where
  others : after = { h with tree := after.tree }
  view : ∀ l, after.tree.node? l = h.tree.node? l ∨
    added l ∧ h.tree.node? l = none ∧ after.tree.node? l = some .directory
  tidy : h.tree.Tidy → after.tree.Tidy

namespace Grows

variable {after : Host} {added : Location → Prop}

theorem refl (h : Host) (added : Location → Prop) : h.Grows h added :=
  ⟨rfl, fun _ => .inl rfl, id⟩

theorem trans {last : Host} (first : h.Grows after added) (second : after.Grows last added) :
    h.Grows last added where
  others := by
    rw [second.others, first.others]
  view l := by
    obtain same | ⟨new, none, made⟩ := second.view l
    · rw [same]
      exact first.view l
    · rw [made]
      obtain same | ⟨-, -, stands⟩ := first.view l
      · exact .inr ⟨new, same ▸ none, rfl⟩
      · rw [none] at stands
        cases stands
  tidy tidy := second.tidy (first.tidy tidy)

theorem mono {more : Location → Prop} (grows : h.Grows after added) (wider : ∀ l, added l → more l) :
    h.Grows after more :=
  ⟨grows.others, fun l => (grows.view l).imp_right (.imp_left (wider l)), grows.tidy⟩

/-- What was there is there still. -/
theorem node? (grows : h.Grows after added) {l : Location} {node : Node}
    (stands : h.tree.node? l = some node) : after.tree.node? l = some node := by
  obtain same | ⟨-, none, -⟩ := grows.view l
  · rw [same, stands]
  · rw [none] at stands
    cases stands

theorem namedLocation (grows : h.Grows after added) (p : Path) :
    after.namedLocation p = h.namedLocation p := by
  rw [grows.others]
  rfl

theorem reaches (grows : h.Grows after added) (reaches : h.Reaches p) : after.Reaches p :=
  reaches.of_directories (by rw [grows.others]) fun _ _ => grows.node?

theorem node (grows : h.Grows after added) {node : Node} (stands : h.node p = .ok node) :
    after.node p = .ok node := by
  obtain ⟨reaches, stands⟩ := node_eq_ok_iff.1 stands
  rw [node_eq_ok_iff, grows.namedLocation]
  exact ⟨grows.reaches reaches, grows.node? stands⟩

end Grows

/-- A location that a path or one of its beginnings leads to. -/
def OnWay (h : Host) (p : Path) (l : Location) : Prop :=
  ∃ before, before <+: p.components ∧ l = before.foldl namedLocation.step (h.origin p)

theorem onWay_namedLocation (h : Host) (p : Path) : h.OnWay p (h.namedLocation p) :=
  ⟨p.components, List.prefix_rfl, rfl⟩

theorem grows_of_makeDirectory (h₁ : h.makeDirectory p = .ok made) : h.Grows made (h.OnWay p) := by
  obtain ⟨directory, name, place, kept, above, free, rfl⟩ := makeDirectory_eq_ok h₁
  refine ⟨rfl, fun l => ?_, fun tidy => ?_⟩
  · have view := Tree.node?_put .directory above (by rw [free]; nofun) l
    split at view
    · next same =>
      exact .inr ⟨same ▸ place ▸ onWay_namedLocation h p, same ▸ free, view⟩
    · exact .inl view
  · refine tidy.put (List.forall_mem_append.2 ⟨tidy.kept (by rw [above]; nofun), ?_⟩) _
    simpa using kept

theorem Grows.onWay {added : Location → Prop} (grows : h.Grows made added) (p : Path) :
    made.OnWay p = h.OnWay p := by
  rw [grows.others]
  rfl

/-- What is on the way of the parent is on the way of the path. -/
theorem OnWay.of_parent {parent : Path} (h₁ : p.parent? = some parent) {l : Location}
    (onWay : h.OnWay parent l) : h.OnWay p l := by
  obtain ⟨before, within, place⟩ := onWay
  obtain ⟨shorter, absolute⟩ := Path.parent?_eq_some h₁
  refine ⟨before, within.trans shorter, ?_⟩
  rw [place, origin, origin, absolute]

end Host

namespace Files

variable {h after : Host} {p : Path}

theorem grows_of_makeAll {fuel : Nat} {result : Except TreeFault Unit}
    (h₁ : makeAll fuel p h = (result, after)) : h.Grows after (h.OnWay p) := by
  induction fuel generalizing p h after result with
  | zero =>
    cases h₁
    exact .refl h _
  | succ fuel ih =>
    simp only [makeAll] at h₁
    split at h₁
    · cases h₁
      exact .refl h _
    cases direct : h.makeDirectory p with
    | ok made =>
      rw [direct] at h₁
      cases h₁
      exact Host.grows_of_makeDirectory direct
    | error fault =>
      rw [direct] at h₁
      split at h₁
      · next made =>
        cases made
      · split at h₁
        · cases h₁
          exact .refl h _
        · next parent found =>
          cases above : makeAll fuel parent h with
          | mk outcome middle =>
            rw [above] at h₁
            have grows := (ih above).mono fun l => Host.OnWay.of_parent found
            cases outcome with
            | error fault =>
              cases h₁
              exact grows
            | ok done =>
              dsimp only at h₁
              cases last : middle.makeDirectory p with
              | ok made =>
                rw [last] at h₁
                cases h₁
                exact grows.trans (grows.onWay p ▸ Host.grows_of_makeDirectory last)
              | error fault =>
                rw [last] at h₁
                cases h₁
                exact grows
      · cases h₁
        exact .refl h _

/-- Whatever comes of it, nothing but directories on the way of the path is made. -/
theorem grows_of_ensureDirectory {result : Except Failure Unit}
    (h₁ : ensureDirectory p h = (result, after)) : h.Grows after (h.OnWay p) := by
  rw [ensureDirectory] at h₁
  split at h₁
  · cases h₁
    exact .refl h _
  · simp only [Activity.mapFault] at h₁
    split at h₁ <;> next done => cases h₁; exact grows_of_makeAll done

/-- Where a directory cannot be made, there has to be one. -/
theorem isDirectory_of_eq_ok {middle : Host} {fault : TreeFault}
    (h₁ : ((if middle.isDirectory p then .ok () else .error fault, middle) :
      Except TreeFault Unit × Host) = (.ok (), after)) : after.isDirectory p = true := by
  split at h₁
  · next stands =>
    cases h₁
    exact stands
  · cases h₁

theorem isDirectory_of_makeAll {fuel : Nat} (named : p.text ≠ "")
    (h₁ : makeAll fuel p h = (.ok (), after)) : after.isDirectory p = true := by
  cases fuel with
  | zero => cases h₁
  | succ fuel =>
    simp only [makeAll, if_neg named] at h₁
    cases direct : h.makeDirectory p with
    | ok made =>
      rw [direct] at h₁
      cases h₁
      exact Host.isDirectory_of_makeDirectory direct
    | error fault =>
      rw [direct] at h₁
      split at h₁
      · next made =>
        cases made
      · split at h₁
        · cases h₁
        · split at h₁
          · cases h₁
          · split at h₁
            · next last =>
              cases h₁
              exact Host.isDirectory_of_makeDirectory last
            · exact isDirectory_of_eq_ok h₁
      · exact isDirectory_of_eq_ok h₁

/-- What is ensured is a directory, unless something stood there. -/
theorem isDirectory_of_ensureDirectory (named : p.text ≠ "") (absent : h.exists? p = false)
    (h₁ : ensureDirectory p h = (.ok (), after)) : after.isDirectory p = true := by
  rw [ensureDirectory, if_neg (by simp [absent]), Activity.mapFault_eq_ok] at h₁
  exact isDirectory_of_makeAll named h₁

theorem ensureDirectory_of_exists (there : h.exists? p = true) :
    ensureDirectory p h = (.ok (), h) := by
  rw [ensureDirectory, if_pos there]

theorem ensureDirectory_of_makeDirectory (nonempty : p.text ≠ "") (absent : h.exists? p = false)
    (made : h.makeDirectory p = .ok after) : ensureDirectory p h = (.ok (), after) := by
  rw [ensureDirectory, if_neg (by simp [absent]), Activity.mapFault]
  simp only [makeAll, if_neg nonempty, made]

end Files

end BuildPlanner
