import BuildPlanner.Proofs.Activities
import BuildPlanner.Proofs.Directories

/-!
# Written files

A file that has been written holds what was written, and the files at other places hold what they
held (`Files.read_of_write`, `Files.read_of_write_of_ne`), though directories may have been made.
-/

namespace BuildPlanner

namespace Host

variable {h after : Host} {p q : Path} {text other : String}

theorem read_eq_ok_iff :
    h.read p = .ok text ↔ ∃ file, h.node p = .ok (.file file) ∧ file.content = .text text := by
  rw [read, content]
  cases h.node p with
  | error fault => simp
  | ok node =>
    cases node with
    | directory => simp
    | file file => cases held : file.content <;> simp [held]

theorem isFile_of_read (held : h.read p = .ok text) : h.isFile p = true := by
  obtain ⟨file, stands, -⟩ := read_eq_ok_iff.1 held
  obtain ⟨reaches, stands⟩ := node_eq_ok_iff.1 stands
  exact isFile_iff.2 ⟨reaches, file, stands⟩

@[simp] theorem read_report (h : Host) (severity : Severity) (text : String) (p : Path) :
    (h.report severity text).read p = h.read p := by
  unfold report
  split <;> rfl

theorem Grows.read {added : Location → Prop} (grows : h.Grows after added)
    (held : h.read p = .ok text) : after.read p = .ok text := by
  obtain ⟨file, stands, content⟩ := read_eq_ok_iff.1 held
  exact read_eq_ok_iff.2 ⟨file, grows.node stands, content⟩

/-- A path with a slash at its end leads to a directory. -/
theorem Reaches.directory_of_endsInSlash (reaches : h.Reaches p) (slash : endsInSlash p = true) :
    h.tree.node? (h.namedLocation p) = some .directory := by
  rw [endsInSlash, beq_iff_eq] at slash
  obtain ⟨before, text⟩ := List.getLast?_eq_some_iff.1 slash
  have pieces : p.pieces = before.splitOn '/' ++ [[]] := by
    rw [Path.pieces, text, List.splitOn_append_cons_self, List.splitOn_nil]
  refine reaches.directories _ ?_
  rw [stops, namedLocation_eq, pieces, Location.stops_append, List.foldl_append]
  exact List.mem_append_right _ List.mem_cons_self

/-- A file can be written where a path leads and no directory stands. -/
theorem fileSpot_eq_ok_iff {spot : Spot} :
    h.fileSpot p = .ok spot ↔
      h.Reaches p ∧ spot = ⟨h.namedLocation p, h.tree.node? (h.namedLocation p)⟩ ∧
        h.tree.node? (h.namedLocation p) ≠ some .directory := by
  rw [fileSpot]
  constructor
  · intro found
    split at found
    · split at found <;> cases found
    · split at found
      · cases found
      · next free =>
        obtain ⟨reaches, rfl⟩ := spot_eq_ok_iff.1 found
        exact ⟨reaches, rfl, fun stands => free _ (by rw [found, stands])⟩
  · rintro ⟨reaches, rfl, free⟩
    rw [if_neg fun slash => free (reaches.directory_of_endsInSlash slash), reaches.spot_eq]
    split
    · next stands => exact absurd (Spot.mk.inj (Except.ok.inj stands)).2 free
    · rfl

/-- A file is put where no directory stands, and nothing else changes. -/
theorem write_eq_ok (h₁ : h.write p text = .ok after) :
    h.Reaches p ∧ after = { h with tree := after.tree } ∧
      h.tree.node? (h.namedLocation p) ≠ some .directory ∧
      (h.tree.Tidy → after.tree.Tidy) ∧
      ∃ file, file.content = .text text ∧ ∀ l, after.tree.node? l =
        if l = h.namedLocation p then some (.file file) else h.tree.node? l := by
  obtain ⟨spot, found, h₁⟩ := bind_eq_ok.1 h₁
  obtain ⟨executable, rfl⟩ : ∃ executable, after =
      h.put spot.location (.file ⟨.text text, h.clock, executable⟩) :=
    ⟨_, (Except.ok.inj h₁).symm⟩
  obtain ⟨reaches, rfl, free⟩ := fileSpot_eq_ok_iff.1 found
  obtain ⟨directory, name, place, kept, above⟩ := reaches.exists_entry free
  refine ⟨reaches, rfl, free, fun tidy => tidy.put ?_ _, ⟨.text text, h.clock, executable⟩, rfl, ?_⟩
  · rw [place]
    refine List.forall_mem_append.2 ⟨tidy.kept (by rw [above]; nofun), ?_⟩
    simpa using kept
  · rw [place] at free ⊢
    exact Tree.node?_put _ above free

theorem exists_write (reaches : h.Reaches p)
    (free : h.tree.node? (h.namedLocation p) ≠ some .directory) (text : String) :
    ∃ after, h.write p text = .ok after := by
  unfold write
  rw [fileSpot_eq_ok_iff.2 ⟨reaches, rfl, free⟩]
  exact ⟨_, rfl⟩

theorem Reaches.of_write (reaches : h.Reaches q) (h₁ : h.write p text = .ok after) :
    after.Reaches q := by
  obtain ⟨-, others, free, -, file, -, view⟩ := write_eq_ok h₁
  refine reaches.of_directories (by rw [others]) fun l _ stands => ?_
  have elsewhere : l ≠ h.namedLocation p := by
    rintro rfl
    exact free stands
  rw [view, if_neg elsewhere, stands]

theorem namedLocation_of_write (h₁ : h.write p text = .ok after) (q : Path) :
    after.namedLocation q = h.namedLocation q := by
  rw [(write_eq_ok h₁).2.1]
  rfl

theorem read_of_write (h₁ : h.write p text = .ok after) : after.read p = .ok text := by
  obtain ⟨reaches, -, -, -, file, content, view⟩ := write_eq_ok h₁
  refine read_eq_ok_iff.2 ⟨file, node_eq_ok_iff.2 ⟨reaches.of_write h₁, ?_⟩, content⟩
  rw [namedLocation_of_write h₁, view, if_pos rfl]

theorem read_of_write_of_ne (h₁ : h.write p text = .ok after)
    (ne : h.namedLocation q ≠ h.namedLocation p) (held : h.read q = .ok other) :
    after.read q = .ok other := by
  obtain ⟨-, -, -, -, made, -, view⟩ := write_eq_ok h₁
  obtain ⟨file, stands, content⟩ := read_eq_ok_iff.1 held
  obtain ⟨reaches, stands⟩ := node_eq_ok_iff.1 stands
  refine read_eq_ok_iff.2 ⟨file, node_eq_ok_iff.2 ⟨reaches.of_write h₁, ?_⟩, content⟩
  rw [namedLocation_of_write h₁, view, if_neg ne, stands]

end Host

/-! ## Parents -/

namespace Host

variable {h : Host} {p base parent : Path}

/-- What a path leads through is a directory. -/
theorem Reaches.isDirectory_of_pieces {more : List (List Char)} (reaches : h.Reaches p)
    (named : base.text ≠ "") (split : p.pieces = base.pieces ++ more) (nonempty : more ≠ []) :
    h.isDirectory base = true := by
  have text := Path.toList_of_pieces split nonempty
  have whole : p.text = base.text ++ .ofList ('/' :: ['/'].intercalate more) :=
    String.toList_inj.1 (by simp [text])
  have start : h.origin p = h.origin base := by
    obtain ⟨c, rest, written⟩ := exists_cons_of_ne_empty named
    rw [origin, origin, Path.isAbsolute, Path.isAbsolute, text, written]
    rfl
  have through : h.stops p = h.stops base ++ (h.namedLocation base).stops more := by
    rw [stops, split, Location.stops_append, start, ← namedLocation_eq, ← stops]
  refine isDirectory_iff.2 ⟨⟨pathFault?_of_text named whole reaches.taken,
    fun piece hpiece => reaches.short piece ?_, fun l hl => reaches.directories l ?_⟩,
    reaches.directories _ ?_⟩
  · rw [split]
    exact List.mem_append_left _ hpiece
  · rw [through]
    exact List.mem_append_left _ hl
  · obtain ⟨first, rest, rfl⟩ := List.exists_cons_of_ne_nil nonempty
    rw [through]
    exact List.mem_append_right _ List.mem_cons_self

/-- A path leads through its parent, unless that is empty. -/
theorem Reaches.isDirectory_of_parent? (reaches : h.Reaches p) (h₁ : p.parent? = some parent) :
    parent.text = "" ∨ h.isDirectory parent = true := by
  obtain ⟨rfl, -⟩ | ⟨rfl, absolute⟩ | ⟨named, more, nonempty, split⟩ := Path.parent?_cases h₁
  · exact .inl rfl
  · have top := reaches.directories _ (h.origin_mem_stops p)
    rw [origin, if_pos absolute] at top
    have pieces : Path.pieces ⟨"/"⟩ = [[], []] := by decide
    have stops : h.stops ⟨"/"⟩ = [[], []] := by
      rw [Host.stops, pieces]
      rfl
    refine .inr (isDirectory_iff.2 ⟨⟨by decide, ?_, ?_⟩, top⟩)
    · have blank : IsShort [] := by simp [IsShort, Component.ofPiece?]
      simp [pieces, blank]
    · simpa [stops] using top
  · exact .inr (reaches.isDirectory_of_pieces named split nonempty)

end Host

namespace Files

variable {h after : Host} {p q : Path} {text other : String}

/-- There is nothing to be made on the way to where a path leads. -/
theorem ensureParent_of_reaches (reaches : h.Reaches p) : ensureParent p h = (.ok (), h) := by
  unfold ensureParent
  cases found : p.parent? with
  | none => rfl
  | some parent =>
    dsimp only
    rcases reaches.isDirectory_of_parent? found with empty | there
    · unfold ensureDirectory Activity.mapFault
      simp only [makeAll, if_pos empty, ite_self]
    · obtain ⟨reached, stands⟩ := Host.isDirectory_iff.1 there
      exact ensureDirectory_of_exists (Host.exists?_iff.2 ⟨reached, by simp [stands]⟩)

theorem grows_of_ensureParent {result : Except Failure Unit}
    (h₁ : ensureParent p h = (result, after)) : h.Grows after (h.OnWay p) := by
  unfold ensureParent at h₁
  cases found : p.parent? with
  | some parent =>
    rw [found] at h₁
    exact (grows_of_ensureDirectory h₁).mono fun l => Host.OnWay.of_parent found
  | none =>
    rw [found] at h₁
    cases h₁
    exact .refl h _

/-- A file is written after nothing but directories has been made. -/
theorem exists_of_write (h₁ : write p text h = (.ok (), after)) :
    ∃ middle, h.Grows middle (h.OnWay p) ∧ middle.write p text = .ok after := by
  obtain ⟨_, middle, above, written⟩ := Activity.bind_eq_ok.1 h₁
  exact ⟨middle, grows_of_ensureParent above, mapError_eq_ok.1 (Activity.ofStep_eq_ok.1 written)⟩

/-- What can be written is no directory. -/
theorem free_of_write (h₁ : write p text h = (.ok (), after)) :
    Host.pathFault? p = none ∧ h.tree.node? (h.namedLocation p) ≠ some .directory := by
  obtain ⟨middle, grows, written⟩ := exists_of_write h₁
  obtain ⟨reaches, -, free, -⟩ := Host.write_eq_ok written
  rw [grows.namedLocation] at free
  exact ⟨reaches.taken, fun stands => free (grows.node? stands)⟩

theorem read_of_write (h₁ : write p text h = (.ok (), after)) : after.read p = .ok text := by
  obtain ⟨middle, -, written⟩ := exists_of_write h₁
  exact Host.read_of_write written

/-- What other files hold is not changed. -/
theorem read_of_write_of_ne (h₁ : write p text h = (.ok (), after))
    (ne : h.namedLocation q ≠ h.namedLocation p) (held : h.read q = .ok other) :
    after.read q = .ok other := by
  obtain ⟨middle, grows, written⟩ := exists_of_write h₁
  refine Host.read_of_write_of_ne written ?_ (grows.read held)
  rwa [grows.namedLocation, grows.namedLocation]

end Files

end BuildPlanner
