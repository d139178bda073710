import BuildPlanner.Proofs.Lookup

/-!
# What lies below a path

A path that goes on from a base leads through the base, and what stands below the base is found by
it, if the names on the way can be kept and the whole path can be taken (`Path.Fits`).  So all that
is asked of such a path is asked of the view of the tree (`Host.toOption_node_descend`).
-/

namespace BuildPlanner

/-! ## Entries -/

/-- A name that an entry of a directory can have and be found by. -/
structure IsKeptName (name : String) : Prop where
  entry : IsEntryName name
  short : name.utf8ByteSize ≤ maxNameLength

instance (name : String) : Decidable (IsKeptName name) :=
  decidable_of_iff (IsEntryName name ∧ name.utf8ByteSize ≤ maxNameLength)
    ⟨fun h => ⟨h.1, h.2⟩, fun h => ⟨h.entry, h.short⟩⟩

theorem IsKeptName.isShort {name : String} (h : IsKeptName name) : IsShort name.toList := by
  intro other named
  rw [h.entry.ofPiece?] at named
  cases named
  exact h.short

/-- The path that goes on from a base to what lies below it. -/
def Path.descend (base : Path) (more : Location) : Path :=
  more.foldl Path.entry base

namespace Path

variable {base : Path} {name : String} {more : Location}

@[simp] theorem descend_nil (base : Path) : base.descend [] = base := rfl

theorem descend_concat (base : Path) (more : Location) (name : String) :
    base.descend (more ++ [name]) = (base.descend more).entry name := by
  rw [descend, List.foldl_append]
  rfl

theorem text_entry_ne_empty (nonempty : base.text ≠ "") (h : IsEntryName name) :
    (base.entry name).text ≠ "" := by
  intro empty
  have empty := String.toList_eq_nil_iff.2 empty
  obtain ⟨-, written⟩ | written := toList_entry nonempty h.slash <;> rw [empty] at written <;>
    simp at written
  exact nonempty written.1

theorem text_descend_ne_empty (nonempty : base.text ≠ "") (names : ∀ name ∈ more, IsEntryName name) :
    (base.descend more).text ≠ "" := by
  induction more using List.reverseRecOn with
  | nil => exact nonempty
  | append_singleton more name ih =>
    rw [descend_concat]
    have ih := ih fun other hother => names other (List.mem_append_left _ hother)
    exact text_entry_ne_empty ih (names name (by simp))

theorem isAbsolute_entry (base : Path) (slash : '/' ∉ name.toList) :
    (base.entry name).isAbsolute = base.isAbsolute := by
  by_cases empty : base.text = ""
  · obtain rfl : base = ⟨""⟩ := congrArg Path.mk empty
    have relative : name.toList.head? ≠ some '/' := fun start => slash (List.mem_of_mem_head? start)
    simp [isAbsolute, relative]
  · obtain ⟨first, rest, text⟩ := exists_cons_of_ne_empty empty
    obtain ⟨-, written⟩ | written := toList_entry empty slash <;>
      rw [isAbsolute, isAbsolute, written, text] <;> rfl

theorem components_descend (base : Path) (names : ∀ name ∈ more, IsEntryName name) :
    (base.descend more).components = base.components ++ more.map .name := by
  induction more using List.reverseRecOn with
  | nil => simp
  | append_singleton more name ih =>
    rw [descend_concat, components_entry _ (names name (by simp)),
      ih fun other hother => names other (List.mem_append_left _ hother)]
    simp

/-- What is taken for an entry is taken for the directory. -/
theorem pathFault?_of_entry (nonempty : base.text ≠ "") (h : IsEntryName name)
    (taken : Host.pathFault? (base.entry name) = none) : Host.pathFault? base = none := by
  have inside : ∃ after, (base.entry name).text = base.text ++ after := by
    obtain ⟨-, written⟩ | written := toList_entry nonempty h.slash
    · exact ⟨name, String.toList_inj.1 (by simp [written])⟩
    · exact ⟨"/" ++ name, String.toList_inj.1 (by simp [written])⟩
  obtain ⟨after, text⟩ := inside
  exact Host.pathFault?_of_text nonempty text taken

theorem pathFault?_of_descend (nonempty : base.text ≠ "") {rest : Location}
    (names : ∀ name ∈ more ++ rest, IsEntryName name)
    (taken : Host.pathFault? (base.descend (more ++ rest)) = none) :
    Host.pathFault? (base.descend more) = none := by
  induction rest using List.reverseRecOn with
  | nil => rwa [List.append_nil] at taken
  | append_singleton rest name ih =>
    rw [← List.append_assoc] at names taken
    have before : ∀ name ∈ more ++ rest, IsEntryName name :=
      fun other hother => names other (List.mem_append_left _ hother)
    rw [descend_concat] at taken
    exact ih before (pathFault?_of_entry (text_descend_ne_empty nonempty before)
      (names name (by simp)) taken)

/-- A path below a base is longer than the way from the base. -/
theorem length_le_of_descend (nonempty : base.text ≠ "")
    (names : ∀ name ∈ more, IsEntryName name) :
    more.length ≤ (base.descend more).text.utf8ByteSize := by
  induction more using List.reverseRecOn with
  | nil => exact Nat.zero_le _
  | append_singleton more name ih =>
    have before : ∀ name ∈ more, IsEntryName name :=
      fun other hother => names other (List.mem_append_left _ hother)
    have grows := ih before
    have named : 0 < name.utf8ByteSize := by
      have nonempty := (names name (by simp)).nonempty
      exact Nat.pos_of_ne_zero fun zero => nonempty (String.utf8ByteSize_eq_zero_iff.1 zero)
    have inside : ∃ between, (base.descend (more ++ [name])).text =
        (base.descend more).text ++ between ++ name := by
      rw [descend_concat]
      obtain ⟨-, written⟩ | written := toList_entry (text_descend_ne_empty nonempty before)
        (names name (by simp)).slash
      · exact ⟨"", String.toList_inj.1 (by simp [written])⟩
      · exact ⟨"/", String.toList_inj.1 (by simp [written])⟩
    obtain ⟨between, text⟩ := inside
    rw [text, String.utf8ByteSize_append, String.utf8ByteSize_append, List.length_append,
      List.length_singleton]
    omega

/-- A place below a base that a path can name: each name on the way can be kept, and the system takes
the path. -/
structure Fits (base : Path) (more : Location) : Prop where
  kept : ∀ name ∈ more, IsKeptName name
  taken : Host.pathFault? (base.descend more) = none

theorem Fits.entries (fits : base.Fits more) : ∀ name ∈ more, IsEntryName name :=
  fun name hname => (fits.kept name hname).entry

theorem Fits.before {rest : Location} (nonempty : base.text ≠ "")
    (fits : base.Fits (more ++ rest)) : base.Fits more where
  kept name hname := fits.kept name (List.mem_append_left _ hname)
  taken := pathFault?_of_descend nonempty fits.entries fits.taken

theorem Fits.length_le (nonempty : base.text ≠ "") (fits : base.Fits more) :
    more.length ≤ maxPathLength :=
  (length_le_of_descend nonempty fits.entries).trans
    (Host.pathFault?_eq_none_iff.1 fits.taken).2.2

end Path

namespace Host

variable {h : Host} {base : Path} {name : String} {more : Location}

theorem namedLocation_empty (h : Host) : h.namedLocation ⟨""⟩ = h.workingDirectory := by
  rw [namedLocation, Path.components_empty]
  rfl

theorem namedLocation_entry (h : Host) (base : Path) (hname : IsEntryName name) :
    h.namedLocation (base.entry name) = h.namedLocation base ++ [name] := by
  rw [namedLocation, namedLocation, Path.components_entry base hname, List.foldl_append, origin,
    origin, Path.isAbsolute_entry base hname.slash]
  rfl

theorem namedLocation_descend (h : Host) (base : Path) (names : ∀ name ∈ more, IsEntryName name) :
    h.namedLocation (base.descend more) = h.namedLocation base ++ more := by
  induction more using List.reverseRecOn with
  | nil => simp
  | append_singleton more name ih =>
    rw [Path.descend_concat, namedLocation_entry h _ (names name (by simp)),
      ih fun other hother => names other (List.mem_append_left _ hother), List.append_assoc]

/-- A single name is looked up in the directory in which the run was started. -/
theorem stops_of_pieces {p : Path} {piece : List Char} (single : p.pieces = [piece]) :
    h.stops p = [h.workingDirectory] := by
  rw [stops, origin, Path.isAbsolute_of_pieces single, single]
  simp [Location.stops]

/-- A path to an entry starts where the path to the directory does, and ends in the directory. -/
theorem mem_stops_entry {l : Location} (base : Path) (slash : '/' ∉ name.toList) :
    l ∈ h.stops (base.entry name) ↔ l ∈ h.stops base ∨ l = h.namedLocation base := by
  by_cases empty : base.text = ""
  · obtain rfl : base = ⟨""⟩ := congrArg Path.mk empty
    have single : Path.pieces ⟨""⟩ = [[]] := by decide
    rw [Path.entry_empty, stops_of_pieces (List.splitOn_eq_singleton slash), namedLocation_empty,
      stops_of_pieces single, List.mem_singleton, or_self]
  have start : h.origin (base.entry name) = h.origin base := by
    rw [origin, origin, Path.isAbsolute_entry base slash]
  obtain ⟨before, split, pieces⟩ | pieces := Path.pieces_entry_of_ne_empty empty slash
  · have place : h.namedLocation base = before.foldl Location.goOn (h.origin base) := by
      rw [namedLocation_eq, split, List.foldl_append]
      rfl
    rw [stops, stops, start, pieces, split, place]
    simp [Location.stops_append, Location.stops]
  · rw [stops, stops, start, pieces, namedLocation_eq]
    simp [Location.stops_append, Location.stops]

/-- A path to an entry leads on from the directory. -/
theorem reaches_entry_iff (nonempty : base.text ≠ "") (hname : IsKeptName name)
    (taken : pathFault? (base.entry name) = none) :
    h.Reaches (base.entry name) ↔
      h.Reaches base ∧ h.tree.node? (h.namedLocation base) = some .directory := by
  have short : (∀ piece ∈ (base.entry name).pieces, IsShort piece) ↔
      ∀ piece ∈ base.pieces, IsShort piece := by
    have blank : IsShort [] := nofun
    obtain ⟨before, split, pieces⟩ | pieces :=
      Path.pieces_entry_of_ne_empty nonempty hname.entry.slash
    · simp [pieces, split, or_imp, forall_and, blank, hname.isShort]
    · simp [pieces, or_imp, forall_and, hname.isShort]
  constructor
  · intro reaches
    refine ⟨⟨Path.pathFault?_of_entry nonempty hname.entry taken, short.1 reaches.short,
      fun l hl => ?_⟩, ?_⟩
    · exact reaches.directories l ((mem_stops_entry base hname.entry.slash).2 (.inl hl))
    · exact reaches.directories _ ((mem_stops_entry base hname.entry.slash).2 (.inr rfl))
  · rintro ⟨reaches, stands⟩
    refine ⟨taken, short.2 reaches.short, fun l hl => ?_⟩
    obtain hl | rfl := (mem_stops_entry base hname.entry.slash).1 hl
    · exact reaches.directories l hl
    · exact stands

/-- A single name leads through the directory in which the run was started. -/
theorem reaches_iff_of_pieces {p : Path} {piece : List Char} (taken : pathFault? p = none)
    (single : p.pieces = [piece]) (short : IsShort piece) :
    h.Reaches p ↔ h.tree.node? h.workingDirectory = some .directory := by
  have stops : h.stops p = [h.workingDirectory] := stops_of_pieces single
  refine ⟨fun reaches => reaches.directories _ (by simp [stops]), fun stands => ⟨taken, ?_, ?_⟩⟩
  · simpa [single] using short
  · simpa [stops] using stands

theorem isDirectory_here_iff :
    h.isDirectory ⟨"."⟩ = true ↔ h.tree.node? h.workingDirectory = some .directory := by
  have single : Path.pieces ⟨"."⟩ = [['.']] := by decide
  have place : h.namedLocation ⟨"."⟩ = h.workingDirectory := by
    rw [namedLocation_eq, single]
    rfl
  rw [isDirectory_iff, place, reaches_iff_of_pieces (by decide) single nofun, and_self]

/-- What stands at a place below a base. -/
def below (h : Host) (base : Path) (more : Location) : Option Node :=
  h.tree.node? (h.namedLocation base ++ more)

theorem below_append_eq_none {rest : Location} (other : h.below base more ≠ some .directory)
    (nonempty : rest ≠ []) : h.below base (more ++ rest) = none := by
  rw [below, ← List.append_assoc]
  exact Tree.node?_append_eq_none other nonempty

theorem below_eq_directory {rest : Location} (stands : h.below base (more ++ rest) ≠ none)
    (nonempty : rest ≠ []) : h.below base more = some .directory :=
  not_not.1 fun other => stands (below_append_eq_none other nonempty)

theorem below_ne_none_of_append {rest : Location} (stands : h.below base (more ++ rest) ≠ none) :
    h.below base more ≠ none := by
  rw [below, ← List.append_assoc] at stands
  exact Tree.node?_ne_none_of_append stands

theorem reaches_descend_concat_iff (nonempty : base.text ≠ "")
    (fits : base.Fits (more ++ [name])) :
    h.Reaches (base.descend (more ++ [name])) ↔
      h.Reaches (base.descend more) ∧
        h.below base more = some .directory := by
  have names : ∀ name ∈ more, IsEntryName name :=
    fun name hname => (fits.kept name (List.mem_append_left _ hname)).entry
  have taken := fits.taken
  rw [Path.descend_concat] at taken ⊢
  rw [reaches_entry_iff (Path.text_descend_ne_empty nonempty names) (fits.kept name (by simp)) taken,
    namedLocation_descend h base names, below]

/-- What stands below a base that is reached is reached from it. -/
theorem reaches_descend (reaches : h.Reaches base) (fits : base.Fits more)
    (stands : h.below base more ≠ none) :
    h.Reaches (base.descend more) := by
  have nonempty := text_ne_empty reaches.taken
  induction more using List.reverseRecOn with
  | nil => exact reaches
  | append_singleton more name ih =>
    have above := below_eq_directory stands (List.cons_ne_nil name [])
    rw [reaches_descend_concat_iff nonempty fits]
    exact ⟨ih (fits.before nonempty) (by rw [above]; nofun), above⟩

section Below

variable (reaches : h.Reaches base)
include reaches

/-- An entry of a directory below a base is reached, also where nothing stands there. -/
theorem reaches_descend_concat (fits : base.Fits (more ++ [name]))
    (above : h.below base more = some .directory) :
    h.Reaches (base.descend (more ++ [name])) := by
  have nonempty := text_ne_empty reaches.taken
  rw [reaches_descend_concat_iff nonempty fits]
  exact ⟨reaches_descend reaches (fits.before nonempty) (by rw [above]; nofun), above⟩

variable (fits : base.Fits more)
include fits

theorem node_descend_eq_ok_iff {node : Node} :
    h.node (base.descend more) = .ok node ↔
      h.below base more = some node := by
  rw [node_eq_ok_iff, namedLocation_descend h base fits.entries, ← below, and_iff_right_iff_imp]
  intro stands
  exact reaches_descend reaches fits (by rw [stands]; nofun)

theorem toOption_node_descend :
    (h.node (base.descend more)).toOption = h.below base more := by
  refine Option.ext fun node => ?_
  rw [← node_descend_eq_ok_iff reaches fits]
  cases h.node (base.descend more) <;> simp [Except.toOption]

theorem exists?_descend :
    h.exists? (base.descend more) = (h.below base more).isSome := by
  rw [← toOption_node_descend reaches fits, exists?]
  cases h.node (base.descend more) <;> rfl

theorem isDirectory_descend_iff :
    h.isDirectory (base.descend more) = true ↔
      h.below base more = some .directory := by
  rw [isDirectory_iff, ← node_eq_ok_iff, node_descend_eq_ok_iff reaches fits]

theorem isFile_descend_iff :
    h.isFile (base.descend more) = true ↔
      ∃ file, h.below base more = some (.file file) := by
  rw [isFile_iff]
  simp only [← exists_and_left, ← node_eq_ok_iff, node_descend_eq_ok_iff reaches fits]

theorem names_descend :
    h.names (base.descend more) = h.tree.names (h.namedLocation base ++ more) := by
  cases there : h.isDirectory (base.descend more) with
  | true => rw [names_of_isDirectory there, namedLocation_descend h base fits.entries]
  | false =>
    refine (names_of_not_isDirectory there).trans (Tree.names_eq_nil fun stands => ?_).symm
    rw [(isDirectory_descend_iff reaches fits).2 stands] at there
    cases there

end Below

end Host

end BuildPlanner
