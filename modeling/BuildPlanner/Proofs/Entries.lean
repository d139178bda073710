import BuildPlanner.Proofs.Basic
import BuildPlanner.Toolchain.Task

/-!
# Entries of directories

A path to an entry of a directory names the directory and then the entry, however the directory is
spelled (`components_entry`), and its parent names the directory again
(`components_parentOrEmpty_entry`).  A file name made of a stem and an extension says both
(`withExtension_inj`), and the stem is read back from it (`stem_entry`), also where it holds dots or
starts with one.
-/

namespace BuildPlanner

/-- A name that an entry of a directory can have. -/
structure IsEntryName (name : String) : Prop where
  nonempty : name ≠ ""
  slash : '/' ∉ name.toList
  here : name ≠ "."
  up : name ≠ ".."

instance (name : String) : Decidable (IsEntryName name) :=
  decidable_of_iff (name ≠ "" ∧ '/' ∉ name.toList ∧ name ≠ "." ∧ name ≠ "..")
    ⟨fun h => ⟨h.1, h.2.1, h.2.2.1, h.2.2.2⟩, fun h => ⟨h.nonempty, h.slash, h.here, h.up⟩⟩

theorem ofPiece?_eq_some_name_iff {piece : List Char} {name : String} :
    Component.ofPiece? piece = some (.name name) ↔
      piece = name.toList ∧ name ≠ "" ∧ name ≠ "." ∧ name ≠ ".." := by
  have text {a b : String} (other : a.toList ≠ b.toList) : a ≠ b := fun same => other (same ▸ rfl)
  constructor
  · intro h
    unfold Component.ofPiece? at h
    split at h
    · cases h
    · cases h
    · cases h
    · next nonempty here up =>
      cases h
      exact ⟨String.toList_ofList.symm, text (by simpa using nonempty), text (by simpa using here),
        text (by simpa using up)⟩
  · rintro ⟨rfl, nonempty, here, up⟩
    unfold Component.ofPiece?
    split
    · next empty => exact absurd (String.toList_inj.1 empty) nonempty
    · next dot => exact absurd (String.toList_inj.1 dot) here
    · next dots => exact absurd (String.toList_inj.1 dots) up
    · rw [String.ofList_toList]

theorem IsEntryName.ofPiece? {name : String} (h : IsEntryName name) :
    Component.ofPiece? name.toList = some (.name name) :=
  ofPiece?_eq_some_name_iff.2 ⟨rfl, h.nonempty, h.here, h.up⟩

namespace Path

/-! ## Pieces and components -/

theorem leading_of_ne_nil {piece : List Char} (h : piece ≠ []) (slash slash' : Bool) :
    leading slash piece = leading slash' piece := by
  unfold leading
  split
  · exact absurd rfl h
  · rfl
  · rfl

/-- Before a slash an empty first piece is the top of the tree. -/
theorem componentsOfPieces_concat (first : List Char) (rest : List (List Char))
    (piece : List Char) :
    componentsOfPieces (first :: rest ++ [piece]) =
      leading true first ++ rest.filterMap Component.ofPiece? ++
        (Component.ofPiece? piece).toList := by
  have more : (!(rest ++ [piece]).isEmpty) = true := by simp
  have last : [piece].filterMap Component.ofPiece? = (Component.ofPiece? piece).toList := by
    cases found : Component.ofPiece? piece <;> simp [found]
  rw [List.cons_append, componentsOfPieces, more, List.filterMap_append, last, List.append_assoc]

/-- A text that is not empty names the same with a slash after it. -/
theorem componentsOfPieces_splitOn {text first : List Char} {rest : List (List Char)}
    (h : text ≠ []) (pieces : text.splitOn '/' = first :: rest) :
    componentsOfPieces (text.splitOn '/') =
      leading true first ++ rest.filterMap Component.ofPiece? := by
  rw [pieces, componentsOfPieces]
  cases rest with
  | nil =>
    have whole : first = text := by
      have joined : ['/'].intercalate (text.splitOn '/') = text := List.intercalate_splitOn '/'
      rwa [pieces, List.intercalate_singleton] at joined
    rw [leading_of_ne_nil (whole ▸ h) _ true]
  | cons second rest => rfl

/-- A slash is put between a directory and a path below it unless the directory ends in one. -/
theorem toList_join {base q : Path} (nonempty : base.text ≠ "")
    (relative : q.text.toList.head? ≠ some '/') :
    ((∃ before, base.text.toList = before ++ ['/']) ∧
        (base.join q).text.toList = base.text.toList ++ q.text.toList) ∨
      (base.join q).text.toList = base.text.toList ++ '/' :: q.text.toList := by
  have nonempty : base.text.toList ≠ [] := toList_ne_nil nonempty
  rw [text_join, String.toList_ofList, joinChars, if_neg relative]
  by_cases last : base.text.toList.getLast? = some '/'
  · exact .inl ⟨List.getLast?_eq_some_iff.1 last, if_pos (.inr last)⟩
  · exact .inr (if_neg (by simp [nonempty, last]))

theorem toList_entry {base : Path} {name : String} (nonempty : base.text ≠ "")
    (slash : '/' ∉ name.toList) :
    ((∃ before, base.text.toList = before ++ ['/']) ∧
        (base.entry name).text.toList = base.text.toList ++ name.toList) ∨
      (base.entry name).text.toList = base.text.toList ++ '/' :: name.toList :=
  toList_join nonempty fun start => slash (List.mem_of_mem_head? start)

/-- The pieces of a path below a directory come after those of the directory, in place of the blank
one after a slash. -/
theorem pieces_join_of_ne_empty {base q : Path} (nonempty : base.text ≠ "")
    (relative : q.text.toList.head? ≠ some '/') :
    (∃ before, base.pieces = before ++ [[]] ∧ (base.join q).pieces = before ++ q.pieces) ∨
      (base.join q).pieces = base.pieces ++ q.pieces := by
  obtain ⟨⟨before, text⟩, written⟩ | written := toList_join nonempty relative
  · refine .inl ⟨before.splitOn '/', ?_, ?_⟩
    · rw [pieces, text, List.splitOn_append_cons_self, List.splitOn_nil]
    · rw [pieces, written, text, List.append_assoc, List.singleton_append,
        List.splitOn_append_cons_self, pieces]
  · exact .inr (by rw [pieces, written, List.splitOn_append_cons_self, pieces, pieces])

theorem pieces_entry_of_ne_empty {base : Path} {name : String} (nonempty : base.text ≠ "")
    (slash : '/' ∉ name.toList) :
    (∃ before, base.pieces = before ++ [[]] ∧
        (base.entry name).pieces = before ++ [name.toList]) ∨
      (base.entry name).pieces = base.pieces ++ [name.toList] := by
  have single : pieces ⟨name⟩ = [name.toList] := List.splitOn_eq_singleton slash
  rw [← single]
  exact pieces_join_of_ne_empty nonempty fun start => slash (List.mem_of_mem_head? start)

/-- The pieces of a path below a directory: those of the directory, as if a slash followed, and its
own. -/
theorem pieces_join {base q : Path} (nonempty : base.text ≠ "")
    (relative : q.text.toList.head? ≠ some '/') :
    ∃ first rest, (base.join q).pieces = first :: rest ++ q.pieces ∧
      base.components = leading true first ++ rest.filterMap Component.ofPiece? := by
  have text := toList_ne_nil nonempty
  obtain ⟨before, split, pieces⟩ | pieces := pieces_join_of_ne_empty nonempty relative
  · cases before with
    | nil =>
      have joined : ['/'].intercalate base.pieces = base.text.toList := List.intercalate_splitOn '/'
      rw [split, List.nil_append, List.intercalate_singleton] at joined
      exact absurd joined.symm text
    | cons first rest =>
      refine ⟨first, rest, pieces, ?_⟩
      rw [components, split, componentsOfPieces_concat]
      exact List.append_nil _
  · obtain ⟨first, rest, split⟩ :=
      List.exists_cons_of_ne_nil (List.splitOn_ne_nil '/' base.text.toList)
    refine ⟨first, rest, by rw [pieces, Path.pieces, split], ?_⟩
    rw [components, Path.pieces, componentsOfPieces_splitOn text split]

@[simp] theorem entry_empty (name : String) : entry ⟨""⟩ name = ⟨name⟩ := by
  simp [entry, join, joinChars]

theorem pieces_entry (base : Path) {name : String} (h : IsEntryName name) :
    (base.text = "" ∧ (base.entry name).pieces = [name.toList]) ∨
      ∃ first rest, (base.entry name).pieces = first :: rest ++ [name.toList] ∧
        base.components = leading true first ++ rest.filterMap Component.ofPiece? := by
  have single : pieces ⟨name⟩ = [name.toList] := List.splitOn_eq_singleton h.slash
  by_cases empty : base.text = ""
  · obtain rfl : base = ⟨""⟩ := congrArg Path.mk empty
    exact .inl ⟨rfl, by rw [entry_empty, single]⟩
  · rw [← single]
    exact .inr (pieces_join empty fun start => h.slash (List.mem_of_mem_head? start))

theorem leading_entryName (slash : Bool) {name : String} (h : IsEntryName name) :
    leading slash name.toList = [.name name] := by
  unfold leading
  split
  · next empty => exact absurd (String.toList_inj.1 empty) h.nonempty
  · next dot => exact absurd (String.toList_inj.1 dot) h.here
  · rw [h.ofPiece?]
    rfl

theorem components_empty : components ⟨""⟩ = [] := by decide

/-- A path to an entry names the directory and then the entry. -/
theorem components_entry (base : Path) {name : String} (h : IsEntryName name) :
    (base.entry name).components = base.components ++ [.name name] := by
  obtain ⟨empty, pieces⟩ | ⟨first, rest, pieces, directory⟩ := pieces_entry base h
  · obtain rfl : base = ⟨""⟩ := congrArg Path.mk empty
    rw [components_empty, components, pieces, componentsOfPieces, leading_entryName _ h]
    rfl
  · rw [components, pieces, componentsOfPieces_concat, directory, h.ofPiece?]
    rfl

theorem isAbsolute_of_pieces {p : Path} {first : List Char} {rest : List (List Char)}
    (split : p.pieces = first :: rest) : p.isAbsolute = (first.isEmpty && !rest.isEmpty) := by
  have text : ['/'].intercalate p.pieces = p.text.toList := List.intercalate_splitOn '/'
  have start : '/' ∉ first := notMem_of_mem_splitOn (split ▸ List.mem_cons_self)
  rw [isAbsolute, ← text, split]
  cases first with
  | nil => cases rest <;> simp [List.intercalate_cons_cons]
  | cons c first =>
    have other : c ≠ '/' := fun same => start (same ▸ List.mem_cons_self)
    cases rest <;> simp [List.intercalate_cons_cons, other]

/-- A path that starts with a name is taken from a base as it is. -/
theorem components_join (base : Path) {q : Path} {name : String} {more : List Component}
    (start : q.components = .name name :: more) :
    (base.join q).components = base.components ++ q.components := by
  cases split : q.pieces with
  | nil => exact absurd split (List.splitOn_ne_nil _ _)
  | cons piece rest =>
    have components : q.components =
        leading (!rest.isEmpty) piece ++ rest.filterMap Component.ofPiece? := by
      rw [Path.components, split, componentsOfPieces]
    -- A first piece that is empty, or a dot, names no entry or nothing.
    have plain : leading (!rest.isEmpty) piece = (Component.ofPiece? piece).toList := by
      rw [components] at start
      unfold leading at start ⊢
      split at start
      · cases rest <;> simp at start
      · simp at start
      · rfl
    have relative : q.text.toList.head? ≠ some '/' := by
      intro slash
      have absolute : q.isAbsolute = true := by simp [isAbsolute, slash]
      rw [isAbsolute_of_pieces split] at absolute
      obtain ⟨rfl, more⟩ : piece = [] ∧ rest ≠ [] := by simpa using absolute
      simp [leading, Component.ofPiece?, more] at plain
    have own : q.components = q.pieces.filterMap Component.ofPiece? := by
      rw [components, plain, split]
      cases named : Component.ofPiece? piece <;> simp [named]
    by_cases empty : base.text = ""
    · obtain rfl : base = ⟨""⟩ := congrArg Path.mk empty
      have same : join ⟨""⟩ q = q := by simp [join, joinChars]
      rw [same, components_empty, List.nil_append]
    · obtain ⟨first, before, pieces, directory⟩ := pieces_join empty relative
      rw [Path.components, pieces, directory, own, List.cons_append, componentsOfPieces,
        List.filterMap_append, ← List.append_assoc]
      have further : (!(before ++ q.pieces).isEmpty) = true := by simp [split]
      rw [further]

/-! ## Parents -/

theorem filterMap_dropBlankEnd (pieces : List (List Char)) :
    (dropBlankEnd pieces).filterMap Component.ofPiece? = pieces.filterMap Component.ofPiece? := by
  have whole : pieces = dropBlankEnd pieces ++ (pieces.reverse.takeWhile blankPiece).reverse := by
    rw [dropBlankEnd, ← List.reverse_append, List.takeWhile_append_dropWhile, List.reverse_reverse]
  have none : (pieces.reverse.takeWhile blankPiece).reverse.filterMap Component.ofPiece? = [] := by
    refine List.filterMap_eq_nil_iff.2 fun piece hpiece => ?_
    have blank := List.all_eq_true.1 List.all_takeWhile piece (List.mem_reverse.1 hpiece)
    simpa [blankPiece] using blank
  conv_rhs => rw [whole, List.filterMap_append, none, List.append_nil]

theorem components_ofPieces {first : List Char} {rest : List (List Char)} (start : '/' ∉ first)
    (pieces : ∀ piece ∈ rest, '/' ∉ piece) :
    (ofPieces first rest).components = leading true first ++ rest.filterMap Component.ofPiece? := by
  rw [ofPieces]
  split
  · next empty =>
    obtain ⟨rfl, rfl⟩ := empty
    decide
  · next nonempty =>
    have split : (['/'].intercalate (first :: rest)).splitOn '/' = first :: rest :=
      List.splitOn_intercalate '/' (List.forall_mem_cons.2 ⟨start, pieces⟩) (List.cons_ne_nil _ _)
    have text : ['/'].intercalate (first :: rest) ≠ [] := by
      intro empty
      rw [empty, List.splitOn_nil] at split
      obtain ⟨rfl, rfl⟩ := List.cons.inj split
      exact nonempty ⟨rfl, rfl⟩
    rw [components, Path.pieces, String.toList_ofList, componentsOfPieces_splitOn text split]

theorem ofPiece?_ne_root (piece : List Char) : Component.ofPiece? piece ≠ some .root := by
  unfold Component.ofPiece?
  split <;> simp

theorem root_mem_leading_iff {slash : Bool} {piece : List Char} :
    .root ∈ leading slash piece ↔ piece = [] ∧ slash = true := by
  unfold leading
  split
  · cases slash <;> simp
  · simp
  · next nonempty _ =>
    have nonempty : piece ≠ [] := nonempty
    simp [ofPiece?_ne_root, nonempty]

/-- A path starts at the top of the tree if its components do. -/
theorem isAbsolute_iff {p : Path} : p.isAbsolute = true ↔ .root ∈ p.components := by
  cases split : p.pieces with
  | nil => exact absurd split (List.splitOn_ne_nil _ _)
  | cons first rest =>
    have others : .root ∉ rest.filterMap Component.ofPiece? := by
      intro root
      obtain ⟨piece, -, named⟩ := List.mem_filterMap.1 root
      exact ofPiece?_ne_root piece named
    rw [isAbsolute_of_pieces split, components, split, componentsOfPieces, List.mem_append,
      or_iff_left others, root_mem_leading_iff]
    simp

/-- All spellings of a path start in the same place. -/
theorem isAbsolute_of_same {p q : Path} (same : p.same q = true) :
    p.isAbsolute = q.isAbsolute := by
  rw [Bool.eq_iff_iff, isAbsolute_iff, isAbsolute_iff, same_iff.1 same]

theorem same_congr {p q : Path} (same : p.same q = true) (other : Path) :
    p.same other = q.same other := by
  rw [Path.same, Path.same, same_iff.1 same]

/-- A parent is empty, or the top of the tree, or spelled as the path is up to some slash. -/
theorem parent?_cases {p parent : Path} (h : p.parent? = some parent) :
    (parent = ⟨""⟩ ∧ p.isAbsolute = false) ∨ (parent = ⟨"/"⟩ ∧ p.isAbsolute = true) ∨
      (parent.text ≠ "" ∧ ∃ more, more ≠ [] ∧ p.pieces = parent.pieces ++ more) := by
  have slashes : ∀ piece ∈ p.pieces, '/' ∉ piece := fun piece hpiece => notMem_of_mem_splitOn hpiece
  rw [parent?] at h
  cases split : p.pieces with
  | nil => exact absurd split (List.splitOn_ne_nil _ _)
  | cons first rest =>
    rw [split] at h slashes
    dsimp only at h
    have absolute := isAbsolute_of_pieces split
    cases kept : rest.reverse.dropWhile blankPiece with
    | nil =>
      rw [kept] at h
      dsimp only at h
      split at h
      · cases h
      · next nonempty =>
        cases h
        refine .inl ⟨rfl, ?_⟩
        rw [absolute, List.isEmpty_eq_false_iff.2 nonempty, Bool.false_and]
    | cons last before =>
      rw [kept] at h
      obtain rfl := Option.some.inj h
      obtain ⟨more, nonempty, whole⟩ : ∃ more, more ≠ [] ∧
          rest = (before.dropWhile blankPiece).reverse ++ more := by
        refine ⟨(before.takeWhile blankPiece).reverse ++
          last :: (rest.reverse.takeWhile blankPiece).reverse, by simp, ?_⟩
        rw [← List.append_assoc, ← List.reverse_append, List.takeWhile_append_dropWhile,
          ← List.reverse_inj, List.reverse_append, List.reverse_cons, List.reverse_reverse,
          List.reverse_reverse, List.append_assoc, List.singleton_append, ← kept,
          List.takeWhile_append_dropWhile]
      by_cases top : first = [] ∧ (before.dropWhile blankPiece).reverse = []
      · obtain ⟨rfl, empty⟩ := top
        rw [empty] at whole ⊢
        exact .inr (.inl ⟨rfl, by rw [absolute]; simp [whole, nonempty]⟩)
      · have named :
            (['/'].intercalate (first :: (before.dropWhile blankPiece).reverse)).splitOn '/' =
              first :: (before.dropWhile blankPiece).reverse := by
          refine List.splitOn_intercalate '/' (fun piece hpiece => slashes piece ?_)
            (List.cons_ne_nil _ _)
          rw [whole, ← List.cons_append]
          exact List.mem_append_left _ hpiece
        rw [ofPieces, if_neg top]
        refine .inr (.inr ⟨fun empty => ?_, more, nonempty, ?_⟩)
        · rw [← String.toList_eq_nil_iff, String.toList_ofList] at empty
          rw [empty, List.splitOn_nil] at named
          obtain ⟨rfl, none⟩ := List.cons.inj named
          exact top ⟨rfl, none.symm⟩
        · rw [pieces, String.toList_ofList, named, whole, List.cons_append]

/-- Where the pieces of a path go on, its text goes on after a slash. -/
theorem toList_of_pieces {p base : Path} {more : List (List Char)}
    (split : p.pieces = base.pieces ++ more) (nonempty : more ≠ []) :
    p.text.toList = base.text.toList ++ '/' :: ['/'].intercalate more := by
  have slashes : ∀ piece ∈ more, '/' ∉ piece := fun piece hpiece =>
    notMem_of_mem_splitOn (split ▸ List.mem_append_right _ hpiece)
  have same : p.text.toList.splitOn '/' =
      (base.text.toList ++ '/' :: ['/'].intercalate more).splitOn '/' := by
    rw [List.splitOn_append_cons_self, List.splitOn_intercalate '/' slashes nonempty]
    exact split
  have joined := congrArg ['/'].intercalate same
  rwa [List.intercalate_splitOn, List.intercalate_splitOn] at joined

/-- A parent names a beginning of what the path names, from the same start. -/
theorem parent?_eq_some {p parent : Path} (h : p.parent? = some parent) :
    parent.components <+: p.components ∧ parent.isAbsolute = p.isAbsolute := by
  obtain ⟨rfl, relative⟩ | ⟨rfl, absolute⟩ | ⟨named, more, nonempty, split⟩ := parent?_cases h
  · rw [components_empty, relative]
    exact ⟨List.nil_prefix, rfl⟩
  · refine ⟨?_, absolute.symm⟩
    cases split : p.pieces with
    | nil => exact absurd split (List.splitOn_ne_nil _ _)
    | cons first rest =>
      rw [isAbsolute_of_pieces split, Bool.and_eq_true, List.isEmpty_iff] at absolute
      obtain ⟨rfl, slash⟩ := absolute
      rw [components, components, split, componentsOfPieces, slash]
      exact List.prefix_append [Component.root] _
  · have text := toList_of_pieces split nonempty
    obtain ⟨first, rest, parts⟩ :=
      List.exists_cons_of_ne_nil (List.splitOn_ne_nil '/' parent.text.toList)
    constructor
    · rw [pieces, pieces, parts, List.cons_append] at split
      rw [components, components, pieces, pieces,
        componentsOfPieces_splitOn (toList_ne_nil named) parts,
        componentsOfPieces_splitOn (by simp [text]) split, List.filterMap_append,
        ← List.append_assoc]
      exact List.prefix_append _ _
    · obtain ⟨c, chars, written⟩ := exists_cons_of_ne_empty named
      rw [isAbsolute, isAbsolute, text, written]
      rfl

/-- The parent of a path to an entry names the directory. -/
theorem components_parentOrEmpty_entry (base : Path) {name : String} (h : IsEntryName name) :
    (base.entry name).parentOrEmpty.components = base.components := by
  have named : blankPiece name.toList = false := by
    rw [blankPiece, h.ofPiece?]
    rfl
  obtain ⟨empty, pieces⟩ | ⟨first, rest, pieces, directory⟩ := pieces_entry base h
  · obtain rfl : base = ⟨""⟩ := congrArg Path.mk empty
    rw [parentOrEmpty, parent?, pieces]
    simp [h.nonempty]
  · have slashes : ∀ piece ∈ first :: rest, '/' ∉ piece := by
      intro piece hpiece
      have member : piece ∈ (base.entry name).pieces := pieces ▸ List.mem_append_left _ hpiece
      exact notMem_of_mem_splitOn member
    have parent : (base.entry name).parentOrEmpty = ofPieces first (dropBlankEnd rest) := by
      rw [parentOrEmpty, parent?, pieces]
      simp [dropBlankEnd, named]
    have kept : dropBlankEnd rest ⊆ rest := fun piece hpiece =>
      List.mem_reverse.1 ((List.dropWhile_sublist _).mem (List.mem_reverse.1 hpiece))
    rw [parent, directory, components_ofPieces (slashes first List.mem_cons_self)
      fun piece hpiece => slashes piece (List.mem_cons_of_mem _ (kept hpiece)),
      filterMap_dropBlankEnd]

/-! ## Stems and extensions -/

/-- A name in a path is one of its pieces. -/
theorem exists_piece_of_mem_components {p : Path} {name : String}
    (h : .name name ∈ p.components) :
    ∃ piece ∈ p.pieces, Component.ofPiece? piece = some (.name name) := by
  rw [components] at h
  cases split : p.pieces with
  | nil =>
    rw [split] at h
    cases h
  | cons first rest =>
    rw [split, componentsOfPieces] at h
    obtain h | h := List.mem_append.1 h
    · refine ⟨first, List.mem_cons_self, ?_⟩
      unfold leading at h
      split at h
      · split at h <;> simp at h
      · simp at h
      · exact Option.mem_toList.1 h
    · obtain ⟨piece, hpiece, named⟩ := List.mem_filterMap.1 h
      exact ⟨piece, List.mem_cons_of_mem _ hpiece, named⟩

/-- What a piece names is in the path. -/
theorem mem_components_of_mem_pieces {p : Path} {piece : List Char} {component : Component}
    (h : piece ∈ p.pieces) (named : Component.ofPiece? piece = some component) :
    component ∈ p.components := by
  rw [components]
  cases split : p.pieces with
  | nil =>
    rw [split] at h
    cases h
  | cons first rest =>
    rw [componentsOfPieces, List.mem_append]
    rw [split] at h
    obtain rfl | h := List.mem_cons.1 h
    · left
      unfold leading
      split
      · cases named
      · cases named
      · exact Option.mem_toList.2 named
    · exact .inr (List.mem_filterMap.2 ⟨piece, h, named⟩)

theorem name_mem_pieces_of_mem_components {p : Path} {name : String}
    (h : .name name ∈ p.components) : name.toList ∈ p.pieces ∧ IsEntryName name := by
  obtain ⟨piece, hpiece, named⟩ := exists_piece_of_mem_components h
  obtain ⟨rfl, nonempty, here, up⟩ := ofPiece?_eq_some_name_iff.1 named
  exact ⟨hpiece, nonempty, notMem_of_mem_splitOn hpiece, here, up⟩

theorem name_mem_pieces_of_fileName? {p : Path} {name : String} (h : p.fileName? = some name) :
    name.toList ∈ p.pieces ∧ IsEntryName name := by
  refine name_mem_pieces_of_mem_components ?_
  unfold fileName? at h
  split at h
  · next last =>
    cases h
    exact List.mem_of_getLast? last
  · cases h

theorem isEntryName_of_fileName? {p : Path} {name : String} (h : p.fileName? = some name) :
    IsEntryName name :=
  (name_mem_pieces_of_fileName? h).2

theorem fileName?_entry (base : Path) {name : String} (h : IsEntryName name) :
    (base.entry name).fileName? = some name := by
  rw [fileName?, components_entry base h, List.getLast?_concat]

/-- The stem is the whole name, or what stands before the last dot. -/
theorem stemChars_cases (name : List Char) :
    stemChars name = name ∨
      stemChars name ≠ [] ∧ ∃ extension, name = stemChars name ++ '.' :: extension := by
  unfold stemChars
  split
  · exact .inl rfl
  · next dot before after =>
    split
    · exact .inl rfl
    · next nonempty =>
      have mark : dot = '.' := by
        have stops := List.head?_dropWhile_not (· != '.') name.reverse
        rw [after] at stops
        simpa using stops
      have whole := List.takeWhile_append_dropWhile (p := (· != '.')) (l := name.reverse)
      rw [after, mark] at whole
      refine .inr ⟨by simpa using nonempty, (name.reverse.takeWhile (· != '.')).reverse, ?_⟩
      simpa using (congrArg List.reverse whole).symm

theorem stemChars_append {stem extension : List Char} (nonempty : stem ≠ [])
    (h : '.' ∉ extension) : stemChars (stem ++ '.' :: extension) = stem := by
  have dots : ∀ c ∈ extension.reverse, (c != '.') = true := by
    intro c hc
    rw [bne_iff_ne]
    rintro rfl
    exact h (List.mem_reverse.1 hc)
  rw [stemChars, List.reverse_append, List.reverse_cons, List.append_assoc,
    List.singleton_append, dropWhile_run_cons _ dots (by decide)]
  simp [nonempty]

/-- The stem of the file that a path names; a path that names no file has an empty one. -/
def stem (file : Path) : String := file.fileStem?.getD ""

/-- An extension, as it stands after the last dot of a file name. -/
structure IsExtension (extension : String) : Prop where
  nonempty : extension ≠ ""
  dot : '.' ∉ extension.toList
  slash : '/' ∉ extension.toList

instance (extension : String) : Decidable (IsExtension extension) :=
  decidable_of_iff (extension ≠ "" ∧ '.' ∉ extension.toList ∧ '/' ∉ extension.toList)
    ⟨fun h => ⟨h.1, h.2.1, h.2.2⟩, fun h => ⟨h.nonempty, h.dot, h.slash⟩⟩

/-- The file name of a stem and an extension. -/
def withExtension (stem extension : String) : String := stem ++ "." ++ extension

theorem toList_withExtension (stem extension : String) :
    (withExtension stem extension).toList = stem.toList ++ '.' :: extension.toList := by
  simp [withExtension]

theorem slash_notMem_stem (file : Path) : '/' ∉ file.stem.toList := by
  rw [stem, fileStem?]
  cases named : file.fileName? with
  | none => simp
  | some name =>
    have slash := (isEntryName_of_fileName? named).slash
    rw [Option.map_some, Option.getD_some, String.toList_ofList]
    obtain whole | ⟨-, extension, split⟩ := stemChars_cases name.toList
    · rwa [whole]
    · rw [split, List.mem_append, not_or] at slash
      exact slash.1

theorem stem_ne_empty {file : Path} (h : file.fileName?.isSome) : file.stem ≠ "" := by
  obtain ⟨name, named⟩ := Option.isSome_iff_exists.1 h
  have nonempty := (isEntryName_of_fileName? named).nonempty
  have some : stemChars name.toList ≠ [] := by
    obtain whole | ⟨some, -⟩ := stemChars_cases name.toList
    · rw [whole]
      exact toList_ne_nil nonempty
    · exact some
  rw [stem, fileStem?, named, Option.map_some, Option.getD_some]
  simpa using some

/-- A stem and an extension can be told apart, since no dot stands in the extension. -/
theorem withExtension_inj {a b e f : String} (he : IsExtension e) (hf : IsExtension f) :
    withExtension a e = withExtension b f ↔ a = b ∧ e = f := by
  constructor
  · intro same
    have chars : a.toList ++ '.' :: e.toList = b.toList ++ '.' :: f.toList := by
      rw [← toList_withExtension, ← toList_withExtension, same]
    have last {x : String} (hx : IsExtension x) (y : List Char) :
        (y ++ '.' :: x.toList).reverse.takeWhile (· != '.') = x.toList.reverse := by
      have dots : ∀ c ∈ x.toList.reverse, (c != '.') = true := by
        intro c hc
        rw [bne_iff_ne]
        rintro rfl
        exact hx.dot (List.mem_reverse.1 hc)
      rw [List.reverse_append, List.reverse_cons, List.append_assoc, List.singleton_append,
        takeWhile_run_cons _ dots (by decide)]
    have extension : e.toList = f.toList := by
      have both := last he a.toList
      rwa [chars, last hf, List.reverse_inj, eq_comm] at both
    rw [extension, List.append_cancel_right_eq] at chars
    exact ⟨String.toList_inj.1 chars, String.toList_inj.1 extension⟩
  · rintro ⟨rfl, rfl⟩
    rfl

theorem isEntryName_withExtension {stem extension : String} (slash : '/' ∉ stem.toList)
    (h : IsExtension extension) : IsEntryName (withExtension stem extension) where
  nonempty empty := by
    have chars := toList_withExtension stem extension
    rw [empty] at chars
    simp at chars
  slash := by
    rw [toList_withExtension, List.mem_append, List.mem_cons]
    simp [slash, h.slash]
  here dot := by
    obtain ⟨c, rest, text⟩ := exists_cons_of_ne_empty h.nonempty
    have length := congrArg List.length (toList_withExtension stem extension)
    simp [dot, text] at length
    omega
  up dots := by
    -- Both dots would stand in the extension, or it would be empty.
    have chars := toList_withExtension stem extension
    rw [dots] at chars
    obtain ⟨c, rest, text⟩ := exists_cons_of_ne_empty h.nonempty
    rcases first : stem.toList with _ | ⟨d, more⟩
    · have same : ['.'] = extension.toList := by simpa [first] using chars
      exact h.dot (same ▸ List.mem_singleton_self _)
    · have length := congrArg List.length chars
      simp [first, text] at length
      omega

theorem withStemOf_eq (directory file : Path) {extension : String} (h : extension ≠ "") :
    directory.withStemOf file extension = directory.entry (withExtension file.stem extension) := by
  rw [withStemOf, if_neg h]
  rfl

/-- The file with the stem of another one is in its directory. -/
theorem components_withStemOf (directory file : Path) {extension : String}
    (h : IsExtension extension) :
    (directory.withStemOf file extension).components =
      directory.components ++ [.name (withExtension file.stem extension)] := by
  rw [withStemOf_eq directory file h.nonempty,
    components_entry directory (isEntryName_withExtension (slash_notMem_stem file) h)]

/-- The stem of a file with an extension is read back. -/
theorem stem_entry (directory : Path) {stem extension : String} (nonempty : stem ≠ "")
    (slash : '/' ∉ stem.toList) (h : IsExtension extension) :
    (directory.entry (withExtension stem extension)).stem = stem := by
  rw [Path.stem, fileStem?, fileName?_entry directory (isEntryName_withExtension slash h),
    Option.map_some, Option.getD_some, toList_withExtension,
    stemChars_append (toList_ne_nil nonempty) h.dot, String.ofList_toList]

/-- A file next to an entry, with its stem and another extension, is in the directory of the
entry. -/
theorem components_withStemOf_entry (directory : Path) {name extension : String}
    (hname : IsEntryName name) (h : IsExtension extension) :
    ((directory.entry name).parentOrEmpty.withStemOf (directory.entry name) extension).components =
      directory.components ++ [.name (withExtension (directory.entry name).stem extension)] := by
  rw [components_withStemOf _ _ h, components_parentOrEmpty_entry directory hname]

theorem components_parentOrEmpty_withStemOf (directory : Path) {stem extension other : String}
    (nonempty : stem ≠ "") (slash : '/' ∉ stem.toList) (h : IsExtension extension)
    (hother : IsExtension other) :
    ((directory.entry (withExtension stem extension)).parentOrEmpty.withStemOf
        (directory.entry (withExtension stem extension)) other).components =
      directory.components ++ [.name (withExtension stem other)] := by
  rw [components_withStemOf_entry directory (isEntryName_withExtension slash h) hother,
    stem_entry directory nonempty slash h]

/-! ## Characters -/

section Characters

variable {c : Char} {file : Path}

theorem notMem_entry {base : Path} {name : String} (slash : c ≠ '/') (h : c ∉ base.text.toList)
    (hname : c ∉ name.toList) : c ∉ (base.entry name).text.toList := by
  rw [entry, text_join, String.toList_ofList, joinChars]
  split
  · exact hname
  · split <;> simp [h, hname, slash]

theorem notMem_stem (h : c ∉ file.text.toList) : c ∉ file.stem.toList := by
  rw [stem, fileStem?]
  cases named : file.fileName? with
  | none => simp
  | some name =>
    have piece : c ∉ name.toList := fun hc =>
      h (mem_of_mem_splitOn (name_mem_pieces_of_fileName? named).1 hc)
    rw [Option.map_some, Option.getD_some, String.toList_ofList]
    obtain whole | ⟨-, extension, split⟩ := stemChars_cases name.toList
    · rwa [whole]
    · rw [split, List.mem_append, not_or] at piece
      exact piece.1

theorem notMem_ofPieces {first : List Char} {rest : List (List Char)} (slash : c ≠ '/')
    (h : ∀ piece ∈ first :: rest, c ∉ piece) : c ∉ (ofPieces first rest).text.toList := by
  rw [ofPieces]
  split
  · simpa using slash
  · rw [String.toList_ofList]
    refine intercalate_closed (P := (c ∉ ·)) List.not_mem_nil (fun a b ha hb => ?_) ?_ h
    · simp [ha, hb]
    · simpa using slash

theorem notMem_parentOrEmpty (slash : c ≠ '/') (h : c ∉ file.text.toList) :
    c ∉ file.parentOrEmpty.text.toList := by
  have pieces : ∀ piece ∈ file.pieces, c ∉ piece :=
    fun piece hpiece hc => h (mem_of_mem_splitOn hpiece hc)
  rw [parentOrEmpty, parent?]
  cases split : file.pieces with
  | nil => simp
  | cons first rest =>
    rw [split] at pieces
    obtain ⟨start, others⟩ := List.forall_mem_cons.1 pieces
    simp only
    split
    · split <;> simp
    · next last before found =>
      refine notMem_ofPieces slash (List.forall_mem_cons.2 ⟨start, fun piece hpiece => ?_⟩)
      have kept := (List.dropWhile_sublist blankPiece).mem (List.mem_reverse.1 hpiece)
      have inside : piece ∈ rest.reverse.dropWhile blankPiece :=
        found ▸ List.mem_cons_of_mem _ kept
      exact others piece (List.mem_reverse.1 ((List.dropWhile_sublist _).mem inside))

/-- A file next to another one, with its stem, is spelled with the characters of the other one. -/
theorem notMem_withStemOf {extension : String} (slash : c ≠ '/') (dot : c ≠ '.')
    (h : c ∉ file.text.toList) (hextension : c ∉ extension.toList) (nonempty : extension ≠ "") :
    c ∉ (file.parentOrEmpty.withStemOf file extension).text.toList := by
  rw [withStemOf_eq _ _ nonempty]
  refine notMem_entry slash (notMem_parentOrEmpty slash h) ?_
  rw [toList_withExtension]
  simp [notMem_stem h, dot, hextension]

end Characters

end Path

end BuildPlanner
