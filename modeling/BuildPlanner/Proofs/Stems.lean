import BuildPlanner.Proofs.Places

/-!
# Objects and the files beside them

An object is in the directory that it is made for and has the stem of its source.  The dependency
file and the database are found from the object alone: its directory is its parent, and its stem is
read a second time, from a name that was made of the first one.  They are in the same directory and
have the same stem, so objects, dependency files and databases are told apart by the stems of their
sources, and by nothing else (`Toolchain.files_of_stem`).

* `Path.isStem_stemChars`: a stem ends before the last dot that stands behind the first character.
* `Path.IsFileWith` says what a file is called and where it is, and `Path.IsFileWith.beside` that
  the files beside it are called and placed alike.
-/

namespace BuildPlanner

namespace Path

/-! ## Stems -/

/-- A stem is what stands before the last dot of a name, and is the whole name where no dot stands
behind the first character. -/
def IsStem (stem name : List Char) : Prop :=
  (stem ≠ [] ∧ ∃ extension, '.' ∉ extension ∧ name = stem ++ '.' :: extension) ∨
    (stem = name ∧ '.' ∉ name.tail)

theorem stemChars_of_notMem {name : List Char} (h : '.' ∉ name.tail) : stemChars name = name := by
  cases name with
  | nil => rfl
  | cons c rest =>
    have dots : ∀ d ∈ rest.reverse, (d != '.') = true := by
      simpa using List.forall_mem_ne'.2 h
    rw [stemChars, List.reverse_cons, List.dropWhile_append_of_pos dots]
    by_cases dot : c = '.' <;> simp [dot]

theorem isStem_stemChars (name : List Char) : IsStem (stemChars name) name := by
  by_cases dot : '.' ∈ name.tail
  · obtain ⟨c, rest, rfl⟩ : ∃ c rest, name = c :: rest :=
      List.exists_cons_of_ne_nil (by rintro rfl; simp at dot)
    -- The last dot is the first one from the end.
    obtain ⟨after, before, last, clean⟩ :=
      List.eq_append_cons_of_mem (List.mem_reverse.2 dot)
    have split : c :: rest = (c :: before.reverse) ++ '.' :: after.reverse := by
      simpa using congrArg List.reverse last
    have clean : '.' ∉ after.reverse := by simpa using clean
    rw [split, stemChars_append (List.cons_ne_nil _ _) clean]
    exact .inl ⟨List.cons_ne_nil _ _, _, clean, rfl⟩
  · exact .inr ⟨stemChars_of_notMem dot, dot⟩

theorem fileStem?_eq_some_stem {file : Path} (h : file.fileName?.isSome) :
    file.fileStem? = some file.stem := by
  obtain ⟨name, named⟩ := Option.isSome_iff_exists.1 h
  rw [stem, fileStem?, named]
  rfl

/-! ## Files with a stem and an extension -/

/-- A file in a directory that is called by a stem and an extension: its parent is the directory
again, and its stem is read back. -/
structure IsFileWith (directory : Path) (stem extension : String) (file : Path) : Prop where
  components : file.components = directory.components ++ [.name (withExtension stem extension)]
  parent : file.parentOrEmpty.same directory = true
  stem : file.fileStem? = some stem

variable {directory file other : Path} {stem extension : String}

theorem isFileWith_entry (directory : Path) (nonempty : stem ≠ "") (slash : '/' ∉ stem.toList)
    (h : IsExtension extension) :
    IsFileWith directory stem extension (directory.entry (withExtension stem extension)) := by
  have name := isEntryName_withExtension slash h
  refine ⟨components_entry directory name, ?_, ?_⟩
  · exact same_iff.2 (components_parentOrEmpty_entry directory name)
  · rw [fileStem?_eq_some_stem (by simp [fileName?_entry directory name]),
      stem_entry directory nonempty slash h]

theorem IsFileWith.isSome_fileName? (h : IsFileWith directory stem extension file) :
    file.fileName?.isSome := by
  have read := h.stem
  rw [fileStem?, Option.map_eq_some_iff] at read
  obtain ⟨name, named, -⟩ := read
  exact Option.isSome_of_eq_some named

/-- What is called after a file and put next to it is in its directory and has its stem. -/
theorem IsFileWith.beside (h : IsFileWith directory stem extension file) {extension' : String}
    (h' : IsExtension extension') :
    IsFileWith directory stem extension' (file.parentOrEmpty.withStemOf file extension') := by
  have read : file.stem = stem := by rw [Path.stem, h.stem, Option.getD_some]
  have nonempty := stem_ne_empty h.isSome_fileName?
  have slash := slash_notMem_stem file
  rw [read] at nonempty slash
  have next := isFileWith_entry file.parentOrEmpty nonempty slash h'
  rw [withStemOf_eq _ _ h'.nonempty, read]
  refine ⟨?_, ?_, next.stem⟩
  · rw [next.components, same_iff.1 h.parent]
  · rw [same_iff, same_iff.1 next.parent, same_iff.1 h.parent]

/-- In one directory, files with one extension are told apart by their stems. -/
theorem IsFileWith.same_iff {stem' : String} (h : IsFileWith directory stem extension file)
    (h' : IsFileWith directory stem' extension other) (he : IsExtension extension) :
    file.same other = true ↔ stem = stem' := by
  rw [Path.same_iff, h.components, h'.components, List.append_cancel_left_eq, List.cons.injEq,
    Component.name.injEq, withExtension_inj he he]
  simp

end Path

/-! ## Objects -/

namespace Toolchain

open BuildPlanner.Path (IsStem IsFileWith)

theorem isFileWith_objectPath (toolchain : Toolchain) (directory : Path) {source : Path}
    (named : source.fileName?.isSome) :
    IsFileWith directory source.stem toolchain.objectExtension
      (toolchain.objectPath directory source) := by
  rw [objectPath, Path.withStemOf_eq _ _ toolchain.isExtension_objectExtension.nonempty]
  exact Path.isFileWith_entry directory (Path.stem_ne_empty named) (Path.slash_notMem_stem source)
    toolchain.isExtension_objectExtension

/-- The object of a source is in its directory, called by the stem of the source, which ends before
its last dot, unless this is its first character.  The dependency file and the database that are
found from the object are in the same directory and have the same stem.  So the objects of two
sources, their dependency files or their databases in one directory are the same exactly if the
sources have the same stem. -/
theorem files_of_stem (toolchain : Toolchain) (directory source other : Path)
    (named : source.fileName?.isSome) (otherNamed : other.fileName?.isSome) :
    let object := toolchain.objectPath directory
    (∃ name stem, source.fileName? = some name ∧ source.fileStem? = some stem ∧
      IsStem stem.toList name.toList ∧
      object source = directory.entry (stem ++ "." ++ toolchain.objectExtension) ∧
      IsFileWith directory stem toolchain.objectExtension (object source) ∧
      IsFileWith directory stem "d" (Gcc.depfilePath (object source)) ∧
      IsFileWith directory stem "pdb" (Msvc.databasePath (object source))) ∧
    ((object source).same (object other) = true ↔ source.fileStem? = other.fileStem?) ∧
    ((Gcc.depfilePath (object source)).same (Gcc.depfilePath (object other)) = true ↔
      source.fileStem? = other.fileStem?) ∧
    ((Msvc.databasePath (object source)).same (Msvc.databasePath (object other)) = true ↔
      source.fileStem? = other.fileStem?) := by
  intro object
  have depfile : Path.IsExtension "d" := by decide
  have database : Path.IsExtension "pdb" := by decide
  have first := toolchain.isFileWith_objectPath directory named
  have second := toolchain.isFileWith_objectPath directory otherNamed
  rw [Path.fileStem?_eq_some_stem named, Path.fileStem?_eq_some_stem otherNamed,
    Option.some.injEq]
  refine ⟨?_, first.same_iff second toolchain.isExtension_objectExtension,
    (first.beside depfile).same_iff (second.beside depfile) depfile,
    (first.beside database).same_iff (second.beside database) database⟩
  obtain ⟨name, found⟩ := Option.isSome_iff_exists.1 named
  have read : source.stem = .ofList (Path.stemChars name.toList) := by
    rw [Path.stem, Path.fileStem?, found]
    rfl
  refine ⟨name, source.stem, found, rfl, ?_,
    Path.withStemOf_eq _ _ toolchain.isExtension_objectExtension.nonempty,
    first, first.beside depfile, first.beside database⟩
  rw [read, String.toList_ofList]
  exact Path.isStem_stemChars name.toList

/-- Of two dots at the front the first one is the stem. -/
theorem files_of_stem_dottedSources :
    let object := (ofPlatform .msvc).objectPath ⟨"out//./d/"⟩
    object ⟨"src/..c"⟩ = ⟨"out//./d/..obj"⟩ ∧
      IsFileWith ⟨"out//./d/"⟩ "." "d" (Gcc.depfilePath (object ⟨"src/..c"⟩)) ∧
      IsFileWith ⟨"out//./d/"⟩ "." "pdb" (Msvc.databasePath (object ⟨"src/..c"⟩)) ∧
      (object ⟨"src/..c"⟩).same (object ⟨"..cpp"⟩) = true ∧
      (Gcc.depfilePath (object ⟨"src/..c"⟩)).same (Gcc.depfilePath (object ⟨".a.c"⟩)) = false := by
  intro object
  have stems : Path.fileStem? ⟨"src/..c"⟩ = some "." ∧ Path.fileStem? ⟨"..cpp"⟩ = some "." ∧
      Path.fileStem? ⟨".a.c"⟩ = some ".a" := by decide +kernel
  have equal := (ofPlatform .msvc).files_of_stem ⟨"out//./d/"⟩ ⟨"src/..c"⟩ ⟨"..cpp"⟩ (by decide)
    (by decide)
  have apart := (ofPlatform .msvc).files_of_stem ⟨"out//./d/"⟩ ⟨"src/..c"⟩ ⟨".a.c"⟩ (by decide)
    (by decide)
  obtain ⟨name, stem, -, found, -, -, -, depfile, database⟩ := equal.1
  obtain rfl : "." = stem := Option.some.inj (stems.1.symm.trans found)
  refine ⟨by decide +kernel, depfile, database, equal.2.1.2 (by rw [stems.1, stems.2.1]), ?_⟩
  rw [← Bool.not_eq_true, apart.2.2.1, stems.1, stems.2.2]
  decide

end Toolchain

end BuildPlanner
