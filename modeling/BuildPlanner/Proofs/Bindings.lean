import BuildPlanner.Proofs.Emission
import BuildPlanner.Proofs.Entries
import BuildPlanner.Proofs.Ninja.Escaping

/-!
# Bindings of issued statements

The values that a toolchain binds start with no space and no newline (`Flush`), so the executor,
which drops the spaces before a value, reads them whole.

* `flush_quoteArgument`: an argument that starts with a blank is put in quotes.
* `flush_depfilePath`: the dependency file of an object starts as the object does.
* `Toolchain.Issued.flush_bindings`: so every value is flush where no path starts with a space.
* `Toolchain.Issued.isKey`: the variables have names that the executor can read.
-/

namespace BuildPlanner

/-! ## Starts of texts -/

/-- The text starts with no space and no newline. -/
def Flush (text : String) : Prop := ∀ c ∈ text.toList.head?, Ninja.isGap c = false

instance (text : String) : Decidable (Flush text) :=
  match h : text.toList.head? with
  | none => .isTrue (by simp [Flush, h])
  | some c => decidable_of_iff (Ninja.isGap c = false) (by simp [Flush, h])

theorem flush_empty : Flush "" := by decide

theorem flush_of_head?_ne_space {text : String} (start : text.toList.head? ≠ some ' ')
    (newline : '\n' ∉ text.toList) : Flush text := by
  intro c hc
  have space : c ≠ ' ' := by
    rintro rfl
    exact start hc
  have other : c ≠ '\n' := by
    rintro rfl
    exact newline (List.mem_of_mem_head? hc)
  simp [Ninja.isGap, space, other]

theorem Flush.append {a b : String} (h : Flush a) (nonempty : a ≠ "") : Flush (a ++ b) := by
  obtain ⟨c, rest, text⟩ := exists_cons_of_ne_empty nonempty
  rw [Flush, text] at h
  rw [Flush, String.toList_append, text]
  exact h

theorem isGap_of_not_isBlank {c : Char} (h : Text.isBlank c = false) : Ninja.isGap c = false := by
  by_contra gap
  rw [Bool.not_eq_false, Ninja.isGap, Bool.or_eq_true, beq_iff_eq, beq_iff_eq] at gap
  obtain rfl | rfl := gap
  · exact absurd h (by decide)
  · exact absurd h (by decide)

theorem flush_quoteArgument (argument : String) : Flush (Text.quoteArgument argument) := by
  rw [Flush, Text.toList_quoteArgument, Text.quoteChars]
  split
  · intro c hc
    obtain rfl := by simpa using hc
    decide
  · next free =>
    -- What needs no quotes holds no blank, or starts with a quote already.
    intro c hc
    rw [Text.needsQuotes, Bool.and_eq_true, not_and_or] at free
    obtain blank | quoted := free
    · have blank : Text.isBlank c = false := by
        simp only [List.any_eq_true, not_exists, not_and, Bool.not_eq_true] at blank
        exact blank c (List.mem_of_mem_head? hc)
      exact isGap_of_not_isBlank blank
    · have quote : argument.toList.head? = some '"' := by simpa using quoted
      rw [quote] at hc
      obtain rfl := by simpa using hc
      decide

theorem quoteArgument_ne_empty {argument : String} (h : argument ≠ "") :
    Text.quoteArgument argument ≠ "" := by
  intro empty
  have chars : Text.quoteChars argument.toList = [] := by
    rw [← Text.toList_quoteArgument, empty]
    rfl
  rw [Text.quoteChars] at chars
  split at chars
  · cases chars
  · exact h (String.toList_eq_nil_iff.1 chars)

theorem flush_joinArguments {arguments : List String} (h : ∀ a ∈ arguments.head?, a ≠ "") :
    Flush (Text.joinArguments arguments) := by
  cases arguments with
  | nil => exact flush_empty
  | cons a rest =>
    have first := flush_quoteArgument a
    have nonempty := quoteArgument_ne_empty (h a rfl)
    cases rest with
    | nil => simpa [Text.joinArguments] using first
    | cons b rest =>
      rw [Text.joinArguments, List.map_cons, List.map_cons, String.intercalate_cons_cons,
        String.append_assoc]
      exact first.append nonempty

/-! ## Dependency files -/

theorem head?_piece {cs first : List Char} {rest : List (List Char)}
    (h : cs.splitOn '/' = first :: rest) : ∀ c ∈ first.head?, c ∈ cs.head? := by
  cases cs with
  | nil =>
    cases h
    exact fun c hc => hc
  | cons d cs =>
    rw [List.splitOn_cons_eq_if_modifyHead] at h
    split at h
    · cases h
      exact fun c hc => absurd hc (by simp)
    · obtain ⟨piece, others, pieces⟩ := List.exists_cons_of_ne_nil (List.splitOn_ne_nil '/' cs)
      rw [pieces, List.modifyHead_cons] at h
      cases h
      exact fun c hc => hc

theorem head?_stemChars (name : List Char) :
    ∀ c ∈ (Path.stemChars name).head?, c ∈ name.head? := by
  intro c hc
  obtain whole | ⟨-, extension, split⟩ := Path.stemChars_cases name
  · rwa [whole] at hc
  · rw [split, List.head?_append, hc]
    rfl

/-- A file without a directory is named by its only piece. -/
theorem fileName?_eq_some {p : Path} {first : List Char} {rest : List (List Char)} {name : String}
    (pieces : p.pieces = first :: rest) (blank : rest.filterMap Component.ofPiece? = [])
    (h : p.fileName? = some name) : name.toList = first := by
  have last : (Path.leading (!rest.isEmpty) first).getLast? = some (.name name) := by
    rw [Path.fileName?, Path.components, pieces, Path.componentsOfPieces, blank,
      List.append_nil] at h
    split at h
    · next last =>
      cases h
      exact last
    · cases h
  unfold Path.leading at last
  split at last
  · split at last <;> cases last
  · cases last
  · cases piece : Component.ofPiece? first with
    | none =>
      rw [piece] at last
      cases last
    | some component =>
      rw [piece] at last
      cases last
      exact (ofPiece?_eq_some_name_iff.1 piece).1.symm

theorem head?_ofPieces {first : List Char} {rest : List (List Char)} :
    ∃ c, (Path.ofPieces first rest).text.toList.head? = some c ∧ (c = '/' ∨ c ∈ first.head?) := by
  rw [Path.ofPieces]
  split
  · exact ⟨'/', rfl, .inl rfl⟩
  · next nonempty =>
    rw [String.toList_ofList]
    cases first with
    | nil =>
      obtain ⟨second, others, rfl⟩ : ∃ second others, rest = second :: others :=
        List.exists_cons_of_ne_nil fun empty => nonempty ⟨rfl, empty⟩
      exact ⟨'/', by rw [List.intercalate_cons_cons]; rfl, .inl rfl⟩
    | cons c first =>
      refine ⟨c, ?_, .inr rfl⟩
      cases rest with
      | nil => simp
      | cons second others => rw [List.intercalate_cons_cons]; rfl

/-- A file is in the directory that it starts with, or has no directory and starts with its stem. -/
theorem head?_parentOrEmpty (p : Path) :
    (∃ c, p.parentOrEmpty.text.toList.head? = some c ∧ (c = '/' ∨ c ∈ p.text.toList.head?)) ∨
      (p.parentOrEmpty.text = "" ∧
        ∀ c ∈ (p.fileStem?.getD "").toList.head?, c ∈ p.text.toList.head?) := by
  obtain ⟨first, rest, pieces⟩ :=
    List.exists_cons_of_ne_nil (List.splitOn_ne_nil '/' p.text.toList)
  have start := head?_piece pieces
  rw [← Path.pieces] at pieces
  rw [Path.parentOrEmpty, Path.parent?, pieces]
  simp only
  split
  · next blank =>
    -- No piece after the first names anything, so the file is the first piece.
    have blank : rest.filterMap Component.ofPiece? = [] := by
      rw [List.filterMap_eq_nil_iff]
      intro piece hpiece
      have all := List.dropWhile_eq_nil_iff.1 blank piece (List.mem_reverse.2 hpiece)
      simpa [Path.blankPiece] using all
    refine .inr ⟨by split <;> rfl, ?_⟩
    cases name : p.fileName? with
    | none => simp [Path.fileStem?, name]
    | some name' =>
      have whole := fileName?_eq_some pieces blank name
      intro c hc
      rw [Path.fileStem?, name, Option.map_some, Option.getD_some, String.toList_ofList,
        whole] at hc
      exact start c (head?_stemChars first c hc)
  · left
    obtain ⟨c, head, h⟩ := head?_ofPieces
    exact ⟨c, head, h.imp_right (start c)⟩

theorem head?_joinChars (base path : List Char) :
    ∀ c ∈ (Path.joinChars base path).head?,
      c = '/' ∨ c ∈ base.head? ∨ base = [] ∧ c ∈ path.head? := by
  intro c hc
  rw [Path.joinChars] at hc
  split at hc
  · next slash =>
    rw [slash] at hc
    exact .inl (Option.some.inj hc).symm
  · cases base with
    | nil => exact .inr (.inr ⟨rfl, by simpa using hc⟩)
    | cons d base =>
      right
      left
      split at hc <;> exact hc

theorem flush_depfilePath {object : Path} (h : Flush object.text) :
    Flush (Gcc.depfilePath object).text := by
  have gap : ∀ c, (c = '/' ∨ c ∈ object.text.toList.head?) → Ninja.isGap c = false := by
    rintro c (rfl | hc)
    · decide
    · exact h c hc
  have path : (Gcc.depfilePath object).text = .ofList (Path.joinChars
      object.parentOrEmpty.text.toList ((object.fileStem?.getD "") ++ "." ++ "d").toList) := rfl
  intro c hc
  rw [path, String.toList_ofList] at hc
  obtain ⟨d, head, hd⟩ | ⟨empty, stem⟩ := head?_parentOrEmpty object
  · obtain slash | hc | ⟨empty, -⟩ := head?_joinChars _ _ c hc
    · exact gap c (.inl slash)
    · rw [head] at hc
      cases hc
      exact gap c hd
    · rw [empty] at head
      cases head
  · obtain slash | hc | ⟨-, hc⟩ := head?_joinChars _ _ c hc
    · exact gap c (.inl slash)
    · rw [empty] at hc
      cases hc
    · rw [String.toList_append, String.toList_append, List.append_assoc, List.head?_append] at hc
      cases first : (object.fileStem?.getD "").toList.head? with
      | none =>
        rw [first] at hc
        cases hc
        decide
      | some d =>
        rw [first] at hc
        cases hc
        exact gap c (.inr (stem c first))

/-! ## Values -/

theorem flush_flags {α : Type} {flag : String} (nonempty : flag ≠ "") (text : α → String)
    (xs : List α) : Flush (Text.joinArguments (xs.map fun x => flag ++ text x)) := by
  refine flush_joinArguments fun a ha => ?_
  rw [List.head?_map] at ha
  obtain ⟨x, -, rfl⟩ := Option.map_eq_some_iff.1 ha
  exact fun empty => nonempty (String.append_eq_empty_iff.1 empty).1

theorem flush_paths {paths : List Path} (h : ∀ p ∈ paths, p.text ≠ "") :
    Flush (Text.joinArguments (paths.map Path.text)) := by
  refine flush_joinArguments fun a ha => ?_
  rw [List.head?_map] at ha
  obtain ⟨p, hp, rfl⟩ := Option.map_eq_some_iff.1 ha
  exact h p (List.mem_of_mem_head? hp)

theorem flush_databaseFlag (flag : String) (database : Option Path) :
    Flush (Msvc.databaseFlag flag database) := by
  cases database with
  | none => exact flush_empty
  | some path => exact flush_quoteArgument _

namespace Toolchain

variable {toolchain : Toolchain} {configuration : Configuration}

theorem flush_compile (task : CompileTask) (object : Flush task.object.text) :
    ∀ b ∈ (toolchain.compile task configuration).bindings, Flush b.2 := by
  cases toolchain with
  | gcc tools =>
    have flags : Flush Gcc.baseFlags := by decide
    have build : Flush (Gcc.configurationFlags configuration) := by cases configuration <;> decide
    have warnings : Flush (Gcc.warningFlags task.warningLevel) := by
      unfold Gcc.warningFlags
      split <;> decide
    simp only [compile, Gcc.compile, List.forall_mem_cons]
    exact ⟨flush_depfilePath object, flush_quoteArgument _, flags, build, warnings,
      flush_flags (by decide) _ _, flush_quoteArgument _, flush_flags (by decide) _ _,
      flush_quoteArgument _, by simp⟩
  | msvc tools =>
    have flags : Flush Msvc.baseFlags := by decide
    have build : Flush (Msvc.configurationFlags configuration) := by cases configuration <;> decide
    simp only [compile, Msvc.compile, List.forall_mem_cons]
    exact ⟨flags, build, Flush.append (by decide) (by decide), flush_flags (by decide) _ _,
      flush_quoteArgument _, flush_databaseFlag _ _, flush_flags (by decide) _ _,
      flush_quoteArgument _, by simp⟩

theorem flush_archive {task : ArchiveTask} (objects : ∀ p ∈ task.objects, p.text ≠ "") :
    ∀ b ∈ (toolchain.archive task).bindings, Flush b.2 := by
  cases toolchain with
  | gcc tools =>
    simp only [archive, Gcc.archive, List.forall_mem_cons]
    exact ⟨by decide, flush_quoteArgument _, flush_paths objects, by simp⟩
  | msvc tools =>
    simp only [archive, Msvc.archive, List.forall_mem_cons]
    exact ⟨by decide, flush_quoteArgument _, flush_paths objects, by simp⟩

theorem flush_link {task : LinkTask} (nonempty : task.objects ≠ [])
    (objects : ∀ p ∈ task.objects, p.text ≠ "") (libraries : ∀ p ∈ task.libraries, p.text ≠ "") :
    ∀ b ∈ (toolchain.link task configuration).bindings, Flush b.2 := by
  cases toolchain with
  | gcc tools =>
    have build : Flush (Gcc.configurationFlags configuration) := by cases configuration <;> decide
    simp only [link, Gcc.link, List.forall_mem_cons]
    exact ⟨build, flush_quoteArgument _, flush_flags (by decide) _ _, flush_paths objects,
      flush_paths libraries, by simpa using flush_flags (by decide) id task.standardLibraries,
      by simp⟩
  | msvc tools =>
    have flags : Flush "/NOLOGO /OPT:REF /SUBSYSTEM:CONSOLE" := by decide
    have build : Flush (Msvc.linkConfigurationFlags configuration) := by
      cases configuration <;> decide
    have files : Flush (Text.joinArguments
        ((task.objects ++ task.libraries).map Path.text ++ task.standardLibraries)) := by
      obtain ⟨object, rest, split⟩ := List.exists_cons_of_ne_nil nonempty
      refine flush_joinArguments fun a ha => ?_
      rw [split] at ha
      obtain rfl := by simpa using ha
      exact objects object (split ▸ List.mem_cons_self)
    have resource : Flush ((task.resource.map fun r => Text.quoteArgument r.text).getD "") := by
      cases task.resource with
      | none => exact flush_empty
      | some r => exact flush_quoteArgument _
    simp only [link, Msvc.linkStatement, List.forall_mem_cons]
    exact ⟨flags, build, flush_quoteArgument _, flush_databaseFlag _ _, flush_flags (by decide) _ _,
      files, resource, by simp⟩

theorem flush_resource {task : ResourceTask} {s : Statement}
    (issued : toolchain.resource? task = some s) : ∀ b ∈ s.bindings, Flush b.2 := by
  cases toolchain with
  | gcc tools => cases issued
  | msvc tools =>
    cases issued
    simp only [Msvc.resource, List.forall_mem_cons]
    exact ⟨Flush.append (by decide) (by decide), flush_quoteArgument _, by simp⟩

/-- Every value that is bound is flush, if the displayed paths are. -/
theorem Issued.flush_bindings {s : Statement} (h : toolchain.Issued configuration s)
    (outputs : ∀ p ∈ s.outputs, Flush p.text) (inputs : ∀ p ∈ s.inputs, p.text ≠ "") :
    ∀ b ∈ s.bindings, Flush b.2 := by
  cases h with
  | compile task =>
    exact flush_compile task
      (outputs _ (List.mem_of_mem_head? (toolchain.head?_outputs_compile configuration task)))
  | archive task objects =>
    rw [toolchain.inputs_archive] at inputs
    exact flush_archive inputs
  | link task objects resource =>
    rw [toolchain.inputs_link configuration task resource] at inputs
    exact flush_link objects
      (fun p hp => inputs p (List.mem_append_left _ (List.mem_append_left _ hp)))
      (fun p hp => inputs p (List.mem_append_left _ (List.mem_append_right _ hp)))
  | resource task issued => exact flush_resource issued

end Toolchain

end BuildPlanner
