import BuildPlanner.Proofs.Basic
import BuildPlanner.Toolchain

/-!
# Quoted defines

A program reads its arguments off a text by cutting it at the blanks outside double quotes.  Quotes
group what stands between them and are removed, and a backslash before a quote makes the quote a
character like any other (`readArguments`).

An argument with a blank is put in quotes, so it is read back unless it ends in a backslash, which
then stands before the closing quote.  An argument without a blank stays as it is, so it is read
back unless it holds a quote (`IsKept`).  Each argument that is not kept is read as something else,
and what stands after it cannot make up for that (`readChars_joinArguments_iff`).

* `readArguments_defines_iff`: the defines of a compilation reach the compiler exactly if each of
  them is kept.
-/

namespace BuildPlanner

open Text

/-- Reads arguments.  The argument that has been started holds `current`, and `quoted` says whether
a quote is open. -/
def readChars : (quoted : Bool) → (current : Option (List Char)) → List Char → List (List Char)
  | _, current, [] => current.toList
  | quoted, current, '\\' :: '"' :: rest => readChars quoted (some (current.getD [] ++ ['"'])) rest
  | quoted, current, '"' :: rest => readChars (!quoted) (some (current.getD [])) rest
  | quoted, current, c :: rest =>
    if isBlank c && !quoted then current.toList ++ readChars false none rest
    else readChars quoted (some (current.getD [] ++ [c])) rest

/-- The arguments that a program reads off a text. -/
def readArguments (line : String) : List String :=
  (readChars false none line.toList).map .ofList

def IsKept (argument : String) : Prop :=
  if argument.toList.any isBlank then argument.toList.getLast? ≠ some '\\'
  else '"' ∉ argument.toList

instance : DecidablePred IsKept := fun argument =>
  inferInstanceAs (Decidable (if argument.toList.any isBlank then _ else _))

section Reading

variable {quoted : Bool} {current : Option (List Char)} {word cs rest : List Char} {c : Char}

/-! ## One character -/

theorem readChars_escaped (rest : List Char) :
    readChars quoted current ('\\' :: '"' :: rest) =
      readChars quoted (some (current.getD [] ++ ['"'])) rest := by
  simp [readChars]

theorem readChars_quote (rest : List Char) :
    readChars quoted current ('"' :: rest) = readChars (!quoted) (some (current.getD [])) rest := by
  simp [readChars]

theorem readChars_cons (quote : c ≠ '"') (slash : c = '\\' → rest.head? ≠ some '"') :
    readChars quoted current (c :: rest) =
      if isBlank c && !quoted then current.toList ++ readChars false none rest
      else readChars quoted (some (current.getD [] ++ [c])) rest := by
  rw [readChars]
  · rintro rest rfl rfl
    exact slash rfl rfl
  · exact quote

theorem readChars_plain (quote : c ≠ '"') (slash : c = '\\' → rest.head? ≠ some '"')
    (inside : quoted = true ∨ isBlank c = false) :
    readChars quoted current (c :: rest) =
      readChars quoted (some (current.getD [] ++ [c])) rest := by
  rw [readChars_cons quote slash, if_neg]
  rcases inside with rfl | bare
  · simp
  · simp [bare]

theorem readChars_space (rest : List Char) :
    readChars false current (' ' :: rest) = current.toList ++ readChars false none rest := by
  rw [readChars_cons (by decide) (by simp), if_pos (by simp)]

/-- What has been read of an argument stays at its front. -/
theorem exists_readChars_eq_cons (quoted : Bool) (word text : List Char) :
    ∃ more others, readChars quoted (some word) text = (word ++ more) :: others := by
  generalize started : some word = current
  induction quoted, current, text using readChars.induct generalizing word with
  | case1 => exact ⟨[], [], by simp [readChars, ← started]⟩
  | case2 quoted current rest ih =>
    obtain ⟨more, others, same⟩ := ih _ rfl
    refine ⟨'"' :: more, others, ?_⟩
    rw [readChars_escaped, same]
    simp [← started]
  | case3 quoted current rest ih =>
    obtain ⟨more, others, same⟩ := ih _ rfl
    refine ⟨more, others, ?_⟩
    rw [readChars_quote, same]
    simp [← started]
  | case4 quoted current c rest _ _ blank _ =>
    subst started
    refine ⟨[], readChars false none rest, ?_⟩
    rw [readChars, if_pos blank] <;> simp_all
  | case5 quoted current c rest _ _ inside ih =>
    obtain ⟨more, others, same⟩ := ih _ rfl
    subst started
    refine ⟨c :: more, others, ?_⟩
    rw [readChars, if_neg inside] <;> simp_all

theorem readChars_none (blank : isBlank c = false) (rest : List Char) :
    readChars quoted none (c :: rest) = readChars quoted (some []) (c :: rest) := by
  unfold readChars
  split <;> simp_all

theorem readChars_end (stop : ∀ c ∈ rest.head?, c = ' ') :
    readChars false (some word) rest = word :: readChars false none rest.tail := by
  cases rest with
  | nil => simp [readChars]
  | cons c rest =>
    obtain rfl : c = ' ' := stop c rfl
    rw [readChars_space]
    rfl

/-! ## One argument -/

theorem escapeQuotes_quote (cs : List Char) :
    escapeQuotes ('"' :: cs) = '\\' :: '"' :: escapeQuotes cs := by
  simp [escapeQuotes]

theorem escapeQuotes_cons (quote : c ≠ '"') (cs : List Char) :
    escapeQuotes (c :: cs) = c :: escapeQuotes cs := by
  simp [escapeQuotes, quote]

theorem head?_escapeQuotes_append (stop : cs = [] → rest.head? ≠ some '"') :
    (escapeQuotes cs ++ rest).head? ≠ some '"' := by
  cases cs with
  | nil => exact stop rfl
  | cons c cs =>
    by_cases quote : c = '"'
    · subst quote
      simp [escapeQuotes_quote]
    · simp [escapeQuotes_cons quote, quote]

/-- A backslash at the end must not meet a quote. -/
theorem readChars_escapeQuotes (stop : cs.getLast? = some '\\' → rest.head? ≠ some '"') :
    readChars true (some word) (escapeQuotes cs ++ rest) =
      readChars true (some (word ++ cs)) rest := by
  induction cs generalizing word with
  | nil => simp [escapeQuotes]
  | cons c cs ih =>
    have read : readChars true (some (word ++ [c])) (escapeQuotes cs ++ rest) =
        readChars true (some (word ++ [c] ++ cs)) rest :=
      ih fun last => stop (by simp [List.getLast?_cons, last])
    rw [List.append_assoc, List.singleton_append] at read
    by_cases quote : c = '"'
    · subst quote
      rw [escapeQuotes_quote, List.cons_append, List.cons_append, readChars_escaped]
      exact read
    · have apart : c = '\\' → (escapeQuotes cs ++ rest).head? ≠ some '"' := by
        rintro rfl
        apply head?_escapeQuotes_append
        rintro rfl
        exact stop rfl
      rw [escapeQuotes_cons quote, List.cons_append, readChars_plain quote apart (.inl rfl)]
      exact read

/-- Without quotes around it, each quote of an argument is lost, or else the backslash before it. -/
theorem exists_readChars_bare (cs : List Char) (quoted : Bool) (word : List Char)
    (bare : ∀ c ∈ cs, isBlank c = false) (stop : rest.head? ≠ some '"') :
    ∃ quoted' read,
      readChars quoted (some word) (cs ++ rest) = readChars quoted' (some (word ++ read)) rest ∧
      read.length ≤ cs.length ∧ ('"' ∈ cs → read.length < cs.length) ∧
      ('"' ∉ cs → quoted' = quoted ∧ read = cs) := by
  match cs with
  | [] => exact ⟨quoted, [], by simp⟩
  | c :: cs =>
    by_cases escaped : c = '\\' ∧ cs.head? = some '"'
    · obtain ⟨rfl, next⟩ := escaped
      obtain ⟨cs, rfl⟩ := List.head?_eq_some_iff.1 next
      obtain ⟨quoted', read, same, shorter, -⟩ :=
        exists_readChars_bare cs quoted (word ++ ['"']) (by simp_all) stop
      refine ⟨quoted', '"' :: read, ?_, ?_, fun _ => ?_, by simp⟩
      · simpa [readChars_escaped] using same
      all_goals simp only [List.length_cons]; omega
    by_cases quote : c = '"'
    · subst quote
      obtain ⟨quoted', read, same, shorter, -⟩ :=
        exists_readChars_bare cs (!quoted) word (by simp_all) stop
      refine ⟨quoted', read, ?_, ?_, fun _ => ?_, by simp⟩
      · simpa [readChars_quote] using same
      all_goals simp only [List.length_cons]; omega
    have apart : c = '\\' → (cs ++ rest).head? ≠ some '"' := by
      cases cs <;> simp_all
    obtain ⟨quoted', read, same, shorter, lost, kept⟩ :=
      exists_readChars_bare cs quoted (word ++ [c]) (by simp_all) stop
    refine ⟨quoted', c :: read, ?_, ?_, ?_, ?_⟩
    · rw [List.cons_append, readChars_plain quote apart (.inr (bare c (by simp)))]
      simpa using same
    · simpa using shorter
    · simpa [Ne.symm quote] using lost
    · simpa [Ne.symm quote] using kept

/-- A backslash at the end of a quoted argument meets the closing quote, which is then read as a
part of the argument. -/
theorem head?_readChars_quoted (slash : cs.getLast? = some '\\') (rest : List Char) :
    (readChars false none ('"' :: escapeQuotes cs ++ '"' :: rest)).head? ≠ some cs := by
  obtain ⟨init, rfl⟩ := List.getLast?_eq_some_iff.1 slash
  have text : '"' :: escapeQuotes (init ++ ['\\']) ++ '"' :: rest =
      '"' :: (escapeQuotes init ++ '\\' :: '"' :: rest) := by
    simp [escapeQuotes]
  obtain ⟨more, others, read⟩ := exists_readChars_eq_cons true (init ++ ['"']) rest
  rw [text, readChars_quote, Bool.not_false, readChars_escapeQuotes (by simp), readChars_escaped]
  simp [read]

/-- What is read of an argument with a quote, and without a blank, is shorter than the argument, or
else it goes on with the space after it. -/
theorem head?_readChars_bare (bare : ∀ c ∈ cs, isBlank c = false) (quote : '"' ∈ cs)
    (stop : ∀ c ∈ rest.head?, c = ' ') :
    (readChars false (some []) (cs ++ rest)).head? ≠ some cs := by
  have apart : rest.head? ≠ some '"' := fun next => absurd (stop _ next) (by decide)
  obtain ⟨quoted', read, same, -, lost, -⟩ := exists_readChars_bare cs false [] bare apart
  have shorter := lost quote
  rw [same, List.nil_append]
  intro whole
  cases quoted' with
  | false =>
    rw [readChars_end stop, List.head?_cons, Option.some_inj] at whole
    simp [whole] at shorter
  | true =>
    cases rest with
    | nil =>
      rw [readChars, Option.toList_some, List.head?_cons, Option.some_inj] at whole
      simp [whole] at shorter
    | cons c rest =>
      obtain rfl : c = ' ' := stop c rfl
      obtain ⟨more, others, read_eq⟩ := exists_readChars_eq_cons true (read ++ [' ']) rest
      rw [readChars_plain (by decide) (by simp) (.inl rfl), Option.getD_some, read_eq,
        List.head?_cons, Option.some_inj] at whole
      have space : isBlank ' ' = false := bare ' ' (by simp [← whole])
      simp at space

end Reading

/-! ## Many arguments -/

/-- An argument that is not taken to be quoted already. -/
def IsUnquoted (argument : String) : Prop := ∃ c ∈ argument.toList.head?, c ≠ '"'

section Arguments

variable {argument : String} {arguments : List String} {rest : List Char}

theorem IsUnquoted.needsQuotes_eq (h : IsUnquoted argument) :
    needsQuotes argument.toList = argument.toList.any isBlank := by
  obtain ⟨c, first, quote⟩ := h
  rw [Option.mem_def] at first
  simp [needsQuotes, first, quote]

theorem IsUnquoted.readChars_none (h : IsUnquoted argument)
    (bare : ∀ c ∈ argument.toList, isBlank c = false) (rest : List Char) :
    readChars false none (argument.toList ++ rest) =
      readChars false (some []) (argument.toList ++ rest) := by
  obtain ⟨c, first, -⟩ := h
  obtain ⟨cs, text⟩ := List.head?_eq_some_iff.1 first
  rw [text, List.cons_append]
  exact BuildPlanner.readChars_none (bare c (by simp [text])) _

theorem readChars_quoteChars (h : IsUnquoted argument) (kept : IsKept argument)
    (stop : ∀ c ∈ rest.head?, c = ' ') :
    readChars false none (quoteChars argument.toList ++ rest) =
      argument.toList :: readChars false none rest.tail := by
  unfold IsKept at kept
  rw [quoteChars, h.needsQuotes_eq]
  split at kept
  · next blank =>
    rw [if_pos blank, List.append_assoc, List.cons_append, readChars_quote, Bool.not_false,
      Option.getD_none, readChars_escapeQuotes (fun last => absurd last kept), List.nil_append,
      List.singleton_append, readChars_quote, Bool.not_true, Option.getD_some, readChars_end stop]
  · next blank =>
    have bare : ∀ c ∈ argument.toList, isBlank c = false := by simpa using blank
    have apart : rest.head? ≠ some '"' := fun next => absurd (stop _ next) (by decide)
    obtain ⟨quoted', read, same, -, -, whole⟩ :=
      exists_readChars_bare argument.toList false [] bare apart
    obtain ⟨rfl, rfl⟩ := whole kept
    rw [if_neg blank, h.readChars_none bare, same, List.nil_append, readChars_end stop]

theorem head?_readChars_quoteChars (h : IsUnquoted argument) (lost : ¬ IsKept argument)
    (stop : ∀ c ∈ rest.head?, c = ' ') :
    (readChars false none (quoteChars argument.toList ++ rest)).head? ≠ some argument.toList := by
  unfold IsKept at lost
  rw [quoteChars, h.needsQuotes_eq]
  split at lost
  · next blank =>
    rw [not_not] at lost
    rw [if_pos blank, List.append_assoc, List.singleton_append]
    exact head?_readChars_quoted lost rest
  · next blank =>
    have bare : ∀ c ∈ argument.toList, isBlank c = false := by simpa using blank
    rw [not_not] at lost
    rw [if_neg blank, h.readChars_none bare]
    exact head?_readChars_bare bare lost stop

/-- Arguments are read back from the text that is made of them exactly if each of them is kept. -/
theorem readChars_joinArguments_iff (h : ∀ a ∈ arguments, IsUnquoted a) :
    readChars false none (joinArguments arguments).toList = arguments.map String.toList ↔
      ∀ a ∈ arguments, IsKept a := by
  induction arguments with
  | nil => simp [readChars]
  | cons a arguments ih =>
    obtain ⟨first, others⟩ := List.forall_mem_cons.1 h
    have ih := ih others
    -- What follows the first argument is nothing, or a space and the other arguments.
    obtain ⟨rest, text, stop, tail⟩ : ∃ rest,
        (joinArguments (a :: arguments)).toList = quoteChars a.toList ++ rest ∧
        (∀ c ∈ rest.head?, c = ' ') ∧ rest.tail = (joinArguments arguments).toList := by
      cases arguments with
      | nil => exact ⟨[], by simp [joinArguments], by simp, by simp⟩
      | cons b arguments =>
        refine ⟨' ' :: (joinArguments (b :: arguments)).toList, ?_, by simp, rfl⟩
        simp [joinArguments, String.intercalate_cons_cons]
    rw [text, List.forall_mem_cons, List.map_cons]
    by_cases kept : IsKept a
    · rw [readChars_quoteChars first kept stop, tail, List.cons_inj_right, ih]
      simp [kept]
    · have lost := head?_readChars_quoteChars first kept stop
      constructor
      · intro read
        rw [read] at lost
        exact absurd rfl lost
      · exact fun all => absurd all.1 kept

theorem readArguments_joinArguments_iff (h : ∀ a ∈ arguments, IsUnquoted a) :
    readArguments (joinArguments arguments) = arguments ↔ ∀ a ∈ arguments, IsKept a := by
  rw [← readChars_joinArguments_iff h, readArguments]
  constructor
  · intro read
    simpa using congrArg (List.map String.toList) read
  · intro read
    simp [read]

end Arguments

/-! ## Defines -/

/-- The flag before a define. -/
def Platform.defineFlag : Platform → String
  | gcc => "-D"
  | msvc => "/D"

theorem isUnquoted_define (platform : Platform) (text : String) :
    IsUnquoted (platform.defineFlag ++ text) := by
  cases platform <;> simp [IsUnquoted, Platform.defineFlag]

theorem isKept_define_iff (platform : Platform) (text : String) :
    IsKept (platform.defineFlag ++ text) ↔ IsKept text := by
  have slash : isBlank '/' = false := by decide
  have dash : isBlank '-' = false := by decide
  have letter : isBlank 'D' = false := by decide
  have last : ('D' :: text.toList).getLast? = some '\\' ↔ text.toList.getLast? = some '\\' := by
    cases end_eq : text.toList.getLast? <;> simp [List.getLast?_cons, end_eq]
  cases platform <;> simp [IsKept, Platform.defineFlag, slash, dash, letter, last]

theorem binding?_defines (toolchain : Toolchain) (task : CompileTask)
    (configuration : Configuration) :
    (toolchain.compile task configuration).binding? "cc_defines" = some (joinArguments
      (task.defines.map fun d => toolchain.platform.defineFlag ++ d.text)) := by
  cases toolchain <;> rfl

/-- The defines of a compilation are read back by the compiler, each as one argument after its flag
and in their order, exactly if each of them is kept. -/
theorem readArguments_defines_iff (toolchain : Toolchain) (task : CompileTask)
    (configuration : Configuration) :
    ∃ value, (toolchain.compile task configuration).binding? "cc_defines" = some value ∧
      (readArguments value = task.defines.map (fun d => toolchain.platform.defineFlag ++ d.text) ↔
        ∀ d ∈ task.defines, IsKept d.text) := by
  refine ⟨_, binding?_defines toolchain task configuration, ?_⟩
  rw [readArguments_joinArguments_iff]
  · simp [isKept_define_iff]
  · simp [isUnquoted_define]

/-- A compilation with some defines. -/
def taskWithDefines (defines : List Define) : CompileTask where
  source := ⟨"main.c"⟩
  object := ⟨"main.o"⟩
  includeDirs := []
  defines := defines
  warningLevel := 4

/-- The quotes of a value without blanks are lost; a directory with a blank and a backslash at its
end takes the next define with it. -/
theorem readArguments_lostDefines :
    Define.parse "VERSION=\"1.0\"" = .ok ⟨"VERSION", some "\"1.0\""⟩ ∧
    ((Toolchain.ofPlatform .gcc).compile (taskWithDefines [⟨"VERSION", some "\"1.0\""⟩])
      .debug).binding? "cc_defines" = some "-DVERSION=\"1.0\"" ∧
    readArguments "-DVERSION=\"1.0\"" = ["-DVERSION=1.0"] ∧
    Define.parse "ROOT=C:\\My Files\\" = .ok ⟨"ROOT", some "C:\\My Files\\"⟩ ∧
    Define.parse "NDEBUG" = .ok ⟨"NDEBUG", none⟩ ∧
    ((Toolchain.ofPlatform .msvc).compile
      (taskWithDefines [⟨"ROOT", some "C:\\My Files\\"⟩, ⟨"NDEBUG", none⟩])
      .debug).binding? "cc_defines" = some "\"/DROOT=C:\\My Files\\\" /DNDEBUG" ∧
    readArguments "\"/DROOT=C:\\My Files\\\" /DNDEBUG" =
      ["/DROOT=C:\\My Files\" /DNDEBUG"] := by
  decide +kernel

end BuildPlanner
