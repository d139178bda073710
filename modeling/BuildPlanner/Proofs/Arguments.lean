import BuildPlanner.Proofs.Template
import BuildPlanner.Text.Argument

/-!
# Arguments of a command line

A command line is cut at the spaces outside double quotes; quotes group what stands between them and
are removed.  Arguments that are not empty and hold no quote are read back from the command line
that is made of them, also where they hold blanks (`splitChars_joinArguments`).

* `splitChars_quoteChars`: one argument is read as one, quoted or not.
* `splitArguments_expand`: a command whose words stand for lists of arguments is cut into the
  program and these arguments, also where some of the lists are empty.
-/

namespace BuildPlanner

open Text

/-- Cuts a text into arguments.  The argument that has been started holds `current`, and `quoted`
says whether a quote is open. -/
def splitChars : (quoted : Bool) → (current : Option (List Char)) → List Char → List (List Char)
  | _, current, [] => current.toList
  | quoted, current, '"' :: rest => splitChars (!quoted) (some (current.getD [])) rest
  | true, current, c :: rest => splitChars true (some (current.getD [] ++ [c])) rest
  | false, current, ' ' :: rest => current.toList ++ splitChars false none rest
  | false, current, c :: rest => splitChars false (some (current.getD [] ++ [c])) rest

/-- The arguments of a command line. -/
def splitArguments (line : String) : List String :=
  (splitChars false none line.toList).map .ofList

/-- A text that can be an argument: it is not empty and holds no quote. -/
def IsArgument (text : String) : Prop := text ≠ "" ∧ '"' ∉ text.toList

instance : DecidablePred IsArgument := fun _ => instDecidableAnd

/-! ## One argument -/

theorem splitChars_space (current : Option (List Char)) (rest : List Char) :
    splitChars false current (' ' :: rest) = current.toList ++ splitChars false none rest := by
  simp [splitChars]

/-- An argument ends where the text ends or a space follows. -/
theorem splitChars_end (current : Option (List Char)) {rest : List Char}
    (stop : ∀ c ∈ rest.head?, c = ' ') :
    splitChars false current rest = current.toList ++ splitChars false none rest := by
  cases rest with
  | nil => simp [splitChars]
  | cons c rest =>
    obtain rfl := stop c rfl
    rw [splitChars_space, splitChars_space]
    rfl

theorem splitChars_quoted {cs : List Char} (quote : '"' ∉ cs) (current rest : List Char) :
    splitChars true (some current) (cs ++ '"' :: rest) =
      splitChars false (some (current ++ cs)) rest := by
  induction cs generalizing current with
  | nil => simp [splitChars]
  | cons c cs ih =>
    rw [List.mem_cons, not_or] at quote
    rw [List.cons_append, splitChars, ih quote.2]
    · simp
    · exact fun same => quote.1 same.symm

theorem splitChars_bare {cs : List Char} (quote : '"' ∉ cs) (space : ' ' ∉ cs)
    (current rest : List Char) :
    splitChars false (some current) (cs ++ rest) =
      splitChars false (some (current ++ cs)) rest := by
  induction cs generalizing current with
  | nil => simp
  | cons c cs ih =>
    rw [List.mem_cons, not_or] at quote space
    rw [List.cons_append, splitChars, ih quote.2 space.2]
    · simp
    · exact fun same => quote.1 same.symm
    · exact fun same => space.1 same.symm

theorem escapeQuotes_eq_self {cs : List Char} (h : '"' ∉ cs) : escapeQuotes cs = cs := by
  rw [escapeQuotes, List.flatMap_congr (g := fun c => [c]), List.flatMap_singleton']
  intro c hc
  rw [if_neg]
  rintro rfl
  exact h hc

/-- One argument is read as one. -/
theorem splitChars_quoteChars {argument : String} (h : IsArgument argument) (rest : List Char) :
    splitChars false none (quoteChars argument.toList ++ rest) =
      splitChars false (some argument.toList) rest := by
  obtain ⟨nonempty, quote⟩ := h
  rw [quoteChars]
  split
  · rw [escapeQuotes_eq_self quote, List.cons_append, List.cons_append, List.append_assoc,
      List.singleton_append, splitChars]
    exact splitChars_quoted quote [] rest
  · next bare =>
    -- It is left as it is only where no blank is in it, since no quote is.
    obtain ⟨c, cs, text⟩ := exists_cons_of_ne_empty nonempty
    have space : ' ' ∉ argument.toList := by
      intro space
      refine bare ?_
      rw [needsQuotes, Bool.and_eq_true, List.any_eq_true, bne_iff_ne]
      exact ⟨⟨' ', space, isBlank_space⟩, fun first => quote (List.mem_of_mem_head? first)⟩
    rw [text, List.mem_cons, not_or] at quote space
    rw [text, List.cons_append, splitChars]
    · exact splitChars_bare quote.2 space.2 [c] rest
    · exact fun same => quote.1 same.symm
    · exact fun same => space.1 same.symm

/-! ## Many arguments -/

/-- Arguments are read back from the text that is made of them. -/
theorem splitChars_joinArguments {arguments : List String} (h : ∀ a ∈ arguments, IsArgument a)
    {rest : List Char} (stop : ∀ c ∈ rest.head?, c = ' ') :
    splitChars false none ((joinArguments arguments).toList ++ rest) =
      arguments.map String.toList ++ splitChars false none rest := by
  induction arguments with
  | nil => rfl
  | cons a arguments ih =>
    obtain ⟨first, others⟩ := List.forall_mem_cons.1 h
    cases arguments with
    | nil =>
      have text : (joinArguments [a]).toList = quoteChars a.toList := by simp [joinArguments]
      rw [text, splitChars_quoteChars first, splitChars_end _ stop]
      rfl
    | cons b arguments =>
      have text : (joinArguments (a :: b :: arguments)).toList =
          quoteChars a.toList ++ ' ' :: (joinArguments (b :: arguments)).toList := by
        simp [joinArguments, String.intercalate_cons_cons]
      rw [text, List.append_assoc, splitChars_quoteChars first, List.cons_append,
        splitChars_space, ih others]
      rfl

theorem head?_groups (groups : List (List String)) :
    ∀ c ∈ (groups.flatMap fun group => ' ' :: (joinArguments group).toList).head?, c = ' ' := by
  cases groups <;> simp

/-- Lists of arguments with a space before each are read as one list. -/
theorem splitChars_groups {groups : List (List String)}
    (h : ∀ group ∈ groups, ∀ a ∈ group, IsArgument a) :
    splitChars false none (groups.flatMap fun group => ' ' :: (joinArguments group).toList) =
      groups.flatten.map String.toList := by
  induction groups with
  | nil => rfl
  | cons group groups ih =>
    obtain ⟨first, others⟩ := List.forall_mem_cons.1 h
    rw [List.flatMap_cons, List.cons_append, splitChars_space,
      splitChars_joinArguments first (head?_groups groups),
      ih others, List.flatten_cons, List.map_append]
    rfl

namespace Statement

/-- What a word of a command stands for. -/
def wordValue (s : Statement) : Template.Part → String
  | .text value => value
  | .bare name => s.value name
  | .braced name => s.value name

theorem toList_wordValue (s : Statement) (word : Template.Part) :
    word.fill (fun name => (s.value (.ofList name)).toList) = (s.wordValue word).toList := by
  cases word <;> simp [Template.Part.fill, wordValue]

theorem fill_commandParts (s : Statement) (program : String) {words : List Template.Part}
    {groups : List (List String)} (values : words.map s.wordValue = groups.map joinArguments) :
    (Template.commandParts program words).flatMap
        (Template.Part.fill fun name => (s.value (.ofList name)).toList) =
      program.toList ++ groups.flatMap fun group => ' ' :: (joinArguments group).toList := by
  have filled : (Template.spaced words).flatMap
      (Template.Part.fill fun name => (s.value (.ofList name)).toList) =
        (words.map s.wordValue).flatMap fun value => ' ' :: value.toList := by
    rw [Template.spaced, List.flatMap_assoc, List.flatMap_map]
    refine List.flatMap_congr fun word _ => ?_
    rw [List.flatMap_cons, List.flatMap_singleton, toList_wordValue s word]
    rfl
  rw [Template.commandParts, List.flatMap_cons, filled, values, List.flatMap_map]
  rfl

end Statement

/-- A command is cut into the program and the arguments that its words stand for. -/
theorem splitArguments_expand {s : Statement} {program : String} {words : List Template.Part}
    {groups : List (List String)} (argument : IsArgument program)
    (bare : quoteArgument program = program) (dollar : '$' ∉ program.toList)
    (hwords : ∀ word ∈ words, word.IsWord)
    (values : words.map s.wordValue = groups.map joinArguments)
    (h : ∀ group ∈ groups, ∀ a ∈ group, IsArgument a) :
    splitArguments (s.expand (Template.command program words)) = program :: groups.flatten := by
  have single : joinArguments [program] = program := by simp [joinArguments, bare]
  have first := splitChars_joinArguments (List.forall_mem_singleton.2 argument)
    (head?_groups groups)
  rw [single] at first
  rw [splitArguments, Statement.expand, String.toList_ofList, Template.toList_command dollar,
    Template.expandChars_chars _ (Template.wellFormed_commandParts program hwords),
    s.fill_commandParts program values, first, splitChars_groups h]
  simp

end BuildPlanner
