import BuildPlanner.Proofs.Ninja.Escaping

/-!
# Commands as templates

A command of a rule is written from parts: texts, whose dollars are doubled, and references to
variables, with braces around the name or without them.

* `expandChars_chars`: expanding a command fills in the value of each reference, once.
* `expand_of_written`: so a statement expands a command to its texts and to the values of its
  references.
* `symbols_chars`: the executor reads the same parts.
* `evaluate_symbols`: so it fills in the same values, where both know the same variables.
-/

namespace BuildPlanner.Template

/-- A part of a command. -/
inductive Part where
  /-- A text that stands for itself. -/
  | text (value : String)
  /-- A reference to a variable, without braces. -/
  | bare (name : String)
  /-- A reference to a variable, in braces. -/
  | braced (name : String)
deriving DecidableEq, Repr

/-- A text with its dollars doubled. -/
def doubleDollars (cs : List Char) : List Char :=
  cs.flatMap fun c => if c = '$' then ['$', '$'] else [c]

/-- The characters that a part is written with. -/
def Part.chars : Part → List Char
  | text value => doubleDollars value.toList
  | bare name => '$' :: name.toList
  | braced name => '$' :: '{' :: name.toList ++ ['}']

/-- The characters of a command. -/
def chars (parts : List Part) : List Char := parts.flatMap Part.chars

/-- The parts of a command can be told from each other: a name without braces ends where the next
part starts. -/
def WellFormed : List Part → Prop
  | [] => True
  | .text _ :: rest => WellFormed rest
  | .bare name :: rest =>
    (name ≠ "" ∧ ∀ c ∈ name.toList, Statement.isNameChar c) ∧
      (∀ c ∈ (chars rest).head?, Statement.isNameChar c = false) ∧ WellFormed rest
  | .braced name :: rest => (name ≠ "" ∧ '}' ∉ name.toList) ∧ WellFormed rest

instance decidableWellFormed : DecidablePred WellFormed
  | [] => instDecidableTrue
  | .text _ :: rest => decidableWellFormed rest
  | .bare name :: rest =>
    @instDecidableAnd _ _ (@instDecidableAnd _ _ _ (List.decidableBAll _ name.toList))
      (@instDecidableAnd _ _ (Option.decidableForallMem _) (decidableWellFormed rest))
  | .braced _ :: rest => @instDecidableAnd _ _ _ (decidableWellFormed rest)

theorem chars_cons (part : Part) (rest : List Part) :
    chars (part :: rest) = part.chars ++ chars rest :=
  List.flatMap_cons

/-! ## Expansion -/

/-- What a part stands for, where `value` gives the values of variables. -/
def Part.fill (value : List Char → List Char) : Part → List Char
  | text value => value.toList
  | bare name => value name.toList
  | braced name => value name.toList

theorem expandChars_cons {value : List Char → List Char} {c : Char} (h : c ≠ '$')
    (rest : List Char) :
    Statement.expandChars value (c :: rest) = c :: Statement.expandChars value rest := by
  rw [Statement.expandChars]
  all_goals simp_all

theorem expandChars_doubleDollars (value : List Char → List Char) (cs rest : List Char) :
    Statement.expandChars value (doubleDollars cs ++ rest) =
      cs ++ Statement.expandChars value rest := by
  induction cs with
  | nil => rfl
  | cons c cs ih =>
    rw [doubleDollars] at ih
    rw [doubleDollars, List.flatMap_cons, List.append_assoc]
    split
    · next dollar =>
      rw [List.cons_append, List.singleton_append, Statement.expandChars, ih, dollar]
      rfl
    · next other =>
      rw [List.singleton_append, expandChars_cons other, ih]
      rfl

theorem expandChars_bare {value : List Char → List Char} {name : String} {rest : List Char}
    (nonempty : name ≠ "") (h : ∀ c ∈ name.toList, Statement.isNameChar c)
    (stop : ∀ c ∈ rest.head?, Statement.isNameChar c = false) :
    Statement.expandChars value ('$' :: name.toList ++ rest) =
      value name.toList ++ Statement.expandChars value rest := by
  obtain ⟨c, more, text⟩ := exists_cons_of_ne_empty nonempty
  have first : Statement.isNameChar c := h c (text ▸ List.mem_cons_self)
  have dollar : c ≠ '$' := ne_of_holds first (by decide)
  have brace : c ≠ '{' := ne_of_holds first (by decide)
  have take := takeWhile_run h stop
  have drop := dropWhile_run h stop
  rw [text] at take drop ⊢
  rw [List.cons_append, List.cons_append, Statement.expandChars, ← List.cons_append, take, drop]
  · simpa using dollar
  · simpa using brace

theorem expandChars_braced {value : List Char → List Char} {name : String} {rest : List Char}
    (h : '}' ∉ name.toList) :
    Statement.expandChars value (('$' :: '{' :: name.toList ++ ['}']) ++ rest) =
      value name.toList ++ Statement.expandChars value rest := by
  have inside : ∀ c ∈ name.toList, (c != '}') = true := by
    intro c hc
    rw [bne_iff_ne]
    rintro rfl
    exact h hc
  rw [List.append_assoc, List.cons_append, List.cons_append, List.singleton_append,
    Statement.expandChars, takeWhile_run_cons rest inside (by decide),
    dropWhile_run_cons rest inside (by decide), List.drop_succ_cons, List.drop_zero]

/-- Expanding a command fills in the value of each reference; no value is expanded again. -/
theorem expandChars_chars (value : List Char → List Char) {parts : List Part}
    (h : WellFormed parts) :
    Statement.expandChars value (chars parts) = parts.flatMap (Part.fill value) := by
  induction parts with
  | nil => exact Statement.expandChars_nil value
  | cons part rest ih =>
    rw [chars_cons, List.flatMap_cons]
    cases part with
    | text text => rw [Part.chars, expandChars_doubleDollars, ih h, Part.fill]
    | bare name =>
      obtain ⟨⟨nonempty, name⟩, stop, h⟩ := h
      rw [Part.chars, expandChars_bare nonempty name stop, ih h, Part.fill]
    | braced name =>
      obtain ⟨⟨-, name⟩, h⟩ := h
      rw [Part.chars, expandChars_braced name, ih h, Part.fill]

/-- What a reference stands for: the inputs, the outputs, or the first value that is bound. -/
def referenced (s : Statement) (name : String) : String :=
  if name = "in" then " ".intercalate (s.inputs.map Path.text)
  else if name = "out" then " ".intercalate (s.outputs.map Path.text)
  else ((s.bindings.find? fun binding => binding.1 == name).map Prod.snd).getD ""

/-- The text that a statement puts for a part. -/
def Part.expansion (s : Statement) : Part → String
  | text value => value
  | bare name => referenced s name
  | braced name => referenced s name

theorem lookup_eq_find? (bindings : List (String × String)) (name : String) :
    bindings.lookup name = (bindings.find? fun binding => binding.1 == name).map Prod.snd := by
  induction bindings with
  | nil => rfl
  | cons binding rest ih =>
    rw [List.lookup, List.find?, BEq.comm]
    cases binding.1 == name with
    | true => rfl
    | false => exact ih

theorem value_eq_referenced (s : Statement) {name : String} (nonempty : name ≠ "") :
    s.value name = referenced s name := by
  rw [Statement.value, if_neg nonempty, Statement.binding?, lookup_eq_find?]
  rfl

theorem fill_value_eq_expansion (s : Statement) {parts : List Part} (h : WellFormed parts) :
    ∀ part ∈ parts,
      part.fill (fun name => (s.value (.ofList name)).toList) = (part.expansion s).toList := by
  have named {name : String} (nonempty : name ≠ "") :
      (s.value (.ofList name.toList)).toList = (referenced s name).toList := by
    rw [String.ofList_toList, value_eq_referenced s nonempty]
  induction parts with
  | nil => exact fun part hpart => absurd hpart List.not_mem_nil
  | cons part rest ih =>
    cases part with
    | text text => exact List.forall_mem_cons.2 ⟨rfl, ih h⟩
    | bare name => exact List.forall_mem_cons.2 ⟨named h.1.1, ih h.2.2⟩
    | braced name => exact List.forall_mem_cons.2 ⟨named h.1.1, ih h.2⟩

/-- A command that is written from parts expands to what they stand for, one after the other; what
is filled in stays as it is. -/
theorem expand_of_written (s : Statement) {command : String} {parts : List Part}
    (written : command.toList = chars parts) (h : WellFormed parts) :
    s.expand command = .join (parts.map (Part.expansion s)) := by
  refine String.toList_inj.1 ?_
  rw [Statement.expand, String.toList_ofList, written, expandChars_chars _ h, String.toList_join,
    List.flatMap_map]
  exact List.flatMap_congr (fill_value_eq_expansion s h)

/-- A statement that binds values with references in them, and a name twice. -/
def referringStatement : Statement :=
  { kind := .compile, rule := "cc"
    outputs := [⟨"$in.o"⟩], inputs := [⟨"a.c"⟩, ⟨"b$$.c"⟩]
    bindings := [("flags", "-I$out $flags $$"), ("x y$\x7b", "$"), ("flags", "-O2"), ("in", "-")] }

/-- Dollars, references and texts next to each other. -/
def adjacentParts : List Part :=
  [.text "cc$", .bare "flags", .text "$flags", .braced "in", .text "x", .bare "in",
    .braced "x y$\x7b", .text "$", .bare "none", .text " ", .bare "out"]

theorem expand_adjacentParts :
    referringStatement.expand "cc$$$flags$$flags$\x7bin\x7dx$in$\x7bx y$\x7b\x7d$$$none $out" =
      "cc$-I$out $flags $$$flagsa.c b$$.cxa.c b$$.c$$ $in.o" := by
  have written : "cc$$$flags$$flags$\x7bin\x7dx$in$\x7bx y$\x7b\x7d$$$none $out".toList =
      chars adjacentParts := by decide +kernel
  rw [expand_of_written referringStatement written (by decide +kernel)]
  decide

/-! ## Reading -/

/-- How a part is read. -/
def Part.symbols : Part → List Ninja.Symbol
  | text value => value.toList.map fun c => if c = '$' then .quoted '$' else .plain c
  | bare name => [.reference name.toList]
  | braced name => [.reference name.toList]

/-- The executor reads the part on one line. -/
def Part.Readable : Part → Prop
  | text value => ∀ c ∈ value.toList, c ≠ '\n' ∧ c ≠ '\r'
  | bare _ => True
  | braced name => ∀ c ∈ name.toList, Ninja.isKeyChar c

theorem symbols_doubleDollars {cs : List Char} (h : ∀ c ∈ cs, c ≠ '\n' ∧ c ≠ '\r')
    (rest : List Char) :
    Ninja.symbols (doubleDollars cs ++ rest) =
      (Ninja.symbols rest).map
        (cs.map (fun c => if c = '$' then .quoted '$' else .plain c) ++ ·) := by
  induction cs with
  | nil => simp [doubleDollars]
  | cons c cs ih =>
    have ih := ih fun d hd => h d (List.mem_cons_of_mem _ hd)
    rw [doubleDollars] at ih
    rw [doubleDollars, List.flatMap_cons, List.append_assoc, List.map_cons]
    split
    · next dollar =>
      rw [List.cons_append, List.singleton_append, Ninja.symbols_escaped (.inl rfl), ih,
        Option.map_map]
      rfl
    · next other =>
      rw [List.singleton_append, Ninja.symbols_cons other (h c List.mem_cons_self).2, ih,
        Option.map_map]
      rfl

theorem symbols_bare {name : String} {rest : List Char} (nonempty : name ≠ "")
    (h : ∀ c ∈ name.toList, Statement.isNameChar c)
    (stop : ∀ c ∈ rest.head?, Statement.isNameChar c = false) :
    Ninja.symbols ('$' :: name.toList ++ rest) =
      (Ninja.symbols rest).map (.reference name.toList :: ·) := by
  obtain ⟨c, more, text⟩ := exists_cons_of_ne_empty nonempty
  have first : Statement.isNameChar c := h c (text ▸ List.mem_cons_self)
  have take := takeWhile_run h stop
  have drop := dropWhile_run h stop
  rw [text] at take drop ⊢
  rw [List.cons_append, List.cons_append, Ninja.symbols, ← List.cons_append, take, drop,
    if_neg (List.cons_ne_nil _ _)]
  all_goals
    intro tail same
    have mark := (List.cons.inj same).1
    exact absurd mark (ne_of_holds first (by decide))

theorem symbols_braced {name : String} {rest : List Char} (nonempty : name ≠ "")
    (h : ∀ c ∈ name.toList, Ninja.isKeyChar c) :
    Ninja.symbols (('$' :: '{' :: name.toList ++ ['}']) ++ rest) =
      (Ninja.symbols rest).map (.reference name.toList :: ·) := by
  have named : name.toList ≠ [] := fun empty => nonempty (String.toList_eq_nil_iff.1 empty)
  rw [List.append_assoc, List.cons_append, List.cons_append, List.singleton_append,
    Ninja.symbols, takeWhile_run_cons rest h (by decide), dropWhile_run_cons rest h (by decide),
    if_neg (by simp [named]), List.drop_succ_cons, List.drop_zero]

/-- The executor reads the parts that a command is written from. -/
theorem symbols_chars {parts : List Part} (h : WellFormed parts)
    (readable : ∀ part ∈ parts, part.Readable) :
    Ninja.symbols (chars parts) = some (parts.flatMap Part.symbols) := by
  induction parts with
  | nil => simp [chars, Ninja.symbols]
  | cons part rest ih =>
    have first := readable part List.mem_cons_self
    have ih := fun h => ih h fun part hpart => readable part (List.mem_cons_of_mem _ hpart)
    rw [chars_cons, List.flatMap_cons]
    cases part with
    | text text => rw [Part.chars, symbols_doubleDollars first, ih h, Part.symbols, Option.map_some]
    | bare name =>
      obtain ⟨⟨nonempty, name⟩, stop, h⟩ := h
      rw [Part.chars, symbols_bare nonempty name stop, ih h, Part.symbols, Option.map_some]
      rfl
    | braced name =>
      obtain ⟨⟨nonempty, -⟩, h⟩ := h
      rw [Part.chars, symbols_braced nonempty first, ih h, Part.symbols, Option.map_some]
      rfl

theorem inside_of_isNameChar {cs : List Char} (h : ∀ c ∈ cs, Statement.isNameChar c) :
    Ninja.Inside cs :=
  Ninja.inside_of_forall fun c hc =>
    ⟨ne_of_holds (h c hc) (by decide), ne_of_holds (h c hc) (by decide)⟩

theorem inside_doubleDollars {cs : List Char} (h : ∀ c ∈ cs, c ≠ '\n' ∧ c ≠ '\r') :
    Ninja.Inside (doubleDollars cs) := by
  refine Ninja.inside_flatMap cs fun c hc => ?_
  split
  · exact Ninja.inside_escaped '$' Ninja.inside_nil
  · next other => exact Ninja.inside_cons (h c hc).1 other Ninja.inside_nil

/-- A command stays on its line. -/
theorem inside_chars {parts : List Part} (h : WellFormed parts)
    (readable : ∀ part ∈ parts, part.Readable) : Ninja.Inside (chars parts) := by
  induction parts with
  | nil => exact Ninja.inside_nil
  | cons part rest ih =>
    have first := readable part List.mem_cons_self
    have ih := fun h => ih h fun part hpart => readable part (List.mem_cons_of_mem _ hpart)
    rw [chars_cons]
    cases part with
    | text text => exact (inside_doubleDollars first).append (ih h)
    | bare name =>
      obtain ⟨⟨nonempty, name⟩, -, h⟩ := h
      obtain ⟨c, more, text⟩ := exists_cons_of_ne_empty nonempty
      rw [text] at name
      have inside := inside_of_isNameChar fun d hd => name d (List.mem_cons_of_mem _ hd)
      rw [Part.chars, text]
      exact (Ninja.inside_escaped c inside).append (ih h)
    | braced name =>
      have brace : Ninja.Inside ['}'] :=
        Ninja.inside_cons (by decide) (by decide) Ninja.inside_nil
      exact (Ninja.inside_escaped '{' ((Ninja.inside_of_isKeyChar first).append brace)).append
        (ih h.2)

/-! ## Evaluation -/

/-- The variables that a part refers to. -/
def Part.references : Part → List String
  | text _ => []
  | bare name => [name]
  | braced name => [name]

theorem evaluate_text (scope : List Char → Option (List Char)) (cs : List Char)
    (rest : List Ninja.Symbol) :
    Ninja.evaluate scope
        (cs.map (fun c => if c = '$' then .quoted '$' else .plain c) ++ rest) =
      (Ninja.evaluate scope rest).map (cs ++ ·) := by
  induction cs with
  | nil => simp
  | cons c cs ih =>
    rw [List.map_cons, List.cons_append]
    split
    · next dollar =>
      rw [Ninja.evaluate, ih, Option.map_map, dollar]
      rfl
    · rw [Ninja.evaluate, ih, Option.map_map]
      rfl

theorem evaluate_reference {scope : List Char → Option (List Char)} {name value : List Char}
    (h : scope name = some value) (rest : List Ninja.Symbol) :
    Ninja.evaluate scope (.reference name :: rest) =
      (Ninja.evaluate scope rest).map (value ++ ·) := by
  rw [Ninja.evaluate, h]
  cases Ninja.evaluate scope rest <;> rfl

/-- The executor fills in the values of the variables that it knows. -/
theorem evaluate_symbols {scope : List Char → Option (List Char)}
    (value : List Char → List Char) {parts : List Part}
    (h : ∀ part ∈ parts, ∀ name ∈ part.references, scope name.toList = some (value name.toList)) :
    Ninja.evaluate scope (parts.flatMap Part.symbols) = some (parts.flatMap (Part.fill value)) := by
  induction parts with
  | nil => rfl
  | cons part rest ih =>
    have first := h part List.mem_cons_self
    have ih := ih fun part hpart => h part (List.mem_cons_of_mem _ hpart)
    rw [List.flatMap_cons, List.flatMap_cons]
    cases part with
    | text text => rw [Part.symbols, evaluate_text, ih, Option.map_some, Part.fill]
    | bare name =>
      rw [Part.symbols, List.singleton_append,
        evaluate_reference (first name (List.mem_singleton_self name)), ih, Option.map_some,
        Part.fill]
    | braced name =>
      rw [Part.symbols, List.singleton_append,
        evaluate_reference (first name (List.mem_singleton_self name)), ih, Option.map_some,
        Part.fill]

/-! ## Programs with words -/

/-- A text on one line, or a reference that ends where the next word starts. -/
def Part.IsWord : Part → Prop
  | text value => ∀ c ∈ value.toList, c ≠ '\n' ∧ c ≠ '\r'
  | bare name => name ≠ "" ∧ ∀ c ∈ name.toList, Statement.isNameChar c
  | braced _ => False

instance : DecidablePred Part.IsWord
  | .text value => List.decidableBAll _ value.toList
  | .bare name => @instDecidableAnd _ _ _ (List.decidableBAll _ name.toList)
  | .braced _ => instDecidableFalse

/-- Words with a space before each. -/
def spaced (words : List Part) : List Part := words.flatMap fun word => [.text " ", word]

theorem spaced_cons (word : Part) (words : List Part) :
    spaced (word :: words) = .text " " :: word :: spaced words :=
  rfl

theorem head?_chars_spaced (words : List Part) :
    ∀ c ∈ (chars (spaced words)).head?, Statement.isNameChar c = false := by
  cases words with
  | nil => exact fun c hc => absurd hc (by simp [chars, spaced])
  | cons word words =>
    rw [spaced_cons, chars_cons]
    intro c hc
    cases hc
    decide

theorem wellFormed_spaced {words : List Part} (h : ∀ word ∈ words, word.IsWord) :
    WellFormed (spaced words) := by
  induction words with
  | nil => trivial
  | cons word words ih =>
    have first := h word List.mem_cons_self
    have ih := ih fun word hword => h word (List.mem_cons_of_mem _ hword)
    rw [spaced_cons, WellFormed]
    cases word with
    | text value => exact ih
    | bare name => exact ⟨first, head?_chars_spaced words, ih⟩
    | braced name => exact first.elim

theorem Part.IsWord.readable {word : Part} (h : word.IsWord) : word.Readable := by
  cases word with
  | text value => exact h
  | bare name => trivial
  | braced name => exact h.elim

theorem Part.IsWord.wellFormed {word : Part} (h : word.IsWord) : WellFormed [word] := by
  cases word with
  | text value => trivial
  | bare name =>
    refine ⟨h, fun c hc => ?_, trivial⟩
    cases hc
  | braced name => exact h.elim

/-- A reference alone stands for the value of the variable. -/
theorem expand_reference (s : Statement) (name : String) (h : (Part.bare name).IsWord) :
    s.expand ("$" ++ name) = s.value name := by
  have whole : ("$" ++ name).toList = chars [.bare name] := by
    simp [chars, Part.chars]
  rw [Statement.expand, whole, expandChars_chars _ h.wellFormed, List.flatMap_singleton, Part.fill,
    String.ofList_toList, String.ofList_toList]

theorem readable_spaced {words : List Part} (h : ∀ word ∈ words, word.IsWord) :
    ∀ part ∈ spaced words, part.Readable := by
  intro part hpart
  obtain ⟨word, hword, hpart⟩ := List.mem_flatMap.1 hpart
  obtain rfl | hpart := List.mem_cons.1 hpart
  · exact (by decide : Part.IsWord (.text " ")).readable
  · rw [List.mem_singleton.1 hpart]
    exact (h word hword).readable

theorem references_spaced {words : List Part} {part : Part} {name : String}
    (hpart : part ∈ spaced words) (h : name ∈ part.references) :
    ∃ word ∈ words, name ∈ word.references := by
  obtain ⟨word, hword, hpart⟩ := List.mem_flatMap.1 hpart
  obtain rfl | hpart := List.mem_cons.1 hpart
  · cases h
  · exact ⟨word, hword, List.mem_singleton.1 hpart ▸ h⟩

theorem doubleDollars_eq_self {cs : List Char} (h : '$' ∉ cs) : doubleDollars cs = cs := by
  induction cs with
  | nil => rfl
  | cons c cs ih =>
    rw [List.mem_cons, not_or] at h
    have ih := ih h.2
    rw [doubleDollars] at ih
    rw [doubleDollars, List.flatMap_cons, if_neg (Ne.symm h.1), ih]
    rfl

/-- The command that runs a program with words after it. -/
def command (program : String) (words : List Part) : String :=
  program ++ .ofList (chars (spaced words))

/-- The parts of the command that runs a program with words after it. -/
def commandParts (program : String) (words : List Part) : List Part :=
  .text program :: spaced words

theorem toList_command {program : String} (h : '$' ∉ program.toList) (words : List Part) :
    (command program words).toList = chars (commandParts program words) := by
  rw [command, String.toList_append, String.toList_ofList, commandParts, chars_cons, Part.chars,
    doubleDollars_eq_self h]

theorem wellFormed_commandParts (program : String) {words : List Part}
    (h : ∀ word ∈ words, word.IsWord) : WellFormed (commandParts program words) :=
  wellFormed_spaced h

theorem readable_commandParts {program : String} {words : List Part}
    (line : ∀ c ∈ program.toList, c ≠ '\n' ∧ c ≠ '\r') (h : ∀ word ∈ words, word.IsWord) :
    ∀ part ∈ commandParts program words, part.Readable := by
  intro part hpart
  obtain rfl | hpart := List.mem_cons.1 hpart
  · exact line
  · exact readable_spaced h part hpart

end BuildPlanner.Template
