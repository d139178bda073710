import BuildPlanner.Ninja.Syntax
import BuildPlanner.Proofs.Basic
import BuildPlanner.Proofs.Ninja.Reader

/-!
# Escaped paths and values

The reader undoes the two ways of escaping.

* A line is kept together (`Scan.through`): an escaped path or value holds no newline by itself and
  leaves no dollar that escapes the newline after it (`Inside`).
* `symbols_escapePathChars` and `readPaths_pathSymbols`: a list of paths is read back, with its
  spaces and colons.
* `readValue_escapeValueChars`: a value is read back, on one line.
-/

namespace BuildPlanner.Ninja

/-! ## Lines -/

/-- What has been read of a line after more text; nothing, if the text ends the line. -/
def Scan.through : Scan → List Char → Option Scan
  | state, [] => some state
  | state, c :: rest =>
    if c = '\n' ∧ state ≠ .escaped then none else Scan.through (state.after c) rest

theorem Scan.through_append (state : Scan) (a b : List Char) :
    state.through (a ++ b) = (state.through a).bind (·.through b) := by
  induction a generalizing state with
  | nil => rfl
  | cons c a ih =>
    rw [List.cons_append, Scan.through, Scan.through]
    split
    · rfl
    · exact ih _

theorem linesFrom_append {state after : Scan} {line : List Char} (rest : List Char)
    (h : state.through line = some after) (closed : after ≠ .escaped) :
    linesFrom state (line ++ '\n' :: rest) = line :: linesFrom .start rest := by
  induction line generalizing state with
  | nil =>
    cases h
    rw [List.nil_append, linesFrom, if_pos ⟨rfl, closed⟩]
  | cons c line ih =>
    rw [Scan.through] at h
    split at h
    · cases h
    · next inside => rw [List.cons_append, linesFrom, if_neg inside, ih h, List.modifyHead_cons]

theorem linesFrom_ne_nil (state : Scan) (text : List Char) : linesFrom state text ≠ [] := by
  induction text generalizing state with
  | nil => exact List.cons_ne_nil _ _
  | cons c rest ih =>
    rw [linesFrom]
    split
    · exact List.cons_ne_nil _ _
    · exact fun h => ih _ (List.modifyHead_eq_nil_iff.1 h)

/-- The text is no line end and leaves nothing escaped, wherever it stands in a line. -/
def Inside (text : List Char) : Prop := Scan.text.through text = some .text

theorem Inside.append {a b : List Char} (ha : Inside a) (hb : Inside b) : Inside (a ++ b) := by
  rw [Inside, Scan.through_append, ha]
  exact hb

theorem inside_nil : Inside [] := rfl

theorem inside_cons {c : Char} {rest : List Char} (newline : c ≠ '\n') (dollar : c ≠ '$')
    (h : Inside rest) : Inside (c :: rest) := by
  have after : Scan.after .text c = .text := by
    unfold Scan.after
    split <;> simp_all
  rw [Inside, Scan.through, if_neg (fun h => newline h.1), after]
  exact h

theorem inside_escaped (c : Char) {rest : List Char} (h : Inside rest) :
    Inside ('$' :: c :: rest) := by
  rw [Inside, Scan.through, if_neg (by decide), Scan.through, if_neg (fun h => h.2 rfl)]
  have after : (Scan.after .text '$').after c = .text := by
    unfold Scan.after
    split <;> simp_all
  rw [after]
  exact h

theorem inside_of_forall {text : List Char} (h : ∀ c ∈ text, c ≠ '\n' ∧ c ≠ '$') : Inside text := by
  induction text with
  | nil => exact inside_nil
  | cons c rest ih =>
    obtain ⟨newline, dollar⟩ := h c List.mem_cons_self
    exact inside_cons newline dollar (ih fun d hd => h d (List.mem_cons_of_mem _ hd))

theorem inside_flatMap {α : Type} {f : α → List Char} (xs : List α) (h : ∀ x ∈ xs, Inside (f x)) :
    Inside (xs.flatMap f) := by
  induction xs with
  | nil => exact inside_nil
  | cons x xs ih =>
    rw [List.flatMap_cons]
    exact (h x List.mem_cons_self).append (ih fun y hy => h y (List.mem_cons_of_mem _ hy))

theorem inside_escapePathChars (cs : List Char) : Inside (escapePathChars cs) := by
  refine inside_flatMap cs fun c _ => ?_
  split
  · exact inside_escaped c inside_nil
  · next other =>
    rw [not_or, not_or, not_or] at other
    exact inside_cons other.2.2.2 other.1 inside_nil

theorem inside_escapeValueChars (cs : List Char) : Inside (escapeValueChars cs) := by
  refine inside_flatMap cs fun c _ => ?_
  split
  · exact inside_escaped '$' inside_nil
  · next dollar =>
    split
    · exact inside_cons (by decide) (by decide) inside_nil
    · next newline => exact inside_cons newline dollar inside_nil

/-! ## Symbols -/

theorem symbols_cons {c : Char} (dollar : c ≠ '$') (carriage : c ≠ '\r') (rest : List Char) :
    symbols (c :: rest) = (symbols rest).map (.plain c :: ·) := by
  rw [symbols]
  all_goals simp_all

theorem symbols_escaped {c : Char} (h : c = '$' ∨ c = ' ' ∨ c = ':') (rest : List Char) :
    symbols ('$' :: c :: rest) = (symbols rest).map (.quoted c :: ·) := by
  obtain rfl | rfl | rfl := h
  · rw [symbols]
  · rw [symbols]
  · rw [symbols]

/-- How a character of a path is read back. -/
def pathSymbol (c : Char) : Symbol :=
  if c = '$' ∨ c = ' ' ∨ c = ':' then .quoted c else .plain c

/-- How a character of a value is read back. -/
def valueSymbol (c : Char) : Symbol :=
  if c = '$' then .quoted '$' else if c = '\n' then .plain ' ' else .plain c

/-- An escaped newline is left out: it continues the line, and the path would lose it. -/
theorem symbols_escapePathChars {cs : List Char} (h : ∀ c ∈ cs, c ≠ '\n' ∧ c ≠ '\r')
    (rest : List Char) :
    symbols (escapePathChars cs ++ rest) = (symbols rest).map (cs.map pathSymbol ++ ·) := by
  induction cs with
  | nil => simp [escapePathChars]
  | cons c cs ih =>
    obtain ⟨newline, carriage⟩ := h c List.mem_cons_self
    have ih := ih fun d hd => h d (List.mem_cons_of_mem _ hd)
    rw [escapePathChars] at ih
    rw [escapePathChars, List.flatMap_cons, List.append_assoc]
    by_cases special : c = '$' ∨ c = ' ' ∨ c = ':'
    · have quoted : c = '$' ∨ c = ' ' ∨ c = ':' ∨ c = '\n' := by
        obtain h | h | h := special <;> simp [h]
      rw [if_pos quoted, List.cons_append, List.singleton_append, symbols_escaped special, ih,
        Option.map_map, List.map_cons, pathSymbol, if_pos special]
      rfl
    · have other : ¬ (c = '$' ∨ c = ' ' ∨ c = ':' ∨ c = '\n') := by simp_all
      rw [if_neg other, List.singleton_append,
        symbols_cons (fun h => special (.inl h)) carriage, ih, Option.map_map, List.map_cons,
        pathSymbol, if_neg special]
      rfl

theorem symbols_escapeValueChars {cs : List Char} (h : '\r' ∉ cs) :
    symbols (escapeValueChars cs) = some (cs.map valueSymbol) := by
  induction cs with
  | nil => simp [escapeValueChars, symbols]
  | cons c cs ih =>
    rw [List.mem_cons, not_or] at h
    obtain ⟨carriage, h⟩ := h
    have ih := ih h
    rw [escapeValueChars] at ih
    rw [escapeValueChars, List.flatMap_cons, List.map_cons, valueSymbol]
    split
    · rw [List.cons_append, List.singleton_append, symbols_escaped (.inl rfl), ih]
      rfl
    · next dollar =>
      split
      · rw [List.singleton_append, symbols_cons (by decide) (by decide), ih]
        rfl
      · rw [List.singleton_append, symbols_cons dollar (Ne.symm carriage), ih]
        rfl

/-! ## Names -/

/-- A name of a rule or a variable. -/
def IsKey (key : String) : Prop := key ≠ "" ∧ ∀ c ∈ key.toList, isKeyChar c

instance (key : String) : Decidable (IsKey key) :=
  decidable_of_iff (key ≠ "" ∧ key.toList.all isKeyChar) (by rw [List.all_eq_true, IsKey])

theorem IsKey.exists_cons {key : String} (h : IsKey key) :
    ∃ c rest, key.toList = c :: rest ∧ isKeyChar c := by
  obtain ⟨c, rest, text⟩ := exists_cons_of_ne_empty h.1
  exact ⟨c, rest, text, h.2 c (text ▸ List.mem_cons_self)⟩

theorem IsKey.toList_ne_nil {key : String} (h : IsKey key) : key.toList ≠ [] :=
  fun empty => h.1 (String.toList_eq_nil_iff.1 empty)

/-- No space stands before a name. -/
theorem IsKey.dropWhile_space {key : String} (h : IsKey key) (rest : List Char) :
    (key.toList ++ rest).dropWhile (· = ' ') = key.toList ++ rest := by
  obtain ⟨c, more, text, hc⟩ := h.exists_cons
  have space : c ≠ ' ' := ne_of_holds hc (by decide)
  rw [text, List.cons_append, List.dropWhile_cons_of_neg (by simpa using space)]

theorem inside_of_isKeyChar {key : List Char} (h : ∀ c ∈ key, isKeyChar c) : Inside key :=
  inside_of_forall fun c hc =>
    ⟨ne_of_holds (h c hc) (by decide), ne_of_holds (h c hc) (by decide)⟩

/-- A line that starts with a name is no comment. -/
theorem through_start_of_key {key : String} {rest : List Char} (h : IsKey key)
    (inside : Inside rest) : Scan.start.through (key.toList ++ rest) = some .text := by
  obtain ⟨c, more, text, hc⟩ := h.exists_cons
  have tail : Inside (more ++ rest) := by
    have all := h.2
    rw [text] at all
    exact (inside_of_isKeyChar fun d hd => all d (List.mem_cons_of_mem _ hd)).append inside
  have after : Scan.after .start c = .text := by
    have space : c ≠ ' ' := ne_of_holds hc (by decide)
    have mark : c ≠ '#' := ne_of_holds hc (by decide)
    have dollar : c ≠ '$' := ne_of_holds hc (by decide)
    unfold Scan.after
    split <;> simp_all
  have newline : c ≠ '\n' := ne_of_holds hc (by decide)
  rw [text, List.cons_append, Scan.through, if_neg (fun h => newline h.1), after]
  exact tail

/-! ## Values -/

/-- A newline becomes a space. -/
def blankNewline (c : Char) : Char := if c = '\n' then ' ' else c

/-- Whether a character is a space on one line. -/
def isGap (c : Char) : Bool := c == ' ' || c == '\n'

/-- A value on one line. -/
def onOneLine (value : String) : String := .ofList (value.toList.map blankNewline)

/-- A value from its first character that is no space on one line. -/
def flush (value : String) : String := .ofList (value.toList.dropWhile isGap)

theorem flush_eq_self {value : String} (h : ∀ c ∈ value.toList.head?, isGap c = false) :
    flush value = value := by
  rw [flush, ← String.toList_inj, String.toList_ofList]
  cases text : value.toList with
  | nil => rfl
  | cons c rest =>
    rw [List.dropWhile_cons_of_neg]
    simpa using h c (by simp [text])

theorem evaluate_map_valueSymbol (scope : List Char → Option (List Char)) (cs : List Char) :
    evaluate scope (cs.map valueSymbol) = some (cs.map blankNewline) := by
  induction cs with
  | nil => rfl
  | cons c cs ih =>
    rw [List.map_cons, List.map_cons, valueSymbol, blankNewline]
    split
    · next dollar => rw [evaluate, ih, dollar, if_neg (by decide), Option.map_some]
    · split <;> rw [evaluate, ih, Option.map_some]

theorem readValue_escapeValueChars {cs : List Char} (h : '\r' ∉ cs) :
    readValue (escapeValueChars cs) = some (.ofList (cs.map blankNewline)) := by
  rw [readValue, symbols_escapeValueChars h, Option.bind_some, evaluate_map_valueSymbol]
  rfl

/-- A newline at the start of a value is written as a space, so it is dropped with the spaces. -/
theorem dropWhile_escapeValueChars (cs : List Char) :
    (escapeValueChars cs).dropWhile (· = ' ') = escapeValueChars (cs.dropWhile isGap) := by
  induction cs with
  | nil => rfl
  | cons c cs ih =>
    rw [escapeValueChars] at ih
    rw [escapeValueChars, List.flatMap_cons, List.dropWhile_cons (p := isGap)]
    by_cases space : c = ' '
    · subst space
      simpa [isGap, escapeValueChars] using ih
    · by_cases newline : c = '\n'
      · subst newline
        simpa [isGap, escapeValueChars] using ih
      · by_cases dollar : c = '$'
        · subst dollar
          simp [isGap, escapeValueChars]
        · simp [isGap, escapeValueChars, space, newline, dollar]

/-! ## Path lists -/

/-- How a path list is read. -/
def pathSymbols (paths : List Path) : List Symbol :=
  [Symbol.plain ' '].intercalate (paths.map fun p => p.text.toList.map pathSymbol)

/-- A path that stays on one line of a description. -/
def OneLine (p : Path) : Prop := ∀ c ∈ p.text.toList, c ≠ '\n' ∧ c ≠ '\r'

theorem toList_pathList (paths : List Path) :
    (pathList paths).toList =
      [' '].intercalate (paths.map fun p => escapePathChars p.text.toList) := by
  rw [pathList, String.toList_intercalate, List.map_map]
  simp [Function.comp_def, escapePath]

theorem symbols_pathList {paths : List Path} (h : ∀ p ∈ paths, OneLine p) (rest : List Char) :
    symbols ((pathList paths).toList ++ rest) = (symbols rest).map (pathSymbols paths ++ ·) := by
  rw [toList_pathList, pathSymbols]
  induction paths with
  | nil => simp
  | cons p paths ih =>
    have first := symbols_escapePathChars (h p List.mem_cons_self)
    have ih := ih fun q hq => h q (List.mem_cons_of_mem _ hq)
    cases paths with
    | nil => simpa using first rest
    | cons q paths =>
      simp only [List.map_cons] at ih ⊢
      rw [List.intercalate_cons_cons, List.intercalate_cons_cons, List.append_assoc,
        List.append_assoc, first, List.singleton_append, symbols_cons (by decide) (by decide), ih,
        Option.map_map, Option.map_map]
      simp [Function.comp_def]

theorem evaluate_map_pathSymbol (scope : List Char → Option (List Char)) (cs : List Char) :
    evaluate scope (cs.map pathSymbol) = some cs := by
  induction cs with
  | nil => rfl
  | cons c cs ih =>
    rw [List.map_cons, pathSymbol]
    split
    · rw [evaluate, ih, Option.map_some]
    · rw [evaluate, ih, Option.map_some]

theorem plain_notMem_map_pathSymbol {d : Char} {cs : List Char}
    (h : d = ' ' ∨ d = ':' ∨ d ∉ cs) : Symbol.plain d ∉ cs.map pathSymbol := by
  intro hd
  obtain ⟨c, hc, same⟩ := List.mem_map.1 hd
  rw [pathSymbol] at same
  split at same
  · cases same
  · next other =>
    cases same
    obtain rfl | rfl | h := h
    · exact other (.inr (.inl rfl))
    · exact other (.inr (.inr rfl))
    · exact h hc

theorem plain_notMem_pathSymbols {d : Char} (space : d ≠ ' ') {paths : List Path}
    (h : d = ':' ∨ ∀ p ∈ paths, d ∉ p.text.toList) : Symbol.plain d ∉ pathSymbols paths := by
  refine intercalate_closed (P := (Symbol.plain d ∉ ·)) List.not_mem_nil (fun a b ha hb => ?_)
    (by simpa using space) fun list hlist => ?_
  · rw [List.mem_append, not_or]
    exact ⟨ha, hb⟩
  · obtain ⟨p, hp, rfl⟩ := List.mem_map.1 hlist
    exact plain_notMem_map_pathSymbol (.inr (h.imp_right fun h => h p hp))

/-- The paths of a list are read back; a bar would make the paths after it implicit. -/
theorem readPaths_pathSymbols {paths : List Path}
    (h : ∀ p ∈ paths, p.text ≠ "" ∧ '|' ∉ p.text.toList) :
    readPaths (.plain ' ' :: pathSymbols paths) = some (paths.map Path.text) := by
  have marks : ((Symbol.plain ' ' :: pathSymbols paths).contains (.plain ':') ||
      (Symbol.plain ' ' :: pathSymbols paths).contains (.plain '|')) = false := by
    have colon : Symbol.plain ':' ∉ pathSymbols paths :=
      plain_notMem_pathSymbols (by decide) (.inl rfl)
    have bar : Symbol.plain '|' ∉ pathSymbols paths :=
      plain_notMem_pathSymbols (by decide) (.inr fun p hp => (h p hp).2)
    simp [colon, bar]
  have pieces : ((Symbol.plain ' ' :: pathSymbols paths).splitOn (.plain ' ')).filter
      (!·.isEmpty) = paths.map fun p => p.text.toList.map pathSymbol := by
    cases paths with
    | nil => rfl
    | cons p paths =>
      -- The space before the first path leaves an empty piece in front.
      have written : Symbol.plain ' ' :: pathSymbols (p :: paths) =
          [Symbol.plain ' '].intercalate
            ([] :: (p :: paths).map fun p => p.text.toList.map pathSymbol) := by
        rw [List.map_cons, List.intercalate_cons_cons]
        rfl
      have apart : ∀ list ∈ [] :: (p :: paths).map fun p => p.text.toList.map pathSymbol,
          Symbol.plain ' ' ∉ list := by
        intro list hlist
        obtain rfl | hlist := List.mem_cons.1 hlist
        · exact List.not_mem_nil
        · obtain ⟨q, -, rfl⟩ := List.mem_map.1 hlist
          exact plain_notMem_map_pathSymbol (.inl rfl)
      rw [written, List.splitOn_intercalate _ apart (by simp), List.filter_cons_of_neg (by simp),
        List.filter_eq_self]
      intro list hlist
      obtain ⟨q, hq, rfl⟩ := List.mem_map.1 hlist
      simpa using (h q hq).1
  rw [readPaths, marks, if_neg (by decide), pieces, List.mapM_map]
  exact mapM_eq_some fun p _ => by simp [evaluate_map_pathSymbol]

end BuildPlanner.Ninja
