import BuildPlanner.Proofs.Ninja.Escaping

/-!
# Reading what is written

`Reads` says that a piece of a description is read as items, whatever stands after it; the pieces
are put together by `Reads.append` and `Reads.join`.

* `Reads.comment`: a comment stands for nothing, whatever its text is.
* `Reads.rule`: a rule is read back if its texts stay on their lines (`RuleFits`).
* `Reads.build`: a statement is read back as a block (`blockOf`) if its paths stay on one line
  (`StatementFits`).
-/

namespace BuildPlanner.Ninja

/-! ## Reading line by line -/

theorem readText_line {line : List Char} {after : Scan} (rest : List Char)
    (h : Scan.start.through line = some after) (closed : after ≠ .escaped) :
    readText (line ++ '\n' :: rest) = (readText rest).bind (readLine line) := by
  rw [readText, linesFrom_append rest h closed, readText]
  cases lines : linesFrom .start rest with
  | nil => exact absurd lines (linesFrom_ne_nil _ _)
  | cons next others => rw [readLines]; exact List.cons_ne_nil _ _

theorem readText_blank (rest : List Char) :
    readText ('\n' :: rest) = (readText rest).bind (readLine []) := by
  have through : Scan.start.through [] = some .start := rfl
  exact readText_line rest through (by decide)

theorem readLine_of_key {key : String} {line tail : List Char}
    {bindings : List (String × List Char)} {items : List Item} (h : IsKey key)
    (start : line.dropWhile (· = ' ') = key.toList ++ tail) :
    readLine line (bindings, items) =
      if line.head? = some ' ' then (readBinding line).map fun b => (b :: bindings, items)
      else (readItem line bindings).map fun item => ([], item :: items) := by
  obtain ⟨c, more, text, hc⟩ := h.exists_cons
  have mark : c ≠ '#' := ne_of_holds hc (by decide)
  rw [readLine, start, text, List.cons_append]
  split
  · next empty => cases empty
  · next comment =>
    cases comment
    exact absurd rfl mark
  · rfl

/-- A line that is not indented starts an item. -/
theorem readText_item {key : String} {tail rest : List Char}
    {bindings : List (String × List Char)} {items : List Item} {item : Item} (h : IsKey key)
    (inside : Inside tail) (after : readText rest = some (bindings, items))
    (reads : readItem (key.toList ++ tail) bindings = some item) :
    readText ((key.toList ++ tail) ++ '\n' :: rest) = some ([], item :: items) := by
  have indent : (key.toList ++ tail).head? ≠ some ' ' := by
    obtain ⟨c, more, text, hc⟩ := h.exists_cons
    have space : c ≠ ' ' := ne_of_holds hc (by decide)
    simpa [text] using space
  rw [readText_line rest (through_start_of_key h inside) (by decide), after, Option.bind_some,
    readLine_of_key h (h.dropWhile_space tail), if_neg indent, reads, Option.map_some]

/-! ## Bindings -/

/-- The characters of an assignment, without the newline. -/
def assignmentLine (key value : String) : List Char :=
  key.toList ++ ' ' :: '=' :: ' ' :: value.toList

theorem readBinding_assignmentLine {key value : String} (h : IsKey key) :
    readBinding (assignmentLine key value) =
      some (key, value.toList.dropWhile (· = ' ')) := by
  have before := takeWhile_run_cons ('=' :: ' ' :: value.toList) h.2 (c := ' ') (by decide)
  have after := dropWhile_run_cons ('=' :: ' ' :: value.toList) h.2 (c := ' ') (by decide)
  simp only [readBinding, assignmentLine, h.dropWhile_space, before, after]
  simp [h.toList_ne_nil]

theorem inside_assigned {value : String} (h : Inside value.toList) :
    Inside (' ' :: '=' :: ' ' :: value.toList) :=
  inside_cons (by decide) (by decide) (inside_cons (by decide) (by decide)
    (inside_cons (by decide) (by decide) h))

theorem toList_assignment (key value : String) :
    (assignment key value).toList = assignmentLine key value ++ ['\n'] := by
  simp [assignment, assignmentLine]

theorem toList_binding (key value : String) :
    (binding key value).toList = ' ' :: ' ' :: assignmentLine key value ++ ['\n'] := by
  rw [binding, String.toList_append, toList_assignment]
  simp

theorem readBinding_space (line : List Char) : readBinding (' ' :: line) = readBinding line := by
  simp only [readBinding, List.dropWhile_cons_of_pos, decide_true]

theorem through_start_space (line : List Char) :
    Scan.start.through (' ' :: line) = Scan.start.through line := by
  rw [Scan.through, if_neg (by decide)]
  rfl

/-- An indented line binds a variable of the line before it. -/
theorem readText_binding {key value : String} {rest : List Char}
    {bindings : List (String × List Char)} {items : List Item} (h : IsKey key)
    (inside : Inside value.toList) (after : readText rest = some (bindings, items)) :
    readText ((binding key value).toList ++ rest) =
      some ((key, value.toList.dropWhile (· = ' ')) :: bindings, items) := by
  have through : Scan.start.through (' ' :: ' ' :: assignmentLine key value) = some .text := by
    rw [through_start_space, through_start_space]
    exact through_start_of_key h (inside_assigned inside)
  have dropped : (' ' :: ' ' :: assignmentLine key value).dropWhile (· = ' ') =
      assignmentLine key value := by
    rw [List.dropWhile_cons_of_pos (by decide), List.dropWhile_cons_of_pos (by decide)]
    exact h.dropWhile_space _
  rw [toList_binding, List.append_assoc, List.singleton_append,
    readText_line rest through (by decide), after, Option.bind_some, readLine_of_key h dropped,
    List.head?_cons, if_pos rfl, readBinding_space, readBinding_space,
    readBinding_assignmentLine h, Option.map_some]

/-- The bindings of an item are read back, each value from its first character that is no space. -/
theorem readText_bindings {bindings : List (String × String)} {rest : List Char} {items : List Item}
    (h : ∀ b ∈ bindings, IsKey b.1 ∧ Inside b.2.toList)
    (after : readText rest = some ([], items)) :
    readText ((String.join (bindings.map fun b => binding b.1 b.2)).toList ++ '\n' :: rest) =
      some (bindings.map fun b => (b.1, b.2.toList.dropWhile (· = ' ')), items) := by
  induction bindings with
  | nil =>
    rw [List.map_nil, String.join_nil, String.toList_empty, List.nil_append, readText_blank, after]
    rfl
  | cons b bindings ih =>
    obtain ⟨key, inside⟩ := h b List.mem_cons_self
    rw [List.map_cons, String.join_cons, String.toList_append, List.append_assoc]
    exact readText_binding key inside (ih fun b hb => h b (List.mem_cons_of_mem _ hb))

/-! ## Pieces of a description -/

/-- The piece of a description is read as the items, whatever stands after it. -/
def Reads (piece : String) (items : List Item) : Prop :=
  ∀ rest more, readText rest = some ([], more) →
    readText (piece.toList ++ rest) = some ([], items ++ more)

theorem Reads.append {first second : String} {before after : List Item}
    (hfirst : Reads first before) (hsecond : Reads second after) :
    Reads (first ++ second) (before ++ after) := by
  intro rest more h
  rw [String.toList_append, List.append_assoc, List.append_assoc]
  exact hfirst _ _ (hsecond _ _ h)

theorem Reads.empty : Reads "" [] := fun _ _ h => h

theorem Reads.join {α : Type} {piece : α → String} {items : α → List Item} {xs : List α}
    (h : ∀ x ∈ xs, Reads (piece x) (items x)) :
    Reads (.join (xs.map piece)) (xs.flatMap items) := by
  induction xs with
  | nil => exact Reads.empty
  | cons x xs ih =>
    rw [List.map_cons, String.join_cons, List.flatMap_cons]
    exact (h x List.mem_cons_self).append (ih fun y hy => h y (List.mem_cons_of_mem _ hy))

theorem Reads.newline : Reads "\n" [] := by
  intro rest more h
  have text : "\n".toList = ['\n'] := rfl
  rw [text, List.singleton_append, readText_blank, h]
  rfl

/-- A whole description is read. -/
theorem Reads.read_eq {description : String} {items : List Item} (h : Reads description items) :
    read description = some items := by
  have text := h [] [] rfl
  rw [List.append_nil, List.append_nil] at text
  rw [read, text]

/-! ## Comments and assignments -/

theorem through_comment {line : List Char} (h : '\n' ∉ line) :
    Scan.comment.through line = some .comment := by
  induction line with
  | nil => rfl
  | cons c line ih =>
    rw [List.mem_cons, not_or] at h
    obtain ⟨newline, h⟩ := h
    rw [Scan.through, if_neg (fun both => newline both.1.symm)]
    exact ih h

theorem dropReturn_subset {c : Char} {line : List Char} (h : c ∈ Text.dropReturn line) :
    c ∈ line := by
  unfold Text.dropReturn at h
  split at h
  · next rest reversed =>
    rw [← List.mem_reverse, reversed]
    exact List.mem_cons_of_mem _ (List.mem_reverse.1 h)
  · exact h

theorem notMem_of_mem_linesOfPieces {pieces : List (List Char)}
    (h : ∀ piece ∈ pieces, '\n' ∉ piece) : ∀ line ∈ Text.linesOfPieces pieces, '\n' ∉ line := by
  fun_induction Text.linesOfPieces pieces with
  | case1 => exact fun line hline => absurd hline List.not_mem_nil
  | case2 => exact fun line hline => absurd hline List.not_mem_nil
  | case3 last => exact h
  | case4 piece pieces some ih =>
    intro line hline
    obtain rfl | hline := List.mem_cons.1 hline
    · exact fun newline => h piece List.mem_cons_self (dropReturn_subset newline)
    · exact ih (fun piece hpiece => h piece (List.mem_cons_of_mem _ hpiece)) line hline

/-- A comment stands for nothing, whatever its text is. -/
theorem Reads.comment (text : String) : Reads (comment text) [] := by
  have lines : ∀ line ∈ Text.lines text, Reads ("# " ++ line ++ "\n") [] := by
    intro line hline rest more h
    obtain ⟨chars, hchars, rfl⟩ := List.mem_map.1 hline
    have inside : '\n' ∉ chars :=
      notMem_of_mem_linesOfPieces (fun _ => notMem_of_mem_splitOn) chars hchars
    have written : ("# " ++ String.ofList chars ++ "\n").toList ++ rest =
        ('#' :: ' ' :: chars) ++ '\n' :: rest := by simp
    have through : Scan.start.through ('#' :: ' ' :: chars) = some .comment := by
      rw [Scan.through, if_neg (by decide)]
      exact through_comment (by simpa using inside)
    rw [written, readText_line rest through (by decide), h]
    rfl
  have joined := Reads.join lines
  rwa [List.flatMap_eq_nil_iff.2 fun _ _ => rfl] at joined

/-- A variable of the whole description is read back, unless its name is a keyword. -/
theorem Reads.assignment {key value : String} (h : IsKey key)
    (free : key ∉ "rule" :: "build" :: otherKeywords) (inside : Inside value.toList)
    (reads : readValue (value.toList.dropWhile (· = ' ')) = some value) :
    Reads (assignment key value) [.assignment key value] := by
  intro rest more after
  have word : String.ofList ((assignmentLine key value).takeWhile isKeyChar) = key := by
    rw [assignmentLine, takeWhile_run_cons _ h.2 (by decide), String.ofList_toList]
  have item : readItem (assignmentLine key value) [] = some (.assignment key value) := by
    simp only [List.mem_cons, not_or] at free
    obtain ⟨notRule, notBuild, other⟩ := free
    have other : otherKeywords.contains key = false := by simpa using other
    rw [readItem, word, if_neg notRule, if_neg notBuild, other, if_neg (by decide), readAssignment,
      readBinding_assignmentLine h]
    simp [reads]
  rw [toList_assignment, List.append_assoc, List.singleton_append]
  exact readText_item h (inside_assigned inside) after item

/-! ## Rules -/

/-- The bindings of a rule, in the order in which they are written. -/
def ruleBindings (r : Rule) : List (String × String) :=
  ("command", r.command) ::
    ((r.depfile.map ("depfile", ·)).toList ++ (r.deps.map ("deps", ·)).toList)

theorem rule_eq (r : Rule) :
    rule r = "rule " ++ r.name ++ "\n" ++
      .join ((ruleBindings r).map fun b => binding b.1 b.2) ++ "\n" := by
  rw [rule, ruleBindings]
  cases r.depfile <;> cases r.deps <;> simp [optionalBinding, String.append_assoc]

/-- A text of a rule that is read back as it is. -/
structure IsRuleText (text : String) : Prop where
  inside : Inside text.toList
  start : text.toList.head? ≠ some ' '
  sound : (symbols text.toList).isSome

/-- A rule that is read back as it is. -/
structure RuleFits (r : Rule) : Prop where
  name : IsKey r.name
  command : r.command ≠ ""
  texts : ∀ b ∈ ruleBindings r, IsRuleText b.2

theorem IsRuleText.dropWhile_eq {text : String} (h : IsRuleText text) :
    text.toList.dropWhile (· = ' ') = text.toList := by
  cases chars : text.toList with
  | nil => rfl
  | cons c rest =>
    have space : c ≠ ' ' := by simpa [chars] using h.start
    rw [List.dropWhile_cons_of_neg (by simpa using space)]

theorem isKey_of_mem_ruleBindings {r : Rule} {b : String × String} (h : b ∈ ruleBindings r) :
    ["command", "depfile", "deps"].contains b.1 ∧ IsKey b.1 := by
  have names : b.1 = "command" ∨ b.1 = "depfile" ∨ b.1 = "deps" := by
    obtain rfl | h := List.mem_cons.1 h
    · exact .inl rfl
    · obtain h | h := List.mem_append.1 h
      · obtain ⟨value, -, rfl⟩ := by simpa using h
        exact .inr (.inl rfl)
      · obtain ⟨value, -, rfl⟩ := by simpa using h
        exact .inr (.inr rfl)
  obtain h | h | h := names <;> rw [h] <;> decide

theorem readRule_ruleBindings {r : Rule} (h : RuleFits r) :
    readRule (' ' :: r.name.toList) ((ruleBindings r).map fun b => (b.1, b.2.toList)) = some r := by
  have name : r.name.toList.dropWhile (· = ' ') = r.name.toList := by
    simpa using h.name.dropWhile_space []
  have all : ((ruleBindings r).map fun b => (b.1, b.2.toList)).all isRuleBinding := by
    rw [List.all_map, List.all_eq_true]
    intro b hb
    simp only [Function.comp_apply, isRuleBinding, (isKey_of_mem_ruleBindings hb).1,
      (h.texts b hb).sound, Bool.and_self]
  have command : lastValue ((ruleBindings r).map fun b => (b.1, b.2.toList)) "command" =
      some r.command := by
    rw [ruleBindings]
    cases r.depfile <;> cases r.deps <;> simp [lastValue, List.lookup_cons]
  have depfile : lastValue ((ruleBindings r).map fun b => (b.1, b.2.toList)) "depfile" =
      r.depfile := by
    rw [ruleBindings]
    cases r.depfile <;> cases r.deps <;> simp [lastValue, List.lookup_cons]
  have deps : lastValue ((ruleBindings r).map fun b => (b.1, b.2.toList)) "deps" = r.deps := by
    rw [ruleBindings]
    cases r.depfile <;> cases r.deps <;> simp [lastValue, List.lookup_cons]
  have takeName : r.name.toList.takeWhile isKeyChar = r.name.toList :=
    List.takeWhile_eq_self_iff.2 h.name.2
  have dropName : r.name.toList.dropWhile isKeyChar = [] := List.dropWhile_eq_nil_iff.2 h.name.2
  rw [readRule, List.dropWhile_cons_of_pos (by decide), name]
  simp only [takeName, dropName, all, command, depfile, deps]
  simp [h.name.toList_ne_nil, h.command, guard]

theorem Reads.rule {r : Rule} (h : RuleFits r) : Reads (rule r) [.rule r] := by
  intro rest more after
  have keyword : "rule ".toList = "rule".toList ++ [' '] := rfl
  -- The line that names the rule, its bindings, and the blank line that ends them.
  have written : (Ninja.rule r).toList ++ rest =
      ("rule".toList ++ ' ' :: r.name.toList) ++ '\n' ::
        ((String.join ((ruleBindings r).map fun b => binding b.1 b.2)).toList ++ '\n' :: rest) := by
    rw [rule_eq]
    simp only [String.toList_append, keyword]
    simp
  have bindings := readText_bindings
    (fun b hb => ⟨(isKey_of_mem_ruleBindings hb).2, (h.texts b hb).inside⟩) after
  have values : (ruleBindings r).map (fun b => (b.1, b.2.toList.dropWhile (· = ' '))) =
      (ruleBindings r).map fun b => (b.1, b.2.toList) :=
    List.map_congr_left fun b hb => by rw [(h.texts b hb).dropWhile_eq]
  rw [values] at bindings
  have key : IsKey "rule" := by decide
  rw [written]
  refine readText_item key (inside_cons (by decide) (by decide) (inside_of_isKeyChar h.name.2))
    bindings ?_
  rw [readItem, takeWhile_run_cons _ key.2 (by decide), dropWhile_run_cons _ key.2 (by decide),
    String.ofList_toList, if_pos rfl, readRule_ruleBindings h, Option.map_some]

/-! ## Statements -/

/-- A statement whose description is read back. -/
structure StatementFits (s : Statement) : Prop where
  rule : IsKey s.rule
  outputs : ∀ p ∈ s.outputs, OneLine p
  inputs : ∀ p ∈ s.inputs, OneLine p
  bindings : ∀ b ∈ s.bindings, IsKey b.1 ∧ '\r' ∉ b.2.toList

/-- How the inputs of a statement are read. -/
def inputSymbols (paths : List Path) : List Symbol :=
  if paths.isEmpty then [] else .plain ' ' :: pathSymbols paths

/-- How a statement is read back. -/
def blockOf (s : Statement) : Block where
  outputs := .plain ' ' :: pathSymbols s.outputs
  rule := s.rule
  inputs := inputSymbols s.inputs
  bindings := s.bindings.map fun b => (b.1, onOneLine (flush b.2))

/-- The characters of the inputs in the first line of a statement. -/
def inputChars (paths : List Path) : List Char :=
  if paths.isEmpty then [] else ' ' :: (pathList paths).toList

/-- The characters of the first line of a statement after its keyword. -/
def buildChars (s : Statement) : List Char :=
  ' ' :: ((pathList s.outputs).toList ++ ':' :: ' ' :: (s.rule.toList ++ inputChars s.inputs))

theorem symbols_inputChars {paths : List Path} (h : ∀ p ∈ paths, OneLine p) :
    symbols (inputChars paths) = some (inputSymbols paths) := by
  rw [inputChars, inputSymbols]
  split
  · rw [symbols]
  · have list := symbols_pathList h []
    rw [List.append_nil] at list
    rw [symbols_cons (by decide) (by decide), list, symbols]
    simp

theorem symbols_key {key : List Char} (h : ∀ c ∈ key, isKeyChar c) (rest : List Char) :
    symbols (key ++ rest) = (symbols rest).map (key.map Symbol.plain ++ ·) := by
  induction key with
  | nil => simp
  | cons c key ih =>
    have dollar : c ≠ '$' := ne_of_holds (h c List.mem_cons_self) (by decide)
    have carriage : c ≠ '\r' := ne_of_holds (h c List.mem_cons_self) (by decide)
    rw [List.cons_append, symbols_cons dollar carriage,
      ih fun d hd => h d (List.mem_cons_of_mem _ hd), Option.map_map]
    rfl

theorem symbols_buildChars {s : Statement} (h : StatementFits s) :
    symbols (buildChars s) = some (.plain ' ' :: (pathSymbols s.outputs ++
      .plain ':' :: .plain ' ' :: (s.rule.toList.map Symbol.plain ++ inputSymbols s.inputs))) := by
  rw [buildChars, symbols_cons (by decide) (by decide), symbols_pathList h.outputs,
    symbols_cons (by decide) (by decide), symbols_cons (by decide) (by decide),
    symbols_key h.rule.2, symbols_inputChars h.inputs]
  rfl

theorem inside_pathList (paths : List Path) : Inside (pathList paths).toList := by
  rw [toList_pathList]
  refine intercalate_closed inside_nil (fun a b => Inside.append)
    (inside_cons (by decide) (by decide) inside_nil) fun list hlist => ?_
  obtain ⟨p, -, rfl⟩ := List.mem_map.1 hlist
  exact inside_escapePathChars p.text.toList

theorem inside_buildChars {s : Statement} (h : IsKey s.rule) : Inside (buildChars s) := by
  have inputs : Inside (inputChars s.inputs) := by
    rw [inputChars]
    split
    · exact inside_nil
    · exact inside_cons (by decide) (by decide) (inside_pathList _)
  exact inside_cons (by decide) (by decide) ((inside_pathList _).append
    (inside_cons (by decide) (by decide) (inside_cons (by decide) (by decide)
      ((inside_of_isKeyChar h.2).append inputs))))

theorem plainChars_map_plain (cs : List Char) : plainChars (cs.map .plain) = cs := by
  induction cs with
  | nil => rfl
  | cons c cs ih =>
    rw [plainChars] at ih
    rw [plainChars, List.map_cons, List.filterMap_cons, ih]

theorem notColon_outputs (paths : List Path) :
    ∀ symbol ∈ Symbol.plain ' ' :: pathSymbols paths, decide (symbol ≠ .plain ':') = true := by
  have colon : Symbol.plain ':' ∉ pathSymbols paths :=
    plain_notMem_pathSymbols (by decide) (.inl rfl)
  intro symbol hsymbol
  rw [decide_eq_true_iff]
  rintro rfl
  obtain same | hsymbol := List.mem_cons.1 hsymbol
  · cases same
  · exact colon hsymbol

theorem dropWhile_space_key {key : String} (h : IsKey key) (rest : List Symbol) :
    (Symbol.plain ' ' :: (key.toList.map Symbol.plain ++ rest)).dropWhile (· = .plain ' ') =
      key.toList.map Symbol.plain ++ rest := by
  obtain ⟨c, more, text, hc⟩ := h.exists_cons
  have space : c ≠ ' ' := ne_of_holds hc (by decide)
  rw [List.dropWhile_cons_of_pos (by decide), text, List.map_cons, List.cons_append,
    List.dropWhile_cons_of_neg (by simpa using space)]

theorem inKey_map_plain {key : String} (h : IsKey key) :
    ∀ symbol ∈ key.toList.map Symbol.plain, symbol.inKey := by
  intro symbol hsymbol
  obtain ⟨c, hc, rfl⟩ := List.mem_map.1 hsymbol
  exact h.2 c hc

/-- The name of a rule ends where its inputs start. -/
theorem inKey_head?_inputSymbols (paths : List Path) :
    ∀ symbol ∈ (inputSymbols paths).head?, symbol.inKey = false := by
  rw [inputSymbols]
  split
  · exact fun symbol hsymbol => absurd hsymbol (by simp)
  · intro symbol hsymbol
    cases hsymbol
    decide

theorem readValue_dropWhile_escapeValueChars {value : String} (h : '\r' ∉ value.toList) :
    readValue ((escapeValueChars value.toList).dropWhile (· = ' ')) =
      some (onOneLine (flush value)) := by
  have carriage : '\r' ∉ value.toList.dropWhile isGap :=
    fun h' => h ((List.dropWhile_sublist _).mem h')
  rw [dropWhile_escapeValueChars, readValue_escapeValueChars carriage, onOneLine, flush,
    String.toList_ofList]

theorem mapM_readValue {bindings : List (String × String)}
    (h : ∀ b ∈ bindings, '\r' ∉ b.2.toList) :
    (bindings.map fun b => (b.1, (escapeValueChars b.2.toList).dropWhile (· = ' '))).mapM
        (fun (key, value) => (readValue value).map (key, ·)) =
      some (bindings.map fun b => (b.1, onOneLine (flush b.2))) := by
  rw [List.mapM_map]
  refine mapM_eq_some fun b hb => ?_
  simp only [Function.comp_apply, readValue_dropWhile_escapeValueChars (h b hb), Option.map_some]

/-- The first colon that is not escaped is the one after the outputs. -/
theorem readBlock_buildChars {s : Statement} (h : StatementFits s) :
    readBlock (buildChars s)
      (s.bindings.map fun b => (b.1, (escapeValueChars b.2.toList).dropWhile (· = ' '))) =
        some (blockOf s) := by
  have named : s.rule.toList.map Symbol.plain ≠ [] := by simpa using h.rule.1
  have outputs := notColon_outputs s.outputs
  have before := takeWhile_run_cons (c := Symbol.plain ':')
    (.plain ' ' :: (s.rule.toList.map Symbol.plain ++ inputSymbols s.inputs)) outputs (by decide)
  have after := dropWhile_run_cons (c := Symbol.plain ':')
    (.plain ' ' :: (s.rule.toList.map Symbol.plain ++ inputSymbols s.inputs)) outputs (by decide)
  have rule := takeWhile_run (inKey_map_plain h.rule) (inKey_head?_inputSymbols s.inputs)
  have inputs := dropWhile_run (inKey_map_plain h.rule) (inKey_head?_inputSymbols s.inputs)
  have values := mapM_readValue fun b hb => (h.bindings b hb).2
  rw [readBlock, symbols_buildChars h, ← List.cons_append]
  simp only [Option.bind_eq_bind, Option.bind_some, before, after, List.drop_succ_cons,
    List.drop_zero, dropWhile_space_key h.rule, rule, inputs, values, plainChars_map_plain,
    String.ofList_toList]
  simp [named, guard, blockOf]

/-- The bindings of a statement as they are written. -/
def writtenBindings (s : Statement) : List (String × String) :=
  s.bindings.map fun b => (b.1, escapeValue b.2)

theorem toList_build (s : Statement) :
    (build s).toList =
      ("build".toList ++ buildChars s) ++ '\n' ::
        ((String.join ((writtenBindings s).map fun b => binding b.1 b.2)).toList ++ ['\n']) := by
  have keyword : "build ".toList = "build".toList ++ [' '] := rfl
  have colon : ": ".toList = [':', ' '] := rfl
  have inputs : (if s.inputs.isEmpty then "" else " " ++ pathList s.inputs).toList =
      inputChars s.inputs := by
    rw [inputChars]
    split <;> simp
  simp only [build, buildLine, String.toList_append, keyword, colon, inputs, buildChars,
    writtenBindings, List.map_map]
  simp [Function.comp_def]

theorem Reads.build {s : Statement} (h : StatementFits s) :
    Reads (build s) [.block (blockOf s)] := by
  intro rest more after
  have keys : ∀ b ∈ writtenBindings s, IsKey b.1 ∧ Inside b.2.toList := by
    intro b hb
    obtain ⟨d, hd, rfl⟩ := List.mem_map.1 hb
    refine ⟨(h.bindings d hd).1, ?_⟩
    rw [escapeValue, String.toList_ofList]
    exact inside_escapeValueChars _
  have bindings := readText_bindings keys after
  have values : (writtenBindings s).map (fun b => (b.1, b.2.toList.dropWhile (· = ' '))) =
      s.bindings.map fun b => (b.1, (escapeValueChars b.2.toList).dropWhile (· = ' ')) := by
    rw [writtenBindings, List.map_map]
    simp [Function.comp_def, escapeValue]
  rw [values] at bindings
  have written : (Ninja.build s).toList ++ rest =
      ("build".toList ++ buildChars s) ++ '\n' ::
        ((String.join ((writtenBindings s).map fun b => binding b.1 b.2)).toList ++
          '\n' :: rest) := by
    rw [toList_build]
    simp only [List.append_assoc, List.cons_append, List.nil_append]
  have key : IsKey "build" := by decide
  rw [written]
  refine readText_item key (inside_buildChars h.rule) bindings ?_
  rw [readItem, buildChars, takeWhile_run_cons _ key.2 (by decide),
    dropWhile_run_cons _ key.2 (by decide), String.ofList_toList, if_neg (by decide), if_pos rfl,
    ← buildChars, readBlock_buildChars h, Option.map_some]

/-- The paths of a block are read back. -/
theorem step?_blockOf {s : Statement} (nonempty : s.outputs ≠ [])
    (outputs : ∀ p ∈ s.outputs, p.text ≠ "" ∧ '|' ∉ p.text.toList)
    (inputs : ∀ p ∈ s.inputs, p.text ≠ "" ∧ '|' ∉ p.text.toList) :
    (blockOf s).step? = some
      { outputs := s.outputs.map Path.text
        rule := s.rule
        inputs := s.inputs.map Path.text
        bindings := s.bindings.map fun b => (b.1, onOneLine (flush b.2)) } := by
  have read : readPaths (inputSymbols s.inputs) = some (s.inputs.map Path.text) := by
    rw [inputSymbols]
    split
    · next none =>
      rw [List.isEmpty_iff.1 none]
      rfl
    · exact readPaths_pathSymbols inputs
  have made : s.outputs.map Path.text ≠ [] := by simpa using nonempty
  simp only [Block.step?, blockOf, readPaths_pathSymbols outputs, read, Option.bind_eq_bind,
    Option.bind_some]
  simp [made, guard]

end BuildPlanner.Ninja
