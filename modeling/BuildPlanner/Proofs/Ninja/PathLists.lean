import BuildPlanner.Proofs.Ninja.Escaping

/-!
# Lists of paths

How the executor finds the paths of a list.  A space, a colon, a bar and a newline that are not
escaped end a path; a space goes on to the next path and the other marks end the list.  `$$`, `$ `
and `$:` stand for a dollar, a space and a colon.  A dollar before a newline continues the line: it
stands for nothing and drops the spaces after it (`lexPaths`).

A bar has no escape, and the escape of a newline is the continuation of a line.  So a list of paths
is read back exactly if none of them is empty or holds a bar or a newline (`lexPaths_pathList_iff`).
What is read to the end of any list is the characters of its paths, less the newlines
(`readsUpTo_written`).
-/

namespace BuildPlanner.Ninja

/-- The path that has been read so far, unless nothing has been read of it. -/
def started (current : List Char) : List (List Char) :=
  if current = [] then [] else [current]

/-- Reads the paths of a list, where `current` has been read of the first, and gives what is left
from the mark that ends the list.  References and unknown escapes are faults. -/
def lexPaths : (current : List Char) → List Char → Option (List (List Char) × List Char)
  | current, [] => some (started current, [])
  | current, '$' :: '\n' :: rest => lexPaths current (rest.dropWhile (· = ' '))
  | current, '$' :: c :: rest =>
    if c = '$' ∨ c = ' ' ∨ c = ':' then lexPaths (current ++ [c]) rest else none
  | current, ' ' :: rest =>
    (lexPaths [] rest).map fun (paths, after) => (started current ++ paths, after)
  | current, c :: rest =>
    if c = '$' then none
    else if c = ':' ∨ c = '|' ∨ c = '\n' then some (started current, c :: rest)
    else lexPaths (current ++ [c]) rest
termination_by _ text => text.length
decreasing_by
  all_goals simp only [List.length_cons]
  · have := (List.dropWhile_sublist (l := rest) (· = ' ')).length_le
    omega
  all_goals omega

variable {current cs rest : List Char} {c : Char}

/-! ## One character -/

theorem lexPaths_nil (current : List Char) : lexPaths current [] = some (started current, []) := by
  rw [lexPaths]

theorem lexPaths_continued (rest : List Char) :
    lexPaths current ('$' :: '\n' :: rest) = lexPaths current (rest.dropWhile (· = ' ')) := by
  rw [lexPaths]

theorem lexPaths_escaped (h : c = '$' ∨ c = ' ' ∨ c = ':') (rest : List Char) :
    lexPaths current ('$' :: c :: rest) = lexPaths (current ++ [c]) rest := by
  rw [lexPaths, if_pos h]
  rintro rfl
  simp at h

theorem lexPaths_space (rest : List Char) :
    lexPaths current (' ' :: rest) =
      (lexPaths [] rest).map fun (paths, after) => (started current ++ paths, after) := by
  rw [lexPaths]

theorem lexPaths_mark (h : c = ':' ∨ c = '|' ∨ c = '\n') (rest : List Char) :
    lexPaths current (c :: rest) = some (started current, c :: rest) := by
  rcases h with rfl | rfl | rfl <;> simp [lexPaths]

theorem lexPaths_plain (space : c ≠ ' ') (dollar : c ≠ '$') (mark : ¬ (c = ':' ∨ c = '|' ∨ c = '\n'))
    (rest : List Char) : lexPaths current (c :: rest) = lexPaths (current ++ [c]) rest := by
  rw [lexPaths, if_neg dollar, if_neg mark] <;> simp_all

/-! ## Paths that are read back -/

/-- What may follow a list of paths: nothing, the colon after outputs or the end of the line. -/
def Closes (rest : List Char) : Prop := ∀ c ∈ rest.head?, c = ':' ∨ c = '\n'

theorem lexPaths_closed (stop : Closes rest) (current : List Char) :
    lexPaths current rest = some (started current, rest) := by
  cases rest with
  | nil => exact lexPaths_nil current
  | cons c rest =>
    apply lexPaths_mark
    rcases stop c rfl with rfl | rfl <;> simp

theorem lexPaths_escapePathChars (h : ∀ c ∈ cs, c ≠ '|' ∧ c ≠ '\n') (current rest : List Char) :
    lexPaths current (escapePathChars cs ++ rest) = lexPaths (current ++ cs) rest := by
  induction cs generalizing current with
  | nil => simp [escapePathChars]
  | cons c cs ih =>
    obtain ⟨⟨bar, newline⟩, others⟩ := List.forall_mem_cons.1 h
    have ih := ih others (current ++ [c])
    rw [escapePathChars] at ih
    rw [escapePathChars, List.flatMap_cons]
    by_cases special : c = '$' ∨ c = ' ' ∨ c = ':'
    · rw [if_pos (by tauto), List.append_assoc, List.cons_append, List.singleton_append,
        lexPaths_escaped special, ih]
      simp
    · rw [if_neg (by tauto), List.append_assoc, List.singleton_append,
        lexPaths_plain (by tauto) (by tauto) (by tauto), ih]
      simp

theorem lexPaths_pathList {paths : List Path}
    (h : ∀ p ∈ paths, p.text ≠ "" ∧ ∀ c ∈ p.text.toList, c ≠ '|' ∧ c ≠ '\n')
    (stop : Closes rest) :
    lexPaths [] ((pathList paths).toList ++ rest) =
      some (paths.map fun p => p.text.toList, rest) := by
  rw [toList_pathList]
  induction paths with
  | nil => exact lexPaths_closed stop []
  | cons p paths ih =>
    obtain ⟨⟨nonempty, plain⟩, others⟩ := List.forall_mem_cons.1 h
    have ih := ih others
    have first : started p.text.toList = [p.text.toList] := if_neg (toList_ne_nil nonempty)
    cases paths with
    | nil =>
      rw [List.map_singleton, List.intercalate_singleton, lexPaths_escapePathChars plain,
        List.nil_append, lexPaths_closed stop, first]
      rfl
    | cons q paths =>
      rw [List.map_cons, List.map_cons] at ih ⊢
      rw [List.intercalate_cons_cons, List.append_assoc, List.append_assoc,
        lexPaths_escapePathChars plain, List.nil_append, List.singleton_append, lexPaths_space, ih,
        first]
      rfl

/-! ## What is read of any list -/

/-- The text of a list, given by the characters of its paths, with nothing between two paths. -/
def written (items : List (Option Char)) : List Char :=
  items.flatMap fun item => item.elim [' '] fun c => escapePathChars [c]

theorem written_none (items : List (Option Char)) :
    written (none :: items) = ' ' :: written items := by
  simp [written]

theorem written_escaped (h : c = '$' ∨ c = ' ' ∨ c = ':' ∨ c = '\n') (items : List (Option Char)) :
    written (some c :: items) = '$' :: c :: written items := by
  simp [written, escapePathChars, h]

theorem written_plain (h : ¬ (c = '$' ∨ c = ' ' ∨ c = ':' ∨ c = '\n'))
    (items : List (Option Char)) : written (some c :: items) = c :: written items := by
  simp only [written, escapePathChars, List.flatMap_cons, Option.elim_some, if_neg h]
  rfl

/-- Only the spaces between paths are dropped where a line is continued. -/
theorem dropWhile_written_some (c : Char) (items : List (Option Char)) (rest : List Char) :
    (written (some c :: items) ++ rest).dropWhile (· = ' ') = written (some c :: items) ++ rest := by
  by_cases special : c = '$' ∨ c = ' ' ∨ c = ':' ∨ c = '\n'
  · simp [written_escaped special]
  · have space : c ≠ ' ' := by tauto
    simp [written_plain special, space]

theorem flatten_started (current : List Char) : (started current).flatten = current := by
  unfold started
  split <;> simp_all

/-- A text is read; if it is read up to `rest`, then no bar is in it, and what is read of it after
`current` is its characters, less the newlines. -/
def ReadsUpTo (rest : List Char) (items : List (Option Char)) (text : List Char) : Prop :=
  ∀ current, ∃ read after, lexPaths current text = some (read, after) ∧
    (after = rest → some '|' ∉ items ∧
      read.flatten = current ++ items.reduceOption.filter (· ≠ '\n'))

theorem readsUpTo_nil (stop : Closes rest) : ReadsUpTo rest [] rest := fun current =>
  ⟨started current, rest, lexPaths_closed stop current, by simp [flatten_started]⟩

theorem readsUpTo_none {items : List (Option Char)} {text : List Char}
    (next : ReadsUpTo rest items text) : ReadsUpTo rest (none :: items) (' ' :: text) := by
  intro current
  obtain ⟨read, after, read_eq, whole⟩ := next []
  refine ⟨started current ++ read, after, ?_, fun reached => ?_⟩
  · rw [lexPaths_space, read_eq]
    rfl
  · obtain ⟨bar, characters⟩ := whole reached
    simp [bar, characters, flatten_started]

/-- The text after an escaped newline is read without the spaces at its front. -/
theorem readsUpTo_some {items : List (Option Char)} (stop : Closes rest)
    (next : ReadsUpTo rest items (written items ++ rest))
    (continued : ReadsUpTo rest items ((written items ++ rest).dropWhile (· = ' '))) (c : Char) :
    ReadsUpTo rest (some c :: items) (written (some c :: items) ++ rest) := by
  intro current
  by_cases newline : c = '\n'
  · subst newline
    obtain ⟨read, after, read_eq, whole⟩ := continued current
    refine ⟨read, after, ?_, fun reached => ?_⟩
    · rw [written_escaped (by simp), List.cons_append, List.cons_append, lexPaths_continued, read_eq]
    · obtain ⟨bar, characters⟩ := whole reached
      simp [bar, characters]
  by_cases bar : c = '|'
  · -- The list ends at the bar.
    subst bar
    refine ⟨started current, '|' :: (written items ++ rest), ?_, fun reached => ?_⟩
    · rw [written_plain (by simp), List.cons_append, lexPaths_mark (by simp)]
    · have closing := stop '|' (by rw [← reached]; rfl)
      simp at closing
  obtain ⟨read, after, read_eq, whole⟩ := next (current ++ [c])
  refine ⟨read, after, ?_, fun reached => ?_⟩
  · by_cases special : c = '$' ∨ c = ' ' ∨ c = ':'
    · rw [written_escaped (by tauto), List.cons_append, List.cons_append, lexPaths_escaped special,
        read_eq]
    · rw [written_plain (by tauto), List.cons_append,
        lexPaths_plain (by tauto) (by tauto) (by tauto), read_eq]
  · obtain ⟨others, characters⟩ := whole reached
    simp [Ne.symm bar, others, characters, newline]

theorem readsUpTo_written (stop : Closes rest) (items : List (Option Char)) :
    ReadsUpTo rest items (written items ++ rest) ∧
    ReadsUpTo rest items ((written items ++ rest).dropWhile (· = ' ')) := by
  induction items with
  | nil =>
    have dropped : rest.dropWhile (· = ' ') = rest := by
      cases rest with
      | nil => rfl
      | cons c rest => rcases stop c rfl with rfl | rfl <;> simp
    have closed := readsUpTo_nil stop
    simp only [written, List.flatMap_nil, List.nil_append, dropped]
    exact ⟨closed, closed⟩
  | cons item items ih =>
    obtain ⟨next, continued⟩ := ih
    cases item with
    | none =>
      rw [written_none, List.cons_append]
      refine ⟨readsUpTo_none next, ?_⟩
      simpa [ReadsUpTo] using continued
    | some c =>
      rw [dropWhile_written_some]
      have read := readsUpTo_some stop next continued c
      exact ⟨read, read⟩

/-! ## Lists of paths -/

/-- The characters of paths, with a gap between two of them. -/
def characters (paths : List Path) : List (Option Char) :=
  [none].intercalate (paths.map fun p => p.text.toList.map some)

theorem written_append (a b : List (Option Char)) : written (a ++ b) = written a ++ written b :=
  List.flatMap_append

theorem written_map_some (cs : List Char) : written (cs.map some) = escapePathChars cs := by
  simp [written, escapePathChars, List.flatMap_map]

theorem written_characters (paths : List Path) :
    written (characters paths) = (pathList paths).toList := by
  rw [toList_pathList, characters]
  induction paths with
  | nil => rfl
  | cons p paths ih =>
    cases paths with
    | nil => simp [written_map_some]
    | cons q paths =>
      simp only [List.map_cons] at ih ⊢
      rw [List.intercalate_cons_cons, List.intercalate_cons_cons, written_append, written_append,
        written_map_some, ih]
      rfl

theorem reduceOption_map_some (cs : List Char) : (cs.map some).reduceOption = cs := by
  simp [List.reduceOption, List.filterMap_map]

theorem reduceOption_characters (paths : List Path) :
    (characters paths).reduceOption = (paths.map fun p => p.text.toList).flatten := by
  rw [characters]
  induction paths with
  | nil => rfl
  | cons p paths ih =>
    cases paths with
    | nil => simp [reduceOption_map_some]
    | cons q paths =>
      simp only [List.map_cons] at ih ⊢
      rw [List.intercalate_cons_cons, List.reduceOption_append, List.reduceOption_append, ih]
      simp [reduceOption_map_some]

theorem some_mem_characters_iff (paths : List Path) :
    some c ∈ characters paths ↔ ∃ p ∈ paths, c ∈ p.text.toList := by
  rw [← List.reduceOption_mem_iff, reduceOption_characters]
  simp

theorem ne_nil_of_mem_started {path : List Char} (h : path ∈ started current) : path ≠ [] := by
  unfold started at h
  split at h
  · cases h
  · next nonempty => rwa [List.mem_singleton.1 h]

theorem ne_nil_of_mem_lexPaths {current text after : List Char} {read : List (List Char)}
    (h : lexPaths current text = some (read, after)) : ∀ path ∈ read, path ≠ [] := by
  fun_induction lexPaths current text generalizing read after with
  | case1 current =>
    cases h
    exact fun path => ne_nil_of_mem_started
  | case2 current rest ih => exact ih h
  | case3 current c rest _ _ ih => exact ih h
  | case4 => cases h
  | case5 current rest ih =>
    obtain ⟨⟨others, stop⟩, others_eq, same⟩ := Option.map_eq_some_iff.1 h
    cases same
    intro path hpath
    rcases List.mem_append.1 hpath with first | other
    · exact ne_nil_of_mem_started first
    · exact ih others_eq path other
  | case6 => cases h
  | case7 current c rest =>
    cases h
    exact fun path => ne_nil_of_mem_started
  | case8 current c rest _ _ _ _ _ ih => exact ih h

/-- A list of paths is read back, up to what follows it, exactly if no path is empty or holds a bar
or a newline. -/
theorem lexPaths_pathList_iff (paths : List Path) (stop : Closes rest) :
    lexPaths [] ((pathList paths).toList ++ rest) =
        some (paths.map fun p => p.text.toList, rest) ↔
      ∀ p ∈ paths, p.text ≠ "" ∧ ∀ c ∈ p.text.toList, c ≠ '|' ∧ c ≠ '\n' := by
  constructor
  · intro read_eq p hp
    have nonempty := ne_nil_of_mem_lexPaths read_eq p.text.toList (List.mem_map_of_mem hp)
    obtain ⟨read, after, read_eq', whole⟩ := (readsUpTo_written stop (characters paths)).1 []
    rw [written_characters, read_eq] at read_eq'
    obtain ⟨rfl, rfl⟩ := Prod.mk.inj (Option.some_inj.1 read_eq')
    obtain ⟨bar, same⟩ := whole rfl
    rw [List.nil_append, reduceOption_characters, eq_comm, List.filter_eq_self] at same
    refine ⟨by simpa using nonempty, fun c hc => ⟨?_, ?_⟩⟩
    · rintro rfl
      exact bar ((some_mem_characters_iff paths).2 ⟨p, hp, hc⟩)
    · simpa using same c (List.mem_flatten.2 ⟨_, List.mem_map_of_mem hp, hc⟩)
  · exact fun h => lexPaths_pathList h stop

/-- Spaces, colons and dollars are no obstacle. -/
theorem lexPaths_pathList_spacedPaths :
    Closes ": cc main.c".toList ∧
    lexPaths [] ((pathList [⟨"my dir/$a.o"⟩, ⟨"C:/b.o"⟩]).toList ++ ": cc main.c".toList) =
      some (["my dir/$a.o".toList, "C:/b.o".toList], ": cc main.c".toList) := by
  have stop : Closes ": cc main.c".toList := by simp [Closes]
  exact ⟨stop, (lexPaths_pathList_iff [⟨"my dir/$a.o"⟩, ⟨"C:/b.o"⟩] stop).2 (by simp)⟩

/-- A bar ends the list within a path, and a newline at the end of a path joins the next to it. -/
theorem lexPaths_barredPaths :
    (pathList [⟨"a|b"⟩] = "a|b" ∧ lexPaths [] "a|b".toList = some (["a".toList], "|b".toList)) ∧
    pathList [⟨"a\n"⟩, ⟨"b"⟩] = "a$\n b" ∧ lexPaths [] "a$\n b".toList = some (["ab".toList], []) := by
  decide +kernel

end BuildPlanner.Ninja
