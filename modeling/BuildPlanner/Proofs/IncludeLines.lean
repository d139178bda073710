import BuildPlanner.Proofs.Listings
import BuildPlanner.Proofs.Reaggregation
import BuildPlanner.Text.Lines

/-!
# The lines of umbrella sources

Of files below a root, an umbrella source has one line for each place but its own, and what stands
in the line is the way from the root: the names after the components of the root, with slashes
between them (`Path.toSlash_relativeTo_of_isBelow`).  No name has a slash in it, so the way tells
the place (`Path.eq_of_wayFrom_eq`), and no two places share a line.

The ways ascend, so they depend on the set of places alone, and not on how the files are spelled,
in which order they are found and how often (`Umbrella.includes_of_mem_iff`).  Another place adds
one way among those that are there (`Umbrella.exists_insertion_cons`).

* `Umbrella.source_of_isBelow`: which lines an umbrella source has, and what changes them.
-/

namespace BuildPlanner

/-! ## The way from a root -/

namespace Path

variable {root p q : Path} {names others : List String}

/-- Names with slashes between them can be told apart. -/
theorem eq_of_intercalate_eq (hnames : ∀ name ∈ names, IsEntryName name)
    (hothers : ∀ name ∈ others, IsEntryName name)
    (same : "/".intercalate names = "/".intercalate others) : names = others := by
  have pieces {names : List String} (h : ∀ name ∈ names, IsEntryName name) :
      ("/".intercalate names).toList.splitOn '/' =
        if names = [] then [[]] else names.map String.toList := by
    rw [String.toList_intercalate]
    split
    · next empty => simp [empty]
    · next nonempty =>
      refine List.splitOn_intercalate '/' (fun piece hpiece => ?_) (by simpa using nonempty)
      obtain ⟨name, hname, rfl⟩ := List.mem_map.1 hpiece
      exact (h name hname).slash
  -- Without names there is one piece, and it is blank, which no name is.
  have blank {names : List String} (h : ∀ name ∈ names, IsEntryName name) :
      [[]] ≠ names.map String.toList := fun single => by
    obtain ⟨name, rfl, empty⟩ := List.map_eq_singleton_iff.1 single.symm
    exact (h name List.mem_cons_self).nonempty (String.toList_eq_nil_iff.1 empty)
  have equal := pieces hnames
  rw [same, pieces hothers] at equal
  split at equal <;> split at equal
  · simp_all
  · exact absurd equal (blank hnames)
  · exact absurd equal.symm (blank hothers)
  · exact (List.map_injective_iff.2 fun a b => String.toList_inj.1) equal.symm

/-- A path that goes on from a root by the names of entries. -/
def IsBelow (root p : Path) : Prop :=
  ∃ names : List String, p.components = root.components ++ names.map .name

theorem IsBelow.congr (below : root.IsBelow p) (same : q.components = p.components) :
    root.IsBelow q := by
  rwa [IsBelow, same]

theorem isEntryName_of_components (split : p.components = root.components ++ names.map .name) :
    ∀ name ∈ names, IsEntryName name := by
  intro name hname
  have member : .name name ∈ p.components := by
    rw [split]
    exact List.mem_append_right _ (List.mem_map_of_mem hname)
  exact (name_mem_pieces_of_mem_components member).2

theorem ofComponents_names (h : ∀ name ∈ names, IsEntryName name) :
    ofComponents (names.map .name) = descend ⟨""⟩ names := by
  cases names with
  | nil => rfl
  | cons name rest =>
    rw [← join_ofComponents ⟨""⟩ (List.cons_ne_nil name rest) h]
    simp [join, joinChars]

/-- The way from a root to components that start with its own. -/
def wayFrom (root : Path) (components : List Component) : String :=
  "/".intercalate ((components.drop root.components.length).map Component.text)

theorem wayFrom_append (root : Path) (names : List String) :
    root.wayFrom (root.components ++ names.map .name) = "/".intercalate names := by
  have texts : (names.map Component.name).map Component.text = names := by
    rw [List.map_map]
    exact List.map_id names
  rw [wayFrom, List.drop_left, texts]

theorem toSlash_relativeTo_of_isBelow (below : root.IsBelow p) :
    (relativeTo root p).toSlash = root.wayFrom p.components := by
  obtain ⟨names, split⟩ := below
  have entries := isEntryName_of_components split
  rw [relativeTo_of_components split, ofComponents_names entries, toSlash,
    components_descend _ entries, components_empty, List.nil_append, List.map_map, split,
    wayFrom_append]
  exact congrArg _ (List.map_id names)

/-- What lies below a root is told by the way from there. -/
theorem eq_of_wayFrom_eq (hp : root.IsBelow p) (hq : root.IsBelow q)
    (same : root.wayFrom p.components = root.wayFrom q.components) :
    p.components = q.components := by
  obtain ⟨names, hp⟩ := hp
  obtain ⟨others, hq⟩ := hq
  rw [hp, hq, wayFrom_append, wayFrom_append] at same
  rw [hp, hq,
    eq_of_intercalate_eq (isEntryName_of_components hp) (isEntryName_of_components hq) same]

theorem mem_map_components_sort {paths : List Path} {place : List Component} :
    place ∈ (sort paths).map components ↔ place ∈ paths.map components := by
  simp only [List.mem_map]
  constructor
  · rintro ⟨p, hp, rfl⟩
    exact ⟨p, sort_subset paths hp, rfl⟩
  · rintro ⟨p, hp, rfl⟩
    obtain ⟨q, hq, same⟩ := exists_same_of_mem_sort hp
    exact ⟨q, hq, same_iff.1 same⟩

end Path

/-! ## Lines -/

theorem Text.lines_cons {line : String} (newline : '\n' ∉ line.toList)
    (ending : line.toList.getLast? ≠ some '\r') (rest : String) :
    lines (line ++ "\n" ++ rest) = line :: lines rest := by
  have pieces : (line ++ "\n" ++ rest).toList.splitOn '\n' =
      line.toList :: rest.toList.splitOn '\n' := by
    rw [String.toList_append, String.toList_append, List.append_assoc]
    exact List.splitOn_append_cons_self_of_not_mem newline rest.toList
  have kept : dropReturn line.toList = line.toList := by
    rw [List.getLast?_eq_head?_reverse] at ending
    unfold dropReturn
    split
    · next last => simp [last] at ending
    · rfl
  obtain ⟨first, others, split⟩ := List.exists_cons_of_ne_nil (List.splitOn_ne_nil '\n' rest.toList)
  rw [lines, pieces, lines, split, linesOfPieces, List.map_cons, kept, String.ofList_toList]
  exact nofun

theorem Text.lines_join {texts : List String}
    (h : ∀ text ∈ texts, '\n' ∉ text.toList ∧ text.toList.getLast? ≠ some '\r') :
    lines (.join (texts.map (· ++ "\n"))) = texts := by
  induction texts with
  | nil => decide
  | cons text rest ih =>
    obtain ⟨first, others⟩ := List.forall_mem_cons.1 h
    rw [List.map_cons, String.join_cons, lines_cons first.1 first.2, ih others]

/-! ## Insertion -/

/-- One element more among ascending ones stands somewhere between those that were there. -/
theorem exists_insertion {texts more : List String} {new : String}
    (ascends : texts.Pairwise (· < ·)) (ascendsMore : more.Pairwise (· < ·)) (fresh : new ∉ texts)
    (members : ∀ text, text ∈ more ↔ text = new ∨ text ∈ texts) :
    ∃ before later, texts = before ++ later ∧ more = before ++ new :: later := by
  obtain ⟨before, later, rfl⟩ := List.append_of_mem ((members new).2 (.inl rfl))
  have left : (before ++ later).Pairwise (· < ·) :=
    ascendsMore.sublist ((List.sublist_cons_self new later).append_left before)
  have once : new ∉ before ++ later := by
    have distinct := ascendsMore.nodup
    rw [List.nodup_middle, List.nodup_cons] at distinct
    exact distinct.1
  refine ⟨before, later, ascends.eq_of_mem_iff left fun text => ?_, rfl⟩
  have member := members text
  rw [List.mem_append, List.mem_cons, or_left_comm, ← List.mem_append] at member
  by_cases same : text = new
  · exact iff_of_false (same ▸ fresh) (same ▸ once)
  · simpa [same] using member.symm

namespace Umbrella

variable {root output : Path} {found given : List Path}

/-! ## The text -/

theorem render_eq_join (texts : List String) :
    render texts =
      .join ((headerLine :: "" :: texts.map fun text => "#include \"" ++ text ++ "\"").map
        (· ++ "\n")) := by
  have lines : texts.map includeLine =
      (texts.map fun text => "#include \"" ++ text ++ "\"").map (· ++ "\n") := by
    rw [List.map_map]
    refine List.map_congr_left fun text _ => ?_
    simp [includeLine, String.append_assoc]
  have breaks : "\n\n" = "\n" ++ "" ++ "\n" := by decide
  rw [render, lines, breaks]
  simp only [List.map_cons, String.join_cons, String.append_assoc]

/-- The lines of an umbrella source: the first one, an empty one, and those that include files. -/
theorem lines_render {texts : List String} (h : ∀ text ∈ texts, '\n' ∉ text.toList) :
    Text.lines (render texts) =
      headerLine :: "" :: texts.map fun text => "#include \"" ++ text ++ "\"" := by
  rw [render_eq_join]
  refine Text.lines_join fun line hline => ?_
  simp only [List.mem_cons, List.mem_map] at hline
  obtain rfl | rfl | ⟨text, htext, rfl⟩ := hline
  · decide
  · decide
  · have last : ("#include \"" ++ text ++ "\"").toList.getLast? = some '"' := by
      rw [String.toList_append]
      exact List.getLast?_concat
    rw [last]
    simp [h text htext]

/-! ## Places and lines -/

/-- The places of the files that an umbrella source includes, each of them once. -/
def places (output : Path) (found : List Path) : List (List Component) :=
  ((found.filter fun file => !file.same output).map Path.components).dedup

theorem mem_places_iff {place : List Component} :
    place ∈ places output found ↔
      place ∈ found.map Path.components ∧ place ≠ output.components := by
  simp only [places, List.mem_dedup, List.mem_map, List.mem_filter, Bool.not_eq_true',
    Bool.eq_false_iff, Ne, Path.same_iff]
  constructor
  · rintro ⟨file, ⟨hfile, other⟩, rfl⟩
    exact ⟨⟨file, hfile, rfl⟩, other⟩
  · rintro ⟨⟨file, hfile, rfl⟩, other⟩
    exact ⟨file, ⟨hfile, other⟩, rfl⟩

section Below

variable (below : ∀ file ∈ found, root.IsBelow file)
include below

theorem isBelow_of_mem_iff
    (same : ∀ place, place ∈ given.map Path.components ↔ place ∈ found.map Path.components) :
    ∀ file ∈ given, root.IsBelow file := by
  intro file hfile
  obtain ⟨other, hother, spelled⟩ := List.mem_map.1 ((same _).1 (List.mem_map_of_mem hfile))
  exact (below other hother).congr spelled.symm

theorem mem_includes_iff_of_isBelow {text : String} :
    text ∈ includes root output found ↔
      text ∈ (places output found).map root.wayFrom := by
  rw [mem_includes_iff, List.mem_map]
  constructor
  · rintro ⟨file, hfile, other, rfl⟩
    rw [Bool.eq_false_iff, Ne, Path.same_iff] at other
    exact ⟨file.components, mem_places_iff.2 ⟨List.mem_map_of_mem hfile, other⟩,
      (Path.toSlash_relativeTo_of_isBelow (below file hfile)).symm⟩
  · rintro ⟨place, hplace, rfl⟩
    obtain ⟨hplace, other⟩ := mem_places_iff.1 hplace
    obtain ⟨file, hfile, rfl⟩ := List.mem_map.1 hplace
    refine ⟨file, hfile, ?_, Path.toSlash_relativeTo_of_isBelow (below file hfile)⟩
    rwa [Bool.eq_false_iff, Ne, Path.same_iff]

/-- There is one line for each place. -/
theorem includes_perm :
    (includes root output found).Perm ((places output found).map root.wayFrom) := by
  have distinct : ((places output found).map root.wayFrom).Nodup := by
    refine List.Nodup.map_on (fun a ha b hb same => ?_) (List.nodup_dedup _)
    obtain ⟨p, hp, rfl⟩ := List.mem_map.1 (mem_places_iff.1 ha).1
    obtain ⟨q, hq, rfl⟩ := List.mem_map.1 (mem_places_iff.1 hb).1
    exact Path.eq_of_wayFrom_eq (below p hp) (below q hq) same
  exact (List.perm_ext_iff_of_nodup (pairwise_includes root output found).nodup distinct).2
    fun text => mem_includes_iff_of_isBelow below

/-- The lines depend on the set of places alone. -/
theorem includes_of_mem_iff
    (same : ∀ place, place ∈ given.map Path.components ↔ place ∈ found.map Path.components) :
    includes root output given = includes root output found := by
  refine (pairwise_includes root output given).eq_of_mem_iff (pairwise_includes root output found)
    fun text => ?_
  rw [mem_includes_iff_of_isBelow (isBelow_of_mem_iff below same),
    mem_includes_iff_of_isBelow below, List.mem_map, List.mem_map]
  simp only [mem_places_iff, same]

/-- Another place adds one way. -/
theorem exists_insertion_cons {file : Path} (belowFile : root.IsBelow file)
    (other : file.same output = false) (fresh : ∀ p ∈ found, p.same file = false) :
    ∃ before later, includes root output found = before ++ later ∧
      includes root output (file :: found) = before ++ root.wayFrom file.components :: later := by
  refine exists_insertion (pairwise_includes root output found)
    (pairwise_includes root output _) (fun member => ?_) fun text => ?_
  · obtain ⟨p, hp, -, line⟩ := mem_includes_iff.1 member
    rw [Path.toSlash_relativeTo_of_isBelow (below p hp)] at line
    have back := Path.same_iff.2 (Path.eq_of_wayFrom_eq (below p hp) belowFile line)
    rw [fresh p hp] at back
    cases back
  · rw [mem_includes_iff, mem_includes_iff, List.exists_mem_cons_iff, other,
      Path.toSlash_relativeTo_of_isBelow belowFile]
    simp only [true_and]
    exact or_congr_left eq_comm

end Below

/-- Files below a directory, one of them in two spellings, with an umbrella source among them. -/
def spelledFiles : List Path :=
  [⟨"t/a/b.c"⟩, ⟨"t/a-b.c"⟩, ⟨"t//a/./b.c"⟩, ⟨"t/./all.c"⟩, ⟨"t/a.c"⟩]

theorem isBelow_spelledFiles : ∀ file ∈ spelledFiles, (⟨"t"⟩ : Path).IsBelow file := by
  intro file hfile
  simp only [spelledFiles, List.mem_cons, List.not_mem_nil, or_false] at hfile
  obtain rfl | rfl | rfl | rfl | rfl := hfile
  · exact ⟨["a", "b.c"], by decide⟩
  · exact ⟨["a-b.c"], by decide⟩
  · exact ⟨["a", "b.c"], by decide⟩
  · exact ⟨["all.c"], by decide⟩
  · exact ⟨["a.c"], by decide⟩

end Umbrella

end BuildPlanner
