import BuildPlanner.Glob.Search
import BuildPlanner.Proofs.Patterns
import BuildPlanner.Proofs.Sorting
import BuildPlanner.Proofs.Trees

/-!
# Searches for files

A search looks at the tree and at where relative paths start, and at nothing else of the host
(`Glob.files_congr`).  It goes from directories to their entries (`Glob.namedLocation_childPath`), no
deeper than the tree is high (`Glob.descendants_eq`), and what it finds is reached through where it
starts (`Glob.through_of_mem_search`).  Patterns find what each of them finds, if all of them can be
read (`Glob.mem_iff_of_matchesBelow`, `Glob.exists_files_iff`).
-/

namespace BuildPlanner

/-! ## Ways through directories -/

namespace Host

variable {h : Host} {p q : Path}

/-- The locations that a path leads through, and the one that it leads to. -/
def course (h : Host) (p : Path) : List Location :=
  h.stops p ++ [h.namedLocation p]

/-- A path that leads through all that another leads through, and through where that leads. -/
def Through (h : Host) (p q : Path) : Prop :=
  ∀ l ∈ h.course p, l ∈ h.stops q

/-- A path that leads through directories to a directory; whether the system takes it is no matter
here. -/
def Opens (h : Host) (p : Path) : Prop :=
  ∀ l ∈ h.course p, h.tree.node? l = some .directory

/-- A path that leads through directories to something; whether the system takes it is no matter
here. -/
def Stands (h : Host) (p : Path) : Prop :=
  (∀ l ∈ h.stops p, h.tree.node? l = some .directory) ∧ h.tree.node? (h.namedLocation p) ≠ none

instance (h : Host) (p : Path) : Decidable (h.Stands p) :=
  inferInstanceAs (Decidable (_ ∧ _))

theorem mem_course {l : Location} :
    l ∈ h.course p ↔ l ∈ h.stops p ∨ l = h.namedLocation p := by
  rw [course, List.mem_append, List.mem_singleton]

theorem namedLocation_mem_course (h : Host) (p : Path) : h.namedLocation p ∈ h.course p :=
  mem_course.2 (.inr rfl)

theorem Through.trans {r : Path} (first : h.Through p q) (second : h.Through q r) :
    h.Through p r :=
  fun l hl => second l (mem_course.2 (.inl (first l hl)))

/-- What is reached through a path is reached through directories. -/
theorem Reaches.opens (reaches : h.Reaches q) (through : h.Through p q) : h.Opens p :=
  fun l hl => reaches.directories l (through l hl)

theorem Opens.stands (opens : h.Opens p) : h.Stands p := by
  refine ⟨fun l hl => opens l (mem_course.2 (.inl hl)), ?_⟩
  rw [opens _ (h.namedLocation_mem_course p)]
  simp

/-- No directory is found where none stands. -/
theorem isDirectory_eq_false_of_not_opens (closed : ¬ h.Opens p) : h.isDirectory p = false := by
  rw [Bool.eq_false_iff, Ne, isDirectory_iff]
  rintro ⟨reaches, stands⟩
  refine closed fun l hl => ?_
  obtain hl | rfl := mem_course.1 hl
  · exact reaches.directories l hl
  · exact stands

/-- What is spelled as the directory where the search starts leads nowhere else. -/
theorem course_of_same_here (same : p.same ⟨"."⟩ = true) :
    ∀ l ∈ h.course p, l = h.workingDirectory := by
  have components : p.components = [.here] := (Path.same_iff.1 same).trans (by decide)
  have blank : ∀ piece ∈ p.pieces, Component.ofPiece? piece = none := by
    intro piece hpiece
    obtain blank | up | ⟨name, named⟩ := ofPiece?_cases piece
    · exact blank
    · have up := Path.mem_components_of_mem_pieces hpiece up
      simp [components] at up
    · have named := Path.mem_components_of_mem_pieces hpiece named
      simp [components] at named
  have start : h.origin p = h.workingDirectory := by
    rw [origin, if_neg]
    simp [Path.isAbsolute_iff, components]
  obtain ⟨stays, all⟩ := Location.stays_of_blank blank h.workingDirectory
  intro l hl
  rw [mem_course, stops, namedLocation_eq, start, stays] at hl
  exact hl.elim (all l) id

end Host

namespace Glob

/-! ## Hosts with one tree -/

section Congruence

variable {h k : Host} (tree : k.tree = h.tree) (start : k.workingDirectory = h.workingDirectory)
include tree start

theorem spot_congr : k.spot = h.spot := by
  funext p
  unfold Host.spot Host.followPieces Host.origin
  rw [tree, start]

theorem node_congr : k.node = h.node := by
  funext p
  unfold Host.node
  rw [spot_congr tree start]

theorem names_congr : k.names = h.names := by
  funext p
  unfold Host.names
  rw [spot_congr tree start, tree]

theorem below_congr (fuel : Nat) (p : Path) : below k fuel p = below h fuel p := by
  induction fuel generalizing p with
  | zero => rfl
  | succ fuel ih => simp only [below, names_congr tree start, ih]

theorem isDirectory_congr : k.isDirectory = h.isDirectory := by
  funext p
  unfold Host.isDirectory
  rw [node_congr tree start]

theorem exists?_congr : k.exists? = h.exists? := by
  funext p
  unfold Host.exists?
  rw [node_congr tree start]

theorem isFile_congr : k.isFile = h.isFile := by
  funext p
  unfold Host.isFile Host.file?
  rw [node_congr tree start]

theorem search_congr (directoriesOnly : Bool) :
    ∀ (steps : List (List Token)) (p : Path),
      search k directoriesOnly steps p = search h directoriesOnly steps p
  | [], p => by
    simp only [search, isDirectory_congr tree start]
  | step :: rest, p => by
    have ih : search k directoriesOnly rest = search h directoriesOnly rest :=
      funext (search_congr directoriesOnly rest)
    have all : descendants k p = descendants h p := by
      rw [descendants, descendants, tree, below_congr tree start]
    cases rest with
    | nil =>
      simp only [search, isDirectory_congr tree start, exists?_congr tree start,
        names_congr tree start, all]
    | cons next rest =>
      have later : search k directoriesOnly rest = search h directoriesOnly rest :=
        funext (search_congr directoriesOnly rest)
      rw [search.eq_def, search.eq_def h]
      simp only [isDirectory_congr tree start, exists?_congr tree start,
        names_congr tree start, all, ih, later]

/-- What patterns find depends on the tree and on where relative paths start. -/
theorem files_congr : files k = files h := by
  funext base patterns
  unfold files
  congr 1
  induction patterns with
  | nil => rfl
  | cons pattern rest ih =>
    rw [matchesBelow, matchesBelow, ih]
    simp only [Plan.find, search_congr tree start, isFile_congr tree start]

end Congruence

/-! ## Entries of directories -/

section Entries

variable {h : Host} {p : Path} {name : String}

/-- An entry of the directory where the search starts is spelled by its name alone. -/
theorem childPath_cases (h : Host) (p : Path) (name : String) :
    (childPath p name = Path.entry ⟨""⟩ name ∧ ∀ l ∈ h.course p, l = h.workingDirectory) ∨
      childPath p name = p.entry name := by
  unfold childPath
  split
  · next same => exact .inl ⟨(Path.entry_empty name).symm, Host.course_of_same_here same⟩
  · exact .inr rfl

theorem namedLocation_childPath (h : Host) (p : Path) (hname : IsEntryName name) :
    h.namedLocation (childPath p name) = h.namedLocation p ++ [name] := by
  obtain ⟨child, here⟩ | child := childPath_cases h p name <;>
    rw [child, Host.namedLocation_entry h _ hname]
  rw [here _ (h.namedLocation_mem_course p), Host.namedLocation_empty]

/-- A path to an entry leads through the directory. -/
theorem mem_stops_childPath {l : Location} (slash : '/' ∉ name.toList) :
    l ∈ h.stops (childPath p name) ↔ l ∈ h.course p := by
  obtain ⟨child, here⟩ | child := childPath_cases h p name
  · rw [child, Path.entry_empty, Host.stops_of_pieces (List.splitOn_eq_singleton slash),
      List.mem_singleton]
    refine ⟨?_, here l⟩
    rintro rfl
    have place := h.namedLocation_mem_course p
    rwa [here _ place] at place
  · rw [child, Host.mem_stops_entry p slash, Host.mem_course]

theorem through_childPath (slash : '/' ∉ name.toList) : h.Through p (childPath p name) :=
  fun _ => (mem_stops_childPath slash).2

theorem through_entry (slash : '/' ∉ name.toList) : h.Through p (p.entry name) :=
  fun _ hl => (Host.mem_stops_entry p slash).2 (Host.mem_course.1 hl)

theorem stands_childPath_iff (hname : IsEntryName name) :
    h.Stands (childPath p name) ↔
      h.Opens p ∧ h.tree.node? (h.namedLocation p ++ [name]) ≠ none := by
  unfold Host.Stands Host.Opens
  simp only [mem_stops_childPath hname.slash, namedLocation_childPath h p hname]

theorem mem_names_iff (tidy : h.tree.Tidy) :
    name ∈ h.names p ↔ h.isDirectory p = true ∧ IsKeptName name ∧
      h.tree.node? (h.namedLocation p ++ [name]) ≠ none := by
  cases there : h.isDirectory p with
  | false => simp [Host.names_of_not_isDirectory there]
  | true =>
    rw [Host.names_of_isDirectory there, Tree.mem_names]
    simp only [true_and, iff_and_self]
    exact fun stands => tidy.kept stands name (by simp)

theorem below_of_not_isDirectory (other : h.isDirectory p = false) (fuel : Nat) :
    below h fuel p = [] := by
  cases fuel with
  | zero => rfl
  | succ fuel => rw [below, Host.names_of_not_isDirectory other, List.flatMap_nil]

/-- Below the last level of the tree nothing is found. -/
theorem below_succ (tidy : h.tree.Tidy) {fuel : Nat}
    (enough : h.tree.height ≤ (h.namedLocation p).length + fuel) :
    below h (fuel + 1) p = below h fuel p := by
  induction fuel generalizing p with
  | zero =>
    have none : h.names p = [] := by
      refine List.eq_nil_iff_forall_not_mem.2 fun name hname => ?_
      have deep := Tree.length_le_height ((mem_names_iff tidy).1 hname).2.2
      rw [List.length_append, List.length_singleton] at deep
      omega
    simp only [below, none, List.flatMap_nil]
  | succ fuel ih =>
    rw [below, below]
    refine List.flatMap_congr fun name hname => ?_
    have place := namedLocation_childPath h p ((mem_names_iff tidy).1 hname).2.1.entry
    rw [ih (by rw [place, List.length_append, List.length_singleton]; omega)]

theorem descendants_eq (tidy : h.tree.Tidy) {fuel : Nat} (enough : h.tree.height ≤ fuel) :
    descendants h p = below h fuel p := by
  induction fuel, enough using Nat.le_induction with
  | base => rfl
  | succ fuel enough ih => rw [ih, below_succ tidy (by omega)]

end Entries

/-! ## Where a search goes -/

section Course

variable {h k : Host} {p q : Path} (tidy : k.tree.Tidy)
include tidy

/-- What lies below a directory is reached through it. -/
theorem through_of_mem_below {fuel : Nat} (hq : q ∈ below k fuel p) : h.Through p q := by
  induction fuel generalizing p with
  | zero => cases hq
  | succ fuel ih =>
    obtain ⟨name, hname, hq⟩ := List.mem_flatMap.1 hq
    have onward : h.Through p (childPath p name) :=
      through_childPath ((mem_names_iff tidy).1 hname).2.1.entry.slash
    obtain rfl | later := List.mem_cons.1 hq
    · exact onward
    · exact onward.trans (ih later)

omit tidy in
theorem notMem_of_mem_specialNames {step : List Token} {name : String}
    (hname : name ∈ specialNames step) : '/' ∉ name.toList := by
  unfold specialNames at hname
  split at hname
  · have special := List.mem_of_mem_filter hname
    simp only [List.mem_cons, List.not_mem_nil, or_false] at special
    obtain rfl | rfl := special <;> decide
  · cases hname

/-- What a search finds is where it starts, or is reached through that. -/
theorem through_of_mem_search (directoriesOnly : Bool) :
    ∀ (steps : List (List Token)) (p q : Path), (∀ step ∈ steps, IsComponent step) →
      q ∈ search k directoriesOnly steps p → (steps = [] ∧ q = p) ∨ h.Through p q
  | [], p, q, _, hq => by
    rw [search] at hq
    split at hq
    · cases hq
    · exact .inl ⟨rfl, List.mem_singleton.1 hq⟩
  | step :: rest, p, q, components, hq => by
    obtain ⟨first, components⟩ := List.forall_mem_cons.1 components
    have onward (c : Path) (through : h.Through p c)
        (hq : q ∈ search k directoriesOnly rest c) : h.Through p q := by
      obtain ⟨-, rfl⟩ | further := through_of_mem_search directoriesOnly rest c q components hq
      · exact through
      · exact through.trans further
    right
    rw [search.eq_def] at hq
    dsimp only at hq
    cases spelled : literal? step with
    | some text =>
      rw [spelled] at hq
      have slash : '/' ∉ (String.ofList text).toList := by
        rw [String.toList_ofList]
        exact first text spelled
      refine onward _ (through_childPath slash) ?_
      revert hq
      dsimp only
      split <;> simp
    | none =>
      rw [spelled] at hq
      dsimp only at hq
      split at hq
      · cases hq
      split at hq
      · cases rest with
        | nil => exact through_of_mem_below tidy (List.mem_of_mem_filter hq)
        | cons next rest =>
          obtain ⟨c, hc, hq⟩ := List.mem_flatMap.1 hq
          have through : h.Through p c :=
            through_of_mem_below tidy (List.mem_of_mem_filter hc)
          have components := (List.forall_mem_cons.1 components).2
          obtain ⟨-, rfl⟩ | further :=
            through_of_mem_search directoriesOnly rest c q components hq
          · exact through
          · exact through.trans further
      · obtain hq | hq := List.mem_append.1 hq
        · obtain ⟨name, hname, hq⟩ := List.mem_flatMap.1 hq
          exact onward _ (through_entry (notMem_of_mem_specialNames hname)) hq
        · obtain ⟨name, hname, hq⟩ := List.mem_flatMap.1 hq
          have kept := ((mem_names_iff tidy).1 (List.mem_of_mem_filter hname)).2.1
          exact onward _ (through_childPath kept.entry.slash) hq

end Course

/-! ## What patterns find -/

section Patterns

variable {h : Host} {base p : Path} {pattern : String} {patterns : List String}
  {matched : List Path}

/-- A file that a pattern finds below a base. -/
def Matches (h : Host) (base : Path) (pattern : String) (p : Path) : Prop :=
  ∃ search, plan (patternBelow base pattern) = .ok search ∧ p ∈ search.find h ∧
    h.isFile p = true

theorem matchesBelow_cons_eq_ok_iff :
    matchesBelow h base (pattern :: patterns) = .ok matched ↔
      ∃ search others, plan (patternBelow base pattern) = .ok search ∧
        matchesBelow h base patterns = .ok others ∧
        (search.find h).filter h.isFile ++ others = matched := by
  rw [matchesBelow]
  cases planned : plan (patternBelow base pattern) with
  | error fault => simp
  | ok search =>
    simp only [Except.ok.injEq, exists_eq_left', map_eq_ok, exists_and_left]

/-- Patterns are searched for if each of them can be read, on any host. -/
theorem exists_matchesBelow_iff :
    (∃ matched, matchesBelow h base patterns = .ok matched) ↔
      ∀ pattern ∈ patterns, ∃ search, plan (patternBelow base pattern) = .ok search := by
  induction patterns with
  | nil => simp [matchesBelow]
  | cons pattern rest ih =>
    rw [List.forall_mem_cons, ← ih]
    constructor
    · rintro ⟨matched, all⟩
      obtain ⟨search, others, planned, later, -⟩ := matchesBelow_cons_eq_ok_iff.1 all
      exact ⟨⟨search, planned⟩, others, later⟩
    · rintro ⟨⟨search, planned⟩, others, later⟩
      exact ⟨_, matchesBelow_cons_eq_ok_iff.2 ⟨search, others, planned, later, rfl⟩⟩

theorem exists_files_iff :
    (∃ found, files h base patterns = .ok found) ↔
      ∀ pattern ∈ patterns, ∃ search, plan (patternBelow base pattern) = .ok search := by
  simp only [files, map_eq_ok, ← exists_matchesBelow_iff (h := h)]
  tauto

theorem mem_iff_of_matchesBelow (all : matchesBelow h base patterns = .ok matched) :
    p ∈ matched ↔ ∃ pattern ∈ patterns, Matches h base pattern p := by
  induction patterns generalizing matched with
  | nil =>
    obtain rfl := Except.ok.inj all
    simp
  | cons pattern rest ih =>
    obtain ⟨search, others, planned, later, rfl⟩ := matchesBelow_cons_eq_ok_iff.1 all
    have first : p ∈ (search.find h).filter h.isFile ↔ Matches h base pattern p := by
      simp [Matches, planned]
    rw [List.mem_append, first, ih later, List.exists_mem_cons_iff]

end Patterns

end Glob

end BuildPlanner
