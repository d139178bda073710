import BuildPlanner.Proofs.Reordering

/-!
# Which fault of declared projects is reported

`FirstFault` says which faults may be reported of a list of declared projects, without saying how
they are looked for.  References are told apart by their `Place`, and `Place.Before` is the order in
which they are read: project by project, and what a project uses before what it links.

* `find?_all_eq_some_iff`: the first reference of a kind is the one at the first place.
* `Reachability.reportedCycle_eq_some`: a reported cycle is all that reaches one node and is reached
  from it.
* `validate_verdict`: a fault that is reported is a first one, and where there is a first fault it is
  reported, or else another cycle is.
-/

namespace BuildPlanner

open Relation (TransGen)

/-- In a list in which each element comes before those after it, the first element with a property
is the one that has none with the property before it. -/
theorem find?_eq_some_iff_of_pairwise {α : Type} {before : α → α → Prop} {items : List α}
    (sorted : items.Pairwise before) (asymm : ∀ a b, before a b → ¬ before b a) {p : α → Bool}
    {x : α} :
    items.find? p = some x ↔
      x ∈ items ∧ p x = true ∧ ∀ y ∈ items, before y x → p y = false := by
  induction items with
  | nil => simp
  | cons first rest ih =>
    obtain ⟨least, sorted⟩ := List.pairwise_cons.1 sorted
    rw [List.find?_cons]
    cases holds : p first with
    | true =>
      constructor
      · rintro ⟨⟩
        refine ⟨List.mem_cons_self, holds, fun y hy earlier => ?_⟩
        obtain rfl | hy := List.mem_cons.1 hy
        · exact absurd earlier (asymm y y earlier)
        · exact absurd earlier (asymm x y (least y hy))
      · rintro ⟨hx, -, earlier⟩
        obtain rfl | hx := List.mem_cons.1 hx
        · rfl
        · have other := earlier first List.mem_cons_self (least x hx)
          rw [holds] at other
          cases other
    | false =>
      rw [ih sorted]
      constructor
      · rintro ⟨hx, found, earlier⟩
        exact ⟨List.mem_cons_of_mem _ hx, found, List.forall_mem_cons.2 ⟨fun _ => holds, earlier⟩⟩
      · rintro ⟨hx, found, earlier⟩
        obtain rfl | hx := List.mem_cons.1 hx
        · rw [holds] at found
          cases found
        · exact ⟨hx, found, (List.forall_mem_cons.1 earlier).2⟩

namespace References

variable {projects : List ProjectDefinition}

/-! ## The order in which references are read -/

/-- Where a reference stands. -/
structure Place where
  /-- The number of the project that refers. -/
  project : Nat
  /-- How it refers. -/
  kind : ReferenceKind
  /-- The number of the reference among those of the kind. -/
  number : Nat

/-- A place is read before another: the projects are read in order, and of each what it uses before
what it links. -/
def Place.Before (a b : Place) : Prop :=
  a.project < b.project ∨ a.project = b.project ∧
    (a.kind = .uses ∧ b.kind = .links ∨ a.kind = b.kind ∧ a.number < b.number)

/-- The project refers to the name at the place. -/
def RefersAt (projects : List ProjectDefinition) (place : Place) (d : ProjectDefinition)
    (name : String) : Prop :=
  projects[place.project]? = some d ∧ (place.kind.names d)[place.number]? = some name

/-- The first reference with a property is that of the project to the name. -/
def FirstReference (projects : List ProjectDefinition) (P : Place → String → Prop)
    (d : ProjectDefinition) (name : String) : Prop :=
  ∃ place, RefersAt projects place d name ∧ P place name ∧
    ∀ other e target, other.Before place → RefersAt projects other e target → ¬ P other target

theorem Place.Before.asymm (a b : Place) (h : a.Before b) : ¬ b.Before a := by
  obtain ⟨i, kind, m⟩ := a
  obtain ⟨j, kind', n⟩ := b
  unfold Place.Before at *
  cases kind <;> cases kind' <;> simp at * <;> omega

/-- The references of one kind of a project, with their places. -/
def placedOfKind (i : Nat) (d : ProjectDefinition) (kind : ReferenceKind) :
    List (Place × Reference) :=
  (kind.names d).zipIdx.map fun entry => (⟨i, kind, entry.2⟩, ⟨i, d.name, entry.1, kind⟩)

/-- All references in the order in which they are declared, with their places. -/
def placedAll (projects : List ProjectDefinition) : List (Place × Reference) :=
  projects.zipIdx.flatMap fun entry =>
    [ReferenceKind.uses, .links].flatMap (placedOfKind entry.2 entry.1)

theorem mem_placedAll {place : Place} {r : Reference} :
    (place, r) ∈ placedAll projects ↔
      ∃ d, RefersAt projects place d r.target ∧ r.source = place.project ∧ r.user = d.name ∧
        r.kind = place.kind := by
  obtain ⟨i, kind, n⟩ := place
  obtain ⟨source, user, target, kind'⟩ := r
  have kinds : kind ∈ [ReferenceKind.uses, .links] := by cases kind <;> simp
  simp only [placedAll, placedOfKind, RefersAt, List.mem_flatMap, List.mem_map, Prod.exists,
    List.mem_zipIdx_iff_getElem?, Prod.mk.injEq, Place.mk.injEq, Reference.mk.injEq]
  constructor
  · rintro ⟨d, i, hd, kind, -, name, n, hn, ⟨rfl, rfl, rfl⟩, rfl, rfl, rfl, rfl⟩
    exact ⟨d, ⟨hd, hn⟩, rfl, rfl, rfl⟩
  · rintro ⟨d, ⟨hd, hn⟩, rfl, rfl, rfl⟩
    exact ⟨d, _, hd, _, kinds, target, _, hn, ⟨rfl, rfl, rfl⟩, rfl, rfl, rfl, rfl⟩

theorem pairwise_placedAll : (placedAll projects).Pairwise fun a b => a.1.Before b.1 := by
  rw [placedAll, List.pairwise_flatMap]
  refine ⟨fun entry _ => ?_, (pairwise_zipIdx projects).imp fun earlier x hx y hy => ?_⟩
  · rw [List.pairwise_flatMap]
    refine ⟨fun kind _ => ?_, ?_⟩
    · rw [placedOfKind, List.pairwise_map]
      exact (pairwise_zipIdx _).imp fun earlier => .inr ⟨rfl, .inr ⟨rfl, earlier⟩⟩
    · rw [List.pairwise_pair]
      intro x hx y hy
      obtain ⟨_, -, rfl⟩ := List.mem_map.1 hx
      obtain ⟨_, -, rfl⟩ := List.mem_map.1 hy
      exact .inr ⟨rfl, .inl ⟨rfl, rfl⟩⟩
  · obtain ⟨kind, -, hx⟩ := List.mem_flatMap.1 hx
    obtain ⟨kind', -, hy⟩ := List.mem_flatMap.1 hy
    obtain ⟨_, -, rfl⟩ := List.mem_map.1 hx
    obtain ⟨_, -, rfl⟩ := List.mem_map.1 hy
    exact .inl earlier

theorem map_snd_placedOfKind (i : Nat) (d : ProjectDefinition) (kind : ReferenceKind) :
    (placedOfKind i d kind).map Prod.snd =
      (kind.names d).map fun name => ⟨i, d.name, name, kind⟩ := by
  conv_rhs => rw [← List.zipIdx_map_fst 0 (kind.names d)]
  rw [placedOfKind, List.map_map, List.map_map]
  rfl

theorem allFrom_eq (source : Nat) :
    allFrom source projects =
      (projects.zipIdx source).flatMap fun entry => ofProject entry.2 entry.1 := by
  induction projects generalizing source with
  | nil => rfl
  | cons d rest ih => rw [allFrom, ih, List.zipIdx_cons, List.flatMap_cons]

theorem map_snd_placedAll : (placedAll projects).map Prod.snd = all projects := by
  rw [all, allFrom_eq, placedAll, List.map_flatMap]
  refine List.flatMap_congr fun entry _ => ?_
  rw [List.map_flatMap]
  simp only [map_snd_placedOfKind]
  simp [ofProject, ReferenceKind.names]

/-- The first of all references with a property is the one at the first place. -/
theorem find?_all_eq_some_iff {p : Reference → Bool} {r : Reference} :
    (all projects).find? p = some r ↔
      ∃ place, (place, r) ∈ placedAll projects ∧ p r = true ∧
        ∀ other s, other.Before place → (other, s) ∈ placedAll projects → p s = false := by
  rw [← map_snd_placedAll, List.find?_map, Option.map_eq_some_iff]
  simp only [find?_eq_some_iff_of_pairwise pairwise_placedAll
    (fun a b => Place.Before.asymm a.1 b.1), Function.comp_apply, Prod.exists, Prod.forall]
  constructor
  · rintro ⟨place, _, ⟨mem, holds, earlier⟩, rfl⟩
    exact ⟨place, mem, holds, fun other s before hs => earlier other s hs before⟩
  · rintro ⟨place, mem, holds, earlier⟩
    exact ⟨place, r, ⟨mem, holds, fun other s hs before => earlier other s before hs⟩, rfl⟩

section Transfer

variable {p : Reference → Bool} {P : Place → String → Prop}
  (same : ∀ place r, (place, r) ∈ placedAll projects → (p r = true ↔ P place r.target))
include same

/-- A property of references that is one of their places and names is looked for in the order of the
places. -/
theorem exists_find?_all_iff {user name : String} :
    (∃ r, (all projects).find? p = some r ∧ r.user = user ∧ r.target = name) ↔
      ∃ d, d.name = user ∧ FirstReference projects P d name := by
  simp only [find?_all_eq_some_iff]
  constructor
  · rintro ⟨r, ⟨place, mem, holds, earlier⟩, rfl, rfl⟩
    obtain ⟨d, refers, -, user, -⟩ := mem_placedAll.1 mem
    refine ⟨d, user.symm, place, refers, (same place r mem).1 holds, ?_⟩
    intro other e target before there holds
    have mem : (other, ⟨other.project, e.name, target, other.kind⟩) ∈ placedAll projects :=
      mem_placedAll.2 ⟨e, there, rfl, rfl, rfl⟩
    have not := earlier other _ before mem
    rw [(same other _ mem).2 holds] at not
    cases not
  · rintro ⟨d, rfl, place, refers, holds, earlier⟩
    have mem : (place, ⟨place.project, d.name, name, place.kind⟩) ∈ placedAll projects :=
      mem_placedAll.2 ⟨d, refers, rfl, rfl, rfl⟩
    refine ⟨_, ⟨place, mem, (same place _ mem).2 holds, fun other s before hs => ?_⟩, rfl, rfl⟩
    obtain ⟨e, there, -, -, -⟩ := mem_placedAll.1 hs
    rw [← Bool.not_eq_true, same other s hs]
    exact earlier other e s.target before there

theorem find?_all_eq_none_iff :
    (all projects).find? p = none ↔
      ∀ place d name, RefersAt projects place d name → ¬ P place name := by
  rw [List.find?_eq_none, ← map_snd_placedAll]
  constructor
  · intro none place d name refers holds
    have mem : (place, ⟨place.project, d.name, name, place.kind⟩) ∈ placedAll projects :=
      mem_placedAll.2 ⟨d, refers, rfl, rfl, rfl⟩
    exact none _ (List.mem_map_of_mem mem) ((same place _ mem).2 holds)
  · intro none r hr holds
    obtain ⟨⟨place, r⟩, mem, rfl⟩ := List.mem_map.1 hr
    obtain ⟨d, refers, -, -, -⟩ := mem_placedAll.1 mem
    exact none place d r.target refers ((same place r mem).1 holds)

end Transfer

/-! ## Names and references -/

/-- The name that is repeated is that of the first name that occurred before. -/
theorem firstRepeated_eq_some_iff {earlier names : List String} {name : String} :
    firstRepeated earlier names = some name ↔
      ∃ before after, names = before ++ name :: after ∧ firstRepeated earlier before = none ∧
        (name ∈ before ∨ name ∈ earlier) := by
  induction names generalizing earlier with
  | nil => simp [firstRepeated]
  | cons first names ih =>
    by_cases repeated : earlier.contains first = true
    · rw [firstRepeated, if_pos repeated]
      constructor
      · rintro ⟨⟩
        exact ⟨[], names, rfl, rfl, .inr (by simpa using repeated)⟩
      · rintro ⟨before, after, split, fresh, -⟩
        cases before with
        | nil =>
          obtain ⟨rfl, -⟩ := by simpa using split
          rfl
        | cons other before =>
          obtain ⟨rfl, -⟩ := by simpa using split
          rw [firstRepeated, if_pos repeated] at fresh
          cases fresh
    · rw [firstRepeated, if_neg repeated, ih]
      constructor
      · rintro ⟨before, after, rfl, fresh, again⟩
        refine ⟨first :: before, after, rfl, ?_, by simpa [or_assoc, or_left_comm] using again⟩
        rwa [firstRepeated, if_neg repeated]
      · rintro ⟨before, after, split, fresh, again⟩
        cases before with
        | nil =>
          obtain ⟨rfl, -⟩ := by simpa using split
          exact absurd again (by simpa using repeated)
        | cons other before =>
          obtain ⟨rfl, rfl⟩ := by simpa using split
          rw [firstRepeated, if_neg repeated] at fresh
          exact ⟨before, after, rfl, fresh, by simpa [or_assoc, or_left_comm] using again⟩

/-- No project has the name. -/
def Unknown (projects : List ProjectDefinition) (name : String) : Prop :=
  ∀ e ∈ projects, e.name ≠ name

/-- The name is that of no project, or that of an executable and is linked. -/
def Misdirected (projects : List ProjectDefinition) (place : Place) (name : String) : Prop :=
  Unknown projects name ∨
    place.kind = .links ∧ ∃ e ∈ projects, e.name = name ∧ e.kind = .executable

/-- The name is that of a project that is declared after the one that refers to it. -/
def Late (projects : List ProjectDefinition) (place : Place) (name : String) : Prop :=
  ∃ j e, place.project < j ∧ projects[j]? = some e ∧ e.name = name

theorem edges_eq_error_iff {rs : List Reference} {fault : ModelError} :
    edges projects rs = .error fault ↔
      ∃ r, rs.find? (fun r => (edge projects r).toOption.isNone) = some r ∧
        edge projects r = .error fault := by
  induction rs with
  | nil => simp [edges]
  | cons r rest ih =>
    rw [edges, bind_eq_error]
    cases made : edge projects r with
    | error other =>
      have absent : (edge projects r).toOption.isNone = true := by
        rw [made]
        rfl
      rw [List.find?_cons_of_pos (by exact absent)]
      simp [made]
    | ok e =>
      have present : ¬ (edge projects r).toOption.isNone = true := by
        rw [made]
        exact Bool.false_ne_true
      have others : (edges projects rest >>= fun es => pure (e :: es)) = .error fault ↔
          edges projects rest = .error fault := by
        rw [bind_eq_error]
        simp [pure, Except.pure]
      rw [List.find?_cons_of_neg (by exact present), ← ih, ← others]
      simp

/-- Where the names differ, what is wrong with a reference. -/
theorem edge_eq_error_iff (nodup : (projects.map (·.name)).Nodup) {r : Reference}
    {fault : ModelError} :
    edge projects r = .error fault ↔
      (Unknown projects r.target ∧ fault = .unknownReference r.user r.target) ∨
      (r.kind = .links ∧ ∃ e ∈ projects, e.name = r.target ∧ e.kind = .executable) ∧
        fault = .notALibrary r.user r.target := by
  unfold edge
  rw [find?_eq_getElem?_findIdx?]
  cases found : projects.findIdx? (·.name == r.target) with
  | none =>
    have unknown : Unknown projects r.target := by
      simpa [Unknown] using List.findIdx?_eq_none_iff.1 found
    have absent : ¬ ∃ e ∈ projects, e.name = r.target ∧ e.kind = .executable :=
      fun ⟨e, he, same, _⟩ => unknown e he same
    simp only [unknown, absent, true_and, and_false, false_and, or_false, Except.error.injEq]
    exact eq_comm
  | some number =>
    obtain ⟨bound, same, -⟩ := List.findIdx?_eq_some_iff_getElem.1 found
    simp only [beq_iff_eq] at same
    have known : ¬ Unknown projects r.target :=
      fun unknown => unknown _ (List.getElem_mem bound) same
    have executable : (∃ e ∈ projects, e.name = r.target ∧ e.kind = .executable) ↔
        projects[number].kind = .executable := by
      constructor
      · rintro ⟨e, he, named, kind⟩
        rwa [List.inj_on_of_nodup_map nodup (List.getElem_mem bound) he (same.trans named.symm)]
      · exact fun kind => ⟨_, List.getElem_mem bound, same, kind⟩
    rw [executable, Option.bind_some, List.getElem?_eq_getElem bound]
    simp only [known, false_and, false_or, ProjectDefinition.isLibrary, Bool.and_eq_true,
      decide_eq_true_eq, Bool.not_eq_true', bne_eq_false_iff_eq]
    split
    · next bad => simp [bad, eq_comm]
    · next good => simp [good]

theorem isNone_edge_iff (nodup : (projects.map (·.name)).Nodup) (place : Place) (r : Reference)
    (mem : (place, r) ∈ placedAll projects) :
    (edge projects r).toOption.isNone = true ↔ Misdirected projects place r.target := by
  obtain ⟨d, -, -, -, kind⟩ := mem_placedAll.1 mem
  rw [Misdirected, ← kind]
  constructor
  · intro none
    obtain ⟨fault, failed⟩ := exists_eq_error none
    exact ((edge_eq_error_iff nodup).1 failed).imp And.left And.left
  · intro misdirected
    obtain ⟨fault, failed⟩ : ∃ fault, edge projects r = .error fault := by
      obtain unknown | executable := misdirected
      · exact ⟨_, (edge_eq_error_iff nodup).2 (.inl ⟨unknown, rfl⟩)⟩
      · exact ⟨_, (edge_eq_error_iff nodup).2 (.inr ⟨executable, rfl⟩)⟩
    rw [failed]
    rfl

/-- No name is misdirected. -/
def WellDirected (projects : List ProjectDefinition) : Prop :=
  ∀ place d name, RefersAt projects place d name → ¬ Misdirected projects place name

theorem edges_all_eq_error_iff (nodup : (projects.map (·.name)).Nodup) {fault : ModelError} :
    edges projects (all projects) = .error fault ↔
      ∃ d name, FirstReference projects (Misdirected projects) d name ∧
        (Unknown projects name ∧ fault = .unknownReference d.name name ∨
          ¬ Unknown projects name ∧ fault = .notALibrary d.name name) := by
  have same := isNone_edge_iff nodup
  -- The first reference that leads nowhere, with what is wrong with it.
  rw [edges_eq_error_iff]
  constructor
  · rintro ⟨r, found, failed⟩
    obtain ⟨d, user, first⟩ := (exists_find?_all_iff same).1 ⟨r, found, rfl, rfl⟩
    refine ⟨d, r.target, first, ?_⟩
    obtain ⟨unknown, rfl⟩ | ⟨⟨-, e, he, named, -⟩, rfl⟩ := (edge_eq_error_iff nodup).1 failed
    · exact .inl ⟨unknown, by rw [user]⟩
    · exact .inr ⟨fun unknown => unknown e he named, by rw [user]⟩
  · rintro ⟨d, name, first, wrong⟩
    obtain ⟨r, found, user, rfl⟩ := (exists_find?_all_iff same).2 ⟨d, rfl, first⟩
    refine ⟨r, found, (edge_eq_error_iff nodup).2 ?_⟩
    rw [user]
    obtain ⟨unknown, rfl⟩ | ⟨known, rfl⟩ := wrong
    · exact .inl ⟨unknown, rfl⟩
    · obtain ⟨place, mem, failed, -⟩ := find?_all_eq_some_iff.1 found
      obtain ⟨-, -, -, -, kind⟩ := mem_placedAll.1 mem
      obtain unknown | executable := (same place r mem).1 failed
      · exact absurd unknown known
      · exact .inr ⟨by rwa [kind], rfl⟩

theorem exists_edges_all_iff (nodup : (projects.map (·.name)).Nodup) :
    (∃ es, edges projects (all projects) = .ok es) ↔ WellDirected projects := by
  rw [WellDirected, ← find?_all_eq_none_iff (isNone_edge_iff nodup)]
  cases made : edges projects (all projects) with
  | error fault =>
    obtain ⟨r, found, -⟩ := edges_eq_error_iff.1 made
    simp [found]
  | ok es =>
    refine iff_of_true ⟨es, rfl⟩ ?_
    cases found : (all projects).find? fun r => (edge projects r).toOption.isNone with
    | none => rfl
    | some r =>
      have none := List.find?_some found
      obtain ⟨fault, failed⟩ := exists_eq_error none
      have broken := edges_eq_error_iff.2 ⟨r, found, failed⟩
      rw [made] at broken
      cases broken

/-! ## The order of the projects -/

/-- Whether a reference leads to a project that is declared later. -/
def isLate (projects : List ProjectDefinition) (r : Reference) : Bool :=
  r.source < projects.findIdx (·.name == r.target)

theorem edges_eq_map {rs : List Reference} {es : List Edge} (made : edges projects rs = .ok es) :
    es = rs.map fun r => ⟨r.source, projects.findIdx (·.name == r.target)⟩ := by
  have each := edges_eq_ok_iff.1 made
  rw [← List.forall₂_eq_eq_eq, List.forall₂_map_right_iff]
  refine each.flip.imp fun e r one => ?_
  obtain ⟨source, found, -⟩ := edge_eq_ok_iff.1 one
  obtain ⟨-, target⟩ := List.findIdx?_eq_some_iff_findIdx_eq.1 found
  rw [target, ← source]

theorem isLate_iff (nodup : (projects.map (·.name)).Nodup) (directed : WellDirected projects)
    (place : Place) (r : Reference) (mem : (place, r) ∈ placedAll projects) :
    isLate projects r = true ↔ Late projects place r.target := by
  obtain ⟨d, refers, source, -, -⟩ := mem_placedAll.1 mem
  have known : ∃ e ∈ projects, e.name = r.target := by
    by_contra unknown
    exact directed place d r.target refers (.inl fun e he same => unknown ⟨e, he, same⟩)
  have bound : projects.findIdx (·.name == r.target) < projects.length :=
    List.findIdx_lt_length_of_exists (by simpa using known)
  have named : projects[projects.findIdx (·.name == r.target)].name = r.target := by
    simpa using List.findIdx_getElem (w := bound)
  rw [isLate, decide_eq_true_iff, source]
  constructor
  · intro late
    exact ⟨_, _, late, List.getElem?_eq_getElem bound, named⟩
  · rintro ⟨j, e, late, he, same⟩
    rwa [eq_of_name_eq nodup (List.getElem?_eq_getElem bound) he (named.trans same.symm)]

theorem nameOf_of_getElem? {i : Nat} {d : ProjectDefinition} (h : projects[i]? = some d) :
    nameOf projects i = d.name := by
  rw [nameOf, h]
  rfl

/-- The first edge to a later project is that of the first reference to one. -/
theorem exists_find?_late_iff (nodup : (projects.map (·.name)).Nodup)
    (directed : WellDirected projects) {es : List Edge}
    (made : edges projects (all projects) = .ok es) {user name : String} :
    (∃ e, es.find? (fun e => e.source < e.target) = some e ∧
        nameOf projects e.source = user ∧ nameOf projects e.target = name) ↔
      ∃ d, d.name = user ∧ FirstReference projects (Late projects) d name := by
  have names {r : Reference} (hr : r ∈ all projects) : nameOf projects r.source = r.user ∧
      nameOf projects (projects.findIdx (·.name == r.target)) = r.target := by
    rw [← map_snd_placedAll] at hr
    obtain ⟨⟨place, r⟩, mem, rfl⟩ := List.mem_map.1 hr
    obtain ⟨d, refers, source, user, -⟩ := mem_placedAll.1 mem
    have hr : r ∈ all projects := map_snd_placedAll ▸ List.mem_map_of_mem mem
    obtain ⟨e, -, one⟩ := exists_edge_of_mem made hr
    obtain ⟨-, found, target, ht, named, -⟩ := edge_eq_ok_iff.1 one
    obtain ⟨-, number⟩ := List.findIdx?_eq_some_iff_findIdx_eq.1 found
    exact ⟨(nameOf_of_getElem? (source ▸ refers.1)).trans user.symm,
      (nameOf_of_getElem? (number.symm ▸ ht)).trans named⟩
  rw [← exists_find?_all_iff (isLate_iff nodup directed), edges_eq_map made, List.find?_map]
  simp only [Option.map_eq_some_iff]
  constructor
  · rintro ⟨_, ⟨r, found, rfl⟩, rfl, rfl⟩
    obtain ⟨user, target⟩ := names (List.mem_of_find?_eq_some found)
    exact ⟨r, found, user.symm, target.symm⟩
  · rintro ⟨r, found, rfl, rfl⟩
    obtain ⟨user, target⟩ := names (List.mem_of_find?_eq_some found)
    exact ⟨_, ⟨r, found, rfl⟩, user, target⟩

/-! ## Cycles -/

theorem eq_map_range (projects : List ProjectDefinition) :
    projects = (List.range projects.length).map fun i => projects.getD i default := by
  refine List.ext_getElem (by simp) fun i h _ => ?_
  rw [List.getElem_map, List.getElem_range, List.getD_eq_getElem _ _ h]

/-- Where no project is declared twice, it is the same to follow numbers and projects. -/
theorem transGen_refers_iff (distinct : projects.Nodup) {i j : Nat} (hi : i < projects.length)
    (hj : j < projects.length) :
    TransGen (Refers projects) i j ↔
      TransGen (Needs projects) (projects.getD i default) (projects.getD j default) := by
  constructor
  · exact TransGen.lift (fun i => projects.getD i default)
      (fun _ _ refers => needs_of_refers refers) _ _
  · intro ways
    have ways := TransGen.lift projects.idxOf (fun _ _ needs => refers_of_needs needs) _ _ ways
    rwa [List.getD_eq_getElem _ _ hi, List.getD_eq_getElem _ _ hj, Function.onFun,
      distinct.idxOf_getElem, distinct.idxOf_getElem] at ways

/-- The projects of a reported cycle are those that one of them needs and that need it. -/
theorem exists_component {es : List Edge} (nodup : (projects.map (·.name)).Nodup)
    (made : edges projects (all projects) = .ok es) {members : List Nat}
    (reported : Reachability.reportedCycle (targets es) projects.length = some members) :
    ∃ (component : List ProjectDefinition) (root : ProjectDefinition),
      component.Sublist projects ∧ TransGen (Needs projects) root root ∧
      (∀ d, d ∈ component ↔
        TransGen (Needs projects) root d ∧ TransGen (Needs projects) d root) ∧
      cycleNames projects members = (component ++ component.head?.toList).map (·.name) := by
  obtain ⟨order, root, cyclic, mem⟩ := Reachability.reportedCycle_eq_some reported
  rw [leads_iff_refers nodup made] at cyclic mem
  have distinct : projects.Nodup := nodup.of_map _
  have bound {i : Nat} (hi : i ∈ members) : i < projects.length :=
    List.mem_range.1 (order.subset hi)
  have here : root < projects.length := bound ((mem root).2 ⟨cyclic, cyclic⟩)
  refine ⟨members.map fun i => projects.getD i default, projects.getD root default, ?_,
    (transGen_refers_iff distinct here here).1 cyclic, fun d => ?_, ?_⟩
  · conv_rhs => rw [eq_map_range projects]
    exact order.map _
  · rw [List.mem_map]
    constructor
    · rintro ⟨i, hi, rfl⟩
      obtain ⟨there, back⟩ := (mem i).1 hi
      exact ⟨(transGen_refers_iff distinct here (bound hi)).1 there,
        (transGen_refers_iff distinct (bound hi) here).1 back⟩
    · rintro ⟨there, back⟩
      obtain ⟨_, first, -⟩ := TransGen.head'_iff.1 back
      obtain ⟨i, hi, rfl⟩ := List.getElem_of_mem first.1
      rw [← List.getD_eq_getElem projects default hi] at there back
      exact ⟨i, (mem i).2 ⟨(transGen_refers_iff distinct here hi).2 there,
        (transGen_refers_iff distinct hi here).2 back⟩, List.getD_eq_getElem _ _ hi⟩
  · have named : ∀ i ∈ members ++ members.head?.toList,
        nameOf projects i = (projects.getD i default).name := by
      intro i hi
      have hi : i ∈ members := (List.mem_append.1 hi).elim id fun first =>
        List.mem_of_mem_head? (Option.mem_toList.1 first)
      rw [nameOf_of_getElem? (List.getElem?_eq_getElem (bound hi)),
        List.getD_eq_getElem _ _ (bound hi)]
    rw [cycleNames, List.map_congr_left named, List.head?_map, Option.toList_map,
      ← List.map_append, List.map_map]
    rfl

/-! ## The first fault -/

/-- The faults that may be reported of declared projects: of each the first of its kind, where no
fault of an earlier kind applies. -/
inductive FirstFault (projects : List ProjectDefinition) : ModelError → Prop
  | duplicateProject {before after : List ProjectDefinition} {d : ProjectDefinition}
      (split : projects = before ++ d :: after) (fresh : (before.map (·.name)).Nodup)
      (again : d.name ∈ before.map (·.name)) :
      FirstFault projects (.duplicateProject d.name)
  | unknownReference {d : ProjectDefinition} {name : String}
      (nodup : (projects.map (·.name)).Nodup)
      (first : FirstReference projects (Misdirected projects) d name)
      (unknown : Unknown projects name) :
      FirstFault projects (.unknownReference d.name name)
  | notALibrary {d : ProjectDefinition} {name : String}
      (nodup : (projects.map (·.name)).Nodup)
      (first : FirstReference projects (Misdirected projects) d name)
      (known : ¬ Unknown projects name) :
      FirstFault projects (.notALibrary d.name name)
  /-- The projects of a cycle are all that one of them needs and that need it. -/
  | cycle {component : List ProjectDefinition} {root : ProjectDefinition}
      (nodup : (projects.map (·.name)).Nodup) (directed : WellDirected projects)
      (order : component.Sublist projects) (cyclic : TransGen (Needs projects) root root)
      (members : ∀ d, d ∈ component ↔
        TransGen (Needs projects) root d ∧ TransGen (Needs projects) d root) :
      FirstFault projects (.cycle ((component ++ component.head?.toList).map (·.name)))
  | outOfOrder {d : ProjectDefinition} {name : String}
      (nodup : (projects.map (·.name)).Nodup) (directed : WellDirected projects)
      (acyclic : ∀ d, ¬ TransGen (Needs projects) d d)
      (first : FirstReference projects (Late projects) d name) :
      FirstFault projects (.outOfOrder d.name name)

theorem firstRepeated_names_eq_some_iff {name : String} :
    firstRepeated [] (projects.map (·.name)) = some name ↔
      ∃ before d after, projects = before ++ d :: after ∧ (before.map (·.name)).Nodup ∧
        d.name = name ∧ name ∈ before.map (·.name) := by
  simp only [firstRepeated_eq_some_iff, firstRepeated_eq_none_iff, List.not_mem_nil,
    not_false_eq_true, implies_true, and_true, or_false]
  constructor
  · rintro ⟨names, others, split, fresh, again⟩
    obtain ⟨before, rest, rfl, rfl, same⟩ := List.map_eq_append_iff.1 split
    obtain ⟨d, after, rfl, rfl, rfl⟩ := List.map_eq_cons_iff.1 same
    exact ⟨before, d, after, rfl, fresh, rfl, again⟩
  · rintro ⟨before, d, after, rfl, fresh, rfl, again⟩
    exact ⟨_, after.map (·.name), by simp, fresh, again⟩

theorem firstRepeated_names_eq_none_iff :
    firstRepeated [] (projects.map (·.name)) = none ↔ (projects.map (·.name)).Nodup := by
  simp [firstRepeated_eq_none_iff]

theorem firstFault_of_validate {fault : ModelError} (h : validate projects = .error fault) :
    FirstFault projects fault := by
  rw [validate] at h
  cases repeated : firstRepeated [] (projects.map (·.name)) with
  | some name =>
    rw [repeated] at h
    cases h
    obtain ⟨before, d, after, split, fresh, rfl, again⟩ :=
      firstRepeated_names_eq_some_iff.1 repeated
    exact .duplicateProject split fresh again
  | none =>
    rw [repeated] at h
    have nodup := firstRepeated_names_eq_none_iff.1 repeated
    cases made : edges projects (all projects) with
    | error other =>
      rw [made] at h
      cases h
      obtain ⟨d, name, first, ⟨unknown, rfl⟩ | ⟨known, rfl⟩⟩ := (edges_all_eq_error_iff nodup).1 made
      · exact .unknownReference nodup first unknown
      · exact .notALibrary nodup first known
    | ok es =>
      rw [made] at h
      have directed := (exists_edges_all_iff nodup).1 ⟨es, made⟩
      cases search : Reachability.reportedCycle (targets es) projects.length with
      | some members =>
        simp only [search] at h
        cases h
        obtain ⟨component, root, order, cyclic, mem, names⟩ := exists_component nodup made search
        rw [names]
        exact .cycle nodup directed order cyclic mem
      | none =>
        simp only [search] at h
        have acyclic := ((orderable_iff nodup made).2 search).acyclic
        split at h
        · next e late =>
          cases h
          obtain ⟨d, user, first⟩ :=
            (exists_find?_late_iff nodup directed made).1 ⟨e, late, rfl, rfl⟩
          rw [← user]
          exact .outOfOrder nodup directed acyclic first
        · cases h

/-- A cycle is reported where names and references are right and some project needs itself. -/
theorem exists_validate_eq_cycle_iff :
    (∃ names, validate projects = .error (.cycle names)) ↔
      (projects.map (·.name)).Nodup ∧ WellDirected projects ∧
        ∃ d, TransGen (Needs projects) d d := by
  constructor
  · rintro ⟨names, h⟩
    cases firstFault_of_validate h with
    | cycle nodup directed order cyclic members => exact ⟨nodup, directed, _, cyclic⟩
  · rintro ⟨nodup, directed, root, cyclic⟩
    obtain ⟨es, made⟩ := (exists_edges_all_iff nodup).2 directed
    cases search : Reachability.reportedCycle (targets es) projects.length with
    | none => exact absurd cyclic (((orderable_iff nodup made).2 search).acyclic root)
    | some members =>
      refine ⟨cycleNames projects members, ?_⟩
      simp only [validate, firstRepeated_names_eq_none_iff.2 nodup, made, search]

/-- A first fault that is no cycle is the one that is reported. -/
theorem validate_of_firstFault {fault : ModelError} (h : FirstFault projects fault)
    (other : ∀ names, fault ≠ .cycle names) : validate projects = .error fault := by
  cases h with
  | duplicateProject split fresh again =>
    have repeated := firstRepeated_names_eq_some_iff.2 ⟨_, _, _, split, fresh, rfl, again⟩
    rw [validate, repeated]
  | @unknownReference d name nodup first unknown =>
    have failed := (edges_all_eq_error_iff nodup).2 ⟨d, name, first, .inl ⟨unknown, rfl⟩⟩
    rw [validate, firstRepeated_names_eq_none_iff.2 nodup, failed]
  | @notALibrary d name nodup first known =>
    have failed := (edges_all_eq_error_iff nodup).2 ⟨d, name, first, .inr ⟨known, rfl⟩⟩
    rw [validate, firstRepeated_names_eq_none_iff.2 nodup, failed]
  | cycle nodup directed order cyclic members => exact absurd rfl (other _)
  | @outOfOrder d name nodup directed acyclic first =>
    obtain ⟨es, made⟩ := (exists_edges_all_iff nodup).2 directed
    have orderable : Orderable projects :=
      ⟨nodup, known_of_edges made, linkable_of_edges nodup made, acyclic⟩
    obtain ⟨e, late, user, target⟩ :=
      (exists_find?_late_iff nodup directed made).2 ⟨d, rfl, first⟩
    simp only [validate, firstRepeated_names_eq_none_iff.2 nodup, made,
      (orderable_iff nodup made).1 orderable, late, user, target]

/-- A fault that is reported is the first of the first kind that applies.  A first fault of another
kind than a cycle is the one that is reported, and a cycle is reported exactly where none of the
kinds before it applies and some project needs itself. -/
theorem validate_verdict (projects : List ProjectDefinition) :
    (∀ fault, validate projects = .error fault → FirstFault projects fault) ∧
    (∀ fault, FirstFault projects fault → (∀ names, fault ≠ .cycle names) →
      validate projects = .error fault) ∧
    ((∃ names, validate projects = .error (.cycle names)) ↔
      (projects.map (·.name)).Nodup ∧ WellDirected projects ∧
        ∃ d, TransGen (Needs projects) d d) :=
  ⟨fun _ h => firstFault_of_validate h, fun _ h other => validate_of_firstFault h other,
    exists_validate_eq_cycle_iff⟩

/-- Two cycles, of which one is a project that needs itself, and a reference to a later project. -/
def knottedProjects : List ProjectDefinition :=
  [{ name := "app", kind := .executable, uses := ["core"], links := ["log"] },
    { name := "log", kind := .staticLibrary, uses := ["log"] },
    { name := "core", kind := .staticLibrary, uses := ["net", "log"] },
    { name := "api", kind := .headerOnly },
    { name := "net", kind := .staticLibrary, uses := ["api"], links := ["core"] }]

theorem validate_verdict_knottedProjects :
    validate knottedProjects = .error (.cycle ["log", "log"]) ∧
      FirstFault knottedProjects (.cycle ["log", "log"]) ∧
      FirstFault lateLibraries (.outOfOrder "app" "api") := by
  have knotted : validate knottedProjects = .error (.cycle ["log", "log"]) := by cbv
  have late : validate lateLibraries = .error (.outOfOrder "app" "api") := by cbv
  exact ⟨knotted, (validate_verdict knottedProjects).1 _ knotted,
    (validate_verdict lateLibraries).1 _ late⟩

end References

end BuildPlanner
