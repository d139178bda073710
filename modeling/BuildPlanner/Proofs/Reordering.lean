import BuildPlanner.Proofs.References

/-!
# Which faults another order mends

What is wrong with a list of declared projects is either in the projects themselves or only in
their order.  `Orderable` says what the projects have to be whatever their order: the names differ,
references lead to declared projects, only libraries are linked, and no project needs itself.

* `exists_perm_validate_eq_ok_iff`: exactly the orderable projects have an order that is accepted.
  They are sorted by the number of projects that each one needs; a project needs strictly more than
  the projects it refers to.
* `validate_eq_error`: what each fault says about the projects.
* `exists_perm_validate_iff`: another order mends a fault exactly if it is the fault of the order.
-/

namespace BuildPlanner.References

open Relation (TransGen)

variable {projects others : List ProjectDefinition}

/-- One of the declared projects refers to another. -/
def Needs (projects : List ProjectDefinition) (d e : ProjectDefinition) : Prop :=
  d ∈ projects ∧ e ∈ projects ∧ e.name ∈ d.uses ++ d.links

/-- What declared projects have to be, whatever their order. -/
structure Orderable (projects : List ProjectDefinition) : Prop where
  nodup : (projects.map (·.name)).Nodup
  /-- Every name that is referred to is declared. -/
  known : ∀ d ∈ projects, ∀ name ∈ d.uses ++ d.links, ∃ e ∈ projects, e.name = name
  /-- No executable is linked. -/
  linkable : ∀ d ∈ projects, ∀ name ∈ d.links, ∀ e ∈ projects, e.name = name →
    e.kind ≠ .executable
  /-- No project needs itself, directly or through others. -/
  acyclic : ∀ d, ¬ TransGen (Needs projects) d d

/-! ## Projects and their numbers -/

theorem needs_of_refers {i j : Nat} (h : Refers projects i j) :
    Needs projects (projects.getD i default) (projects.getD j default) := by
  obtain ⟨d, e, hi, hj, name⟩ := h
  rw [List.getD_eq_getElem?_getD, List.getD_eq_getElem?_getD, hi, hj]
  exact ⟨List.mem_of_getElem? hi, List.mem_of_getElem? hj, name⟩

theorem getElem?_idxOf {d : ProjectDefinition} (h : d ∈ projects) :
    projects[projects.idxOf d]? = some d := by
  rw [List.getElem?_eq_getElem (List.idxOf_lt_length_iff.2 h), List.getElem_idxOf]

theorem refers_of_needs {d e : ProjectDefinition} (h : Needs projects d e) :
    Refers projects (projects.idxOf d) (projects.idxOf e) :=
  ⟨d, e, getElem?_idxOf h.1, getElem?_idxOf h.2.1, h.2.2⟩

/-- It is the same to look for cycles among the numbers and among the projects. -/
theorem acyclic_needs_iff :
    (∀ d, ¬ TransGen (Needs projects) d d) ↔ ∀ i, ¬ TransGen (Refers projects) i i := by
  constructor
  -- A chain of one kind is carried over to the other, project by project; a project that is declared
  -- twice is looked up at its first place.
  · intro acyclic i ways
    exact acyclic _ (TransGen.lift (fun i => projects.getD i default)
      (fun _ _ refers => needs_of_refers refers) _ _ ways)
  · intro acyclic d ways
    exact acyclic _ (TransGen.lift projects.idxOf (fun _ _ needs => refers_of_needs needs) _ _ ways)

/-! ## What the checks say about the projects -/

/-- The projects are orderable exactly if the checks before that of the order find no fault. -/
theorem orderable_iff (nodup : (projects.map (·.name)).Nodup) {es : List Edge}
    (made : edges projects (all projects) = .ok es) :
    Orderable projects ↔ Reachability.reportedCycle (targets es) projects.length = none := by
  rw [Reachability.reportedCycle_eq_none_iff, leads_iff_refers nodup made, ← acyclic_needs_iff]
  constructor
  · exact Orderable.acyclic
  · intro acyclic
    exact ⟨nodup, known_of_edges made, linkable_of_edges nodup made, acyclic⟩

theorem validate_eq_ok_iff_orderable :
    validate projects = .ok () ↔
      Orderable projects ∧ ∀ i j, Refers projects i j → j ≤ i := by
  rw [validate_eq_ok_iff_passes]
  constructor
  · rintro ⟨nodup, es, made, search, ordered⟩
    refine ⟨(orderable_iff nodup made).2 search, fun i j refers => ?_⟩
    exact ordered _ ((mem_edges_iff nodup made).2 refers)
  · rintro ⟨orderable, ordered⟩
    obtain ⟨es, made⟩ := exists_edges_all orderable.known orderable.linkable
    refine ⟨orderable.nodup, es, made, (orderable_iff orderable.nodup made).1 orderable, ?_⟩
    exact fun e he => ordered _ _ ((mem_edges_iff orderable.nodup made).1 he)

/-- What projects have to be whatever their order does not depend on the order. -/
theorem Orderable.perm (h : Orderable projects) (same : others.Perm projects) :
    Orderable others where
  nodup := (same.map _).nodup_iff.2 h.nodup
  known d hd name hname := by
    obtain ⟨e, he, named⟩ := h.known d (same.mem_iff.1 hd) name hname
    exact ⟨e, same.mem_iff.2 he, named⟩
  linkable d hd name hname e he named :=
    h.linkable d (same.mem_iff.1 hd) name hname e (same.mem_iff.1 he) named
  acyclic d ways := by
    have needed (d e : ProjectDefinition) (needs : Needs others d e) : Needs projects d e :=
      ⟨same.mem_iff.1 needs.1, same.mem_iff.1 needs.2.1, needs.2.2⟩
    exact h.acyclic d (TransGen.mono needed d d ways)

/-! ## The order that is found -/

section Rank

open scoped Classical in
/-- The number of projects that a project needs, directly or through others. -/
noncomputable def rank (projects : List ProjectDefinition) (d : ProjectDefinition) : Nat :=
  (projects.toFinset.filter (TransGen (Needs projects) d)).card

/-- A project needs what the projects need that it refers to, and those projects too. -/
theorem Orderable.rank_lt (h : Orderable projects) {d e : ProjectDefinition}
    (needs : Needs projects d e) : rank projects e < rank projects d := by
  classical
  -- All that `e` needs is needed by `d`, and `e` itself is needed by `d` only.
  refine Finset.card_lt_card (Finset.ssubset_iff_of_subset ?_ |>.2 ⟨e, ?_, ?_⟩)
  · intro f hf
    rw [Finset.mem_filter] at hf ⊢
    exact ⟨hf.1, .head needs hf.2⟩
  · exact Finset.mem_filter.2 ⟨List.mem_toFinset.2 needs.2.1, .single needs⟩
  · intro he
    exact h.acyclic e (Finset.mem_filter.1 he).2

noncomputable def byRank (projects : List ProjectDefinition) : List ProjectDefinition :=
  projects.mergeSort fun d e => decide (rank projects d ≤ rank projects e)

theorem byRank_perm (projects : List ProjectDefinition) : (byRank projects).Perm projects :=
  List.mergeSort_perm _ _

theorem pairwise_byRank (projects : List ProjectDefinition) :
    (byRank projects).Pairwise fun d e => rank projects d ≤ rank projects e := by
  have sorts : (byRank projects).Pairwise fun d e =>
      decide (rank projects d ≤ rank projects e) = true :=
    List.pairwise_mergeSort
      (fun d e f hde hef => by simp only [decide_eq_true_eq] at *; omega)
      (fun d e => by simp only [Bool.or_eq_true, decide_eq_true_eq]; omega) projects
  exact sorts.imp fun h => of_decide_eq_true h

theorem Orderable.le_of_refers_byRank (h : Orderable projects) {i j : Nat}
    (refers : Refers (byRank projects) i j) : j ≤ i := by
  obtain ⟨d, e, hi, hj, name⟩ := refers
  have mem {k : Nat} {f : ProjectDefinition} (hk : (byRank projects)[k]? = some f) :
      f ∈ projects := (byRank_perm projects).mem_iff.1 (List.mem_of_getElem? hk)
  have lower : rank projects e < rank projects d := h.rank_lt ⟨mem hi, mem hj, name⟩
  -- If `j` came after `i`, the sorted list would have the ranks the other way around.
  by_contra late
  obtain ⟨hi', rfl⟩ := List.getElem?_eq_some_iff.1 hi
  obtain ⟨hj', rfl⟩ := List.getElem?_eq_some_iff.1 hj
  have order := List.pairwise_iff_getElem.1 (pairwise_byRank projects) i j hi' hj' (by omega)
  omega

end Rank

/-- Exactly the orderable projects have an order that is accepted. -/
theorem exists_perm_validate_eq_ok_iff :
    (∃ order : List ProjectDefinition, order.Perm projects ∧ validate order = .ok ()) ↔
      Orderable projects := by
  constructor
  · rintro ⟨order, same, accepted⟩
    exact (validate_eq_ok_iff_orderable.1 accepted).1.perm same.symm
  · intro h
    refine ⟨byRank projects, byRank_perm projects, validate_eq_ok_iff_orderable.2 ?_⟩
    exact ⟨h.perm (byRank_perm projects), fun i j refers => h.le_of_refers_byRank refers⟩

/-! ## What the faults say -/

theorem edge_eq_error {r : Reference} {fault : ModelError} (h : edge projects r = .error fault) :
    fault = .unknownReference r.user r.target ∨ fault = .notALibrary r.user r.target := by
  unfold edge at h
  split at h
  · split at h
    · exact .inr (Except.error.inj h).symm
    · cases h
  · exact .inl (Except.error.inj h).symm

theorem edges_eq_error {rs : List Reference} {fault : ModelError}
    (h : edges projects rs = .error fault) :
    ∃ user target, fault = .unknownReference user target ∨ fault = .notALibrary user target := by
  induction rs with
  | nil => cases h
  | cons r rest ih =>
    obtain first | ⟨e, -, h⟩ := bind_eq_error.1 h
    · exact ⟨r.user, r.target, edge_eq_error first⟩
    · obtain tail | ⟨es, -, h⟩ := bind_eq_error.1 h
      · exact ih tail
      · cases h

/-- The pass that finds a fault, and that the passes before it found none. -/
theorem validate_error_cases {fault : ModelError} (h : validate projects = .error fault) :
    (¬ (projects.map (·.name)).Nodup ∧ ∃ name, fault = .duplicateProject name) ∨
    edges projects (all projects) = .error fault ∨
    (projects.map (·.name)).Nodup ∧ ∃ es, edges projects (all projects) = .ok es ∧
      ((∃ members names,
          Reachability.reportedCycle (targets es) projects.length = some members ∧
            fault = .cycle names) ∨
        (Reachability.reportedCycle (targets es) projects.length = none ∧
          ∃ user target, fault = .outOfOrder user target)) := by
  have distinct := firstRepeated_eq_none_iff [] (projects.map (·.name))
  simp only [List.not_mem_nil, not_false_eq_true, implies_true, and_true] at distinct
  rw [validate] at h
  cases repeated : firstRepeated [] (projects.map (·.name)) with
  | some name =>
    rw [repeated] at h
    refine .inl ⟨fun nodup => ?_, name, (Except.error.inj h).symm⟩
    rw [distinct.2 nodup] at repeated
    cases repeated
  | none =>
    rw [repeated] at h
    cases made : edges projects (all projects) with
    | error fault' =>
      rw [made] at h
      exact .inr (.inl (congrArg Except.error (Except.error.inj h)))
    | ok es =>
      rw [made] at h
      refine .inr (.inr ⟨distinct.1 repeated, es, rfl, ?_⟩)
      cases search : Reachability.reportedCycle (targets es) projects.length with
      | some members =>
        simp only [search] at h
        exact .inl ⟨members, _, rfl, (Except.error.inj h).symm⟩
      | none =>
        simp only [search] at h
        split at h
        · exact .inr ⟨rfl, _, _, (Except.error.inj h).symm⟩
        · cases h

/-- What each fault says about the projects: only the fault of the order leaves them orderable. -/
theorem validate_eq_error {fault : ModelError} (h : validate projects = .error fault) :
    (¬ Orderable projects ∧ ((∃ name, fault = .duplicateProject name) ∨
      (∃ user target, fault = .unknownReference user target ∨ fault = .notALibrary user target) ∨
        ∃ names, fault = .cycle names)) ∨
      Orderable projects ∧ ∃ user target, fault = .outOfOrder user target := by
  obtain ⟨repeated, kind⟩ | made | ⟨nodup, es, made, cycle | late⟩ := validate_error_cases h
  · exact .inl ⟨fun orderable => repeated orderable.nodup, .inl kind⟩
  -- References that all lead to linkable projects would have been resolved.
  · refine .inl ⟨fun orderable => ?_, .inr (.inl (edges_eq_error made))⟩
    obtain ⟨es, hes⟩ := exists_edges_all orderable.known orderable.linkable
    rw [hes] at made
    cases made
  · obtain ⟨members, names, search, kind⟩ := cycle
    refine .inl ⟨fun orderable => ?_, .inr (.inr ⟨names, kind⟩)⟩
    rw [(orderable_iff nodup made).1 orderable] at search
    cases search
  · obtain ⟨search, kind⟩ := late
    exact .inr ⟨(orderable_iff nodup made).2 search, kind⟩

/-- Another order of the projects mends a fault exactly if the fault is that of the order. -/
theorem exists_perm_validate_iff {fault : ModelError} (h : validate projects = .error fault) :
    (∃ order : List ProjectDefinition, order.Perm projects ∧ validate order = .ok ()) ↔
      ∃ user target, fault = .outOfOrder user target := by
  rw [exists_perm_validate_eq_ok_iff]
  obtain ⟨broken, kinds⟩ | ⟨orderable, kind⟩ := validate_eq_error h
  · refine iff_of_false broken ?_
    rintro ⟨user, target, rfl⟩
    obtain ⟨_, other⟩ | ⟨_, _, other | other⟩ | ⟨_, other⟩ := kinds <;> cases other
  · exact iff_of_true orderable kind

/-- Each project needs one that is declared after it. -/
def lateLibraries : List ProjectDefinition :=
  [{ name := "app", kind := .executable, uses := ["api"], links := ["core"] },
    { name := "core", kind := .staticLibrary, uses := ["api"] },
    { name := "api", kind := .headerOnly }]

theorem exists_perm_validate_lateLibraries :
    validate lateLibraries = .error (.outOfOrder "app" "api") ∧
      ((∃ order : List ProjectDefinition, order.Perm lateLibraries ∧ validate order = .ok ()) ↔
        ∃ user target, ModelError.outOfOrder "app" "api" = .outOfOrder user target) := by
  have late : validate lateLibraries = .error (.outOfOrder "app" "api") := by cbv
  exact ⟨late, exists_perm_validate_iff late⟩

end BuildPlanner.References
