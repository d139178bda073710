import BuildPlanner.Proofs.Basic
import BuildPlanner.Proofs.Reachability
import BuildPlanner.References

/-!
# Which declarations are accepted

`WellDeclared` says what a list of declared projects has to be: the names differ, every reference
names a declared project, only libraries are linked, and what a project refers to stands before it.
The checks accept exactly these lists (`validate_eq_ok_iff`).  The last check alone lets a project
refer to itself; it is the search for cycles that rules this out, and that search finds nothing
where every reference leads to an earlier project.
-/

namespace BuildPlanner.References

variable {projects : List ProjectDefinition}

/-- What a list of declared projects has to be. -/
structure WellDeclared (projects : List ProjectDefinition) : Prop where
  /-- The names differ. -/
  nodup : (projects.map (·.name)).Nodup
  /-- Every name that is referred to is declared. -/
  known : ∀ d ∈ projects, ∀ name ∈ d.uses ++ d.links, ∃ e ∈ projects, e.name = name
  /-- No executable is linked. -/
  linkable : ∀ d ∈ projects, ∀ name ∈ d.links, ∀ e ∈ projects, e.name = name →
    e.kind ≠ .executable
  /-- What a project refers to is declared strictly before it. -/
  earlier : ∀ (i j : Nat) (d e : ProjectDefinition), projects[i]? = some d →
    projects[j]? = some e → e.name ∈ d.uses ++ d.links → j < i

/-- The project with one number refers to the project with another. -/
def Refers (projects : List ProjectDefinition) (i j : Nat) : Prop :=
  ∃ d e, projects[i]? = some d ∧ projects[j]? = some e ∧ e.name ∈ d.uses ++ d.links

/-! ## Names -/

theorem firstRepeated_eq_none_iff (earlier names : List String) :
    firstRepeated earlier names = none ↔ names.Nodup ∧ ∀ name ∈ names, name ∉ earlier := by
  induction names generalizing earlier with
  | nil => simp [firstRepeated]
  | cons name names ih =>
    rw [firstRepeated]
    split
    · next repeated => simpa using fun _ _ h => absurd (by simpa using repeated) h
    · next fresh =>
      rw [ih, List.nodup_cons]
      simp only [List.contains_eq_mem, decide_eq_true_eq] at fresh
      simp only [List.mem_cons, not_or, forall_eq_or_imp, fresh, not_false_eq_true, true_and]
      constructor
      · rintro ⟨distinct, others⟩
        exact ⟨⟨fun h => (others name h).1 rfl, distinct⟩, fun n hn => (others n hn).2⟩
      · rintro ⟨⟨new, distinct⟩, others⟩
        exact ⟨distinct, fun n hn => ⟨fun same => new (same ▸ hn), others n hn⟩⟩

theorem eq_of_name_eq (distinct : (projects.map (·.name)).Nodup) {i j : Nat}
    {d e : ProjectDefinition} (hi : projects[i]? = some d) (hj : projects[j]? = some e)
    (same : d.name = e.name) : i = j := by
  have bound : i < (projects.map (·.name)).length := by
    rw [List.length_map]
    exact (List.getElem?_eq_some_iff.1 hi).1
  apply (List.getElem?_inj bound distinct).1
  rw [List.getElem?_map, List.getElem?_map, hi, hj]
  exact congrArg some same

/-! ## References and edges -/

/-- The names that a project refers to in one way. -/
def ReferenceKind.names : ReferenceKind → ProjectDefinition → List String
  | uses, d => d.uses
  | links, d => d.links

theorem exists_kind_iff {d : ProjectDefinition} {name : String} :
    (∃ kind : ReferenceKind, name ∈ kind.names d) ↔ name ∈ d.uses ++ d.links := by
  rw [List.mem_append]
  constructor
  · rintro ⟨_ | _, h⟩
    · exact .inl h
    · exact .inr h
  · rintro (h | h)
    · exact ⟨.uses, h⟩
    · exact ⟨.links, h⟩

theorem mem_ofProject {source : Nat} {d : ProjectDefinition} {r : Reference} :
    r ∈ ofProject source d ↔ r.source = source ∧ r.user = d.name ∧ r.target ∈ r.kind.names d := by
  obtain ⟨s, user, target, kind⟩ := r
  simp only [ofProject, List.mem_append, List.mem_map, Reference.mk.injEq]
  constructor
  · rintro (⟨t, ht, rfl, rfl, rfl, rfl⟩ | ⟨t, ht, rfl, rfl, rfl, rfl⟩) <;> exact ⟨rfl, rfl, ht⟩
  · rintro ⟨rfl, rfl, ht⟩
    cases kind with
    | uses => exact .inl ⟨target, ht, rfl, rfl, rfl, rfl⟩
    | links => exact .inr ⟨target, ht, rfl, rfl, rfl, rfl⟩

theorem mem_allFrom {source : Nat} {r : Reference} :
    r ∈ allFrom source projects ↔
      ∃ i d, projects[i]? = some d ∧ r ∈ ofProject (source + i) d := by
  induction projects generalizing source with
  | nil => simp [allFrom]
  | cons first rest ih =>
    rw [allFrom, List.mem_append, ih]
    constructor
    · rintro (h | ⟨i, d, hd, h⟩)
      · exact ⟨0, first, rfl, h⟩
      · exact ⟨i + 1, d, hd, by rwa [Nat.add_assoc, Nat.add_comm 1 i] at h⟩
    · rintro ⟨i, d, hd, h⟩
      cases i with
      | zero =>
        cases hd
        exact .inl h
      | succ i => exact .inr ⟨i, d, hd, by rwa [Nat.add_assoc, Nat.add_comm 1 i]⟩

theorem mem_all {r : Reference} :
    r ∈ all projects ↔ ∃ i d, projects[i]? = some d ∧ r ∈ ofProject i d := by
  simp [all, mem_allFrom]

theorem find?_eq_getElem?_findIdx? {α : Type} (p : α → Bool) (xs : List α) :
    xs.find? p = (xs.findIdx? p).bind (xs[·]?) := by
  induction xs with
  | nil => rfl
  | cons x xs ih =>
    rw [List.find?_cons, List.findIdx?_cons]
    cases hx : p x with
    | true => rfl
    | false => cases found : xs.findIdx? p <;> simp [ih, found]

theorem edge_eq_ok_iff {r : Reference} {e : Edge} :
    edge projects r = .ok e ↔
      e.source = r.source ∧ projects.findIdx? (·.name == r.target) = some e.target ∧
        ∃ d, projects[e.target]? = some d ∧ d.name = r.target ∧
          (r.kind = .links → d.kind ≠ .executable) := by
  obtain ⟨source, target⟩ := e
  unfold edge
  rw [find?_eq_getElem?_findIdx?]
  cases found : projects.findIdx? (·.name == r.target) with
  | none => simp
  | some number =>
    obtain ⟨hn, same, -⟩ := List.findIdx?_eq_some_iff_getElem.1 found
    have hd : projects[number]? = some projects[number] := List.getElem?_eq_getElem hn
    rw [Option.bind_some, hd]
    simp only [beq_iff_eq] at same
    simp only [ProjectDefinition.isLibrary, Bool.and_eq_true, decide_eq_true_eq,
      Bool.not_eq_true', bne_eq_false_iff_eq, Option.some.injEq]
    split
    · next bad =>
      constructor
      · intro h
        cases h
      · rintro ⟨-, rfl, d, hd', -, library⟩
        rw [hd] at hd'
        cases hd'
        exact absurd bad.2 (library bad.1)
    · next good =>
      rw [Except.ok.injEq, Edge.mk.injEq]
      constructor
      · rintro ⟨rfl, rfl⟩
        exact ⟨rfl, rfl, _, hd, same, fun links executable => good ⟨links, executable⟩⟩
      · rintro ⟨rfl, rfl, -⟩
        exact ⟨rfl, rfl⟩

theorem edges_eq_ok_iff {rs : List Reference} {es : List Edge} :
    edges projects rs = .ok es ↔ List.Forall₂ (fun r e => edge projects r = .ok e) rs es := by
  induction rs generalizing es with
  | nil =>
    rw [edges, Except.ok.injEq, List.forall₂_nil_left_iff]
    exact eq_comm
  | cons r rest ih =>
    rw [edges, bind_eq_ok, List.forall₂_cons_left_iff]
    constructor
    · rintro ⟨e, first, h⟩
      obtain ⟨others, tail, same⟩ := bind_eq_ok.1 h
      exact ⟨e, others, first, ih.1 tail, (Except.ok.inj same).symm⟩
    · rintro ⟨e, others, first, tail, rfl⟩
      exact ⟨e, first, bind_eq_ok.2 ⟨others, ih.2 tail, rfl⟩⟩

theorem mem_targets {es : List Edge} {i j : Nat} : j ∈ targets es i ↔ ⟨i, j⟩ ∈ es := by
  simp only [targets, List.mem_reverse, List.mem_map, List.mem_filter, beq_iff_eq]
  constructor
  · rintro ⟨⟨source, target⟩, ⟨h, rfl⟩, rfl⟩
    exact h
  · intro h
    exact ⟨⟨i, j⟩, ⟨h, rfl⟩, rfl⟩

theorem exists_edge_iff {r : Reference} :
    (∃ e, edge projects r = .ok e) ↔
      ∃ n d, projects.findIdx? (·.name == r.target) = some n ∧ projects[n]? = some d ∧
        d.name = r.target ∧ (r.kind = .links → d.kind ≠ .executable) := by
  constructor
  · rintro ⟨e, h⟩
    obtain ⟨-, found, d, hd, same, library⟩ := edge_eq_ok_iff.1 h
    exact ⟨e.target, d, found, hd, same, library⟩
  · rintro ⟨n, d, found, hd, same, library⟩
    exact ⟨⟨r.source, n⟩, edge_eq_ok_iff.2 ⟨rfl, found, d, hd, same, library⟩⟩

theorem exists_edges {rs : List Reference} (h : ∀ r ∈ rs, ∃ e, edge projects r = .ok e) :
    ∃ es, edges projects rs = .ok es := by
  induction rs with
  | nil => exact ⟨[], rfl⟩
  | cons r rest ih =>
    obtain ⟨e, first⟩ := h r List.mem_cons_self
    obtain ⟨es, others⟩ := ih fun r hr => h r (List.mem_cons_of_mem _ hr)
    exact ⟨e :: es, bind_eq_ok.2 ⟨e, first, bind_eq_ok.2 ⟨es, others, rfl⟩⟩⟩

section Edges

variable {rs : List Reference} {es : List Edge}

theorem exists_reference_of_mem (h : edges projects rs = .ok es) {e : Edge} (he : e ∈ es) :
    ∃ r ∈ rs, edge projects r = .ok e := by
  have each := edges_eq_ok_iff.1 h
  clear h
  induction each with
  | nil => cases he
  | cons first _ ih =>
    obtain rfl | he := List.mem_cons.1 he
    · exact ⟨_, List.mem_cons_self, first⟩
    · obtain ⟨r, hr, same⟩ := ih he
      exact ⟨r, List.mem_cons_of_mem _ hr, same⟩

theorem exists_edge_of_mem (h : edges projects rs = .ok es) {r : Reference} (hr : r ∈ rs) :
    ∃ e ∈ es, edge projects r = .ok e := by
  have each := edges_eq_ok_iff.1 h
  clear h
  induction each with
  | nil => cases hr
  | cons first _ ih =>
    obtain rfl | hr := List.mem_cons.1 hr
    · exact ⟨_, List.mem_cons_self, first⟩
    · obtain ⟨e, he, same⟩ := ih hr
      exact ⟨e, List.mem_cons_of_mem _ he, same⟩

end Edges

/-- A name that a project refers to is that of a declared project, of a library if it is linked. -/
theorem declared_of_edges {es : List Edge} (h : edges projects (all projects) = .ok es)
    {d : ProjectDefinition} (hd : d ∈ projects) {kind : ReferenceKind} {name : String}
    (hname : name ∈ kind.names d) :
    ∃ e ∈ projects, e.name = name ∧ (kind = .links → e.kind ≠ .executable) := by
  obtain ⟨i, hi⟩ := List.getElem?_of_mem hd
  have hr : ⟨i, d.name, name, kind⟩ ∈ all projects :=
    mem_all.2 ⟨i, d, hi, mem_ofProject.2 ⟨rfl, rfl, hname⟩⟩
  obtain ⟨edge, -, made⟩ := exists_edge_of_mem h hr
  obtain ⟨-, -, e, he, same, library⟩ := edge_eq_ok_iff.1 made
  exact ⟨e, List.mem_of_getElem? he, same, library⟩

/-- Where the names differ, the edges are exactly the references. -/
theorem mem_edges_iff (distinct : (projects.map (·.name)).Nodup) {es : List Edge}
    (h : edges projects (all projects) = .ok es) {i j : Nat} :
    ⟨i, j⟩ ∈ es ↔ Refers projects i j := by
  constructor
  · intro he
    obtain ⟨r, hr, made⟩ := exists_reference_of_mem h he
    obtain ⟨source, d, hd, hr⟩ := mem_all.1 hr
    obtain ⟨rfl, -, target⟩ := mem_ofProject.1 hr
    obtain ⟨rfl, -, e, hj, same, -⟩ := edge_eq_ok_iff.1 made
    refine ⟨d, e, hd, hj, ?_⟩
    rw [same]
    exact exists_kind_iff.1 ⟨r.kind, target⟩
  · rintro ⟨d, e, hi, hj, name⟩
    obtain ⟨kind, target⟩ := exists_kind_iff.2 name
    have hr : ⟨i, d.name, e.name, kind⟩ ∈ all projects :=
      mem_all.2 ⟨i, d, hi, mem_ofProject.2 ⟨rfl, rfl, target⟩⟩
    obtain ⟨⟨source, number⟩, he, made⟩ := exists_edge_of_mem h hr
    obtain ⟨rfl, -, e', hn, same, -⟩ := edge_eq_ok_iff.1 made
    obtain rfl : number = j := eq_of_name_eq distinct hn hj same
    exact he

theorem leads_iff_refers (distinct : (projects.map (·.name)).Nodup) {es : List Edge}
    (h : edges projects (all projects) = .ok es) :
    Reachability.Leads (targets es) projects.length = Refers projects := by
  funext i j
  rw [Reachability.Leads, mem_targets, mem_edges_iff distinct h, eq_iff_iff, and_iff_right_iff_imp]
  rintro ⟨d, -, hi, -⟩
  exact (List.getElem?_eq_some_iff.1 hi).1

/-! ## The checks -/

theorem validate_eq_ok_iff_passes :
    validate projects = .ok () ↔
      (projects.map (·.name)).Nodup ∧ ∃ es, edges projects (all projects) = .ok es ∧
        Reachability.reportedCycle (targets es) projects.length = none ∧
        ∀ e ∈ es, e.target ≤ e.source := by
  have distinct := firstRepeated_eq_none_iff [] (projects.map (·.name))
  simp only [List.not_mem_nil, not_false_eq_true, implies_true, and_true] at distinct
  rw [← distinct, validate]
  cases firstRepeated [] (projects.map (·.name)) with
  | some name => simp
  | none =>
    cases edges projects (all projects) with
    | error fault => simp
    | ok es =>
      cases found : Reachability.reportedCycle (targets es) projects.length with
      | some members => simp [found]
      | none =>
        cases late : es.find? fun e => e.source < e.target with
        | some e =>
          have he := List.find?_some late
          have mem := List.mem_of_find?_eq_some late
          simp only [decide_eq_true_eq] at he
          simp only [found, late, reduceCtorEq, false_iff, not_and, not_exists, true_and]
          intro es' same
          cases same
          intro _ h
          exact absurd (h e mem) (by omega)
        | none =>
          have ordered : ∀ e ∈ es, e.target ≤ e.source := fun e he => by
            simpa using List.find?_eq_none.1 late e he
          simpa [found, late] using ordered

/-- In a list as it has to be, references lead to earlier projects only. -/
theorem WellDeclared.lt_of_transGen (h : WellDeclared projects) {i j : Nat}
    (ways : Relation.TransGen (Refers projects) i j) : j < i := by
  have step {i j : Nat} (refers : Refers projects i j) : j < i := by
    obtain ⟨d, e, hi, hj, name⟩ := refers
    exact h.earlier i j d e hi hj name
  induction ways with
  | single refers => exact step refers
  | tail _ refers ih => exact Nat.lt_trans (step refers) ih

/-- Where every reference leads to a declared project, and to a library if it is a link, there is an
edge for each. -/
theorem exists_edges_all
    (known : ∀ d ∈ projects, ∀ name ∈ d.uses ++ d.links, ∃ e ∈ projects, e.name = name)
    (linkable : ∀ d ∈ projects, ∀ name ∈ d.links, ∀ e ∈ projects, e.name = name →
      e.kind ≠ .executable) :
    ∃ es, edges projects (all projects) = .ok es := by
  refine exists_edges fun r hr => exists_edge_iff.2 ?_
  obtain ⟨i, d, hd, hr⟩ := mem_all.1 hr
  obtain ⟨-, -, target⟩ := mem_ofProject.1 hr
  have hd := List.mem_of_getElem? hd
  obtain ⟨e, he, same⟩ := known d hd r.target (exists_kind_iff.1 ⟨r.kind, target⟩)
  cases found : projects.findIdx? (·.name == r.target) with
  | none => exact absurd same (by simpa using List.findIdx?_eq_none_iff.1 found e he)
  | some n =>
    obtain ⟨hn, same, -⟩ := List.findIdx?_eq_some_iff_getElem.1 found
    simp only [beq_iff_eq] at same
    refine ⟨n, projects[n], rfl, List.getElem?_eq_getElem hn, same, fun links => ?_⟩
    rw [links] at target
    exact linkable d hd r.target target _ (List.getElem_mem hn) same

theorem WellDeclared.exists_edges (h : WellDeclared projects) :
    ∃ es, edges projects (all projects) = .ok es :=
  exists_edges_all h.known h.linkable

theorem known_of_edges {es : List Edge} (h : edges projects (all projects) = .ok es) :
    ∀ d ∈ projects, ∀ name ∈ d.uses ++ d.links, ∃ e ∈ projects, e.name = name := by
  intro d hd name hname
  obtain ⟨kind, target⟩ := exists_kind_iff.2 hname
  obtain ⟨e, he, same, -⟩ := declared_of_edges h hd target
  exact ⟨e, he, same⟩

theorem linkable_of_edges (distinct : (projects.map (·.name)).Nodup) {es : List Edge}
    (h : edges projects (all projects) = .ok es) :
    ∀ d ∈ projects, ∀ name ∈ d.links, ∀ e ∈ projects, e.name = name → e.kind ≠ .executable := by
  intro d hd name hname e he same
  obtain ⟨e', he', same', library⟩ :=
    declared_of_edges h hd (show name ∈ ReferenceKind.links.names d from hname)
  obtain rfl : e' = e := List.inj_on_of_nodup_map distinct he' he (same'.trans same.symm)
  exact library rfl

theorem wellDeclared_of_passes (distinct : (projects.map (·.name)).Nodup) {es : List Edge}
    (h : edges projects (all projects) = .ok es)
    (acyclic : ∀ i, ¬ Relation.TransGen (Refers projects) i i)
    (ordered : ∀ e ∈ es, e.target ≤ e.source) : WellDeclared projects where
  nodup := distinct
  known := known_of_edges h
  linkable := linkable_of_edges distinct h
  earlier i j d e hi hj name := by
    have refers : Refers projects i j := ⟨d, e, hi, hj, name⟩
    have weak := ordered _ ((mem_edges_iff distinct h).2 refers)
    have strict : i ≠ j := by
      rintro rfl
      exact acyclic i (.single refers)
    simp only at weak
    omega

theorem wellDeclared_of_validate (h : validate projects = .ok ()) : WellDeclared projects := by
  obtain ⟨distinct, es, hes, search, ordered⟩ := validate_eq_ok_iff_passes.1 h
  refine wellDeclared_of_passes distinct hes (fun i => ?_) ordered
  rw [← leads_iff_refers distinct hes]
  exact Reachability.reportedCycle_eq_none_iff.1 search i

/-- What a project links is a library that is declared before it. -/
theorem WellDeclared.exists_library {before after : List ProjectDefinition}
    {d : ProjectDefinition} (h : WellDeclared (before ++ d :: after)) {name : String}
    (hname : name ∈ d.links) : ∃ e ∈ before, e.name = name ∧ e.kind ≠ .executable := by
  have hd : d ∈ before ++ d :: after := List.mem_append_right _ List.mem_cons_self
  have referred : name ∈ d.uses ++ d.links := List.mem_append_right _ hname
  obtain ⟨e, he, rfl⟩ := h.known d hd name referred
  obtain ⟨j, hj⟩ := List.getElem?_of_mem he
  have earlier := h.earlier before.length j d e (by simp) hj referred
  rw [List.getElem?_append_left earlier] at hj
  exact ⟨e, List.mem_of_getElem? hj, rfl, h.linkable d hd e.name hname e he rfl⟩

/-- The checks accept exactly the lists that are as they have to be; then no project needs itself,
directly or through others, and the search for cycles never rejects such a list. -/
theorem validate_eq_ok_iff (projects : List ProjectDefinition) :
    (validate projects = .ok () ↔ WellDeclared projects) ∧
      (validate projects = .ok () → ∀ i, ¬ Relation.TransGen (Refers projects) i i) ∧
      (WellDeclared projects → ∃ es, edges projects (all projects) = .ok es ∧
        Reachability.reportedCycle (targets es) projects.length = none) := by
  have complete (h : WellDeclared projects) : ∃ es, edges projects (all projects) = .ok es ∧
      Reachability.reportedCycle (targets es) projects.length = none := by
    obtain ⟨es, hes⟩ := h.exists_edges
    refine ⟨es, hes, Reachability.reportedCycle_eq_none_iff.2 fun i ways => ?_⟩
    rw [leads_iff_refers h.nodup hes] at ways
    exact absurd (h.lt_of_transGen ways) (Nat.lt_irrefl i)
  have accepted : validate projects = .ok () ↔ WellDeclared projects := by
    rw [validate_eq_ok_iff_passes]
    constructor
    · rintro ⟨distinct, es, hes, search, ordered⟩
      refine wellDeclared_of_passes distinct hes (fun i => ?_) ordered
      rw [← leads_iff_refers distinct hes]
      exact Reachability.reportedCycle_eq_none_iff.1 search i
    · intro h
      obtain ⟨es, hes, search⟩ := complete h
      refine ⟨h.nodup, es, hes, search, fun e he => ?_⟩
      exact Nat.le_of_lt (h.lt_of_transGen (.single ((mem_edges_iff h.nodup hes).1 he)))
  refine ⟨accepted, fun h i ways => ?_, complete⟩
  exact Nat.lt_irrefl i ((accepted.1 h).lt_of_transGen ways)

end BuildPlanner.References
