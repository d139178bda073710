import BuildPlanner.Proofs.Descent

/-!
# Tidy trees

A tree is tidy if every name in it can be kept and stands for one thing in its directory, as in the
trees that a system has.  In a tidy tree the names in a directory are told by the view of the tree
(`Tidy.names_eq`), and what is put into it or taken out of it leaves it tidy.
-/

namespace BuildPlanner.Tree

/-! ## Names -/

theorem mem_names {t : Tree} {location : Location} {name : String} :
    name ∈ t.names location ↔ t.node? (location ++ [name]) ≠ none := by
  rw [names, List.mem_mergeSort, node?, part?_concat, ← Option.isSome_iff_ne_none]
  cases part? location (some t) with
  | none => simp
  | some u =>
    simp only [Option.map_some, Option.getD_some, Option.bind_some, Option.isSome_map,
      List.lookup_isSome_iff, List.mem_map, beq_iff_eq]
    exact exists_congr fun child => and_congr_right' eq_comm

/-- A tree in which each name can be kept and stands for one thing. -/
inductive Tidy : Tree → Prop
  | file (f : File) : Tidy (.file f)
  | directory {children : List (String × Tree)} (distinct : (children.map Prod.fst).Nodup)
      (kept : ∀ child ∈ children, IsKeptName child.1) (tidy : ∀ child ∈ children, Tidy child.2) :
      Tidy (.directory children)

theorem tidy_directory_iff {children : List (String × Tree)} :
    Tidy (.directory children) ↔ (children.map Prod.fst).Nodup ∧
      (∀ name ∈ children.map Prod.fst, IsKeptName name) ∧ ∀ child ∈ children, Tidy child.2 := by
  rw [List.forall_mem_map]
  constructor
  · rintro ⟨⟩
    exact ⟨‹_›, ‹_›, ‹_›⟩
  · rintro ⟨distinct, kept, tidy⟩
    exact .directory distinct kept tidy

theorem mem_of_lookup_eq_some {children : List (String × Tree)} {name : String} {t : Tree}
    (h : children.lookup name = some t) : (name, t) ∈ children := by
  obtain ⟨before, after, split, -⟩ := List.lookup_eq_some_iff.1 h
  simp [split]

theorem height_le_heightOfAll {children : List (String × Tree)} {name : String} {t : Tree}
    (h : (name, t) ∈ children) : t.height + 1 ≤ heightOfAll children := by
  induction children with
  | nil => cases h
  | cons child children ih =>
    obtain ⟨other, u⟩ := child
    rw [heightOfAll]
    obtain same | h := List.mem_cons.1 h
    · cases same
      exact Nat.le_max_left _ _
    · exact (ih h).trans (Nat.le_max_right _ _)

/-- What stands in a tree is no deeper than the tree is high. -/
theorem length_le_height {t : Tree} {location : Location} (h : t.node? location ≠ none) :
    location.length ≤ t.height := by
  induction location generalizing t with
  | nil => exact Nat.zero_le _
  | cons name rest ih =>
    match t with
    | file f => simp [node?, part?] at h
    | directory children =>
      rw [node?, part?] at h
      cases found : children.lookup name with
      | none => simp [found] at h
      | some next =>
        rw [found] at h
        rw [height, List.length_cons]
        exact (Nat.succ_le_succ (ih h)).trans (height_le_heightOfAll (mem_of_lookup_eq_some found))

namespace Tidy

variable {t u : Tree} {location : Location} {name : String}

theorem part? (tidy : t.Tidy) (h : Tree.part? location (some t) = some u) : u.Tidy := by
  induction location generalizing t with
  | nil =>
    cases h
    exact tidy
  | cons name rest ih =>
    cases tidy with
    | file f => simp [Tree.part?] at h
    | @directory children distinct kept tidy =>
      rw [Tree.part?] at h
      cases found : children.lookup name with
      | none => simp [found] at h
      | some next =>
        rw [found] at h
        exact ih (tidy _ (mem_of_lookup_eq_some found)) h

theorem kept (tidy : t.Tidy) (h : t.node? location ≠ none) :
    ∀ name ∈ location, IsKeptName name := by
  induction location generalizing t with
  | nil => nofun
  | cons name rest ih =>
    cases tidy with
    | file f => simp [node?, Tree.part?] at h
    | @directory children distinct kept tidy =>
      rw [node?, Tree.part?] at h
      cases found : children.lookup name with
      | none => simp [found] at h
      | some next =>
        have member := mem_of_lookup_eq_some found
        rw [found] at h
        exact List.forall_mem_cons.2 ⟨kept _ member, ih (tidy _ member) h⟩

theorem nodup_names (tidy : t.Tidy) (location : Location) : (t.names location).Nodup := by
  rw [names, (List.mergeSort_perm _ _).nodup_iff]
  cases stands : Tree.part? location (some t) with
  | none => simp
  | some u =>
    cases tidy.part? stands with
    | file f => simp [children]
    | directory distinct kept tidy => simpa [children] using distinct

theorem pairwise_names (t : Tree) (location : Location) :
    (t.names location).Pairwise (· ≤ ·) := by
  rw [names]
  exact pairwise_mergeSort_le _

/-- The names in a directory are told by what stands in it. -/
theorem names_eq (tidy : t.Tidy) (tidy' : u.Tidy) {place : Location}
    (same : ∀ name, t.node? (location ++ [name]) ≠ none ↔ u.node? (place ++ [name]) ≠ none) :
    t.names location = u.names place := by
  have perm : (t.names location).Perm (u.names place) := by
    rw [List.perm_ext_iff_of_nodup (tidy.nodup_names location) (tidy'.nodup_names place)]
    intro name
    rw [mem_names, mem_names, same]
  exact perm.eq_of_pairwise (fun a b _ _ => String.le_antisymm) (pairwise_names t location)
    (pairwise_names u place)

/-- Where more stands in a directory, its names are those that stood there among others. -/
theorem names_eq_filter (tidy : t.Tidy) (tidy' : u.Tidy) {p : String → Bool}
    (same : ∀ name, t.node? (location ++ [name]) ≠ none ↔
      u.node? (location ++ [name]) ≠ none ∧ p name = true) :
    t.names location = (u.names location).filter p := by
  have perm : (t.names location).Perm ((u.names location).filter p) := by
    rw [List.perm_ext_iff_of_nodup (tidy.nodup_names location)
      ((tidy'.nodup_names location).filter p)]
    intro name
    rw [List.mem_filter, mem_names, mem_names, same]
  exact perm.eq_of_pairwise (fun a b _ _ => String.le_antisymm) (pairwise_names t location)
    ((pairwise_names u location).filter p)

/-! ## Changes -/

theorem setChild {children : List (String × Tree)} (tidy : Tidy (.directory children))
    (hname : IsKeptName name) {child : Option Tree} (hchild : ∀ u, child = some u → u.Tidy) :
    Tidy (.directory (Tree.setChild name child children)) := by
  cases tidy with
  | directory distinct kept tidy =>
    have others : ((children.filter (·.1 != name)).map Prod.fst).Nodup :=
      distinct.sublist (List.filter_sublist.map _)
    cases child with
    | none =>
      exact .directory others (fun child hchild => kept child (List.mem_of_mem_filter hchild))
        fun child hchild => tidy child (List.mem_of_mem_filter hchild)
    | some u =>
      refine .directory (List.nodup_cons.2 ⟨?_, others⟩) ?_ ?_
      · simp
      · exact List.forall_mem_cons.2
          ⟨hname, fun child hchild => kept child (List.mem_of_mem_filter hchild)⟩
      · exact List.forall_mem_cons.2
          ⟨hchild u rfl, fun child hchild => tidy child (List.mem_of_mem_filter hchild)⟩

theorem alter {f : Option Tree → Option Tree} (hlocation : ∀ name ∈ location, IsKeptName name)
    (hf : ∀ old, (∀ u, old = some u → u.Tidy) → ∀ u, f old = some u → u.Tidy) (old : Option Tree)
    (hold : ∀ u, old = some u → u.Tidy) :
    ∀ u, Tree.alter f location old = some u → u.Tidy := by
  induction location generalizing old with
  | nil => exact hf old hold
  | cons name rest ih =>
    obtain ⟨hname, hrest⟩ := List.forall_mem_cons.1 hlocation
    match old with
    | none => exact hold
    | some (.file f) => exact hold
    | some (.directory children) =>
      intro u same
      obtain rfl := Option.some.inj same
      have tidy := hold _ rfl
      refine tidy.setChild hname (ih hrest _ fun next found => ?_)
      cases tidy with
      | directory distinct kept tidy => exact tidy _ (mem_of_lookup_eq_some found)

theorem put (tidy : t.Tidy) (hlocation : ∀ name ∈ location, IsKeptName name) (node : Node) :
    (t.put location node).Tidy := by
  have placed (old : Option Tree) (hold : ∀ u, old = some u → u.Tidy) :
      ∀ u, some (placed node old) = some u → u.Tidy := by
    rintro u ⟨⟩
    unfold Tree.placed
    split
    · exact hold _ rfl
    · cases node with
      | file f => exact .file f
      | directory => exact .directory List.nodup_nil nofun nofun
  have changed := alter hlocation placed (some t) (by rintro u ⟨⟩; exact tidy)
  rw [Tree.put]
  cases same : Tree.alter _ location (some t) with
  | none => exact tidy
  | some u => exact changed u same

theorem erase (tidy : t.Tidy) (hlocation : ∀ name ∈ location, IsKeptName name) :
    (t.erase location).Tidy := by
  have changed := alter (f := fun _ => none) hlocation (fun _ _ => nofun) (some t)
    (by rintro u ⟨⟩; exact tidy)
  rw [Tree.erase]
  cases same : Tree.alter _ location (some t) with
  | none => exact tidy_directory_iff.2 (by simp)
  | some u => exact changed u same

end Tidy

/-! ## Entries -/

theorem mem_entriesOfAll {children : List (String × Tree)} {name : String} {t : Tree}
    (h : (name, t) ∈ children) :
    ([name], t.top) ∈ entriesOfAll children ∧
      ∀ entry ∈ t.entries, (name :: entry.1, entry.2) ∈ entriesOfAll children := by
  induction children with
  | nil => cases h
  | cons child children ih =>
    obtain ⟨other, u⟩ := child
    rw [entriesOfAll]
    obtain same | h := List.mem_cons.1 h
    · obtain ⟨rfl, rfl⟩ := Prod.mk.inj same
      refine ⟨List.mem_append_left _ List.mem_cons_self, fun entry hentry => ?_⟩
      exact List.mem_append_left _ (List.mem_cons_of_mem _ (List.mem_map.2 ⟨entry, hentry, rfl⟩))
    · obtain ⟨first, others⟩ := ih h
      exact ⟨List.mem_append_right _ first,
        fun entry hentry => List.mem_append_right _ (others entry hentry)⟩

/-- What stands below the top of a tree is one of its entries. -/
theorem mem_entries {t : Tree} {location : Location} {node : Node} (nonempty : location ≠ [])
    (h : t.node? location = some node) : (location, node) ∈ t.entries := by
  induction location generalizing t with
  | nil => exact absurd rfl nonempty
  | cons name rest ih =>
    match t with
    | file f => cases h
    | directory children =>
      rw [node?, part?] at h
      cases found : children.lookup name with
      | none => simp [found] at h
      | some next =>
        rw [found] at h
        obtain ⟨first, others⟩ := mem_entriesOfAll (mem_of_lookup_eq_some found)
        rw [entries]
        cases rest with
        | nil =>
          obtain rfl := Option.some.inj h
          exact first
        | cons second rest => exact others _ (ih (List.cons_ne_nil second rest) h)

/-! ## Putting -/

theorem part?_ofNode (node : Node) {more : Location} (nonempty : more ≠ []) :
    part? more (some (ofNode node)) = none := by
  obtain ⟨name, rest, rfl⟩ := List.exists_cons_of_ne_nil nonempty
  cases node with
  | file f => rfl
  | directory => simp [ofNode, empty, part?]

/-- Nothing but what is put there changes where no directory stood. -/
theorem node?_put {t : Tree} {directory : Location} {name : String} (node : Node)
    (above : t.node? directory = some .directory)
    (free : t.node? (directory ++ [name]) ≠ some .directory) (other : Location) :
    (t.put (directory ++ [name]) node).node? other =
      if other = directory ++ [name] then some node else t.node? other := by
  split
  · next same =>
    subst same
    exact node?_put_self t directory name node above
  · next different =>
    by_cases inside : directory ++ [name] <+: other
    · obtain ⟨more, rfl⟩ := inside
      have nonempty : more ≠ [] := fun empty => different (by rw [empty, List.append_nil])
      rw [node?_append_eq_none free nonempty]
      obtain ⟨part, stands, top⟩ := Option.map_eq_some_iff.1 above
      cases part with
      | file f => cases top
      | directory children =>
        have changed := part?_alter_self (fun old => some (placed node old)) directory name (some t)
          children stands
        have fresh : placed node (children.lookup name) = ofNode node := by
          unfold placed
          split
          · next inner found =>
            refine absurd ?_ free
            rw [node?, part?_concat, stands]
            exact congrArg (Option.map Tree.top) found
          · rfl
        rw [node?, some_put (by simp), part?_append, changed, fresh, part?_ofNode node nonempty]
        rfl
    · exact node?_put_of_not_prefix t node inside

end BuildPlanner.Tree
