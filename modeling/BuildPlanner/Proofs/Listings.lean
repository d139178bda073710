import BuildPlanner.Proofs.Trees
import BuildPlanner.Replica

/-!
# Listings of directories

A walk through a directory lists each place below it once, either before what lies below the place
(`Tree.preorder`) or after it (`Tree.postorder`), and the place in the other directory that belongs
to a listed one is found by its path (`Replica.target_descend`).
-/

namespace BuildPlanner

/-! ## Places below one base, seen from another -/

namespace Path

theorem joinAll_cons_cons (first second : List Char) (rest : List (List Char)) :
    joinAll (first :: second :: rest) = joinChars first (joinAll (second :: rest)) := by
  simp [joinAll]

theorem head?_joinAll {names : List String} (hnames : ∀ name ∈ names, IsEntryName name) :
    (joinAll (names.map String.toList)).head? ≠ some '/' := by
  have plain {name : String} (h : IsEntryName name) : name.toList.head? ≠ some '/' :=
    fun slash => h.slash (List.mem_of_mem_head? slash)
  match names with
  | [] => simp [joinAll]
  | [name] => simpa [joinAll] using plain (hnames name (by simp))
  | name :: second :: rest =>
    have first := hnames name (by simp)
    have others := head?_joinAll fun other hother =>
      hnames other (List.mem_cons_of_mem name hother)
    obtain ⟨c, chars, text⟩ := exists_cons_of_ne_empty first.nonempty
    have start := plain first
    rw [List.map_cons, List.map_cons, joinAll_cons_cons, ← List.map_cons, joinChars, if_neg others,
      text]
    rw [text] at start
    split_ifs <;> simpa using start

/-- A path is joined piece by piece. -/
theorem joinChars_assoc (base : List Char) {name : String} {rest : List Char}
    (h : IsEntryName name) (relative : rest.head? ≠ some '/') :
    joinChars base (joinChars name.toList rest) = joinChars (joinChars base name.toList) rest := by
  have start : name.toList.head? ≠ some '/' := fun slash => h.slash (List.mem_of_mem_head? slash)
  have last : name.toList.getLast? ≠ some '/' := fun slash => h.slash (List.mem_of_getLast? slash)
  obtain ⟨c, chars, text⟩ := exists_cons_of_ne_empty h.nonempty
  rw [text] at start last ⊢
  have inner : joinChars (c :: chars) rest = c :: chars ++ '/' :: rest := by
    rw [joinChars, if_neg relative, if_neg (by simpa using last)]
  have ends (before : List Char) :
      joinChars (before ++ c :: chars) rest = before ++ c :: chars ++ '/' :: rest := by
    rw [joinChars, if_neg relative, if_neg (by simpa using last)]
  rw [inner]
  by_cases slash : base = [] ∨ base.getLast? = some '/'
  · have outer : joinChars base (c :: chars) = base ++ c :: chars := by
      rw [joinChars, if_neg start, if_pos slash]
    rw [outer, ends, joinChars, if_neg (by simpa using start), if_pos slash, List.append_assoc]
  · have outer : joinChars base (c :: chars) = base ++ ['/'] ++ c :: chars := by
      rw [joinChars, if_neg start, if_neg slash]
      simp
    rw [outer, ends, joinChars, if_neg (by simpa using start), if_neg slash]
    simp

/-- What lies below a base is named by the names on the way, taken from the base. -/
theorem join_ofComponents (base : Path) {more : Location} (nonempty : more ≠ [])
    (names : ∀ name ∈ more, IsEntryName name) :
    base.join (ofComponents (more.map .name)) = base.descend more := by
  have text (base : List Char) : .ofList (joinChars base (joinAll (more.map String.toList))) =
      (descend ⟨.ofList base⟩ more).text := by
    induction more generalizing base with
    | nil => exact absurd rfl nonempty
    | cons name rest ih =>
      obtain ⟨first, others⟩ := List.forall_mem_cons.1 names
      cases rest with
      | nil => simp [joinAll, descend, entry]
      | cons second rest =>
        have relative := head?_joinAll others
        rw [List.map_cons, List.map_cons, joinAll_cons_cons, ← List.map_cons,
          joinChars_assoc base first relative, ih (List.cons_ne_nil second rest) others]
        simp [descend, entry, join]
  have components : (more.map Component.name).map (fun component => component.text.toList) =
      more.map String.toList := by
    rw [List.map_map]
    rfl
  rw [join, ofComponents, components, String.toList_ofList, text]
  simp

theorem steps_append (more base : List Component) : steps false (base ++ more) base = some more := by
  induction base with
  | nil => simp [steps]
  | cons component base ih => simpa [steps] using ih

theorem isAbsolute_of_components {base p : Path} {more : Location}
    (split : p.components = base.components ++ more.map .name) :
    p.isAbsolute = base.isAbsolute := by
  rw [Bool.eq_iff_iff, isAbsolute_iff, isAbsolute_iff, split]
  simp

/-- The way to a path that goes on from a base by names is told by these names. -/
theorem relativeTo_of_components {base p : Path} {more : Location}
    (split : p.components = base.components ++ more.map .name) :
    relativeTo base p = ofComponents (more.map .name) := by
  rw [relativeTo, isAbsolute_of_components split, split, steps_append]
  simp

theorem relativeTo_descend (base : Path) {more : Location}
    (names : ∀ name ∈ more, IsEntryName name) :
    relativeTo base (base.descend more) = ofComponents (more.map .name) :=
  relativeTo_of_components (components_descend base names)

end Path

/-- What lies below the source belongs at the same place below the destination. -/
theorem Replica.target_descend (source destination : Path) {more : Location} (nonempty : more ≠ [])
    (names : ∀ name ∈ more, IsEntryName name) :
    target source destination (source.descend more) = destination.descend more := by
  rw [target, Path.relativeTo_descend source names,
    Path.join_ofComponents destination nonempty names]

/-! ## Orders -/

namespace Tree

/-- The places below a place, each before what lies below it; `fuel` bounds the levels. -/
def preorder (t : Tree) (base : Location) : (fuel : Nat) → Location → List Location
  | 0, _ => []
  | fuel + 1, more => (t.names (base ++ more)).flatMap fun name =>
    (more ++ [name]) :: t.preorder base fuel (more ++ [name])

/-- The places below a place, each after what lies below it; `fuel` bounds the levels. -/
def postorder (t : Tree) (base : Location) : (fuel : Nat) → Location → List Location
  | 0, _ => []
  | fuel + 1, more => (t.names (base ++ more)).flatMap fun name =>
    t.postorder base fuel (more ++ [name]) ++ [more ++ [name]]

variable {t : Tree} {base more place : Location} {fuel : Nat}

theorem postorder_perm (t : Tree) (base : Location) (fuel : Nat) (more : Location) :
    (t.postorder base fuel more).Perm (t.preorder base fuel more) := by
  induction fuel generalizing more with
  | zero => rfl
  | succ fuel ih =>
    refine List.Perm.flatMap_left _ fun name _ => ?_
    exact (List.perm_append_singleton _ _).trans ((ih _).cons _)

theorem mem_preorder_iff :
    place ∈ t.preorder base fuel more ↔
      ∃ rest, rest ≠ [] ∧ rest.length ≤ fuel ∧ place = more ++ rest ∧
        t.node? (base ++ place) ≠ none := by
  induction fuel generalizing more with
  | zero =>
    refine iff_of_false List.not_mem_nil ?_
    rintro ⟨rest, nonempty, short, -⟩
    exact nonempty (List.length_eq_zero_iff.1 (Nat.le_zero.1 short))
  | succ fuel ih =>
    rw [preorder, List.mem_flatMap]
    constructor
    · rintro ⟨name, hname, hplace⟩
      obtain rfl | hplace := List.mem_cons.1 hplace
      · rw [mem_names, List.append_assoc] at hname
        exact ⟨[name], List.cons_ne_nil _ _, by simp, rfl, hname⟩
      · obtain ⟨rest, -, short, rfl, stands⟩ := ih.1 hplace
        refine ⟨name :: rest, List.cons_ne_nil _ _, ?_, by simp, stands⟩
        rw [List.length_cons]
        omega
    · rintro ⟨rest, nonempty, short, rfl, stands⟩
      obtain ⟨name, rest, rfl⟩ := List.exists_cons_of_ne_nil nonempty
      rw [List.length_cons] at short
      have split : base ++ (more ++ name :: rest) = base ++ more ++ [name] ++ rest := by simp
      refine ⟨name, mem_names.2 (node?_ne_none_of_append (split ▸ stands)), ?_⟩
      cases rest with
      | nil => exact List.mem_cons_self
      | cons second rest =>
        refine List.mem_cons_of_mem _ (ih.2 ⟨second :: rest, List.cons_ne_nil _ _, ?_, ?_, stands⟩)
        · omega
        · simp

theorem mem_postorder_iff :
    place ∈ t.postorder base fuel more ↔
      ∃ rest, rest ≠ [] ∧ rest.length ≤ fuel ∧ place = more ++ rest ∧
        t.node? (base ++ place) ≠ none :=
  (postorder_perm t base fuel more).mem_iff.trans mem_preorder_iff

theorem ne_of_not_within {first second : Location} (apart : ¬ first <+: second) :
    first ≠ second := by
  rintro rfl
  exact apart List.prefix_rfl

/-- Of two places under different names neither lies below the other. -/
theorem not_prefix_of_ne {a b : String} (ne : a ≠ b) (more x y : Location) :
    ¬ more ++ [a] ++ x <+: more ++ [b] ++ y := by
  rw [List.append_assoc, List.append_assoc, List.prefix_append_right_inj]
  intro inside
  exact ne (List.cons_prefix_cons.1 inside).1

theorem exists_of_mem_preorder {name : String}
    (h : place = more ++ [name] ∨ place ∈ t.preorder base fuel (more ++ [name])) :
    ∃ rest, place = more ++ [name] ++ rest := by
  obtain rfl | h := h
  · exact ⟨[], (List.append_nil _).symm⟩
  · obtain ⟨rest, -, -, rfl, -⟩ := mem_preorder_iff.1 h
    exact ⟨rest, rfl⟩

theorem not_prefix_of_mem_preorder (h : place ∈ t.preorder base fuel more) : ¬ place <+: more := by
  obtain ⟨rest, nonempty, -, rfl, -⟩ := mem_preorder_iff.1 h
  intro inside
  have shorter := inside.length_le
  have long := List.length_pos_iff.2 nonempty
  rw [List.length_append] at shorter
  omega

theorem pairwise_preorder (tidy : t.Tidy) :
    (t.preorder base fuel more).Pairwise fun first second => ¬ second <+: first := by
  induction fuel generalizing more with
  | zero => exact .nil
  | succ fuel ih =>
    refine List.pairwise_flatMap.2 ⟨fun name _ => ?_, ?_⟩
    · exact List.pairwise_cons.2 ⟨fun place hplace => not_prefix_of_mem_preorder hplace, ih⟩
    · refine (tidy.nodup_names _).imp fun {a b} ne x hx y hy => ?_
      obtain ⟨u, rfl⟩ := exists_of_mem_preorder (List.mem_cons.1 hx)
      obtain ⟨v, rfl⟩ := exists_of_mem_preorder (List.mem_cons.1 hy)
      exact not_prefix_of_ne ne.symm more v u

theorem pairwise_postorder (tidy : t.Tidy) :
    (t.postorder base fuel more).Pairwise fun first second => ¬ first <+: second := by
  induction fuel generalizing more with
  | zero => exact .nil
  | succ fuel ih =>
    have below {name : String} {place : Location}
        (h : place ∈ t.postorder base fuel (more ++ [name]) ++ [more ++ [name]]) :
        place = more ++ [name] ∨ place ∈ t.preorder base fuel (more ++ [name]) := by
      rw [List.mem_append, (postorder_perm t base fuel _).mem_iff, List.mem_singleton] at h
      exact h.symm
    refine List.pairwise_flatMap.2 ⟨fun name _ => ?_, ?_⟩
    · refine List.pairwise_append.2 ⟨ih, List.pairwise_singleton _ _, fun place hplace last hlast => ?_⟩
      rw [List.mem_singleton.1 hlast]
      exact not_prefix_of_mem_preorder ((postorder_perm t base fuel _).mem_iff.1 hplace)
    · refine (tidy.nodup_names _).imp fun {a b} ne x hx y hy => ?_
      obtain ⟨u, rfl⟩ := exists_of_mem_preorder (below hx)
      obtain ⟨v, rfl⟩ := exists_of_mem_preorder (below hy)
      exact not_prefix_of_ne ne more u v

end Tree

/-! ## What is listed -/

namespace Replica

variable {h : Host} {base : Path} {more : Location}

/-- The entry of a place below a base at which something stands. -/
def entryAt (h : Host) (base : Path) (place : Location) : Entry :=
  ⟨base.descend place, (h.below base place).getD .directory⟩

section Below

variable (reaches : h.Reaches base) (fits : ∀ place, h.below base place ≠ none → base.Fits place)
include reaches fits

theorem entries_descend (stands : h.below base more ≠ none) :
    entries h (base.descend more) =
      (h.tree.names (h.namedLocation base ++ more)).map fun name =>
        entryAt h base (more ++ [name]) := by
  rw [entries, Host.names_descend reaches (fits more stands), ← List.filterMap_eq_map']
  refine List.filterMap_congr fun name hname => ?_
  rw [Tree.mem_names, List.append_assoc] at hname
  have node := Host.toOption_node_descend reaches (fits (more ++ [name]) hname)
  rw [Path.descend_concat] at node
  rw [node, entryAt, Path.descend_concat]
  obtain ⟨found, same⟩ := Option.ne_none_iff_exists'.1 hname
  rw [Host.below, same]
  rfl

theorem contentsFirst_descend {fuel : Nat} (stands : h.below base more ≠ none) :
    contentsFirst h fuel (base.descend more) =
      (h.tree.postorder (h.namedLocation base) fuel more).map base.descend := by
  induction fuel generalizing more with
  | zero => rfl
  | succ fuel ih =>
    rw [contentsFirst, Host.names_descend reaches (fits more stands), Tree.postorder,
      List.map_flatMap]
    refine List.flatMap_congr fun name hname => ?_
    rw [Tree.mem_names, List.append_assoc] at hname
    rw [← Path.descend_concat, ih hname, List.map_append]
    rfl

end Below

end Replica

end BuildPlanner
