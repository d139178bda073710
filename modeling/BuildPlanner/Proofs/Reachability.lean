import BuildPlanner.Proofs.Basic
import BuildPlanner.References.Reachability

/-!
# Reachability is the transitive closure

`Leads next size a b` says that `a` is one of the first `size` nodes and leads to `b` in one step.

* `reaches_closure_iff`: the closure reaches exactly what one or more steps lead to.  After a pivot
  has been added, every way through it is a step (`ClosedAt`), and later pivots keep that.
* `mem_finishOrder`: the visit finishes every node, whatever the bound on its depth.
* `reportedCycle_eq_none_iff`: no cycle is reported exactly when no node leads to itself.
* `reportedCycle_eq_some`: a reported cycle is all that a node leads to and that leads back to it.
-/

namespace BuildPlanner.Reachability

variable {next : Nat → List Nat} {size : Nat}

/-- The node is one of the first `size` and leads to the other in one step. -/
def Leads (next : Nat → List Nat) (size a b : Nat) : Prop := a < size ∧ b ∈ next a

/-! ## The closure -/

theorem reaches_direct (a b : Nat) :
    reaches (direct next size) a b = true ↔ Leads next size a b := by
  unfold reaches direct Leads
  by_cases ha : a < size
  · simp [Array.getD_eq_getD_getElem?, ha, testBit_bitsOf]
  · simp [Array.getD_eq_getD_getElem?, ha]

/-- Every way through the node `m` is a step of its own. -/
def ClosedAt (rows : Rows) (m : Nat) : Prop :=
  ∀ a b, reaches rows a m = true → reaches rows m b = true → reaches rows a b = true

theorem reaches_addPivot_iff (rows : Rows) (pivot a b : Nat) :
    reaches (addPivot rows pivot) a b = true ↔
      reaches rows a b = true ∨ reaches rows a pivot = true ∧ reaches rows pivot b = true := by
  rw [reaches_addPivot, Bool.or_eq_true, Bool.and_eq_true]

theorem closedAt_addPivot_self (rows : Rows) (pivot : Nat) :
    ClosedAt (addPivot rows pivot) pivot := by
  intro a b ha hb
  rw [reaches_addPivot_iff] at ha hb ⊢
  exact .inr ⟨ha.elim id And.left, hb.elim id And.right⟩

theorem ClosedAt.addPivot {rows : Rows} {m : Nat} (h : ClosedAt rows m) (pivot : Nat) :
    ClosedAt (addPivot rows pivot) m := by
  intro a b ha hb
  rw [reaches_addPivot_iff] at ha hb ⊢
  obtain ha | ⟨ha, hm⟩ := ha
  · obtain hb | ⟨hm, hb⟩ := hb
    · exact .inl (h a b ha hb)
    · exact .inr ⟨h a pivot ha hm, hb⟩
  · obtain hb | ⟨-, hb⟩ := hb
    · exact .inr ⟨ha, h pivot b hm hb⟩
    · exact .inr ⟨ha, hb⟩

theorem closedAt_foldl {m : Nat} (pivots : List Nat) {rows : Rows}
    (h : ClosedAt rows m ∨ m ∈ pivots) : ClosedAt (pivots.foldl addPivot rows) m := by
  induction pivots generalizing rows with
  | nil => exact h.resolve_right List.not_mem_nil
  | cons pivot pivots ih =>
    rw [List.foldl_cons]
    apply ih
    obtain h | h := h
    · exact .inl (h.addPivot pivot)
    · obtain rfl | h := List.mem_cons.1 h
      · exact .inl (closedAt_addPivot_self rows m)
      · exact .inr h

theorem reaches_foldl_of_reaches (pivots : List Nat) {rows : Rows} {a b : Nat}
    (h : reaches rows a b = true) : reaches (pivots.foldl addPivot rows) a b = true := by
  induction pivots generalizing rows with
  | nil => exact h
  | cons pivot pivots ih => exact ih ((reaches_addPivot_iff rows pivot a b).2 (.inl h))

theorem transGen_of_reaches_foldl {step : Nat → Nat → Prop} (pivots : List Nat) {rows : Rows}
    (sound : ∀ a b, reaches rows a b = true → Relation.TransGen step a b) {a b : Nat}
    (h : reaches (pivots.foldl addPivot rows) a b = true) : Relation.TransGen step a b := by
  induction pivots generalizing rows with
  | nil => exact sound a b h
  | cons pivot pivots ih =>
    refine ih (fun a b hab => ?_) h
    obtain hab | ⟨ha, hb⟩ := (reaches_addPivot_iff rows pivot a b).1 hab
    · exact sound a b hab
    · exact (sound a pivot ha).trans (sound pivot b hb)

/-- The closure reaches exactly what one or more steps lead to. -/
theorem reaches_closure_iff (a b : Nat) :
    reaches (closure next size) a b = true ↔ Relation.TransGen (Leads next size) a b := by
  constructor
  · exact transGen_of_reaches_foldl _ fun a b h => .single ((reaches_direct a b).1 h)
  · intro h
    have step {a b : Nat} (h : Leads next size a b) : reaches (closure next size) a b = true :=
      reaches_foldl_of_reaches _ ((reaches_direct a b).2 h)
    induction h with
    | single h => exact step h
    | tail _ h ih => exact closedAt_foldl _ (.inr (List.mem_range.2 h.1)) _ _ ih (step h)

theorem onCycle_closure_iff (node : Nat) :
    onCycle (closure next size) node = true ↔ Relation.TransGen (Leads next size) node node :=
  reaches_closure_iff node node

theorem lt_of_transGen {a b : Nat} (h : Relation.TransGen (Leads next size) a b) : a < size := by
  obtain ⟨c, first, -⟩ := Relation.TransGen.head'_iff.1 h
  exact first.1

/-! ## The visit -/

/-- What a visit does to its state: nothing is forgotten, and what is entered meanwhile is finished
at the end. -/
structure Advances (before after : Visit) : Prop where
  entered : ∀ node ∈ before.entered, node ∈ after.entered
  finished : ∀ node ∈ before.finished, node ∈ after.finished
  settled : ∀ node ∈ after.entered, node ∈ before.entered ∨ node ∈ after.finished

theorem Advances.refl (state : Visit) : Advances state state :=
  ⟨fun _ h => h, fun _ h => h, fun _ h => .inl h⟩

theorem Advances.trans {first second third : Visit} (h : Advances first second)
    (h' : Advances second third) : Advances first third where
  entered node hn := h'.entered node (h.entered node hn)
  finished node hn := h'.finished node (h.finished node hn)
  settled node hn := by
    obtain hn | hn := h'.settled node hn
    · exact (h.settled node hn).imp_right (h'.finished node)
    · exact .inr hn

theorem Advances.foldl {f : Visit → Nat → Visit} (h : ∀ state node, Advances state (f state node))
    (nodes : List Nat) (state : Visit) : Advances state (nodes.foldl f state) := by
  induction nodes generalizing state with
  | nil => exact .refl state
  | cons node nodes ih => exact (h state node).trans (ih (f state node))

theorem advances_visit (depth : Nat) (state : Visit) (node : Nat) :
    Advances state (visit next depth state node) := by
  induction depth generalizing state node with
  | zero => exact .refl state
  | succ depth ih =>
    rw [visit]
    split
    · exact .refl state
    · have inner := Advances.foldl ih (next node) { state with entered := node :: state.entered }
      refine ⟨fun n hn => inner.entered n (List.mem_cons_of_mem _ hn),
        fun n hn => List.mem_cons_of_mem _ (inner.finished n hn), fun n hn => ?_⟩
      obtain hn | hn := inner.settled n hn
      · obtain rfl | hn := List.mem_cons.1 hn
        · exact .inr List.mem_cons_self
        · exact .inl hn
      · exact .inr (List.mem_cons_of_mem _ hn)

theorem mem_entered_visit (depth : Nat) (state : Visit) (node : Nat) :
    node ∈ (visit next (depth + 1) state node).entered := by
  rw [visit]
  split
  · next entered => simpa using entered
  · exact (Advances.foldl (advances_visit depth) _ _).entered node List.mem_cons_self

theorem mem_entered_foldl_visit (depth : Nat) (state : Visit) {nodes : List Nat} {node : Nat}
    (h : node ∈ nodes) : node ∈ (nodes.foldl (visit next (depth + 1)) state).entered := by
  induction nodes generalizing state with
  | nil => cases h
  | cons first nodes ih =>
    obtain rfl | h := List.mem_cons.1 h
    · exact (Advances.foldl (advances_visit _) nodes _).entered node
        (mem_entered_visit depth state node)
    · exact ih _ h

/-- Every node is finished. -/
theorem mem_finishOrder {node : Nat} (h : node < size) : node ∈ finishOrder next size := by
  have entered : node ∈ ((List.range size).foldl (visit next (size + 1)) ⟨[], []⟩).entered :=
    mem_entered_foldl_visit size _ (List.mem_range.2 h)
  obtain none | finished :=
    (Advances.foldl (advances_visit (size + 1)) (List.range size) ⟨[], []⟩).settled node entered
  · cases none
  · exact List.mem_reverse.2 finished

/-! ## The reported cycle -/

/-- A node on a cycle is left out only for a later node that is together with it, and that one is on
a cycle too: so where none is taken the last node on a cycle cannot exist. -/
theorem firstClosed_eq_none_iff {rows : Rows}
    (trans : ∀ a b, reaches rows a b = true → reaches rows b a = true → onCycle rows b = true)
    (nodes : List Nat) :
    firstClosed rows nodes = none ↔ ∀ node ∈ nodes, onCycle rows node = false := by
  induction nodes with
  | nil => simp [firstClosed]
  | cons node rest ih =>
    rw [firstClosed, List.forall_mem_cons]
    split
    · next taken =>
      rw [Bool.and_eq_true] at taken
      simp [taken.1]
    · next left =>
      rw [ih]
      refine ⟨fun others => ⟨?_, others⟩, And.right⟩
      by_contra cyclic
      rw [Bool.not_eq_false] at cyclic
      obtain ⟨later, hlater, same⟩ : ∃ later ∈ rest, together rows node later = true := by
        simpa [cyclic] using left
      have acyclic := others later hlater
      simp only [together, Bool.or_eq_true, beq_iff_eq, Bool.and_eq_true] at same
      obtain rfl | ⟨there, back⟩ := same
      · exact absurd cyclic (by simp [acyclic])
      · exact absurd (trans node later there back) (by simp [acyclic])

/-- No cycle is reported exactly when no node leads to itself. -/
theorem reportedCycle_eq_none_iff :
    reportedCycle next size = none ↔ ∀ node, ¬ Relation.TransGen (Leads next size) node node := by
  have trans (a b : Nat) (there : reaches (closure next size) a b = true)
      (back : reaches (closure next size) b a = true) :
      onCycle (closure next size) b = true := by
    rw [reaches_closure_iff] at there back
    exact (onCycle_closure_iff b).2 (back.trans there)
  rw [reportedCycle, Option.map_eq_none_iff, firstClosed_eq_none_iff trans]
  constructor
  · intro h node cyclic
    have := h node (mem_finishOrder (lt_of_transGen cyclic))
    rw [(onCycle_closure_iff node).2 cyclic] at this
    cases this
  · intro h node _
    rw [← Bool.not_eq_true, onCycle_closure_iff]
    exact h node

theorem onCycle_of_firstClosed {rows : Rows} {nodes : List Nat} {node : Nat}
    (h : firstClosed rows nodes = some node) : onCycle rows node = true := by
  induction nodes with
  | nil => cases h
  | cons first rest ih =>
    rw [firstClosed] at h
    split at h
    · next taken =>
      cases h
      exact (Bool.and_eq_true_iff.1 taken).1
    · exact ih h

/-- A reported cycle is all that a node on a cycle leads to and that leads back to it. -/
theorem reportedCycle_eq_some {members : List Nat} (h : reportedCycle next size = some members) :
    members.Sublist (List.range size) ∧
      ∃ root, Relation.TransGen (Leads next size) root root ∧
        ∀ node, node ∈ members ↔ Relation.TransGen (Leads next size) root node ∧
          Relation.TransGen (Leads next size) node root := by
  obtain ⟨root, closed, rfl⟩ := Option.map_eq_some_iff.1 h
  have cyclic := (onCycle_closure_iff root).1 (onCycle_of_firstClosed closed)
  refine ⟨List.filter_sublist, root, cyclic, fun node => ?_⟩
  rw [List.mem_filter, List.mem_range, together, Bool.or_eq_true, beq_iff_eq, Bool.and_eq_true,
    reaches_closure_iff, reaches_closure_iff]
  constructor
  · rintro ⟨-, rfl | ways⟩
    · exact ⟨cyclic, cyclic⟩
    · exact ways
  · intro ways
    exact ⟨lt_of_transGen ways.2, .inr ways⟩

end BuildPlanner.Reachability
