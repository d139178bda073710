/-!
# Reachability

Nodes are numbers, and `next` lists the nodes that a node leads to. A cycle is found as a node that
reaches itself. Where there are several, a depth-first visit says which is reported: a node is
finished when all that it leads to has been visited, and the cycle whose nodes are all finished
first is taken.
-/

namespace BuildPlanner.Reachability

variable (next : Nat → List Nat)

/-! ## What reaches what -/

/-- The nodes that each node reaches, as the bits of a number. -/
abbrev Rows : Type := Array Nat

/-- Whether a node reaches another. -/
def reaches (rows : Rows) (a b : Nat) : Bool :=
  (rows.getD a 0).testBit b

/-- The number whose bits are the given nodes. -/
def bitsOf (nodes : List Nat) : Nat :=
  nodes.foldr (fun node bits => bits ||| 1 <<< node) 0

/-- What each node reaches in one step, in a graph of the given size. -/
def direct (size : Nat) : Rows :=
  ((List.range size).map fun node => bitsOf (next node)).toArray

/-- What each node reaches if its ways may also go through a further node. -/
def addPivot (rows : Rows) (pivot : Nat) : Rows :=
  let beyond := rows.getD pivot 0
  rows.map fun row => if row.testBit pivot then row ||| beyond else row

/-- What each node reaches in one or more steps. -/
def closure (size : Nat) : Rows :=
  (List.range size).foldl addPivot (direct next size)

theorem reaches_addPivot (rows : Rows) (pivot a b : Nat) :
    reaches (addPivot rows pivot) a b =
      (reaches rows a b || (reaches rows a pivot && reaches rows pivot b)) := by
  simp only [reaches, addPivot, Array.getD_eq_getD_getElem?, Array.getElem?_map]
  cases rows[a]? with
  | none =>
    simp only [Option.map_none, Option.getD_none, Nat.zero_testBit, Bool.false_and, Bool.or_false]
  | some row =>
    simp only [Option.map_some, Option.getD_some]
    by_cases h : row.testBit pivot = true
    · rw [if_pos h, h, Nat.testBit_or, Bool.true_and]
    · rw [if_neg h, Bool.eq_false_iff.2 h, Bool.false_and, Bool.or_false]

theorem testBit_bitsOf (nodes : List Nat) (node : Nat) :
    (bitsOf nodes).testBit node = nodes.contains node := by
  induction nodes with
  | nil => simp [bitsOf]
  | cons first rest ih =>
    simp only [bitsOf, List.foldr_cons, Nat.testBit_or, List.contains_cons]
    rw [show (List.foldr (fun node bits => bits ||| 1 <<< node) 0 rest).testBit node =
      rest.contains node from ih, Bool.or_comm]
    congr 1
    rw [Nat.one_shiftLeft, Nat.testBit_two_pow, Bool.eq_iff_iff]
    simp only [decide_eq_true_eq, beq_iff_eq]
    exact eq_comm

/-- Whether a node lies on a cycle. -/
def onCycle (rows : Rows) (node : Nat) : Bool :=
  reaches rows node node

/-- Whether two nodes reach each other, or are the same. -/
def together (rows : Rows) (a b : Nat) : Bool :=
  a == b || (reaches rows a b && reaches rows b a)

/-! ## Which cycle is reported -/

/-- The state of a visit. -/
structure Visit where
  /-- The nodes that have been entered. -/
  entered : List Nat
  /-- The nodes that are finished, the latest first. -/
  finished : List Nat
deriving Inhabited

/-- Visits a node and what it leads to; `depth` bounds the length of the way. -/
def visit : (depth : Nat) → Visit → Nat → Visit
  | 0, state, _ => state
  | depth + 1, state, node =>
    if state.entered.contains node then state
    else
      let inner := (next node).foldl (visit depth) { state with entered := node :: state.entered }
      { inner with finished := node :: inner.finished }

/-- All nodes, in the order in which a visit that starts with the lowest finishes them. -/
def finishOrder (size : Nat) : List Nat :=
  ((List.range size).foldl (visit next (size + 1)) ⟨[], []⟩).finished.reverse

/-- The first node of a list that lies on a cycle and is together with no node after it. -/
def firstClosed (rows : Rows) : List Nat → Option Nat
  | [] => none
  | node :: rest =>
    if onCycle rows node && !rest.any (together rows node) then some node
    else firstClosed rows rest

/-- The nodes of the cycle that is reported, in ascending order. -/
def reportedCycle (size : Nat) : Option (List Nat) :=
  let rows := closure next size
  (firstClosed rows (finishOrder next size)).map fun node =>
    (List.range size).filter (together rows node)

end BuildPlanner.Reachability
