import BuildPlanner.Path.Basic

/-!
# Sorted paths

Paths are sorted by their text, with backslashes read as slashes, and of neighbours that name the
same place the first is kept.
-/

namespace BuildPlanner.Path

/-- The text by which a path is sorted. -/
def sortKey (p : Path) : String :=
  .ofList (p.text.toList.map fun c => if c = '\\' then '/' else c)

/-- Whether the first path may stand before the second. -/
def keyLE (p q : Path) : Bool :=
  decide (p.sortKey ≤ q.sortKey)

/-- Drops the entries that repeat the entry kept before them. -/
def dropRepeatsOf (previous : Path) : List Path → List Path
  | [] => []
  | p :: rest =>
    if previous.same p then dropRepeatsOf previous rest else p :: dropRepeatsOf p rest

/-- Keeps the first of neighbours that name the same place. -/
def dropRepeats : List Path → List Path
  | [] => []
  | p :: rest => p :: dropRepeatsOf p rest

/-- The paths in the order of their text, without repeats beside each other. -/
def sort (paths : List Path) : List Path :=
  dropRepeats (paths.mergeSort keyLE)

theorem keyLE_trans (p q r : Path) (hpq : keyLE p q = true) (hqr : keyLE q r = true) :
    keyLE p r = true := by
  simp only [keyLE, decide_eq_true_eq] at *
  exact String.le_trans hpq hqr

theorem keyLE_total (p q : Path) : (keyLE p q || keyLE q p) = true := by
  simpa [keyLE] using String.le_total p.sortKey q.sortKey

@[simp] theorem sort_nil : sort [] = [] := by
  simp [sort, dropRepeats]

end BuildPlanner.Path
