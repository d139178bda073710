/-!
# Ranges of characters

The characters with a property of the Unicode standard, as ranges of code points in ascending order.
-/

namespace BuildPlanner.Text

/-- The first and the last code point of a range. -/
abbrev CharacterRange : Type := Nat × Nat

/-- Whether a code point lies in one of the ranges, which ascend. -/
def isInRanges (code : Nat) : List CharacterRange → Bool
  | [] => false
  | (low, high) :: ranges => low ≤ code && (code ≤ high || isInRanges code ranges)

@[simp] theorem isInRanges_nil (code : Nat) : isInRanges code [] = false := rfl

theorem isInRanges_cons_of_lt {code low high : Nat} (ranges : List CharacterRange)
    (h : code < low) : isInRanges code ((low, high) :: ranges) = false := by
  simp [isInRanges]
  omega

end BuildPlanner.Text
