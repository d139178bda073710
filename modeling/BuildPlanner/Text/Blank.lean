/-!
# Blank characters

The characters with the Unicode property White_Space, and the removal of blanks from both ends of
a text. Define names and tool version lines are trimmed with it, and arguments are quoted by it.
-/

namespace BuildPlanner.Text

/-- The ranges of code points with the property White_Space, in ascending order. -/
def blankRanges : List (Nat × Nat) :=
  [(0x09, 0x0D), (0x20, 0x20), (0x85, 0x85), (0xA0, 0xA0), (0x1680, 0x1680), (0x2000, 0x200A),
    (0x2028, 0x2029), (0x202F, 0x202F), (0x205F, 0x205F), (0x3000, 0x3000)]

/-- Whether a character has the property White_Space. -/
def isBlank (c : Char) : Bool :=
  blankRanges.any fun (low, high) => low ≤ c.toNat && c.toNat ≤ high

/-- Drops the blanks at both ends. -/
def trimChars (cs : List Char) : List Char :=
  ((cs.dropWhile isBlank).reverse.dropWhile isBlank).reverse

/-- The text without the blanks at both ends. -/
def trim (s : String) : String :=
  .ofList (trimChars s.toList)

@[simp] theorem isBlank_space : isBlank ' ' = true := by decide

@[simp] theorem isBlank_newline : isBlank '\n' = true := by decide

@[simp] theorem toList_trim (s : String) : (trim s).toList = trimChars s.toList := by
  simp [trim]

theorem trimChars_nil : trimChars [] = [] := rfl

end BuildPlanner.Text
