/-!
# Glob patterns

In a pattern `?` stands for any character, `*` for any characters, `[...]` for one of the listed
characters and `[!...]` for one that is not listed, where two characters with a dash between them
list a range. `**` stands for any directories below and has to be a whole component. All other
characters stand for themselves, and letter case counts.
-/

namespace BuildPlanner.Glob

/-- What a bracket lists. -/
inductive Listed where
  /-- One character. -/
  | one (c : Char)
  /-- All characters from one to another. -/
  | range (low high : Char)
deriving DecidableEq, Repr

/-- Whether a character is listed. -/
def Listed.holds (c : Char) : Listed → Bool
  | one d => c = d
  | range low high => low ≤ c && c ≤ high

/-- A part of a pattern. -/
inductive Token where
  /-- A character that stands for itself. -/
  | char (c : Char)
  /-- Any character. -/
  | anyChar
  /-- Any characters. -/
  | anySequence
  /-- Any directories below. -/
  | anyTree
  /-- One of the listed characters. -/
  | within (listed : List Listed)
  /-- A character that is not listed. -/
  | except (listed : List Listed)
deriving DecidableEq, Repr

/-- What is wrong with a pattern. -/
inductive PatternFaultKind where
  /-- Three or more stars stand together. -/
  | wildcards
  /-- Two stars are not a whole component. -/
  | recursive
  /-- A bracket is not closed, or lists nothing. -/
  | bracket
deriving DecidableEq, Repr

/-- A pattern that cannot be read. -/
structure PatternFault where
  /-- The number of characters before the fault. -/
  position : Nat
  /-- What is wrong there. -/
  kind : PatternFaultKind
deriving DecidableEq, Repr

/-- What is said about a kind of fault. -/
def PatternFaultKind.message : PatternFaultKind → String
  | wildcards => "wildcards are either regular `*` or recursive `**`"
  | recursive => "recursive wildcards must form a single path component"
  | bracket => "invalid range pattern"

/-- What is said about a pattern that cannot be read. -/
def PatternFault.message (fault : PatternFault) : String :=
  s!"Pattern syntax error near position {fault.position}: " ++ fault.kind.message

/-! ## Reading -/

/-- What the characters inside a bracket list. -/
def listedIn : List Char → List Listed
  | low :: '-' :: high :: rest => .range low high :: listedIn rest
  | c :: rest => .one c :: listedIn rest
  | [] => []

/-- Splits at the first closing bracket. -/
def closing? : List Char → Option (List Char × List Char)
  | [] => none
  | ']' :: rest => some ([], rest)
  | c :: rest => (closing? rest).map fun (inside, after) => (c :: inside, after)

/-- The bracket that starts the given text, and the text after it. The first listed character may
be a closing bracket. -/
def bracket? : List Char → Option (Token × List Char)
  | '!' :: first :: rest =>
    (closing? rest).map fun (inside, after) => (.except (listedIn (first :: inside)), after)
  | first :: rest =>
    if first = '!' then none
    else (closing? rest).map fun (inside, after) => (.within (listedIn (first :: inside)), after)
  | [] => none

theorem length_closing {cs inside after : List Char} (h : closing? cs = some (inside, after)) :
    after.length < cs.length := by
  induction cs generalizing inside after with
  | nil => simp [closing?] at h
  | cons c cs ih =>
    by_cases hc : c = ']'
    · subst hc
      simp only [closing?, Option.some.injEq, Prod.mk.injEq] at h
      simp [← h.2]
    · rw [closing?.eq_def] at h
      split at h
      · contradiction
      · next heq => simp_all
      · next d rest heq =>
        obtain ⟨rfl, rfl⟩ := List.cons.inj heq
        simp only [Option.map_eq_some_iff, Prod.mk.injEq, Prod.exists] at h
        obtain ⟨i, a, hcl, -, rfl⟩ := h
        have := ih hcl
        simp only [List.length_cons]
        omega

theorem length_bracket {cs after : List Char} {token : Token}
    (h : bracket? cs = some (token, after)) : after.length < cs.length := by
  unfold bracket? at h
  split at h
  · simp only [Option.map_eq_some_iff, Prod.mk.injEq, Prod.exists] at h
    obtain ⟨i, a, hcl, -, rfl⟩ := h
    have := length_closing hcl
    simp only [List.length_cons]
    omega
  · split at h
    · contradiction
    · simp only [Option.map_eq_some_iff, Prod.mk.injEq, Prod.exists] at h
      obtain ⟨i, a, hcl, -, rfl⟩ := h
      have := length_closing hcl
      simp only [List.length_cons]
      omega
  · contradiction

/-- Reads the rest of a pattern of `total` characters, after the character `previous`. -/
def tokensFrom (total : Nat) (previous : Option Char) (cs : List Char) :
    Except PatternFault (List Token) :=
  match cs with
  | [] => .ok []
  | '?' :: rest => (tokensFrom total (some '?') rest).map (.anyChar :: ·)
  | '*' :: '*' :: '*' :: rest => .error ⟨total - (rest.length + 1), .wildcards⟩
  | '*' :: '*' :: rest =>
    if previous = none ∨ previous = some '/' then
      match rest with
      | [] => .ok [.anyTree]
      | '/' :: rest => (tokensFrom total (some '/') rest).map (.anyTree :: ·)
      | rest => .error ⟨total - rest.length, .recursive⟩
    else .error ⟨total - (rest.length + 3), .recursive⟩
  | '*' :: rest => (tokensFrom total (some '*') rest).map (.anySequence :: ·)
  | '[' :: rest =>
    match h : bracket? rest with
    | some (token, after) => (tokensFrom total (some ']') after).map (token :: ·)
    | none => .error ⟨total - (rest.length + 1), .bracket⟩
  | c :: rest => (tokensFrom total (some c) rest).map (.char c :: ·)
termination_by cs.length
decreasing_by
  all_goals simp only [List.length_cons]
  any_goals omega
  have := length_bracket h
  omega

/-- Reads a pattern. -/
def parse (pattern : List Char) : Except PatternFault (List Token) :=
  tokensFrom pattern.length none pattern

/-- Writes a text so that a pattern finds it literally. -/
def escape (cs : List Char) : List Char :=
  cs.flatMap fun c => if c = '?' ∨ c = '*' ∨ c = '[' ∨ c = ']' then ['[', c, ']'] else [c]

end BuildPlanner.Glob
