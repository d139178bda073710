import BuildPlanner.Glob.Pattern

/-!
# Matching names

`accepts` says which names are of the form that tokens give: a sequence takes any number of
characters, and every other token takes one. `isMatch` gives the same answer, from the first
sequence on by a table: for the rest of the tokens it holds the answers for a name and all that can
be left of it, so no rest of a name is looked at twice with the same tokens.
-/

namespace BuildPlanner.Glob

/-- Whether a token takes any number of characters. -/
def Token.isSequence : Token → Bool
  | anySequence | anyTree => true
  | _ => false

/-- Whether a token that takes one character takes the given one. -/
def Token.holds (c : Char) : Token → Bool
  | char d => c == d
  | anyChar => true
  | within listed => listed.any (·.holds c)
  | except listed => !listed.any (·.holds c)
  | anySequence | anyTree => false

/-- Whether a test holds of a text or of what is left of it after some characters. -/
def anySuffix (test : List Char → Bool) : List Char → Bool
  | [] => test []
  | c :: cs => test (c :: cs) || anySuffix test cs

/-- Whether a test holds of a text after its first character, which a token has to take. -/
def afterOne (token : Token) (test : List Char → Bool) : List Char → Bool
  | [] => false
  | c :: cs => token.holds c && test cs

/-- Whether a name is of the form that the tokens give. -/
def accepts : List Token → List Char → Bool
  | [], name => name.isEmpty
  | token :: tokens, name =>
    if token.isSequence then anySuffix (accepts tokens) name
    else afterOne token (accepts tokens) name

/-! ## The table -/

/-- A text and all that can be left of it, the longest first. -/
def suffixes : List Char → List (List Char)
  | [] => [[]]
  | c :: cs => (c :: cs) :: suffixes cs

/-- The answers for a sequence before the tokens that gave the answers. -/
def answersOfSequence : List Bool → List Bool
  | [] => []
  | answer :: answers =>
    let later := answersOfSequence answers
    (answer || later.headD false) :: later

/-- The answers for a token of one character before the tokens that gave the answers. -/
def answersOfOne (token : Token) : List Char → List Bool → List Bool
  | [], _ => [false]
  | c :: cs, answers =>
    (token.holds c && answers.tail.headD false) :: answersOfOne token cs answers.tail

/-- The answers for a name and all that can be left of it, the longest first. -/
def answers : List Token → List Char → List Bool
  | [], name => (suffixes name).map List.isEmpty
  | token :: tokens, name =>
    if token.isSequence then answersOfSequence (answers tokens name)
    else answersOfOne token name (answers tokens name)

/-- Whether a name is of the form that the tokens give. The table starts at the first sequence. -/
def isMatch : List Token → List Char → Bool
  | [], name => name.isEmpty
  | token :: tokens, name =>
    if token.isSequence then (answers (token :: tokens) name).headD false
    else afterOne token (isMatch tokens) name

theorem headD_map_suffixes (test : List Char → Bool) (name : List Char) :
    ((suffixes name).map test).headD false = test name := by
  cases name <;> simp [suffixes]

theorem answersOfSequence_map (test : List Char → Bool) (name : List Char) :
    answersOfSequence ((suffixes name).map test) = (suffixes name).map (anySuffix test) := by
  induction name with
  | nil => simp [suffixes, answersOfSequence, anySuffix]
  | cons c cs ih =>
    simp only [suffixes, List.map_cons, answersOfSequence, ih, headD_map_suffixes, anySuffix]

theorem answersOfOne_map (token : Token) (test : List Char → Bool) (name : List Char) :
    answersOfOne token name ((suffixes name).map test) =
      (suffixes name).map (afterOne token test) := by
  induction name with
  | nil => simp [suffixes, answersOfOne, afterOne]
  | cons c cs ih =>
    simp only [suffixes, List.map_cons, answersOfOne, List.tail_cons, ih, headD_map_suffixes,
      afterOne]

theorem answers_eq_map (tokens : List Token) (name : List Char) :
    answers tokens name = (suffixes name).map (accepts tokens) := by
  induction tokens with
  | nil => rfl
  | cons token tokens ih =>
    by_cases h : token.isSequence = true
    · simp only [answers, h, if_true, ih, answersOfSequence_map]
      simp only [accepts, h, if_true]
    · simp only [answers, h, ih, answersOfOne_map]
      simp only [accepts, h]
      rfl

theorem isMatch_eq_accepts (tokens : List Token) (name : List Char) :
    isMatch tokens name = accepts tokens name := by
  induction tokens generalizing name with
  | nil => rfl
  | cons token tokens ih =>
    rw [isMatch]
    split
    · rw [answers_eq_map, headD_map_suffixes]
    · next h =>
      simp only [accepts, h]
      cases name <;> simp [afterOne, ih]

/-! ## Literal names -/

/-- The text that the tokens spell, if each stands for itself. -/
def literal? : List Token → Option (List Char)
  | [] => some []
  | .char c :: tokens => (literal? tokens).map (c :: ·)
  | _ => none

/-- Whether the tokens stand for any directories below. -/
def isTree (tokens : List Token) : Bool :=
  tokens.contains .anyTree

theorem accepts_literal {tokens : List Token} {text name : List Char}
    (h : literal? tokens = some text) : accepts tokens name = true ↔ name = text := by
  induction tokens generalizing text name with
  | nil => simp_all [literal?, accepts]
  | cons token tokens ih =>
    cases token <;> simp only [literal?, reduceCtorEq, Option.map_eq_some_iff] at h
    obtain ⟨rest, hrest, rfl⟩ := h
    cases name with
    | nil => simp [accepts, Token.isSequence, afterOne]
    | cons c name => simp [accepts, Token.isSequence, afterOne, Token.holds, ih hrest]

end BuildPlanner.Glob
