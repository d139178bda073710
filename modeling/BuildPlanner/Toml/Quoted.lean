/-!
# Quoted texts

Texts in double quotes have escapes, texts in single quotes have none. Three quotes open a text of
several lines: a newline right after them is dropped, a backslash before a line end joins the lines,
and up to two quotes may stand before the three that close it. Line ends are read as newlines.
-/

namespace BuildPlanner.Toml

/-- A reader takes a value from the front of a text, or fails. -/
abbrev Reader (α : Type) : Type := List Char → Option (α × List Char)

/-- Whether a character separates tokens of a line. -/
def isSpace (c : Char) : Bool := c == ' ' || c == '\t'

/-- Drops spaces and tabs. -/
def skipSpaces (cs : List Char) : List Char := cs.dropWhile isSpace

/-- Whether a character may stand in comments and quoted texts as it is. -/
def isPlain (c : Char) : Bool :=
  c == '\t' || (0x20 ≤ c.toNat && c.toNat ≤ 0x7E) || 0x80 ≤ c.toNat

/-- The text after a line end at its front. -/
def lineEnd? : List Char → Option (List Char)
  | '\n' :: rest => some rest
  | '\r' :: '\n' :: rest => some rest
  | _ => none

/-- Drops spaces, tabs and line ends. -/
def skipLines : List Char → List Char
  | '\n' :: rest => skipLines rest
  | '\r' :: '\n' :: rest => skipLines rest
  | ' ' :: rest => skipLines rest
  | '\t' :: rest => skipLines rest
  | cs => cs

/-- The value of a hexadecimal digit. -/
def hexDigit? (c : Char) : Option Nat :=
  if '0' ≤ c ∧ c ≤ '9' then some (c.toNat - '0'.toNat)
  else if 'a' ≤ c ∧ c ≤ 'f' then some (c.toNat - 'a'.toNat + 10)
  else if 'A' ≤ c ∧ c ≤ 'F' then some (c.toNat - 'A'.toNat + 10)
  else none

/-- The number that hexadecimal digits write. -/
def hexNumber? (cs : List Char) : Option Nat :=
  cs.foldl (fun value c => do return 16 * (← value) + (← hexDigit? c)) (some 0)

/-- The character whose number the given count of hexadecimal digits writes. -/
def codePoint (count : Nat) : Reader Char := fun cs =>
  if (cs.take count).length = count then
    match hexNumber? (cs.take count) with
    | some value => if value.isValidChar then some (.ofNat value, cs.drop count) else none
    | none => none
  else none

/-- The escape that follows a backslash. -/
def escape : Reader Char
  | 'b' :: rest => some ('\x08', rest)
  | 't' :: rest => some ('\t', rest)
  | 'n' :: rest => some ('\n', rest)
  | 'f' :: rest => some ('\x0c', rest)
  | 'r' :: rest => some ('\r', rest)
  | '"' :: rest => some ('"', rest)
  | '\\' :: rest => some ('\\', rest)
  | 'u' :: rest => codePoint 4 rest
  | 'U' :: rest => codePoint 8 rest
  | _ => none

theorem length_codePoint {count : Nat} {cs rest : List Char} {c : Char}
    (h : codePoint count cs = some (c, rest)) : rest.length ≤ cs.length := by
  unfold codePoint at h
  split at h <;> try contradiction
  split at h <;> try contradiction
  split at h <;> try contradiction
  simp only [Option.some.injEq, Prod.mk.injEq] at h
  simp [← h.2]

theorem length_escape {cs rest : List Char} {c : Char} (h : escape cs = some (c, rest)) :
    rest.length < cs.length := by
  unfold escape at h
  split at h
  case h_8 => have := length_codePoint h; simp only [List.length_cons]; omega
  case h_9 => have := length_codePoint h; simp only [List.length_cons]; omega
  case h_10 => contradiction
  all_goals
    simp only [Option.some.injEq, Prod.mk.injEq] at h
    simp [← h.2]

theorem length_skipSpaces (cs : List Char) : (skipSpaces cs).length ≤ cs.length :=
  (List.dropWhile_sublist (l := cs) isSpace).length_le

theorem length_skipLines (cs : List Char) : (skipLines cs).length ≤ cs.length := by
  fun_induction skipLines cs <;> simp <;> omega

theorem length_lineEnd {cs rest : List Char} (h : lineEnd? cs = some rest) :
    rest.length < cs.length := by
  unfold lineEnd? at h
  split at h
  case h_3 => contradiction
  all_goals
    simp only [Option.some.injEq] at h
    simp only [← h, List.length_cons]
    omega

/-- Reads a text of one line, after its opening quote. -/
def quotedRest (quote : Char) (cs : List Char) : Option (List Char × List Char) :=
  match cs with
  | [] => none
  | c :: rest =>
    if c = quote then some ([], rest)
    else if c = '\\' ∧ quote = '"' then
      match h : escape rest with
      | some (d, after) =>
        have := length_escape h
        (quotedRest quote after).map fun (text, rest) => (d :: text, rest)
      | none => none
    else if isPlain c then (quotedRest quote rest).map fun (text, rest) => (c :: text, rest)
    else none
termination_by cs.length
decreasing_by all_goals simp only [List.length_cons]; omega

/-- Reads a text of several lines, after its opening quotes. -/
def multilineRest (quote : Char) (cs : List Char) : Option (List Char × List Char) :=
  match cs with
  | [] => none
  | c :: rest =>
    if c = quote then
      let more := rest.takeWhile (· == quote)
      have := (List.dropWhile_sublist (l := rest) (· == quote)).length_le
      if more.length < 2 then
        (multilineRest quote (rest.dropWhile (· == quote))).map fun (text, rest) =>
          (c :: more ++ text, rest)
      else if more.length < 5 then some (more.drop 2, rest.dropWhile (· == quote))
      else none
    else if c = '\\' ∧ quote = '"' then
      match h : lineEnd? (skipSpaces rest) with
      | some after =>
        have := length_lineEnd h
        have := length_skipSpaces rest
        have := length_skipLines after
        multilineRest quote (skipLines after)
      | none =>
        match h : escape rest with
        | some (d, after) =>
          have := length_escape h
          (multilineRest quote after).map fun (text, rest) => (d :: text, rest)
        | none => none
    else
      match h : lineEnd? (c :: rest) with
      | some after =>
        have := length_lineEnd h
        (multilineRest quote after).map fun (text, rest) => ('\n' :: text, rest)
      | none =>
        if isPlain c then (multilineRest quote rest).map fun (text, rest) => (c :: text, rest)
        else none
termination_by cs.length
decreasing_by all_goals simp only [List.length_cons] at *; omega

/-- Drops a line end at the front. -/
def dropLineEnd (cs : List Char) : List Char :=
  (lineEnd? cs).getD cs

/-- Reads a text of one line in either kind of quotes. -/
def quotedLine : Reader (List Char)
  | '"' :: rest => quotedRest '"' rest
  | '\'' :: rest => quotedRest '\'' rest
  | _ => none

/-- Reads a quoted text. -/
def quoted : Reader (List Char)
  | '"' :: '"' :: '"' :: rest => multilineRest '"' (dropLineEnd rest)
  | '\'' :: '\'' :: '\'' :: rest => multilineRest '\'' (dropLineEnd rest)
  | cs => quotedLine cs

end BuildPlanner.Toml
