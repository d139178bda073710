import BuildPlanner.Text.Blank

/-!
# Preprocessor defines

A define is written as a name, or as a name and a value with an equals sign between them. The name
is trimmed and may not hold blanks; the value is taken as it is, and may be empty.
-/

namespace BuildPlanner

/-- A preprocessor define; without a value it is a flag. -/
structure Define where
  /-- The name of the macro. -/
  name : String
  /-- The value, if one is given; it may be empty. -/
  value : Option String
deriving DecidableEq, Repr, Inhabited

/-- What is wrong with the text of a define. -/
inductive DefineError where
  /-- Nothing but blanks stands before the equals sign. -/
  | missingName (text : String)
  /-- A blank stands inside the name. -/
  | blankInName (text : String)
deriving DecidableEq, Repr

/-- What is said about a text that is no define. -/
def DefineError.message : DefineError → String
  | missingName text => s!"invalid define '{text}': missing name"
  | blankInName text => s!"invalid define '{text}': name contains whitespace"

namespace Define

/-- A define without a value. -/
def flag (name : String) : Define := ⟨name, none⟩

/-- A define with a value. -/
def withValue (name value : String) : Define := ⟨name, some value⟩

/-- The characters of a define as it is written. -/
def display (d : Define) : List Char :=
  match d.value with
  | some value => d.name.toList ++ '=' :: value.toList
  | none => d.name.toList

/-- The define as it is written. -/
def text (d : Define) : String :=
  .ofList d.display

/-- The text after the first equals sign, if there is one. -/
def valuePart (cs : List Char) : Option (List Char) :=
  match cs.dropWhile (· != '=') with
  | [] => none
  | _ :: value => some value

/-- The text before the first equals sign. -/
def namePart (cs : List Char) : List Char :=
  cs.takeWhile (· != '=')

/-- Reads a define. -/
def parse (text : String) : Except DefineError Define :=
  let name := Text.trimChars (namePart text.toList)
  if name = [] then .error (.missingName text)
  else if name.any Text.isBlank then .error (.blankInName text)
  else .ok ⟨.ofList name, (valuePart text.toList).map .ofList⟩

instance : ToString Define := ⟨text⟩

@[simp] theorem toList_text (d : Define) : d.text.toList = d.display := by
  simp [text]

end Define

end BuildPlanner
