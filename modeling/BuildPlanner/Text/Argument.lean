import BuildPlanner.Text.Blank

/-!
# Command-line arguments

An argument that holds a blank is put in double quotes, and the quotes inside it get a backslash.
An argument that already starts with a double quote is taken to be quoted and stays as it is.
-/

namespace BuildPlanner.Text

/-- Puts a backslash before each double quote. -/
def escapeQuotes (cs : List Char) : List Char :=
  cs.flatMap fun c => if c = '"' then ['\\', '"'] else [c]

/-- Whether an argument has to be put in quotes: it holds a blank and is not quoted yet. -/
def needsQuotes (cs : List Char) : Bool :=
  cs.any isBlank && cs.head? != some '"'

/-- The characters of an argument as it stands on a command line. -/
def quoteChars (cs : List Char) : List Char :=
  if needsQuotes cs then '"' :: escapeQuotes cs ++ ['"'] else cs

/-- An argument as it stands on a command line. -/
def quoteArgument (argument : String) : String :=
  .ofList (quoteChars argument.toList)

/-- Arguments as they stand on a command line, with single spaces between them. -/
def joinArguments (arguments : List String) : String :=
  " ".intercalate (arguments.map quoteArgument)

@[simp] theorem toList_quoteArgument (argument : String) :
    (quoteArgument argument).toList = quoteChars argument.toList := by
  simp [quoteArgument]

@[simp] theorem joinArguments_nil : joinArguments [] = "" := rfl

theorem quoteArgument_of_not_blank {argument : String}
    (h : ∀ c ∈ argument.toList, isBlank c = false) : quoteArgument argument = argument := by
  have : argument.toList.any isBlank = false := by simpa using h
  simp [quoteArgument, quoteChars, needsQuotes, this]

end BuildPlanner.Text
