import BuildPlanner.Toml.Expression

/-!
# Configuration texts

A text is read line by line. A line holds a member of the current table, or the header of the next
table, or nothing, and may end in a comment. A table is put into the document when the next header
or the end of the text is reached; a header of a table that so far was only implied goes on with
that table.
-/

namespace BuildPlanner.Toml

/-- The table that the lines are added to. -/
structure Current where
  /-- The headers that lead to it; none for the top. -/
  path : List Name
  /-- Whether it is one of several tables with one header. -/
  repeated : Bool
  /-- Where it stands so far. -/
  span : Span
  /-- Its members so far. -/
  members : Members
deriving Inhabited

/-- What has been read so far. -/
structure Progress where
  /-- Where the top stands, once it is finished. -/
  top : Span
  /-- The finished tables. -/
  document : Members
  /-- The table that is read. -/
  current : Current
deriving Inhabited

namespace Progress

/-- Nothing of a text has been read. -/
def start (text : List Char) : Progress := ⟨⟨text, text⟩, [], ⟨[], false, ⟨text, text⟩, []⟩⟩

/-- Puts a finished table among the members of the table that holds it. -/
def place (current : Current) (name : Name) (members : Members) : Option Members :=
  if current.repeated then
    let item := (current.span, current.members)
    match members.value? name.text with
    | none => some (members ++ [(name, .tables [item])])
    | some (.tables items) => some (members.replace name.text (.tables (items ++ [item])))
    | some _ => none
  else some (members.put name (.table (.header current.span) current.members))

/-- The document with the current table in it, and where its top stands. -/
def finish (p : Progress) : Option (Span × Members) :=
  match p.current.path.getLast? with
  | none => some (p.current.span, p.current.members)
  | some name => do
    return (p.top, ← p.document.updateAt p.current.path.dropLast (place p.current name))

/-- Adds a member to the current table, which goes on to the end of the value. -/
def addMember (p : Progress) (key : Key) (value : Value) : Option Progress := do
  let current := p.current
  let members ← current.members.add false false key.path key.name value
  let span := { current.span with stop := (value.span?.getD current.span).stop }
  return { p with current := { current with members, span } }

/-- Starts a table at its header. One that was only implied is taken out of the document and gone on
with. -/
def startTable (p : Progress) (span : Span) (key : Key) : Option Progress := do
  let (top, document) ← p.finish
  let document ← document.updateAt key.path some
  let path := key.path ++ [key.name]
  match (document.tableAt? key.path).bind (·.value? key.name.text) with
  | none => return { top, document, current := ⟨path, false, span, []⟩ }
  | some (.table .implied members) =>
    let rest ← document.updateAt key.path fun members => some (members.remove key.name.text)
    return { top, document := rest, current := ⟨path, false, span, members⟩ }
  | some _ => none

/-- Starts a table that shares its header with others. -/
def startRepeated (p : Progress) (span : Span) (key : Key) : Option Progress := do
  let (top, document) ← p.finish
  let document ← document.updateAt key.path fun members =>
    match members.value? key.name.text with
    | none => some (members ++ [(key.name, .tables [])])
    | some (.tables _) => some members
    | some _ => none
  return { top, document, current := ⟨key.path ++ [key.name], true, span, []⟩ }

end Progress

/-- The text after the rest of a line, which may hold a comment. -/
def endOfLine? (cs : List Char) : Option (List Char) :=
  match skipComment (skipSpaces cs) with
  | [] => some []
  | rest => lineEnd? rest

/-- Reads the first line of a text. -/
def line (p : Progress) (cs : List Char) : Option (Progress × List Char) :=
  match skipSpaces cs with
  | '[' :: '[' :: rest => do
    let (key, after) ← key rest
    match after with
    | ']' :: ']' :: after =>
      return (← p.startRepeated ⟨'[' :: '[' :: rest, after⟩ key, ← endOfLine? after)
    | _ => none
  | '[' :: rest => do
    let (key, after) ← key rest
    match after with
    | ']' :: after => return (← p.startTable ⟨'[' :: rest, after⟩ key, ← endOfLine? after)
    | _ => none
  | rest =>
    match endOfLine? rest with
    | some rest => some (p, rest)
    | none => do
      let ((key, value), rest) ← member (value maxDepth) rest
      return (← p.addMember key value, ← endOfLine? rest)

/-- Reads a text line by line; `fuel` bounds the number of lines. -/
def readLines : (fuel : Nat) → Progress → List Char → Option (Span × Members)
  | _, p, [] => p.finish
  | 0, _, _ => none
  | fuel + 1, p, cs => do
    let (p, rest) ← line p cs
    readLines fuel p rest

/-- Drops the mark that may stand at the front of a text. -/
def dropMark : List Char → List Char
  | '\uFEFF' :: rest => rest
  | cs => cs

/-- Reads a text as a table; there is no answer if it is not well formed. -/
def parse (text : String) : Option Value :=
  (readLines text.length (.start text.toList) (dropMark text.toList)).map fun (span, members) =>
    .table (.header span) members

end BuildPlanner.Toml
