import BuildPlanner.Toml.Value

/-!
# Building tables

How the members of a table come together. A key with dots makes the tables on its way and may add
to tables that were made so, or that so far exist only because of a table inside them. A path into
tables with one header leads to the last of them. Nothing is ever written twice.
-/

namespace BuildPlanner.Toml

namespace Members

/-- The value of a member. -/
def value? (members : Members) (key : String) : Option Value :=
  (members.find? (·.1.text == key)).map (·.2)

/-- The members with the value of one replaced, in its place. -/
def replace (members : Members) (key : String) (value : Value) : Members :=
  members.map fun member => if member.1.text = key then (member.1, value) else member

/-- The members without one. -/
def remove (members : Members) (key : String) : Members :=
  members.filter (·.1.text != key)

/-- The members with one put in its place, or at the end. -/
def put (members : Members) (key : Name) (value : Value) : Members :=
  if (members.value? key.text).isSome then members.replace key.text value
  else members ++ [(key, value)]

/-- Adds a member under a key with dots. `dotted` says that keys with dots made the table itself,
and `within` that keys with dots led to it. -/
def add (dotted within : Bool) (members : Members) (path : List Name) (key : Name)
    (value : Value) : Option Members :=
  match path with
  | [] =>
    if dotted != within then none
    else if (members.value? key.text).isSome then none
    else some (members ++ [(key, value)])
  | step :: path =>
    match members.value? step.text with
    | none => do
      return members ++ [(step, .table .dotted (← add true true [] path key value))]
    | some (.table style content) =>
      if style.isOpen then do
        let content ← add style.isDotted true content path key value
        return members.replace step.text (.table style content)
      else none
    | some (.tables items) => do
      let last ← items.getLast?
      let content ← add false true last.2 path key value
      return members.replace step.text (.tables (items.dropLast ++ [(last.1, content)]))
    | some _ => none

/-- Changes the table at the end of a path of headers; tables that are missing on the way are
implied. -/
def updateAt (members : Members) (path : List Name) (change : Members → Option Members) :
    Option Members :=
  match path with
  | [] => change members
  | step :: path =>
    match members.value? step.text with
    | none => do return members ++ [(step, .table .implied (← updateAt [] path change))]
    | some (.table (.inline _) _) => none
    | some (.table style content) => do
      return members.replace step.text (.table style (← updateAt content path change))
    | some (.tables items) => do
      let last ← items.getLast?
      let content ← updateAt last.2 path change
      return members.replace step.text (.tables (items.dropLast ++ [(last.1, content)]))
    | some _ => none

/-- The table at the end of a path of headers, if there is one. -/
def tableAt? (members : Members) : List Name → Option Members
  | [] => some members
  | step :: path =>
    match members.value? step.text with
    | some (.table (.inline _) _) => none
    | some (.table _ content) => tableAt? content path
    | some (.tables items) => items.getLast?.bind fun last => tableAt? last.2 path
    | _ => none

end Members

end BuildPlanner.Toml
