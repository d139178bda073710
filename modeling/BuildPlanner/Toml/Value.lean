import BuildPlanner.Toml.Span

/-!
# Configuration values

The values of a configuration text, with the places where they stand. A table keeps its members in
order, and how it was written, because that decides whether it may be added to later; a table that
was not written by itself has no place of its own. Floating point numbers and moments are kept as
they are shown in messages.
-/

namespace BuildPlanner.Toml

/-- A name in a key. -/
structure Name where
  /-- The name, without quotes. -/
  text : String
  /-- Where it stands. -/
  span : Span
deriving DecidableEq, Repr, Inhabited

/-- How a table was written. -/
inductive TableStyle where
  /-- With a header of its own, or as the top of the text. -/
  | header (span : Span)
  /-- Only by the header of a table inside it. -/
  | implied
  /-- By keys with dots. -/
  | dotted
  /-- In braces. -/
  | inline (span : Span)
deriving DecidableEq, Repr, Inhabited

namespace TableStyle

/-- Whether a key with dots may add to a table of the style. -/
def isOpen : TableStyle → Bool
  | implied | dotted => true
  | header _ | inline _ => false

/-- Whether keys with dots made the table. -/
def isDotted : TableStyle → Bool
  | dotted => true
  | _ => false

/-- Where the table stands, if it was written by itself. -/
def span? : TableStyle → Option Span
  | header span | inline span => some span
  | implied | dotted => none

end TableStyle

/-- A value that holds no others. -/
inductive Scalar where
  /-- A text. -/
  | text (value : String)
  /-- An integer. -/
  | integer (value : Int)
  /-- A floating point number. -/
  | float (shown : String)
  /-- A truth value. -/
  | boolean (value : Bool)
  /-- A date, a time, or both. -/
  | moment (shown : String)
deriving DecidableEq, Repr, Inhabited

/-- A value. -/
inductive Value where
  /-- A value that holds no others. -/
  | scalar (content : Scalar) (span : Span)
  /-- An array. -/
  | array (items : List Value) (span : Span)
  /-- A table. -/
  | table (style : TableStyle) (members : List (Name × Value))
  /-- Tables with one header, in order, each with its place. -/
  | tables (items : List (Span × List (Name × Value)))
deriving Inhabited

/-- The members of a table, in order. -/
abbrev Members := List (Name × Value)

/-- Where a value stands. Tables with one header stand from the first to the last. -/
def Value.span? : Value → Option Span
  | scalar _ span | array _ span => some span
  | table style _ => style.span?
  | tables [] => none
  | tables (first :: rest) => some ⟨first.1.start, ((first :: rest).getLast (by simp)).1.stop⟩

end BuildPlanner.Toml
