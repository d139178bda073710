import BuildPlanner.Define
import BuildPlanner.Toml.Span

/-!
# Faults of values

What is wrong with a value that is not what it should be, and where. A fault is found without its
place where only what is around it has one; the place is then that of the nearest such value.
-/

namespace BuildPlanner.Toml

/-- What is wrong with a value. -/
inductive SchemaFault where
  /-- A member that the table does not have. -/
  | unknownField (name : String) (known : List String)
  /-- A member that is required. -/
  | missingField (name : String)
  /-- A name that is not one of the known. -/
  | unknownVariant (name : String) (known : List String)
  /-- A value of another type. -/
  | invalidType (found wanted : String)
  /-- An integer out of range. -/
  | invalidValue (value : Int) (wanted : String)
  /-- An array with too few members of a table. -/
  | invalidLength (length : Nat) (shape : String) (size : Nat)
  /-- A table in place of a name, without members. -/
  | noVariant
  /-- A table in place of a name, with several members. -/
  | severalVariants
  /-- A name that is given something. -/
  | variantWithContent (found : String)
  /-- Neither a name nor a table. -/
  | notAVariant
  /-- A text that is no define. -/
  | define (fault : DefineError)
deriving DecidableEq, Repr

/-- Names for a message, as alternatives. -/
def alternatives : List String → String
  | [] => "there are no fields"
  | [a] => s!"`{a}`"
  | [a, b] => s!"`{a}` or `{b}`"
  | names => "one of " ++ ", ".intercalate (names.map fun name => s!"`{name}`")

/-- What is said about a fault. -/
def SchemaFault.message : SchemaFault → String
  | unknownField name [] => s!"unknown field `{name}`, there are no fields"
  | unknownField name known => s!"unknown field `{name}`, expected " ++ alternatives known
  | missingField name => s!"missing field `{name}`"
  | unknownVariant name known => s!"unknown variant `{name}`, expected " ++ alternatives known
  | invalidType found wanted => s!"invalid type: {found}, expected {wanted}"
  | invalidValue value wanted => s!"invalid value: integer `{value}`, expected {wanted}"
  | invalidLength length shape size =>
    s!"invalid length {length}, expected struct {shape} with {size} element" ++
      (if size = 1 then "" else "s")
  | noVariant => "wanted exactly 1 element, found 0 elements"
  | severalVariants => "wanted exactly 1 element, more than 1 element"
  | variantWithContent found => found
  | notAVariant => "wanted string or table"
  | define fault => fault.message

/-- A fault with its place, as far as it is known. -/
structure Misfit where
  /-- What is wrong. -/
  fault : SchemaFault
  /-- Where it is wrong. -/
  span : Option Span
deriving DecidableEq, Repr

/-- The answer with its fault placed where a value stands, unless the fault has a place. -/
def within {α : Type} (span : Option Span) (answer : Except Misfit α) : Except Misfit α :=
  answer.mapError fun misfit => { misfit with span := misfit.span.or span }

/-- A fault with the line of the text where it is. -/
structure SchemaError where
  /-- What is wrong. -/
  fault : SchemaFault
  /-- The line where it is wrong. -/
  excerpt : Excerpt
deriving DecidableEq, Repr

namespace SchemaError

/-- The error of a fault in a text; one without a place is at its start. -/
def ofMisfit (text : String) (misfit : Misfit) : SchemaError where
  fault := misfit.fault
  excerpt := (misfit.span.getD ⟨text.toList, text.toList⟩).excerpt text.toList

/-- What is said about the fault, with the line. -/
def message (error : SchemaError) : String :=
  "TOML parse error at " ++ error.excerpt.text ++ error.fault.message ++ "\n"

end SchemaError

@[simp] theorem within_ok {α : Type} (span : Option Span) (value : α) :
    within span (.ok value) = .ok value := rfl

end BuildPlanner.Toml
