import BuildPlanner.Path.Basic
import BuildPlanner.Text.Display
import BuildPlanner.Toml.SchemaFault
import BuildPlanner.Toml.Value

/-!
# Reading values as what they mean

A shape names the members of a table and says how each of them is taken over into a record. Members
are taken in the order of the text; then those that are required and missing are looked for, in
the order of the shape. A table may also be given as an array of its members in the order of the
shape, and a name as a table with that name alone.
-/

namespace BuildPlanner.Toml

/-- A value that holds no others as messages name it. -/
def Scalar.shown : Scalar → String
  | text value => "string " ++ Text.display value
  | integer value => s!"integer `{value}`"
  | float shown => s!"floating point `{shown}`"
  | boolean value => s!"boolean `{value}`"
  | moment _ => "map"

/-- A value as messages name it. -/
def Value.shown : Value → String
  | scalar content _ => content.shown
  | array .. | tables _ => "sequence"
  | table .. => "map"

/-- The name of the member that holds a moment when it is read as a table. -/
def momentField : String := "$__toml_private_datetime"

/-- The members of a value that can be read as a table. -/
def Value.members? : Value → Option Members
  | table _ members => some members
  | scalar (.moment shown) span => some [(⟨momentField, span⟩, scalar (.text shown) span)]
  | _ => none

/-- The items of a value that can be read as an array. -/
def Value.items? : Value → Option (List Value)
  | array items _ => some items
  | tables items => some (items.map fun (span, members) => table (.header span) members)
  | _ => none

/-- Reads a value as what it means. -/
abbrev Decoder (α : Type) : Type := Value → Except Misfit α

/-- Fails because something is wrong with the value itself. -/
def refuse {α : Type} (v : Value) (fault : SchemaFault) : Except Misfit α :=
  .error ⟨fault, v.span?⟩

/-- Fails because a value is of another type. -/
def wrongType {α : Type} (wanted : String) : Decoder α := fun v =>
  refuse v (.invalidType v.shown wanted)

/-- Reads the value of a member. What is wrong in it is at the value, or else at the name. -/
def Decoder.member {α : Type} (decoder : Decoder α) (member : Name × Value) : Except Misfit α :=
  within (member.2.span?.or (some member.1.span)) (decoder member.2)

namespace Decoder

/-- Reads a text. -/
def string : Decoder String
  | .scalar (.text value) _ => .ok value
  | v => wrongType "a string" v

/-- Reads a path. -/
def path : Decoder Path
  | .scalar (.text value) _ => .ok ⟨value⟩
  | v => wrongType "path string" v

/-- Reads a truth value. -/
def boolean : Decoder Bool
  | .scalar (.boolean value) _ => .ok value
  | v => wrongType "a boolean" v

/-- Reads a natural number up to a bound. -/
def natural (bound : Nat) (wanted : String) : Decoder Nat
  | .scalar (.integer value) span =>
    if 0 ≤ value && value ≤ bound then .ok value.toNat
    else .error ⟨.invalidValue value wanted, some span⟩
  | v => wrongType wanted v

/-- Reads a define. A text that is none is only known to be wrong where it is used. -/
def define : Decoder Define := fun v => do
  let text ← string v
  match Define.parse text with
  | .ok d => return d
  | .error fault => throw ⟨.define fault, none⟩

/-- Reads a list. -/
def list {α : Type} (item : Decoder α) : Decoder (List α) := fun v =>
  match v.items? with
  | some items => within v.span? (items.mapM item)
  | none => wrongType "a sequence" v

/-- Puts an entry into a list that is sorted by name; an entry of the same name is replaced. -/
def insertEntry {α : Type} (name : String) (value : α) : List (String × α) → List (String × α)
  | [] => [(name, value)]
  | (other, old) :: rest =>
    if name < other then (name, value) :: (other, old) :: rest
    else if name = other then (name, value) :: rest
    else (other, old) :: insertEntry name value rest

/-- Reads a table with any names, sorted by them. -/
def map {α : Type} (item : Decoder α) : Decoder (List (String × α)) := fun v =>
  match v.members? with
  | some members =>
    within v.span? <| members.foldlM
      (fun entries m => do return insertEntry m.1.text (← item.member m) entries) []
  | none => wrongType "a map" v

/-- Reads a name that stands for a value. -/
def named {α : Type} (known : List (String × α)) (name : String) (span : Span) : Except Misfit α :=
  match known.lookup name with
  | some value => .ok value
  | none => .error ⟨.unknownVariant name (known.map (·.1)), some span⟩

/-- What is said about the content of a name; nothing is said about what is empty. -/
def contentFault? : Value → Option String
  | .array [] _ | .tables [] | .table _ [] => none
  | .tables _ => some "expected empty array"
  | .array .. | .table .. => some "expected empty table"
  | .scalar (.text _) _ => some "expected table, found string"
  | .scalar (.integer _) _ => some "expected table, found integer"
  | .scalar (.float _) _ => some "expected table, found float"
  | .scalar (.boolean _) _ => some "expected table, found boolean"
  | .scalar (.moment _) _ => some "expected table, found datetime"

/-- Reads one of the known names. -/
def choice {α : Type} (known : List (String × α)) : Decoder α := fun v =>
  match v with
  | .scalar (.text name) span => named known name span
  | .table _ [] => refuse v .noVariant
  | .table _ [(name, content)] => do
    let value ← named known name.text name.span
    match contentFault? content with
    | some found => throw ⟨.variantWithContent found, content.span?.or v.span?⟩
    | none => return value
  | .table .. => refuse v .severalVariants
  | _ => refuse v .notAVariant

end Decoder

/-! ## Records -/

/-- A member of a shape. -/
structure Field (σ : Type) where
  /-- Its name. -/
  name : String
  /-- Whether it has to be there. -/
  required : Bool
  /-- Takes it over into the record. -/
  set : σ → Decoder σ

/-- The members of a table that is read as a record. -/
structure Shape (σ : Type) where
  /-- The name of the shape in messages. -/
  name : String
  /-- Whether members that are not known are refused. -/
  isClosed : Bool
  /-- The record before anything is taken over. -/
  start : σ
  /-- The members. -/
  fields : List (Field σ)

/-- A member that may be absent. -/
def field {σ α : Type} (name : String) (decoder : Decoder α) (set : σ → α → σ) : Field σ :=
  ⟨name, false, fun record v => (decoder v).map (set record)⟩

/-- A member that has to be there. -/
def needed {σ α : Type} (name : String) (decoder : Decoder α) (set : σ → α → σ) : Field σ :=
  { field name decoder set with required := true }

namespace Shape

variable {σ : Type} (shape : Shape σ)

/-- Takes over one member. -/
def take (record : σ) (member : Name × Value) : Except Misfit σ :=
  match shape.fields.find? (·.name == member.1.text) with
  | some field => Decoder.member (field.set record) member
  | none =>
    if shape.isClosed then
      .error ⟨.unknownField member.1.text (shape.fields.map (·.name)), some member.1.span⟩
    else .ok record

/-- Reads a record from the members of a table. -/
def ofMembers (members : Members) : Except Misfit σ := do
  let record ← members.foldlM shape.take shape.start
  match shape.fields.find? fun f => f.required && !members.any (·.1.text == f.name) with
  | some field => throw ⟨.missingField field.name, none⟩
  | none => return record

/-- Reads a record from members in the order of the shape, where `index` fields are done. -/
def ofItems (index : Nat) (record : σ) : List (Field σ) → List Value → Except Misfit σ
  | [], _ => .ok record
  | field :: fields, [] =>
    if field.required then
      .error ⟨.invalidLength index shape.name shape.fields.length, none⟩
    else ofItems (index + 1) record fields []
  | field :: fields, v :: items => do
    ofItems (index + 1) (← field.set record v) fields items

/-- Reads a record. -/
def decoder : Decoder σ := fun v =>
  match v.members?, v.items? with
  | some members, _ => within v.span? (shape.ofMembers members)
  | none, some items => within v.span? (shape.ofItems 0 shape.start shape.fields items)
  | none, none => wrongType ("struct " ++ shape.name) v

end Shape

end BuildPlanner.Toml
