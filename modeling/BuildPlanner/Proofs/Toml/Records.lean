import BuildPlanner.Proofs.Toml.Names
import BuildPlanner.Toml.Schema

/-!
# Records that are read

A shape takes over the members of a table, or the items of an array, one after the other.

* `Shape.holds_of_decoder`: what holds of the record at the start and is kept by each field holds of
  the record that is read.
* `Shape.Tells.get_of_decoder`: a part of the record that only one member sets is what this member
  says (`Shape.member?`), or what it was at the start if the member is not there.
-/

namespace BuildPlanner.Toml

theorem within_eq_ok {α : Type} {span : Option Span} {answer : Except Misfit α} {a : α} :
    within span answer = .ok a ↔ answer = .ok a :=
  mapError_eq_ok

theorem holds_of_foldlM {ε α β : Type} {f : β → α → Except ε β} {P : β → Prop}
    (step : ∀ b a b', P b → f b a = .ok b' → P b') {xs : List α} {b after : β} (start : P b)
    (h : xs.foldlM f b = .ok after) : P after := by
  induction xs generalizing b with
  | nil =>
    cases h
    exact start
  | cons x xs ih =>
    rw [List.foldlM_cons] at h
    obtain ⟨next, first, h⟩ := bind_eq_ok.1 h
    exact ih (step b x next start first) h

namespace Value.Distinct

variable {v : Value}

theorem members (h : v.Distinct) {members : Members} (here : v.members? = some members) :
    members.Distinct := by
  cases v with
  | scalar content span =>
    cases content with
    | moment shown =>
      cases here
      exact Members.Distinct.nil.append rfl (.scalar _ _)
    | _ => cases here
  | table style content =>
    cases here
    exact Value.distinct_table_iff.1 h
  | _ => cases here

theorem items (h : v.Distinct) {items : List Value} (here : v.items? = some items) :
    ∀ w ∈ items, w.Distinct := by
  cases v with
  | array values span =>
    cases here
    cases h with
    | array _ each => exact each
  | tables parts =>
    cases here
    rw [List.forall_mem_map]
    exact fun part hpart =>
      Value.distinct_table_iff.2 (Value.distinct_tables_iff.1 h part hpart)
  | _ => cases here

end Value.Distinct

/-! ## Fields -/

section Fields

variable {σ α β : Type}

theorem set_field_eq_ok {name : String} {decoder : Decoder α} {set : σ → α → σ} {record after : σ}
    {v : Value} :
    (field name decoder set).set record v = .ok after ↔
      ∃ a, decoder v = .ok a ∧ set record a = after :=
  map_eq_ok

/-- Taking over a value keeps what holds of the record. -/
def Field.Keeps (field : Field σ) (P : σ → Prop) : Prop :=
  ∀ record v after, P record → field.set record v = .ok after → P after

theorem keeps_field {name : String} {decoder : Decoder α} {set : σ → α → σ} {P : σ → Prop}
    (h : ∀ record v a, decoder v = .ok a → P record → P (set record a)) :
    (field name decoder set).Keeps P := by
  intro record v after start taken
  obtain ⟨a, read, rfl⟩ := set_field_eq_ok.1 taken
  exact h record v a read start

theorem keeps_needed {name : String} {decoder : Decoder α} {set : σ → α → σ} {P : σ → Prop}
    (h : ∀ record v a, decoder v = .ok a → P record → P (set record a)) :
    (needed name decoder set).Keeps P :=
  (keeps_field h : (field name decoder set).Keeps P)

/-- Taking over a value sets a part of the record if the member has the given name, to what `told`
finds in it, if anything, and leaves this part as it is otherwise. -/
def Field.Tells (field : Field σ) (name : String) (get : σ → β) (told : Value → Option β) : Prop :=
  ∀ record v after, v.Distinct → field.set record v = .ok after →
    get after = if field.name = name then (told v).getD (get record) else get record

theorem tells_field {name : String} {decoder : Decoder α} {set : σ → α → σ} {get : σ → β}
    {put : α → β} (own : ∀ record a, get (set record a) = put a) :
    (field name decoder set).Tells name get fun v => (decoder v).toOption.map put := by
  intro record v after _ taken
  obtain ⟨a, read, rfl⟩ := set_field_eq_ok.1 taken
  rw [own]
  simp [field, read, Except.toOption]

theorem tells_field_of_ne {name other : String} {decoder : Decoder α} {set : σ → α → σ}
    {get : σ → β} {told : Value → Option β} (apart : other ≠ name)
    (same : ∀ record a, get (set record a) = get record) :
    (field other decoder set).Tells name get told := by
  intro record v after _ taken
  obtain ⟨a, -, rfl⟩ := set_field_eq_ok.1 taken
  rw [same]
  exact (if_neg apart).symm

theorem mem_of_list {item : Decoder α} {v : Value} {values : List α}
    (h : Decoder.list item v = .ok values) {a : α} (ha : a ∈ values) : ∃ w, item w = .ok a := by
  unfold Decoder.list at h
  split at h
  · next items _ =>
    have read := forall₂_of_mapM_eq_ok (within_eq_ok.1 h)
    obtain ⟨w, -, hw⟩ := exists_of_mem_forall₂ read.flip ha
    exact ⟨w, hw⟩
  · cases h

end Fields

/-! ## Shapes -/

namespace Shape

variable {σ β : Type} {shape : Shape σ} {record after : σ} {v : Value}

/-- A member is taken over by the field of its name, or else nothing is. -/
theorem take_eq_ok {member : Name × Value} (h : shape.take record member = .ok after) :
    (∃ f ∈ shape.fields, f.name = member.1.text ∧ f.set record member.2 = .ok after) ∨
      (∀ f ∈ shape.fields, f.name ≠ member.1.text) ∧ after = record := by
  unfold take at h
  split at h
  · next f found =>
    left
    exact ⟨f, List.mem_of_find?_eq_some found, by simpa using List.find?_some found,
      within_eq_ok.1 h⟩
  · next unknown =>
    split at h
    · cases h
    · cases h
      right
      exact ⟨by simpa using unknown, rfl⟩

theorem foldlM_of_ofMembers {members : Members} (h : shape.ofMembers members = .ok record) :
    members.foldlM shape.take shape.start = .ok record := by
  obtain ⟨read, folded, h⟩ := bind_eq_ok.1 h
  split at h
  · cases h
  · cases h
    exact folded

section Kept

variable {P : σ → Prop}

theorem holds_of_ofItems {index : Nat} {fields : List (Field σ)} {items : List Value}
    (kept : ∀ f ∈ fields, f.Keeps P) (start : P record)
    (h : shape.ofItems index record fields items = .ok after) : P after := by
  induction fields generalizing index record items with
  | nil =>
    cases h
    exact start
  | cons f fields ih =>
    obtain ⟨first, others⟩ := List.forall_mem_cons.1 kept
    cases items with
    | nil =>
      unfold ofItems at h
      split at h
      · cases h
      · exact ih others start h
    | cons v items =>
      obtain ⟨next, taken, h⟩ := bind_eq_ok.1 h
      exact ih others (first record v next start taken) h

theorem holds_of_decoder (start : P shape.start) (kept : ∀ f ∈ shape.fields, f.Keeps P)
    (h : shape.decoder v = .ok record) : P record := by
  unfold decoder at h
  split at h
  · refine holds_of_foldlM ?_ start (foldlM_of_ofMembers (within_eq_ok.1 h))
    intro before member after hbefore taken
    rcases take_eq_ok taken with ⟨f, hf, -, set⟩ | ⟨-, rfl⟩
    · exact kept f hf before member.2 after hbefore set
    · exact hbefore
  · exact holds_of_ofItems kept start (within_eq_ok.1 h)
  · cases h

end Kept

/-- What a value holds for a member: the member of this name in a table, the item in its place in an
array. -/
def member? (shape : Shape σ) (v : Value) (name : String) : Option Value :=
  match v.members?, v.items? with
  | some members, _ => members.value? name
  | none, some items => ((shape.fields.zip items).find? (·.1.name == name)).map (·.2)
  | none, none => none

/-- A part of the record is set by one member only, to what `told` finds in it, if anything. -/
structure Tells (shape : Shape σ) (name : String) (get : σ → β) (told : Value → Option β) :
    Prop where
  names : (shape.fields.map (·.name)).Nodup
  known : ∃ f ∈ shape.fields, f.name = name
  set : ∀ f ∈ shape.fields, f.Tells name get told

namespace Tells

variable {name : String} {get : σ → β} {told : Value → Option β}

theorem get_of_take (tells : shape.Tells name get told) {member : Name × Value}
    (distinct : member.2.Distinct) (h : shape.take record member = .ok after) :
    get after = if member.1.text = name then (told member.2).getD (get record) else get record := by
  rcases take_eq_ok h with ⟨f, hf, same, set⟩ | ⟨unknown, rfl⟩
  · rw [tells.set f hf record member.2 after distinct set, same]
  · obtain ⟨f, hf, rfl⟩ := tells.known
    rw [if_neg (unknown f hf).symm]

theorem get_of_foldlM (tells : shape.Tells name get told) {members : Members}
    (distinct : members.Distinct) (h : members.foldlM shape.take record = .ok after) :
    get after = ((members.value? name).bind told).getD (get record) := by
  induction members generalizing record with
  | nil =>
    cases h
    rfl
  | cons member members ih =>
    rw [List.foldlM_cons] at h
    obtain ⟨next, taken, h⟩ := bind_eq_ok.1 h
    obtain ⟨new, names⟩ := List.nodup_cons.1 distinct.names
    obtain ⟨first, others⟩ := List.forall_mem_cons.1 distinct.each
    rw [ih ⟨names, others⟩ h, tells.get_of_take first taken]
    by_cases here : member.1.text = name
    · subst here
      have none_left : Members.value? members member.1.text = none :=
        Members.value?_eq_none_iff.2 new
      rw [none_left]
      simp [Members.value?]
    · simp [Members.value?, here]

theorem get_of_ofItems {index : Nat} {fields : List (Field σ)} {items : List Value}
    (names : (fields.map (·.name)).Nodup)
    (set : ∀ f ∈ fields, f.Tells name get told) (distinct : ∀ v ∈ items, v.Distinct)
    (h : shape.ofItems index record fields items = .ok after) :
    get after = ((((fields.zip items).find? (·.1.name == name)).map (·.2)).bind told).getD
      (get record) := by
  induction fields generalizing index record items with
  | nil =>
    cases h
    rfl
  | cons f fields ih =>
    obtain ⟨new, names⟩ := List.nodup_cons.1 names
    obtain ⟨first, others⟩ := List.forall_mem_cons.1 set
    cases items with
    | nil =>
      unfold ofItems at h
      split at h
      · cases h
      · have last := ih names others distinct h
        simpa using last
    | cons v items =>
      obtain ⟨here, later⟩ := List.forall_mem_cons.1 distinct
      obtain ⟨next, taken, h⟩ := bind_eq_ok.1 h
      rw [ih names others later h, first _ _ _ here taken]
      by_cases same : f.name = name
      · subst same
        have none_left : (fields.zip items).find? (·.1.name == f.name) = none := by
          rw [List.find?_eq_none]
          rintro ⟨g, w⟩ hg same
          rw [beq_iff_eq] at same
          exact new (List.mem_map.2 ⟨g, (List.of_mem_zip hg).1, same⟩)
        simp [none_left]
      · simp [same]

theorem get_of_decoder (tells : shape.Tells name get told) (distinct : v.Distinct)
    (h : shape.decoder v = .ok record) :
    get record = ((shape.member? v name).bind told).getD (get shape.start) := by
  unfold decoder at h
  split at h
  · next members _ hmembers =>
    rw [member?, hmembers]
    exact tells.get_of_foldlM (distinct.members hmembers) (foldlM_of_ofMembers (within_eq_ok.1 h))
  · next items hmembers hitems =>
    rw [member?, hmembers, hitems]
    exact get_of_ofItems tells.names tells.set (distinct.items hitems) (within_eq_ok.1 h)
  · cases h

end Tells

end Shape

/-! ## Records within records -/

section Nested

variable {σ β : Type} {nested : σ → Shape σ} {table name : String} {get : σ → β}
  {told : Value → Option β}

theorem tells_nested {shape : Shape σ} (fields : ∀ record, (nested record).fields = shape.fields)
    (start : ∀ record, (nested record).start = record)
    (tells : ∀ record, (nested record).Tells name get told) :
    Field.Tells ⟨table, false, fun record => (nested record).decoder⟩ table get
      fun v => (shape.member? v name).bind told := by
  intro record v after distinct taken
  rw [(tells record).get_of_decoder distinct taken, start, Shape.member?, fields]
  exact (if_pos rfl).symm

theorem tells_nested_of_ne {other : String} (apart : other ≠ table)
    (start : ∀ record, (nested record).start = record)
    (kept : ∀ record, ∀ f ∈ (nested record).fields, f.Keeps (get · = get record)) :
    Field.Tells ⟨other, false, fun record => (nested record).decoder⟩ table get told := by
  intro record v after _ taken
  have same : get (nested record).start = get record := by rw [start]
  rw [Shape.holds_of_decoder (P := (get · = get record)) same (kept record) taken]
  exact (if_neg apart).symm

end Nested

end BuildPlanner.Toml
