import BuildPlanner.Proofs.Basic
import BuildPlanner.Toml.Document

/-!
# Names in tables

No table of a text has two members of one name, at whatever depth it stands (`Value.Distinct`).  A
member is added only where the name is new, or is replaced in its place, so each step of the reader
keeps this (`Members.Distinct.add`, `Members.Distinct.updateAt`).

* `distinct_of_parse`: it holds of every text that is read.
-/

namespace BuildPlanner.Toml

def Members.names (members : Members) : List String := members.map (·.1.text)

/-- In each table of a value the names differ. -/
inductive Value.Distinct : Value → Prop
  | scalar (content : Scalar) (span : Span) : Distinct (.scalar content span)
  | array {items : List Value} (span : Span) (each : ∀ v ∈ items, Distinct v) :
    Distinct (.array items span)
  | table {members : Members} (style : TableStyle) (names : members.names.Nodup)
    (each : ∀ m ∈ members, Distinct m.2) : Distinct (.table style members)
  | tables {items : List (Span × Members)} (names : ∀ t ∈ items, t.2.names.Nodup)
    (each : ∀ t ∈ items, ∀ m ∈ t.2, Distinct m.2) : Distinct (.tables items)

/-- The names differ, and so do those in each table of the members. -/
structure Members.Distinct (members : Members) : Prop where
  names : members.names.Nodup
  each : ∀ m ∈ members, m.2.Distinct

theorem Value.distinct_table_iff {style : TableStyle} {members : Members} :
    (Value.table style members).Distinct ↔ members.Distinct := by
  constructor
  · rintro ⟨⟩
    exact ⟨‹_›, ‹_›⟩
  · exact fun h => .table style h.names h.each

theorem Value.distinct_tables_iff {items : List (Span × Members)} :
    (Value.tables items).Distinct ↔ ∀ t ∈ items, t.2.Distinct := by
  constructor
  · rintro ⟨⟩ t ht
    exact ⟨‹∀ t ∈ items, t.2.names.Nodup› t ht, ‹∀ t ∈ items, ∀ m ∈ t.2, m.2.Distinct› t ht⟩
  · exact fun h => .tables (fun t ht => (h t ht).names) fun t ht => (h t ht).each

namespace Members

variable {members content : Members} {key : String} {name : Name} {value v : Value}

/-! ## One member -/

theorem value?_eq_none_iff : members.value? key = none ↔ key ∉ members.names := by
  simp [value?, names]

theorem mem_of_value? (h : members.value? key = some v) : ∃ m ∈ members, m.2 = v := by
  obtain ⟨m, found, rfl⟩ := Option.map_eq_some_iff.1 h
  exact ⟨m, List.mem_of_find?_eq_some found, rfl⟩

theorem names_append (a b : Members) : names (a ++ b) = names a ++ names b :=
  List.map_append

theorem names_replace (members : Members) (key : String) (v : Value) :
    (members.replace key v).names = members.names := by
  unfold names replace
  rw [List.map_map]
  apply List.map_congr_left
  intro m _
  simp only [Function.comp_apply]
  split <;> rfl

namespace Distinct

theorem nil : Distinct [] := ⟨List.nodup_nil, by simp⟩

theorem value? (h : members.Distinct) (found : members.value? key = some v) : v.Distinct := by
  obtain ⟨m, hm, rfl⟩ := mem_of_value? found
  exact h.each m hm

theorem append (h : members.Distinct) (new : members.value? name.text = none) (hv : v.Distinct) :
    Distinct (members ++ [(name, v)]) := by
  rw [value?_eq_none_iff] at new
  constructor
  · rw [names_append, List.nodup_append]
    refine ⟨h.names, List.nodup_singleton _, ?_⟩
    rintro a ha b hb rfl
    rw [Members.names, List.map_singleton, List.mem_singleton] at hb
    exact new (hb ▸ ha)
  · rw [List.forall_mem_append]
    exact ⟨h.each, by simpa using hv⟩

theorem replace (h : members.Distinct) (hv : v.Distinct) : (members.replace key v).Distinct := by
  constructor
  · rw [names_replace]
    exact h.names
  · intro m hm
    obtain ⟨old, hold, rfl⟩ := List.mem_map.1 hm
    split
    · exact hv
    · exact h.each old hold

theorem remove (h : members.Distinct) (key : String) : (members.remove key).Distinct :=
  ⟨(List.filter_sublist.map _).nodup h.names, fun m hm => h.each m (List.mem_of_mem_filter hm)⟩

theorem put (h : members.Distinct) (hv : v.Distinct) : (members.put name v).Distinct := by
  unfold Members.put
  split
  · exact h.replace hv
  · next new => exact h.append (by simpa using new) hv

/-- The last of several tables with one header is changed in its place. -/
theorem replaceLast {items : List (Span × Members)} {last : Span × Members} (h : members.Distinct)
    (found : members.value? key = some (.tables items)) (hcontent : content.Distinct) :
    (members.replace key (.tables (items.dropLast ++ [(last.1, content)]))).Distinct := by
  apply h.replace
  rw [Value.distinct_tables_iff, List.forall_mem_append]
  have all := Value.distinct_tables_iff.1 (h.value? found)
  exact ⟨fun t ht => all t (List.mem_of_mem_dropLast ht), by simpa using hcontent⟩

theorem last {items : List (Span × Members)} {last : Span × Members} (h : members.Distinct)
    (found : members.value? key = some (.tables items)) (hlast : items.getLast? = some last) :
    last.2.Distinct :=
  Value.distinct_tables_iff.1 (h.value? found) last (List.mem_of_getLast? hlast)

/-! ## Paths into tables -/

theorem add {dotted within : Bool} {path : List Name} {after : Members} (h : members.Distinct)
    (hv : value.Distinct) (added : members.add dotted within path name value = some after) :
    after.Distinct := by
  induction path generalizing dotted within members after with
  | nil =>
    unfold Members.add at added
    split at added
    · cases added
    split at added
    · cases added
    · next new =>
      cases added
      exact h.append (by simpa using new) hv
  | cons step path ih =>
    unfold Members.add at added
    split at added
    · next new =>
      obtain ⟨inner, hinner, same⟩ := Option.bind_eq_some_iff.1 added
      cases same
      exact h.append new (Value.distinct_table_iff.2 (ih nil hinner))
    · next style content found =>
      split at added
      · obtain ⟨inner, hinner, same⟩ := Option.bind_eq_some_iff.1 added
        cases same
        have inside := Value.distinct_table_iff.1 (h.value? found)
        exact h.replace (Value.distinct_table_iff.2 (ih inside hinner))
      · cases added
    · next items found =>
      obtain ⟨last, hlast, added⟩ := Option.bind_eq_some_iff.1 added
      obtain ⟨inner, hinner, same⟩ := Option.bind_eq_some_iff.1 added
      cases same
      exact h.replaceLast found (ih (h.last found hlast) hinner)
    · cases added

theorem updateAt {path : List Name} {change : Members → Option Members} {after : Members}
    (changed : ∀ before after, Distinct before → change before = some after → after.Distinct)
    (h : members.Distinct) (updated : members.updateAt path change = some after) :
    after.Distinct := by
  induction path generalizing members after with
  | nil => exact changed members after h updated
  | cons step path ih =>
    unfold Members.updateAt at updated
    split at updated
    · next new =>
      obtain ⟨inner, hinner, same⟩ := Option.bind_eq_some_iff.1 updated
      cases same
      exact h.append new (Value.distinct_table_iff.2 (ih nil hinner))
    · cases updated
    · next style content _ found =>
      obtain ⟨inner, hinner, same⟩ := Option.bind_eq_some_iff.1 updated
      cases same
      have inside := Value.distinct_table_iff.1 (h.value? found)
      exact h.replace (Value.distinct_table_iff.2 (ih inside hinner))
    · next items found =>
      obtain ⟨last, hlast, updated⟩ := Option.bind_eq_some_iff.1 updated
      obtain ⟨inner, hinner, same⟩ := Option.bind_eq_some_iff.1 updated
      cases same
      exact h.replaceLast found (ih (h.last found hlast) hinner)
    · cases updated

theorem tableAt? {path : List Name} (h : members.Distinct)
    (found : members.tableAt? path = some content) : content.Distinct := by
  induction path generalizing members with
  | nil =>
    cases found
    exact h
  | cons step path ih =>
    unfold Members.tableAt? at found
    split at found
    · cases found
    · next style inner _ here => exact ih (Value.distinct_table_iff.1 (h.value? here)) found
    · next items here =>
      obtain ⟨last, hlast, found⟩ := Option.bind_eq_some_iff.1 found
      exact ih (h.last here hlast) found
    · cases found

end Distinct

end Members

/-! ## Values -/

/-- What a reader reads has tables without repeated names. -/
def ReadsDistinct (reader : Reader Value) : Prop :=
  ∀ cs v rest, reader cs = some (v, rest) → v.Distinct

theorem readsDistinct_scalar : ReadsDistinct scalar := by
  intro cs v rest h
  obtain ⟨content, -, same⟩ := Option.map_eq_some_iff.1 h
  cases same
  exact .scalar _ _

section Containers

variable {item : Reader Value} {fuel : Nat} {cs rest : List Char}

theorem distinct_of_items (hitem : ReadsDistinct item) {values : List Value}
    (h : items item fuel cs = some (values, rest)) : ∀ v ∈ values, v.Distinct := by
  induction fuel generalizing cs values rest with
  | zero => cases h
  | succ fuel ih =>
    unfold items at h
    obtain ⟨start, -, h⟩ := Option.bind_eq_some_iff.1 h
    split at h
    · cases h
      simp
    · obtain ⟨⟨first, after⟩, hfirst, h⟩ := Option.bind_eq_some_iff.1 h
      have one := hitem _ _ _ hfirst
      obtain ⟨next, -, h⟩ := Option.bind_eq_some_iff.1 h
      split at h
      · obtain ⟨⟨others, last⟩, hothers, same⟩ := Option.bind_eq_some_iff.1 h
        cases same
        exact List.forall_mem_cons.2 ⟨one, ih hothers⟩
      · cases h
        simpa using one
      · cases h

theorem distinct_of_member (hitem : ReadsDistinct item) {key : Key} {v : Value}
    (h : member item cs = some ((key, v), rest)) : v.Distinct := by
  unfold member at h
  obtain ⟨⟨read, after⟩, -, h⟩ := Option.bind_eq_some_iff.1 h
  dsimp only at h
  split at h
  · obtain ⟨⟨value, last⟩, hvalue, same⟩ := Option.bind_eq_some_iff.1 h
    cases same
    exact hitem _ _ _ hvalue
  · cases h

theorem distinct_of_inlineMembers (hitem : ReadsDistinct item) {before members : Members}
    (h : before.Distinct) (read : inlineMembers item fuel before cs = some (members, rest)) :
    members.Distinct := by
  induction fuel generalizing before cs with
  | zero => cases read
  | succ fuel ih =>
    unfold inlineMembers at read
    obtain ⟨⟨⟨key, value⟩, after⟩, hmember, read⟩ := Option.bind_eq_some_iff.1 read
    obtain ⟨added, hadded, read⟩ := Option.bind_eq_some_iff.1 read
    have next := h.add (distinct_of_member hitem hmember) hadded
    split at read
    · exact ih next read
    · cases read
      exact next
    · cases read

theorem readsDistinct_inlineTable (hitem : ReadsDistinct item) :
    ReadsDistinct (inlineTable item) := by
  intro cs v rest h
  unfold inlineTable at h
  split at h
  · cases h
    exact Value.distinct_table_iff.2 .nil
  · obtain ⟨⟨members, after⟩, hmembers, same⟩ := Option.bind_eq_some_iff.1 h
    cases same
    exact Value.distinct_table_iff.2 (distinct_of_inlineMembers hitem .nil hmembers)

end Containers

theorem readsDistinct_value (depth : Nat) : ReadsDistinct (value depth) := by
  induction depth with
  | zero => exact readsDistinct_scalar
  | succ depth ih =>
    intro cs v rest h
    unfold value at h
    split at h
    · obtain ⟨⟨values, after⟩, hvalues, same⟩ := Option.map_eq_some_iff.1 h
      cases same
      exact .array _ (distinct_of_items ih hvalues)
    · exact readsDistinct_inlineTable ih _ _ _ h
    · exact readsDistinct_scalar _ _ _ h

/-! ## Texts -/

namespace Progress

/-- No name is repeated in what has been read so far. -/
structure Distinct (p : Progress) : Prop where
  document : p.document.Distinct
  current : p.current.members.Distinct

variable {p after : Progress} {span : Span} {key : Key} {members : Members}

theorem Distinct.start (text : List Char) : (Progress.start text).Distinct := ⟨.nil, .nil⟩

theorem distinct_of_place {current : Current} {name : Name} {placed : Members}
    (hcurrent : current.members.Distinct) (h : members.Distinct)
    (hplaced : place current name members = some placed) : placed.Distinct := by
  unfold place at hplaced
  split at hplaced
  · split at hplaced
    · next new =>
      cases hplaced
      exact h.append new (Value.distinct_tables_iff.2 (by simpa using hcurrent))
    · next items found =>
      cases hplaced
      apply h.replace
      rw [Value.distinct_tables_iff, List.forall_mem_append]
      exact ⟨Value.distinct_tables_iff.1 (h.value? found), by simpa using hcurrent⟩
    · cases hplaced
  · cases hplaced
    exact h.put (Value.distinct_table_iff.2 hcurrent)

theorem Distinct.finish (h : p.Distinct) (finished : p.finish = some (span, members)) :
    members.Distinct := by
  unfold Progress.finish at finished
  split at finished
  · cases finished
    exact h.current
  · obtain ⟨document, updated, same⟩ := Option.bind_eq_some_iff.1 finished
    cases same
    exact h.document.updateAt (fun _ _ => distinct_of_place h.current) updated

theorem Distinct.addMember (h : p.Distinct) {value : Value} (hv : value.Distinct)
    (added : p.addMember key value = some after) : after.Distinct := by
  unfold Progress.addMember at added
  obtain ⟨members, hmembers, same⟩ := Option.bind_eq_some_iff.1 added
  cases same
  exact ⟨h.document, h.current.add hv hmembers⟩

theorem Distinct.startTable (h : p.Distinct) (started : p.startTable span key = some after) :
    after.Distinct := by
  unfold Progress.startTable at started
  obtain ⟨⟨top, finished⟩, hfinished, started⟩ := Option.bind_eq_some_iff.1 started
  obtain ⟨document, hdocument, started⟩ := Option.bind_eq_some_iff.1 started
  have whole : document.Distinct := by
    apply (h.finish hfinished).updateAt _ hdocument
    rintro before _ hbefore ⟨⟩
    exact hbefore
  split at started
  · cases started
    exact ⟨whole, .nil⟩
  · next members found =>
    obtain ⟨left, hleft, same⟩ := Option.bind_eq_some_iff.1 started
    cases same
    obtain ⟨table, htable, hmembers⟩ := Option.bind_eq_some_iff.1 found
    refine ⟨whole.updateAt ?_ hleft, ?_⟩
    · rintro before _ hbefore ⟨⟩
      exact hbefore.remove _
    · exact Value.distinct_table_iff.1 ((whole.tableAt? htable).value? hmembers)
  · cases started

theorem Distinct.startRepeated (h : p.Distinct) (started : p.startRepeated span key = some after) :
    after.Distinct := by
  unfold Progress.startRepeated at started
  obtain ⟨⟨top, finished⟩, hfinished, started⟩ := Option.bind_eq_some_iff.1 started
  obtain ⟨document, hdocument, same⟩ := Option.bind_eq_some_iff.1 started
  cases same
  refine ⟨(h.finish hfinished).updateAt ?_ hdocument, .nil⟩
  intro before after hbefore changed
  split at changed
  · next new =>
    cases changed
    exact hbefore.append new (Value.distinct_tables_iff.2 (by simp))
  · cases changed
    exact hbefore
  · cases changed

end Progress

theorem distinct_of_line {p after : Progress} {cs rest : List Char} (h : p.Distinct)
    (read : line p cs = some (after, rest)) : after.Distinct := by
  unfold line at read
  split at read
  · obtain ⟨⟨key, left⟩, -, read⟩ := Option.bind_eq_some_iff.1 read
    dsimp only at read
    split at read
    · obtain ⟨started, hstarted, read⟩ := Option.bind_eq_some_iff.1 read
      obtain ⟨last, -, same⟩ := Option.bind_eq_some_iff.1 read
      cases same
      exact h.startRepeated hstarted
    · cases read
  · obtain ⟨⟨key, left⟩, -, read⟩ := Option.bind_eq_some_iff.1 read
    dsimp only at read
    split at read
    · obtain ⟨started, hstarted, read⟩ := Option.bind_eq_some_iff.1 read
      obtain ⟨last, -, same⟩ := Option.bind_eq_some_iff.1 read
      cases same
      exact h.startTable hstarted
    · cases read
  · split at read
    · cases read
      exact h
    · obtain ⟨⟨⟨key, value⟩, left⟩, hmember, read⟩ := Option.bind_eq_some_iff.1 read
      obtain ⟨added, hadded, read⟩ := Option.bind_eq_some_iff.1 read
      obtain ⟨last, -, same⟩ := Option.bind_eq_some_iff.1 read
      cases same
      exact h.addMember (distinct_of_member (readsDistinct_value maxDepth) hmember) hadded

theorem distinct_of_readLines {fuel : Nat} {p : Progress} {cs : List Char} {span : Span}
    {members : Members} (h : p.Distinct) (read : readLines fuel p cs = some (span, members)) :
    members.Distinct := by
  induction fuel generalizing p cs with
  | zero =>
    cases cs with
    | nil => exact h.finish read
    | cons c cs => cases read
  | succ fuel ih =>
    cases cs with
    | nil => exact h.finish read
    | cons c cs =>
      obtain ⟨⟨after, left⟩, hline, read⟩ := Option.bind_eq_some_iff.1 read
      exact ih (distinct_of_line h hline) read

theorem distinct_of_parse {text : String} {document : Value} (h : parse text = some document) :
    document.Distinct := by
  obtain ⟨⟨span, members⟩, read, rfl⟩ := Option.map_eq_some_iff.1 h
  exact Value.distinct_table_iff.2 (distinct_of_readLines (.start _) read)

end BuildPlanner.Toml
