import BuildPlanner.Define
import BuildPlanner.Proofs.Basic

/-!
# Defines are read back from what is written

A text is read as a define if a name stands before its first equals sign, with nothing but blanks
around it.  What is written of the define is the text without these blanks, and from it the define
is read again; so is every define with such a name, whatever its value holds (`Define.parse_text`).

* `Define.IsName` is what the name of a define that was read is (`Define.isName_of_parse`).
* `Define.parse_eq_ok_iff` says what is read, and `Define.parse_text_of_isName` that what is written
  is read back.
-/

namespace BuildPlanner

/-! ## Trimming -/

namespace Text

theorem trimChars_sublist (cs : List Char) : (trimChars cs).Sublist cs := by
  have inner := (List.dropWhile_sublist isBlank (l := (cs.dropWhile isBlank).reverse)).reverse
  rw [List.reverse_reverse] at inner
  exact inner.trans (List.dropWhile_sublist isBlank)

/-- Nothing is trimmed where nothing is blank. -/
theorem trimChars_of_forall {cs : List Char} (solid : ∀ c ∈ cs, isBlank c = false) :
    trimChars cs = cs := by
  have kept {xs : List Char} (h : ∀ c ∈ xs, isBlank c = false) : xs.dropWhile isBlank = xs := by
    cases xs with
    | nil => rfl
    | cons c rest => exact List.dropWhile_cons_of_neg (by simp [h c List.mem_cons_self])
  rw [trimChars, kept solid, kept fun c hc => solid c (List.mem_reverse.1 hc), List.reverse_reverse]

end Text

namespace Define

open Text

/-! ## The two parts of a text -/

/-- What is written after the name of a define. -/
def writtenValue : Option (List Char) → List Char
  | none => []
  | some value => '=' :: value

theorem writtenValue_eq_nil_iff {value : Option (List Char)} :
    writtenValue value = [] ↔ value = none := by
  cases value <;> simp [writtenValue]

theorem display_eq (d : Define) :
    d.display = d.name.toList ++ writtenValue (d.value.map String.toList) := by
  obtain ⟨name, value | value⟩ := d
  · exact (List.append_nil _).symm
  · rfl

/-- From its first equals sign on, a text is what is written of its value. -/
theorem writtenValue_valuePart (cs : List Char) :
    writtenValue (valuePart cs) = cs.dropWhile (· != '=') := by
  have stops := List.head?_dropWhile_not (· != '=') cs
  rw [valuePart]
  cases rest : cs.dropWhile (· != '=') with
  | nil => rfl
  | cons mark value =>
    rw [rest] at stops
    have mark : mark = '=' := by simpa using stops
    rw [mark]
    rfl

theorem valuePart_eq_none_iff (cs : List Char) : valuePart cs = none ↔ '=' ∉ cs := by
  rw [← writtenValue_eq_nil_iff, writtenValue_valuePart, List.dropWhile_eq_nil_iff,
    ← List.forall_mem_ne']
  simp

theorem equals_notMem_namePart (cs : List Char) : '=' ∉ namePart cs := by
  intro member
  simpa using List.mem_takeWhile_imp member

/-- A text that is put together of a part without an equals sign and of a written value is taken
apart into them. -/
theorem parts_append {name : List Char} (equals : '=' ∉ name) (value : Option (List Char)) :
    namePart (name ++ writtenValue value) = name ∧
      valuePart (name ++ writtenValue value) = value := by
  have run : ∀ c ∈ name, (c != '=') = true := by
    simpa using List.forall_mem_ne'.2 equals
  have stop : ∀ c ∈ (writtenValue value).head?, (c != '=') = false := by
    cases value <;> simp [writtenValue]
  refine ⟨takeWhile_run run stop, ?_⟩
  rw [valuePart, dropWhile_run run stop]
  cases value <;> rfl

/-! ## Names -/

/-- A name that a define can be read with. -/
structure IsName (name : String) : Prop where
  nonempty : name ≠ ""
  solid : ∀ c ∈ name.toList, isBlank c = false
  equals : '=' ∉ name.toList

/-! ## Reading -/

variable {s : String} {d : Define}

/-- A text is read as the trimmed part before its first equals sign and the rest after it, if that
part has characters and none of them is blank. -/
theorem parse_eq_ok_iff :
    parse s = .ok d ↔
      trimChars (namePart s.toList) ≠ [] ∧
        (∀ c ∈ trimChars (namePart s.toList), isBlank c = false) ∧
        d = ⟨.ofList (trimChars (namePart s.toList)), (valuePart s.toList).map .ofList⟩ := by
  rw [parse]
  by_cases empty : trimChars (namePart s.toList) = []
  · simp [empty]
  · rw [if_neg empty]
    by_cases blank : (trimChars (namePart s.toList)).any isBlank = true
    · obtain ⟨c, hc, held⟩ := List.any_eq_true.1 blank
      simp only [if_pos blank, reduceCtorEq, false_iff]
      rintro ⟨-, solid, -⟩
      simp [solid c hc] at held
    · rw [if_neg blank]
      have solid : ∀ c ∈ trimChars (namePart s.toList), isBlank c = false := by simpa using blank
      rw [Except.ok.injEq, eq_comm, and_iff_right empty, and_iff_right solid]

theorem isName_of_parse (read : parse s = .ok d) : IsName d.name := by
  obtain ⟨nonempty, solid, rfl⟩ := parse_eq_ok_iff.1 read
  refine ⟨by simpa using nonempty, by simpa using solid, fun member => ?_⟩
  rw [String.toList_ofList] at member
  exact equals_notMem_namePart _ ((trimChars_sublist _).mem member)

/-- What is written of a define that was read is the text without the blanks around the name. -/
theorem display_of_parse (read : parse s = .ok d) :
    d.display = trimChars (namePart s.toList) ++ s.toList.dropWhile (· != '=') := by
  obtain ⟨-, -, rfl⟩ := parse_eq_ok_iff.1 read
  rw [display_eq, ← writtenValue_valuePart]
  simp [Function.comp_def]

/-- A define with a name is read back from what is written of it, whatever its value holds. -/
theorem parse_text_of_isName (h : IsName d.name) : parse d.text = .ok d := by
  obtain ⟨name, value⟩ := parts_append h.equals (d.value.map String.toList)
  rw [parse_eq_ok_iff, toList_text, display_eq, name, value, trimChars_of_forall h.solid]
  refine ⟨toList_ne_nil h.nonempty, h.solid, ?_⟩
  obtain ⟨name, value⟩ := d
  simp [Function.comp_def]

theorem eq_of_text_eq {t : String} {e : Define} (first : parse s = .ok d) (second : parse t = .ok e)
    (same : d.text = e.text) : d = e := by
  have again := parse_text_of_isName (isName_of_parse first)
  rw [same, parse_text_of_isName (isName_of_parse second)] at again
  exact (Except.ok.inj again).symm

/-- A text is read as a define exactly if the part before its first equals sign has characters and
no blanks once it is trimmed.  What is written of the define is this name and the rest of the text,
from the first equals sign on, and the define is read back from it; it is a flag exactly if the
text has no equals sign.  Every define with a name is read back from what is written of it.  So
different defines that were read are written differently, also a flag and an empty value. -/
theorem parse_text (s : String) :
    let name := trimChars (s.toList.takeWhile (· != '='))
    let rest := s.toList.dropWhile (· != '=')
    ((∃ d, parse s = .ok d) ↔ name ≠ [] ∧ ∀ c ∈ name, isBlank c = false) ∧
    (∀ d, parse s = .ok d →
      d.text = .ofList (name ++ rest) ∧ parse d.text = .ok d ∧
        (d.value = none ↔ '=' ∉ s.toList)) ∧
    (∀ d, IsName d.name → parse d.text = .ok d) ∧
    (∀ t d e, parse s = .ok d → parse t = .ok e → d ≠ e → d.text ≠ e.text) ∧
    ∀ t first second, parse s = .ok (flag first) → parse t = .ok (withValue second "") →
      (flag first).text ≠ (withValue second "").text := by
  intro name rest
  refine ⟨?_, fun d read => ⟨?_, parse_text_of_isName (isName_of_parse read), ?_⟩,
    fun d => parse_text_of_isName, fun t d e first second => mt (eq_of_text_eq first second),
    fun t first second flagged valued same => ?_⟩
  · constructor
    · rintro ⟨d, read⟩
      obtain ⟨nonempty, solid, -⟩ := parse_eq_ok_iff.1 read
      exact ⟨nonempty, solid⟩
    · rintro ⟨nonempty, solid⟩
      exact ⟨_, parse_eq_ok_iff.2 ⟨nonempty, solid, rfl⟩⟩
  · exact congrArg String.ofList (display_of_parse read)
  · obtain ⟨-, -, rfl⟩ := parse_eq_ok_iff.1 read
    rw [Option.map_eq_none_iff, valuePart_eq_none_iff]
  · cases eq_of_text_eq flagged valued same

/-- Blanks around the name are dropped, and those in the value stay, as do further equals signs. -/
theorem parse_text_spacedDefine :
    parse "\u00a0PATH\t=a = b\n" = .ok ⟨"PATH", some "a = b\n"⟩ ∧
      parse "PATH=a = b\n" = .ok ⟨"PATH", some "a = b\n"⟩ ∧
      parse (Define.text ⟨"ROOT", some "="⟩) = .ok ⟨"ROOT", some "="⟩ ∧
      parse " DECLSPEC" = .ok (flag "DECLSPEC") ∧
      parse "DECLSPEC =" = .ok (withValue "DECLSPEC" "") ∧
      (flag "DECLSPEC").text ≠ (withValue "DECLSPEC" "").text := by
  have spaced : parse "\u00a0PATH\t=a = b\n" = .ok ⟨"PATH", some "a = b\n"⟩ := by decide +kernel
  have flagged : parse " DECLSPEC" = .ok (flag "DECLSPEC") := by decide +kernel
  have valued : parse "DECLSPEC =" = .ok (withValue "DECLSPEC" "") := by decide +kernel
  obtain ⟨text, again, -⟩ := (parse_text "\u00a0PATH\t=a = b\n").2.1 _ spaced
  have written : Define.text ⟨"PATH", some "a = b\n"⟩ = "PATH=a = b\n" := by decide +kernel
  have name : IsName "ROOT" := ⟨by decide, by simp [isBlank, blankRanges], by decide⟩
  have named := (parse_text "").2.2.1 ⟨"ROOT", some "="⟩ name
  refine ⟨spaced, written ▸ again, named, flagged, valued, ?_⟩
  exact (parse_text " DECLSPEC").2.2.2.2 _ _ _ flagged valued

end Define

end BuildPlanner
