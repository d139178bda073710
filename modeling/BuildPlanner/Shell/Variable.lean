/-!
# Variables

What a shell knows of variables: a value, if there is one, and what has been said of the variable,
which outlives its values. A variable without a value of which nothing has been said is forgotten,
unless it is one that stays known.
-/

namespace BuildPlanner.Shell

/-- A variable that a shell knows. -/
structure Variable where
  /-- The name. -/
  name : String
  /-- The value, if it is set. -/
  value : Option String := none
  /-- Whether programs get to see it. -/
  isExported : Bool := false
  /-- Whether it cannot be set again. -/
  isFixed : Bool := false
  /-- Whether it stays known without a value. -/
  isKept : Bool := false
deriving DecidableEq, Repr, Inhabited

namespace Variable

/-- Whether a change gives a variable nothing. -/
def isBare (change : Variable) : Bool :=
  change.value.isNone && !change.isExported && !change.isFixed && !change.isKept

/-- The variable with what is said of another one. -/
def marked (v other : Variable) : Variable :=
  { v with
    isExported := v.isExported || other.isExported
    isFixed := v.isFixed || other.isFixed
    isKept := v.isKept || other.isKept }

/-- The variable after a change: it has the new value or none, and what has been said of it stays. -/
def changed (v change : Variable) : Variable :=
  { v.marked change with value := change.value }

end Variable

/-- Variables that are known, the latest first. -/
abbrev VariableTable : Type := List Variable

namespace VariableTable

/-- The variable of a name, if it is known. -/
def known? (table : VariableTable) (name : String) : Option Variable :=
  table.find? (·.name == name)

/-- The value that a name has. -/
def value? (table : VariableTable) (name : String) : Option String :=
  (table.known? name).bind (·.value)

/-- The table without a name. -/
def erase (table : VariableTable) (name : String) : VariableTable :=
  table.filter (·.name != name)

/-- The table with a variable, in place of what it knew of its name. -/
def put (v : Variable) (table : VariableTable) : VariableTable :=
  v :: table.erase v.name

/-- The table after a change of a variable. -/
def change (change : Variable) (table : VariableTable) : VariableTable :=
  let old := (table.known? change.name).getD { name := change.name }
  if change.isBare && !old.isKept then table.erase change.name
  else table.put (old.changed change)

/-- The names with their values. -/
def values (table : VariableTable) : List (String × String) :=
  table.filterMap fun v => v.value.map ((v.name, ·))

theorem known?_erase (table : VariableTable) (name : String) :
    (table.erase name).known? name = none := by
  simp [known?, erase]

theorem known?_put (v : Variable) (table : VariableTable) :
    (table.put v).known? v.name = some v := by
  simp [known?, put]

/-- A variable is found by its own name. -/
theorem name_getD_known? (table : VariableTable) (name : String) :
    ((table.known? name).getD { name }).name = name := by
  cases h : table.known? name with
  | none => rfl
  | some v => simpa using List.find?_some h

/-- A name has the value of its last change. -/
theorem value?_change (v : Variable) (table : VariableTable) :
    (table.change v).value? v.name = v.value := by
  have named : (((table.known? v.name).getD { name := v.name }).changed v).name = v.name :=
    name_getD_known? table v.name
  simp only [change]
  split
  · next bare =>
    have unset : v.value = none := by
      simp only [Variable.isBare, Bool.and_eq_true, Option.isNone_iff_eq_none] at bare
      exact bare.1.1.1.1
    simp [value?, known?_erase, unset]
  · have found := known?_put (((table.known? v.name).getD { name := v.name }).changed v) table
    rw [named] at found
    simp only [value?, found, Option.bind_some]
    rfl

end VariableTable

end BuildPlanner.Shell
