import BuildPlanner.Tree.Content

/-!
# Directory trees

A tree is a file, or a directory with a tree under each name in it. A location is the list of names
that leads to a place from the top, so what stands at a location has a directory above it.
`Tree.node?` is the view through which the operations are described: `node?_put_self`,
`node?_put_of_not_prefix` and `node?_erase` say what they change in it. There are no links.
-/

namespace BuildPlanner

/-- A place in a tree: the names that lead to it from the top. -/
abbrev Location := List String

/-- A file. -/
structure File where
  /-- What the file holds. -/
  content : Content
  /-- When the file was last written, in seconds. -/
  modified : Int
  /-- Whether the file may be run as a program. -/
  executable : Bool
deriving DecidableEq, Repr, Inhabited

/-- What stands at a location, without what lies below it. -/
inductive Node where
  /-- A file. -/
  | file (file : File)
  /-- A directory. -/
  | directory
deriving DecidableEq, Repr

/-- The file at a node, if it is one. -/
def Node.file? : Node → Option File
  | file f => some f
  | directory => none

/-- A directory tree. -/
inductive Tree where
  /-- A file. -/
  | file (file : File)
  /-- A directory with what stands under each name in it, the latest first. -/
  | directory (children : List (String × Tree))
deriving Inhabited, Repr

namespace Tree

/-- The tree with nothing but its top. -/
def empty : Tree := directory []

/-- The tree of a node with nothing below it. -/
def ofNode : Node → Tree
  | .file f => file f
  | .directory => empty

/-- What stands at the top. -/
def top : Tree → Node
  | file f => .file f
  | directory _ => .directory

/-- What stands directly below the top, by name. -/
def children : Tree → List (String × Tree)
  | file _ => []
  | directory children => children

/-! ## Looking -/

/-- The part of a tree, if there is one, at a location. -/
def part? : Location → Option Tree → Option Tree
  | [], t => t
  | name :: rest, some (directory children) => part? rest (children.lookup name)
  | _ :: _, _ => none

/-- What stands at a location. -/
def node? (t : Tree) (location : Location) : Option Node :=
  (part? location (some t)).map top

/-- The names in a directory, in ascending order. -/
def names (t : Tree) (directory : Location) : List String :=
  (((part? directory (some t)).map children).getD []).map (·.1)
    |>.mergeSort fun a b => decide (a ≤ b)

mutual

/-- The number of levels below the top. -/
def height : Tree → Nat
  | file _ => 0
  | directory children => heightOfAll children

/-- The number of levels of trees under their names. -/
def heightOfAll : List (String × Tree) → Nat
  | [] => 0
  | (_, t) :: rest => max (t.height + 1) (heightOfAll rest)

end

mutual

/-- What lies below the top, each after the directory that it stands in. -/
def entries : Tree → List (Location × Node)
  | file _ => []
  | directory children => entriesOfAll children

/-- Trees under their names, and what lies below them. -/
def entriesOfAll : List (String × Tree) → List (Location × Node)
  | [] => []
  | (name, t) :: rest =>
    ([name], t.top) :: t.entries.map (fun entry => (name :: entry.1, entry.2)) ++
      entriesOfAll rest

end

/-! ## Changing -/

/-- Children with another tree under a name, or with none. -/
def setChild (name : String) (child : Option Tree) (children : List (String × Tree)) :
    List (String × Tree) :=
  (child.map fun t => (name, t)).toList ++ children.filter (·.1 != name)

/-- Changes what stands at a location; nothing is changed if no directory is above it. -/
def alter (f : Option Tree → Option Tree) : Location → Option Tree → Option Tree
  | [], t => f t
  | name :: rest, some (directory children) =>
    some (directory (setChild name (alter f rest (children.lookup name)) children))
  | _ :: _, t => t

/-- The tree of a node at a place where a tree may stand: a directory keeps what lies below it. -/
def placed : Node → Option Tree → Tree
  | .directory, some (directory children) => directory children
  | node, _ => ofNode node

/-- The tree with a node put at a location in a directory. -/
def put (t : Tree) (location : Location) (node : Node) : Tree :=
  (alter (fun old => some (placed node old)) location (some t)).getD t

/-- The tree without a location and all that lies below it. -/
def erase (t : Tree) (location : Location) : Tree :=
  (alter (fun _ => none) location (some t)).getD empty

/-- The tree of what stands at locations; of two nodes for a location the first counts. -/
def ofEntries (entries : List (Location × Node)) : Tree :=
  (entries.reverse.mergeSort fun a b => decide (a.1.length ≤ b.1.length)).foldl
    (fun t entry => t.put entry.1 entry.2) empty

/-! ## Operations through the view -/

@[simp] theorem top_ofNode (node : Node) : (ofNode node).top = node := by
  cases node <;> rfl

@[simp] theorem top_placed (node : Node) (old : Option Tree) : (placed node old).top = node := by
  unfold placed
  split
  · rfl
  · exact top_ofNode node

theorem lookup_filter {α β : Type} [BEq α] [LawfulBEq α] (keep : α → Bool) (key : α)
    (entries : List (α × β)) :
    (entries.filter fun entry => keep entry.1).lookup key =
      if keep key then entries.lookup key else none := by
  induction entries with
  | nil => simp
  | cons entry entries ih =>
    obtain ⟨k, v⟩ := entry
    by_cases hk : key = k
    · subst hk
      by_cases h : keep key <;> simp [h, ih]
    · have hk' : (key == k) = false := by simpa using hk
      by_cases h : keep k <;> simp [h, ih, List.lookup_cons, hk']

@[simp] theorem lookup_setChild_self (name : String) (child : Option Tree)
    (children : List (String × Tree)) : (setChild name child children).lookup name = child := by
  have hl := lookup_filter (fun n => n != name) name children
  simp only [bne_self_eq_false, Bool.false_eq_true, if_false] at hl
  cases child <;> simp [setChild, hl]

theorem lookup_setChild_of_ne {name other : String} (h : other ≠ name) (child : Option Tree)
    (children : List (String × Tree)) :
    (setChild name child children).lookup other = children.lookup other := by
  have hb : (other == name) = false := by simpa using h
  have hl := lookup_filter (fun n => n != name) other children
  simp only [bne, hb, Bool.not_false, if_true] at hl
  cases child <;> simp [setChild, List.lookup_cons, hb, bne, hl]

@[simp] theorem part?_none (location : Location) : part? location none = none := by
  cases location <;> rfl

/-- What is changed at a location is found there, if a directory is above it. -/
theorem part?_alter_self (f : Option Tree → Option Tree) (location : Location) (name : String)
    (t : Option Tree) (children : List (String × Tree))
    (h : part? location t = some (directory children)) :
    part? (location ++ [name]) (alter f (location ++ [name]) t) = f (children.lookup name) := by
  induction location generalizing t with
  | nil =>
    subst h
    simp [alter, part?]
  | cons first rest ih =>
    match t with
    | none => simp at h
    | some (file f) => simp [part?] at h
    | some (directory inner) =>
      simp only [part?] at h
      simpa [alter, part?] using ih _ h

/-- A change leaves what stands elsewhere as it is. -/
theorem part?_alter_of_not_prefix (f : Option Tree → Option Tree) (location other : Location)
    (t : Option Tree) (h : ¬ location <+: other) :
    (part? other (alter f location t)).map top = (part? other t).map top := by
  induction location generalizing other t with
  | nil => simp at h
  | cons name rest ih =>
    match t with
    | none => simp [alter]
    | some (file f) => simp [alter]
    | some (directory children) =>
      cases other with
      | nil => simp [alter, part?, top]
      | cons first others =>
        by_cases hf : first = name
        · subst hf
          simpa [alter, part?] using ih others _ (by simpa using h)
        · simp [alter, part?, lookup_setChild_of_ne hf]

/-- After a removal nothing lies at or below the location. -/
theorem part?_alter_none (location more : Location) (t : Option Tree) :
    part? (location ++ more) (alter (fun _ => none) location t) = none := by
  induction location generalizing t with
  | nil => simp [alter]
  | cons name rest ih =>
    match t with
    | none => simp [alter]
    | some (file f) => simp [alter, part?]
    | some (directory children) => simpa [alter, part?] using ih _

theorem isSome_alter_cons (f : Option Tree → Option Tree) (name : String) (rest : Location)
    (t : Tree) : (alter f (name :: rest) (some t)).isSome = true := by
  cases t <;> simp [alter]

theorem some_put {location : Location} (h : location ≠ []) (t : Tree) (node : Node) :
    some (t.put location node) = alter (fun old => some (placed node old)) location (some t) := by
  cases location with
  | nil => exact absurd rfl h
  | cons name rest =>
    obtain ⟨u, hu⟩ := Option.isSome_iff_exists.1
      (isSome_alter_cons (fun old => some (placed node old)) name rest t)
    simp [put, hu]

theorem node?_top (t : Tree) : t.node? [] = some t.top := by
  simp [node?, part?]

/-- A node is found where it was put, if a directory is above it. -/
theorem node?_put_self (t : Tree) (directory : Location) (name : String) (node : Node)
    (h : t.node? directory = some .directory) :
    (t.put (directory ++ [name]) node).node? (directory ++ [name]) = some node := by
  obtain ⟨part, hp, ht⟩ := Option.map_eq_some_iff.1 h
  cases part with
  | file f => simp [top] at ht
  | directory children =>
    have ha := part?_alter_self (fun old => some (placed node old)) directory name (some t)
      children hp
    simp [node?, some_put (by simp : directory ++ [name] ≠ []), ha]

/-- A node that is put at a location changes nothing that lies elsewhere. -/
theorem node?_put_of_not_prefix (t : Tree) {location other : Location} (node : Node)
    (h : ¬ location <+: other) : (t.put location node).node? other = t.node? other := by
  have hl : location ≠ [] := by
    intro hn
    simp [hn] at h
  rw [node?, some_put hl]
  exact part?_alter_of_not_prefix _ location other (some t) h

theorem node?_erase (t : Tree) (location other : Location) (h : location ≠ []) :
    (t.erase location).node? other =
      if location.isPrefixOf other then none else t.node? other := by
  have he : some (t.erase location) = alter (fun _ => none) location (some t) := by
    cases location with
    | nil => exact absurd rfl h
    | cons name rest =>
      obtain ⟨u, hu⟩ := Option.isSome_iff_exists.1
        (isSome_alter_cons (fun _ => none) name rest t)
      simp [erase, hu]
  rw [node?, he]
  by_cases hp : location <+: other
  · obtain ⟨more, rfl⟩ := hp
    simp [part?_alter_none]
  · have hb : location.isPrefixOf other = false := by
      rw [Bool.eq_false_iff]
      exact fun hi => hp (List.isPrefixOf_iff_prefix.1 hi)
    simp only [hb, Bool.false_eq_true, if_false]
    exact part?_alter_of_not_prefix _ location other (some t) hp

end Tree

end BuildPlanner
