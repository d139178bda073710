/-!
# Paths

A path keeps its text as written. Its components are what the text names: empty pieces and inner
dots name nothing, a leading dot and every pair of dots stay, and nothing is looked up on disk.
Two paths are the same if their components are equal, however they are spelled.
-/

namespace BuildPlanner

/-- A path, as written. -/
structure Path where
  /-- What is displayed for the path. -/
  text : String
deriving DecidableEq, Inhabited, Repr

/-- One step of a path. -/
inductive Component where
  /-- The top of the tree, which a leading slash names. -/
  | root
  /-- A leading dot. -/
  | here
  /-- A pair of dots. -/
  | up
  /-- An entry of a directory. -/
  | name (text : String)
deriving DecidableEq, Repr

namespace Component

/-- What a piece after the first slash names, if anything. -/
def ofPiece? : List Char → Option Component
  | [] => none
  | ['.'] => none
  | ['.', '.'] => some up
  | piece => some (name (.ofList piece))

/-- The component as it is written. -/
def text : Component → String
  | root => "/"
  | here => "."
  | up => ".."
  | name text => text

end Component

namespace Path

instance : ToString Path := ⟨Path.text⟩

/-- The pieces of the text between its slashes. -/
def pieces (p : Path) : List (List Char) :=
  p.text.toList.splitOn '/'

/-- What the piece before the first slash names, where `slash` says that a slash follows. -/
def leading (slash : Bool) : List Char → List Component
  | [] => if slash then [.root] else []
  | ['.'] => [.here]
  | piece => (Component.ofPiece? piece).toList

/-- The components that the pieces of a text name. -/
def componentsOfPieces : List (List Char) → List Component
  | [] => []
  | first :: rest => leading (!rest.isEmpty) first ++ rest.filterMap Component.ofPiece?

/-- The components of a path. -/
def components (p : Path) : List Component :=
  componentsOfPieces p.pieces

/-- Whether two paths name the same place, however they are spelled. -/
def same (p q : Path) : Bool :=
  p.components == q.components

/-- Whether the path starts at the top of the tree. -/
def isAbsolute (p : Path) : Bool :=
  p.text.toList.head? == some '/'

/-- The text of a path inside another: a slash is put between them unless one is there. -/
def joinChars (base path : List Char) : List Char :=
  if path.head? = some '/' then path
  else if base = [] ∨ base.getLast? = some '/' then base ++ path
  else base ++ '/' :: path

/-- A path taken from a base; an absolute one is taken as it is. -/
def join (base path : Path) : Path :=
  ⟨.ofList (joinChars base.text.toList path.text.toList)⟩

/-- The entry of a given name in a directory. -/
def entry (base : Path) (name : String) : Path :=
  base.join ⟨name⟩

/-- The text of texts, each inside the one before it. -/
def joinAll : List (List Char) → List Char
  | [] => []
  | [text] => text
  | text :: rest => joinChars text (joinAll rest)

/-- The path that components spell. -/
def ofComponents (components : List Component) : Path :=
  ⟨.ofList (joinAll (components.map fun component => component.text.toList))⟩

/-- A piece that names nothing. -/
def blankPiece (piece : List Char) : Bool :=
  (Component.ofPiece? piece).isNone

/-- Drops the pieces that name nothing from the end. -/
def dropBlankEnd (pieces : List (List Char)) : List (List Char) :=
  (pieces.reverse.dropWhile blankPiece).reverse

/-- The path with the given pieces, where an empty first one alone is the top of the tree. -/
def ofPieces (first : List Char) (rest : List (List Char)) : Path :=
  if first = [] ∧ rest = [] then ⟨"/"⟩
  else ⟨.ofList (List.intercalate ['/'] (first :: rest))⟩

/-- The path without its last component. The top of the tree and the empty path have no parent. -/
def parent? (p : Path) : Option Path :=
  match p.pieces with
  | [] => none
  | first :: rest =>
    match rest.reverse.dropWhile blankPiece with
    | [] => if first = [] then none else some ⟨""⟩
    | _ :: before => some (ofPieces first (before.dropWhile blankPiece).reverse)

/-- The parent of a path, or the empty path. -/
def parentOrEmpty (p : Path) : Path :=
  p.parent?.getD ⟨""⟩

/-- The path and its parents, the nearest first; `fuel` bounds their number. -/
def ancestorsWithin : Nat → Path → List Path
  | 0, p => [p]
  | fuel + 1, p =>
    match p.parent? with
    | none => [p]
    | some parent => p :: ancestorsWithin fuel parent

/-- The path and its parents, the nearest first. -/
def ancestors (p : Path) : List Path :=
  ancestorsWithin p.pieces.length p

/-- The entry that the path names in its directory. -/
def fileName? (p : Path) : Option String :=
  match p.components.getLast? with
  | some (.name text) => some text
  | _ => none

/-- A file name up to its last dot; a dot at the front alone does not count. -/
def stemChars (name : List Char) : List Char :=
  match name.reverse.dropWhile (· != '.') with
  | [] => name
  | _ :: before => if before = [] then name else before.reverse

/-- The file name without its extension. -/
def fileStem? (p : Path) : Option String :=
  p.fileName?.map fun name => .ofList (stemChars name.toList)

/-- Drops pieces until the given number of components is gone. -/
def dropComponents : Nat → List (List Char) → List (List Char)
  | 0, pieces => pieces
  | _, [] => []
  | count + 1, piece :: pieces =>
    if blankPiece piece then dropComponents (count + 1) pieces else dropComponents count pieces

/-- The rest of a path below a base, if the path starts with the components of the base. -/
def below? (base p : Path) : Option Path :=
  if base.components.isPrefixOf p.components then
    match base.components.length, p.pieces with
    | _, [] => some ⟨""⟩
    | 0, first :: rest =>
      some (if first = [] ∧ rest = [] then ⟨""⟩ else ofPieces first (dropBlankEnd rest))
    | count + 1, _ :: rest =>
      let pieces := dropBlankEnd ((dropComponents count rest).dropWhile blankPiece)
      some ⟨.ofList (List.intercalate ['/'] pieces)⟩
  else none

/-- The components with slashes between them. -/
def toSlash (p : Path) : String :=
  "/".intercalate (p.components.map Component.text)

@[simp] theorem text_join (p q : Path) :
    (p.join q).text = .ofList (joinChars p.text.toList q.text.toList) := rfl

theorem same_iff {p q : Path} : p.same q = true ↔ p.components = q.components := by
  simp [same]

theorem same_refl (p : Path) : p.same p = true := by
  simp [same]

theorem same_comm (p q : Path) : p.same q = q.same p := by
  rw [Bool.eq_iff_iff, same_iff, same_iff, eq_comm]

end Path

end BuildPlanner
