import BuildPlanner.Manifest.Definition
import BuildPlanner.References.Reachability

/-!
# References between projects

Projects are emitted in the order in which they are declared, so every project that another one
uses or links has to be declared before it. The faults are looked for in this order: a name that is
declared twice; a reference to an unknown name, or a link to an executable; a cycle; a reference to
a project that comes later.
-/

namespace BuildPlanner.References

/-- How a project refers to another. -/
inductive ReferenceKind where
  /-- It takes over the public part. -/
  | uses
  /-- It links the archive. -/
  | links
deriving DecidableEq, Repr

/-- A reference, as declared. -/
structure Reference where
  /-- The number of the project that refers. -/
  source : Nat
  /-- The name of the project that refers. -/
  user : String
  /-- The name that it refers to. -/
  target : String
  /-- How it refers. -/
  kind : ReferenceKind
deriving DecidableEq, Repr

/-- A reference to a declared project. -/
structure Edge where
  /-- The number of the project that refers. -/
  source : Nat
  /-- The number of the project that is referred to. -/
  target : Nat
deriving DecidableEq, Repr

/-- The references of a project: what it uses, then what it links. -/
def ofProject (source : Nat) (d : ProjectDefinition) : List Reference :=
  d.uses.map (fun target => ⟨source, d.name, target, .uses⟩) ++
    d.links.map (fun target => ⟨source, d.name, target, .links⟩)

/-- All references, in the order in which they are declared; the projects are numbered from
`source` on. -/
def allFrom (source : Nat) : List ProjectDefinition → List Reference
  | [] => []
  | d :: rest => ofProject source d ++ allFrom (source + 1) rest

/-- All references, in the order in which they are declared. -/
def all (projects : List ProjectDefinition) : List Reference :=
  allFrom 0 projects

/-- The first name that occurs again after its first place, where `earlier` are the names before. -/
def firstRepeated (earlier : List String) : List String → Option String
  | [] => none
  | name :: names =>
    if earlier.contains name then some name else firstRepeated (name :: earlier) names

/-- The edge of a reference. -/
def edge (projects : List ProjectDefinition) (r : Reference) : Except ModelError Edge :=
  match projects.findIdx? (·.name == r.target), projects.find? (·.name == r.target) with
  | some target, some d =>
    if r.kind = .links && !d.isLibrary then .error (.notALibrary r.user r.target)
    else .ok ⟨r.source, target⟩
  | _, _ => .error (.unknownReference r.user r.target)

/-- The edges of references; the first that has none is the error. -/
def edges (projects : List ProjectDefinition) : List Reference → Except ModelError (List Edge)
  | [] => .ok []
  | r :: rest => do
    let first ← edge projects r
    return first :: (← edges projects rest)

/-- The numbers of the projects that a project refers to, the latest reference first. -/
def targets (edges : List Edge) (source : Nat) : List Nat :=
  ((edges.filter (·.source == source)).map (·.target)).reverse

/-- The name of the project with a given number. -/
def nameOf (projects : List ProjectDefinition) (number : Nat) : String :=
  ((projects[number]?).map (·.name)).getD ""

/-- The names of a cycle, with the first repeated at the end. -/
def cycleNames (projects : List ProjectDefinition) (members : List Nat) : List String :=
  (members ++ (members.head?).toList).map (nameOf projects)

/-- Checks that every reference leads to a library, or to any project for what is used, that is
declared once and before the reference. -/
def validate (projects : List ProjectDefinition) : Except ModelError Unit :=
  match firstRepeated [] (projects.map (·.name)) with
  | some name => .error (.duplicateProject name)
  | none =>
    match edges projects (all projects) with
    | .error fault => .error fault
    | .ok edges =>
      match Reachability.reportedCycle (targets edges) projects.length with
      | some members => .error (.cycle (cycleNames projects members))
      | none =>
        match edges.find? fun e => e.source < e.target with
        | some e => .error (.outOfOrder (nameOf projects e.source) (nameOf projects e.target))
        | none => .ok ()

end BuildPlanner.References
