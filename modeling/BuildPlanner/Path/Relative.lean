import BuildPlanner.Path.Basic

/-!
# The way from one path to another

The shared leading components are skipped, one step up is taken for each further component of the
base, and the rest of the path follows. A base with steps up after the shared part leads to no
answer, and an absolute path seen from a relative base is its own answer.
-/

namespace BuildPlanner.Path

/-- The steps to a path from a base, by components; `moved` says that a step was taken. -/
def steps : (moved : Bool) → (path base : List Component) → Option (List Component)
  | _, path, [] => some path
  | _, [], _ :: base => (steps true [] base).map (.up :: ·)
  | moved, a :: path, b :: base =>
    if !moved && a = b then steps false path base
    else if b = .here then (steps true path base).map (a :: ·)
    else if b = .up then none
    else some (.up :: base.map (fun _ => .up) ++ a :: path)

/-- The path as seen from a base; it stays as it is where no way is known. -/
def relativeTo (base path : Path) : Path :=
  if path.isAbsolute != base.isAbsolute then path
  else
    match steps false path.components base.components with
    | some way => ofComponents way
    | none => path

end BuildPlanner.Path
