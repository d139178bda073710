import BuildPlanner.Glob.Matching
import BuildPlanner.Host
import BuildPlanner.Path.Order

/-!
# Searching for files

A pattern is matched component by component. A component without wildcards is looked up by its
name; any other is compared with the names in the directory reached so far. Files are found below a
base directory, whose own name is taken literally, and come out sorted.
-/

namespace BuildPlanner.Glob

/-- A pattern taken apart. -/
structure Plan where
  /-- Where the search starts. -/
  start : Path
  /-- The components, of which no two neighbours stand for any directories. -/
  steps : List (List Token)
  /-- Whether only directories are found. -/
  directoriesOnly : Bool
deriving DecidableEq, Repr

/-- Drops a piece from the end if it is empty. -/
def dropEmptyLast (pieces : List (List Char)) : List (List Char) :=
  if pieces.getLast? = some [] then pieces.dropLast else pieces

/-- Keeps the first of neighbours that stand for any directories. -/
def joinTrees : List (List Token) → List (List Token)
  | a :: b :: rest =>
    if isTree a && isTree b then joinTrees (b :: rest) else a :: joinTrees (b :: rest)
  | steps => steps

/-- Takes a pattern apart. The whole is read first, and then each component for itself: a slash
ends a component, also inside a bracket. -/
def plan (pattern : List Char) : Except PatternFault Plan := do
  discard (parse pattern)
  let absolute := pattern.head? = some '/'
  let body := if absolute then pattern.drop 1 else pattern
  let pieces := if body = [] then [[]] else dropEmptyLast (body.splitOn '/')
  let steps ← pieces.mapM parse
  return { start := if absolute then ⟨"/"⟩ else ⟨"."⟩
           steps := joinTrees steps
           directoriesOnly := pattern.getLast? = some '/' }

/-- The path of a name in a directory; a name where the search starts stands alone. -/
def childPath (directory : Path) (name : String) : Path :=
  if directory.same ⟨"."⟩ then ⟨name⟩ else directory.entry name

/-- What lies below a directory, each before what lies below it; `fuel` bounds the levels. -/
def below (h : Host) : (fuel : Nat) → Path → List Path
  | 0, _ => []
  | fuel + 1, directory =>
    (h.names directory).flatMap fun name =>
      childPath directory name :: below h fuel (childPath directory name)

/-- What lies below a directory at any depth. -/
def descendants (h : Host) (directory : Path) : List Path :=
  below h h.tree.height directory

/-- The special names that a component with a dot at its front and with wildcards finds. -/
def specialNames (step : List Token) : List String :=
  if step.head? = some (.char '.') then
    ["..", "."].filter fun name => isMatch step name.toList
  else []

/-- What the steps find from a path on. -/
def search (h : Host) (directoriesOnly : Bool) : List (List Token) → Path → List Path
  | [], p => if directoriesOnly && !h.isDirectory p then [] else [p]
  | step :: rest, p =>
    match literal? step with
    | some text =>
      let next := childPath p (.ofList text)
      let found := if text = ['.'] ∨ text = ['.', '.'] then h.isDirectory p else h.exists? next
      if found then search h directoriesOnly rest next else []
    | none =>
      if !h.isDirectory p then []
      else if isTree step then
        match rest with
        | [] => (descendants h p).filter h.isDirectory
        | next :: rest =>
          ((descendants h p).filter fun d =>
            isMatch next ((d.fileName?.getD "").toList)).flatMap (search h directoriesOnly rest)
      else
        (specialNames step).flatMap (fun name => search h directoriesOnly rest (p.entry name)) ++
          ((h.names p).filter fun name => isMatch step name.toList).flatMap
            fun name => search h directoriesOnly rest (childPath p name)

/-- What a plan finds. -/
def Plan.find (plan : Plan) (h : Host) : List Path :=
  search h plan.directoriesOnly plan.steps plan.start

/-- The pattern that finds a pattern below a base directory. -/
def patternBelow (base : Path) (pattern : String) : List Char :=
  Path.joinChars (escape base.text.toList) pattern.toList

/-- The files that the patterns find below a base, in the order of the patterns. The error is the
first pattern that cannot be read. -/
def matchesBelow (h : Host) (base : Path) :
    List String → Except (String × PatternFault) (List Path)
  | [] => .ok []
  | pattern :: rest =>
    match plan (patternBelow base pattern) with
    | .error fault => .error (pattern, fault)
    | .ok plan => (matchesBelow h base rest).map ((plan.find h).filter h.isFile ++ ·)

/-- The files that the patterns find below a base, sorted. -/
def files (h : Host) (base : Path) (patterns : List String) :
    Except (String × PatternFault) (List Path) :=
  (matchesBelow h base patterns).map Path.sort

end BuildPlanner.Glob
