import BuildPlanner.Path.Order
import BuildPlanner.Path.Relative

/-!
# Umbrella sources

Test cases that register themselves are dropped by a linker that takes them from a library, so one
umbrella source includes them all. It lists the found files by their way from the test root, sorted
and without repeats, and leaves out itself.
-/

namespace BuildPlanner.Umbrella

/-- The first line of an umbrella source. -/
def headerLine : String := "/* auto-generated by shipwright: do not edit */"

/-- The line that includes a file. -/
def includeLine (file : String) : String :=
  "#include \"" ++ file ++ "\"\n"

/-- The umbrella source of a list of files. -/
def render (includes : List String) : String :=
  headerLine ++ "\n\n" ++ .join (includes.map includeLine)

/-- Keeps the first of equal neighbours. -/
def dropRepeatedTexts : List String → List String
  | a :: b :: rest =>
    if a = b then dropRepeatedTexts (b :: rest) else a :: dropRepeatedTexts (b :: rest)
  | texts => texts

/-- The texts to include for the files found below a root. -/
def includes (root output : Path) (found : List Path) : List String :=
  let files := found.filter fun file => !file.same output
  dropRepeatedTexts
    ((files.map fun file => (Path.relativeTo root file).toSlash).mergeSort fun a b =>
      decide (a ≤ b))

/-- The umbrella source for the files found below a root. -/
def source (root output : Path) (found : List Path) : String :=
  render (includes root output found)

end BuildPlanner.Umbrella
