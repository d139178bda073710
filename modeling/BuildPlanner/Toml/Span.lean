/-!
# Places in a text

A span is kept as what is left of the text where it starts and where it ends, so that a reader
finds it without counting. A message shows the line in which a span starts, with its number, and
marks the span below.
-/

namespace BuildPlanner.Toml

/-- A part of a text. -/
structure Span where
  /-- What is left of the text where the part starts. -/
  start : List Char
  /-- What is left of the text where the part ends. -/
  stop : List Char
deriving DecidableEq, Repr, Inhabited

/-- A line with a mark below it. -/
structure Excerpt where
  /-- The number of lines before it. -/
  line : Nat
  /-- The number of characters before the mark. -/
  column : Nat
  /-- The line. -/
  content : String
  /-- The length of the mark. -/
  width : Nat
deriving DecidableEq, Repr, Inhabited

/-- The number of bytes of a text. -/
def byteSize (cs : List Char) : Nat :=
  (String.ofList cs).utf8ByteSize

namespace Span

/-- The text before the span. -/
def before (text : List Char) (span : Span) : List Char :=
  text.take (text.length - span.start.length)

/-- The text of the span. -/
def inside (span : Span) : List Char :=
  span.start.take (span.start.length - span.stop.length)

/-- The line in which the span starts, with the span marked as far as the line goes. The mark is
measured in bytes, the characters before it are counted. -/
def excerpt (text : List Char) (span : Span) : Excerpt :=
  let before := span.before text
  let head := (before.reverse.takeWhile (· != '\n')).reverse
  let content := head ++ span.start.takeWhile (· != '\n')
  { line := before.count '\n'
    column := head.length
    content := .ofList content
    width := min (byteSize span.inside) (byteSize content - head.length) }

end Span

namespace Excerpt

/-- The excerpt as it is shown. A mark has at least one sign. -/
def text (excerpt : Excerpt) : String :=
  let number := toString (excerpt.line + 1)
  let margin := "".pushn ' ' (number.length + 1) ++ "|"
  let mark := ("".pushn ' ' (excerpt.column + 1)).pushn '^' (max 1 excerpt.width)
  s!"line {number}, column {excerpt.column + 1}\n{margin}\n" ++
    s!"{number} | {excerpt.content}\n{margin}{mark}\n"

end Excerpt

end BuildPlanner.Toml
