import BuildPlanner.Text.Bytes

/-!
# What files hold

A file holds a text, or bytes that are no text. What is put into a file byte by byte is a text
again as soon as its bytes write one.
-/

namespace BuildPlanner

/-- What a file holds. -/
inductive Content where
  /-- A text. -/
  | text (text : String)
  /-- Bytes that are no text, each as a character. -/
  | bytes (bytes : String)
deriving DecidableEq, Repr, Inhabited

namespace Content

/-- The number of bytes. -/
def size : Content → Nat
  | .text t => t.utf8ByteSize
  | .bytes b => b.length

/-- The bytes, each as a character. -/
def raw : Content → String
  | .text t => Text.bytes t
  | .bytes b => b

/-- The bytes from a position on, each as a character, but no more than `length`. -/
def part (content : Content) (position length : Nat) : List Char :=
  match content with
  | .text t => (t.toUTF8.extract position (position + length)).toList.map Text.byteChar
  | .bytes b => (b.toList.drop position).take length

/-- What bytes write. -/
def ofRaw (raw : String) : Content :=
  let decoded := Text.ofBytes raw
  if Text.bytes decoded = raw then .text decoded else .bytes raw

/-- The content with bytes at its end. -/
def append (content : Content) (added : String) : Content :=
  match content, ofRaw added with
  | .text before, .text after => .text (before ++ after)
  | _, _ => ofRaw (content.raw ++ added)

/-- The content with bytes from a position on; zeros stand between its end and them. -/
def write (content : Content) (position : Nat) (added : String) : Content :=
  if position = content.size then content.append added
  else
    let old := content.raw.toList
    let gap := List.replicate (position - old.length) '\x00'
    ofRaw (.ofList
      (old.take position ++ gap ++ added.toList ++ old.drop (position + added.length)))

end Content

end BuildPlanner
