/-!
# Texts as bytes

Some programs handle a text byte by byte. Such a text is written here with one character for each
byte, and its characters are read back from it; bytes that write no character are replaced.
-/

namespace BuildPlanner.Text

/-- A byte as a character. -/
def byteChar (byte : UInt8) : Char := .ofNat byte.toNat

/-- The bytes of a text, each as a character. -/
def bytes (text : String) : String :=
  .ofList (text.toList.flatMap fun c => (String.utf8EncodeChar c).map byteChar)

/-- What stands for bytes that write no character. -/
def replacement : Char := '\uFFFD'

/-- The six bits that a byte at the front adds, if it lies within bounds, and what follows it. -/
def continuation? (low high : Nat) : List Char → Option (Nat × List Char)
  | [] => none
  | c :: rest => if low ≤ c.toNat && c.toNat ≤ high then some (c.toNat % 64, rest) else none

/-- The rest of a character of which some bits are read, in a number of bytes that may be any. -/
def decodeRest (bits : Nat) : (count : Nat) → List Char → Char × List Char
  | 0, cs => (.ofNat bits, cs)
  | count + 1, cs =>
    match continuation? 0x80 0xBF cs with
    | some (more, rest) => decodeRest (64 * bits + more) count rest
    | none => (replacement, cs)

/-- The rest of a character after its first byte, of which the second lies within bounds. -/
def decodeTail (bits low high count : Nat) (cs : List Char) : Char × List Char :=
  match continuation? low high cs with
  | some (more, rest) => decodeRest (64 * bits + more) count rest
  | none => (replacement, cs)

/-- The character that a byte starts, and what follows it. -/
def decodeChar (c : Char) (rest : List Char) : Char × List Char :=
  let lead := c.toNat
  if lead < 0x80 then (c, rest)
  else if lead < 0xC2 then (replacement, rest)
  else if lead < 0xE0 then decodeTail (lead % 32) 0x80 0xBF 0 rest
  else if lead < 0xF0 then
    decodeTail (lead % 16) (if lead = 0xE0 then 0xA0 else 0x80) (if lead = 0xED then 0x9F else 0xBF)
      1 rest
  else if lead < 0xF5 then
    decodeTail (lead % 8) (if lead = 0xF0 then 0x90 else 0x80) (if lead = 0xF4 then 0x8F else 0xBF)
      2 rest
  else (replacement, rest)

/-- The characters that bytes write; `fuel` bounds their number. -/
def decodeChars : (fuel : Nat) → List Char → List Char
  | 0, _ => []
  | _, [] => []
  | fuel + 1, c :: rest =>
    let (decoded, rest) := decodeChar c rest
    decoded :: decodeChars fuel rest

/-- The text that bytes write. -/
def ofBytes (text : String) : String :=
  .ofList (decodeChars text.length text.toList)

end BuildPlanner.Text
