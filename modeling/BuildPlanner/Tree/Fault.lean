/-!
# Faults of the file system

Why a file or a directory could not be read, made or run, with the text and the number that the
system gives for it. A text that no system call takes has no number.
-/

namespace BuildPlanner

/-- Why an operation on a tree failed. -/
inductive TreeFault where
  /-- Nothing stands there. -/
  | notFound
  /-- Something stands there already. -/
  | exists
  /-- A file stands where a directory is needed. -/
  | notDirectory
  /-- A directory stands where a file is needed. -/
  | isDirectory
  /-- A file that is not executable was to be run. -/
  | notExecutable
  /-- A file was to be run that does not say what runs it. -/
  | badFormat
  /-- A name or a path is too long. -/
  | nameTooLong
  /-- Too many files say of each other that they run them. -/
  | tooManyLevels
  /-- A file that holds no text was to be read. -/
  | notText
  /-- A path holds the character that ends texts. -/
  | nulInPath
  /-- A call of a program holds the character that ends texts. -/
  | nulInCall
deriving DecidableEq, Repr

namespace TreeFault

/-- What the system calls the fault. -/
def reason : TreeFault → String
  | notFound => "No such file or directory"
  | notExecutable => "Permission denied"
  | «exists» => "File exists"
  | notDirectory => "Not a directory"
  | isDirectory => "Is a directory"
  | badFormat => "Exec format error"
  | nameTooLong => "File name too long"
  | tooManyLevels => "Too many levels of symbolic links"
  | notText => "stream did not contain valid UTF-8"
  | nulInPath => "file name contained an unexpected NUL byte"
  | nulInCall => "nul byte found in provided data"

/-- The number of the fault. -/
def number? : TreeFault → Option Nat
  | notFound => some 2
  | badFormat => some 8
  | notExecutable => some 13
  | «exists» => some 17
  | notDirectory => some 20
  | isDirectory => some 21
  | nameTooLong => some 36
  | tooManyLevels => some 40
  | notText | nulInPath | nulInCall => none

/-- What is said about the fault. -/
def message (fault : TreeFault) : String :=
  match fault.number? with
  | some number => s!"{fault.reason} (os error {number})"
  | none => fault.reason

end TreeFault

end BuildPlanner
