import BuildPlanner.ModelError

/-!
# Toolchain platforms

A platform names a family of compilers and linkers. The host chooses one where the user does not.
-/

namespace BuildPlanner

/-- A family of compilers and linkers. -/
inductive Platform where
  /-- Microsoft Visual C++. -/
  | msvc
  /-- The GNU compilers. -/
  | gcc
deriving DecidableEq, Repr, Inhabited

namespace Platform

/-- All platforms. -/
def all : List Platform := [msvc, gcc]

/-- The name on the command line, in manifests and in file names. -/
def name : Platform → String
  | msvc => "msvc"
  | gcc => "gcc"

/-- The name in the directory layout. -/
def directoryName : Platform → String
  | msvc => "MSVC"
  | gcc => "GCC"

/-- The platform of a given name, in exactly this spelling. -/
def ofName? (name : String) : Option Platform :=
  all.find? fun platform => platform.name == name

/-- The platform that a user names; letter case does not count. -/
def parse (text : String) : Except ModelError Platform :=
  match ofName? text.toLower with
  | some platform => .ok platform
  | none => .error (.unknownToolchain text)

/-- The platform of a host, given the name of its operating system. -/
def ofHost (host : String) : Except ModelError Platform :=
  if host = "windows" then .ok msvc
  else if host = "linux" then .ok gcc
  else .error (.unsupportedPlatform host)

instance : ToString Platform := ⟨name⟩

theorem name_injective : ∀ {a b : Platform}, a.name = b.name → a = b := by
  intro a b; cases a <;> cases b <;> simp [name]

theorem directoryName_injective : ∀ {a b : Platform},
    a.directoryName = b.directoryName → a = b := by
  intro a b; cases a <;> cases b <;> simp [directoryName]

end Platform

end BuildPlanner
