/-!
# Build configurations

A configuration is chosen once for a run. It selects the optimization level, the debug symbols and
the name of a level in the directory layout.
-/

namespace BuildPlanner

/-- How a run builds. -/
inductive Configuration where
  /-- Unoptimized, with debug symbols. -/
  | debug
  /-- Optimized, with debug symbols. -/
  | release
  /-- Optimized, without debug symbols. -/
  | master
deriving DecidableEq, Repr, Inhabited

namespace Configuration

/-- All configurations, from the least to the most optimized. -/
def all : List Configuration := [debug, release, master]

/-- The name on the command line and in file names. -/
def name : Configuration → String
  | debug => "debug"
  | release => "release"
  | master => "master"

/-- The name in the directory layout. -/
def directoryName : Configuration → String
  | debug => "Debug"
  | release => "Release"
  | master => "Master"

/-- Whether the build keeps debug symbols. -/
def hasDebugSymbols : Configuration → Bool
  | master => false
  | _ => true

/-- The configuration of a given name, in exactly this spelling. -/
def ofName? (name : String) : Option Configuration :=
  all.find? fun configuration => configuration.name == name

/-- The configuration that a user names; letter case does not count. -/
def parse? (text : String) : Option Configuration :=
  ofName? text.toLower

/-- What is said about a text that names no configuration. -/
def unknownMessage (text : String) : String :=
  s!"invalid build type '{text}'; expected 'debug', 'release', or 'master'"

instance : ToString Configuration := ⟨name⟩

theorem name_injective : ∀ {a b : Configuration}, a.name = b.name → a = b := by
  intro a b; cases a <;> cases b <;> simp [name]

theorem directoryName_injective : ∀ {a b : Configuration},
    a.directoryName = b.directoryName → a = b := by
  intro a b; cases a <;> cases b <;> simp [directoryName]

end Configuration

end BuildPlanner
