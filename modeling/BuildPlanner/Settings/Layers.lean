import BuildPlanner.Files
import BuildPlanner.Report
import BuildPlanner.Settings

/-!
# Layered settings

The settings of a user are read from a file in the home, and over them those of a workspace from a
file at its root. A file that is missing or cannot be read sets nothing.
-/

namespace BuildPlanner.Settings

/-- The failure of settings that cannot be read. -/
def Fault.failure : Fault → Failure
  | malformed => .of .malformed
  | schema error => .of (.schema error)

/-- Loads a settings file. -/
def load (h : Host) (p : Path) : Except Failure Settings := do
  let text ← (h.read p).mapError (Files.treeFailure s!"failed to read config file: {p}")
  (parse text).mapError fun fault => fault.failure.within s!"failed to parse config file: {p}"

/-- Loads a settings file, or nothing. -/
def loadOrDefault (h : Host) (p : Path) : Settings :=
  if h.exists? p then (load h p).toOption.getD {} else {}

/-- The settings of a workspace over those of the user. -/
def layered (h : Host) (userFile : Option Path) (workspaceFile : Path) : Settings :=
  let ofUser := (userFile.map (loadOrDefault h)).getD {}
  ((({} : Settings).merge ofUser).merge (loadOrDefault h workspaceFile))

/-- What is reported about a settings file that is there and cannot be loaded. -/
def complaint? (h : Host) (p : Path) : Option String :=
  if h.exists? p then
    match load h p with
    | .ok _ => none
    | .error failure => some s!"Failed to load config from {p}: {failure.message}"
  else none

/-- Reports the settings files that are there and cannot be loaded. -/
def reportComplaints (h : Host) (files : List Path) : Host :=
  (files.filterMap (complaint? h)).foldl (fun h text => h.report .warning text) h

/-- The settings file below a directory. -/
def fileIn (directory : Path) : Path :=
  (directory.entry ".shipwright").entry "config.toml"

/-- The settings that count for a workspace. -/
def forRoot (h : Host) (root : Path) : Settings :=
  layered h (some (fileIn h.home)) (fileIn root)

/-- Loads the settings that count for a workspace. -/
def loadForRoot {ε : Type} (root : Path) : Activity ε Settings := fun h =>
  (.ok (forRoot h root), reportComplaints h [fileIn h.home, fileIn root])

end BuildPlanner.Settings
