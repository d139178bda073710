import BuildPlanner.Pipeline
import BuildPlanner.Settings.Layers

/-!
# Sessions

What a command works with: the workspace that it was called in or for, the settings that count
there, and the toolchain. What is named on the command line counts before the settings, and those
before the host.
-/

namespace BuildPlanner

/-- The name of the operating system of the host. -/
def hostSystem : String := "linux"

/-- The manifest that a command is for: the named one, seen from a directory, or the nearest one
upwards from there. -/
def findManifest (h : Host) (directory : Path) (named : Option Path) : Except Failure Path :=
  match named with
  | some p =>
    let p := directory.join p
    if h.isFile p then .ok p else .error (.of (.note s!"manifest not found: {p}"))
  | none =>
    match Workspace.findManifest? h directory with
    | some p => .ok p
    | none => .error (.of (.note
        s!"could not find {manifestName} in {directory} or any parent directory"))

/-- The toolchain that was chosen, or that of the host. -/
def chooseToolchain (chosen : Option Platform) : Except Failure Toolchain :=
  (Toolchain.select chosen hostSystem).mapError fun fault => .of (.model fault)

/-- Chooses the toolchain and reports which one. -/
def chooseToolchainReporting (chosen : Option Platform) : Activity Failure Toolchain := do
  let toolchain ← .ofView fun _ => chooseToolchain chosen
  .report .detail s!"using {toolchain.platform} toolchain"
  return toolchain

/-- What a command works with. -/
structure Session where
  /-- The workspace. -/
  workspace : Workspace
  /-- The settings. -/
  settings : Settings
  /-- The toolchain. -/
  toolchain : Toolchain
deriving DecidableEq, Repr

namespace Session

/-- Starts a session where the run was started. -/
def start (manifest : Option Path) (platform : Option Platform) : Activity Failure Session := do
  let manifestPath ← .ofView fun h => findManifest h h.workingPath manifest
  let workspace ← Workspace.load manifestPath
  let settings ← Settings.loadForRoot workspace.root
  let toolchain ← chooseToolchainReporting (platform.or settings.platform)
  return { workspace, settings, toolchain }

/-- What is said where no configuration is named. -/
def noConfiguration : String :=
  "no build type selected\nhelp: pass --build-type <debug|release|master> or set `build-type` " ++
    "under [build] in .shipwright/config.toml"

/-- The configuration: the named one, or that of the settings. -/
def configuration (s : Session) (named : Option Configuration) : Except Failure Configuration :=
  match named.or s.settings.configuration with
  | some configuration => .ok configuration
  | none => .error (.of (.note noConfiguration))

end Session

end BuildPlanner
