import BuildPlanner.Configuration
import BuildPlanner.Manifest.Decode

/-!
# User settings

What a user sets for all workspaces or for one: the build executor, the number of jobs, whether
compilation databases are written, and which configuration and platform are used where none is
named. Of two settings the later counts where it says something. Unknown members are no fault here.
-/

namespace BuildPlanner

/-- What a user sets. -/
structure Settings where
  /-- The build executor. -/
  ninja : Option Path := none
  /-- The number of parallel jobs. -/
  jobs : Option Nat := none
  /-- Whether a compilation database is always written. -/
  emitCompileCommands : Bool := false
  /-- The configuration where none is named. -/
  configuration : Option Configuration := none
  /-- The platform where none is named. -/
  platform : Option Platform := none
deriving DecidableEq, Repr, Inhabited

namespace Settings

open Toml Decoder

/-- The settings with others over them. -/
def merge (base other : Settings) : Settings where
  ninja := other.ninja.or base.ninja
  jobs := other.jobs.or base.jobs
  emitCompileCommands := other.emitCompileCommands || base.emitCompileCommands
  configuration := other.configuration.or base.configuration
  platform := other.platform.or base.platform

/-- The largest number of jobs. -/
def jobsBound : Nat := 18446744073709551615

/-- The names of the configurations. -/
def configurationNames : List (String × Configuration) :=
  Configuration.all.map fun configuration => (configuration.name, configuration)

/-- How builds run. -/
def buildShape (start : Settings) : Shape Settings where
  name := "BuildConfig"
  isClosed := false
  start := start
  fields :=
    [field "ninja" path fun r v => { r with ninja := some v },
     field "jobs" (natural jobsBound "usize") fun r v => { r with jobs := some v },
     field "emit-compile-commands" boolean fun r v => { r with emitCompileCommands := v },
     field "build-type" (choice configurationNames) fun r v => { r with configuration := some v }]

/-- Which toolchain is used. -/
def toolchainShape (start : Settings) : Shape Settings where
  name := "ToolchainConfig"
  isClosed := false
  start := start
  fields :=
    [field "platform" (choice Manifest.platformNames) fun r v => { r with platform := some v }]

/-- The settings of a file. -/
def shape : Shape Settings where
  name := "Config"
  isClosed := false
  start := {}
  fields :=
    [⟨"build", false, fun r => (buildShape r).decoder⟩,
     ⟨"toolchain", false, fun r => (toolchainShape r).decoder⟩]

/-- Why settings cannot be read. -/
inductive Fault where
  /-- The text is not well formed. -/
  | malformed
  /-- A value is not what it should be. -/
  | schema (error : SchemaError)
deriving DecidableEq, Repr

/-- Reads settings. -/
def parse (text : String) : Except Fault Settings :=
  match Toml.parse text with
  | none => .error .malformed
  | some table =>
    match shape.decoder table with
    | .error misfit => .error (.schema (.ofMisfit text misfit))
    | .ok settings => .ok settings

theorem merge_empty (s : Settings) : s.merge {} = s := by
  cases s; simp [merge]

theorem empty_merge (s : Settings) : merge {} s = s := by
  cases s; simp [merge]

end Settings

end BuildPlanner
