import BuildPlanner.Path.Basic

/-!
# Faults of a project model

What can be wrong with a set of projects, with the text, the code and the advice shown for it.
Such a fault is reported once, and nothing is tried again.
-/

namespace BuildPlanner

/-- A fault in the projects or in how they are configured. -/
inductive ModelError where
  /-- The host has no toolchain of its own. -/
  | unsupportedPlatform (host : String)
  /-- The toolchain has no resource compiler, and an executable names a resource. -/
  | unsupportedCapability (toolchain project : String) (resource : Path)
  /-- Two projects have one name. -/
  | duplicateProject (name : String)
  /-- A name stands for no project. -/
  | unknownReference (project reference : String)
  /-- An executable is linked. -/
  | notALibrary (project reference : String)
  /-- Projects need each other; the first of them is repeated at the end. -/
  | cycle (projects : List String)
  /-- A project needs one that comes later. -/
  | outOfOrder (project dependency : String)
  /-- A project has nothing to compile. -/
  | noSources (project : String) (directory : Path)
  /-- Two sources of a project have one object file. -/
  | objectCollision (project : String) (first second : Path)
  /-- The source patterns of a project cannot be read. -/
  | invalidPattern (project pattern : String)
  /-- A name stands for no toolchain. -/
  | unknownToolchain (name : String)
deriving DecidableEq, Repr

namespace ModelError

/-- What is said about the fault. -/
def message : ModelError → String
  | unsupportedPlatform host => s!"unsupported host platform `{host}`"
  | unsupportedCapability toolchain project resource =>
    s!"toolchain `{toolchain}` cannot compile resource `{resource}` for project `{project}`"
  | duplicateProject name => s!"project `{name}` is declared more than once"
  | unknownReference project reference =>
    s!"project `{project}` references unknown project `{reference}`"
  | notALibrary project reference =>
    s!"project `{project}` links `{reference}`, which is not a library"
  | cycle projects => "dependency cycle between projects: " ++ " -> ".intercalate projects
  | outOfOrder project dependency =>
    s!"project `{project}` depends on `{dependency}`, which is declared after it"
  | noSources project directory => s!"project `{project}` has no source files in {directory}"
  | objectCollision project first second =>
    s!"sources `{first}` and `{second}` of project `{project}` map to the same object file"
  | invalidPattern project pattern =>
    s!"invalid source pattern `{pattern}` in project `{project}`"
  | unknownToolchain name => s!"unknown toolchain `{name}`"

/-- The code by which the fault is known to tools. -/
def code : ModelError → String
  | unsupportedPlatform .. => "shipwright::unsupported_platform"
  | unsupportedCapability .. => "shipwright::unsupported_capability"
  | duplicateProject .. => "shipwright::duplicate_project"
  | unknownReference .. => "shipwright::unknown_reference"
  | notALibrary .. => "shipwright::not_a_library"
  | cycle .. => "shipwright::cycle"
  | outOfOrder .. => "shipwright::out_of_order"
  | noSources .. => "shipwright::no_sources"
  | objectCollision .. => "shipwright::object_collision"
  | invalidPattern .. => "shipwright::invalid_pattern"
  | unknownToolchain .. => "shipwright::unknown_toolchain"

/-- How the fault can be mended, where there is advice. -/
def help : ModelError → Option String
  | unsupportedPlatform .. =>
    some ("pass `--toolchain msvc|gcc` or set `[toolchain] platform` in " ++
      ".shipwright/config.toml")
  | unsupportedCapability .. =>
    some "restrict the project to resource-capable toolchains with `toolchains = [\"msvc\"]`"
  | unknownReference _ reference =>
    some s!"declare `{reference}` in Shipwright.toml, or check its `toolchains` filter"
  | cycle .. => some "break the cycle by removing a `uses` or `links` entry"
  | outOfOrder project dependency =>
    some s!"move `{dependency}` above `{project}` in Shipwright.toml"
  | noSources .. =>
    some "check `path` and `sources`, or declare the project with kind = \"header-only\""
  | objectCollision .. => some "rename one of the sources"
  | unknownToolchain .. => some "expected `msvc` or `gcc`"
  | _ => none

end ModelError

end BuildPlanner
