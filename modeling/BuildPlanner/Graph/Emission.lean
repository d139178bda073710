import BuildPlanner.Graph.Basic

/-!
# Emission of a build graph

The projects are emitted in their order. Each library leaves its archive for the projects after it;
an executable links the archives of the libraries that it names, in the order in which it names
them. The first fault of the first faulty project is the answer if there is one.
-/

namespace BuildPlanner

/-- What the libraries emitted so far leave for linking, the latest first: the archive, or nothing
for a library of headers. -/
abbrev Archives := List (String × Option Path)

/-- The first source whose object is in the place of that of an earlier source, with the earlier
source before it. A source stands with the components of its object; `earlier` holds the sources
already seen, the latest first. -/
def collisionAfter (earlier : List (Path × List Component)) :
    List (Path × List Component) → Option (Path × Path)
  | [] => none
  | (source, place) :: rest =>
    match earlier.find? fun other => other.2 == place with
    | some other => some (other.1, source)
    | none => collisionAfter ((source, place) :: earlier) rest

/-- The first source whose object is the same as that of an earlier source, with the earlier source
before it. -/
def firstCollision (object : Path → Path) (sources : List Path) : Option (Path × Path) :=
  collisionAfter [] (sources.map fun source => (source, (object source).components))

/-- The archives of the named libraries; the error is the first name that no library has. -/
def linkedArchives (archives : Archives) : List String → Except String (List Path)
  | [] => .ok []
  | name :: names =>
    match archives.lookup name with
    | none => .error name
    | some archive => (linkedArchives archives names).map (archive.toList ++ ·)

namespace Project

variable (p : Project) (toolchain : Toolchain) (configuration : Configuration)

/-- The object of a source of the project. -/
def objectOf (source : Path) : Path :=
  toolchain.objectPath p.buildDir source

/-- The objects of the project, in the order of its sources. -/
def objects : List Path :=
  p.sources.map (p.objectOf toolchain)

/-- The statement that compiles a source of the project. -/
def compileStatement (source : Path) : Statement :=
  toolchain.compile
    { source
      object := p.objectOf toolchain source
      includeDirs := p.includeDirs
      defines := p.defines
      warningLevel := p.warningLevel }
    configuration

/-- The statements that compile the sources of the project. -/
def compileStatements : Except ModelError (List Statement) :=
  if p.sources.isEmpty then .error (.noSources p.name p.sourceDir)
  else
    match firstCollision (p.objectOf toolchain) p.sources with
    | some (first, second) => .error (.objectCollision p.name first second)
    | none => .ok (p.sources.map (p.compileStatement toolchain configuration))

/-- The statement that compiles the resource of an executable, with what it makes. -/
def resourceStatement (source : Path) : Except ModelError (Path × Statement) :=
  let fault := .unsupportedCapability toolchain.platform.name p.name source
  match toolchain.resourceExtension? with
  | none => .error fault
  | some extension =>
    let output := p.buildDir.withStemOf source extension
    match toolchain.resource? { source, output } with
    | none => .error fault
    | some statement => .ok (output, statement)

/-- The resource of an executable, if it names one. -/
def resource (spec : ExecutableSpec) : Except ModelError (Option (Path × Statement)) :=
  match spec.resourceFile with
  | none => .ok none
  | some source => (p.resourceStatement toolchain source).map some

/-- What is emitted for the project. -/
def emit (archives : Archives) : Except ModelError EmittedProject :=
  match p.kind with
  | .headerOnly =>
    .ok { name := p.name, kind := p.kind.name, artifact := none, statements := [] }
  | .staticLibrary => do
    let compiled ← p.compileStatements toolchain configuration
    let output := toolchain.libraryPath p.deployDir p.name
    let archive := toolchain.archive { objects := p.objects toolchain, output }
    return { name := p.name
             kind := p.kind.name
             artifact := some output
             statements := compiled ++ [archive] }
  | .executable spec => do
    let compiled ← p.compileStatements toolchain configuration
    let resource ← p.resource toolchain spec
    match linkedArchives archives spec.libraries with
    | .error name => throw (.outOfOrder p.name name)
    | .ok libraries =>
      let output := toolchain.executablePath p.deployDir p.name
      let link := toolchain.link
        { objects := p.objects toolchain
          libraries
          standardLibraries := spec.standardLibraries
          libraryDirs := spec.libraryDirs
          output
          resource := resource.map (·.1) }
        configuration
      return { name := p.name
               kind := p.kind.name
               artifact := some output
               statements := compiled ++ (resource.map (·.2)).toList ++ [link] }

end Project

namespace BuildGraph

variable (toolchain : Toolchain) (configuration : Configuration)

/-- What is left for linking after a project has been emitted. -/
def archivesAfter (archives : Archives) (p : Project) (emitted : EmittedProject) : Archives :=
  if p.kind.isLibrary then (p.name, emitted.artifact) :: archives else archives

/-- What is emitted for the projects, where `archives` are left by the projects before them. -/
def emitAll (archives : Archives) : List Project → Except ModelError (List EmittedProject)
  | [] => .ok []
  | p :: rest => do
    let emitted ← p.emit toolchain configuration archives
    return emitted :: (← emitAll (archivesAfter archives p emitted) rest)

/-- The build graph of the projects. -/
def generate (projects : List Project) : Except ModelError BuildGraph := do
  return { platform := toolchain.platform
           configuration
           rules := toolchain.rules
           projects := ← emitAll toolchain configuration [] projects }

end BuildGraph

end BuildPlanner
