import BuildPlanner.Platform
import BuildPlanner.Toolchain.Gcc
import BuildPlanner.Toolchain.Msvc

/-!
# Toolchains

One toolchain is active in a run. It turns tasks into statements, names artifacts and says which
rules its statements apply. Only the Microsoft toolchain compiles resources.
-/

namespace BuildPlanner

/-- The active toolchain. -/
inductive Toolchain where
  /-- The GNU toolchain. -/
  | gcc (tools : Gcc)
  /-- The Microsoft toolchain. -/
  | msvc (tools : Msvc)
deriving DecidableEq, Repr

namespace Toolchain

/-- The toolchain of a platform, with its usual programs. -/
def ofPlatform : Platform → Toolchain
  | .gcc => gcc {}
  | .msvc => msvc {}

/-- The toolchain that a user chose, or else that of the host. -/
def select (chosen : Option Platform) (host : String) : Except ModelError Toolchain :=
  match chosen with
  | some platform => .ok (ofPlatform platform)
  | none => (Platform.ofHost host).map ofPlatform

/-- The platform of the toolchain. -/
def platform : Toolchain → Platform
  | gcc _ => .gcc
  | msvc _ => .msvc

/-- The rules that its statements apply. -/
def rules : Toolchain → List Rule
  | gcc tools => tools.rules
  | msvc tools => tools.rules

/-- The programs of the toolchain, with their labels in reports. -/
def programs : Toolchain → List (String × String)
  | gcc tools => [("CXX", tools.cxx), ("AR", tools.ar)]
  | msvc tools => [("CL", tools.cl), ("LIB", tools.lib), ("LINK", tools.link), ("RC", tools.rc)]

/-- The statement that compiles a source. -/
def compile : Toolchain → CompileTask → Configuration → Statement
  | gcc _ => Gcc.compile
  | msvc _ => Msvc.compile

/-- The statement that makes an archive. -/
def archive : Toolchain → ArchiveTask → Statement
  | gcc _ => Gcc.archive
  | msvc _ => Msvc.archive

/-- The statement that links an executable. -/
def link : Toolchain → LinkTask → Configuration → Statement
  | gcc _ => Gcc.link
  | msvc _ => Msvc.linkStatement

/-- The extension of compiled resources, if the toolchain compiles resources. -/
def resourceExtension? : Toolchain → Option String
  | gcc _ => none
  | msvc _ => some Msvc.resourceExtension

/-- The statement that compiles a resource script, if the toolchain has one. -/
def resource? : Toolchain → ResourceTask → Option Statement
  | gcc _, _ => none
  | msvc _, task => some (Msvc.resource task)

/-- The file name of an artifact. -/
def artifactName : Toolchain → ArtifactKind → String → String
  | gcc _ => Gcc.artifactName
  | msvc _ => Msvc.artifactName

/-- The extension of objects. -/
def objectExtension : Toolchain → String
  | gcc _ => Gcc.objectExtension
  | msvc _ => Msvc.objectExtension

/-- The object of a source. -/
def objectPath (toolchain : Toolchain) (buildDir source : Path) : Path :=
  buildDir.withStemOf source toolchain.objectExtension

/-- The archive of a library. -/
def libraryPath (toolchain : Toolchain) (deployDir : Path) (name : String) : Path :=
  deployDir.entry (toolchain.artifactName .staticLibrary name)

/-- The program of an executable. -/
def executablePath (toolchain : Toolchain) (deployDir : Path) (name : String) : Path :=
  deployDir.entry (toolchain.artifactName .executable name)

end Toolchain

end BuildPlanner
