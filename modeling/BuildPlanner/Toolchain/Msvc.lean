import BuildPlanner.Configuration
import BuildPlanner.Statement
import BuildPlanner.Text.Argument
import BuildPlanner.Toolchain.Task

/-!
# The Microsoft toolchain

The rules of `cl`, `lib`, `rc` and `link`, and the statements that apply them. Where the
configuration keeps debug symbols, each object and each executable has a program database next to
it, which is one more output of its statement.
-/

namespace BuildPlanner

/-- The Microsoft toolchain. -/
structure Msvc where
  /-- The compiler. -/
  cl : String := "cl.exe"
  /-- The librarian. -/
  lib : String := "lib.exe"
  /-- The linker. -/
  link : String := "link.exe"
  /-- The resource compiler. -/
  rc : String := "rc.exe"
deriving DecidableEq, Repr, Inhabited

namespace Msvc

/-- The flags of every compilation. -/
def baseFlags : String := "/nologo /Gy /EHsc /WX /std:c++latest /Zc:__cplusplus /utf-8"

/-- The compiler flags of a configuration. -/
def configurationFlags : Configuration → String
  | .debug => "/MTd /Od /Zi"
  | .release => "/MT /Ox /Zi"
  | .master => "/MT /Ox"

/-- The linker flags of a configuration. -/
def linkConfigurationFlags (configuration : Configuration) : String :=
  if configuration.hasDebugSymbols then "/DEBUG:FULL" else "/DEBUG:NONE"

/-- The program database of an object or an executable. -/
def databasePath (file : Path) : Path :=
  file.parentOrEmpty.withStemOf file "pdb"

/-- The program database of a file, where the configuration has one. -/
def database? (file : Path) (configuration : Configuration) : Option Path :=
  if configuration.hasDebugSymbols then some (databasePath file) else none

/-- The flag that names a program database, or nothing. -/
def databaseFlag (flag : String) : Option Path → String
  | some database => Text.quoteArgument (flag ++ database.text)
  | none => ""

/-- The rules of the toolchain. -/
def rules (tools : Msvc) : List Rule :=
  [{ name := "cc"
     command := tools.cl ++ " /showIncludes -c $cc_flags $cc_build_flags $cc_warning_level " ++
       "$cc_defines $cc_out_obj $cc_out_pdb $cc_in_includes $cc_in_files"
     deps := some "msvc" },
   { name := "ar"
     command := tools.lib ++ " $ar_flags $ar_out_file $ar_in_files" },
   { name := "rc"
     command := tools.rc ++ " $rc_out_file $rc_in_file" },
   { name := "link"
     command := tools.link ++ " $link_flags $link_build_flags $link_out_exe $link_out_pdb " ++
       "$link_in_lib_dirs $link_in_files $res_file" }]

/-- The statement that compiles a source. -/
def compile (task : CompileTask) (configuration : Configuration) : Statement :=
  let database := database? task.object configuration
  { kind := .compile
    rule := "cc"
    outputs := task.object :: database.toList
    inputs := [task.source]
    bindings :=
      [("cc_flags", baseFlags),
       ("cc_build_flags", configurationFlags configuration),
       ("cc_warning_level", "/W" ++ toString task.warningLevel),
       ("cc_defines", Text.joinArguments (task.defines.map fun d => "/D" ++ d.text)),
       ("cc_out_obj", Text.quoteArgument ("/Fo" ++ task.object.text)),
       ("cc_out_pdb", databaseFlag "/Fd" database),
       ("cc_in_includes", Text.joinArguments (task.includeDirs.map fun d => "/I" ++ d.text)),
       ("cc_in_files", Text.quoteArgument task.source.text)] }

/-- The statement that makes an archive. -/
def archive (task : ArchiveTask) : Statement :=
  { kind := .archive
    rule := "ar"
    outputs := [task.output]
    inputs := task.objects
    bindings :=
      [("ar_flags", "/NOLOGO"),
       ("ar_out_file", Text.quoteArgument ("/OUT:" ++ task.output.text)),
       ("ar_in_files", Text.joinArguments (task.objects.map Path.text))] }

/-- The statement that links an executable. -/
def linkStatement (task : LinkTask) (configuration : Configuration) : Statement :=
  let database := database? task.output configuration
  { kind := .link
    rule := "link"
    outputs := task.output :: database.toList
    inputs := task.objects ++ task.libraries ++ task.resource.toList
    bindings :=
      [("link_flags", "/NOLOGO /OPT:REF /SUBSYSTEM:CONSOLE"),
       ("link_build_flags", linkConfigurationFlags configuration),
       ("link_out_exe", Text.quoteArgument ("/OUT:" ++ task.output.text)),
       ("link_out_pdb", databaseFlag "/PDB:" database),
       ("link_in_lib_dirs",
        Text.joinArguments (task.libraryDirs.map fun d => "/LIBPATH:" ++ d.text)),
       ("link_in_files",
        Text.joinArguments
          ((task.objects ++ task.libraries).map Path.text ++ task.standardLibraries)),
       ("res_file", (task.resource.map fun r => Text.quoteArgument r.text).getD "")] }

/-- The statement that compiles a resource script. -/
def resource (task : ResourceTask) : Statement :=
  { kind := .resource
    rule := "rc"
    outputs := [task.output]
    inputs := [task.source]
    bindings :=
      [("rc_out_file", "/fo " ++ Text.quoteArgument task.output.text),
       ("rc_in_file", Text.quoteArgument task.source.text)] }

/-- The file name of an artifact. -/
def artifactName : ArtifactKind → String → String
  | .staticLibrary, base => base ++ ".lib"
  | .executable, base => base ++ ".exe"

/-- The extension of objects. -/
def objectExtension : String := "obj"

/-- The extension of compiled resources. -/
def resourceExtension : String := "res"

end Msvc

end BuildPlanner
