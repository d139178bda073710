import BuildPlanner.Configuration
import BuildPlanner.Statement
import BuildPlanner.Text.Argument
import BuildPlanner.Toolchain.Task

/-!
# The GNU toolchain

The rules of `g++` and `ar`, and the statements that apply them. Static libraries are searched from
left to right, so a link names the objects first, then the libraries in their order, then the
system libraries. The compiler writes a dependency file next to each object.
-/

namespace BuildPlanner

/-- The GNU toolchain. -/
structure Gcc where
  /-- The compiler, which also links. -/
  cxx : String := "g++"
  /-- The archiver. -/
  ar : String := "ar"
deriving DecidableEq, Repr, Inhabited

namespace Gcc

/-- The flags of every compilation. -/
def baseFlags : String := "-Werror -std=c++20"

/-- The flags of a configuration. -/
def configurationFlags : Configuration → String
  | .debug => "-g -Og"
  | .release => "-g -O3"
  | .master => "-O3"

/-- The flags of a warning level. -/
def warningFlags : Nat → String
  | 0 => "-w"
  | 1 | 2 => "-Wall"
  | 3 => "-Wall -Wextra"
  | _ => "-Wall -Wextra -Wpedantic"

/-- The dependency file of an object. -/
def depfilePath (object : Path) : Path :=
  object.parentOrEmpty.withStemOf object "d"

/-- The rules of the toolchain. -/
def rules (tools : Gcc) : List Rule :=
  [{ name := "cc"
     command := tools.cxx ++ " -MD $cc_out_deps -c $cc_flags $cc_build_flags $cc_warning_level " ++
       "$cc_defines $cc_out_obj $cc_in_includes $cc_in_files"
     depfile := some "$cc_depsfile"
     deps := some "gcc" },
   { name := "ar"
     command := tools.ar ++ " $ar_flags $ar_out_file $ar_in_files" },
   { name := "ld"
     command := tools.cxx ++ " $ld_build_flags $ld_out_exe $ld_in_lib_dirs $ld_in_files " ++
       "$ld_in_libs $ld_in_standard_libs" }]

/-- The statement that compiles a source. The dependency file is bound as a plain path for the
executor, and once more in a flag for the shell. -/
def compile (task : CompileTask) (configuration : Configuration) : Statement :=
  let depfile := depfilePath task.object
  { kind := .compile
    rule := "cc"
    outputs := [task.object]
    inputs := [task.source]
    bindings :=
      [("cc_depsfile", depfile.text),
       ("cc_out_deps", Text.quoteArgument ("-MF" ++ depfile.text)),
       ("cc_flags", baseFlags),
       ("cc_build_flags", configurationFlags configuration),
       ("cc_warning_level", warningFlags task.warningLevel),
       ("cc_defines", Text.joinArguments (task.defines.map fun d => "-D" ++ d.text)),
       ("cc_out_obj", Text.quoteArgument ("-o" ++ task.object.text)),
       ("cc_in_includes", Text.joinArguments (task.includeDirs.map fun d => "-I" ++ d.text)),
       ("cc_in_files", Text.quoteArgument task.source.text)] }

/-- The statement that makes an archive with an index, replacing what it held. -/
def archive (task : ArchiveTask) : Statement :=
  { kind := .archive
    rule := "ar"
    outputs := [task.output]
    inputs := task.objects
    bindings :=
      [("ar_flags", "rcs"),
       ("ar_out_file", Text.quoteArgument task.output.text),
       ("ar_in_files", Text.joinArguments (task.objects.map Path.text))] }

/-- The statement that links an executable. -/
def link (task : LinkTask) (configuration : Configuration) : Statement :=
  { kind := .link
    rule := "ld"
    outputs := [task.output]
    inputs := task.objects ++ task.libraries
    bindings :=
      [("ld_build_flags", configurationFlags configuration),
       ("ld_out_exe", Text.quoteArgument ("-o" ++ task.output.text)),
       ("ld_in_lib_dirs", Text.joinArguments (task.libraryDirs.map fun d => "-L" ++ d.text)),
       ("ld_in_files", Text.joinArguments (task.objects.map Path.text)),
       ("ld_in_libs", Text.joinArguments (task.libraries.map Path.text)),
       ("ld_in_standard_libs",
        Text.joinArguments (task.standardLibraries.map fun l => "-l" ++ l))] }

/-- The file name of an artifact. -/
def artifactName : ArtifactKind → String → String
  | .staticLibrary, base => "lib" ++ base ++ ".a"
  | .executable, base => base

/-- The extension of objects. -/
def objectExtension : String := "o"

end Gcc

end BuildPlanner
