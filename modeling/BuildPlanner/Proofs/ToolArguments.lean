import BuildPlanner.Proofs.Arguments
import BuildPlanner.Proofs.Commands
import BuildPlanner.Proofs.Entries

/-!
# The arguments of tools

For each task of a toolchain, the program and the arguments that it has to be run with: the fixed
flags of the configuration and of the warning level, and one argument for each path, define and
system library that the task names (`Platform.arguments`).  They stand in groups, one for each word
of the command.

* `Gcc.wordValues` and `Msvc.wordValues`: a word stands for the arguments of its group, quoted.
* `Gcc.isArgument_text` and `Msvc.isArgument_text`: none of them is empty or holds a quote, where
  none of the things that the task names does (`Task.Fits`).
-/

namespace BuildPlanner

open Text

/-! ## Tasks -/

/-- What a toolchain is asked to do. -/
inductive Task where
  | compile (task : CompileTask)
  | archive (task : ArchiveTask)
  | link (task : LinkTask)
  | resource (task : ResourceTask)

namespace Task

def kind : Task → StatementKind
  | compile _ => .compile
  | archive _ => .archive
  | link _ => .link
  | resource _ => .resource

/-- All paths that a task names. -/
def paths : Task → List Path
  | compile task => task.source :: task.object :: task.includeDirs
  | archive task => task.output :: task.objects
  | link task =>
    task.output :: task.objects ++ task.libraries ++ task.libraryDirs ++ task.resource.toList
  | resource task => [task.source, task.output]

def defines : Task → List Define
  | compile task => task.defines
  | _ => []

def systemLibraries : Task → List String
  | link task => task.standardLibraries
  | _ => []

/-- The task names paths and system libraries that can be arguments, and no quote is in a define. -/
structure Fits (task : Task) : Prop where
  paths : ∀ p ∈ task.paths, IsArgument p.text
  defines : ∀ d ∈ task.defines, '"' ∉ d.text.toList
  systemLibraries : ∀ library ∈ task.systemLibraries, IsArgument library

end Task

/-- The statement for a task, if the toolchain has one. -/
def Toolchain.statement? (toolchain : Toolchain) (configuration : Configuration) :
    Task → Option Statement
  | .compile task => some (toolchain.compile task configuration)
  | .archive task => some (toolchain.archive task)
  | .link task => some (toolchain.link task configuration)
  | .resource task => toolchain.resource? task

/-! ## Arguments -/

/-- What an argument is for. -/
inductive ArgumentRole where
  | program
  | flag
  | define
  | includeDir
  | libraryDir
  | source
  | object
  | library
  | systemLibrary
  | resource
  | output
  | dependencies
deriving DecidableEq

namespace ArgumentRole

/-- Whether the argument names a file that is read. -/
def isInput (role : ArgumentRole) : Bool :=
  role ∈ [source, object, library, resource]

/-- Whether the argument names something that is linked for its symbols. -/
def isLinked (role : ArgumentRole) : Bool :=
  role ∈ [object, library, systemLibrary]

end ArgumentRole

/-- An argument: what it is for, and a value with the flag before it. -/
structure ToolArgument where
  role : ArgumentRole
  flag : String
  value : String

namespace ToolArgument

/-- The argument as the tool gets it. -/
def text (a : ToolArgument) : String := a.flag ++ a.value

/-- Arguments of a role with one flag. -/
def ofValues (role : ArgumentRole) (flag : String) (values : List String) : List ToolArgument :=
  values.map fun value => ⟨role, flag, value⟩

/-- Arguments that stand for themselves. -/
def flags (texts : List String) : List ToolArgument := ofValues .flag "" texts

def ofPaths (role : ArgumentRole) (flag : String) (paths : List Path) : List ToolArgument :=
  ofValues role flag (paths.map Path.text)

end ToolArgument

open ToolArgument

namespace Gcc

def configurationArguments : Configuration → List String
  | .debug => ["-g", "-Og"]
  | .release => ["-g", "-O3"]
  | .master => ["-O3"]

def warningArguments : Nat → List String
  | 0 => ["-w"]
  | 1 | 2 => ["-Wall"]
  | 3 => ["-Wall", "-Wextra"]
  | _ => ["-Wall", "-Wextra", "-Wpedantic"]

/-- The arguments for a task, in groups, one for each word of the command. -/
def argumentGroups (configuration : Configuration) : Task → List (List ToolArgument)
  | .compile task =>
    [flags ["-MD"], ofPaths .dependencies "-MF" [depfilePath task.object], flags ["-c"],
      flags ["-Werror", "-std=c++20"], flags (configurationArguments configuration),
      flags (warningArguments task.warningLevel),
      ofValues .define "-D" (task.defines.map Define.text), ofPaths .output "-o" [task.object],
      ofPaths .includeDir "-I" task.includeDirs, ofPaths .source "" [task.source]]
  | .archive task =>
    [flags ["rcs"], ofPaths .output "" [task.output], ofPaths .object "" task.objects]
  | .link task =>
    [flags (configurationArguments configuration), ofPaths .output "-o" [task.output],
      ofPaths .libraryDir "-L" task.libraryDirs, ofPaths .object "" task.objects,
      ofPaths .library "" task.libraries, ofValues .systemLibrary "-l" task.standardLibraries]
  | .resource _ => []

end Gcc

namespace Msvc

def configurationArguments : Configuration → List String
  | .debug => ["/MTd", "/Od", "/Zi"]
  | .release => ["/MT", "/Ox", "/Zi"]
  | .master => ["/MT", "/Ox"]

def linkConfigurationArgument : Configuration → String
  | .debug | .release => "/DEBUG:FULL"
  | .master => "/DEBUG:NONE"

/-- The arguments for a task, in groups, one for each word of the command. -/
def argumentGroups (configuration : Configuration) : Task → List (List ToolArgument)
  | .compile task =>
    [flags ["/showIncludes"], flags ["-c"],
      flags ["/nologo", "/Gy", "/EHsc", "/WX", "/std:c++latest", "/Zc:__cplusplus", "/utf-8"],
      flags (configurationArguments configuration),
      ofValues .flag "/W" [toString task.warningLevel],
      ofValues .define "/D" (task.defines.map Define.text), ofPaths .output "/Fo" [task.object],
      ofPaths .output "/Fd" (database? task.object configuration).toList,
      ofPaths .includeDir "/I" task.includeDirs, ofPaths .source "" [task.source]]
  | .archive task =>
    [flags ["/NOLOGO"], ofPaths .output "/OUT:" [task.output], ofPaths .object "" task.objects]
  | .link task =>
    [flags ["/NOLOGO", "/OPT:REF", "/SUBSYSTEM:CONSOLE"],
      flags [linkConfigurationArgument configuration], ofPaths .output "/OUT:" [task.output],
      ofPaths .output "/PDB:" (database? task.output configuration).toList,
      ofPaths .libraryDir "/LIBPATH:" task.libraryDirs,
      ofPaths .object "" task.objects ++ ofPaths .library "" task.libraries ++
        ofValues .systemLibrary "" task.standardLibraries,
      ofPaths .resource "" task.resource.toList]
  | .resource task =>
    [flags ["/fo"] ++ ofPaths .output "" [task.output], ofPaths .source "" [task.source]]

end Msvc

namespace Platform

/-- The usual program for a kind of statement. -/
def program : Platform → StatementKind → String
  | gcc, .archive => "ar"
  | gcc, _ => "g++"
  | msvc, .compile => "cl.exe"
  | msvc, .archive => "lib.exe"
  | msvc, .resource => "rc.exe"
  | msvc, .link => "link.exe"

/-- The arguments for a task, in groups, one for each word of the command. -/
def argumentGroups : Platform → Configuration → Task → List (List ToolArgument)
  | gcc => Gcc.argumentGroups
  | msvc => Msvc.argumentGroups

/-- The command line for a task: the program and its arguments. -/
def arguments (platform : Platform) (configuration : Configuration) (task : Task) :
    List ToolArgument :=
  ⟨.program, "", platform.program task.kind⟩ :: (platform.argumentGroups configuration task).flatten

end Platform

/-! ## What the words of commands stand for -/

namespace ToolArgument

@[simp] theorem map_text_ofValues (role : ArgumentRole) (flag : String) (values : List String) :
    (ofValues role flag values).map text = values.map fun value => flag ++ value := by
  simp [ofValues, text]

@[simp] theorem map_text_flags (texts : List String) : (flags texts).map text = texts := by
  simp [flags]

@[simp] theorem map_text_ofPaths (role : ArgumentRole) (flag : String) (paths : List Path) :
    (ofPaths role flag paths).map text = paths.map fun p => flag ++ p.text := by
  simp [ofPaths]

end ToolArgument

theorem joinArguments_singleton (argument : String) :
    joinArguments [argument] = quoteArgument argument := by
  simp [joinArguments]

namespace Gcc

theorem configurationFlags_eq (configuration : Configuration) :
    configurationFlags configuration = joinArguments (configurationArguments configuration) := by
  cases configuration <;> cbv

theorem warningFlags_eq (level : Nat) :
    warningFlags level = joinArguments (warningArguments level) := by
  match level with
  | 0 => cbv
  | 1 => cbv
  | 2 => cbv
  | 3 => cbv
  | level + 4 =>
    -- The level is no literal here, but the flags no longer depend on it.
    have all : "-Wall -Wextra -Wpedantic" = joinArguments ["-Wall", "-Wextra", "-Wpedantic"] := by
      cbv
    exact all

/-- Each word of a command stands for the arguments of its group. -/
theorem wordValues {tools : Gcc} {configuration : Configuration} {task : Task} {s : Statement}
    (h : (Toolchain.gcc tools).statement? configuration task = some s) :
    (words task.kind).map s.wordValue =
      (argumentGroups configuration task).map fun group => joinArguments (group.map text) := by
  have dependencies : quoteArgument "-MD" = "-MD" := by cbv
  have only : quoteArgument "-c" = "-c" := by cbv
  have archive : quoteArgument "rcs" = "rcs" := by cbv
  have base : baseFlags = joinArguments ["-Werror", "-std=c++20"] := by cbv
  cases task with
  | compile task =>
    cases h
    simp [Task.kind, words, Toolchain.compile, compile, argumentGroups, Statement.wordValue,
      Statement.value, Statement.binding?, List.lookup_cons, dependencies, only, base,
      configurationFlags_eq, warningFlags_eq, joinArguments_singleton, Function.comp_def]
  | archive task =>
    cases h
    simp [Task.kind, words, Toolchain.archive, Gcc.archive, argumentGroups, Statement.wordValue,
      Statement.value, Statement.binding?, List.lookup_cons, archive, joinArguments_singleton]
  | link task =>
    cases h
    simp [Task.kind, words, Toolchain.link, link, argumentGroups, Statement.wordValue,
      Statement.value, Statement.binding?, List.lookup_cons, configurationFlags_eq,
      joinArguments_singleton]
  | resource task => cases h

end Gcc

theorem isBlank_eq_false_of_isDigit {c : Char} (h : c.isDigit) : isBlank c = false := by
  rw [Char.isDigit, Bool.and_eq_true, decide_eq_true_eq, decide_eq_true_eq] at h
  have low : 48 ≤ c.toNat := h.1
  have high : c.toNat ≤ 57 := h.2
  -- There are only ten of them to try, by their numbers.
  have digits : ∀ n ∈ List.range' 48 10, isBlank (Char.ofNat n) = false := by decide
  have blank := digits c.toNat (List.mem_range'_1.2 ⟨low, by omega⟩)
  rwa [Char.ofNat_toNat] at blank

namespace Msvc

theorem configurationFlags_eq (configuration : Configuration) :
    configurationFlags configuration = joinArguments (configurationArguments configuration) := by
  cases configuration <;> cbv

theorem linkConfigurationFlags_eq (configuration : Configuration) :
    linkConfigurationFlags configuration =
      quoteArgument (linkConfigurationArgument configuration) := by
  cases configuration <;> cbv

theorem quoteArgument_warningLevel (level : Nat) :
    quoteArgument ("/W" ++ level.repr) = "/W" ++ level.repr := by
  refine quoteArgument_of_not_blank fun c hc => ?_
  rw [String.toList_append] at hc
  obtain hc | hc := List.mem_append.1 hc
  · obtain rfl | rfl : c = '/' ∨ c = 'W' := by simpa using hc
    · decide
    · decide
  · exact isBlank_eq_false_of_isDigit (isDigit_of_mem_repr hc)

theorem databaseFlag_eq (flag : String) (database : Option Path) :
    databaseFlag flag database =
      joinArguments (database.toList.map fun p => flag ++ p.text) := by
  cases database with
  | none => rfl
  | some p => exact (joinArguments_singleton _).symm

theorem resourceFile_eq (resource : Option Path) :
    (resource.map fun r => quoteArgument r.text).getD "" =
      joinArguments (resource.toList.map Path.text) := by
  cases resource with
  | none => rfl
  | some p => exact (joinArguments_singleton _).symm

theorem outputFlag_eq (argument : String) :
    "/fo " ++ quoteArgument argument = joinArguments ["/fo", argument] := by
  have bare : quoteArgument "/fo" = "/fo" := by cbv
  have space : "/fo" ++ " " = "/fo " := by cbv
  simp [joinArguments, String.intercalate_cons_cons, bare, space]

/-- Each word of a command stands for the arguments of its group. -/
theorem wordValues {tools : Msvc} {configuration : Configuration} {task : Task} {s : Statement}
    (h : (Toolchain.msvc tools).statement? configuration task = some s) :
    (words task.kind).map s.wordValue =
      (argumentGroups configuration task).map fun group => joinArguments (group.map text) := by
  have includes : quoteArgument "/showIncludes" = "/showIncludes" := by cbv
  have only : quoteArgument "-c" = "-c" := by cbv
  have archive : quoteArgument "/NOLOGO" = "/NOLOGO" := by cbv
  have base : baseFlags = joinArguments ["/nologo", "/Gy", "/EHsc", "/WX", "/std:c++latest",
    "/Zc:__cplusplus", "/utf-8"] := by cbv
  have link : "/NOLOGO /OPT:REF /SUBSYSTEM:CONSOLE" =
    joinArguments ["/NOLOGO", "/OPT:REF", "/SUBSYSTEM:CONSOLE"] := by cbv
  cases task with
  | compile task =>
    cases h
    simp [Task.kind, words, Toolchain.compile, compile, argumentGroups, Statement.wordValue,
      Statement.value, Statement.binding?, List.lookup_cons, includes, only, base,
      configurationFlags_eq, quoteArgument_warningLevel, databaseFlag_eq, joinArguments_singleton,
      Function.comp_def]
  | archive task =>
    cases h
    simp [Task.kind, words, Toolchain.archive, Msvc.archive, argumentGroups, Statement.wordValue,
      Statement.value, Statement.binding?, List.lookup_cons, archive, joinArguments_singleton]
  | link task =>
    cases h
    simp [Task.kind, words, Toolchain.link, linkStatement, argumentGroups, Statement.wordValue,
      Statement.value, Statement.binding?, List.lookup_cons, link, linkConfigurationFlags_eq,
      databaseFlag_eq, resourceFile_eq, joinArguments_singleton]
  | resource task =>
    cases h
    simp [Task.kind, words, Msvc.resource, argumentGroups, Statement.wordValue,
      Statement.value, Statement.binding?, List.lookup_cons, outputFlag_eq,
      joinArguments_singleton]

end Msvc

/-! ## What can be an argument -/

namespace ToolArgument

theorem isArgument_ofValues {role : ArgumentRole} {flag : String} {values : List String}
    (quote : '"' ∉ flag.toList) (nonempty : flag ≠ "") (h : ∀ value ∈ values, '"' ∉ value.toList) :
    ∀ a ∈ ofValues role flag values, IsArgument a.text := by
  intro a ha
  obtain ⟨value, hvalue, rfl⟩ := List.mem_map.1 ha
  refine ⟨fun empty => nonempty (String.append_eq_empty_iff.1 empty).1, ?_⟩
  simp [text, quote, h value hvalue]

theorem isArgument_bareValues {role : ArgumentRole} {values : List String}
    (h : ∀ value ∈ values, IsArgument value) :
    ∀ a ∈ ofValues role "" values, IsArgument a.text := by
  intro a ha
  obtain ⟨value, hvalue, rfl⟩ := List.mem_map.1 ha
  rw [text, String.empty_append]
  exact h value hvalue

theorem isArgument_ofPaths {role : ArgumentRole} {flag : String} {paths : List Path}
    (quote : '"' ∉ flag.toList) (h : ∀ p ∈ paths, IsArgument p.text) :
    ∀ a ∈ ofPaths role flag paths, IsArgument a.text := by
  by_cases bare : flag = ""
  · subst bare
    exact isArgument_bareValues (List.forall_mem_map.2 h)
  · exact isArgument_ofValues quote bare (List.forall_mem_map.2 fun p hp => (h p hp).2)

end ToolArgument

theorem quote_notMem_sibling {file : Path} {extension : String} (h : IsArgument file.text)
    (quote : '"' ∉ extension.toList) (nonempty : extension ≠ "") :
    '"' ∉ (file.parentOrEmpty.withStemOf file extension).text.toList :=
  Path.notMem_withStemOf (by decide) (by decide) h.2 quote nonempty

variable {configuration : Configuration} {task : Task}

/-- No argument of the GNU toolchain is empty or holds a quote. -/
theorem Gcc.isArgument_text (fits : task.Fits) :
    ∀ group ∈ argumentGroups configuration task, ∀ a ∈ group, IsArgument a.text := by
  have build : ∀ a ∈ flags (configurationArguments configuration), IsArgument a.text :=
    isArgument_bareValues (by cases configuration <;> decide)
  obtain ⟨paths, defines, systemLibraries⟩ := fits
  cases task with
  | compile task =>
    simp only [Task.paths, List.forall_mem_cons] at paths
    obtain ⟨source, object, includes⟩ := paths
    have warnings : ∀ a ∈ flags (warningArguments task.warningLevel), IsArgument a.text := by
      refine isArgument_bareValues ?_
      unfold warningArguments
      split <;> decide
    have dependencies : '"' ∉ (depfilePath task.object).text.toList :=
      quote_notMem_sibling object (by decide) (by decide)
    simp only [argumentGroups, List.forall_mem_cons]
    exact ⟨isArgument_bareValues (by decide),
      isArgument_ofValues (by decide) (by decide) (List.forall_mem_singleton.2 dependencies),
      isArgument_bareValues (by decide), isArgument_bareValues (by decide), build, warnings,
      isArgument_ofValues (by decide) (by decide) (List.forall_mem_map.2 defines),
      isArgument_ofPaths (by decide) (List.forall_mem_singleton.2 object),
      isArgument_ofPaths (by decide) includes,
      isArgument_ofPaths (by decide) (List.forall_mem_singleton.2 source), by simp⟩
  | archive task =>
    simp only [Task.paths, List.forall_mem_cons] at paths
    obtain ⟨output, objects⟩ := paths
    simp only [argumentGroups, List.forall_mem_cons]
    exact ⟨isArgument_bareValues (by decide),
      isArgument_ofPaths (by decide) (List.forall_mem_singleton.2 output),
      isArgument_ofPaths (by decide) objects, by simp⟩
  | link task =>
    simp only [Task.paths, List.cons_append, List.forall_mem_cons, List.forall_mem_append] at paths
    obtain ⟨output, ⟨⟨objects, libraries⟩, directories⟩, -⟩ := paths
    simp only [argumentGroups, List.forall_mem_cons]
    exact ⟨build, isArgument_ofPaths (by decide) (List.forall_mem_singleton.2 output),
      isArgument_ofPaths (by decide) directories, isArgument_ofPaths (by decide) objects,
      isArgument_ofPaths (by decide) libraries,
      isArgument_ofValues (by decide) (by decide) fun l hl => (systemLibraries l hl).2, by simp⟩
  | resource task => exact fun group hgroup => absurd hgroup List.not_mem_nil

theorem quote_notMem_database? {file : Path} (h : IsArgument file.text) :
    ∀ p ∈ (Msvc.database? file configuration).toList, '"' ∉ p.text.toList := by
  intro p hp
  rw [Msvc.database?] at hp
  split at hp
  · rw [Option.toList_some, List.mem_singleton] at hp
    rw [hp]
    exact quote_notMem_sibling h (by decide) (by decide)
  · cases hp

/-- No argument of the Microsoft toolchain is empty or holds a quote. -/
theorem Msvc.isArgument_text (fits : task.Fits) :
    ∀ group ∈ argumentGroups configuration task, ∀ a ∈ group, IsArgument a.text := by
  have database (flag : String) (quote : '"' ∉ flag.toList) (nonempty : flag ≠ "") {file : Path}
      (h : IsArgument file.text) :
      ∀ a ∈ ofPaths .output flag (database? file configuration).toList, IsArgument a.text :=
    isArgument_ofValues quote nonempty (List.forall_mem_map.2 (quote_notMem_database? h))
  obtain ⟨paths, defines, systemLibraries⟩ := fits
  cases task with
  | compile task =>
    simp only [Task.paths, List.forall_mem_cons] at paths
    obtain ⟨source, object, includes⟩ := paths
    have build : ∀ a ∈ flags (configurationArguments configuration), IsArgument a.text :=
      isArgument_bareValues (by cases configuration <;> decide)
    -- The level can be any number, but a quote is no digit.
    have digits : '"' ∉ (toString task.warningLevel).toList := fun quote =>
      absurd (isDigit_of_mem_repr quote) (by decide)
    simp only [argumentGroups, List.forall_mem_cons]
    exact ⟨isArgument_bareValues (by decide), isArgument_bareValues (by decide),
      isArgument_bareValues (by decide), build,
      isArgument_ofValues (by decide) (by decide) (List.forall_mem_singleton.2 digits),
      isArgument_ofValues (by decide) (by decide) (List.forall_mem_map.2 defines),
      isArgument_ofPaths (by decide) (List.forall_mem_singleton.2 object),
      database "/Fd" (by decide) (by decide) object, isArgument_ofPaths (by decide) includes,
      isArgument_ofPaths (by decide) (List.forall_mem_singleton.2 source), by simp⟩
  | archive task =>
    simp only [Task.paths, List.forall_mem_cons] at paths
    obtain ⟨output, objects⟩ := paths
    simp only [argumentGroups, List.forall_mem_cons]
    exact ⟨isArgument_bareValues (by decide),
      isArgument_ofPaths (by decide) (List.forall_mem_singleton.2 output),
      isArgument_ofPaths (by decide) objects, by simp⟩
  | link task =>
    simp only [Task.paths, List.cons_append, List.forall_mem_cons, List.forall_mem_append] at paths
    obtain ⟨output, ⟨⟨objects, libraries⟩, directories⟩, resource⟩ := paths
    have build : ∀ a ∈ flags [linkConfigurationArgument configuration], IsArgument a.text :=
      isArgument_bareValues (by cases configuration <;> decide)
    simp only [argumentGroups, List.forall_mem_cons, List.forall_mem_append]
    -- The files to link stand in one word of the command, so that their group has three parts.
    exact ⟨isArgument_bareValues (by decide), build,
      isArgument_ofPaths (by decide) (List.forall_mem_singleton.2 output),
      database "/PDB:" (by decide) (by decide) output, isArgument_ofPaths (by decide) directories,
      ⟨⟨isArgument_ofPaths (by decide) objects, isArgument_ofPaths (by decide) libraries⟩,
        isArgument_bareValues systemLibraries⟩,
      isArgument_ofPaths (by decide) resource, by simp⟩
  | resource task =>
    simp only [Task.paths, List.forall_mem_cons] at paths
    obtain ⟨source, output, -⟩ := paths
    simp only [argumentGroups, List.forall_mem_cons, List.forall_mem_append]
    exact ⟨⟨isArgument_bareValues (by decide),
        isArgument_ofPaths (by decide) (List.forall_mem_singleton.2 output)⟩,
      isArgument_ofPaths (by decide) (List.forall_mem_singleton.2 source), by simp⟩

end BuildPlanner
