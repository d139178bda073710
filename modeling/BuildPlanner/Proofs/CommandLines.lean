import BuildPlanner.Proofs.ToolArguments

/-!
# Command lines

The command line of a statement is cut into the program, the flags, and one argument for each thing
that the task names, with its prefix and in its order, whatever blanks the things hold.  The
arguments name the inputs and the outputs of the statement, and the dependency file that the
executor reads (`splitArguments_of_statement?`).

* `NamesFiles`: what it means that arguments name the files of a statement.
* `Toolchain.exists_rule_of_statement?`: the rule runs the usual program on the words of the kind.
-/

namespace BuildPlanner

open Text ToolArgument

variable {configuration : Configuration} {task : Task}

/-! ## Which files the arguments name -/

namespace ToolArgument

/-- The values of the arguments of some roles, with their roles. -/
def selected (p : ArgumentRole → Bool) (arguments : List ToolArgument) :
    List (ArgumentRole × String) :=
  (arguments.filter fun a => p a.role).map fun a => (a.role, a.value)

variable (p : ArgumentRole → Bool) (role : ArgumentRole) (flag : String)

@[simp] theorem selected_nil : selected p [] = [] := rfl

@[simp] theorem selected_append (arguments more : List ToolArgument) :
    selected p (arguments ++ more) = selected p arguments ++ selected p more := by
  simp [selected]

@[simp] theorem selected_ofValues (values : List String) :
    selected p (ofValues role flag values) =
      if p role then values.map fun value => (role, value) else [] := by
  cases h : p role <;> simp [selected, ofValues, List.filter_map, Function.comp_def, h]

@[simp] theorem selected_flags (texts : List String) :
    selected p (flags texts) = if p .flag then texts.map fun text => (.flag, text) else [] := by
  simp [flags]

@[simp] theorem selected_ofPaths (paths : List Path) :
    selected p (ofPaths role flag paths) =
      if p role then paths.map fun path => (role, path.text) else [] := by
  simp [ofPaths, Function.comp_def]

end ToolArgument

/-- What a task names to be linked or archived, in the order in which it has to be read. -/
def Task.linked : Task → List (ArgumentRole × String)
  | .archive task => task.objects.map fun p => (.object, p.text)
  | .link task =>
    task.objects.map (fun p => (.object, p.text)) ++
      task.libraries.map (fun p => (.library, p.text)) ++
      task.standardLibraries.map fun library => (.systemLibrary, library)
  | _ => []

/-- The arguments name the files of a statement, and nothing else is named in their places. -/
structure NamesFiles (arguments : List ToolArgument) (task : Task) (s : Statement) : Prop where
  /-- The files that are read are the inputs, in their order. -/
  inputs : (selected ArgumentRole.isInput arguments).map Prod.snd = s.inputs.map Path.text
  /-- The files that are made are the outputs, in their order. -/
  outputs : (selected (· = .output) arguments).map Prod.snd = s.outputs.map Path.text
  /-- The dependency file is the one that is bound for the executor. -/
  dependencies :
    (selected (· = .dependencies) arguments).map Prod.snd = (s.binding? "cc_depsfile").toList
  /-- What is linked stands in the order in which it has to be read. -/
  linked : selected ArgumentRole.isLinked arguments = task.linked

theorem Gcc.namesFiles {tools : Gcc} {s : Statement}
    (h : (Toolchain.gcc tools).statement? configuration task = some s) :
    NamesFiles (argumentGroups configuration task).flatten task s := by
  cases task with
  | compile task =>
    cases h
    constructor <;> simp [argumentGroups, ArgumentRole.isInput, ArgumentRole.isLinked, Task.linked,
      Toolchain.compile, compile, Statement.binding?]
  | archive task =>
    cases h
    constructor <;> simp [argumentGroups, ArgumentRole.isInput, ArgumentRole.isLinked, Task.linked,
      Toolchain.archive, Gcc.archive, Statement.binding?, List.lookup_cons]
  | link task =>
    cases h
    constructor <;> simp [argumentGroups, ArgumentRole.isInput, ArgumentRole.isLinked, Task.linked,
      Toolchain.link, Gcc.link, Statement.binding?, List.lookup_cons, Function.comp_def]
  | resource task => cases h

theorem Msvc.namesFiles {tools : Msvc} {s : Statement}
    (h : (Toolchain.msvc tools).statement? configuration task = some s) :
    NamesFiles (argumentGroups configuration task).flatten task s := by
  cases task with
  | compile task =>
    cases h
    constructor <;> simp [argumentGroups, ArgumentRole.isInput, ArgumentRole.isLinked, Task.linked,
      Toolchain.compile, compile, Statement.binding?, List.lookup_cons]
  | archive task =>
    cases h
    constructor <;> simp [argumentGroups, ArgumentRole.isInput, ArgumentRole.isLinked, Task.linked,
      Toolchain.archive, Msvc.archive, Statement.binding?, List.lookup_cons]
  | link task =>
    cases h
    constructor <;> simp [argumentGroups, ArgumentRole.isInput, ArgumentRole.isLinked, Task.linked,
      Toolchain.link, linkStatement, Statement.binding?, List.lookup_cons, Function.comp_def]
  | resource task =>
    cases h
    constructor <;> simp [argumentGroups, ArgumentRole.isInput, ArgumentRole.isLinked, Task.linked,
      Msvc.resource, Statement.binding?, List.lookup_cons]

/-- The program names no file. -/
theorem NamesFiles.cons_program {arguments : List ToolArgument} {s : Statement}
    (h : NamesFiles arguments task s) (program : String) :
    NamesFiles (⟨.program, "", program⟩ :: arguments) task s where
  inputs := h.inputs
  outputs := h.outputs
  dependencies := h.dependencies
  linked := h.linked

/-! ## Command lines -/

variable {platform : Platform} {s : Statement}

/-- The usual programs stand on a command line as they are. -/
theorem Platform.program_bare (platform : Platform) (kind : StatementKind) :
    IsArgument (platform.program kind) ∧
      quoteArgument (platform.program kind) = platform.program kind ∧
      '$' ∉ (platform.program kind).toList := by
  cases platform <;> cases kind <;> decide

theorem Toolchain.wordValues_of_statement?
    (h : (Toolchain.ofPlatform platform).statement? configuration task = some s) :
    (platform.words task.kind).map s.wordValue =
      ((platform.argumentGroups configuration task).map fun group => group.map text).map
        joinArguments := by
  rw [List.map_map]
  cases platform with
  | gcc => exact Gcc.wordValues h
  | msvc => exact Msvc.wordValues h

theorem Platform.isArgument_text (platform : Platform) (fits : task.Fits) :
    ∀ group ∈ platform.argumentGroups configuration task, ∀ a ∈ group, IsArgument a.text := by
  cases platform with
  | gcc => exact Gcc.isArgument_text fits
  | msvc => exact Msvc.isArgument_text fits

/-- The statement for a task applies the rule that runs the usual program on the words of its kind,
and the dependency file of the rule is the one that is bound. -/
theorem Toolchain.exists_rule_of_statement?
    (h : (Toolchain.ofPlatform platform).statement? configuration task = some s) :
    ∃ r, (Toolchain.ofPlatform platform).rules.find? (·.name == s.rule) = some r ∧
      r.command = Template.command (platform.program task.kind) (platform.words task.kind) ∧
      r.depfile.map s.expand = s.binding? "cc_depsfile" := by
  cases platform with
  | gcc =>
    rw [ofPlatform, rules, Gcc.rules_eq]
    cases task with
    | compile task =>
      cases h
      exact ⟨_, rfl, rfl, congrArg some (Gcc.expand_dependencies task configuration)⟩
    | archive task =>
      cases h
      exact ⟨_, rfl, rfl, rfl⟩
    | link task =>
      cases h
      exact ⟨_, rfl, rfl, rfl⟩
    | resource task => cases h
  | msvc =>
    rw [ofPlatform, rules, Msvc.rules_eq]
    cases task <;> cases h <;> exact ⟨_, rfl, rfl, rfl⟩

/-- A command line is cut into the program, the flags and one argument for each thing that the task
names, and the arguments name the files of the statement. -/
theorem splitArguments_of_statement? (fits : task.Fits)
    (issued : (Toolchain.ofPlatform platform).statement? configuration task = some s) :
    ∃ r, (Toolchain.ofPlatform platform).rules.find? (·.name == s.rule) = some r ∧
      splitArguments (s.expand r.command) =
        (platform.arguments configuration task).map ToolArgument.text ∧
      NamesFiles (platform.arguments configuration task) task s ∧
      r.depfile.map s.expand = s.binding? "cc_depsfile" := by
  obtain ⟨r, rule, command, dependencies⟩ := Toolchain.exists_rule_of_statement? issued
  refine ⟨r, rule, ?_, ?_, dependencies⟩
  · obtain ⟨argument, bare, dollar⟩ := platform.program_bare task.kind
    have plain : ∀ group ∈ (platform.argumentGroups configuration task).map fun group =>
        group.map text, ∀ a ∈ group, IsArgument a :=
      List.forall_mem_map.2 fun group hgroup =>
        List.forall_mem_map.2 (platform.isArgument_text fits group hgroup)
    rw [command, splitArguments_expand argument bare dollar (platform.isWord_words task.kind)
      (Toolchain.wordValues_of_statement? issued) plain, ← List.map_flatten, Platform.arguments,
      List.map_cons, text, String.empty_append]
  · cases platform with
    | gcc => exact (Gcc.namesFiles issued).cons_program _
    | msvc => exact (Msvc.namesFiles issued).cons_program _

/-- A compilation with blanks, dollars and backslashes in what it names. -/
def spacedCompile : CompileTask :=
  { source := ⟨"Code/my app/a $b.cpp"⟩
    object := ⟨"Build/my app/a $b.o"⟩
    includeDirs := [⟨"third\\party dir"⟩, ⟨"include"⟩]
    defines := [⟨"NAME", some "two  words"⟩, ⟨"COST", some "$5"⟩]
    warningLevel := 3 }

/-- A link with a resource and with blanks in what it names, and without archives. -/
def spacedLink : LinkTask :=
  { objects := [⟨"a b.obj"⟩, ⟨"c.obj"⟩]
    libraries := []
    standardLibraries := ["user32.lib", "my lib.lib"]
    libraryDirs := [⟨"lib\tdir"⟩]
    output := ⟨"Deploy/my app.exe"⟩
    resource := some ⟨"my app.res"⟩ }

theorem splitArguments_spacedCompile_spacedLink :
    (∃ r, (Gcc.rules {}).find? (·.name == "cc") = some r ∧
      splitArguments ((Gcc.compile spacedCompile .debug).expand r.command) =
        ["g++", "-MD", "-MFBuild/my app/a $b.d", "-c", "-Werror", "-std=c++20", "-g", "-Og",
          "-Wall", "-Wextra", "-DNAME=two  words", "-DCOST=$5", "-oBuild/my app/a $b.o",
          "-Ithird\\party dir", "-Iinclude", "Code/my app/a $b.cpp"] ∧
      r.depfile.map (Gcc.compile spacedCompile .debug).expand = some "Build/my app/a $b.d") ∧
    ∃ r, (Msvc.rules {}).find? (·.name == "link") = some r ∧
      splitArguments ((Msvc.linkStatement spacedLink .debug).expand r.command) =
        ["link.exe", "/NOLOGO", "/OPT:REF", "/SUBSYSTEM:CONSOLE", "/DEBUG:FULL",
          "/OUT:Deploy/my app.exe", "/PDB:Deploy/my app.pdb", "/LIBPATH:lib\tdir", "a b.obj",
          "c.obj", "user32.lib", "my lib.lib", "my app.res"] ∧
      NamesFiles (Platform.msvc.arguments .debug (.link spacedLink)) (.link spacedLink)
        (Msvc.linkStatement spacedLink .debug) := by
  constructor
  · have fits : (Task.compile spacedCompile).Fits := ⟨by decide, by decide, by decide⟩
    have issued : (Toolchain.ofPlatform .gcc).statement? .debug (.compile spacedCompile) =
        some (Gcc.compile spacedCompile .debug) := rfl
    obtain ⟨r, rule, split, -, dependencies⟩ := splitArguments_of_statement? fits issued
    exact ⟨r, rule, split.trans (by cbv), dependencies.trans (by cbv)⟩
  · have fits : (Task.link spacedLink).Fits := ⟨by decide, by decide, by decide⟩
    have issued : (Toolchain.ofPlatform .msvc).statement? .debug (.link spacedLink) =
        some (Msvc.linkStatement spacedLink .debug) := rfl
    obtain ⟨r, rule, split, names, -⟩ := splitArguments_of_statement? fits issued
    exact ⟨r, rule, split.trans (by cbv), names⟩

end BuildPlanner
