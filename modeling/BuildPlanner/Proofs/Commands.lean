import BuildPlanner.Proofs.Bindings
import BuildPlanner.Proofs.Template

/-!
# Commands of the toolchains

Every command is a program with words after it, and the words refer to variables that the statements
of the kind bind.

* `Toolchain.runs_of_mem_rules`: each rule runs a program of the toolchain with the words of a kind.
* `Toolchain.Issued.exists_rule`: a statement applies the rule of its kind.
* `Toolchain.Issued.keys_eq` and `Platform.references_words`: it binds what the words refer to.
-/

namespace BuildPlanner

open Template (Part command)

/-- The words of a command of the GNU toolchain. -/
def Gcc.words : StatementKind → List Part
  | .compile =>
    [.text "-MD", .bare "cc_out_deps", .text "-c", .bare "cc_flags", .bare "cc_build_flags",
      .bare "cc_warning_level", .bare "cc_defines", .bare "cc_out_obj", .bare "cc_in_includes",
      .bare "cc_in_files"]
  | .archive => [.bare "ar_flags", .bare "ar_out_file", .bare "ar_in_files"]
  | .link =>
    [.bare "ld_build_flags", .bare "ld_out_exe", .bare "ld_in_lib_dirs", .bare "ld_in_files",
      .bare "ld_in_libs", .bare "ld_in_standard_libs"]
  | .resource => []

/-- The words of a command of the Microsoft toolchain. -/
def Msvc.words : StatementKind → List Part
  | .compile =>
    [.text "/showIncludes", .text "-c", .bare "cc_flags", .bare "cc_build_flags",
      .bare "cc_warning_level", .bare "cc_defines", .bare "cc_out_obj", .bare "cc_out_pdb",
      .bare "cc_in_includes", .bare "cc_in_files"]
  | .archive => [.bare "ar_flags", .bare "ar_out_file", .bare "ar_in_files"]
  | .resource => [.bare "rc_out_file", .bare "rc_in_file"]
  | .link =>
    [.bare "link_flags", .bare "link_build_flags", .bare "link_out_exe", .bare "link_out_pdb",
      .bare "link_in_lib_dirs", .bare "link_in_files", .bare "res_file"]

theorem Gcc.rules_eq (tools : Gcc) :
    tools.rules =
      [⟨"cc", command tools.cxx (words .compile), some "$cc_depsfile", some "gcc"⟩,
        ⟨"ar", command tools.ar (words .archive), none, none⟩,
        ⟨"ld", command tools.cxx (words .link), none, none⟩] := by
  have compile : " -MD $cc_out_deps -c $cc_flags $cc_build_flags $cc_warning_level " ++
      "$cc_defines $cc_out_obj $cc_in_includes $cc_in_files" =
        String.ofList (Template.chars (Template.spaced (words .compile))) := by cbv
  have archive : " $ar_flags $ar_out_file $ar_in_files" =
      String.ofList (Template.chars (Template.spaced (words .archive))) := by cbv
  have link : " $ld_build_flags $ld_out_exe $ld_in_lib_dirs $ld_in_files " ++
      "$ld_in_libs $ld_in_standard_libs" =
        String.ofList (Template.chars (Template.spaced (words .link))) := by cbv
  rw [rules, String.append_assoc, String.append_assoc, compile, archive, link]
  rfl

theorem Msvc.rules_eq (tools : Msvc) :
    tools.rules =
      [⟨"cc", command tools.cl (words .compile), none, some "msvc"⟩,
        ⟨"ar", command tools.lib (words .archive), none, none⟩,
        ⟨"rc", command tools.rc (words .resource), none, none⟩,
        ⟨"link", command tools.link (words .link), none, none⟩] := by
  have compile : " /showIncludes -c $cc_flags $cc_build_flags $cc_warning_level " ++
      "$cc_defines $cc_out_obj $cc_out_pdb $cc_in_includes $cc_in_files" =
        String.ofList (Template.chars (Template.spaced (words .compile))) := by cbv
  have archive : " $ar_flags $ar_out_file $ar_in_files" =
      String.ofList (Template.chars (Template.spaced (words .archive))) := by cbv
  have resource : " $rc_out_file $rc_in_file" =
      String.ofList (Template.chars (Template.spaced (words .resource))) := by cbv
  have link : " $link_flags $link_build_flags $link_out_exe $link_out_pdb " ++
      "$link_in_lib_dirs $link_in_files $res_file" =
        String.ofList (Template.chars (Template.spaced (words .link))) := by cbv
  rw [rules, String.append_assoc, String.append_assoc, compile, archive, resource, link]
  rfl

/-- The executor finds the dependency file of a compilation at the path that is bound for it. -/
theorem Gcc.expand_dependencies (task : CompileTask) (configuration : Configuration) :
    (compile task configuration).expand "$cc_depsfile" = (depfilePath task.object).text :=
  Template.expand_reference _ "cc_depsfile" (by decide)

/-- The variables that a statement of the GNU toolchain binds. -/
def Gcc.keys : StatementKind → List String
  | .compile =>
    ["cc_depsfile", "cc_out_deps", "cc_flags", "cc_build_flags", "cc_warning_level", "cc_defines",
      "cc_out_obj", "cc_in_includes", "cc_in_files"]
  | .archive => ["ar_flags", "ar_out_file", "ar_in_files"]
  | .link =>
    ["ld_build_flags", "ld_out_exe", "ld_in_lib_dirs", "ld_in_files", "ld_in_libs",
      "ld_in_standard_libs"]
  | .resource => []

/-- The variables that a statement of the Microsoft toolchain binds. -/
def Msvc.keys : StatementKind → List String
  | .compile =>
    ["cc_flags", "cc_build_flags", "cc_warning_level", "cc_defines", "cc_out_obj", "cc_out_pdb",
      "cc_in_includes", "cc_in_files"]
  | .archive => ["ar_flags", "ar_out_file", "ar_in_files"]
  | .resource => ["rc_out_file", "rc_in_file"]
  | .link =>
    ["link_flags", "link_build_flags", "link_out_exe", "link_out_pdb", "link_in_lib_dirs",
      "link_in_files", "res_file"]

namespace Platform

/-- The words of the command for a kind of statement. -/
def words : Platform → StatementKind → List Part
  | gcc => Gcc.words
  | msvc => Msvc.words

/-- The variables that a statement of a kind binds, in the order of the bindings. -/
def keys : Platform → StatementKind → List String
  | gcc => Gcc.keys
  | msvc => Msvc.keys

variable (platform : Platform) (kind : StatementKind)

theorem isWord_words : ∀ word ∈ platform.words kind, word.IsWord := by
  cases platform <;> cases kind <;> decide

theorem isKey_keys : ∀ key ∈ platform.keys kind, Ninja.IsKey key := by
  cases platform <;> cases kind <;> decide

theorem nodup_keys : (platform.keys kind).Nodup := by
  cases platform <;> cases kind <;> decide

/-- The command refers to variables that are bound, and to none that the executor gives a value. -/
theorem references_words :
    ∀ word ∈ platform.words kind, ∀ name ∈ word.references,
      name ∈ platform.keys kind ∧ name ≠ "in" ∧ name ≠ "out" ∧ name ≠ "" := by
  cases platform <;> cases kind <;> decide

end Platform

namespace Toolchain

variable {toolchain : Toolchain} {configuration : Configuration}

/-- The rule runs a program of the toolchain with the words of a kind of statement. -/
def Runs (toolchain : Toolchain) (kind : StatementKind) (r : Rule) : Prop :=
  ∃ program ∈ toolchain.programs.map Prod.snd,
    r.command = command program (toolchain.platform.words kind)

theorem runs_of_mem_rules {r : Rule} (h : r ∈ toolchain.rules) : ∃ kind, toolchain.Runs kind r := by
  cases toolchain with
  | gcc tools =>
    rw [rules, Gcc.rules_eq] at h
    simp only [List.mem_cons, List.not_mem_nil, or_false] at h
    obtain rfl | rfl | rfl := h
    · exact ⟨.compile, tools.cxx, by simp [programs], rfl⟩
    · exact ⟨.archive, tools.ar, by simp [programs], rfl⟩
    · exact ⟨.link, tools.cxx, by simp [programs], rfl⟩
  | msvc tools =>
    rw [rules, Msvc.rules_eq] at h
    simp only [List.mem_cons, List.not_mem_nil, or_false] at h
    obtain rfl | rfl | rfl | rfl := h
    · exact ⟨.compile, tools.cl, by simp [programs], rfl⟩
    · exact ⟨.archive, tools.lib, by simp [programs], rfl⟩
    · exact ⟨.resource, tools.rc, by simp [programs], rfl⟩
    · exact ⟨.link, tools.link, by simp [programs], rfl⟩

/-- A statement applies the rule of its kind. -/
theorem Issued.exists_rule {s : Statement} (h : toolchain.Issued configuration s) :
    ∃ r, toolchain.rules.find? (·.name == s.rule) = some r ∧ toolchain.Runs s.kind r := by
  cases toolchain with
  | gcc tools =>
    rw [rules, Gcc.rules_eq]
    cases h with
    | compile task => exact ⟨_, rfl, tools.cxx, by simp [programs], rfl⟩
    | archive task objects => exact ⟨_, rfl, tools.ar, by simp [programs], rfl⟩
    | link task objects resource => exact ⟨_, rfl, tools.cxx, by simp [programs], rfl⟩
    | resource task issued => cases issued
  | msvc tools =>
    rw [rules, Msvc.rules_eq]
    cases h with
    | compile task => exact ⟨_, rfl, tools.cl, by simp [programs], rfl⟩
    | archive task objects => exact ⟨_, rfl, tools.lib, by simp [programs], rfl⟩
    | link task objects resource => exact ⟨_, rfl, tools.link, by simp [programs], rfl⟩
    | resource task issued =>
      cases issued
      exact ⟨_, rfl, tools.rc, by simp [programs], rfl⟩

theorem Issued.keys_eq {s : Statement} (h : toolchain.Issued configuration s) :
    s.bindings.map Prod.fst = toolchain.platform.keys s.kind := by
  cases toolchain with
  | gcc tools =>
    cases h with
    | resource task issued => cases issued
    | _ => rfl
  | msvc tools =>
    cases h with
    | resource task issued =>
      cases issued
      rfl
    | _ => rfl

theorem isKey_name {r : Rule} (h : r ∈ toolchain.rules) : Ninja.IsKey r.name := by
  cases toolchain with
  | gcc tools =>
    have names : (gcc tools).rules.map Rule.name = ["cc", "ar", "ld"] := rfl
    have name := List.mem_map_of_mem (f := Rule.name) h
    rw [names] at name
    exact (by decide : ∀ key ∈ ["cc", "ar", "ld"], Ninja.IsKey key) _ name
  | msvc tools =>
    have names : (msvc tools).rules.map Rule.name = ["cc", "ar", "rc", "link"] := rfl
    have name := List.mem_map_of_mem (f := Rule.name) h
    rw [names] at name
    exact (by decide : ∀ key ∈ ["cc", "ar", "rc", "link"], Ninja.IsKey key) _ name

end Toolchain

end BuildPlanner
