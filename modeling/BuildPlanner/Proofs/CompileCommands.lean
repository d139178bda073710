import BuildPlanner.Graph.CompileCommands
import BuildPlanner.Proofs.Description

/-!
# Compilation databases and descriptions

An entry of a compilation database holds the command that the executor runs for the statement: the
command that the statement expands in memory, and the one that the executor evaluates from the
escaped text, are the same on one line.

* `command_blockOf`: the two commands agree where every value is flush.
* `compileCommands_of_generate`: so each compilation of a generated graph has its entry.
-/

namespace BuildPlanner

/-! ## Values of variables -/

/-- A variable has the same value in a statement and in its block, on one line. -/
theorem value_blockOf {s : Statement} (distinct : (s.bindings.map Prod.fst).Nodup)
    (flush : ∀ b ∈ s.bindings, Flush b.2) {name : String} (h : name ∈ s.bindings.map Prod.fst)
    (other : name ≠ "in" ∧ name ≠ "out" ∧ name ≠ "") :
    (Ninja.blockOf s).value name.toList =
      some ((s.value name).toList.map Ninja.blankNewline) := by
  obtain ⟨⟨key, value⟩, hb, rfl⟩ := List.mem_map.1 h
  obtain ⟨notIn, notOut, named⟩ := other
  -- The first binding of a name counts in memory and the last one for the executor; the names are
  -- distinct, so it is the same one.
  have bound : s.bindings.lookup key = some value := lookup_eq_some_of_mem distinct hb
  have read : (Ninja.blockOf s).bindings.reverse.lookup key =
      some (Ninja.onOneLine (Ninja.flush value)) := by
    refine lookup_eq_some_of_mem ?_ (List.mem_reverse.2 (List.mem_map.2 ⟨_, hb, rfl⟩))
    rw [List.map_reverse, List.nodup_reverse, Ninja.blockOf, List.map_map]
    exact distinct
  rw [Ninja.Block.value, String.ofList_toList, read, Ninja.flush_eq_self (flush _ hb),
    Statement.value, if_neg notIn, if_neg notOut, if_neg named, Statement.binding?, bound]
  simp [Ninja.onOneLine]

/-! ## Commands -/

theorem map_blankNewline_fill {value : List Char → List Char} {part : Template.Part}
    (h : part.Readable) :
    (part.fill value).map Ninja.blankNewline =
      part.fill fun name => (value name).map Ninja.blankNewline := by
  cases part with
  | text text =>
    have same : ∀ c ∈ text.toList, Ninja.blankNewline c = id c := fun c hc => if_neg (h c hc).1
    rw [Template.Part.fill, List.map_congr_left same, List.map_id]
    rfl
  | bare name => rfl
  | braced name => rfl

/-- The executor runs the command that a statement expands, on one line. -/
theorem command_blockOf {s : Statement} {r : Rule} {parts : List Template.Part}
    (written : r.command.toList = Template.chars parts) (wellFormed : Template.WellFormed parts)
    (readable : ∀ part ∈ parts, part.Readable)
    (bound : ∀ part ∈ parts, ∀ name ∈ part.references,
      (Ninja.blockOf s).value name.toList =
        some ((s.value name).toList.map Ninja.blankNewline)) :
    (Ninja.blockOf s).command r = some (Ninja.onOneLine (s.expand r.command)) := by
  have values : ∀ part ∈ parts, ∀ name ∈ part.references,
      (Ninja.blockOf s).value name.toList =
        some (((s.value (.ofList name.toList)).toList).map Ninja.blankNewline) := by
    intro part hpart name hname
    rw [String.ofList_toList]
    exact bound part hpart name hname
  have filled : (parts.flatMap (Template.Part.fill fun name => (s.value (.ofList name)).toList)).map
      Ninja.blankNewline = parts.flatMap (Template.Part.fill fun name =>
        (s.value (.ofList name)).toList.map Ninja.blankNewline) := by
    rw [List.map_flatMap]
    exact List.flatMap_congr fun part hpart => map_blankNewline_fill (readable part hpart)
  rw [Ninja.Block.command, written, Template.symbols_chars wellFormed readable, Option.bind_some,
    Template.evaluate_symbols (fun name => (s.value (.ofList name)).toList.map Ninja.blankNewline)
      values, Option.map_some, Ninja.onOneLine, Statement.expand, written,
    Template.expandChars_chars _ wellFormed, String.toList_ofList, filled]

/-! ## Compilations -/

namespace Toolchain

variable {toolchain : Toolchain} {configuration : Configuration}

theorem Issued.exists_task {s : Statement} (h : toolchain.Issued configuration s)
    (kind : s.kind = .compile) : ∃ task, s = toolchain.compile task configuration := by
  cases h with
  | compile task => exact ⟨task, rfl⟩
  | archive task objects =>
    rw [toolchain.kind_archive] at kind
    cases kind
  | link task objects resource =>
    rw [toolchain.kind_link] at kind
    cases kind
  | resource task issued =>
    rw [(Project.compilesResource_of_resource? issued).1.1] at kind
    cases kind

/-- The executor runs the command that a statement expands, if the values of the statement are
flush. -/
theorem Issued.command_blockOf {s : Statement} {r : Rule} (h : toolchain.Issued configuration s)
    (found : toolchain.rules.find? (·.name == s.rule) = some r)
    (programs : ∀ p ∈ toolchain.programs, ProgramFits p.2) (oneLine : '\r' ∉ r.command.toList)
    (flush : ∀ b ∈ s.bindings, Flush b.2) :
    (Ninja.blockOf s).command r = some (Ninja.onOneLine (s.expand r.command)) := by
  obtain ⟨r', found', runs⟩ := h.exists_rule
  obtain rfl : r = r' := Option.some.inj (found.symm.trans found')
  obtain ⟨program, -, -, written, readable⟩ := runs.exists_parts programs oneLine
  have words := toolchain.platform.isWord_words s.kind
  refine BuildPlanner.command_blockOf written (Template.wellFormed_commandParts program words)
    readable fun part hpart name hname => ?_
  have reference : ∃ word ∈ toolchain.platform.words s.kind, name ∈ word.references := by
    obtain rfl | hpart := List.mem_cons.1 hpart
    · cases hname
    · exact Template.references_spaced hpart hname
  obtain ⟨word, hword, hname⟩ := reference
  obtain ⟨key, other⟩ := toolchain.platform.references_words s.kind word hword name hname
  rw [← h.keys_eq] at key
  exact value_blockOf (h.keys_eq ▸ toolchain.platform.nodup_keys s.kind) flush key other

end Toolchain

/-! ## Entries -/

/-- The entry is that of the statement: it names its source and its object, and it holds the command
that the description runs for the statement's block. -/
def Describes (items : List Ninja.Item) (directory : Path) (s : Statement) (c : CompileCommand) :
    Prop :=
  ∃ source object, s.inputs = [source] ∧ s.outputs.head? = some object ∧
    c.directory = directory.text ∧ c.file = source.text ∧ c.output = some object.text ∧
    Ninja.commandOf items (Ninja.blockOf s) = some (Ninja.onOneLine c.command)

theorem rulesOf_items (rules : List Rule) (statements : List Statement) :
    Ninja.rulesOf (BuildGraph.versionItem :: (rules.map .rule ++
      statements.map fun s => .block (Ninja.blockOf s))) = rules := by
  simp [Ninja.rulesOf, BuildGraph.versionItem]

theorem blocksOf_items (rules : List Rule) (statements : List Statement) :
    Ninja.blocksOf (BuildGraph.versionItem :: (rules.map .rule ++
      statements.map fun s => .block (Ninja.blockOf s))) = statements.map Ninja.blockOf := by
  simp [Ninja.blocksOf, BuildGraph.versionItem]

theorem BuildGraph.compileCommand?_of_issued {toolchain : Toolchain} {configuration : Configuration}
    {g : BuildGraph} {items : List Ninja.Item} {s : Statement}
    (rules : g.rules = toolchain.rules) (read : Ninja.rulesOf items = g.rules)
    (programs : ∀ p ∈ toolchain.programs, ProgramFits p.2) (returns : g.NoReturn)
    (issued : toolchain.Issued configuration s) (kind : s.kind = .compile)
    (outputs : ∀ p ∈ s.outputs, Flush p.text) (directory : Path) :
    ∃ c, g.compileCommand? directory s = some c ∧ Describes items directory s c := by
  obtain ⟨r, found, -⟩ := issued.exists_rule
  have oneLine : '\r' ∉ r.command.toList :=
    returns.commands r (rules ▸ List.mem_of_find?_eq_some found)
  obtain ⟨task, rfl⟩ := issued.exists_task kind
  have inputs := toolchain.inputs_compile configuration task
  have object := toolchain.head?_outputs_compile configuration task
  have flush : ∀ b ∈ (toolchain.compile task configuration).bindings, Flush b.2 :=
    Toolchain.flush_compile task (outputs _ (List.mem_of_mem_head? object))
  have command := issued.command_blockOf found programs oneLine flush
  have rule : g.rule? (toolchain.compile task configuration).rule = some r := by
    rw [BuildGraph.rule?, rules]
    exact found
  refine ⟨⟨directory.text, task.source.text,
    (toolchain.compile task configuration).expand r.command, some task.object.text⟩, ?_,
    task.source, task.object, inputs, object, rfl, rfl, rfl, ?_⟩
  · rw [BuildGraph.compileCommand?, if_pos kind, rule, inputs, object]
    rfl
  · rw [Ninja.commandOf, read, rules]
    have named : (Ninja.blockOf (toolchain.compile task configuration)).rule =
        (toolchain.compile task configuration).rule := rfl
    rw [named, found, Option.bind_some, command]

/-- A compilation database has one entry for each compilation, in the order of the statements, with
the command that the build description runs for the statement. -/
theorem compileCommands_of_generate {toolchain : Toolchain} {configuration : Configuration}
    {projects : List Project} {g : BuildGraph}
    (programs : ∀ p ∈ toolchain.programs, ProgramFits p.2)
    (h : BuildGraph.generate toolchain configuration projects = .ok g) (returns : g.NoReturn)
    (paths : ∀ s ∈ g.statements, ∀ p ∈ s.outputs ++ s.inputs,
      p.text.toList.head? ≠ some ' ' ∧ '\n' ∉ p.text.toList) (directory : Path) :
    ∃ items, Ninja.read g.render = some items ∧ Ninja.rulesOf items = g.rules ∧
      Ninja.blocksOf items = g.statements.map Ninja.blockOf ∧
      List.Forall₂ (Describes items directory) (g.statements.filter (·.kind = .compile))
        (g.compileCommands directory) := by
  have rules := BuildGraph.rules_fit h programs returns
  have blocks := BuildGraph.statements_fit h returns fun s hs p hp => (paths s hs p hp).2
  refine ⟨_, BuildGraph.read_render rules blocks, rulesOf_items _ _, blocksOf_items _ _, ?_⟩
  refine forall₂_filterMap (fun s hs kind => ?_) (fun s _ kind => ?_)
  · have flush : ∀ p ∈ s.outputs, Flush p.text := by
      intro p hp
      obtain ⟨start, newline⟩ := paths s hs p (List.mem_append_left _ hp)
      exact flush_of_head?_ne_space start newline
    exact BuildGraph.compileCommand?_of_issued (BuildGraph.rules_of_generate h) (rulesOf_items _ _)
      programs returns (BuildGraph.issued_of_generate h hs) (by simpa using kind) flush directory
  · rw [BuildGraph.compileCommand?, if_neg (by simpa using kind)]

theorem compileCommands_sampleLibrary :
    ∃ g, BuildGraph.generate (.msvc {}) .release sampleLibrary = .ok g ∧
      (∀ p ∈ (Toolchain.msvc {}).programs, ProgramFits p.2) ∧ g.NoReturn ∧
      (∀ s ∈ g.statements, ∀ p ∈ s.outputs ++ s.inputs,
        p.text.toList.head? ≠ some ' ' ∧ '\n' ∉ p.text.toList) ∧
      ∃ items, Ninja.read g.render = some items ∧ Ninja.rulesOf items = g.rules ∧
        Ninja.blocksOf items = g.statements.map Ninja.blockOf ∧
        List.Forall₂ (Describes items ⟨"/w"⟩) (g.statements.filter (·.kind = .compile))
          (g.compileCommands ⟨"/w"⟩) := by
  have programs : ∀ p ∈ (Toolchain.msvc {}).programs, ProgramFits p.2 := by decide
  obtain ⟨g, hg, returns, paths⟩ : ∃ g,
      BuildGraph.generate (.msvc {}) .release sampleLibrary = .ok g ∧ g.NoReturn ∧
        ∀ s ∈ g.statements, ∀ p ∈ s.outputs ++ s.inputs,
          p.text.toList.head? ≠ some ' ' ∧ '\n' ∉ p.text.toList :=
    ⟨_, by cbv, by decide +kernel, by decide +kernel⟩
  exact ⟨g, hg, programs, returns, paths,
    compileCommands_of_generate programs hg returns paths ⟨"/w"⟩⟩

end BuildPlanner
