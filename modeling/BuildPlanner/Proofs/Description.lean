import BuildPlanner.Proofs.Commands
import BuildPlanner.Proofs.Ninja.Written

/-!
# The build description

The description of a build graph is read back as its rules and its statements.

* `BuildGraph.read_render`: every graph is read back, as long as its texts stay on their lines.
* `readEntries_render_of_generate`: a generated graph is read back with its paths and values, as
  long as no path would be taken for something else.
-/

namespace BuildPlanner

/-! ## The description of a graph -/

namespace BuildGraph

variable {g : BuildGraph}

/-- The first entry of a description. -/
def versionItem : Ninja.Item := .assignment "ninja_required_version" requiredVersion

theorem reads_header (g : BuildGraph) : Ninja.Reads g.header [versionItem] := by
  have value : Ninja.readValue (requiredVersion.toList.dropWhile (· = ' ')) =
      some requiredVersion := by
    have escaped : requiredVersion.toList.dropWhile (· = ' ') =
        Ninja.escapeValueChars requiredVersion.toList := by decide
    rw [escaped, Ninja.readValue_escapeValueChars (by decide)]
    decide
  have digits : ∀ c ∈ requiredVersion.toList, Ninja.isKeyChar c := List.all_eq_true.1 (by decide)
  have version : Ninja.Reads (Ninja.assignment "ninja_required_version" requiredVersion)
      [versionItem] :=
    Ninja.Reads.assignment (by decide) (by decide) (Ninja.inside_of_isKeyChar digits) value
  exact (((Ninja.Reads.comment _).append Ninja.Reads.newline).append version).append
    Ninja.Reads.newline

theorem reads_projectPart {p : EmittedProject} (h : ∀ s ∈ p.statements, Ninja.StatementFits s) :
    Ninja.Reads (projectPart p) (p.statements.map fun s => .block (Ninja.blockOf s)) := by
  rw [projectPart]
  split
  · next none =>
    rw [List.isEmpty_iff.1 none]
    exact Ninja.Reads.empty
  · have statements := Ninja.Reads.join fun s hs => Ninja.Reads.build (h s hs)
    rw [← List.map_eq_flatMap] at statements
    exact (Ninja.Reads.comment _).append statements

/-- A graph is read back if its rules and statements stay on their lines. -/
theorem read_render (rules : ∀ r ∈ g.rules, Ninja.RuleFits r)
    (blocks : ∀ s ∈ g.statements, Ninja.StatementFits s) :
    Ninja.read g.render =
      some (versionItem :: (g.rules.map .rule ++
        g.statements.map fun s => .block (Ninja.blockOf s))) := by
  have ruleItems := Ninja.Reads.join fun r hr => Ninja.Reads.rule (rules r hr)
  have parts : Ninja.Reads (.join (g.projects.map projectPart))
      (g.projects.flatMap fun p => p.statements.map fun s => .block (Ninja.blockOf s)) :=
    Ninja.Reads.join fun p hp => reads_projectPart fun s hs =>
      blocks s (List.mem_flatMap.2 ⟨p, hp, hs⟩)
  rw [← List.map_eq_flatMap] at ruleItems
  rw [← List.map_flatMap] at parts
  exact (((reads_header g).append ruleItems).append parts).read_eq

end BuildGraph

/-! ## Generated graphs -/

/-- A program whose name can start a command. -/
structure ProgramFits (program : String) : Prop where
  nonempty : program ≠ ""
  start : program.toList.head? ≠ some ' '
  dollar : '$' ∉ program.toList
  newline : '\n' ∉ program.toList

instance (program : String) : Decidable (ProgramFits program) :=
  decidable_of_iff
    (program ≠ "" ∧ program.toList.head? ≠ some ' ' ∧ '$' ∉ program.toList ∧ '\n' ∉ program.toList)
    ⟨fun h => ⟨h.1, h.2.1, h.2.2.1, h.2.2.2⟩, fun h => ⟨h.nonempty, h.start, h.dollar, h.newline⟩⟩

/-- A displayed path that is read as one path, on one line. -/
structure PathFits (p : Path) : Prop where
  nonempty : p.text ≠ ""
  start : p.text.toList.head? ≠ some ' '
  newline : '\n' ∉ p.text.toList
  bar : '|' ∉ p.text.toList

instance (p : Path) : Decidable (PathFits p) :=
  decidable_of_iff
    (p.text ≠ "" ∧ p.text.toList.head? ≠ some ' ' ∧ '\n' ∉ p.text.toList ∧ '|' ∉ p.text.toList)
    ⟨fun h => ⟨h.1, h.2.1, h.2.2.1, h.2.2.2⟩, fun h => ⟨h.nonempty, h.start, h.newline, h.bar⟩⟩

/-- No carriage return stands in a command, a displayed path or a value. -/
structure BuildGraph.NoReturn (g : BuildGraph) : Prop where
  commands : ∀ r ∈ g.rules, '\r' ∉ r.command.toList
  paths : ∀ s ∈ g.statements, ∀ p ∈ s.outputs ++ s.inputs, '\r' ∉ p.text.toList
  values : ∀ s ∈ g.statements, ∀ b ∈ s.bindings, '\r' ∉ b.2.toList

instance (g : BuildGraph) : Decidable g.NoReturn :=
  decidable_of_iff
    ((∀ r ∈ g.rules, '\r' ∉ r.command.toList) ∧
      (∀ s ∈ g.statements, ∀ p ∈ s.outputs ++ s.inputs, '\r' ∉ p.text.toList) ∧
      ∀ s ∈ g.statements, ∀ b ∈ s.bindings, '\r' ∉ b.2.toList)
    ⟨fun h => ⟨h.1, h.2.1, h.2.2⟩, fun h => ⟨h.commands, h.paths, h.values⟩⟩

theorem isRuleText_chars {text : String} {parts : List Template.Part}
    (written : text.toList = Template.chars parts) (h : Template.WellFormed parts)
    (readable : ∀ part ∈ parts, part.Readable) (start : text.toList.head? ≠ some ' ') :
    Ninja.IsRuleText text where
  inside := written ▸ Template.inside_chars h readable
  start
  sound := by
    rw [written, Template.symbols_chars h readable]
    rfl

theorem isRuleText_word {text : String} {word : Template.Part} (h : word.IsWord)
    (written : text.toList = word.chars) (start : text.toList.head? ≠ some ' ') :
    Ninja.IsRuleText text := by
  have whole : text.toList = Template.chars [word] := by
    rw [written, Template.chars_cons]
    exact (List.append_nil _).symm
  refine isRuleText_chars whole h.wellFormed (fun part hpart => ?_) start
  rw [List.mem_singleton.1 hpart]
  exact h.readable

namespace Toolchain

variable {toolchain : Toolchain} {configuration : Configuration}

theorem mem_dependencies {r : Rule} (h : r ∈ toolchain.rules) :
    ∀ text ∈ r.depfile.toList ++ r.deps.toList, text ∈ ["$cc_depsfile", "gcc", "msvc"] := by
  cases toolchain with
  | gcc tools =>
    rw [rules, Gcc.rules] at h
    simp only [List.mem_cons, List.not_mem_nil, or_false] at h
    obtain rfl | rfl | rfl := h
    · exact (by decide : ∀ text ∈ ["$cc_depsfile", "gcc"], text ∈ ["$cc_depsfile", "gcc", "msvc"])
    · exact fun text htext => absurd htext List.not_mem_nil
    · exact fun text htext => absurd htext List.not_mem_nil
  | msvc tools =>
    rw [rules, Msvc.rules] at h
    simp only [List.mem_cons, List.not_mem_nil, or_false] at h
    obtain rfl | rfl | rfl | rfl := h
    · exact (by decide : ∀ text ∈ ["msvc"], text ∈ ["$cc_depsfile", "gcc", "msvc"])
    · exact fun text htext => absurd htext List.not_mem_nil
    · exact fun text htext => absurd htext List.not_mem_nil
    · exact fun text htext => absurd htext List.not_mem_nil

theorem isRuleText_dependencies {r : Rule} (h : r ∈ toolchain.rules) :
    ∀ text ∈ r.depfile.toList ++ r.deps.toList, Ninja.IsRuleText text := by
  intro text htext
  have known := mem_dependencies h text htext
  simp only [List.mem_cons, List.not_mem_nil, or_false] at known
  obtain rfl | rfl | rfl := known
  · exact isRuleText_word (by decide : Template.Part.IsWord (.bare "cc_depsfile")) (by decide)
      (by decide)
  · exact isRuleText_word (by decide : Template.Part.IsWord (.text "gcc")) (by decide) (by decide)
  · exact isRuleText_word (by decide : Template.Part.IsWord (.text "msvc")) (by decide) (by decide)

/-- The command of a rule is written from parts that stay on its line. -/
theorem Runs.exists_parts {kind : StatementKind} {r : Rule} (h : toolchain.Runs kind r)
    (programs : ∀ p ∈ toolchain.programs, ProgramFits p.2) (oneLine : '\r' ∉ r.command.toList) :
    ∃ program, ProgramFits program ∧
      r.command = Template.command program (toolchain.platform.words kind) ∧
      r.command.toList =
        Template.chars (Template.commandParts program (toolchain.platform.words kind)) ∧
      ∀ part ∈ Template.commandParts program (toolchain.platform.words kind), part.Readable := by
  obtain ⟨program, hprogram, command⟩ := h
  obtain ⟨p, hp, rfl⟩ := List.mem_map.1 hprogram
  have fits := programs p hp
  have line : ∀ c ∈ p.2.toList, c ≠ '\n' ∧ c ≠ '\r' := by
    intro c hc
    refine ⟨fun newline => fits.newline (newline ▸ hc), fun carriage => oneLine ?_⟩
    rw [command, Template.command, String.toList_append, ← carriage]
    exact List.mem_append_left _ hc
  exact ⟨p.2, fits, command, command ▸ Template.toList_command fits.dollar _,
    Template.readable_commandParts line (toolchain.platform.isWord_words kind)⟩

/-- Each rule of a toolchain is read back, if its program's name can start a command. -/
theorem ruleFits_of_mem_rules {r : Rule} (h : r ∈ toolchain.rules)
    (programs : ∀ p ∈ toolchain.programs, ProgramFits p.2) (oneLine : '\r' ∉ r.command.toList) :
    Ninja.RuleFits r := by
  obtain ⟨kind, runs⟩ := runs_of_mem_rules h
  obtain ⟨program, fits, command, written, readable⟩ := runs.exists_parts programs oneLine
  obtain ⟨c, rest, chars⟩ := exists_cons_of_ne_empty fits.nonempty
  have text : ∃ more, r.command.toList = c :: more := by
    rw [command, Template.command, String.toList_append, chars]
    exact ⟨_, rfl⟩
  obtain ⟨more, text⟩ := text
  refine ⟨isKey_name h, ?_, fun b hb => ?_⟩
  · intro empty
    rw [empty] at text
    cases text
  · obtain rfl | hb := List.mem_cons.1 hb
    · refine isRuleText_chars written (Template.wellFormed_commandParts program
        (toolchain.platform.isWord_words kind)) readable ?_
      have start := fits.start
      rw [chars] at start
      rwa [text]
    · refine isRuleText_dependencies h b.2 ?_
      have := List.mem_map_of_mem (f := Prod.snd) hb
      simpa [Function.comp_def] using this

theorem Issued.isKey_rule {s : Statement} (h : toolchain.Issued configuration s) :
    Ninja.IsKey s.rule := by
  obtain ⟨r, found, -⟩ := h.exists_rule
  have name : r.name = s.rule := by simpa using List.find?_some found
  exact name ▸ isKey_name (List.mem_of_find?_eq_some found)

theorem Issued.outputs_ne_nil {s : Statement} (h : toolchain.Issued configuration s) :
    s.outputs ≠ [] := by
  have made : ∃ p, s.outputs.head? = some p := by
    cases h with
    | compile task => exact ⟨_, toolchain.head?_outputs_compile configuration task⟩
    | archive task objects => exact ⟨_, by rw [toolchain.outputs_archive]; rfl⟩
    | link task objects resource => exact ⟨_, toolchain.head?_outputs_link configuration task⟩
    | resource task issued =>
      have outputs := (Project.compilesResource_of_resource? issued).2
      exact ⟨task.output, by rw [outputs]; rfl⟩
  obtain ⟨p, head⟩ := made
  exact List.ne_nil_of_mem (List.mem_of_mem_head? head)

/-- Each statement of a toolchain is read back, if its paths stay on one line. -/
theorem Issued.statementFits {s : Statement} (h : toolchain.Issued configuration s)
    (paths : ∀ p ∈ s.outputs ++ s.inputs, Ninja.OneLine p)
    (values : ∀ b ∈ s.bindings, '\r' ∉ b.2.toList) : Ninja.StatementFits s where
  rule := h.isKey_rule
  outputs := fun p hp => paths p (List.mem_append_left _ hp)
  inputs := fun p hp => paths p (List.mem_append_right _ hp)
  bindings := by
    intro b hb
    refine ⟨toolchain.platform.isKey_keys s.kind b.1 ?_, values b hb⟩
    rw [← h.keys_eq]
    exact List.mem_map_of_mem hb

end Toolchain

namespace BuildGraph

variable {toolchain : Toolchain} {configuration : Configuration} {projects : List Project}
  {g : BuildGraph}

theorem rules_fit (h : generate toolchain configuration projects = .ok g)
    (programs : ∀ p ∈ toolchain.programs, ProgramFits p.2) (returns : g.NoReturn) :
    ∀ r ∈ g.rules, Ninja.RuleFits r := by
  intro r hr
  exact Toolchain.ruleFits_of_mem_rules (rules_of_generate h ▸ hr) programs (returns.commands r hr)

theorem statements_fit (h : generate toolchain configuration projects = .ok g)
    (returns : g.NoReturn)
    (lines : ∀ s ∈ g.statements, ∀ p ∈ s.outputs ++ s.inputs, '\n' ∉ p.text.toList) :
    ∀ s ∈ g.statements, Ninja.StatementFits s := by
  intro s hs
  refine (issued_of_generate h hs).statementFits (fun p hp c hc => ?_) (returns.values s hs)
  exact ⟨fun newline => lines s hs p hp (newline ▸ hc),
    fun carriage => returns.paths s hs p hp (carriage ▸ hc)⟩

end BuildGraph

/-- A statement with its displayed paths and with each value on one line. -/
def Ninja.stepOf (s : Statement) : Ninja.Step where
  outputs := s.outputs.map Path.text
  rule := s.rule
  inputs := s.inputs.map Path.text
  bindings := s.bindings.map fun b => (b.1, Ninja.onOneLine b.2)

theorem PathFits.flush {p : Path} (h : PathFits p) : Flush p.text :=
  flush_of_head?_ne_space h.start h.newline

theorem Toolchain.Issued.step?_blockOf {toolchain : Toolchain} {configuration : Configuration}
    {s : Statement} (h : toolchain.Issued configuration s)
    (paths : ∀ p ∈ s.outputs ++ s.inputs, PathFits p) :
    (Ninja.blockOf s).step? = some (Ninja.stepOf s) := by
  have outputs : ∀ p ∈ s.outputs, PathFits p := fun p hp => paths p (List.mem_append_left _ hp)
  have inputs : ∀ p ∈ s.inputs, PathFits p := fun p hp => paths p (List.mem_append_right _ hp)
  have values : ∀ b ∈ s.bindings, Flush b.2 :=
    h.flush_bindings (fun p hp => (outputs p hp).flush) (fun p hp => (inputs p hp).nonempty)
  have bindings : (s.bindings.map fun b => (b.1, Ninja.onOneLine (Ninja.flush b.2))) =
      s.bindings.map fun b => (b.1, Ninja.onOneLine b.2) :=
    List.map_congr_left fun b hb => by rw [Ninja.flush_eq_self (values b hb)]
  rw [Ninja.step?_blockOf h.outputs_ne_nil
    (fun p hp => ⟨(outputs p hp).nonempty, (outputs p hp).bar⟩)
    (fun p hp => ⟨(inputs p hp).nonempty, (inputs p hp).bar⟩), bindings]
  rfl

/-- The description of a generated graph says what the graph holds: the rules as they are, then the
statements in their order with their displayed paths, and each value on one line. -/
theorem readEntries_render_of_generate {toolchain : Toolchain} {configuration : Configuration}
    {projects : List Project} {g : BuildGraph}
    (programs : ∀ p ∈ toolchain.programs, ProgramFits p.2)
    (h : BuildGraph.generate toolchain configuration projects = .ok g) (returns : g.NoReturn)
    (paths : ∀ s ∈ g.statements, ∀ p ∈ s.outputs ++ s.inputs, PathFits p) :
    Ninja.readEntries g.render =
      some (.assignment "ninja_required_version" BuildGraph.requiredVersion ::
        (g.rules.map .rule ++ g.statements.map fun s => .step (Ninja.stepOf s))) := by
  have rules := BuildGraph.rules_fit h programs returns
  have blocks := BuildGraph.statements_fit h returns fun s hs p hp => (paths s hs p hp).newline
  have steps : ∀ s ∈ g.statements, (Ninja.Item.entry? ∘ fun s => .block (Ninja.blockOf s)) s =
      some (.step (Ninja.stepOf s)) := by
    intro s hs
    have read := (BuildGraph.issued_of_generate h hs).step?_blockOf (paths s hs)
    rw [Function.comp_apply, Ninja.Item.entry?, read, Option.map_some]
  have ruleEntries : ∀ r ∈ g.rules, (Ninja.Item.entry? ∘ .rule) r = some (.rule r) :=
    fun r _ => rfl
  rw [Ninja.readEntries, BuildGraph.read_render rules blocks, Option.bind_some, List.mapM_cons,
    List.mapM_append, List.mapM_map, List.mapM_map, mapM_eq_some steps,
    mapM_eq_some ruleEntries]
  rfl

/-- A library with a space, a colon and a dollar in its paths and a newline in a define. -/
def sampleLibrary : List Project :=
  [⟨"a b", ⟨"x"⟩, ⟨"o $"⟩, ⟨"d"⟩, [⟨"x/a :b.c"⟩], [⟨"i"⟩], [⟨"D", some "$\n"⟩], 4, .staticLibrary⟩]

theorem readEntries_render_sampleLibrary :
    ∃ g, BuildGraph.generate (.gcc {}) .master sampleLibrary = .ok g ∧
      (∀ p ∈ (Toolchain.gcc {}).programs, ProgramFits p.2) ∧ g.NoReturn ∧
      (∀ s ∈ g.statements, ∀ p ∈ s.outputs ++ s.inputs, PathFits p) ∧
      Ninja.readEntries g.render =
        some (.assignment "ninja_required_version" BuildGraph.requiredVersion ::
          (g.rules.map .rule ++ g.statements.map fun s => .step (Ninja.stepOf s))) := by
  have programs : ∀ p ∈ (Toolchain.gcc {}).programs, ProgramFits p.2 := by decide
  obtain ⟨g, hg, returns, paths⟩ : ∃ g,
      BuildGraph.generate (.gcc {}) .master sampleLibrary = .ok g ∧ g.NoReturn ∧
        ∀ s ∈ g.statements, ∀ p ∈ s.outputs ++ s.inputs, PathFits p :=
    ⟨_, by cbv, by decide +kernel, by decide +kernel⟩
  exact ⟨g, hg, programs, returns, paths,
    readEntries_render_of_generate programs hg returns paths⟩

end BuildPlanner
