import BuildPlanner.Proofs.Toml.Records
import BuildPlanner.Settings.Layers

/-!
# Precedence of settings

What a file says about a setting is the value of one member of one of its tables (`Setting.said?`).
It counts if the whole file loads (`Setting.written?`), and then the file of the workspace goes
before that of the user (`Setting.counting?`).

* `Settings.layered_precedence`: the layered settings are what counts, or else the default.  Whether a
  compilation database is always written is the exception: it can be turned on in the file of the
  workspace, but not off again.
-/

namespace BuildPlanner

open Toml

/-- A setting: the table and the name under which a file says it, and how it is read. -/
structure Setting (α : Type) where
  table : String
  shape : Shape Settings
  name : String
  decoder : Decoder α

namespace Setting

def ninja : Setting Path where
  table := "build"
  shape := Settings.buildShape {}
  name := "ninja"
  decoder := Decoder.path

def jobs : Setting Nat where
  table := "build"
  shape := Settings.buildShape {}
  name := "jobs"
  decoder := Decoder.natural Settings.jobsBound "usize"

def emission : Setting Bool where
  table := "build"
  shape := Settings.buildShape {}
  name := "emit-compile-commands"
  decoder := Decoder.boolean

def configuration : Setting Configuration where
  table := "build"
  shape := Settings.buildShape {}
  name := "build-type"
  decoder := Decoder.choice Settings.configurationNames

def platform : Setting Platform where
  table := "toolchain"
  shape := Settings.toolchainShape {}
  name := "platform"
  decoder := Decoder.choice Manifest.platformNames

variable {α β : Type} (s : Setting α)

/-- What a document says about a setting. -/
def said? (document : Value) : Option α :=
  ((Settings.shape.member? document s.table).bind (s.shape.member? · s.name)).bind fun v =>
    (s.decoder v).toOption

/-- What a file says about a setting, if the file loads. -/
def written? (h : Host) (p : Path) : Option α :=
  if (Settings.load h p).isOk then ((h.read p).toOption.bind Toml.parse).bind s.said? else none

/-- What the file of the workspace says about a setting, or else that of the user. -/
def counting? (h : Host) (userFile : Option Path) (workspaceFile : Path) : Option α :=
  (s.written? h workspaceFile).or (userFile.bind (s.written? h))

/-- A part of the settings is set by what is said about a setting, and by nothing else. -/
def Sets (get : Settings → β) (put : α → β) : Prop :=
  Settings.shape.Tells s.table get fun v =>
    (s.shape.member? v s.name).bind fun w => (s.decoder w).toOption.map put

end Setting

namespace Settings

/-! ## One document -/

section Layers

variable {α β : Type} {name : String} {get : Settings → β} {told : Value → Option β}

/-- What only one member of the table `build` sets is said by this member. -/
theorem tells_of_build (known : ∃ f ∈ (buildShape {}).fields, f.name = name)
    (tells : ∀ f ∈ (buildShape {}).fields, f.Tells name get told)
    (same : ∀ r platform, get { r with platform := some platform } = get r) :
    shape.Tells "build" get fun v => ((buildShape {}).member? v name).bind told where
  names := by decide
  known := by decide
  set := by
    have names : ((buildShape {}).fields.map (·.name)).Nodup := by decide
    have inner (start : Settings) : (buildShape start).Tells name get told := ⟨names, known, tells⟩
    simp only [shape, List.forall_mem_cons]
    refine ⟨tells_nested (fun _ => rfl) (fun _ => rfl) inner,
      tells_nested_of_ne (by decide) (fun _ => rfl) fun start => ?_, by simp⟩
    -- The table `toolchain` has nothing but the platform.
    simp only [toolchainShape, List.forall_mem_cons]
    exact ⟨keeps_field fun r _ a _ kept => (same r a).trans kept, by simp⟩

theorem sets_ninja : Setting.ninja.Sets (·.ninja) some := by
  apply tells_of_build (by decide) _ fun _ _ => rfl
  simp only [buildShape, List.forall_mem_cons]
  exact ⟨tells_field fun _ _ => rfl, tells_field_of_ne (by decide) fun _ _ => rfl,
    tells_field_of_ne (by decide) fun _ _ => rfl, tells_field_of_ne (by decide) fun _ _ => rfl,
    by simp⟩

theorem sets_jobs : Setting.jobs.Sets (·.jobs) some := by
  apply tells_of_build (by decide) _ fun _ _ => rfl
  simp only [buildShape, List.forall_mem_cons]
  exact ⟨tells_field_of_ne (by decide) fun _ _ => rfl, tells_field fun _ _ => rfl,
    tells_field_of_ne (by decide) fun _ _ => rfl, tells_field_of_ne (by decide) fun _ _ => rfl,
    by simp⟩

theorem sets_emission : Setting.emission.Sets (·.emitCompileCommands) id := by
  apply tells_of_build (by decide) _ fun _ _ => rfl
  simp only [buildShape, List.forall_mem_cons]
  exact ⟨tells_field_of_ne (by decide) fun _ _ => rfl, tells_field_of_ne (by decide) fun _ _ => rfl,
    tells_field fun _ _ => rfl, tells_field_of_ne (by decide) fun _ _ => rfl, by simp⟩

theorem sets_configuration : Setting.configuration.Sets (·.configuration) some := by
  apply tells_of_build (by decide) _ fun _ _ => rfl
  simp only [buildShape, List.forall_mem_cons]
  exact ⟨tells_field_of_ne (by decide) fun _ _ => rfl, tells_field_of_ne (by decide) fun _ _ => rfl,
    tells_field_of_ne (by decide) fun _ _ => rfl, tells_field fun _ _ => rfl, by simp⟩

theorem sets_platform : Setting.platform.Sets (·.platform) some where
  names := by decide
  known := by decide
  set := by
    have names : ((toolchainShape {}).fields.map (·.name)).Nodup := by decide
    have inner (start : Settings) : (toolchainShape start).Tells "platform" (·.platform)
        fun v => (Decoder.choice Manifest.platformNames v).toOption.map some := by
      refine ⟨names, ⟨_, List.mem_cons_self, rfl⟩, ?_⟩
      simp only [toolchainShape, List.forall_mem_cons]
      exact ⟨tells_field fun _ _ => rfl, by simp⟩
    simp only [shape, List.forall_mem_cons]
    refine ⟨tells_nested_of_ne (by decide) (fun _ => rfl) fun start => ?_,
      tells_nested (fun _ => rfl) (fun _ => rfl) inner, by simp⟩
    -- No member of the table `build` changes the platform.
    simp only [buildShape, List.forall_mem_cons]
    exact ⟨keeps_field fun _ _ _ _ kept => kept, keeps_field fun _ _ _ _ kept => kept,
      keeps_field fun _ _ _ _ kept => kept, keeps_field fun _ _ _ _ kept => kept, by simp⟩

variable {s : Setting α} {put : α → β}

theorem get_of_parse (sets : s.Sets get put) {text : String} {settings : Settings}
    (h : parse text = .ok settings) :
    ∃ document, Toml.parse text = some document ∧
      get settings = ((s.said? document).map put).getD (get {}) := by
  unfold parse at h
  split at h
  · cases h
  · next document read =>
    split at h
    · cases h
    · next found decoded =>
      cases h
      refine ⟨document, read, ?_⟩
      rw [Shape.Tells.get_of_decoder sets (distinct_of_parse read) decoded, Setting.said?]
      simp only [Option.map_bind, Function.comp_def, Option.bind_assoc]
      rfl

/-! ## Two files -/

theorem exists_of_load {h : Host} {p : Path} {settings : Settings}
    (loaded : load h p = .ok settings) :
    h.exists? p ∧ ∃ text, h.read p = .ok text ∧ parse text = .ok settings := by
  obtain ⟨text, read, parsed⟩ := bind_eq_ok.1 loaded
  rw [mapError_eq_ok] at read parsed
  refine ⟨?_, text, read, parsed⟩
  unfold Host.read Host.content at read
  unfold Host.exists?
  cases node : h.node p with
  | ok => rfl
  | error fault => simp [node] at read

theorem get_loadOrDefault (sets : s.Sets get put) (h : Host) (p : Path) :
    get (loadOrDefault h p) = ((s.written? h p).map put).getD (get {}) := by
  unfold loadOrDefault Setting.written?
  cases loaded : load h p with
  | error failure => simp [Except.isOk, Except.toBool, Except.toOption]
  | ok settings =>
    obtain ⟨there, text, read, parsed⟩ := exists_of_load loaded
    obtain ⟨document, same, found⟩ := get_of_parse sets parsed
    rw [if_pos there, read]
    simpa [Except.isOk, Except.toBool, Except.toOption, same] using found

theorem layered_eq_merge (h : Host) (userFile : Option Path) (workspaceFile : Path) :
    layered h userFile workspaceFile =
      ((userFile.map (loadOrDefault h)).getD {}).merge (loadOrDefault h workspaceFile) := by
  unfold layered
  exact congrArg (merge · _) (empty_merge _)

theorem get_ofUser (sets : s.Sets get put) (h : Host) (userFile : Option Path) :
    get ((userFile.map (loadOrDefault h)).getD {}) =
      ((userFile.bind (s.written? h)).map put).getD (get {}) := by
  cases userFile with
  | none => rfl
  | some p => exact get_loadOrDefault sets h p

theorem get_layered {get : Settings → Option α} (sets : s.Sets get some) (unset : get {} = none)
    (merged : ∀ base other, get (base.merge other) = (get other).or (get base)) (h : Host)
    (userFile : Option Path) (workspaceFile : Path) :
    get (layered h userFile workspaceFile) = s.counting? h userFile workspaceFile := by
  have written (o : Option α) : (o.map some).getD (get {}) = o := by
    rw [unset]
    cases o <;> rfl
  rw [layered_eq_merge, merged, get_ofUser sets, get_loadOrDefault sets, written, written,
    Setting.counting?]

end Layers

/-- The layered settings are what the file of the workspace says, or else what that of the user
says, or else the default; a file that does not load says nothing.  Compilation databases are always
written where this says so, and also where it is turned off in the file of the workspace and turned
on in that of the user. -/
theorem layered_precedence (h : Host) (userFile : Option Path) (workspaceFile : Path) :
    (layered h userFile workspaceFile).ninja = Setting.ninja.counting? h userFile workspaceFile ∧
    (layered h userFile workspaceFile).jobs = Setting.jobs.counting? h userFile workspaceFile ∧
    (layered h userFile workspaceFile).configuration =
      Setting.configuration.counting? h userFile workspaceFile ∧
    (layered h userFile workspaceFile).platform =
      Setting.platform.counting? h userFile workspaceFile ∧
    ((layered h userFile workspaceFile).emitCompileCommands =
        (Setting.emission.counting? h userFile workspaceFile).getD false ↔
      ¬ (Setting.emission.written? h workspaceFile = some false ∧
        userFile.bind (Setting.emission.written? h) = some true)) := by
  refine ⟨get_layered sets_ninja rfl (fun _ _ => rfl) h userFile workspaceFile,
    get_layered sets_jobs rfl (fun _ _ => rfl) h userFile workspaceFile,
    get_layered sets_configuration rfl (fun _ _ => rfl) h userFile workspaceFile,
    get_layered sets_platform rfl (fun _ _ => rfl) h userFile workspaceFile, ?_⟩
  have merged : (layered h userFile workspaceFile).emitCompileCommands =
      ((Setting.emission.written? h workspaceFile).getD false ||
        (userFile.bind (Setting.emission.written? h)).getD false) := by
    have last := get_loadOrDefault sets_emission h workspaceFile
    have first := get_ofUser sets_emission h userFile
    rw [Option.map_id, id] at first last
    rw [layered_eq_merge, merge, first, last]
  rw [merged, Setting.counting?]
  -- Nine cases: each file says nothing, no or yes.
  rcases Setting.emission.written? h workspaceFile with _ | _ | _ <;>
    rcases userFile.bind (Setting.emission.written? h) with _ | _ | _ <;> decide

/-- A user who has compilation databases written, and a workspace that does not want them. -/
def unwillingHost : Host :=
  { (default : Host) with
    tree := .directory
      [("user.toml", .file ⟨.text "[build]\nemit-compile-commands = true\n", 0, false⟩),
      ("workspace.toml", .file ⟨.text "[build]\nemit-compile-commands = false\n", 0, false⟩)] }

/-- Compilation databases are written although the file of the workspace, which counts, turns them
off. -/
theorem layered_unwillingHost :
    Setting.emission.written? unwillingHost ⟨"workspace.toml"⟩ = some false ∧
    Setting.emission.counting? unwillingHost (some ⟨"user.toml"⟩) ⟨"workspace.toml"⟩ = some false ∧
    (layered unwillingHost (some ⟨"user.toml"⟩) ⟨"workspace.toml"⟩).emitCompileCommands = true := by
  decide +kernel

end Settings

end BuildPlanner
