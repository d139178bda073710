import BuildPlanner.Manifest.Decode
import BuildPlanner.Proofs.Toml.Records

/-!
# Additions for toolchains

What a project adds for a toolchain stands under a key that has to name a toolchain.  Letter case
does not count when the key is checked, but what is added is looked up under the name in lower case
(`Platform.name`).  So what stands under a key counts exactly if the key is spelled as the name of
its toolchain; what stands under any other spelling could as well be left out.

* `additionsFor_of_parse`: this holds of each key of each project of every manifest that is read.
-/

namespace BuildPlanner

open Toml

/-! ## Entries by name -/

section Entries

variable {α : Type} {entries : List (String × α)} {key other : String} {value : α}

/-- Entries in the order of their names, none of which is repeated. -/
def Ascending (entries : List (String × α)) : Prop := entries.Pairwise fun a b => a.1 < b.1

theorem eq_or_mem_of_mem_insertEntry {entry : String × α}
    (h : entry ∈ Decoder.insertEntry key value entries) : entry = (key, value) ∨ entry ∈ entries := by
  induction entries with
  | nil => simpa [Decoder.insertEntry] using h
  | cons first rest ih =>
    unfold Decoder.insertEntry at h
    split at h
    · simpa using h
    split at h
    · rcases List.mem_cons.1 h with here | later
      · exact .inl here
      · exact .inr (List.mem_cons_of_mem _ later)
    · rcases List.mem_cons.1 h with rfl | later
      · exact .inr List.mem_cons_self
      · exact (ih later).imp_right (List.mem_cons_of_mem _)

theorem Ascending.insertEntry (h : Ascending entries) (key : String) (value : α) :
    Ascending (Decoder.insertEntry key value entries) := by
  induction entries with
  | nil => exact List.pairwise_singleton _ _
  | cons first rest ih =>
    obtain ⟨before, sorted⟩ := List.pairwise_cons.1 h
    unfold Decoder.insertEntry
    split
    · next smaller =>
      refine List.pairwise_cons.2 ⟨?_, h⟩
      intro entry hentry
      rcases List.mem_cons.1 hentry with rfl | later
      · exact smaller
      · exact lt_trans smaller (before entry later)
    split
    · next same =>
      subst same
      exact List.pairwise_cons.2 ⟨before, sorted⟩
    · next larger other =>
      refine List.pairwise_cons.2 ⟨?_, ih sorted⟩
      intro entry hentry
      rcases eq_or_mem_of_mem_insertEntry hentry with rfl | later
      · exact lt_of_le_of_ne (not_lt.1 larger) (Ne.symm other)
      · exact before entry later

theorem Ascending.lookup_eq_some (h : Ascending entries) (hkey : (key, value) ∈ entries) :
    entries.lookup key = some value := by
  apply lookup_eq_some_of_mem _ hkey
  exact List.pairwise_map.2 (h.imp fun smaller => ne_of_lt smaller)

theorem lookup_filter_ne (h : other ≠ key) :
    (entries.filter (·.1 != key)).lookup other = entries.lookup other := by
  induction entries with
  | nil => rfl
  | cons entry entries ih =>
    by_cases here : entry.1 = key
    · rw [List.filter_cons_of_neg (by simpa using here), ih, List.lookup_cons,
        beq_eq_false_iff_ne.2 (here ▸ h)]
    · rw [List.filter_cons_of_pos (by simpa using here), List.lookup_cons, List.lookup_cons, ih]

theorem lookup_filter_self : (entries.filter (·.1 != key)).lookup key = none := by
  rw [List.lookup_eq_none_iff]
  intro entry hentry
  have apart : entry.1 ≠ key := by simpa using List.of_mem_filter hentry
  simpa using apart.symm

theorem ascending_of_map {item : Decoder α} {v : Value} (h : Decoder.map item v = .ok entries) :
    Ascending entries := by
  unfold Decoder.map at h
  split at h
  · refine holds_of_foldlM ?_ List.Pairwise.nil (within_eq_ok.1 h)
    intro before member after sorted taken
    obtain ⟨value, -, same⟩ := bind_eq_ok.1 taken
    cases same
    exact sorted.insertEntry _ _
  · cases h

end Entries

/-! ## Manifests -/

namespace ProjectDefinition

/-- The project without what it adds under a key. -/
def without (d : ProjectDefinition) (key : String) : ProjectDefinition :=
  { d with additions := d.additions.filter (·.1 != key) }

variable {d : ProjectDefinition} {key : String} {platform other : Platform}

theorem additionsFor_without_of_ne (h : other.name ≠ key) :
    (d.without key).additionsFor other = d.additionsFor other :=
  lookup_filter_ne h

theorem additionsFor_without_self : (d.without platform.name).additionsFor platform = none :=
  lookup_filter_self

end ProjectDefinition

theorem Platform.parse_eq_ok_iff {key : String} {platform : Platform} :
    parse key = .ok platform ↔ key.toLower = platform.name := by
  unfold parse ofName?
  constructor
  · intro h
    split at h
    · next found =>
      cases h
      have same : platform.name = key.toLower := by simpa using List.find?_some found
      exact same.symm
    · cases h
  · intro h
    cases platform <;> simp [h, all, name]

theorem Platform.toLower_name (platform : Platform) : platform.name.toLower = platform.name := by
  cases platform <;> decide +kernel

/-- A key in another spelling than the name of its platform is the name of no platform. -/
theorem Platform.name_ne_of_parse {key : String} {platform : Platform}
    (h : parse key = .ok platform) (spelled : key ≠ platform.name) (other : Platform) :
    other.name ≠ key := by
  rintro rfl
  rw [parse_eq_ok_iff, toLower_name] at h
  exact spelled h

namespace Manifest

theorem ascending_of_projectShape {v : Value} {d : ProjectDefinition}
    (h : projectShape.decoder v = .ok d) : Ascending d.additions := by
  have keeps {α : Type} {set : ProjectDefinition → α → ProjectDefinition}
      (same : ∀ d a, (set d a).additions = d.additions) (d : ProjectDefinition) (a : α)
      (start : Ascending d.additions) : Ascending (set d a).additions := by
    rwa [same d a]
  have start : Ascending projectShape.start.additions := List.Pairwise.nil
  refine Shape.holds_of_decoder (P := fun d => Ascending d.additions) start ?_ h
  -- Of the members of a project, one sets the additions.
  simp only [projectShape, List.forall_mem_cons]
  refine ⟨?_, ?_, ?_, ?_, ?_, ?_, ?_, ?_, ?_, ?_, ?_, ?_, ?_, ?_, ?_, ?_, ?_, by simp⟩
  case refine_1 | refine_2 => exact keeps_needed fun d _ a _ => keeps (fun _ _ => rfl) d a
  case refine_11 => exact keeps_field fun _ _ _ read _ => ascending_of_map read
  all_goals exact keeps_field fun d _ a _ => keeps (fun _ _ => rfl) d a

theorem ascending_of_shape {v : Value} {m : Manifest} (h : shape.decoder v = .ok m) :
    ∀ d ∈ m.projects, Ascending d.additions := by
  refine Shape.holds_of_decoder (P := fun m => ∀ d ∈ m.projects, Ascending d.additions)
    (by simp [shape]) ?_ h
  simp only [shape, List.forall_mem_cons]
  refine ⟨keeps_field fun _ _ _ _ start => start, keeps_field fun _ _ _ read _ d hd => ?_, by simp⟩
  obtain ⟨w, hw⟩ := mem_of_list read hd
  exact ascending_of_projectShape hw

theorem checkAdditions_eq_ok {d : ProjectDefinition} {entries : List (String × Additions)}
    (h : checkAdditions d entries = .ok ()) :
    ∀ entry ∈ entries, ∃ platform, Platform.parse entry.1 = .ok platform := by
  induction entries with
  | nil => simp
  | cons entry entries ih =>
    unfold checkAdditions at h
    split at h
    · cases h
    · next platform known => exact List.forall_mem_cons.2 ⟨⟨platform, known⟩, ih h⟩

theorem checkProjects_eq_ok {projects : List ProjectDefinition}
    (h : checkProjects projects = .ok ()) :
    ∀ d ∈ projects, ∀ entry ∈ d.additions, ∃ platform, Platform.parse entry.1 = .ok platform := by
  induction projects with
  | nil => simp
  | cons d projects ih =>
    obtain ⟨⟨⟩, first, others⟩ := bind_eq_ok.1 h
    exact List.forall_mem_cons.2 ⟨checkAdditions_eq_ok first, ih others⟩

theorem parse_eq_ok {text : String} {m : Manifest} (h : parse text = .ok m) :
    (∃ document, shape.decoder document = .ok m) ∧ checkProjects m.projects = .ok () := by
  unfold parse at h
  split at h
  · cases h
  · next document _ =>
    split at h
    · cases h
    · next manifest read =>
      obtain ⟨⟨⟩, checked, same⟩ := bind_eq_ok.1 h
      cases same
      exact ⟨⟨document, read⟩, checked⟩

end Manifest

/-- Each key under which a project of a manifest adds something names a toolchain, and what stands
under it is found by it.  If the key is spelled as the name of the toolchain, this is what is added
for the toolchain; otherwise nothing changes for any toolchain if it is left out. -/
theorem additionsFor_of_parse {text : String} {m : Manifest} (h : Manifest.parse text = .ok m)
    {d : ProjectDefinition} (hd : d ∈ m.projects) {key : String} {additions : Additions}
    (hkey : (key, additions) ∈ d.additions) :
    d.additions.lookup key = some additions ∧
    ∃ platform, Platform.parse key = .ok platform ∧
      (key = platform.name → d.additionsFor platform = some additions) ∧
      ((∀ other, (d.without key).additionsFor other = d.additionsFor other) ↔
        key ≠ platform.name) := by
  obtain ⟨⟨document, read⟩, checked⟩ := Manifest.parse_eq_ok h
  have found := (Manifest.ascending_of_shape read d hd).lookup_eq_some hkey
  obtain ⟨platform, known⟩ := Manifest.checkProjects_eq_ok checked d hd _ hkey
  refine ⟨found, platform, known, ?_, ?_, ?_⟩
  · rintro rfl
    exact found
  · rintro unchanged rfl
    have lost := unchanged platform
    rw [ProjectDefinition.additionsFor_without_self, ProjectDefinition.additionsFor, found] at lost
    cases lost
  · exact fun spelled other =>
      ProjectDefinition.additionsFor_without_of_ne (Platform.name_ne_of_parse known spelled other)

/-! ## A key in capitals -/

/-- A manifest with additions under `GCC`. -/
def capitalText : String :=
  "[[project]]\nname = \"app\"\nkind = \"executable\"\n" ++
  "[project.toolchain.GCC]\ndefines = [\"NDEBUG\"]\n" ++
  "[project.toolchain.msvc]\nstandard-libs = [\"User32.lib\"]\n"

def capitalProject : ProjectDefinition where
  name := "app"
  kind := .executable
  additions := [("GCC", { defines := [.flag "NDEBUG"] }),
    ("msvc", { standardLibs := ["User32.lib"] })]

theorem parse_capitalText : Manifest.parse capitalText = .ok { projects := [capitalProject] } := by
  decide +kernel

/-- What stands under `msvc` is added, and what stands under `GCC` could as well be left out. -/
theorem additionsFor_of_parse_capitalText :
    Manifest.parse capitalText = .ok { projects := [capitalProject] } ∧
    capitalProject.additionsFor .msvc = some { standardLibs := ["User32.lib"] } ∧
    ∀ other, (capitalProject.without "GCC").additionsFor other =
      capitalProject.additionsFor other := by
  have msvc : Platform.parse "msvc" = .ok .msvc := by decide +kernel
  have gcc : Platform.parse "GCC" = .ok .gcc := by decide +kernel
  have added {key : String} {additions : Additions}
      (h : (key, additions) ∈ capitalProject.additions) :=
    additionsFor_of_parse parse_capitalText (List.mem_singleton_self capitalProject) h
  obtain ⟨-, platform, known, used, -⟩ := added (List.mem_cons_of_mem _ (List.mem_singleton_self _))
  rw [msvc] at known
  cases known
  obtain ⟨-, platform, known, -, ignored⟩ := added List.mem_cons_self
  rw [gcc] at known
  cases known
  exact ⟨parse_capitalText, used rfl, ignored.2 (by decide)⟩

/-- The key in capitals is accepted, and nothing is added for its toolchain. -/
theorem ignored_capitalText :
    Manifest.parse capitalText = .ok { projects := [capitalProject] } ∧
    capitalProject.additions.lookup "GCC" = some { defines := [.flag "NDEBUG"] } ∧
    Platform.parse "GCC" = .ok .gcc ∧ capitalProject.additionsFor .gcc = none :=
  ⟨parse_capitalText, by decide +kernel⟩

end BuildPlanner
