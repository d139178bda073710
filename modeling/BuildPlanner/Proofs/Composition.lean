import BuildPlanner.Proofs.Resolution

/-!
# What a project is composed of

The include directories and the defines of a resolved project are what the projects that it uses
give to others, what it has of its own, and what is added for the toolchain, each item in its first
place alone (`composition_of_resolve`).  Only the projects that it uses itself count: what those use
in turn changes nothing.

* `firstOccurrences` says what stays of a list in which items repeat; `keepFirst_eq` proves that
  this is what is kept item by item.
* `Workspace.usedBy` is what a project uses, in closed form.
-/

namespace BuildPlanner

/-! ## First occurrences -/

/-- The items that are not the same as an earlier one. -/
def firstOccurrences {α : Type} (same : α → α → Bool) (items : List α) : List α :=
  (items.zipIdx.filter fun place => !(items.take place.2).any (same · place.1)).map Prod.fst

section FirstOccurrences

variable {α : Type} {same : α → α → Bool}

@[simp] theorem firstOccurrences_nil : firstOccurrences same [] = [] := rfl

/-- Whether an item stays depends on what stands before it only. -/
theorem firstOccurrences_concat (items : List α) (last : α) :
    firstOccurrences same (items ++ [last]) =
      firstOccurrences same items ++ if items.any (same · last) then [] else [last] := by
  have before : (items.zipIdx.filter fun place =>
        !((items ++ [last]).take place.2).any (same · place.1)) =
      items.zipIdx.filter fun place => !(items.take place.2).any (same · place.1) := by
    refine List.filter_congr fun place hplace => ?_
    have bound : place.2 < items.length := by simpa using (List.mem_zipIdx hplace).2.1
    rw [List.take_append_of_le_length (Nat.le_of_lt bound)]
  rw [firstOccurrences, firstOccurrences, List.zipIdx_append, List.filter_append, before,
    List.map_append]
  cases seen : items.any (same · last) <;> simp [seen]

theorem keepFirst_concat (items : List α) (last : α) :
    Workspace.keepFirst same (items ++ [last]) =
      Workspace.keepFirst same items ++
        if (Workspace.keepFirst same items).any (same · last) then [] else [last] := by
  rw [Workspace.keepFirst, Workspace.keepFirst, List.foldl_append, List.foldl_cons, List.foldl_nil,
    List.any_reverse]
  split
  · rw [List.append_nil]
  · rw [List.reverse_cons]

/-- Whether a list holds something that is the same as an item can be told from its first
occurrences. -/
theorem any_firstOccurrences (trans : ∀ a b c, same a b → same b c → same a c) (items : List α)
    (item : α) : (firstOccurrences same items).any (same · item) = items.any (same · item) := by
  induction items using List.reverseRecOn with
  | nil => rfl
  | append_singleton items last ih =>
    rw [firstOccurrences_concat, List.any_append, List.any_append, ih]
    cases seen : items.any (same · last) with
    | false => simp
    | true =>
      obtain ⟨first, hfirst, kept⟩ := List.any_eq_true.1 seen
      cases repeated : same last item with
      | false => simp [repeated]
      | true =>
        have again : items.any (same · item) = true :=
          List.any_eq_true.2 ⟨first, hfirst, trans _ _ _ kept repeated⟩
        simp [again]

theorem keepFirst_eq (trans : ∀ a b c, same a b → same b c → same a c) (items : List α) :
    Workspace.keepFirst same items = firstOccurrences same items := by
  induction items using List.reverseRecOn with
  | nil => rfl
  | append_singleton items last ih =>
    rw [keepFirst_concat, ih, firstOccurrences_concat, any_firstOccurrences trans]

theorem mem_of_mem_firstOccurrences {items : List α} {item : α}
    (h : item ∈ firstOccurrences same items) : item ∈ items := by
  obtain ⟨⟨other, i⟩, hother, rfl⟩ := List.mem_map.1 h
  exact List.fst_mem_of_mem_zipIdx (List.mem_filter.1 hother).1

/-- No two first occurrences are the same. -/
theorem pairwise_firstOccurrences (items : List α) :
    (firstOccurrences same items).Pairwise fun a b => same a b = false := by
  induction items using List.reverseRecOn with
  | nil => exact .nil
  | append_singleton items last ih =>
    rw [firstOccurrences_concat]
    cases seen : items.any (same · last) with
    | true => simpa using ih
    | false =>
      refine List.pairwise_append.2 ⟨ih, List.pairwise_singleton _ _, fun a ha b hb => ?_⟩
      obtain rfl := List.mem_singleton.1 (by simpa using hb)
      have apart := List.any_eq_false.1 seen a (mem_of_mem_firstOccurrences ha)
      simpa using apart

theorem pair_sublist_concat {items : List α} {a b last : α} :
    [a, b].Sublist (items ++ [last]) ↔ [a, b].Sublist items ∨ b = last ∧ a ∈ items := by
  have flip (xs ys : List α) : xs.reverse.Sublist ys.reverse ↔ xs.Sublist ys :=
    List.reverse_sublist
  rw [← flip, ← flip [a, b] items]
  simp [List.cons_sublist_cons']

end FirstOccurrences

section Equality

variable {α : Type} [BEq α] [LawfulBEq α]

theorem mem_firstOccurrences {items : List α} {item : α} :
    item ∈ firstOccurrences (· == ·) items ↔ item ∈ items := by
  have known : (firstOccurrences (· == ·) items).any (· == item) = items.any (· == item) :=
    any_firstOccurrences (fun a b c hab hbc => by simp_all) items item
  rw [Bool.eq_iff_iff, List.any_eq_true, List.any_eq_true] at known
  simpa using known

theorem nodup_firstOccurrences (items : List α) : (firstOccurrences (· == ·) items).Nodup :=
  (pairwise_firstOccurrences items).imp fun apart same => by simp [same] at apart

/-- Items keep their order: one stays before another if it occurs before it for the first time. -/
theorem pair_sublist_firstOccurrences {items : List α} {a b : α} :
    [a, b].Sublist (firstOccurrences (· == ·) items) ↔
      b ∈ items ∧ items.idxOf a < items.idxOf b := by
  induction items using List.reverseRecOn with
  | nil => simp
  | append_singleton items last ih =>
    rw [firstOccurrences_concat, List.idxOf_append, List.idxOf_append, List.mem_append,
      List.mem_singleton]
    have bound {x : α} (hx : x ∈ items) := List.idxOf_lt_length_of_mem hx
    by_cases seen : last ∈ items
    · have known : items.any (· == last) = true := by simpa using seen
      rw [known, if_pos rfl, List.append_nil, ih]
      by_cases hb : b ∈ items
      · by_cases ha : a ∈ items
        · simp [ha, hb]
        · have late := List.idxOf_of_notMem ha
          have := bound hb
          simp only [ha, hb, if_false, if_true, true_or, true_and]
          omega
      · have absent : b ≠ last := fun same => hb (same ▸ seen)
        simp [hb, absent]
    · have new : items.any (· == last) = false := by
        rw [List.any_eq_false]
        exact fun x hx same => seen (beq_iff_eq.1 same ▸ hx)
      rw [new, if_neg (by simp), pair_sublist_concat, mem_firstOccurrences, ih]
      by_cases hb : b ∈ items
      · have absent : b ≠ last := fun same => seen (same ▸ hb)
        by_cases ha : a ∈ items
        · simp [ha, hb, absent]
        · have late := List.idxOf_of_notMem ha
          have := bound hb
          simp only [ha, hb, absent, if_false, if_true, true_and, false_and, or_false]
          omega
      · by_cases same : b = last
        · by_cases ha : a ∈ items
          · simp [ha, same, seen, bound ha]
          · simp [ha, same, seen]
        · simp [hb, same]

end Equality

namespace Workspace

/-! ## What a project uses -/

/-- The enabled projects that a project uses, in the order in which it names them. -/
def usedBy (ws : Workspace) (platform : Platform) (d : ProjectDefinition) :
    List ProjectDefinition :=
  d.uses.flatMap fun name => (ws.enabled platform).filter (·.name == name)

theorem filter_eq_singleton {enabled : List ProjectDefinition} {name : String}
    {d : ProjectDefinition} (distinct : (enabled.map (·.name)).Nodup)
    (found : enabled.find? (·.name == name) = some d) :
    enabled.filter (·.name == name) = [d] := by
  induction enabled with
  | nil => cases found
  | cons first rest ih =>
    rw [List.map_cons, List.nodup_cons] at distinct
    rw [List.find?_cons] at found
    cases same : first.name == name with
    | true =>
      rw [same] at found
      cases found
      have others : rest.filter (·.name == name) = [] := by
        rw [List.filter_eq_nil_iff]
        intro e he other
        rw [beq_iff_eq] at same other
        exact distinct.1 (List.mem_map.2 ⟨e, he, other.trans same.symm⟩)
      rw [List.filter_cons, if_pos same, others]
    | false =>
      rw [same] at found
      rw [List.filter_cons_of_neg (by simp [same])]
      exact ih distinct.2 found

section Used

variable {ws : Workspace} {platform : Platform} {d : ProjectDefinition}
  {others : List ProjectDefinition}

theorem exists_filter_eq_singleton (distinct : ((ws.enabled platform).map (·.name)).Nodup)
    (found : used (ws.enabled platform) d = .ok others) {name : String} (hname : name ∈ d.uses) :
    ∃ other, (ws.enabled platform).filter (·.name == name) = [other] := by
  obtain ⟨other, -, one⟩ := exists_of_mem_forall₂ (used_eq_ok found) hname
  exact ⟨other, filter_eq_singleton distinct one⟩

theorem usedBy_eq (distinct : ((ws.enabled platform).map (·.name)).Nodup)
    (found : used (ws.enabled platform) d = .ok others) : ws.usedBy platform d = others := by
  have each := used_eq_ok found
  clear found
  rw [usedBy]
  generalize d.uses = names at each
  induction each with
  | nil => rfl
  | cons one _ ih =>
    rw [List.flatMap_cons, ih, filter_eq_singleton distinct one, List.singleton_append]

end Used

/-! ## What is supplied to a project -/

variable (ws : Workspace) (platform : Platform) (d : ProjectDefinition)

/-- The include directories that a project is given, in the order in which they are searched. -/
def suppliedIncludeDirs : List Path :=
  (ws.usedBy platform d).flatMap (fun other =>
      other.publicPart.includeDirs.map (ws.sourceDir other).join) ++
    d.includeDirs.map (ws.sourceDir d).join ++
    (d.additionsFor platform).elim [] (fun additions =>
      additions.includeDirs.map (ws.sourceDir d).join) ++
    match d.kind, d.testAggregate with
    | .headerOnly, _ => []
    | _, none => []
    | _, some tests => [ws.manifest.workspace.codeDir.join tests.root]

/-- The defines that a project is given, in order. -/
def suppliedDefines : List Define :=
  (ws.usedBy platform d).flatMap (·.publicPart.defines) ++ d.defines ++
    (d.additionsFor platform).elim [] (·.defines)

/-- What a resolved project searches and defines. -/
structure Composed (p : Project) : Prop where
  name : p.name = d.name
  used : ∀ name ∈ d.uses, ∃ other, (ws.enabled platform).filter (·.name == name) = [other]
  includeDirs : p.includeDirs = firstOccurrences Path.same (ws.suppliedIncludeDirs platform d)
  defines : p.defines = firstOccurrences (· == ·) (ws.suppliedDefines platform d)
  distinctIncludeDirs : p.includeDirs.Pairwise fun a b => ¬ a.same b
  distinctDefines : p.defines.Nodup
  /-- Two defines stand in the order in which they are supplied for the first time, also where they
  give one name different values. -/
  order : ∀ a b : Define, [a, b].Sublist p.defines ↔
    b ∈ ws.suppliedDefines platform d ∧
      (ws.suppliedDefines platform d).idxOf a < (ws.suppliedDefines platform d).idxOf b

variable {ws platform d} {h : Host} {configuration : Configuration} {p : Project}

theorem includeDirs_append_testIncludeDirs :
    ws.includeDirs (ws.usedBy platform d) d ((d.additionsFor platform).getD {}) ++
      ws.testIncludeDirs d = ws.suppliedIncludeDirs platform d := by
  rw [suppliedIncludeDirs, includeDirs, testIncludeDirs]
  congr 1
  · cases d.additionsFor platform <;> rfl
  · cases d.kind <;> cases d.testAggregate <;> rfl

theorem defines_eq_suppliedDefines :
    Workspace.defines (ws.usedBy platform d) d ((d.additionsFor platform).getD {}) =
      ws.suppliedDefines platform d := by
  rw [suppliedDefines, Workspace.defines]
  cases d.additionsFor platform <;> rfl

theorem composed_of_resolveProject (distinct : ((ws.enabled platform).map (·.name)).Nodup)
    (resolved : ws.resolveProject h (ws.enabled platform) platform configuration d = .ok p) :
    ws.Composed platform d p := by
  obtain ⟨others, files, found, -, rfl⟩ := exists_of_resolveProject resolved
  have known (name : String) (hname : name ∈ d.uses) :=
    exists_filter_eq_singleton distinct found hname
  obtain rfl := usedBy_eq distinct found
  have places (a b c : Path) (hab : a.same b) (hbc : b.same c) : a.same c :=
    Path.same_iff.2 ((Path.same_iff.1 hab).trans (Path.same_iff.1 hbc))
  have texts (a b c : Define) (hab : a == b) (hbc : b == c) : a == c :=
    beq_iff_eq.2 ((beq_iff_eq.1 hab).trans (beq_iff_eq.1 hbc))
  rw [includeDirs_append_testIncludeDirs, defines_eq_suppliedDefines, keepFirst_eq places,
    keepFirst_eq texts]
  exact
    { name := rfl
      used := known
      includeDirs := rfl
      defines := rfl
      distinctIncludeDirs := (pairwise_firstOccurrences _).imp fun apart => by simp [apart]
      distinctDefines := nodup_firstOccurrences _
      order := fun a b => pair_sublist_firstOccurrences }

/-! ## What does not matter -/

/-- Two workspaces keep their files in the same directories, declare a project in the same way, and
agree on the name, the path and the public part of what it uses. -/
structure AgreeOn (ws other : Workspace) (platform : Platform) (d : ProjectDefinition) : Prop where
  directories : other.manifest.workspace = ws.manifest.workspace
  here : d ∈ ws.enabled platform
  there : d ∈ other.enabled platform
  used : ∀ u ∈ ws.enabled platform, ∀ v ∈ other.enabled platform, u.name ∈ d.uses →
    v.name = u.name → v.path = u.path ∧ v.publicPart = u.publicPart

theorem AgreeOn.flatMap_usedBy {other : Workspace} (agree : ws.AgreeOn other platform d)
    (known : ∀ name ∈ d.uses, ∃ u, (ws.enabled platform).filter (·.name == name) = [u])
    (known' : ∀ name ∈ d.uses, ∃ v, (other.enabled platform).filter (·.name == name) = [v])
    {α : Type} {f g : ProjectDefinition → List α}
    (same : ∀ u v, v.name = u.name → v.path = u.path → v.publicPart = u.publicPart → g v = f u) :
    (other.usedBy platform d).flatMap g = (ws.usedBy platform d).flatMap f := by
  rw [usedBy, usedBy, List.flatMap_assoc, List.flatMap_assoc]
  refine List.flatMap_congr fun name hname => ?_
  obtain ⟨u, hu⟩ := known name hname
  obtain ⟨v, hv⟩ := known' name hname
  have mem : u ∈ (ws.enabled platform).filter (·.name == name) := hu ▸ List.mem_singleton_self u
  have mem' : v ∈ (other.enabled platform).filter (·.name == name) :=
    hv ▸ List.mem_singleton_self v
  rw [List.mem_filter, beq_iff_eq] at mem mem'
  obtain ⟨path, publicPart⟩ :=
    agree.used u mem.1 v mem'.1 (mem.2.symm ▸ hname) (mem'.2.trans mem.2.symm)
  rw [hu, hv, List.flatMap_singleton, List.flatMap_singleton]
  exact same u v (mem'.2.trans mem.2.symm) path publicPart

theorem AgreeOn.supplied_eq {other : Workspace} (agree : ws.AgreeOn other platform d)
    (known : ∀ name ∈ d.uses, ∃ u, (ws.enabled platform).filter (·.name == name) = [u])
    (known' : ∀ name ∈ d.uses, ∃ v, (other.enabled platform).filter (·.name == name) = [v]) :
    other.suppliedIncludeDirs platform d = ws.suppliedIncludeDirs platform d ∧
      other.suppliedDefines platform d = ws.suppliedDefines platform d := by
  have sourceDir (u v : ProjectDefinition) (name : v.name = u.name) (path : v.path = u.path) :
      other.sourceDir v = ws.sourceDir u := by
    rw [Workspace.sourceDir, Workspace.sourceDir, agree.directories,
      ProjectDefinition.relativeSourceDir, ProjectDefinition.relativeSourceDir, name, path]
  constructor
  · rw [suppliedIncludeDirs, suppliedIncludeDirs, agree.directories, sourceDir d d rfl rfl,
      agree.flatMap_usedBy known known' fun u v name path publicPart => by
        rw [sourceDir u v name path, publicPart]]
  · rw [suppliedDefines, suppliedDefines,
      agree.flatMap_usedBy known known' fun u v _ _ publicPart => by rw [publicPart]]

theorem composed_of_resolve {projects : List Project}
    (resolved : ws.resolve h platform configuration = .ok projects) :
    List.Forall₂ (ws.Composed platform) (ws.enabled platform) projects := by
  obtain ⟨well, all⟩ := forall₂_of_resolve resolved
  exact all.imp fun d p one => composed_of_resolveProject well.nodup one

/-- The resolved project of a name is composed for the declaration of that name. -/
theorem composed_of_mem {projects : List Project}
    (resolved : ws.resolve h platform configuration = .ok projects) (hd : d ∈ ws.enabled platform)
    (hp : p ∈ projects) (name : p.name = d.name) : ws.Composed platform d p := by
  obtain ⟨e, he, composed⟩ := exists_of_mem_forall₂ (composed_of_resolve resolved).flip hp
  obtain rfl : e = d := List.inj_on_of_nodup_map (forall₂_of_resolve resolved).1.nodup he hd
    (composed.name.symm.trans name)
  exact composed

end Workspace

/-- The include directories and the defines of a resolved project are the first occurrences of what
it is supplied with, and they do not depend on anything that is declared but the project itself and
what the projects that it uses give to it. -/
theorem composition_of_resolve {ws : Workspace} {h : Host} {platform : Platform}
    {configuration : Configuration} {projects : List Project}
    (resolved : ws.resolve h platform configuration = .ok projects) :
    List.Forall₂ (ws.Composed platform) (ws.enabled platform) projects ∧
    ∀ (other : Workspace) (h' : Host) (configuration' : Configuration) (projects' : List Project),
      other.resolve h' platform configuration' = .ok projects' →
      ∀ d, ws.AgreeOn other platform d →
        ∀ p ∈ projects, ∀ q ∈ projects', p.name = d.name → q.name = d.name →
          q.includeDirs = p.includeDirs ∧ q.defines = p.defines := by
  refine ⟨Workspace.composed_of_resolve resolved, ?_⟩
  intro other h' configuration' projects' resolved' d agree p hp q hq name name'
  have composed := Workspace.composed_of_mem resolved agree.here hp name
  have composed' := Workspace.composed_of_mem resolved' agree.there hq name'
  obtain ⟨includeDirs, defines⟩ := agree.supplied_eq composed.used composed'.used
  constructor
  · rw [composed'.includeDirs, composed.includeDirs, includeDirs]
  · rw [composed'.defines, composed.defines, defines]

/-- A game that uses a library and the headers below it, where `core` uses what it is told to. -/
def gameWorkspace (core : ProjectDefinition) : Workspace :=
  { root := ⟨"/w"⟩
    manifestPath := ⟨"/w/Shipwright.toml"⟩
    manifest :=
      { projects :=
          [{ name := "api", kind := .headerOnly, path := some ⟨"shared/api"⟩
             publicPart := ⟨[⟨"include"⟩], [⟨"MODE", some "api"⟩]⟩ },
            core,
            { name := "game", kind := .executable, sources := [], uses := ["core", "api"]
              includeDirs := [⟨"."⟩, ⟨"../shared/api/include/"⟩]
              defines := [⟨"MODE", some "game"⟩, ⟨"MODE", some "core"⟩]
              additions := [("gcc", { includeDirs := [⟨""⟩], defines := [⟨"UNIX", none⟩] })]
              testAggregate := some ⟨⟨"tests"⟩, "*.c", ⟨"game.c"⟩⟩ }] } }

/-- The library gives its own headers away and uses nothing. -/
def plainCore : ProjectDefinition :=
  { name := "core", kind := .headerOnly
    publicPart := ⟨[⟨"include"⟩], [⟨"MODE", some "core"⟩]⟩ }

/-- The library uses the headers below it, and has sources and private headers. -/
def privateCore : ProjectDefinition :=
  { plainCore with
    kind := .staticLibrary, sources := [], uses := ["api"], includeDirs := [⟨"private"⟩]
    testAggregate := some ⟨⟨"tests"⟩, "*.c", ⟨"core.c"⟩⟩ }

theorem composition_of_resolve_gameWorkspace :
    ∃ projects projects',
      (gameWorkspace plainCore).resolve default .gcc .debug = .ok projects ∧
      (gameWorkspace privateCore).resolve default .gcc .release = .ok projects' ∧
      List.Forall₂ ((gameWorkspace plainCore).Composed .gcc)
        ((gameWorkspace plainCore).enabled .gcc) projects ∧
      ∀ p ∈ projects, ∀ q ∈ projects', p.name = "game" → q.name = "game" →
        q.includeDirs = p.includeDirs ∧ q.defines = p.defines := by
  obtain ⟨projects, resolved⟩ := exists_eq_ok
    (x := (gameWorkspace plainCore).resolve default .gcc .debug) (by decide +kernel)
  obtain ⟨projects', resolved'⟩ := exists_eq_ok
    (x := (gameWorkspace privateCore).resolve default .gcc .release) (by decide +kernel)
  obtain ⟨composed, same⟩ := composition_of_resolve resolved
  refine ⟨projects, projects', resolved, resolved', composed, fun p hp q hq name name' => ?_⟩
  let game := (gameWorkspace plainCore).manifest.projects.getLast (by decide)
  have agree : (gameWorkspace plainCore).AgreeOn (gameWorkspace privateCore) .gcc game :=
    ⟨by decide, by decide, by decide, by decide⟩
  exact same _ default .release projects' resolved' game agree p hp q hq name name'

end BuildPlanner
