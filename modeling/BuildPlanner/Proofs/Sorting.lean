import BuildPlanner.Path.Order
import BuildPlanner.Proofs.Basic

/-!
# Sorted paths

Sorted paths are in the order of their texts, and the first of neighbours that name the same place
is kept.  Another spelling of a place that stands elsewhere in that order is kept too: so no place
is repeated exactly where no different path comes between two spellings of one (`Path.Parted`).

Two paths without backslashes that may stand before each other have one text, so the sorted list is
the same in whatever order and however often such paths are given.  Nor does the spelling of a place
that is kept depend on that: it is the first of neighbours in the order of the texts, and leaving
out what is there again in one spelling changes no neighbours (`Path.dropRepeats_dedup`).

* `Path.dropRepeats_eq_destutter`: the repeats that are dropped are those beside each other.
* `Path.distinct_dropRepeats_iff`: which repeats are left in any list.
* `Path.sublist_numbered_iff`: what stands in which order after sorting.
* `Path.distinct_sort_iff`: which repeats are left in sorted paths.
* `Path.sort_eq_of_mem_iff`: paths are sorted into one list for each set of them.
-/

namespace BuildPlanner.Path

/-! ## Repeats beside each other -/

theorem cons_dropRepeatsOf (previous : Path) (paths : List Path) :
    previous :: dropRepeatsOf previous paths =
      paths.destutter' (fun p q => ¬ p.same q = true) previous := by
  induction paths generalizing previous with
  | nil => rfl
  | cons p rest ih =>
    rw [dropRepeatsOf, List.destutter'_cons]
    by_cases same : previous.same p = true
    · rw [if_pos same, if_neg (not_not_intro same), ih]
    · rw [if_neg same, if_pos same, ih]

theorem dropRepeats_eq_destutter (paths : List Path) :
    dropRepeats paths = paths.destutter fun p q => ¬ p.same q = true := by
  cases paths with
  | nil => rfl
  | cons p rest => rw [dropRepeats, cons_dropRepeatsOf, List.destutter_cons']

theorem cons_dropRepeatsOf_sublist (previous : Path) (paths : List Path) :
    (previous :: dropRepeatsOf previous paths).Sublist (previous :: paths) := by
  rw [cons_dropRepeatsOf]
  exact List.destutter'_sublist _ _ _

theorem dropRepeats_sublist (paths : List Path) : (dropRepeats paths).Sublist paths := by
  rw [dropRepeats_eq_destutter]
  exact List.destutter_sublist _ paths

theorem dropRepeats_idem (paths : List Path) :
    dropRepeats (dropRepeats paths) = dropRepeats paths := by
  simp only [dropRepeats_eq_destutter, List.destutter_idem]

theorem exists_same_of_mem_dropRepeatsOf (previous : Path) {p : Path}
    {paths : List Path} (hp : p ∈ paths) :
    previous.same p = true ∨ ∃ q ∈ dropRepeatsOf previous paths, q.same p = true := by
  induction paths generalizing previous with
  | nil => cases hp
  | cons first rest ih =>
    rw [dropRepeatsOf]
    split
    · next repeated =>
      obtain rfl | hp := List.mem_cons.1 hp
      · exact .inl repeated
      · exact ih previous hp
    · right
      obtain rfl | hp := List.mem_cons.1 hp
      · exact ⟨p, List.mem_cons_self, same_refl p⟩
      · obtain same | ⟨q, hq, same⟩ := ih first hp
        · exact ⟨first, List.mem_cons_self, same⟩
        · exact ⟨q, List.mem_cons_of_mem _ hq, same⟩

/-- What is left out is there in another spelling. -/
theorem exists_same_of_mem_dropRepeats {p : Path} {paths : List Path} (hp : p ∈ paths) :
    ∃ q ∈ dropRepeats paths, q.same p = true := by
  cases paths with
  | nil => cases hp
  | cons first rest =>
    rw [dropRepeats]
    obtain rfl | hp := List.mem_cons.1 hp
    · exact ⟨p, List.mem_cons_self, same_refl p⟩
    · obtain same | ⟨q, hq, same⟩ := exists_same_of_mem_dropRepeatsOf first hp
      · exact ⟨first, List.mem_cons_self, same⟩
      · exact ⟨q, List.mem_cons_of_mem _ hq, same⟩

/-! ## What is sorted -/

theorem pairwise_mergeSort (paths : List Path) :
    (paths.mergeSort keyLE).Pairwise fun p q => keyLE p q = true :=
  List.pairwise_mergeSort keyLE_trans keyLE_total paths

/-- Of paths that are in order already only repeats are dropped. -/
theorem sort_of_pairwise {paths : List Path}
    (sorted : paths.Pairwise fun p q => keyLE p q = true) : sort paths = dropRepeats paths := by
  rw [sort, List.mergeSort_of_pairwise sorted]

theorem pairwise_sort (paths : List Path) :
    (sort paths).Pairwise fun p q => keyLE p q = true :=
  (pairwise_mergeSort paths).sublist (dropRepeats_sublist _)

theorem sort_sort (paths : List Path) : sort (sort paths) = sort paths := by
  rw [sort_of_pairwise (pairwise_sort paths), sort, dropRepeats_idem]

theorem sort_subset (paths : List Path) : sort paths ⊆ paths :=
  fun _ hp => List.mem_mergeSort.1 ((dropRepeats_sublist _).subset hp)

theorem exists_same_of_mem_sort {p : Path} {paths : List Path} (hp : p ∈ paths) :
    ∃ q ∈ sort paths, q.same p = true :=
  exists_same_of_mem_dropRepeats (List.mem_mergeSort.2 hp)

theorem sort_eq_nil_iff {paths : List Path} : sort paths = [] ↔ paths = [] := by
  rw [sort, dropRepeats_eq_destutter, List.destutter_eq_nil,
    ← List.length_eq_zero_iff, List.length_mergeSort, List.length_eq_zero_iff]

/-! ## Repeats that are left -/

/-- No place is repeated. -/
def Distinct (paths : List Path) : Prop :=
  paths.Pairwise fun p q => ¬ p.same q = true

/-- No different path comes between two that name the same place. -/
def Together (paths : List Path) : Prop :=
  ∀ p q r, [p, q, r].Sublist paths → p.same r = true → p.same q = true

theorem same_trans {p q r : Path} (hpq : p.same q = true) (hqr : q.same r = true) :
    p.same r = true := by
  rw [same_iff] at *
  exact hpq.trans hqr

theorem same_symm {p q : Path} (h : p.same q = true) : q.same p = true := by
  rwa [same_comm]

theorem Together.sublist {paths others : List Path} (h : Together paths)
    (sub : others.Sublist paths) : Together others :=
  fun p q r all => h p q r (all.trans sub)

/-- A path can be left out after one that names the same place. -/
theorem together_cons_cons_of_same {x p : Path} {rest : List Path} (same : x.same p = true) :
    Together (x :: p :: rest) ↔ Together (x :: rest) := by
  constructor
  · exact fun h => h.sublist ((List.sublist_cons_self p rest).cons_cons x)
  · intro h a b c all ends
    obtain others | ⟨others, split, all⟩ := List.sublist_cons_iff.1 all
    · obtain others | ⟨others, split, all⟩ := List.sublist_cons_iff.1 others
      · exact h a b c (others.trans (List.sublist_cons_self x rest)) ends
      · obtain ⟨rfl, rfl⟩ := List.cons.inj split
        exact same_trans (same_symm same) (h x b c (all.cons_cons x) (same_trans same ends))
    · obtain ⟨rfl, rfl⟩ := List.cons.inj split
      obtain others | ⟨others, split, -⟩ := List.sublist_cons_iff.1 all
      · exact h a b c (others.cons_cons a) ends
      · obtain ⟨rfl, -⟩ := List.cons.inj split
        exact same

/-- After a different path, none may name the first place. -/
theorem together_cons_cons_of_ne {x p : Path} {rest : List Path} (ne : ¬ x.same p = true) :
    Together (x :: p :: rest) ↔
      (∀ r ∈ p :: rest, ¬ x.same r = true) ∧ Together (p :: rest) := by
  constructor
  · refine fun h => ⟨fun r hr same => ne ?_, h.sublist (List.sublist_cons_self x _)⟩
    obtain rfl | hr := List.mem_cons.1 hr
    · exact same
    · exact h x p r (((List.singleton_sublist.2 hr).cons_cons p).cons_cons x) same
  · rintro ⟨none, h⟩ a b c all ends
    obtain others | ⟨others, split, all⟩ := List.sublist_cons_iff.1 all
    · exact h a b c others ends
    · obtain ⟨rfl, rfl⟩ := List.cons.inj split
      exact absurd ends (none c (all.mem (List.mem_cons_of_mem b List.mem_cons_self)))

theorem distinct_cons_dropRepeatsOf_iff (previous : Path) (paths : List Path) :
    Distinct (previous :: dropRepeatsOf previous paths) ↔ Together (previous :: paths) := by
  induction paths generalizing previous with
  | nil =>
    refine iff_of_true (List.pairwise_singleton _ previous) fun p q r all => ?_
    exact absurd all.length_le (by simp)
  | cons p rest ih =>
    rw [dropRepeatsOf]
    by_cases same : previous.same p = true
    · rw [if_pos same, ih, together_cons_cons_of_same same]
    · rw [if_neg same, together_cons_cons_of_ne same, ← ih, Distinct, List.pairwise_cons]
      refine and_congr_left fun _ => ⟨fun none r hr back => ?_, fun none r hr => ?_⟩
      -- Whatever is dropped names the place of a path that is kept.
      · obtain rfl | hr := List.mem_cons.1 hr
        · exact same back
        obtain other | ⟨q, hq, other⟩ := exists_same_of_mem_dropRepeatsOf p hr
        · exact same (same_trans back (same_symm other))
        · exact none q (List.mem_cons_of_mem p hq) (same_trans back (same_symm other))
      · exact none r ((cons_dropRepeatsOf_sublist p rest).subset hr)

/-- Repeats are left exactly where a different path comes between them. -/
theorem distinct_dropRepeats_iff (paths : List Path) :
    Distinct (dropRepeats paths) ↔ Together paths := by
  cases paths with
  | nil =>
    refine iff_of_true List.Pairwise.nil fun p q r all => ?_
    exact absurd all.length_le (by simp)
  | cons p rest => exact distinct_cons_dropRepeatsOf_iff p rest

/-! ## What comes between -/

/-- A path comes before another when they are sorted: its text does, or their texts are read as the
same and it is given first. -/
def Precedes (a b : Path × Nat) : Prop :=
  a.1.sortKey < b.1.sortKey ∨ a.1.sortKey = b.1.sortKey ∧ a.2 < b.2

/-- The paths in sorted order, with the numbers under which they are given. -/
def numbered (paths : List Path) : List (Path × Nat) :=
  paths.zipIdx.mergeSort (List.zipIdxLE keyLE)

theorem map_fst_numbered (paths : List Path) :
    (numbered paths).map Prod.fst = paths.mergeSort keyLE :=
  List.mergeSort_zipIdx

theorem mem_numbered {paths : List Path} {a : Path × Nat} :
    a ∈ numbered paths ↔ a ∈ paths.zipIdx :=
  List.mem_mergeSort

theorem pairwise_numbered (paths : List Path) : (numbered paths).Pairwise Precedes := by
  have sorted := List.pairwise_mergeSort (List.zipIdxLE_trans keyLE_trans)
    (List.zipIdxLE_total keyLE_total) paths.zipIdx
  have numbers : (numbered paths).Pairwise fun a b => a.2 ≠ b.2 :=
    ((pairwise_zipIdx paths).imp Nat.ne_of_lt).perm (List.mergeSort_perm _ _).symm Ne.symm
  refine (sorted.and numbers).imp fun {a b} h => ?_
  obtain ⟨le, ne⟩ := h
  simp only [List.zipIdxLE, keyLE, decide_eq_true_eq] at le
  split at le
  · next key =>
    split at le
    · next back => exact .inr ⟨String.le_antisymm key back, lt_of_le_of_ne (by simpa using le) ne⟩
    · next strict => exact .inl (String.not_le.1 strict)
  · cases le

theorem Precedes.trans {a b c : Path × Nat} (hab : Precedes a b) (hbc : Precedes b c) :
    Precedes a c := by
  unfold Precedes at *
  obtain hab | ⟨hab, first⟩ := hab <;> obtain hbc | ⟨hbc, second⟩ := hbc
  · exact .inl (lt_trans hab hbc)
  · exact .inl (hbc ▸ hab)
  · exact .inl (hab ▸ hbc)
  · exact .inr ⟨hab.trans hbc, first.trans second⟩

theorem Precedes.asymm {a b : Path × Nat} (h : Precedes a b) : ¬ Precedes b a := by
  intro back
  obtain less | ⟨-, less⟩ := h.trans back
  · exact lt_irrefl _ less
  · exact lt_irrefl _ less

instance : Std.Antisymm Precedes :=
  ⟨fun _ _ there back => absurd back there.asymm⟩

/-- Three paths stand in an order after sorting if they are given and precede each other so. -/
theorem sublist_numbered_iff {paths : List Path} {a b c : Path × Nat} :
    [a, b, c].Sublist (numbered paths) ↔
      (a ∈ numbered paths ∧ b ∈ numbered paths ∧ c ∈ numbered paths) ∧
        Precedes a b ∧ Precedes b c := by
  constructor
  · intro all
    have ordered := (pairwise_numbered paths).sublist all
    simp only [List.pairwise_cons, List.mem_cons, forall_eq_or_imp] at ordered
    exact ⟨⟨all.mem (by simp), all.mem (by simp), all.mem (by simp)⟩, ordered.1.1, ordered.2.1.1⟩
  · rintro ⟨⟨ha, hb, hc⟩, hab, hbc⟩
    have ordered : [a, b, c].Pairwise Precedes := by
      simp [hab, hbc, hab.trans hbc]
    have distinct : [a, b, c].Nodup := ordered.imp fun {a b} h => by
      rintro rfl
      exact h.asymm h
    refine List.sublist_of_subperm_of_pairwise (List.subperm_of_subset distinct ?_) ordered
      (pairwise_numbered paths)
    simp [ha, hb, hc]

/-- Two paths that name one place are parted if a different path comes between them. -/
def Parted (paths : List Path) : Prop :=
  ∃ a ∈ paths.zipIdx, ∃ b ∈ paths.zipIdx, ∃ c ∈ paths.zipIdx,
    (Precedes a b ∧ Precedes b c) ∧ a.1.same c.1 = true ∧ ¬ a.1.same b.1 = true

theorem together_mergeSort_iff (paths : List Path) :
    Together (paths.mergeSort keyLE) ↔ ¬ Parted paths := by
  rw [← map_fst_numbered]
  constructor
  · rintro h ⟨a, ha, b, hb, c, hc, order, ends, ne⟩
    have all := sublist_numbered_iff.2
      ⟨⟨mem_numbered.2 ha, mem_numbered.2 hb, mem_numbered.2 hc⟩, order⟩
    exact ne (h _ _ _ (all.map Prod.fst) ends)
  · intro h p q r all ends
    obtain ⟨given, inOrder, spelled⟩ := List.sublist_map_iff.1 all
    obtain ⟨a, others, rfl, rfl, later⟩ := List.map_eq_cons_iff.1 spelled.symm
    obtain ⟨b, others, rfl, rfl, last⟩ := List.map_eq_cons_iff.1 later
    obtain ⟨c, others, rfl, rfl, none⟩ := List.map_eq_cons_iff.1 last
    obtain rfl := List.map_eq_nil_iff.1 none
    obtain ⟨⟨ha, hb, hc⟩, order⟩ := sublist_numbered_iff.1 inOrder
    by_contra ne
    exact h ⟨a, mem_numbered.1 ha, b, mem_numbered.1 hb, c, mem_numbered.1 hc, order, ends, ne⟩

/-- No place is repeated after sorting exactly where no two spellings of one are parted. -/
theorem distinct_sort_iff (paths : List Path) : Distinct (sort paths) ↔ ¬ Parted paths := by
  rw [sort, distinct_dropRepeats_iff, together_mergeSort_iff]

instance (a b : Path × Nat) : Decidable (Precedes a b) :=
  inferInstanceAs (Decidable (_ ∨ _))

instance (paths : List Path) : Decidable (Distinct paths) :=
  inferInstanceAs (Decidable (List.Pairwise _ paths))

instance (paths : List Path) : Decidable (Parted paths) :=
  inferInstanceAs (Decidable (∃ a ∈ paths.zipIdx, _))

/-! ## Paths without backslashes -/

/-- A path that is sorted by its text as it is. -/
def Plain (p : Path) : Prop :=
  '\\' ∉ p.text.toList

instance (p : Path) : Decidable p.Plain :=
  inferInstanceAs (Decidable (¬ _))

theorem Plain.sortKey_eq {p : Path} (plain : p.Plain) : p.sortKey = p.text := by
  have same : (p.text.toList.map fun c => if c = '\\' then '/' else c) = p.text.toList.map id :=
    List.map_congr_left fun c hc => if_neg fun back => plain (by rwa [← back])
  rw [sortKey, same, List.map_id, String.ofList_toList]

theorem Plain.keyLE_iff {p q : Path} (hp : p.Plain) (hq : q.Plain) :
    keyLE p q = true ↔ p.text ≤ q.text := by
  rw [keyLE, decide_eq_true_eq, hp.sortKey_eq, hq.sortKey_eq]

theorem Plain.eq_of_keyLE {p q : Path} (hp : p.Plain) (hq : q.Plain)
    (there : keyLE p q = true) (back : keyLE q p = true) : p = q := by
  rw [hp.keyLE_iff hq] at there
  rw [hq.keyLE_iff hp] at back
  cases p
  cases q
  exact congrArg Path.mk (String.le_antisymm there back)

/-! ## One list for each set of paths -/

/-- In sorted paths, one that is there again is there next. -/
theorem exists_cons_of_mem {p : Path} {rest : List Path} (plain : ∀ q ∈ rest, q.Plain)
    (sorted : (p :: rest).Pairwise fun p q => keyLE p q = true) (again : p ∈ rest) :
    ∃ others, rest = p :: others := by
  cases rest with
  | nil => cases again
  | cons q others =>
    obtain ⟨first, sorted⟩ := List.pairwise_cons.1 sorted
    obtain rfl | later := List.mem_cons.1 again
    · exact ⟨others, rfl⟩
    · have back := (List.pairwise_cons.1 sorted).1 p later
      obtain rfl := (plain p again).eq_of_keyLE (plain q List.mem_cons_self)
        (first q List.mem_cons_self) back
      exact ⟨others, rfl⟩

theorem dropRepeatsOf_cons_cons_self (previous p : Path) (rest : List Path) :
    dropRepeatsOf previous (p :: p :: rest) = dropRepeatsOf previous (p :: rest) := by
  rw [dropRepeatsOf]
  split
  · rfl
  · next other => rw [dropRepeatsOf, if_pos (same_refl p), dropRepeatsOf, if_neg other]

theorem dropRepeatsOf_dedup {paths : List Path} (plain : ∀ p ∈ paths, p.Plain)
    (sorted : paths.Pairwise fun p q => keyLE p q = true) (previous : Path) :
    dropRepeatsOf previous paths.dedup = dropRepeatsOf previous paths := by
  induction paths generalizing previous with
  | nil => rfl
  | cons p rest ih =>
    have others : ∀ q ∈ rest, q.Plain := fun q hq => plain q (List.mem_cons_of_mem p hq)
    replace ih := ih others sorted.of_cons
    by_cases again : p ∈ rest
    · rw [List.dedup_cons_of_mem again, ih]
      -- The path is next, and where two of one spelling stand together one of them is dropped.
      obtain ⟨others, rfl⟩ := exists_cons_of_mem others sorted again
      rw [dropRepeatsOf_cons_cons_self]
    · rw [List.dedup_cons_of_notMem again, dropRepeatsOf, dropRepeatsOf, ih, ih]

/-- What is kept of sorted paths is kept of them without those in one spelling. -/
theorem dropRepeats_dedup {paths : List Path} (plain : ∀ p ∈ paths, p.Plain)
    (sorted : paths.Pairwise fun p q => keyLE p q = true) :
    dropRepeats paths.dedup = dropRepeats paths := by
  induction paths with
  | nil => rfl
  | cons p rest ih =>
    have others : ∀ q ∈ rest, q.Plain := fun q hq => plain q (List.mem_cons_of_mem p hq)
    by_cases again : p ∈ rest
    · rw [List.dedup_cons_of_mem again, ih others sorted.of_cons]
      obtain ⟨others, rfl⟩ := exists_cons_of_mem others sorted again
      rw [dropRepeats, dropRepeats, dropRepeatsOf, if_pos (same_refl p)]
    · rw [List.dedup_cons_of_notMem again, dropRepeats, dropRepeats,
        dropRepeatsOf_dedup others sorted.of_cons]

/-- Sorted paths depend on which paths are given, and on nothing else. -/
theorem sort_eq_of_mem_iff {paths others : List Path} (plain : ∀ p ∈ paths, p.Plain)
    (same : ∀ p, p ∈ others ↔ p ∈ paths) : sort others = sort paths := by
  have all : ∀ p ∈ others.mergeSort keyLE, p.Plain := fun p hp =>
    plain p ((same p).1 (List.mem_mergeSort.1 hp))
  have plain : ∀ p ∈ paths.mergeSort keyLE, p.Plain := fun p hp =>
    plain p (List.mem_mergeSort.1 hp)
  rw [sort, sort, ← dropRepeats_dedup all (pairwise_mergeSort others),
    ← dropRepeats_dedup plain (pairwise_mergeSort paths)]
  congr 1
  refine List.Perm.eq_of_pairwise (fun p q hp hq => ?_)
    ((pairwise_mergeSort others).sublist (List.dedup_sublist _))
    ((pairwise_mergeSort paths).sublist (List.dedup_sublist _)) ?_
  · exact (all p (List.mem_dedup.1 hp)).eq_of_keyLE (plain q (List.mem_dedup.1 hq))
  · rw [List.perm_ext_iff_of_nodup (List.nodup_dedup _) (List.nodup_dedup _)]
    simpa only [List.mem_dedup, List.mem_mergeSort] using same

end BuildPlanner.Path
