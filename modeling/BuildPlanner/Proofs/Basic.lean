import Mathlib

/-!
# Lists and results

Facts about lists and about results that may fail, which the proofs about descriptions, references
and emission share.
-/

namespace BuildPlanner

/-! ## Results that may fail -/

section Results

variable {ε α β : Type}

theorem bind_eq_ok {x : Except ε α} {f : α → Except ε β} {b : β} :
    x >>= f = .ok b ↔ ∃ a, x = .ok a ∧ f a = .ok b := by
  cases x <;> simp [bind, Except.bind]

theorem bind_eq_error {x : Except ε α} {f : α → Except ε β} {e : ε} :
    x >>= f = .error e ↔ x = .error e ∨ ∃ a, x = .ok a ∧ f a = .error e := by
  cases x <;> simp [bind, Except.bind]

theorem map_eq_ok {x : Except ε α} {f : α → β} {b : β} :
    x.map f = .ok b ↔ ∃ a, x = .ok a ∧ f a = b := by
  cases x <;> simp [Except.map]

theorem mapError_eq_ok {ε' : Type} {x : Except ε α} {f : ε → ε'} {a : α} :
    x.mapError f = .ok a ↔ x = .ok a := by
  cases x <;> simp [Except.mapError]

theorem mapError_bind {ε' : Type} (g : ε → ε') (x : Except ε α) (f : α → Except ε β) :
    (x >>= f).mapError g = x.mapError g >>= fun a => (f a).mapError g := by
  cases x <;> rfl

theorem mapError_mapM {ε' : Type} (g : ε → ε') (f : α → Except ε β) (xs : List α) :
    (xs.mapM f).mapError g = xs.mapM fun x => (f x).mapError g := by
  induction xs with
  | nil => rfl
  | cons x xs ih =>
    rw [List.mapM_cons, List.mapM_cons, mapError_bind, ← ih]
    congr 1
    funext y
    rw [mapError_bind]
    rfl

theorem mapM_congr {f g : α → Except ε β} {xs : List α} (same : ∀ x ∈ xs, f x = g x) :
    xs.mapM f = xs.mapM g := by
  induction xs with
  | nil => rfl
  | cons x xs ih =>
    obtain ⟨first, others⟩ := List.forall_mem_cons.1 same
    rw [List.mapM_cons, List.mapM_cons, first, ih others]

theorem exists_eq_ok {x : Except ε α} (h : x.toOption.isSome) : ∃ a, x = .ok a := by
  cases x with
  | ok a => exact ⟨a, rfl⟩
  | error e => cases h

theorem exists_eq_error {x : Except ε α} (h : x.toOption.isNone) : ∃ e, x = .error e := by
  cases x with
  | ok a => cases h
  | error e => exact ⟨e, rfl⟩

theorem forall₂_of_mapM_eq_ok {f : α → Except ε β} {xs : List α} {ys : List β}
    (h : xs.mapM f = .ok ys) : List.Forall₂ (fun x y => f x = .ok y) xs ys := by
  induction xs generalizing ys with
  | nil =>
    cases h
    exact .nil
  | cons x xs ih =>
    rw [List.mapM_cons] at h
    obtain ⟨y, first, h⟩ := bind_eq_ok.1 h
    obtain ⟨rest, others, same⟩ := bind_eq_ok.1 h
    cases same
    exact .cons first (ih others)

theorem exists_of_mapM_eq_error {f : α → Except ε β} {xs : List α} {e : ε}
    (h : xs.mapM f = .error e) : ∃ x ∈ xs, f x = .error e := by
  induction xs with
  | nil => cases h
  | cons x xs ih =>
    rw [List.mapM_cons] at h
    obtain failed | ⟨y, -, h⟩ := bind_eq_error.1 h
    · exact ⟨x, List.mem_cons_self, failed⟩
    obtain failed | ⟨ys, -, h⟩ := bind_eq_error.1 h
    · obtain ⟨x, hx, failed⟩ := ih failed
      exact ⟨x, List.mem_cons_of_mem _ hx, failed⟩
    · cases h

end Results

/-! ## Runs of a list -/

section Runs

variable {α : Type} {p : α → Bool} {run rest : List α} {c : α}

theorem takeWhile_run (h : ∀ d ∈ run, p d) (stop : ∀ d ∈ rest.head?, p d = false) :
    (run ++ rest).takeWhile p = run := by
  rw [List.takeWhile_append_of_pos h]
  cases rest with
  | nil => simp
  | cons d rest =>
    have stop : p d = false := stop d rfl
    rw [List.takeWhile_cons_of_neg (by simp [stop]), List.append_nil]

theorem dropWhile_run (h : ∀ d ∈ run, p d) (stop : ∀ d ∈ rest.head?, p d = false) :
    (run ++ rest).dropWhile p = rest := by
  rw [List.dropWhile_append_of_pos h]
  cases rest with
  | nil => rfl
  | cons d rest =>
    have stop : p d = false := stop d rfl
    rw [List.dropWhile_cons_of_neg (by simp [stop])]

theorem takeWhile_run_cons (rest : List α) (h : ∀ d ∈ run, p d) (stop : p c = false) :
    (run ++ c :: rest).takeWhile p = run :=
  takeWhile_run h (by simpa using stop)

theorem dropWhile_run_cons (rest : List α) (h : ∀ d ∈ run, p d) (stop : p c = false) :
    (run ++ c :: rest).dropWhile p = c :: rest :=
  dropWhile_run h (by simpa using stop)

end Runs

/-! ## Lists that are cut or looked up -/

theorem notMem_of_mem_splitOn {a : Char} {text piece : List Char} (h : piece ∈ text.splitOn a) :
    a ∉ piece := by
  induction text generalizing piece with
  | nil =>
    rw [List.splitOn_nil, List.mem_singleton] at h
    rw [h]
    exact List.not_mem_nil
  | cons c rest ih =>
    rw [List.splitOn_cons_eq_if_modifyHead] at h
    split at h
    · obtain rfl | h := List.mem_cons.1 h
      · exact List.not_mem_nil
      · exact ih h
    · next other =>
      cases pieces : rest.splitOn a with
      | nil => exact absurd pieces (List.splitOn_ne_nil a rest)
      | cons first others =>
        rw [pieces, List.modifyHead_cons] at h
        obtain rfl | h := List.mem_cons.1 h
        · rw [List.mem_cons, not_or]
          exact ⟨fun same => other (beq_iff_eq.2 same.symm), ih (pieces ▸ List.mem_cons_self)⟩
        · exact ih (pieces ▸ List.mem_cons_of_mem _ h)

theorem mem_of_mem_splitOn {a c : Char} {text piece : List Char} (h : piece ∈ text.splitOn a)
    (hc : c ∈ piece) : c ∈ text := by
  induction text generalizing piece with
  | nil =>
    rw [List.splitOn_nil, List.mem_singleton] at h
    rwa [h] at hc
  | cons d rest ih =>
    rw [List.splitOn_cons_eq_if_modifyHead] at h
    split at h
    · obtain rfl | h := List.mem_cons.1 h
      · cases hc
      · exact List.mem_cons_of_mem _ (ih h hc)
    · cases pieces : rest.splitOn a with
      | nil => exact absurd pieces (List.splitOn_ne_nil a rest)
      | cons first others =>
        rw [pieces, List.modifyHead_cons] at h
        obtain rfl | h := List.mem_cons.1 h
        · obtain rfl | hc := List.mem_cons.1 hc
          · exact List.mem_cons_self
          · exact List.mem_cons_of_mem _ (ih (pieces ▸ List.mem_cons_self) hc)
        · exact List.mem_cons_of_mem _ (ih (pieces ▸ List.mem_cons_of_mem _ h) hc)

/-- What holds of the separator and of the lists, and of two lists together, holds of all. -/
theorem intercalate_closed {α : Type} {P : List α → Prop} {separator : List α} (empty : P [])
    (append : ∀ a b, P a → P b → P (a ++ b)) (between : P separator) {lists : List (List α)}
    (h : ∀ list ∈ lists, P list) : P (separator.intercalate lists) := by
  induction lists with
  | nil => exact empty
  | cons first lists ih =>
    have ih := ih fun list hlist => h list (List.mem_cons_of_mem _ hlist)
    cases lists with
    | nil => simpa using h first List.mem_cons_self
    | cons second lists =>
      rw [List.intercalate_cons_cons]
      exact append _ _ (append _ _ (h first List.mem_cons_self) between) ih

theorem lookup_eq_some_of_mem {α β : Type} [BEq α] [LawfulBEq α] {pairs : List (α × β)}
    (distinct : (pairs.map Prod.fst).Nodup) {key : α} {value : β} (h : (key, value) ∈ pairs) :
    pairs.lookup key = some value := by
  induction pairs with
  | nil => cases h
  | cons pair pairs ih =>
    rw [List.map_cons, List.nodup_cons] at distinct
    obtain rfl | h := List.mem_cons.1 h
    · rw [List.lookup_cons, beq_self_eq_true]
    · have other : (key == pair.1) = false := by
        rw [beq_eq_false_iff_ne]
        rintro rfl
        exact distinct.1 (List.mem_map.2 ⟨_, h, rfl⟩)
      rw [List.lookup_cons, other]
      exact ih distinct.2 h

/-- In a list without repeated keys, an element is found by its key. -/
theorem find?_key_of_mem {α β : Type} [BEq β] [LawfulBEq β] {key : α → β} {items : List α}
    (distinct : (items.map key).Nodup) {x : α} (h : x ∈ items) :
    items.find? (fun y => key y == key x) = some x := by
  cases found : items.find? fun y => key y == key x with
  | none => exact absurd (beq_self_eq_true (key x)) (List.find?_eq_none.1 found x h)
  | some y =>
    have same : key y = key x := by simpa using List.find?_some found
    exact congrArg some
      (List.inj_on_of_nodup_map distinct (List.mem_of_find?_eq_some found) h same)

/-! ## Lists that are read -/

theorem mapM_eq_some {α β : Type} {f : α → Option β} {g : α → β} {xs : List α}
    (h : ∀ x ∈ xs, f x = some (g x)) : xs.mapM f = some (xs.map g) := by
  induction xs with
  | nil => rfl
  | cons x xs ih =>
    rw [List.mapM_cons, h x List.mem_cons_self, ih fun y hy => h y (List.mem_cons_of_mem _ hy)]
    rfl

theorem forall₂_filterMap {α β : Type} {p : α → Bool} {f : α → Option β} {R : α → β → Prop}
    {xs : List α} (kept : ∀ x ∈ xs, p x = true → ∃ y, f x = some y ∧ R x y)
    (dropped : ∀ x ∈ xs, p x = false → f x = none) :
    List.Forall₂ R (xs.filter p) (xs.filterMap f) := by
  induction xs with
  | nil => exact .nil
  | cons x xs ih =>
    have ih := ih (fun y hy => kept y (List.mem_cons_of_mem _ hy))
      (fun y hy => dropped y (List.mem_cons_of_mem _ hy))
    cases keep : p x with
    | false =>
      rw [List.filter_cons_of_neg (by simp [keep]),
        List.filterMap_cons_none (dropped x List.mem_cons_self keep)]
      exact ih
    | true =>
      obtain ⟨y, found, related⟩ := kept x List.mem_cons_self keep
      rw [List.filter_cons_of_pos keep, List.filterMap_cons_some found]
      exact .cons related ih

theorem map_eq_map_of_forall₂ {α β γ : Type} {R : α → β → Prop} {xs : List α} {ys : List β}
    {f : α → γ} {g : β → γ} (h : List.Forall₂ R xs ys) (same : ∀ x y, R x y → f x = g y) :
    xs.map f = ys.map g := by
  rw [← List.forall₂_eq_eq_eq, List.forall₂_map_left_iff, List.forall₂_map_right_iff]
  exact h.imp same

theorem exists_of_mem_forall₂ {α β : Type} {R : α → β → Prop} {xs : List α} {ys : List β}
    (h : List.Forall₂ R xs ys) {x : α} (hx : x ∈ xs) : ∃ y ∈ ys, R x y := by
  induction h with
  | nil => cases hx
  | cons first _ ih =>
    obtain rfl | hx := List.mem_cons.1 hx
    · exact ⟨_, List.mem_cons_self, first⟩
    · obtain ⟨y, hy, related⟩ := ih hx
      exact ⟨y, List.mem_cons_of_mem _ hy, related⟩

/-- A list that is related to a split one is split in the same place. -/
theorem exists_split_of_forall₂ {α β : Type} {R : α → β → Prop} {xs : List α}
    {before after : List β} {y : β} (h : List.Forall₂ R xs (before ++ y :: after)) :
    ∃ before' x after', xs = before' ++ x :: after' ∧ List.Forall₂ R before' before ∧ R x y := by
  have first := List.forall₂_take_append xs before (y :: after) h
  have last := List.forall₂_drop_append xs before (y :: after) h
  obtain ⟨x, rest, related, -, split⟩ := List.forall₂_cons_right_iff.1 last
  exact ⟨_, x, rest, by rw [← split, List.take_append_drop], first, related⟩

theorem mem_flatten_of_forall₂ {α β : Type} {holds : α → β → Prop} {keys : List α}
    {lists : List (List β)}
    (all : List.Forall₂ (fun key list => ∀ x, x ∈ list ↔ holds key x) keys lists) (x : β) :
    x ∈ lists.flatten ↔ ∃ key ∈ keys, holds key x := by
  induction all with
  | nil => simp
  | cons first _ ih =>
    rw [List.flatten_cons, List.mem_append, first, ih, List.exists_mem_cons_iff]

/-- Items are numbered in their order. -/
theorem pairwise_zipIdx {α : Type} (items : List α) :
    items.zipIdx.Pairwise fun a b => a.2 < b.2 := by
  have numbers : (items.zipIdx.map Prod.snd).Pairwise (· < ·) := by
    rw [List.zipIdx_map_snd]
    exact List.pairwise_lt_range' 1
  exact List.pairwise_map.1 numbers

/-- Sorted texts ascend. -/
theorem pairwise_mergeSort_le (texts : List String) :
    (texts.mergeSort fun a b => decide (a ≤ b)).Pairwise (· ≤ ·) := by
  have trans : ∀ a b c : String, decide (a ≤ b) = true → decide (b ≤ c) = true →
      decide (a ≤ c) = true := by simpa using fun a b c => String.le_trans
  have total : ∀ a b : String, (decide (a ≤ b) || decide (b ≤ a)) = true := by
    simpa using String.le_total
  simpa using List.pairwise_mergeSort trans total texts

/-! ## Characters -/

theorem toList_ne_nil {text : String} (h : text ≠ "") : text.toList ≠ [] :=
  fun empty => h (String.toList_eq_nil_iff.1 empty)

theorem exists_cons_of_ne_empty {text : String} (h : text ≠ "") :
    ∃ c rest, text.toList = c :: rest :=
  List.exists_cons_of_ne_nil (toList_ne_nil h)

theorem isDigit_of_mem_repr {n : Nat} {c : Char} (h : c ∈ n.repr.toList) : c.isDigit := by
  rw [Nat.toList_repr] at h
  exact Nat.isDigit_of_mem_toDigits (by decide) (by decide) h

theorem ne_of_holds {p : Char → Bool} {c d : Char} (h : p c) (other : p d = false) : c ≠ d := by
  rintro rfl
  rw [h] at other
  cases other

end BuildPlanner
