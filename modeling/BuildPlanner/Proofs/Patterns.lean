import BuildPlanner.Glob.Search
import BuildPlanner.Proofs.Basic

/-!
# Names that patterns spell

What stands for itself in a pattern stands in its text, and a slash ends a component.  So a component
that is looked up by its name is the name of an entry, and no path of several
(`Glob.isComponent_of_plan`).
-/

namespace BuildPlanner.Glob

theorem suffix_of_closing? {cs inside after : List Char} (h : closing? cs = some (inside, after)) :
    after <:+ cs := by
  induction cs generalizing inside with
  | nil => cases h
  | cons c cs ih =>
    rw [closing?.eq_def] at h
    split at h
    · cases h
    · next same =>
      cases same
      cases h
      exact List.suffix_cons _ _
    · next d rest _ same =>
      cases same
      obtain ⟨⟨_, _⟩, found, ⟨⟩⟩ := Option.map_eq_some_iff.1 h
      exact (ih found).trans (List.suffix_cons _ _)

/-- A bracket is no character that stands for itself. -/
theorem of_bracket?_eq_some {cs after : List Char} {token : Token}
    (h : bracket? cs = some (token, after)) : after <:+ cs ∧ ∀ c, token ≠ .char c := by
  unfold bracket? at h
  split at h
  · obtain ⟨⟨_, _⟩, found, ⟨⟩⟩ := Option.map_eq_some_iff.1 h
    exact ⟨(suffix_of_closing? found).trans ((List.suffix_cons _ _).trans (List.suffix_cons _ _)),
      nofun⟩
  · split at h
    · cases h
    · obtain ⟨⟨_, _⟩, found, ⟨⟩⟩ := Option.map_eq_some_iff.1 h
      exact ⟨(suffix_of_closing? found).trans (List.suffix_cons _ _), nofun⟩
  · cases h

/-- What stands for itself stands in the pattern. -/
theorem mem_of_tokensFrom {total : Nat} {previous : Option Char} {cs : List Char}
    {tokens : List Token} {c : Char} (h : tokensFrom total previous cs = .ok tokens)
    (hc : .char c ∈ tokens) : c ∈ cs := by
  fun_induction tokensFrom total previous cs generalizing tokens with
  | case1 =>
    cases h
    cases hc
  | case3 => cases h
  | case4 =>
    cases h
    simp at hc
  | case6 => cases h
  | case7 => cases h
  | case10 => cases h
  | case2 _ _ ih | case8 _ _ _ _ ih | case11 _ _ _ _ _ _ _ _ ih =>
    obtain ⟨rest, read, rfl⟩ := map_eq_ok.1 h
    have later := ih read
    grind
  | case5 _ _ _ _ ih =>
    obtain ⟨rest, read, rfl⟩ := map_eq_ok.1 h
    have later := ih read
    grind
  | case9 _ rest token after found ih =>
    obtain ⟨others, read, rfl⟩ := map_eq_ok.1 h
    obtain ⟨suffix, bracket⟩ := of_bracket?_eq_some found
    obtain same | later := List.mem_cons.1 hc
    · exact absurd same.symm (bracket c)
    · exact List.mem_cons_of_mem _ (suffix.subset (ih read later))

theorem mem_of_literal? {tokens : List Token} {text : List Char} {c : Char}
    (h : literal? tokens = some text) (hc : c ∈ text) : .char c ∈ tokens := by
  fun_induction literal? tokens generalizing text with
  | case1 =>
    cases h
    cases hc
  | case2 d tokens ih =>
    obtain ⟨rest, read, rfl⟩ := Option.map_eq_some_iff.1 h
    obtain rfl | later := List.mem_cons.1 hc
    · exact List.mem_cons_self
    · exact List.mem_cons_of_mem _ (ih read later)
  | case3 => cases h

theorem joinTrees_subset (steps : List (List Token)) : joinTrees steps ⊆ steps := by
  fun_induction joinTrees steps with
  | case1 a b rest _ ih => exact List.subset_cons_of_subset _ ih
  | case2 a b rest _ ih => exact List.cons_subset_cons _ ih
  | case3 => exact List.Subset.refl _

theorem dropEmptyLast_subset (pieces : List (List Char)) : dropEmptyLast pieces ⊆ pieces := by
  unfold dropEmptyLast
  split
  · exact List.dropLast_subset pieces
  · exact List.Subset.refl pieces

theorem notMem_of_mem_pieces {body piece : List Char}
    (h : piece ∈ if body = [] then [[]] else dropEmptyLast (body.splitOn '/')) : '/' ∉ piece := by
  split at h
  · rw [List.mem_singleton.1 h]
    exact List.not_mem_nil
  · exact notMem_of_mem_splitOn (dropEmptyLast_subset _ h)

/-- A component that spells a name spells none with a slash. -/
def IsComponent (step : List Token) : Prop :=
  ∀ text, literal? step = some text → '/' ∉ text

theorem isComponent_of_plan {pattern : List Char} {found : Plan} (h : plan pattern = .ok found) :
    ∀ step ∈ found.steps, IsComponent step := by
  obtain ⟨_, -, h⟩ := bind_eq_ok.1 h
  obtain ⟨steps, read, h⟩ := bind_eq_ok.1 h
  cases h
  intro step hstep text literal slash
  obtain ⟨piece, hpiece, parsed⟩ :=
    exists_of_mem_forall₂ (forall₂_of_mapM_eq_ok read).flip (joinTrees_subset steps hstep)
  exact notMem_of_mem_pieces hpiece (mem_of_tokensFrom parsed (mem_of_literal? literal slash))

end BuildPlanner.Glob
