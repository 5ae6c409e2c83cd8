import Mathlib.Data.Set.Lattice
import Mathlib.Data.Set.Prod
import Mathlib.Tactic.Common

/-!
# Generic points

A point of a set is generic for a family of sets if every member that contains the point
contains the whole set.  A set with such a point is covered by the family only if one member
covers it, so that a question about all of its points is one about a single point.

* `Generic.subset_iUnion_iff`: the reduction;
* `Generic.prod`: points of products;
* `before`, `exists_generic_before`: instants before a deadline, which have a generic point
  for every finite family of deadlines.
-/

/-- `g` is a point of `s`, and every member of the family with this point contains `s`. -/
structure Generic {α ι : Type*} (s : Set α) (family : ι → Set α) (g : α) : Prop where
  mem : g ∈ s
  subset : ∀ i, g ∈ family i → s ⊆ family i

namespace Generic

variable {α β ι : Type*} {s : Set α} {family : ι → Set α} {g : α}

/-- A set with a generic point is covered by the family if one member has that point. -/
theorem subset_iUnion_iff (h : Generic s family g) : s ⊆ ⋃ i, family i ↔ ∃ i, g ∈ family i := by
  constructor
  · intro hcover
    exact Set.mem_iUnion.1 (hcover h.mem)
  · rintro ⟨i, hi⟩ x hx
    exact Set.mem_iUnion.2 ⟨i, h.subset i hi hx⟩

/-- The pair of two generic points. -/
theorem prod {t : Set β} {family' : ι → Set β} {g' : β} (h : Generic s family g)
    (h' : Generic t family' g') : Generic (s ×ˢ t) (fun i => family i ×ˢ family' i) (g, g') := by
  refine ⟨⟨h.mem, h'.mem⟩, fun i hi => ?_⟩
  exact Set.prod_mono (h.subset i hi.1) (h'.subset i hi.2)

/-- The instants before a deadline, all instants if there is none. -/
def before (deadline : Option ℕ) : Set ℕ := {t | ∀ d ∈ deadline, t < d}

theorem not_mem_before_iff {t : ℕ} {deadline : Option ℕ} :
    t ∉ before deadline ↔ ∃ d ∈ deadline, d ≤ t := by
  simp only [before, Set.mem_ofPred_eq, not_forall, Nat.not_lt, exists_prop]

theorem before_subset_iff {deadline deadline' : Option ℕ} :
    before deadline ⊆ before deadline' ↔ ∀ d' ∈ deadline', ∃ d ∈ deadline, d ≤ d' := by
  constructor
  · intro h d' hd'
    by_contra hnone
    have hmem : d' ∈ before deadline := fun d hd =>
      Nat.lt_of_not_le fun hle => hnone ⟨d, hd, hle⟩
    exact Nat.lt_irrefl d' (h hmem d' hd')
  · intro h t ht d' hd'
    obtain ⟨d, hd, hle⟩ := h d' hd'
    exact Nat.lt_of_lt_of_le (ht d hd) hle

/-- There is an instant before the deadline, and not before `now`, that is before those
deadlines of the list only that come no earlier. -/
theorem exists_generic_before {now : ℕ} {deadline : Option ℕ} (hnow : now ∈ before deadline)
    (deadlines : List (Option ℕ)) : ∃ t, now ≤ t ∧ t ∈ before deadline ∧
      ∀ d ∈ deadlines, t ∈ before d → before deadline ⊆ before d := by
  cases deadline with
  | some d =>
    -- the last instant before the deadline
    have hlt : now < d := hnow d rfl
    refine ⟨d - 1, by omega, fun e he => ?_, ?_⟩
    · obtain rfl : d = e := Option.some.inj he
      omega
    · intro d' _ hd' t ht e he
      have hlast : d - 1 < e := hd' e he
      have htd : t < d := ht d rfl
      omega
  | none =>
    -- an instant after all deadlines of the list
    have hbound : ∃ bound, ∀ d ∈ deadlines, ∀ e ∈ d, e ≤ bound := by
      induction deadlines with
      | nil => exact ⟨0, fun d hd => (nomatch hd)⟩
      | cons d rest ih =>
        obtain ⟨bound, hbound⟩ := ih
        refine ⟨max bound (d.getD 0), fun d' hd' e he => ?_⟩
        rcases List.mem_cons.1 hd' with rfl | hd'
        · obtain rfl : d' = some e := he
          exact le_max_right _ _
        · exact (hbound d' hd' e he).trans (le_max_left _ _)
    obtain ⟨bound, hbound⟩ := hbound
    refine ⟨max now bound, le_max_left _ _, fun e he => (nomatch he), ?_⟩
    intro d hd hlate t _ e he
    have hearly : max now bound < e := hlate e he
    have hle : e ≤ bound := hbound d hd e he
    omega

end Generic
