import Mathlib.Data.List.Count
import Mathlib.Data.List.Sort

/-!
# The oldest entries of a list

`first key n l` is what a query with `ORDER BY key LIMIT n` returns: the `n` entries with the
smallest keys, in the order of their keys.

* `mem_of_mem_first`, `nodup_map_first`: nothing is made up and nothing is repeated;
* `before_of_lt`: an entry with a smaller key comes before;
* `mem_first_or`: an entry that is left out stands behind a full batch of older ones;
* `exists_key_mem_first_iff`: the greatest key is among them exactly if fewer than `n` entries
  have smaller ones.
-/

namespace Oldest

variable {α β : Type*} {key : α → ℕ} {n i : ℕ} {l : List α} {a b : α}

/-- The entries in the order of their keys. -/
def sorted (key : α → ℕ) (l : List α) : List α := l.insertionSort (fun a b => key a ≤ key b)

/-- The `n` entries with the smallest keys. -/
def first (key : α → ℕ) (n : ℕ) (l : List α) : List α := (sorted key l).take n

theorem mem_sorted : a ∈ sorted key l ↔ a ∈ l := List.mem_insertionSort _

theorem pairwise_sorted (key : α → ℕ) (l : List α) :
    (sorted key l).Pairwise (fun a b => key a ≤ key b) := by
  have : Std.Total (fun a b : α => key a ≤ key b) := ⟨fun a b => Nat.le_total (key a) (key b)⟩
  have : IsTrans α (fun a b => key a ≤ key b) := ⟨fun _ _ _ => Nat.le_trans⟩
  exact List.pairwise_insertionSort _ l

theorem mem_of_mem_first (h : a ∈ first key n l) : a ∈ l := mem_sorted.1 (List.mem_of_mem_take h)

/-- What tells the entries of a list apart tells the first ones apart. -/
theorem nodup_map_first (f : α → β) (h : (l.map f).Nodup) : ((first key n l).map f).Nodup := by
  have hsorted : ((sorted key l).map f).Nodup :=
    ((List.perm_insertionSort _ l).map f).nodup_iff.2 h
  exact hsorted.sublist ((List.take_sublist _ _).map f)

/-- In the order of the keys, a smaller key comes before. -/
theorem before_of_lt (key : α → ℕ) (hi : (first key n l)[i]? = some b) (ha : a ∈ l) (hlt : key a < key b) :
    ∃ j, j < i ∧ (first key n l)[j]? = some a := by
  obtain ⟨hin, -⟩ := List.getElem?_eq_some_iff.1 hi
  rw [first, List.length_take] at hin
  have hi' : (sorted key l)[i]? = some b := by
    rw [first, List.getElem?_take_of_lt (by omega)] at hi
    exact hi
  have ha' : a ∈ sorted key l := mem_sorted.2 ha
  obtain ⟨j, hj, hja⟩ := List.mem_iff_getElem.1 ha'
  obtain ⟨hi'', hb'⟩ := List.getElem?_eq_some_iff.1 hi'
  have hji : j < i := by
    -- otherwise `b` would come first, with a key that is not greater
    by_contra hle
    rcases Nat.lt_or_eq_of_le (Nat.le_of_not_lt hle) with hlt' | heq
    · have hkey := List.pairwise_iff_getElem.1 (pairwise_sorted key l) i j hi'' hj hlt'
      rw [hb', hja] at hkey
      omega
    · subst heq
      rw [hb'] at hja
      rw [hja] at hlt
      omega
  refine ⟨j, hji, ?_⟩
  rw [first, List.getElem?_take_of_lt (by omega), List.getElem?_eq_getElem hj, hja]

/-- An entry that is not among the first ones stands behind as many as there may be, none of
which has a greater key. -/
theorem mem_first_or (key : α → ℕ) (n : ℕ) (ha : a ∈ l) :
    a ∈ first key n l ∨
      ((first key n l).length = n ∧ ∀ b ∈ first key n l, key b ≤ key a) := by
  have hsplit : a ∈ (sorted key l).take n ++ (sorted key l).drop n := by
    rw [List.take_append_drop]
    exact mem_sorted.2 ha
  rcases List.mem_append.1 hsplit with htake | hdrop
  · exact Or.inl htake
  · refine Or.inr ⟨?_, fun b hb => ?_⟩
    · have hpos := List.length_pos_of_mem hdrop
      rw [List.length_drop] at hpos
      rw [first, List.length_take]
      omega
    · have hpair := pairwise_sorted key l
      rw [← List.take_append_drop n (sorted key l)] at hpair
      exact (List.pairwise_append.1 hpair).2.2 b hb a hdrop

/-- **The greatest key** is among the first ones exactly if fewer than `n` entries have smaller
ones. -/
theorem exists_key_mem_first_iff (key : α → ℕ) (n : ℕ) (ha : a ∈ l)
    (hmax : ∀ b ∈ l, key b ≤ key a) :
    (∃ b ∈ first key n l, key b = key a) ↔ l.countP (fun b => decide (key b < key a)) < n := by
  have hcount : (sorted key l).countP (fun b => decide (key b < key a)) =
      l.countP (fun b => decide (key b < key a)) :=
    (List.perm_insertionSort _ l).countP_eq _
  rw [← hcount]
  have hsplit := List.take_append_drop n (sorted key l)
  constructor
  · rintro ⟨b, hb, hkey⟩
    -- what is left out has the greatest key as well, and so has `b`
    have hdrop : ∀ c ∈ (sorted key l).drop n, key a ≤ key c := by
      have hpair := pairwise_sorted key l
      rw [← hsplit] at hpair
      exact fun c hc => hkey ▸ (List.pairwise_append.1 hpair).2.2 b hb c hc
    have hnone : ((sorted key l).drop n).countP (fun b => decide (key b < key a)) = 0 := by
      rw [List.countP_eq_zero]
      intro c hc
      simpa using hdrop c hc
    have hfewer : ((sorted key l).take n).countP (fun b => decide (key b < key a)) <
        ((sorted key l).take n).length := by
      rw [List.countP_lt_length_iff]
      exact ⟨b, hb, by simp [hkey]⟩
    rw [← hsplit, List.countP_append, hnone, Nat.add_zero]
    exact hfewer.trans_le (List.length_take_le n _)
  · intro hlt
    by_contra hnone
    have hall : ∀ b ∈ (sorted key l).take n, decide (key b < key a) = true := by
      intro b hb
      refine decide_eq_true (lt_of_le_of_ne (hmax b ?_) fun hkey => hnone ⟨b, hb, hkey⟩)
      exact mem_of_mem_first hb
    have htake : ((sorted key l).take n).countP (fun b => decide (key b < key a)) =
        ((sorted key l).take n).length := List.countP_eq_length.2 hall
    rw [← hsplit, List.countP_append, htake, List.length_take] at hlt
    -- everything has been taken, also `a`
    have hlength : (sorted key l).length ≤ n := by omega
    have hmem : a ∈ first key n l := by
      rw [first, List.take_of_length_le hlength]
      exact mem_sorted.2 ha
    exact hnone ⟨a, hmem, rfl⟩

end Oldest
