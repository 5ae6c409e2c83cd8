import Mathlib.Data.List.Basic
import Mathlib.Data.List.Perm.Basic
import Mathlib.Tactic.Common

/-!
# Filters after a limit

A query with `ORDER BY` and `LIMIT n` returns the first rows of an order.  Where a filter is applied
to what it has returned, it should have been part of the query.

* `IsFirst`: the first `n` of some rows, however the order leaves ties; `IsFirst.mem_or`: what is
  not among them comes after all of them;
* `filter_take_eq_take_filter`: when filter and limit can be exchanged;
* `isFirst_filter_take_iff`: filtering the first `n` rows gives the first `n` of those that match,
  exactly if what passes the filter matches, and all of them pass or nothing that matches comes
  later.
-/

namespace FilterLimit

variable {α : Type*} {r : α → α → Prop} {l rows : List α} {p q : α → Bool} {n : ℕ}

/-- The first `n` rows in the order `r`. -/
def IsFirst (r : α → α → Prop) (n : ℕ) (rows found : List α) : Prop :=
  ∃ all : List α, all.Perm rows ∧ all.Pairwise r ∧ found = all.take n

theorem isFirst_zero_iff {found : List α} (hperm : l.Perm rows) (hsorted : l.Pairwise r) :
    IsFirst r 0 rows found ↔ found = [] := by
  constructor
  · rintro ⟨all, -, -, rfl⟩
    exact List.take_zero
  · rintro rfl
    exact ⟨l, hperm, hsorted, List.take_zero.symm⟩

/-- A row is missing only where the limit is used up by rows before it. -/
theorem IsFirst.mem_or {found : List α} {x : α} (h : IsFirst r n rows found) (hx : x ∈ rows) :
    x ∈ found ∨ found.length = n ∧ ∀ y ∈ found, r y x := by
  obtain ⟨all, hperm, hsorted, rfl⟩ := h
  have hmem : x ∈ all.take n ++ all.drop n := by
    rw [List.take_append_drop]
    exact hperm.mem_iff.2 hx
  rcases List.mem_append.1 hmem with hfirst | hlater
  · exact .inl hfirst
  · rw [← List.take_append_drop n all, List.pairwise_append] at hsorted
    have hlength : n < all.length := by
      by_contra hshort
      rw [List.drop_eq_nil_of_le (Nat.le_of_not_lt hshort)] at hlater
      cases hlater
    exact .inr ⟨List.length_take_of_le (Nat.le_of_lt hlength),
      fun y hy => hsorted.2.2 y hy x hlater⟩

theorem filter_eq_append (p : α → Bool) (n : ℕ) (l : List α) :
    l.filter p = (l.take n).filter p ++ (l.drop n).filter p := by
  rw [← List.filter_append, List.take_append_drop]

/-- If all of the first rows match, or nothing that matches comes later, it makes no difference
which of filter and limit comes first. -/
theorem filter_take_eq_take_filter
    (h : (∀ x ∈ l.take n, p x = true) ∨ ∀ x ∈ l.drop n, p x = false) :
    (l.take n).filter p = (l.filter p).take n := by
  rw [filter_eq_append p n l]
  rcases h with hall | hnone
  · rw [List.filter_eq_self.2 hall]
    rcases Nat.le_total n l.length with hlong | hshort
    · have hlength : (l.take n).length = n := List.length_take_of_le hlong
      rw [List.take_append_of_le_length (Nat.le_of_eq hlength.symm), List.take_take, Nat.min_self]
    · rw [List.drop_eq_nil_of_le hshort, List.filter_nil, List.append_nil, List.take_take,
        Nat.min_self]
  · have hnil : (l.drop n).filter p = [] :=
      List.filter_eq_nil_iff.2 fun x hx => by simp [hnone x hx]
    have hlength : ((l.take n).filter p).length ≤ n :=
      Nat.le_trans (List.length_filter_le _ _) (List.length_take_le n l)
    rw [hnil, List.append_nil, List.take_of_length_le hlength]

/-- **Filtering after the limit**, by a filter that lets everything through that matches. -/
theorem isFirst_filter_take_iff (hperm : l.Perm rows) (hsorted : l.Pairwise r)
    (hpq : ∀ x, p x = true → q x = true) :
    IsFirst r n (rows.filter p) ((l.take n).filter q) ↔
      (∀ x ∈ l.take n, q x = true → p x = true) ∧
        ((∀ x ∈ l.take n, q x = true) ∨ ∀ x ∈ l.drop n, p x = false) := by
  have hsame : (∀ x ∈ l.take n, q x = true → p x = true) →
      (l.take n).filter q = (l.take n).filter p := fun hmatch =>
    List.filter_congr fun x hx => Bool.eq_iff_iff.2 ⟨hmatch x hx, hpq x⟩
  constructor
  · rintro ⟨all, hall, -, hfound⟩
    have hmatch : ∀ x ∈ l.take n, q x = true → p x = true := by
      intro x hx hq
      have hmem : x ∈ (l.take n).filter q := List.mem_filter.2 ⟨hx, hq⟩
      rw [hfound] at hmem
      exact (List.mem_filter.1 (hall.mem_iff.1 (List.mem_of_mem_take hmem))).2
    refine ⟨hmatch, ?_⟩
    -- either nothing is left, or the limit is used up
    have hlength := congrArg List.length hfound
    rw [List.length_take, hall.length_eq, ← (hperm.filter p).length_eq, filter_eq_append p n l,
      List.length_append, ← hsame hmatch] at hlength
    rcases Nat.eq_zero_or_pos ((l.drop n).filter p).length with hnone | hsome
    · right
      intro x hx
      have hnil := List.filter_eq_nil_iff.1 (List.eq_nil_of_length_eq_zero hnone) x hx
      simpa using hnil
    · left
      have hfull : ((l.take n).filter q).length = (l.take n).length := by
        have hle := List.length_filter_le q (l.take n)
        have htake := List.length_take_le n l
        omega
      exact List.length_filter_eq_length_iff.1 hfull
  · rintro ⟨hmatch, hrest⟩
    refine ⟨l.filter p, hperm.filter p, hsorted.filter p, ?_⟩
    rw [hsame hmatch]
    exact filter_take_eq_take_filter (hrest.imp_left fun hall x hx => hmatch x hx (hall x hx))

end FilterLimit
