import Mathlib.Data.List.Basic
import Mathlib.Tactic.Common

/-!
# Pools of calls in flight

A pool is a list of calls; a call keeps its position, and a step of it replaces the entry
at that position.

* `countP_set`: how the number of calls with a property changes;
* `mem_set_of_mem`: the other calls stay;
* `forall_mem_set`, `forall_mem_set_of_others`, `forall_mem_add`: what holds of all calls;
* `get_set_cases`, `get_append_cases`: which call is at a position;
* `running`: the call at a position of a pool in which calls are taken out when they end.
-/

namespace Pool

variable {α : Type*} {l : List α} {i : ℕ} {a b x : α}

/-- Replacing a call changes the number of calls with a property by that call only. -/
theorem countP_set (p : α → Bool) (h : l[i]? = some a) (b : α) :
    (l.set i b).countP p + (if p a then 1 else 0) = l.countP p + (if p b then 1 else 0) := by
  induction l generalizing i with
  | nil => simp at h
  | cons y ys ih =>
    cases i with
    | zero =>
      obtain rfl : y = a := by simpa using h
      simp only [List.set_cons_zero, List.countP_cons]
      omega
    | succ i =>
      have hys := ih (by simpa using h)
      simp only [List.set_cons_succ, List.countP_cons]
      omega

/-- The calls other than the replaced one stay in the pool. -/
theorem mem_set_of_mem (h : l[i]? = some a) (hx : x ∈ l) (hne : x ≠ a) : x ∈ l.set i b := by
  induction l generalizing i with
  | nil => cases hx
  | cons y ys ih =>
    cases i with
    | zero =>
      obtain rfl : y = a := by simpa using h
      rw [List.set_cons_zero]
      exact List.mem_cons_of_mem _ ((List.mem_cons.1 hx).resolve_left hne)
    | succ i =>
      rw [List.set_cons_succ]
      rcases List.mem_cons.1 hx with rfl | hx
      · exact List.mem_cons_self
      · exact List.mem_cons_of_mem _ (ih (by simpa using h) hx)

/-- What holds of all calls holds after one of them has been replaced by a call that has it. -/
theorem forall_mem_set {P : α → Prop} (h : ∀ x ∈ l, P x) (hb : P b) : ∀ x ∈ l.set i b, P x := by
  intro x hx
  rcases List.mem_or_eq_of_mem_set hx with hx | rfl
  · exact h x hx
  · exact hb

/-- So it does after a call that has it has been added. -/
theorem forall_mem_add {P : α → Prop} (h : ∀ x ∈ l, P x) (hb : P b) : ∀ x ∈ l ++ [b], P x :=
  List.forall_mem_append.2 ⟨h, List.forall_mem_singleton.2 hb⟩

/-- The replacement is in the pool. -/
theorem mem_set_self (h : l[i]? = some a) (b : α) : b ∈ l.set i b :=
  List.mem_of_getElem? (List.getElem?_set_self (List.getElem?_eq_some_iff.1 h).1)

/-- The call at a position after one call has been replaced. -/
theorem get_set_cases {j : ℕ} (h : (l.set i b)[j]? = some x) :
    (j = i ∧ x = b) ∨ (j ≠ i ∧ l[j]? = some x) := by
  by_cases hij : j = i
  · subst hij
    rw [List.getElem?_set_self'] at h
    obtain ⟨y, -, rfl⟩ := Option.map_eq_some_iff.1 h
    exact Or.inl ⟨rfl, rfl⟩
  · rw [List.getElem?_set_ne (Ne.symm hij)] at h
    exact Or.inr ⟨hij, h⟩

/-- What holds of the other calls holds after the call at a position has been replaced by one that
has it. -/
theorem forall_mem_set_of_others {P : α → Prop} (h : ∀ x ∈ l.eraseIdx i, P x) (hb : P b) :
    ∀ x ∈ l.set i b, P x := by
  intro x hx
  obtain ⟨j, hj⟩ := List.getElem?_of_mem hx
  rcases get_set_cases hj with ⟨-, rfl⟩ | ⟨hne, hget⟩
  · exact hb
  · exact h x (List.mem_eraseIdx_iff_getElem?.2 ⟨j, hne, hget⟩)

/-- The call at a position after one call has been added. -/
theorem get_append_cases {j : ℕ} (h : (l ++ [b])[j]? = some x) :
    (j = l.length ∧ x = b) ∨ l[j]? = some x := by
  by_cases hlt : j < l.length
  · rw [List.getElem?_append_left hlt] at h
    exact Or.inr h
  · rw [List.getElem?_append_right (Nat.le_of_not_lt hlt), List.getElem?_singleton] at h
    split at h
    · rename_i hzero
      have hj : j = l.length := by omega
      exact Or.inl ⟨hj, (Option.some.inj h).symm⟩
    · cases h

/-- The call at a position, unless it has ended. -/
def running (calls : List (Option α)) (i : ℕ) : Option α := calls[i]?.join

theorem running_lt {calls : List (Option α)} (h : running calls i = some a) : i < calls.length := by
  by_contra hge
  rw [running, List.getElem?_eq_none (Nat.le_of_not_lt hge)] at h
  cases h

theorem mem_of_running {calls : List (Option α)} (h : running calls i = some a) :
    some a ∈ calls := by
  unfold running at h
  exact List.mem_of_getElem? (Option.join_eq_some_iff.1 h)

/-- A call that begins. -/
theorem running_append (calls : List (Option α)) (c : Option α) (i : ℕ) :
    running (calls ++ [c]) i = if i = calls.length then c else running calls i := by
  unfold running
  rcases Nat.lt_trichotomy i calls.length with hlt | rfl | hlt
  · rw [List.getElem?_append_left hlt, if_neg (Nat.ne_of_lt hlt)]
  · simp
  · have hnone : (calls ++ [c])[i]? = none :=
      List.getElem?_eq_none (by rw [List.length_append, List.length_singleton]; omega)
    rw [hnone, List.getElem?_eq_none (Nat.le_of_lt hlt), if_neg (Nat.ne_of_gt hlt)]

/-- A call that goes on. -/
theorem running_set {calls : List (Option α)} (h : running calls i = some a) (c : Option α)
    (j : ℕ) : running (calls.set i c) j = if j = i then c else running calls j := by
  unfold running
  by_cases hij : j = i
  · subst hij
    rw [List.getElem?_set_self (running_lt h), if_pos rfl]
    rfl
  · rw [List.getElem?_set_ne (Ne.symm hij), if_neg hij]

/-- A call that ends. -/
theorem running_set_none (calls : List (Option α)) (i j : ℕ) :
    running (calls.set i none) j = if j = i then none else running calls j := by
  unfold running
  by_cases hij : j = i
  · subst hij
    rw [List.getElem?_set_self', if_pos rfl]
    cases calls[j]? <;> rfl
  · rw [List.getElem?_set_ne (Ne.symm hij), if_neg hij]

end Pool
