import Mathlib.Algebra.BigOperators.Group.List.Lemmas
import Mathlib.Algebra.GroupWithZero.Nat
import Mathlib.Data.List.Dedup
import Mathlib.Data.List.Sort

/-!
# Groups of rows

`SELECT key, aggregate FROM rows GROUP BY key ORDER BY key`: one row for each key that occurs, with an
aggregate over the rows that have it.

* `group`, `keys`, `query`: the rows of a group, the keys in order, the answer;
* `pairwise_keys`: the keys are strictly increasing;
* `sum_groups`: a sum over the groups is the sum over the rows, for every list of keys that has
  those of all rows;
* `sum_countP_group`: the same for rows that are counted;
* `sum_keys_filter`: what the groups with a property sum up to;
* `total`, `total_query`: counted rows of the groups with a property, in the words of an answer.
-/

namespace GroupBy

variable {α κ β M : Type*} [DecidableEq κ]

/-- The rows with a key. -/
def group (key : α → κ) (rows : List α) (k : κ) : List α := rows.filter fun r => decide (key r = k)

/-- The keys that occur, in order. -/
def keys (le : κ → κ → Prop) [DecidableRel le] (key : α → κ) (rows : List α) : List κ :=
  (rows.map key).dedup.insertionSort le

/-- The answer. -/
def query (le : κ → κ → Prop) [DecidableRel le] (key : α → κ) (aggregate : κ → List α → β)
    (rows : List α) : List β :=
  (keys le key rows).map fun k => aggregate k (group key rows k)

section Keys

variable {le : κ → κ → Prop} [DecidableRel le] {key : α → κ} {rows : List α} {k : κ}

theorem mem_keys : k ∈ keys le key rows ↔ ∃ r ∈ rows, key r = k := by
  rw [keys, List.mem_insertionSort, List.mem_dedup, List.mem_map]

theorem nodup_keys : (keys le key rows).Nodup :=
  (List.perm_insertionSort le _).nodup_iff.2 (List.nodup_dedup _)

/-- The keys are strictly increasing. -/
theorem pairwise_keys [Std.Total le] [IsTrans κ le] :
    (keys le key rows).Pairwise fun k k' => le k k' ∧ k ≠ k' :=
  (List.pairwise_insertionSort le _).and nodup_keys

end Keys

section Sums

variable [AddCommMonoid M] {key : α → κ} {rows : List α} {ks : List κ}

/-- A value at one key. -/
theorem sum_single (m : M) {k : κ} (hnodup : ks.Nodup) (hk : k ∈ ks) :
    (ks.map fun k' => if k = k' then m else 0).sum = m := by
  induction ks with
  | nil => cases hk
  | cons k' ks ih =>
    rw [List.nodup_cons] at hnodup
    rw [List.map_cons, List.sum_cons]
    by_cases heq : k = k'
    · have hrest : (ks.map fun k' => if k = k' then m else 0) = ks.map fun _ => 0 :=
        List.map_congr_left fun x hx => if_neg fun hkx : k = x => hnodup.1 (heq ▸ hkx ▸ hx)
      rw [if_pos heq, hrest, List.sum_map_zero, add_zero]
    · rw [if_neg heq, zero_add]
      exact ih hnodup.2 ((List.mem_cons.1 hk).resolve_left heq)

/-- **Sums over the groups.** -/
theorem sum_groups (f : α → M) (hnodup : ks.Nodup) (hks : ∀ r ∈ rows, key r ∈ ks) :
    (ks.map fun k => ((group key rows k).map f).sum).sum = (rows.map f).sum := by
  induction rows with
  | nil =>
    show (ks.map fun _ => (0 : M)).sum = 0
    exact List.sum_map_zero
  | cons r rows ih =>
    rw [List.forall_mem_cons] at hks
    have hsplit : ∀ k, ((group key (r :: rows) k).map f).sum =
        (if key r = k then f r else 0) + ((group key rows k).map f).sum := by
      intro k
      unfold group
      by_cases hk : key r = k
      · rw [List.filter_cons_of_pos (by simpa using hk), List.map_cons, List.sum_cons, if_pos hk]
      · rw [List.filter_cons_of_neg (by simpa using hk), if_neg hk, zero_add]
    simp only [hsplit]
    rw [List.sum_map_add, sum_single (f r) hnodup hks.1, ih hks.2, List.map_cons, List.sum_cons]

variable {le : κ → κ → Prop} [DecidableRel le]

/-- Sums over the groups with a property. -/
theorem sum_keys_filter (f : α → M) (q : κ → Bool) :
    (((keys le key rows).filter q).map fun k => ((group key rows k).map f).sum).sum =
      ((rows.filter fun r => q (key r)).map f).sum := by
  have hgroups : ∀ k ∈ (keys le key rows).filter q,
      group key rows k = group key (rows.filter fun r => q (key r)) k := by
    intro k hk
    unfold group
    rw [List.filter_filter]
    refine List.filter_congr fun r _ => ?_
    by_cases hr : key r = k
    · rw [hr, (List.mem_filter.1 hk).2, Bool.and_true]
    · simp [hr]
  have hkeys : ∀ r ∈ rows.filter fun r => q (key r), key r ∈ (keys le key rows).filter q := by
    intro r hr
    obtain ⟨hr, hq⟩ := List.mem_filter.1 hr
    exact List.mem_filter.2 ⟨mem_keys.2 ⟨r, hr, rfl⟩, hq⟩
  rw [← sum_groups f (nodup_keys.filter q) hkeys]
  refine congrArg List.sum (List.map_congr_left fun k hk => ?_)
  rw [hgroups k hk]

omit [DecidableEq κ] in
theorem countP_eq_sum (p : α → Bool) (rows : List α) :
    rows.countP p = (rows.map fun r => if p r then 1 else 0).sum := by
  induction rows with
  | nil => rfl
  | cons r rows ih => rw [List.countP_cons, List.map_cons, List.sum_cons, ih, Nat.add_comm]

/-- **Rows counted in the groups** of a list of keys that has those of all rows. -/
theorem sum_countP_group (p : α → Bool) (hnodup : ks.Nodup)
    (hks : ∀ r ∈ rows, key r ∈ ks) :
    (ks.map fun k => (group key rows k).countP p).sum = rows.countP p := by
  simp only [countP_eq_sum p]
  exact sum_groups (fun r => if p r then 1 else 0) hnodup hks

/-- What the rows of an answer with a property add up to. -/
def total (label : β → κ) (number : β → ℕ) (q : κ → Bool) (answer : List β) : ℕ :=
  ((answer.filter fun b => q (label b)).map number).sum

/-- **Rows counted by groups.** -/
theorem total_query {aggregate : κ → List α → β} {label : β → κ} {number : β → ℕ} {p : α → Bool}
    (hlabel : ∀ k g, label (aggregate k g) = k)
    (hnumber : ∀ k g, number (aggregate k g) = g.countP p) (q : κ → Bool) :
    total label number q (query le key aggregate rows) =
      rows.countP fun r => q (key r) && p r := by
  unfold total query
  rw [List.filter_map, List.map_map]
  simp only [Function.comp_def, hlabel, hnumber, countP_eq_sum p]
  rw [sum_keys_filter (fun r => if p r then 1 else 0) q, ← countP_eq_sum, List.countP_filter]
  exact List.countP_congr fun r _ => by rw [Bool.and_comm]

end Sums

end GroupBy
