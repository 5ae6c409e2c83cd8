import Mathlib.Data.List.Basic
import Mathlib.Order.Lattice
import Mathlib.Tactic.Common

/-!
# Instants in a sliding window

The window of length `w` at `t` is the half-open interval `(t - w, t]`, written without a
subtraction, so that the instants may be those of any linear order with an addition.

* `Bounded w limit l`: the log `l` has been written in order, and each entry when fewer than
  `limit` earlier ones were in the window;
* `Bounded.count_le`: then no window at all has more than `limit` entries;
* `count_lt_of_left`: what leaves the window makes room.
-/

namespace Windows

variable {τ : Type*} [LinearOrder τ] [Add τ]

/-- `a` is in the window of length `w` at `t`. -/
def Within (w t a : τ) : Prop := a ≤ t ∧ t < a + w

instance (w t a : τ) : Decidable (Within w t a) := inferInstanceAs (Decidable (_ ∧ _))

/-- The entries of a log in the window at `t`. -/
def recent (w t : τ) (l : List τ) : List τ := l.filter (fun a => decide (Within w t a))

/-- How many they are. -/
def count (w t : τ) (l : List τ) : ℕ := (recent w t l).length

/-- A log that gets an entry only when there are fewer than `limit` in the window. -/
inductive Bounded (w : τ) (limit : ℕ) : List τ → Prop
  | nil : Bounded w limit []
  | snoc {l : List τ} {a : τ} (h : Bounded w limit l) (hlast : ∀ x ∈ l, x ≤ a)
      (hroom : count w a l < limit) : Bounded w limit (l ++ [a])

variable {w t t' a o x : τ} {l : List τ} {limit : ℕ}

theorem mem_recent : x ∈ recent w t l ↔ x ∈ l ∧ Within w t x := by
  simp [recent]

theorem recent_append (w t : τ) (l l' : List τ) :
    recent w t (l ++ l') = recent w t l ++ recent w t l' := List.filter_append _ _

theorem recent_eq_nil (h : ∀ x ∈ l, ¬ Within w t x) : recent w t l = [] :=
  List.filter_eq_nil_iff.2 fun x hx => by simpa using h x hx

/-- What is in a later window was in an earlier one that it does not come after. -/
theorem Within.of_le (h : Within w t' x) (ht : t ≤ t') (hx : x ≤ t) : Within w t x :=
  ⟨hx, lt_of_le_of_lt ht h.2⟩

theorem count_snoc (w t : τ) (l : List τ) (a : τ) :
    count w t (l ++ [a]) = count w t l + if Within w t a then 1 else 0 := by
  by_cases ha : Within w t a <;> simp [count, recent, List.filter_append, ha]

/-- The window at a later instant. -/
theorem recent_recent (ht : t ≤ t') (hl : ∀ x ∈ l, x ≤ t) :
    recent w t' (recent w t l) = recent w t' l := by
  rw [recent, recent, List.filter_filter, recent]
  refine List.filter_congr fun x hx => ?_
  by_cases hin : Within w t' x
  · simp [hin, hin.of_le ht (hl x hx)]
  · simp [hin]

/-- With the same entries in the window there is nothing more in it later. -/
theorem count_le_of_le (ht : t ≤ t') (hl : ∀ x ∈ l, x ≤ t) : count w t' l ≤ count w t l := by
  rw [count, ← recent_recent ht hl]
  exact List.length_filter_le _ _

/-- What leaves the window makes room. -/
theorem count_lt_of_left (ht : t ≤ t') (hl : ∀ x ∈ l, x ≤ t) (ho : o ∈ recent w t l)
    (hleft : ¬ Within w t' o) : count w t' l < count w t l := by
  rw [count, ← recent_recent ht hl]
  exact List.length_filter_lt_length_iff_exists.2 ⟨o, ho, by simpa using hleft⟩

theorem count_le_length (w t : τ) (l : List τ) : count w t l ≤ l.length :=
  List.length_filter_le _ _

theorem count_le_of_sublist {l' : List τ} (h : l'.Sublist l) (t : τ) : count w t l' ≤ count w t l :=
  (h.filter _).length_le

/-- **The bound.**  However the window is laid, it has no more than `limit` entries. -/
theorem Bounded.count_le (h : Bounded w limit l) (t : τ) : count w t l ≤ limit := by
  induction h with
  | nil => exact Nat.zero_le limit
  | @snoc l a h hlast hroom ih =>
    rw [count_snoc]
    by_cases ha : Within w t a
    · -- the window at `t` reaches back no further than the one that was seen at `a`
      rw [if_pos ha]
      exact Nat.lt_of_le_of_lt (count_le_of_le ha.1 hlast) hroom
    · rw [if_neg ha]
      exact ih

end Windows
