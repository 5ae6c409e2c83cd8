import Mathlib.Data.List.Basic
import Mathlib.Data.List.Induction
import Mathlib.Data.List.Infix
import Mathlib.Data.List.Lex
import Mathlib.Tactic.Common
import Mathlib.Tactic.Ring

/-!
# Numerals

Decimal numerals as lists of digits, the first one first.

* `value`, `fixed`: the number of a numeral, and the numeral of a number with leading zeros;
* `foldl_lt_iff`, `fixed_lt_iff`: numerals of one length are ordered as their numbers;
* `trunc`, `EndLast`: numerals of any lengths, cut off after some digits, and as texts that end with
  a character that comes after all digits;
* `Misjudged`: where the two orders differ, `endLast_iff_lt_iff`.
-/

namespace Numerals

/-! ### The order of lists -/

/-- Three orders, each one for what the ones before it leave equal. -/
theorem lex_assoc {p q r s t : Prop} : (p ∨ q ∧ r) ∨ (q ∧ s) ∧ t ↔ p ∨ q ∧ (r ∨ s ∧ t) := by
  rw [and_or_left, or_assoc, and_assoc]

section Order

variable {α β : Type*} [LT α] [LT β] {u v u' v' : List α}

theorem append_lt_append_iff [Std.Irrefl (fun a b : α => a < b)] (hlength : u.length = u'.length) :
    u ++ v < u' ++ v' ↔ u < u' ∨ u = u' ∧ v < v' := by
  induction u generalizing u' with
  | nil =>
    obtain rfl : u' = [] := List.eq_nil_of_length_eq_zero hlength.symm
    simp
  | cons a u ih =>
    cases u' with
    | nil => cases hlength
    | cons a' u' =>
      rw [List.cons_append, List.cons_append, List.cons_lt_cons_iff, List.cons_lt_cons_iff,
        ih (Nat.succ.inj hlength), List.cons.injEq, lex_assoc]

theorem map_lt_map_iff {f : α → β} {p : α → Prop}
    (hf : ∀ a b, p a → p b → (f a < f b ↔ a < b)) (hinj : ∀ a b, p a → p b → f a = f b → a = b)
    (hu : ∀ a ∈ u, p a) (hv : ∀ a ∈ v, p a) : u.map f < v.map f ↔ u < v := by
  induction u generalizing v with
  | nil => cases v <;> simp
  | cons a u ih =>
    cases v with
    | nil => simp
    | cons b v =>
      rw [List.forall_mem_cons] at hu hv
      have heq : f a = f b ↔ a = b := ⟨hinj a b hu.1 hv.1, congrArg f⟩
      rw [List.map_cons, List.map_cons, List.cons_lt_cons_iff, List.cons_lt_cons_iff,
        hf a b hu.1 hv.1, heq, ih hu.2 hv.2]

end Order

/-! ### Numbers -/

section Values

variable {u v : List ℕ} {k m n : ℕ}

/-- The number of a numeral. -/
def value (u : List ℕ) : ℕ := u.foldl (fun n d => 10 * n + d) 0

/-- The numeral of a number with `k` digits. -/
def fixed : ℕ → ℕ → List ℕ
  | 0, _ => []
  | k + 1, n => fixed k (n / 10) ++ [n % 10]

@[simp] theorem length_fixed (k n : ℕ) : (fixed k n).length = k := by
  induction k generalizing n with
  | zero => rfl
  | succ k ih => simp [fixed, ih]

theorem lt_of_mem_fixed {d : ℕ} (h : d ∈ fixed k n) : d < 10 := by
  induction k generalizing n with
  | zero => cases h
  | succ k ih =>
    rcases List.mem_append.1 h with hmem | hmem
    · exact ih hmem
    · rw [List.mem_singleton.1 hmem]
      exact Nat.mod_lt n (by decide)

theorem value_concat (u : List ℕ) (d : ℕ) : value (u ++ [d]) = 10 * value u + d := by
  simp [value, List.foldl_append]

theorem value_fixed (h : n < 10 ^ k) : value (fixed k n) = n := by
  induction k generalizing n with
  | zero =>
    rw [Nat.pow_zero, Nat.lt_one_iff] at h
    rw [h]
    rfl
  | succ k ih =>
    have hdiv : n / 10 < 10 ^ k := Nat.div_lt_of_lt_mul (by rwa [Nat.mul_comm, ← Nat.pow_succ])
    rw [fixed, value_concat, ih hdiv]
    omega

theorem foldl_eq (u : List ℕ) (m : ℕ) :
    u.foldl (fun n d => 10 * n + d) m = m * 10 ^ u.length + value u := by
  induction u using List.reverseRecOn with
  | nil => simp [value]
  | append_singleton u d ih =>
    rw [List.foldl_append, ih, value_concat, List.length_append, List.length_singleton,
      Nat.pow_succ, List.foldl_cons, List.foldl_nil]
    ring

theorem value_append (u v : List ℕ) : value (u ++ v) = value u * 10 ^ v.length + value v := by
  rw [value, List.foldl_append, foldl_eq]
  rfl

/-- Zeros in front do not count. -/
theorem value_dropWhile_zero (u : List ℕ) : value (u.dropWhile fun d => d == 0) = value u := by
  induction u with
  | nil => rfl
  | cons d u ih =>
    rw [List.dropWhile_cons]
    split
    · rename_i hd
      obtain rfl : d = 0 := by simpa using hd
      exact ih
    · rfl

theorem value_lt_pow (h : ∀ d ∈ u, d < 10) : value u < 10 ^ u.length := by
  induction u using List.reverseRecOn with
  | nil => exact Nat.one_pos
  | append_singleton u d ih =>
    have hu := ih fun d hd => h d (List.mem_append_left _ hd)
    have hd := h d (by simp)
    rw [value_concat, List.length_append, List.length_singleton, Nat.pow_succ]
    omega

theorem fixed_value (h : ∀ d ∈ u, d < 10) : fixed u.length (value u) = u := by
  induction u using List.reverseRecOn with
  | nil => rfl
  | append_singleton u d ih =>
    have hu := ih fun d hd => h d (List.mem_append_left _ hd)
    have hd := h d (by simp)
    have hdiv : (10 * value u + d) / 10 = value u := by omega
    have hmod : (10 * value u + d) % 10 = d := by omega
    rw [value_concat, List.length_append, List.length_singleton, fixed, hdiv, hmod, hu]

/-- Numerals of one length behind different numbers. -/
theorem foldl_lt_iff (hlength : u.length = v.length) (hu : ∀ d ∈ u, d < 10)
    (hv : ∀ d ∈ v, d < 10) (m n : ℕ) :
    u.foldl (fun n d => 10 * n + d) m < v.foldl (fun n d => 10 * n + d) n ↔
      m < n ∨ m = n ∧ u < v := by
  induction u generalizing v m n with
  | nil =>
    obtain rfl : v = [] := List.eq_nil_of_length_eq_zero hlength.symm
    simp
  | cons d u ih =>
    cases v with
    | nil => cases hlength
    | cons e v =>
      rw [List.forall_mem_cons] at hu hv
      rw [List.foldl_cons, List.foldl_cons, ih (Nat.succ.inj hlength) hu.2 hv.2,
        List.cons_lt_cons_iff]
      have hd := hu.1
      have he := hv.1
      have hlt : 10 * m + d < 10 * n + e ↔ m < n ∨ m = n ∧ d < e := by omega
      have heq : 10 * m + d = 10 * n + e ↔ m = n ∧ d = e := by omega
      rw [hlt, heq, lex_assoc]

theorem fixed_lt_iff (hm : m < 10 ^ k) (hn : n < 10 ^ k) : fixed k m < fixed k n ↔ m < n := by
  have hlength : (fixed k m).length = (fixed k n).length := by
    rw [length_fixed, length_fixed]
  have hvalue := foldl_lt_iff hlength (fun d => lt_of_mem_fixed) (fun d => lt_of_mem_fixed) 0 0
  rw [← value, ← value, value_fixed hm, value_fixed hn] at hvalue
  rw [hvalue]
  simp

end Values

/-! ### Numerals of any lengths -/

section Precision

variable {u v : List ℕ} {k d e : ℕ}

/-- The first `k` digits, with zeros where there are no more. -/
def trunc : ℕ → List ℕ → List ℕ
  | 0, _ => []
  | k + 1, [] => 0 :: trunc k []
  | k + 1, d :: u => d :: trunc k u

/-- The order in which a numeral comes before its beginnings. -/
def EndLast : List ℕ → List ℕ → Prop
  | [], _ => False
  | _ :: _, [] => True
  | d :: u, e :: v => d < e ∨ d = e ∧ EndLast u v

/-- The order `EndLast` is not that of the first `k` digits: the first numeral goes on where the
second has ended; the second goes on, not with zeros; or they part behind `k` digits, at a smaller
one of the first. -/
inductive Misjudged (k : ℕ) : List ℕ → List ℕ → Prop
  | longer {u v : List ℕ} (h : v <+: u) (hne : u ≠ v) : Misjudged k u v
  | more {u v : List ℕ} (h : u <+: v) (hmore : ∃ d ∈ (v.take k).drop u.length, d ≠ 0) :
    Misjudged k u v
  | beyond {w u v : List ℕ} {d e : ℕ} (hk : k ≤ w.length) (hlt : d < e) :
    Misjudged k (w ++ d :: u) (w ++ e :: v)

@[simp] theorem length_trunc (k : ℕ) (u : List ℕ) : (trunc k u).length = k := by
  induction k generalizing u with
  | zero => rfl
  | succ k ih => cases u <;> simp [trunc, ih]

theorem trunc_succ (k : ℕ) (u : List ℕ) : trunc (k + 1) u = u.headD 0 :: trunc k u.tail := by
  cases u <;> rfl

/-- The first `k` digits of a numeral that has as many are its number without the others. -/
theorem value_trunc (hu : ∀ d ∈ u, d < 10) (hk : k ≤ u.length) :
    value (trunc k u) = value u / 10 ^ (u.length - k) := by
  have htake : trunc k u = u.take k := by
    induction k generalizing u with
    | zero => rfl
    | succ k ih =>
      cases u with
      | nil => cases hk
      | cons d u =>
        rw [trunc, List.take_succ_cons,
          ih (fun e he => hu e (List.mem_cons_of_mem d he)) (Nat.le_of_succ_le_succ hk)]
  have hdrop : value (u.drop k) < 10 ^ (u.length - k) := by
    rw [← List.length_drop]
    exact value_lt_pow fun d hd => hu d (List.mem_of_mem_drop hd)
  have hsplit := value_append (u.take k) (u.drop k)
  rw [List.take_append_drop, List.length_drop] at hsplit
  rw [htake, hsplit, Nat.add_comm, Nat.add_mul_div_right _ _ (Nat.pow_pos (by decide)),
    Nat.div_eq_of_lt hdrop, Nat.zero_add]

theorem lt_of_mem_trunc (hu : ∀ d ∈ u, d < 10) (h : d ∈ trunc k u) : d < 10 := by
  induction k generalizing u with
  | zero => cases h
  | succ k ih =>
    cases u with
    | nil =>
      rcases List.mem_cons.1 h with rfl | hmem
      · decide
      · exact ih hu hmem
    | cons e u =>
      rw [List.forall_mem_cons] at hu
      rcases List.mem_cons.1 h with rfl | hmem
      · exact hu.1
      · exact ih hu.2 hmem

/-- Nothing is below zero. -/
theorem not_trunc_lt_trunc_nil (k : ℕ) (u : List ℕ) : ¬ trunc k u < trunc k [] := by
  induction k generalizing u with
  | zero => exact List.not_lt_nil _
  | succ k ih =>
    have hzero : ∀ d, ¬ (d < 0 ∨ d = 0 ∧ trunc k u.tail < trunc k []) := fun d h =>
      h.elim (Nat.not_lt_zero d) fun htail => ih u.tail htail.2
    cases u with
    | nil =>
      rw [trunc, List.cons_lt_cons_iff]
      exact hzero 0
    | cons d u =>
      rw [trunc, trunc, List.cons_lt_cons_iff]
      exact hzero d

theorem trunc_nil_lt_iff : trunc k [] < trunc k v ↔ ∃ d ∈ v.take k, d ≠ 0 := by
  induction k generalizing v with
  | zero => simp [trunc]
  | succ k ih =>
    cases v with
    | nil => simp [trunc]
    | cons e v =>
      rw [trunc, trunc, List.cons_lt_cons_iff, ih, List.take_succ_cons, List.exists_mem_cons_iff]
      by_cases he : e = 0
      · simp [he]
      · simp [he, Nat.pos_of_ne_zero he]

theorem misjudged_nil_left : Misjudged k [] v ↔ ∃ d ∈ v.take k, d ≠ 0 := by
  constructor
  · intro h
    generalize hu : ([] : List ℕ) = u at h
    cases h with
    | longer h hne =>
      subst hu
      exact absurd (List.prefix_nil.1 h).symm hne
    | more h hmore =>
      subst hu
      simpa using hmore
    | beyond => simp at hu
  · intro h
    exact .more List.nil_prefix (by simpa using h)

theorem misjudged_nil_right : Misjudged k (d :: u) [] :=
  .longer List.nil_prefix (List.cons_ne_nil d u)

/-- One digit more. -/
theorem misjudged_cons_iff :
    Misjudged k (d :: u) (e :: v) ↔ k = 0 ∧ d < e ∨ d = e ∧ Misjudged (k - 1) u v := by
  constructor
  · intro h
    generalize hu : d :: u = u' at h
    generalize hv : e :: v = v' at h
    cases h with
    | longer h hne =>
      subst hu hv
      obtain ⟨rfl, htail⟩ := List.cons_prefix_cons.1 h
      exact .inr ⟨rfl, .longer htail fun heq => hne (by rw [heq])⟩
    | more h hmore =>
      subst hu hv
      obtain ⟨rfl, htail⟩ := List.cons_prefix_cons.1 h
      refine .inr ⟨rfl, .more htail ?_⟩
      cases k with
      | zero => simp at hmore
      | succ k => simpa using hmore
    | @beyond w _ _ _ _ hk hlt =>
      cases w with
      | nil =>
        obtain ⟨rfl, -⟩ := List.cons.inj hu
        obtain ⟨rfl, -⟩ := List.cons.inj hv
        exact .inl ⟨Nat.le_zero.1 hk, hlt⟩
      | cons c w =>
        obtain ⟨rfl, rfl⟩ := List.cons.inj hu
        obtain ⟨rfl, rfl⟩ := List.cons.inj hv
        exact .inr ⟨rfl, .beyond (Nat.sub_le_of_le_add hk) hlt⟩
  · rintro (⟨rfl, hlt⟩ | ⟨rfl, h⟩)
    · exact .beyond (w := []) (Nat.zero_le 0) hlt
    · cases h with
      | longer h hne =>
        exact .longer (List.cons_prefix_cons.2 ⟨rfl, h⟩) fun heq => hne (List.cons.inj heq).2
      | more h hmore =>
        refine .more (List.cons_prefix_cons.2 ⟨rfl, h⟩) ?_
        cases k with
        | zero => simp at hmore
        | succ k => simpa using hmore
      | @beyond w _ _ _ _ hk hlt =>
        exact .beyond (w := d :: w) (Nat.le_add_of_sub_le hk) hlt

/-- Numerals of one length, and not beyond `k` digits, are in order. -/
theorem not_misjudged_of_length (hlength : u.length = v.length) (hk : u.length ≤ k) :
    ¬ Misjudged k u v := by
  intro h
  cases h with
  | longer h hne => exact hne (h.eq_of_length hlength.symm).symm
  | more h hmore =>
    obtain ⟨d, hd, -⟩ := hmore
    rw [hlength, List.drop_eq_nil_of_le (List.length_take_le' k v)] at hd
    cases hd
  | beyond hw hlt =>
    rw [List.length_append, List.length_cons] at hk
    omega

/-- **Texts and numbers**: `EndLast` is the order of the first `k` digits exactly if the numerals
are not misjudged. -/
theorem endLast_iff_lt_iff : (EndLast u v ↔ trunc k u < trunc k v) ↔ ¬ Misjudged k u v := by
  induction u generalizing k v with
  | nil =>
    rw [misjudged_nil_left, ← trunc_nil_lt_iff]
    simp [EndLast]
  | cons d u ih =>
    cases v with
    | nil =>
      have hlt := not_trunc_lt_trunc_nil k (d :: u)
      simp [EndLast, misjudged_nil_right, hlt]
    | cons e v =>
      rw [misjudged_cons_iff, EndLast]
      cases k with
      | zero =>
        have hzero : EndLast u v ↔ Misjudged 0 u v := by
          have hnot := @ih v 0
          simp only [trunc, List.not_lt_nil, iff_false] at hnot
          exact not_iff_not.1 hnot
        simp [trunc, hzero]
      | succ k =>
        have hsucc := @ih v k
        rw [trunc, trunc, List.cons_lt_cons_iff, Nat.add_sub_cancel]
        by_cases heq : d = e
        · subst heq
          simp only [Nat.lt_irrefl, true_and, false_or, and_false]
          exact hsucc
        · simp [heq]

end Precision

end Numerals
