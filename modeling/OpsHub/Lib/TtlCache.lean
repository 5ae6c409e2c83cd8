import Mathlib.Data.Nat.Notation
import Mathlib.Tactic.Common

/-!
# Caches with a time to live

An entry of the cache is served until its deadline.  `deadline` is the instant up to
which a key is served, `0` for a key that has no entry; every statement about what the
cache answers is one about `deadline` (`get_isSome_iff`, `get_eq_none_iff`).
-/

/-- A cache: the value and the deadline stored under each key. -/
structure TtlCache (κ ν : Type*) where
  entries : κ → Option (ν × ℕ)

namespace TtlCache

variable {κ ν : Type*}

/-- The cache without entries. -/
def empty : TtlCache κ ν := ⟨fun _ => none⟩

/-- What the cache answers at `now`. -/
def get (c : TtlCache κ ν) (now : ℕ) (k : κ) : Option ν :=
  match c.entries k with
  | some (v, deadline) => if now < deadline then some v else none
  | none => none

/-- The instant up to which `k` is served. -/
def deadline (c : TtlCache κ ν) (k : κ) : ℕ :=
  match c.entries k with
  | some (_, deadline) => deadline
  | none => 0

theorem get_isSome_iff {c : TtlCache κ ν} {now : ℕ} {k : κ} :
    (c.get now k).isSome ↔ now < c.deadline k := by
  unfold get deadline
  split
  · split <;> simp_all
  · simp

theorem get_eq_none_iff {c : TtlCache κ ν} {now : ℕ} {k : κ} :
    c.get now k = none ↔ c.deadline k ≤ now := by
  rw [← Option.not_isSome_iff_eq_none, get_isSome_iff, Nat.not_lt]

/-- What is still served later has been served before. -/
theorem get_of_le {c : TtlCache κ ν} {now now' : ℕ} {k : κ} {v : ν} (h : now ≤ now')
    (hget : c.get now' k = some v) : c.get now k = some v := by
  unfold get at hget ⊢
  split at hget
  · rename_i w deadline hentry
    by_cases hlt : now' < deadline
    · rw [if_pos hlt] at hget
      rw [if_pos (Nat.lt_of_le_of_lt h hlt)]
      exact hget
    · rw [if_neg hlt] at hget
      cases hget
  · cases hget

/-- What is served has been stored. -/
theorem exists_entry {c : TtlCache κ ν} {now : ℕ} {k : κ} {v : ν} (h : c.get now k = some v) :
    ∃ deadline, c.entries k = some (v, deadline) := by
  unfold get at h
  split at h
  · rename_i w deadline hentry
    split at h
    · rw [← Option.some.inj h]
      exact ⟨deadline, hentry⟩
    · cases h
  · cases h

@[simp] theorem get_empty (now : ℕ) (k : κ) : (empty : TtlCache κ ν).get now k = none := rfl

@[simp] theorem deadline_empty (k : κ) : (empty : TtlCache κ ν).deadline k = 0 := rfl

variable [DecidableEq κ]

/-- Store `v` under `k` until `deadline`, in place of what was there. -/
def set (c : TtlCache κ ν) (k : κ) (v : ν) (deadline : ℕ) : TtlCache κ ν :=
  ⟨fun k' => if k' = k then some (v, deadline) else c.entries k'⟩

/-- Remove `k`. -/
def del (c : TtlCache κ ν) (k : κ) : TtlCache κ ν :=
  ⟨fun k' => if k' = k then none else c.entries k'⟩

theorem get_set_self {c : TtlCache κ ν} {now d : ℕ} {k : κ} {v w : ν}
    (h : (c.set k v d).get now k = some w) : w = v := by
  simp only [get, set, if_true] at h
  split at h
  · exact (Option.some.inj h).symm
  · cases h

theorem get_set_ne (c : TtlCache κ ν) {k k' : κ} (h : k' ≠ k) (v : ν) (d now : ℕ) :
    (c.set k v d).get now k' = c.get now k' := by
  simp [get, set, h]

@[simp] theorem get_del_self (c : TtlCache κ ν) (k : κ) (now : ℕ) : (c.del k).get now k = none := by
  simp [get, del]

theorem get_del_ne (c : TtlCache κ ν) {k k' : κ} (h : k' ≠ k) (now : ℕ) :
    (c.del k).get now k' = c.get now k' := by
  simp [get, del, h]

@[simp] theorem deadline_set_self (c : TtlCache κ ν) (k : κ) (v : ν) (d : ℕ) :
    (c.set k v d).deadline k = d := by
  simp [deadline, set]

theorem deadline_set_ne (c : TtlCache κ ν) {k k' : κ} (h : k' ≠ k) (v : ν) (d : ℕ) :
    (c.set k v d).deadline k' = c.deadline k' := by
  simp [deadline, set, h]

@[simp] theorem deadline_del_self (c : TtlCache κ ν) (k : κ) : (c.del k).deadline k = 0 := by
  simp [deadline, del]

theorem deadline_del_ne (c : TtlCache κ ν) {k k' : κ} (h : k' ≠ k) :
    (c.del k).deadline k' = c.deadline k' := by
  simp [deadline, del, h]

end TtlCache
