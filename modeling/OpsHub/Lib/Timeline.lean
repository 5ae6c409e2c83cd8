import OpsHub.Lib.Pool

/-!
# Timelines

A timeline records the states that a system has passed, each with the instant at which it was
recorded.  A position of the timeline never changes its state, so that "computed from a state
not older than position `j`" is a statement that later steps cannot falsify (`Computed.record`).
-/

/-- The recorded states, the latest of which is never missing. -/
structure Timeline (σ : Type*) where
  past : List (ℕ × σ)
  latest : ℕ × σ

namespace Timeline

variable {σ κ ν : Type*}

/-- A timeline with one state. -/
def start (now : ℕ) (s : σ) : Timeline σ := ⟨[], (now, s)⟩

/-- The position of the latest state. -/
def index (t : Timeline σ) : ℕ := t.past.length

/-- The state at a position, with its instant. -/
def get (t : Timeline σ) (j : ℕ) : Option (ℕ × σ) := (t.past ++ [t.latest])[j]?

/-- A new latest state. -/
def record (t : Timeline σ) (now : ℕ) (s : σ) : Timeline σ := ⟨t.past ++ [t.latest], (now, s)⟩

variable {t : Timeline σ} {j : ℕ} {now : ℕ} {s : σ}

@[simp] theorem index_record : (t.record now s).index = t.index + 1 := by
  simp [index, record]

@[simp] theorem get_index : t.get t.index = some t.latest := by
  simp [get, index]

theorem get_record_latest : (t.record now s).get (t.index + 1) = some (now, s) := by
  have hlatest := get_index (t := t.record now s)
  rw [index_record] at hlatest
  exact hlatest

theorem le_index (h : t.get j ≠ none) : j ≤ t.index := by
  unfold get at h
  have hlt : j < (t.past ++ [t.latest]).length := by
    by_contra hge
    exact h (List.getElem?_eq_none (Nat.le_of_not_lt hge))
  rw [List.length_append, List.length_singleton] at hlt
  exact Nat.le_of_lt_succ hlt

/-- Positions keep their states. -/
theorem get_record {x : ℕ × σ} (h : t.get j = some x) : (t.record now s).get j = some x := by
  unfold get record at *
  rw [List.getElem?_append_left]
  · exact h
  · exact (List.getElem?_eq_some_iff.1 h).1

/-- The positions after a new state has been recorded. -/
theorem get_record_cases {x : ℕ × σ} (h : (t.record now s).get j = some x) :
    t.get j = some x ∨ (j = t.index + 1 ∧ x = (now, s)) := by
  rcases Pool.get_append_cases h with ⟨hj, hx⟩ | hold
  · rw [record, List.length_append, List.length_singleton] at hj
    exact Or.inr ⟨hj, hx⟩
  · exact Or.inl hold

/-- The value for `k` has been computed from the state at position `j`. -/
def Computed (compute : σ → ℕ → κ → ν) (t : Timeline σ) (j : ℕ) (k : κ) (v : ν) : Prop :=
  ∃ now s, t.get j = some (now, s) ∧ v = compute s now k

theorem Computed.record {compute : σ → ℕ → κ → ν} {k : κ} {v : ν}
    (h : Computed compute t j k v) : Computed compute (t.record now s) j k v := by
  obtain ⟨now₁, s₁, hget, hv⟩ := h
  exact ⟨now₁, s₁, get_record hget, hv⟩

end Timeline
