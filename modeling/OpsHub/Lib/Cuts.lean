import OpsHub.Lib.Outcome
import Mathlib.Data.Nat.Notation

/-!
# Calls that commit in parts

A call is a list of parts, each of which is committed by itself: a statement of its own, or a
transaction of several statements.  It may fail at any point, and what it leaves behind is what
the parts before that point have committed.

* `Part.points`: the statements of a part, and its commit;
* `leave n parts s`: the state that a call leaves behind which gets past `n` points;
* `leave_cons`: a part is committed as a whole or not at all;
* `writeAll_append`, `writeAll_map`: the statements of a transaction, put together.
-/

namespace Cuts

variable {σ ε : Type*}

/-- A part of a call that is committed by itself. -/
inductive Part (σ ε : Type*)
  | statement (write : σ → Except ε σ)
  | transaction (writes : List (σ → Except ε σ))

/-- The number of points at which a part can fail. -/
def Part.points : Part σ ε → ℕ
  | .statement _ => 1
  | .transaction writes => writes.length + 1

/-- The statements one after the other. -/
def writeAll : List (σ → Except ε σ) → σ → Except ε σ
  | [], s => .ok s
  | write :: writes, s =>
    match write s with
    | .ok s' => writeAll writes s'
    | .error e => .error e

/-- The state that a part leads to, or its failure. -/
def Part.result : Part σ ε → σ → Except ε σ
  | .statement write, s => write s
  | .transaction writes, s => writeAll writes s

/-- The state that a call leaves behind which gets past `n` points. -/
def leave : ℕ → List (Part σ ε) → σ → σ
  | _, [], s => s
  | n, part :: parts, s =>
    if n < part.points then s
    else
      match part.result s with
      | .ok s' => leave (n - part.points) parts s'
      | .error _ => s

variable {n : ℕ} {part : Part σ ε} {parts : List (Part σ ε)} {s s' : σ}

/-- A part that fails leaves no trace. -/
theorem leave_of_lt (h : n < part.points) : leave n (part :: parts) s = s := if_pos h

theorem leave_of_le (h : part.points ≤ n) (hs : part.result s = .ok s') :
    leave n (part :: parts) s = leave (n - part.points) parts s' := by
  rw [leave, if_neg (Nat.not_lt.2 h), hs]

/-- **A part is all or nothing.** -/
theorem leave_cons (n : ℕ) (part : Part σ ε) (parts : List (Part σ ε)) (s : σ) :
    leave n (part :: parts) s = s ∨
      ∃ s', part.points ≤ n ∧ part.result s = .ok s' ∧
        leave n (part :: parts) s = leave (n - part.points) parts s' := by
  by_cases hlt : n < part.points
  · exact Or.inl (leave_of_lt hlt)
  · cases hs : part.result s with
    | error e =>
      left
      rw [leave, if_neg hlt, hs]
    | ok s' => exact Or.inr ⟨s', Nat.le_of_not_lt hlt, rfl, leave_of_le (Nat.le_of_not_lt hlt) hs⟩

theorem writeAll_singleton (write : σ → Except ε σ) (s : σ) : writeAll [write] s = write s := by
  unfold writeAll
  cases write s <;> rfl

theorem writeAll_append (writes writes' : List (σ → Except ε σ)) (s : σ) :
    writeAll (writes ++ writes') s = (writeAll writes s).bind (writeAll writes') := by
  induction writes generalizing s with
  | nil => rfl
  | cons write writes ih =>
    simp only [List.cons_append, writeAll]
    cases write s with
    | error e => rfl
    | ok s₁ => exact ih s₁

/-- Statements on a component of the state: `put` puts the component into place. -/
theorem writeAll_map {τ : Type*} {lift : (τ → Except ε τ) → σ → Except ε σ} {put : τ → σ}
    (h : ∀ write t, lift write (put t) = (write t).map put) (writes : List (τ → Except ε τ))
    (t : τ) : writeAll (writes.map lift) (put t) = (writeAll writes t).map put := by
  induction writes generalizing t with
  | nil => rfl
  | cons write writes ih =>
    simp only [List.map_cons, writeAll, h]
    cases write t with
    | error e => rfl
    | ok t' => exact ih t'

end Cuts
