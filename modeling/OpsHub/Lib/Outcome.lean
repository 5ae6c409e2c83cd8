import Mathlib.Tactic.Common

/-!
# Computations that may throw

Inversion of successful `Except` computations: a sequence succeeds exactly when
both of its parts do (`Except.bind_eq_ok_iff`), a check exactly when its condition
holds (`Outcome.require_eq_ok_iff`), a lookup exactly when there is a value
(`Outcome.orThrow_eq_ok_iff`).  `Outcome.commit` is the state after a transaction:
the new one if it succeeded, the old one if it threw.
-/

universe u v

variable {ε : Type u} {α β : Type v}

theorem Except.bind_eq_ok_iff {x : Except ε α} {f : α → Except ε β} {b : β} :
    (x >>= f) = .ok b ↔ ∃ a, x = .ok a ∧ f a = .ok b := by
  cases x with
  | error e => simp [bind, Except.bind]
  | ok a => simp [bind, Except.bind]

/-- A sequence returns something exactly if both of its parts do. -/
theorem Except.exists_bind_eq_ok_iff {x : Except ε α} {f : α → Except ε β} :
    (∃ b, (x >>= f) = .ok b) ↔ ∃ a, x = .ok a ∧ ∃ b, f a = .ok b := by
  simp only [Except.bind_eq_ok_iff]
  exact ⟨fun ⟨b, a, hx, hf⟩ => ⟨a, hx, b, hf⟩, fun ⟨a, hx, b, hf⟩ => ⟨b, a, hx, hf⟩⟩

@[simp] theorem Except.pure_eq_ok_iff {a b : α} : (pure a : Except ε α) = .ok b ↔ a = b := by
  simp [pure, Except.pure]

theorem Except.map_eq_ok_iff {x : Except ε α} {f : α → β} {b : β} :
    x.map f = .ok b ↔ ∃ a, x = .ok a ∧ f a = b := by
  cases x <;> simp [Except.map]

theorem Except.toOption_eq_some_iff {x : Except ε α} {a : α} :
    x.toOption = some a ↔ x = .ok a := by
  cases x <;> simp [Except.toOption]

/-- A computation that checks, and then returns what does not depend on the checks. -/
theorem Except.bind_bind_pure {β γ : Type v} {x : Except ε α} {f : α → Except ε β} {c : γ} :
    (x >>= fun a => f a >>= fun _ => pure c) =
      (x >>= fun a => f a >>= fun _ => pure a).map fun _ => c := by
  cases x with
  | error e => rfl
  | ok a =>
    show (f a >>= fun _ => pure c) = (f a >>= fun _ => pure a).map fun _ => c
    cases f a <;> rfl

namespace Outcome

/-- The value of an option, or the exception `e`. -/
def orThrow (e : ε) : Option α → Except ε α
  | some a => .ok a
  | none => .error e

@[simp] theorem orThrow_eq_ok_iff {e : ε} {o : Option α} {a : α} :
    orThrow e o = .ok a ↔ o = some a := by
  cases o <;> simp [orThrow]

/-- Go on only if `p` holds, else throw `e`. -/
def require (p : Prop) [Decidable p] (e : ε) : Except ε Unit := if p then .ok () else .error e

@[simp] theorem require_eq_ok_iff {p : Prop} [Decidable p] {e : ε} {u : Unit} :
    require p e = .ok u ↔ p := by
  unfold require
  split <;> simp_all

/-- What is looked up is returned if it passes a check. -/
theorem orThrow_require_eq_ok_iff {α : Type} {p : α → Prop} [DecidablePred p] {e e' : ε}
    {o : Option α} {a : α} :
    (orThrow e o >>= fun a => require (p a) e' >>= fun _ => pure a) = .ok a ↔ o = some a ∧ p a := by
  simp only [Except.bind_eq_ok_iff, orThrow_eq_ok_iff, require_eq_ok_iff, Except.pure_eq_ok_iff]
  constructor
  · rintro ⟨a', ho, -, hp, rfl⟩
    exact ⟨ho, hp⟩
  · rintro ⟨ho, hp⟩
    exact ⟨a, ho, (), hp, rfl⟩

theorem require_congr {p q : Prop} [Decidable p] [Decidable q] (h : p ↔ q) (e : ε) :
    require p e = require q e := if_congr h rfl rfl

/-- The state after a transaction on `s`: a transaction that throws leaves no trace. -/
def commit (s : α) : Except ε α → α
  | .ok s' => s'
  | .error _ => s

@[simp] theorem commit_ok (s s' : α) : commit s (.ok s' : Except ε α) = s' := rfl

@[simp] theorem commit_error (s : α) (e : ε) : commit s (.error e) = s := rfl

/-- What holds of the old state and of every state a successful transaction leads to
holds of the state after the transaction. -/
theorem commit_induction {P : α → Prop} {s : α} {x : Except ε α} (h : P s)
    (hok : ∀ s', x = .ok s' → P s') : P (commit s x) := by
  cases x with
  | error e => exact h
  | ok s' => exact hok s' rfl

end Outcome
