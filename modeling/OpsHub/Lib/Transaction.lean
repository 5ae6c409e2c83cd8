import OpsHub.Lib.Outcome

/-!
# Transactions with a callback

`transaction callback` runs the callback on the state, and rolls back what it has written
when it throws.

* `Callback`: statements one after the other; what they have written stays in the state
  until the end of the transaction, also when one of them throws;
* `Returns x s a s'`: on `s` the callback `x` returns `a` and leaves `s'`; the `_iff` lemmas
  take a callback that has returned apart;
* `transaction_cases`: a transaction leaves the state as it was, or its callback has
  returned.
-/

/-- A callback on a state of type `σ` that may throw. -/
abbrev Callback (σ ε α : Type) := ExceptT ε (StateM σ) α

namespace Callback

variable {σ ε α β : Type}

/-- A statement that writes. -/
def write (f : σ → σ) : Callback σ ε Unit := modify f

/-- A statement that reads, and may throw. -/
def check (g : σ → Except ε α) : Callback σ ε α := do
  match g (← get) with
  | .ok a => pure a
  | .error e => throw e

/-- The callback returns. -/
def Returns (x : Callback σ ε α) (s : σ) (a : α) (s' : σ) : Prop := x.run.run s = (.ok a, s')

variable {x : Callback σ ε α} {s s' s'' : σ} {a b : α}

theorem returns_pure_iff : Returns (pure b : Callback σ ε α) s a s' ↔ b = a ∧ s = s' := by
  show ((Except.ok b, s) : Except ε α × σ) = (.ok a, s') ↔ _
  rw [Prod.mk.injEq, Except.ok.injEq]

theorem returns_bind_iff {f : α → Callback σ ε β} {c : β} :
    Returns (x >>= f) s c s'' ↔ ∃ a s', Returns x s a s' ∧ Returns (f a) s' c s'' := by
  have hbind : (x >>= f).run.run s = match x.run.run s with
      | (.ok a, s') => (f a).run.run s'
      | (.error e, s') => (.error e, s') := by
    rw [ExceptT.run_bind, StateT.run_bind]
    show (match (x.run.run s).1 with
      | .ok a => (f a).run
      | .error e => pure (.error e) : StateM σ (Except ε β)).run (x.run.run s).2 = _
    rcases x.run.run s with ⟨e | a, s'⟩
    · rfl
    · rfl
  unfold Returns
  rw [hbind]
  rcases x.run.run s with ⟨e | a, s'⟩
  · constructor
    · intro h
      cases h
    · rintro ⟨a, s'', h, -⟩
      cases h
  · constructor
    · intro h
      exact ⟨a, s', rfl, h⟩
    · rintro ⟨a', s'', h, hrest⟩
      cases h
      exact hrest

theorem returns_write_iff {f : σ → σ} {u : Unit} :
    Returns (write f : Callback σ ε Unit) s u s' ↔ f s = s' := by
  show ((Except.ok (), f s) : Except ε Unit × σ) = (.ok u, s') ↔ _
  rw [Prod.mk.injEq, Except.ok.injEq]
  exact and_iff_right (Subsingleton.elim _ _)

theorem returns_check_iff {g : σ → Except ε α} :
    Returns (check g) s a s' ↔ g s = .ok a ∧ s = s' := by
  unfold Returns check
  show ((match g s with
    | .ok a => pure a
    | .error e => throw e : Callback σ ε α).run.run s) = _ ↔ _
  cases g s with
  | error e =>
    constructor
    · intro h
      cases h
    · rintro ⟨h, -⟩
      cases h
  | ok b =>
    rw [Except.ok.injEq]
    exact returns_pure_iff

/-- `db.transaction(callback)`. -/
def transaction (x : Callback σ ε α) (s : σ) : Except ε α × σ :=
  match x.run.run s with
  | (.ok a, s') => (.ok a, s')
  | (.error e, _) => (.error e, s)

/-- **A transaction is all or nothing.** -/
theorem transaction_cases (x : Callback σ ε α) (s : σ) :
    (∃ e, transaction x s = (.error e, s)) ∨
      ∃ a s', Returns x s a s' ∧ transaction x s = (.ok a, s') := by
  unfold transaction Returns
  rcases x.run.run s with ⟨e | a, s'⟩
  · exact Or.inl ⟨e, rfl⟩
  · exact Or.inr ⟨a, s', rfl, rfl⟩

end Callback
