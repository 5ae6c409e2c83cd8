import Mathlib.Data.List.Basic
import Mathlib.Tactic.Common

/-!
# Insertions that do nothing on conflict

`INSERT … ON CONFLICT [(columns) [WHERE predicate]] DO NOTHING` of PostgreSQL.  With a target, the
statement is refused unless a unique index matches it: the columns are the same, and the
predicate of a partial index is given in the clause.

* `UniqueIndex`, `ConflictTarget`, `Infers`: which index matches;
* `insertDoNothing`: the rows that the statement adds;
* `insertDoNothing_none`: a clause without a target.
-/

/-- A unique index; a row without an entry is left out, and conflicts with no other. -/
structure UniqueIndex (ρ ι : Type*) where
  columns : List String
  predicate : Option String
  entry : ρ → Option ι

/-- The target of an `ON CONFLICT` clause. -/
structure ConflictTarget where
  columns : List String
  predicate : Option String
  deriving DecidableEq, Repr

/-- Why an insertion fails. -/
inductive InsertFailure
  | noMatchingIndex
  | duplicateKey
  deriving DecidableEq, Repr

namespace UniqueIndex

variable {ρ ι : Type*}

/-- The index matches the target. -/
def Infers (i : UniqueIndex ρ ι) (target : ConflictTarget) : Prop :=
  i.columns = target.columns ∧ (i.predicate = none ∨ i.predicate = target.predicate)

instance (i : UniqueIndex ρ ι) (target : ConflictTarget) : Decidable (i.Infers target) :=
  inferInstanceAs (Decidable (i.columns = target.columns ∧
    (i.predicate = none ∨ i.predicate = target.predicate)))

/-- The indexes whose conflicts the clause catches. -/
def arbiters (indexes : List (UniqueIndex ρ ι)) : Option ConflictTarget → List (UniqueIndex ρ ι)
  | none => indexes
  | some target => indexes.filter (fun i => decide (i.Infers target))

/-- The statement is not refused. -/
def Accepted (indexes : List (UniqueIndex ρ ι)) (clause : Option ConflictTarget) : Prop :=
  clause = none ∨ arbiters indexes clause ≠ []

variable [DecidableEq ι]

/-- Two rows have the same entry. -/
def Clash (i : UniqueIndex ρ ι) (a b : ρ) : Prop := i.entry a ≠ none ∧ i.entry a = i.entry b

instance (i : UniqueIndex ρ ι) (a b : ρ) : Decidable (i.Clash a b) :=
  inferInstanceAs (Decidable (i.entry a ≠ none ∧ i.entry a = i.entry b))

/-- Some row has the same entry in one of the indexes. -/
def Conflicts (indexes : List (UniqueIndex ρ ι)) (rows : List ρ) (r : ρ) : Prop :=
  ∃ i ∈ indexes, ∃ x ∈ rows, i.Clash x r

instance (indexes : List (UniqueIndex ρ ι)) (rows : List ρ) (r : ρ) :
    Decidable (Conflicts indexes rows r) :=
  inferInstanceAs (Decidable (∃ i ∈ indexes, ∃ x ∈ rows, i.Clash x r))

omit [DecidableEq ι] in
instance (indexes : List (UniqueIndex ρ ι)) (clause : Option ConflictTarget) :
    Decidable (Accepted indexes clause) :=
  decidable_of_iff (clause = none ∨ (arbiters indexes clause).isEmpty = false) (by
    rw [Accepted, List.isEmpty_eq_false_iff])

/-- The rows that the statement adds to `rows`. -/
def insertDoNothing (indexes : List (UniqueIndex ρ ι)) (clause : Option ConflictTarget)
    (rows : List ρ) (r : ρ) : Except InsertFailure (List ρ) :=
  if ¬ Accepted indexes clause then .error .noMatchingIndex
  else if Conflicts (arbiters indexes clause) rows r then .ok []
  else if Conflicts indexes rows r then .error .duplicateKey
  else .ok [r]

variable {indexes : List (UniqueIndex ρ ι)} {rows : List ρ} {r : ρ}

/-- A clause without a target catches every conflict. -/
theorem insertDoNothing_none :
    insertDoNothing indexes none rows r = .ok (if Conflicts indexes rows r then [] else [r]) := by
  have haccepted : Accepted indexes none := Or.inl rfl
  rw [insertDoNothing, if_neg (not_not.2 haccepted)]
  show (if Conflicts indexes rows r then _ else _) = _
  by_cases hconflict : Conflicts indexes rows r
  · rw [if_pos hconflict, if_pos hconflict]
  · rw [if_neg hconflict, if_neg hconflict, if_neg hconflict]

end UniqueIndex
