import OpsHub.Lib.Runs
import OpsHub.Lib.Outcome
import OpsHub.Requests.Types
import Mathlib.Data.List.Perm.Basic

/-!
# Approval delegations

`DelegationService`: a delegation lets `toUserId` decide on behalf of `fromUserId`
during a window.  The table is kept as the list of its rows in the order in which
the database happens to return them; since no query orders it, `reorder` lets that
order change at any time.
-/

namespace OpsHub

/-- A row of `approval_delegations`. -/
structure ApprovalDelegation where
  id : Uuid
  fromUserId : Uuid
  toUserId : Uuid
  startsAt : Time
  endsAt : Time
  reason : Option String
  deriving DecidableEq, Repr

/-- `CreateDelegationInput`. -/
structure CreateDelegationInput where
  fromUserId : Uuid
  toUserId : Uuid
  startsAt : Time
  endsAt : Time
  reason : Option String := none
  deriving DecidableEq, Repr

/-- The table `approval_delegations`. -/
abbrev DelegationTable := Table ApprovalDelegation.id

namespace DelegationService

/-- `DelegationService.create`. -/
def create (input : CreateDelegationInput) (newId : Uuid) (delegations : DelegationTable) :
    Except Failure DelegationTable := do
  Outcome.require (input.fromUserId ≠ input.toUserId)
    (.preconditionFailed "DELEGATION_SELF" "Cannot delegate approvals to yourself")
  Outcome.require (input.startsAt < input.endsAt)
    (.preconditionFailed "DELEGATION_INVALID_WINDOW" "Delegation start must be before end")
  Outcome.orThrow (.duplicateKey "approval_delegations") <| delegations.insert
    { id := newId
      fromUserId := input.fromUserId
      toUserId := input.toUserId
      startsAt := input.startsAt
      endsAt := input.endsAt
      reason := input.reason }

/-- `DelegationService.revoke`. -/
def revoke (id actorId : Uuid) (delegations : DelegationTable) :
    Except Failure DelegationTable := do
  let row ← Outcome.orThrow (.notFound "DELEGATION_NOT_FOUND" "Delegation not found")
    (delegations.find id)
  Outcome.require (row.fromUserId = actorId)
    (.preconditionFailed "DELEGATION_NOT_OWNER"
      "Only the delegating user can revoke this delegation")
  pure (delegations.deleteWhere (fun d => decide (d.id = id)))

/-- `DelegationService.deleteExpiredBefore`. -/
def deleteExpiredBefore (before : Time) (delegations : DelegationTable) : DelegationTable :=
  delegations.deleteWhere (fun d => decide (d.endsAt ≤ before))

/-- The window of a delegation covers `now`. -/
def Active (now : Time) (d : ApprovalDelegation) : Prop := d.startsAt ≤ now ∧ now < d.endsAt

instance (now : Time) : DecidablePred (Active now) := fun d =>
  inferInstanceAs (Decidable (d.startsAt ≤ now ∧ now < d.endsAt))

/-- `DelegationService.findActiveDelegationTo`: the first row, in the order of the
table, that is addressed to the actor and active. -/
def findActiveDelegationTo (delegations : List ApprovalDelegation) (now : Time) (actorId : Uuid) :
    Option ApprovalDelegation :=
  delegations.find? (fun d => decide (d.toUserId = actorId ∧ Active now d))

theorem findActiveDelegationTo_spec {delegations : List ApprovalDelegation} {now : Time}
    {actorId : Uuid} {d : ApprovalDelegation}
    (h : findActiveDelegationTo delegations now actorId = some d) :
    d ∈ delegations ∧ d.toUserId = actorId ∧ Active now d := by
  have hp := List.find?_some h
  have hd : d.toUserId = actorId ∧ Active now d := of_decide_eq_true hp
  exact ⟨List.mem_of_find?_eq_some h, hd⟩

/-- What can happen to the table. -/
inductive Event
  | create (input : CreateDelegationInput) (newId : Uuid)
  | revoke (id actorId : Uuid)
  | deleteExpiredBefore (before : Time)
  | reorder (rows : List ApprovalDelegation)
  deriving DecidableEq, Repr

/-- The rows of a table in another order. -/
def reorder (delegations : DelegationTable) (rows : List ApprovalDelegation) : DelegationTable :=
  if h : delegations.rows.Perm rows then
    ⟨rows, ((h.map ApprovalDelegation.id).nodup_iff).1 delegations.nodup⟩
  else delegations

/-- One event; a refused call leaves the table as it was. -/
def step (delegations : DelegationTable) : Event → DelegationTable
  | .create input newId => Outcome.commit delegations (create input newId delegations)
  | .revoke id actorId => Outcome.commit delegations (revoke id actorId delegations)
  | .deleteExpiredBefore before => deleteExpiredBefore before delegations
  | .reorder rows => reorder delegations rows

/-- A table that the service can produce. -/
def Reachable (delegations : DelegationTable) : Prop :=
  ∃ events, delegations = Runs.run step (Table.empty _) events

/-- No row delegates to its own author, and every window is non-empty. -/
def WellFormed (delegations : DelegationTable) : Prop :=
  ∀ d ∈ delegations.rows, d.fromUserId ≠ d.toUserId ∧ d.startsAt < d.endsAt

theorem create_wellFormed {input : CreateDelegationInput} {newId : Uuid}
    {delegations delegations' : DelegationTable} (h : WellFormed delegations)
    (hc : create input newId delegations = .ok delegations') : WellFormed delegations' := by
  simp only [create, Except.bind_eq_ok_iff, Outcome.require_eq_ok_iff,
    Outcome.orThrow_eq_ok_iff] at hc
  obtain ⟨-, hself, -, hwindow, hins⟩ := hc
  exact Table.forall_mem_insert hins h ⟨hself, hwindow⟩

theorem deleteWhere_wellFormed {delegations : DelegationTable} (p : ApprovalDelegation → Bool)
    (h : WellFormed delegations) : WellFormed (delegations.deleteWhere p) :=
  fun d hd => h d (Table.mem_deleteWhere.1 hd).1

theorem step_wellFormed (delegations : DelegationTable) (e : Event)
    (h : WellFormed delegations) : WellFormed (step delegations e) := by
  cases e with
  | create input newId => exact Outcome.commit_induction h fun _ hc => create_wellFormed h hc
  | revoke id actorId =>
    refine Outcome.commit_induction h fun delegations' hr => ?_
    simp only [revoke, Except.bind_eq_ok_iff, Except.pure_eq_ok_iff] at hr
    obtain ⟨-, -, -, -, rfl⟩ := hr
    exact deleteWhere_wellFormed _ h
  | deleteExpiredBefore before => exact deleteWhere_wellFormed _ h
  | reorder rows =>
    simp only [step, reorder]
    split
    · rename_i hperm
      exact fun d hd => h d (hperm.mem_iff.2 hd)
    · exact h

theorem Reachable.wellFormed {delegations : DelegationTable} (h : Reachable delegations) :
    WellFormed delegations := by
  obtain ⟨events, rfl⟩ := h
  exact Runs.run_invariant step_wellFormed (by simp [WellFormed]) events

end DelegationService

/-- What the engine learns about the acting user between reading the request and
opening the transaction: the answers of `AuthzService.check`, the delegations and the
instant at which they are looked up. -/
structure AuthzView where
  check : Uuid → PermissionKey → Bool
  delegations : List ApprovalDelegation
  now : Time

/-- The delegation the engine finds for the acting user. -/
def AuthzView.activeDelegation (view : AuthzView) (actorId : Uuid) : Option ApprovalDelegation :=
  DelegationService.findActiveDelegationTo view.delegations view.now actorId

end OpsHub
