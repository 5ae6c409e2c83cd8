import OpsHub.Requests.Transitions

/-!
# Segregation of duties

`approve` and `reject` compare the requester with one user only: the delegator when
an active delegation to the actor is found, the actor otherwise.

* `review_ok` is what a successful call has checked and recorded;
* `review_segregated_iff`: the recorded decision is segregated exactly when the actor
  is not a requester with an active delegation.
-/

namespace OpsHub

variable {π σ : Type}

namespace RequestEngine

/-- A decision that the requester neither took nor delegated. -/
def Segregated (request : RequestItem π) (decision : RequestApproval) : Prop :=
  decision.approverId ≠ request.requesterId ∧
    decision.delegatedFromId ≠ some request.requesterId

/-- Segregation of duties for the calls of `approve` and `reject`, whatever the
permissions and the delegations are. -/
def SegregatesDuties (π σ : Type) : Prop :=
  ∀ (registry : RequestRegistry π σ) (typeDef : RequestTypeDef π σ) (view : AuthzView)
    (delegations : DelegationTable) (requestId : Uuid) (request row : RequestItem π)
    (note : Option String) (actor : Actor) (now : Time) (env : HookEnv) (db db' : Db π σ),
    DelegationService.Reachable delegations → view.delegations = delegations.rows →
    db.requestItems.find requestId = some request →
    registry request.type = some typeDef → typeDef.allowSelfApproval = false →
    (approve registry view requestId note actor now env db = .ok (db', row) ∨
      reject registry view requestId note actor now env db = .ok (db', row)) →
    ∀ decision ∈ db'.requestApprovals.drop db.requestApprovals.length,
      Segregated request decision

section Reviews

variable {registry : RequestRegistry π σ} {typeDef : RequestTypeDef π σ} {view : AuthzView}
  {request row : RequestItem π} {requestId : Uuid} {note : Option String} {actor : Actor}
  {now : Time} {env : HookEnv} {db db' : Db π σ}

/-! ### What a successful review has checked -/

theorem approve_eq_ok_iff :
    approve registry view requestId note actor now env db = .ok (db', row) ↔
      ∃ request delegation, db.requestItems.find requestId = some request ∧
        reviewCheck registry view "approve" request actor = .ok delegation ∧
        approveTx registry request delegation note actor now env db = .ok (db', row) := by
  simp only [approve, Except.bind_eq_ok_iff, getOrFail_eq_ok_iff, exists_and_left]

theorem reject_eq_ok_iff :
    reject registry view requestId note actor now env db = .ok (db', row) ↔
      ∃ request delegation, db.requestItems.find requestId = some request ∧
        reviewCheck registry view "reject" request actor = .ok delegation ∧
        rejectTx registry request delegation note actor now env db = .ok (db', row) := by
  simp only [reject, Except.bind_eq_ok_iff, getOrFail_eq_ok_iff, exists_and_left]

/-- The transaction of `approve` appends one decision. -/
theorem approveTx_requestApprovals {delegation : Option ApprovalDelegation}
    (h : approveTx registry request delegation note actor now env db = .ok (db', row)) :
    db'.requestApprovals =
      db.requestApprovals ++ [approvalRow request delegation .approved note actor now] := by
  obtain ⟨typeDef, -, ⟨-, hc⟩ | ⟨-, nextAssigneeId, hc⟩⟩ := approveTx_ok h
  · exact hc.requestApprovals
  · exact hc.requestApprovals

/-- The transaction of `reject` appends one decision. -/
theorem rejectTx_requestApprovals {delegation : Option ApprovalDelegation}
    (h : rejectTx registry request delegation note actor now env db = .ok (db', row)) :
    db'.requestApprovals =
      db.requestApprovals ++ [approvalRow request delegation .rejected note actor now] := by
  obtain ⟨typeDef, -, hrun⟩ := rejectTx_eq_ok_iff.1 h
  exact (Transition.run_ok hrun).requestApprovals

/-- A successful review compared the requester with `sodSubject` and recorded the
decision under the active delegation. -/
theorem review_ok (hreq : db.requestItems.find requestId = some request)
    (hdef : registry request.type = some typeDef)
    (h : approve registry view requestId note actor now env db = .ok (db', row) ∨
      reject registry view requestId note actor now env db = .ok (db', row)) :
    ¬ (typeDef.allowSelfApproval = false ∧
        request.requesterId = sodSubject (view.activeDelegation actor.sub) actor) ∧
      ∃ decision, db'.requestApprovals = db.requestApprovals ++
        [approvalRow request (view.activeDelegation actor.sub) decision note actor now] := by
  -- both operations end in the same check, on the same copy of the request
  have hcheck : ∀ (verb : String) (delegation : Option ApprovalDelegation),
      reviewCheck registry view verb request actor = .ok delegation →
      ¬ (typeDef.allowSelfApproval = false ∧
        request.requesterId = sodSubject (view.activeDelegation actor.sub) actor) ∧
      delegation = view.activeDelegation actor.sub := by
    intro verb delegation hc
    obtain ⟨-, ⟨typeDef', hdef', hsod, -⟩, hdel⟩ := reviewCheck_eq_ok_iff.1 hc
    obtain rfl : typeDef = typeDef' := Option.some.inj (hdef.symm.trans hdef')
    exact ⟨hsod, hdel⟩
  rcases h with h | h
  · obtain ⟨request', delegation, hreq', hc, htx⟩ := approve_eq_ok_iff.1 h
    obtain rfl : request = request' := Option.some.inj (hreq.symm.trans hreq')
    obtain ⟨hsod, rfl⟩ := hcheck _ _ hc
    exact ⟨hsod, .approved, approveTx_requestApprovals htx⟩
  · obtain ⟨request', delegation, hreq', hc, htx⟩ := reject_eq_ok_iff.1 h
    obtain rfl : request = request' := Option.some.inj (hreq.symm.trans hreq')
    obtain ⟨hsod, rfl⟩ := hcheck _ _ hc
    exact ⟨hsod, .rejected, rejectTx_requestApprovals htx⟩

/-- **When a decision is segregated.**  A successful review of a type without
self-approval records one decision by the actor, and that decision is segregated if
and only if the actor is not a requester with an active delegation. -/
theorem review_segregated_iff (hreq : db.requestItems.find requestId = some request)
    (hdef : registry request.type = some typeDef) (hself : typeDef.allowSelfApproval = false)
    (h : approve registry view requestId note actor now env db = .ok (db', row) ∨
      reject registry view requestId note actor now env db = .ok (db', row)) :
    ∃ decision, db'.requestApprovals = db.requestApprovals ++ [decision] ∧
      decision.requestId = request.id ∧ decision.approverId = actor.sub ∧
      decision.delegatedFromId =
        (view.activeDelegation actor.sub).map ApprovalDelegation.fromUserId ∧
      (Segregated request decision ↔
        (actor.sub = request.requesterId → view.activeDelegation actor.sub = none)) := by
  obtain ⟨hsod, decision, happ⟩ := review_ok hreq hdef h
  have hsubject : request.requesterId ≠ sodSubject (view.activeDelegation actor.sub) actor :=
    fun heq => hsod ⟨hself, heq⟩
  refine ⟨_, happ, rfl, rfl, rfl, ?_⟩
  cases hd : view.activeDelegation actor.sub with
  | none =>
    rw [hd] at hsubject
    have hactor : actor.sub ≠ request.requesterId := Ne.symm hsubject
    simp [Segregated, approvalRow, hactor]
  | some d =>
    rw [hd] at hsubject
    have hfrom : d.fromUserId ≠ request.requesterId := Ne.symm hsubject
    simp [Segregated, approvalRow, hfrom]

end Reviews

/-! ### A requester who approves -/

namespace SelfApproval

/-- A single-step type. -/
def typeDef : RequestTypeDef Unit Unit where
  type := "leave_request"
  requiredApprovalPermission := "workforce.leave.review"
  onApprove := fun _ _ _ => Hook.skip

def registry : RequestRegistry Unit Unit := fun type =>
  if type = "leave_request" then some typeDef else none

/-- User 2 has delegated to user 1. -/
def delegations : DelegationTable :=
  DelegationService.step (Table.empty _)
    (.create { fromUserId := 2, toUserId := 1, startsAt := 0, endsAt := 100 } 7)

/-- Only user 2 may review leave. -/
def view : AuthzView where
  check user permission := decide (user = 2 ∧ permission = "workforce.leave.review")
  delegations := delegations.rows
  now := 10

def requester : Actor := ⟨1, "user1@example.com"⟩

/-- The request of user 1. -/
def request : RequestItem Unit := submittedItem typeDef "leave_request" () requester {} 0 5

/-- The database after user 1 has submitted the request. -/
def db : Db Unit Unit :=
  Outcome.commit (Db.initial [] ⟨[], ()⟩)
    ((submit registry "leave_request" () requester {} 0 5 ⟨0, 0⟩
      (Db.initial [] ⟨[], ()⟩)).map Prod.fst)

/-- The database after a user has approved it. -/
def approvedBy (actor : Actor) : Db Unit Unit :=
  Outcome.commit db ((approve registry view 5 none actor 20 ⟨20, 0⟩ db).map Prod.fst)

theorem delegations_reachable : DelegationService.Reachable delegations :=
  ⟨[.create { fromUserId := 2, toUserId := 1, startsAt := 0, endsAt := 100 } 7], rfl⟩

end SelfApproval

/-- The requester approves the own request under the delegation of user 2. -/
theorem not_segregatesDuties : ¬ SegregatesDuties Unit Unit := by
  intro h
  have hself := h SelfApproval.registry SelfApproval.typeDef SelfApproval.view
    SelfApproval.delegations 5 SelfApproval.request _ none SelfApproval.requester 20 ⟨20, 0⟩
    SelfApproval.db (SelfApproval.approvedBy SelfApproval.requester)
    SelfApproval.delegations_reachable rfl rfl rfl rfl (Or.inl rfl) _ (List.mem_singleton.2 rfl)
  exact hself.1 rfl

/-- The equivalence for the approval by user 2, to whom nobody has delegated. -/
theorem review_segregated_iff_delegator :
    ∃ decision, (SelfApproval.approvedBy ⟨2, "user2@example.com"⟩).requestApprovals =
        SelfApproval.db.requestApprovals ++ [decision] ∧
      decision.requestId = SelfApproval.request.id ∧ decision.approverId = 2 ∧
      decision.delegatedFromId =
        (SelfApproval.view.activeDelegation 2).map ApprovalDelegation.fromUserId ∧
      (Segregated SelfApproval.request decision ↔
        (2 = SelfApproval.request.requesterId → SelfApproval.view.activeDelegation 2 = none)) :=
  @review_segregated_iff _ _ SelfApproval.registry SelfApproval.typeDef SelfApproval.view
    SelfApproval.request _ 5 none ⟨2, "user2@example.com"⟩ 20 ⟨20, 0⟩ SelfApproval.db _
    rfl rfl rfl (Or.inl rfl)

end RequestEngine

end OpsHub
