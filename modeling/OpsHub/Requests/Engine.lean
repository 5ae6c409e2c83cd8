import OpsHub.Requests.Delegation

/-!
# The universal request engine

`RequestEngine` of `request-engine.service.ts`.  An operation that decides on a
request consists of three parts, which the model keeps apart because nothing holds
them together in the database:

* `getOrFail` reads the request outside any transaction;
* `reviewCheck`, `cancelCheck` and the status test of `expire` look at that copy;
* `approveTx`, `rejectTx`, `cancelTx` and `expireTx` are the transactions.  Their
  `UPDATE` finds the row by its id alone and takes every other value from the copy.

`approve`, `reject`, `cancel` and `expire` are the three parts in a row.  The four
transactions are one definition, `Transition.run`, applied to what each of them
writes; `Transition.run_ok` is what a committed one does to the database.
-/

namespace OpsHub

variable {π σ : Type}

/-- What the transaction of an operation writes, and the hook it calls. -/
structure Transition (π σ : Type) where
  requestId : Uuid
  update : RequestItem π → RequestItem π
  update_id : ∀ r, (update r).id = r.id
  approval : Option RequestApproval
  /-- The hook is the type definition's `onApprove`. -/
  approves : Bool
  hook : Hook σ
  notification : Option NotificationOutboxRow
  event : EventPayload

namespace RequestEngine

/-! ### Building blocks of the transactions -/

/-- `OutboxService.enqueue`, for an event of the request `id`. -/
def enqueue (db : Db π σ) (id : Uuid) (event : EventPayload) : Db π σ :=
  { db with
    outboxEvents := db.outboxEvents ++
      [{ aggregateType := "request"
         aggregateId := id
         eventType := event.eventType
         payload := event }] }

/-- The active subscriptions whose list of events contains the event type. -/
def subscribers (db : Db π σ) (eventType : String) : List WebhookSubscription :=
  db.webhookSubscriptions.filter (fun s => s.active && decide (eventType ∈ s.events))

/-- `WebhookEnqueueService.fanout`. -/
def fanout (db : Db π σ) (event : EventPayload) (now : Time) : Db π σ :=
  { db with
    webhookDeliveries := db.webhookDeliveries ++
      (subscribers db event.eventType).map (fun s =>
        { subscriptionId := s.id
          eventType := event.eventType
          payload := event
          status := "pending"
          attempts := 0
          nextAttemptAt := now }) }

/-- Schedule a notification, if there is one to schedule. -/
def notify (db : Db π σ) : Option NotificationOutboxRow → Db π σ
  | none => db
  | some row => { db with notificationOutbox := schedule db.notificationOutbox row }

end RequestEngine

/-- The transaction: update the row, append the decision, call the hook, schedule the
notification, write the event.  A request whose row is gone makes the insertion of the
decision fail on its foreign key. -/
def Transition.run (t : Transition π σ) (env : HookEnv) (db : Db π σ) :
    Except Failure (Db π σ × RequestItem π) := do
  let requestItems := db.requestItems.update t.requestId t.update t.update_id
  let row ← Outcome.orThrow (.error "insert violates foreign key constraint on request_approvals")
    (requestItems.find t.requestId)
  let tables ← t.hook env db.toTxTables
  let db : Db π σ :=
    { db with
      toTxTables := tables
      requestItems := requestItems
      requestApprovals := db.requestApprovals ++ t.approval.toList
      onApproveCalls := db.onApproveCalls ++ if t.approves then [t.requestId] else [] }
  let db := RequestEngine.notify db t.notification
  let db := RequestEngine.enqueue db t.requestId t.event
  pure (RequestEngine.fanout db t.event env.now, row)

namespace RequestEngine

/-! ### Reading and checking -/

/-- `RequestEngine.getOrFail`. -/
def getOrFail (db : Db π σ) (id : Uuid) : Except Failure (RequestItem π) :=
  Outcome.orThrow (.notFound "REQUEST_NOT_FOUND" ("Request " ++ toString id ++ " not found"))
    (db.requestItems.find id)

/-- `RequestEngine.assertApprovable`. -/
def assertApprovable (status : RequestStatus) : Except Failure Unit :=
  Outcome.require status.Open
    (.preconditionFailed "REQUEST_NOT_PENDING"
      ("Request is already " ++ status.name ++ " and cannot be approved or rejected"))

/-- The definition of the step a request waits on. -/
def stepDef (typeDef : RequestTypeDef π σ) (currentStep : ℕ) : Option (ApprovalStepDef π σ) :=
  typeDef.approvalSteps.bind (fun steps => steps.find? (fun s => decide (s.step = currentStep)))

/-- The permission required at a step. -/
def requiredPermission (typeDef : RequestTypeDef π σ) (currentStep : ℕ) : PermissionKey :=
  match stepDef typeDef currentStep with
  | some s => s.requiredPermission
  | none => typeDef.requiredApprovalPermission

/-- `Math.max` over the step numbers; absent when there is no step. -/
def maxStep (typeDef : RequestTypeDef π σ) : Option ℕ :=
  match typeDef.approvalSteps with
  | none => some 1
  | some steps => (steps.map ApprovalStepDef.step).max?

/-- `!steps || currentStep >= maxStep`. -/
def isFinalStep (typeDef : RequestTypeDef π σ) (currentStep : ℕ) : Bool :=
  match typeDef.approvalSteps with
  | none => true
  | some steps => steps.all (fun s => decide (s.step ≤ currentStep))

/-- The user whose authority the decision rests on in the segregation check. -/
def sodSubject (delegation : Option ApprovalDelegation) (actor : Actor) : Uuid :=
  match delegation with
  | some d => d.fromUserId
  | none => actor.sub

/-- The permission check: the actor or the delegator holds `permission`. -/
def Permitted (view : AuthzView) (actor : Actor) (permission : PermissionKey) : Prop :=
  view.check actor.sub permission = true ∨
    ∃ d, view.activeDelegation actor.sub = some d ∧ view.check d.fromUserId permission = true

instance (view : AuthzView) (actor : Actor) (permission : PermissionKey) :
    Decidable (Permitted view actor permission) :=
  match h : view.activeDelegation actor.sub with
  | none =>
    if hc : view.check actor.sub permission = true then isTrue (Or.inl hc)
    else isFalse (by rintro (h' | ⟨d, hd, -⟩) <;> simp_all)
  | some d =>
    if hc : view.check actor.sub permission = true ∨ view.check d.fromUserId permission = true then
      isTrue (hc.imp id fun hd => ⟨d, h, hd⟩)
    else isFalse (by rintro (h' | ⟨d', hd', hp⟩) <;> simp_all)

/-- The checks of `approve` and `reject` on the copy of the request: status,
registration, segregation of duties, permission.  The result is the delegation the
decision is recorded under. -/
def reviewCheck (registry : RequestRegistry π σ) (view : AuthzView) (verb : String)
    (request : RequestItem π) (actor : Actor) : Except Failure (Option ApprovalDelegation) := do
  assertApprovable request.status
  let typeDef ← registry.get request.type
  let activeDelegation := view.activeDelegation actor.sub
  Outcome.require
    (¬ (typeDef.allowSelfApproval = false ∧
      request.requesterId = sodSubject activeDelegation actor))
    (.permissionDenied
      ("REQUEST_SOD_VIOLATION: Requester cannot " ++ verb ++ " their own request"))
  let permission := requiredPermission typeDef request.currentStep
  Outcome.require (Permitted view actor permission)
    (.permissionDenied
      ("Missing permission for step " ++ toString request.currentStep ++ ": " ++ permission))
  pure activeDelegation

/-- The checks of `cancel` on the copy of the request. -/
def cancelCheck (registry : RequestRegistry π σ) (view : AuthzView) (request : RequestItem π)
    (actor : Actor) : Except Failure Unit := do
  Outcome.require (request.requesterId = actor.sub ∨ view.check actor.sub "rbac.manage" = true)
    (.permissionDenied "Only the requester can cancel their own request")
  Outcome.require request.status.Open
    (.preconditionFailed "REQUEST_NOT_CANCELLABLE"
      ("Cannot cancel a request with status '" ++ request.status.name ++ "'"))
  let _ ← registry.get request.type
  pure ()

/-! ### The four transactions -/

/-- The decision row of `approve` and `reject`. -/
def approvalRow (request : RequestItem π) (delegation : Option ApprovalDelegation)
    (decision : Decision) (note : Option String) (actor : Actor) (now : Time) : RequestApproval where
  requestId := request.id
  step := request.currentStep
  approverId := actor.sub
  decision := decision
  note := note
  delegatedFromId := delegation.map ApprovalDelegation.fromUserId
  decidedAt := now

/-- What `approve` writes at the last step. -/
def finalApproval (typeDef : RequestTypeDef π σ) (request : RequestItem π)
    (delegation : Option ApprovalDelegation) (note : Option String) (actor : Actor) (now : Time) :
    Transition π σ where
  requestId := request.id
  update r :=
    { r with
      status := .approved
      currentStep := request.currentStep
      assigneeId := request.assigneeId
      resolvedAt := some now
      resolutionNote := note
      updatedAt := now }
  update_id _ := rfl
  approval := some (approvalRow request delegation .approved note actor now)
  approves := true
  hook := typeDef.onApprove request.payload request.id actor.sub
  notification := some
    { recipientId := request.requesterId
      actorId := some actor.sub
      notification := .requestApproved request.type request.id
      resourceId := some request.id
      idempotencyKey := some ("request_approved:" ++ toString request.id) }
  event := .approval request.id request.type actor.sub request.currentStep true (maxStep typeDef)

/-- What `approve` writes at a step that is not the last one. -/
def stepApproval (typeDef : RequestTypeDef π σ) (request : RequestItem π)
    (delegation : Option ApprovalDelegation) (note : Option String) (actor : Actor) (now : Time)
    (nextAssigneeId : Option Uuid) : Transition π σ where
  requestId := request.id
  update r :=
    { r with
      status := .inReview
      currentStep := request.currentStep + 1
      assigneeId := nextAssigneeId
      resolvedAt := none
      resolutionNote := none
      updatedAt := now }
  update_id _ := rfl
  approval := some (approvalRow request delegation .approved note actor now)
  approves := false
  hook := Hook.orSkip (typeDef.onStepApproved.map fun hook =>
    hook request.payload request.id request.currentStep (request.currentStep + 1) nextAssigneeId
      actor.sub)
  notification := nextAssigneeId.map (fun assigneeId =>
    { recipientId := assigneeId
      actorId := none
      notification := .requestStepReady request.type request.id request.currentStep
        (request.currentStep + 1) (maxStep typeDef)
      resourceId := some request.id
      idempotencyKey := some ("step_ready:" ++ toString request.id ++ ":" ++
        toString (request.currentStep + 1)) })
  event := .approval request.id request.type actor.sub request.currentStep false (maxStep typeDef)

/-- The assignee of the next step: its resolver's answer, else the present one. -/
def nextAssignee (typeDef : RequestTypeDef π σ) (request : RequestItem π) (tables : TxTables σ) :
    Except Failure (Option Uuid) :=
  match (stepDef typeDef (request.currentStep + 1)).bind ApprovalStepDef.resolverFn with
  | some resolverFn => do
    let resolved ← resolverFn request.payload tables
    pure (resolved.or request.assigneeId)
  | none => .ok request.assigneeId

/-- The transaction of `approve`. -/
def approveTx (registry : RequestRegistry π σ) (request : RequestItem π)
    (delegation : Option ApprovalDelegation) (note : Option String) (actor : Actor) (now : Time)
    (env : HookEnv) (db : Db π σ) : Except Failure (Db π σ × RequestItem π) := do
  let typeDef ← registry.get request.type
  if isFinalStep typeDef request.currentStep then
    (finalApproval typeDef request delegation note actor now).run env db
  else
    let nextAssigneeId ← nextAssignee typeDef request db.toTxTables
    (stepApproval typeDef request delegation note actor now nextAssigneeId).run env db

/-- What `reject` writes. -/
def rejection (typeDef : RequestTypeDef π σ) (request : RequestItem π)
    (delegation : Option ApprovalDelegation) (note : Option String) (actor : Actor) (now : Time) :
    Transition π σ where
  requestId := request.id
  update r :=
    { r with
      status := .rejected
      resolvedAt := some now
      resolutionNote := note
      updatedAt := now }
  update_id _ := rfl
  approval := some (approvalRow request delegation .rejected note actor now)
  approves := false
  hook := Hook.orSkip (typeDef.onReject.map fun hook => hook request.payload request.id actor.sub)
  notification := some
    { recipientId := request.requesterId
      actorId := some actor.sub
      notification := .requestRejected request.type request.id note
      resourceId := some request.id
      idempotencyKey := some ("request_rejected:" ++ toString request.id) }
  event := .rejected request.id request.type actor.sub note

/-- The transaction of `reject`. -/
def rejectTx (registry : RequestRegistry π σ) (request : RequestItem π)
    (delegation : Option ApprovalDelegation) (note : Option String) (actor : Actor) (now : Time)
    (env : HookEnv) (db : Db π σ) : Except Failure (Db π σ × RequestItem π) := do
  let typeDef ← registry.get request.type
  (rejection typeDef request delegation note actor now).run env db

/-- What `cancel` writes. -/
def cancellation (typeDef : RequestTypeDef π σ) (request : RequestItem π) (actor : Actor)
    (now : Time) : Transition π σ where
  requestId := request.id
  update r := { r with status := .cancelled, resolvedAt := some now, updatedAt := now }
  update_id _ := rfl
  approval := none
  approves := false
  hook := Hook.orSkip (typeDef.onCancel.map fun hook => hook request.payload request.id actor.sub)
  notification := none
  event := .cancelled request.id request.type actor.sub

/-- The transaction of `cancel`. -/
def cancelTx (registry : RequestRegistry π σ) (request : RequestItem π) (actor : Actor)
    (now : Time) (env : HookEnv) (db : Db π σ) : Except Failure (Db π σ × RequestItem π) := do
  let typeDef ← registry.get request.type
  (cancellation typeDef request actor now).run env db

/-- What `expire` writes. -/
def expiration (typeDef : RequestTypeDef π σ) (request : RequestItem π) (now : Time) :
    Transition π σ where
  requestId := request.id
  update r := { r with status := .expired, resolvedAt := some now, updatedAt := now }
  update_id _ := rfl
  approval := none
  approves := false
  hook := Hook.orSkip (typeDef.onExpire.map fun hook => hook request.payload request.id)
  notification := none
  event := .expired request.id request.type

/-- The transaction of `expire`. -/
def expireTx (registry : RequestRegistry π σ) (request : RequestItem π) (now : Time)
    (env : HookEnv) (db : Db π σ) : Except Failure (Db π σ × RequestItem π) := do
  let typeDef ← registry.get request.type
  (expiration typeDef request now).run env db

/-! ### The operations -/

/-- The expiry of a new request: the caller's, else the type definition's default,
where zero hours count as none. -/
def submitExpiry (typeDef : RequestTypeDef π σ) (opts : SubmitRequestOptions) (now : Time) :
    Option Time :=
  opts.expiresAt.or
    ((typeDef.defaultExpiryHours.filter (fun h => decide (h ≠ 0))).map
      (fun h => now + h * msPerHour))

/-- The row `submit` inserts. -/
def submittedItem (typeDef : RequestTypeDef π σ) (type : String) (payload : π) (actor : Actor)
    (opts : SubmitRequestOptions) (now : Time) (newId : Uuid) : RequestItem π where
  id := newId
  type := type
  requesterId := actor.sub
  assigneeId := opts.assigneeId
  status := .pending
  priority := opts.priority.getD .normal
  payload := payload
  resolutionNote := none
  submittedAt := now
  resolvedAt := none
  expiresAt := submitExpiry typeDef opts now
  slaHours := typeDef.slaHours
  slaDeadline :=
    (typeDef.slaHours.filter (fun h => decide (h ≠ 0))).map (fun h => now + h * msPerHour)
  slaBreachedAt := none
  currentStep := 1
  totalSteps := match typeDef.approvalSteps with
    | some steps => steps.length
    | none => 1
  createdAt := now
  updatedAt := now

/-- `RequestEngine.submit`. -/
def submit (registry : RequestRegistry π σ) (type : String) (payload : π) (actor : Actor)
    (opts : SubmitRequestOptions) (now : Time) (newId : Uuid) (env : HookEnv) (db : Db π σ) :
    Except Failure (Db π σ × RequestItem π) := do
  let typeDef ← registry.get type
  let onSubmit := Hook.orSkip (typeDef.onSubmit.map fun hook => hook payload actor.sub)
  let tables ← onSubmit env db.toTxTables
  let row := submittedItem typeDef type payload actor opts now newId
  let requestItems ← Outcome.orThrow (.duplicateKey "request_items") (db.requestItems.insert row)
  let event : EventPayload := .submitted row.id type actor.sub row.priority
  let db : Db π σ := { db with toTxTables := tables, requestItems := requestItems }
  let db := fanout (enqueue db row.id event) event env.now
  let db := notify db (row.assigneeId.map fun assigneeId =>
    { recipientId := assigneeId
      actorId := some actor.sub
      notification := .requestSubmitted type row.id actor.email
      resourceId := some row.id
      idempotencyKey := some ("request_submitted:" ++ toString row.id) })
  pure (db, row)

/-- `RequestEngine.approve`. -/
def approve (registry : RequestRegistry π σ) (view : AuthzView) (requestId : Uuid)
    (note : Option String) (actor : Actor) (now : Time) (env : HookEnv) (db : Db π σ) :
    Except Failure (Db π σ × RequestItem π) := do
  let request ← getOrFail db requestId
  let delegation ← reviewCheck registry view "approve" request actor
  approveTx registry request delegation note actor now env db

/-- `RequestEngine.reject`. -/
def reject (registry : RequestRegistry π σ) (view : AuthzView) (requestId : Uuid)
    (note : Option String) (actor : Actor) (now : Time) (env : HookEnv) (db : Db π σ) :
    Except Failure (Db π σ × RequestItem π) := do
  let request ← getOrFail db requestId
  let delegation ← reviewCheck registry view "reject" request actor
  rejectTx registry request delegation note actor now env db

/-- `RequestEngine.cancel`. -/
def cancel (registry : RequestRegistry π σ) (view : AuthzView) (requestId : Uuid) (actor : Actor)
    (now : Time) (env : HookEnv) (db : Db π σ) : Except Failure (Db π σ × RequestItem π) := do
  let request ← getOrFail db requestId
  cancelCheck registry view request actor
  cancelTx registry request actor now env db

/-- `RequestEngine.expire`: nothing to do for a request that is no longer open. -/
def expire (registry : RequestRegistry π σ) (requestId : Uuid) (now : Time) (env : HookEnv)
    (db : Db π σ) : Except Failure (Db π σ) := do
  let request ← getOrFail db requestId
  if request.status.Open then
    let (db, _) ← expireTx registry request now env db
    pure db
  else
    pure db

end RequestEngine

end OpsHub
