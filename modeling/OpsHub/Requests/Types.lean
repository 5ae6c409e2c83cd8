import OpsHub.Lib.Table
import OpsHub.Platform.Errors

/-!
# The request engine's data

`request-engine.types.ts` with the tables `requests.request_items`,
`requests.request_approvals`, `messaging.outbox_events`, the webhook tables and
`messaging.notification_outbox` as far as the engine reads and writes them.

A type definition's hooks receive the open transaction.  They write the tables of
their own domain (the parameter `σ`) and may schedule notifications; both are kept
in `TxTables σ`, the part of the database a hook maps to a new one.  `payload` is
the parameter `π`: the engine stores it and hands it to the hooks.
-/

namespace OpsHub

/-- A `uuid`. -/
abbrev Uuid := ℕ

/-- An instant, in milliseconds. -/
abbrev Time := ℕ

/-- A permission key such as `access_request.approve`. -/
abbrev PermissionKey := String

/-- `MS_PER_HOUR`. -/
def msPerHour : ℕ := 3600000

/-- `RequestStatus`. -/
inductive RequestStatus
  | pending
  | inReview
  | approved
  | rejected
  | cancelled
  | expired
  deriving DecidableEq, Repr

namespace RequestStatus

/-- The value of the database enumeration. -/
def name : RequestStatus → String
  | pending => "pending"
  | inReview => "in_review"
  | approved => "approved"
  | rejected => "rejected"
  | cancelled => "cancelled"
  | expired => "expired"

/-- The statuses in which a request still waits for a decision. -/
def Open (s : RequestStatus) : Prop := s = pending ∨ s = inReview

instance : DecidablePred Open := fun s => inferInstanceAs (Decidable (s = pending ∨ s = inReview))

@[simp] theorem open_pending : Open pending := Or.inl rfl

@[simp] theorem open_inReview : Open inReview := Or.inr rfl

@[simp] theorem not_open_approved : ¬ Open approved := by decide

@[simp] theorem not_open_rejected : ¬ Open rejected := by decide

@[simp] theorem not_open_cancelled : ¬ Open cancelled := by decide

@[simp] theorem not_open_expired : ¬ Open expired := by decide

end RequestStatus

/-- `RequestPriority`. -/
inductive RequestPriority
  | low
  | normal
  | high
  | urgent
  deriving DecidableEq, Repr

/-- A row of `request_items`. -/
structure RequestItem (π : Type) where
  id : Uuid
  type : String
  requesterId : Uuid
  assigneeId : Option Uuid
  status : RequestStatus
  priority : RequestPriority
  payload : π
  resolutionNote : Option String
  submittedAt : Time
  resolvedAt : Option Time
  expiresAt : Option Time
  slaHours : Option ℕ
  slaDeadline : Option Time
  slaBreachedAt : Option Time
  currentStep : ℕ
  totalSteps : ℕ
  createdAt : Time
  updatedAt : Time
  deriving DecidableEq, Repr

/-- The values of the column `decision`. -/
inductive Decision
  | approved
  | rejected
  | delegated
  deriving DecidableEq, Repr

/-- A row of `request_approvals`. -/
structure RequestApproval where
  requestId : Uuid
  step : ℕ
  approverId : Uuid
  decision : Decision
  note : Option String
  delegatedFromId : Option Uuid
  decidedAt : Time
  deriving DecidableEq, Repr

/-! ### Events and notifications -/

/-- The payloads of the domain events.  `totalSteps` of an approval is the largest
step number, absent for an empty list of steps. -/
inductive EventPayload
  | submitted (requestId : Uuid) (type : String) (requesterId : Uuid) (priority : RequestPriority)
  | approval (requestId : Uuid) (type : String) (approverId : Uuid) (step : ℕ)
      (isFinalStep : Bool) (totalSteps : Option ℕ)
  | rejected (requestId : Uuid) (type : String) (approverId : Uuid) (note : Option String)
  | cancelled (requestId : Uuid) (type : String) (cancelledBy : Uuid)
  | expired (requestId : Uuid) (type : String)
  deriving DecidableEq, Repr

/-- The event type a payload is sent under. -/
def EventPayload.eventType : EventPayload → String
  | .submitted .. => "request.submitted"
  | .approval _ _ _ _ isFinalStep _ =>
    if isFinalStep then "request.approved" else "request.step_approved"
  | .rejected .. => "request.rejected"
  | .cancelled .. => "request.cancelled"
  | .expired .. => "request.expired"

/-- A row of `outbox_events`. -/
structure OutboxEvent where
  aggregateType : String
  aggregateId : Uuid
  eventType : String
  payload : EventPayload
  deriving DecidableEq, Repr

/-- A row of `webhook_subscriptions`, as the fan-out reads it. -/
structure WebhookSubscription where
  id : Uuid
  active : Bool
  events : List String
  deriving DecidableEq, Repr

/-- A row of `webhook_deliveries`, as the fan-out writes it. -/
structure WebhookDelivery where
  subscriptionId : Uuid
  eventType : String
  payload : EventPayload
  status : String
  attempts : ℕ
  nextAttemptAt : Time
  deriving DecidableEq, Repr

/-- The notification templates, with their variables. -/
inductive Notification
  | requestSubmitted (requestType : String) (requestId : Uuid) (requesterEmail : String)
  | requestApproved (requestType : String) (requestId : Uuid)
  | requestRejected (requestType : String) (requestId : Uuid) (reason : Option String)
  | requestStepReady (requestType : String) (requestId : Uuid) (completedStep nextStep : ℕ)
      (totalSteps : Option ℕ)
  | accessRequestSubmitted (resourceName : String) (requesterName : String)
  | accessRequestApproved (resourceName : String) (approverName : String)
  | accessRequestDenied (resourceName : String) (approverName : String) (reason : Option String)
  | assetAssigned (assetName : String) (assetTag : String)
  | assetUnassigned (assetName : String) (assetTag : String)
  | employeeOffboarded (employeeName : String)
  | requestSlaBreach (requestType : String) (requestId : Uuid) (deadline : String)
  | requestDelegationCreated (delegatorName : String) (endsAt : String)
  deriving DecidableEq, Repr

/-- The template name of a notification. -/
def Notification.type : Notification → String
  | .requestSubmitted .. => "request.submitted"
  | .requestApproved .. => "request.approved"
  | .requestRejected .. => "request.rejected"
  | .requestStepReady .. => "request.step_ready"
  | .accessRequestSubmitted .. => "access_request.submitted"
  | .accessRequestApproved .. => "access_request.approved"
  | .accessRequestDenied .. => "access_request.denied"
  | .assetAssigned .. => "asset.assigned"
  | .assetUnassigned .. => "asset.unassigned"
  | .employeeOffboarded .. => "employee.offboarded"
  | .requestSlaBreach .. => "request.sla_breach"
  | .requestDelegationCreated .. => "request.delegation_created"

/-- A row of `notification_outbox`, as the scheduler writes it. -/
structure NotificationOutboxRow where
  recipientId : Uuid
  actorId : Option Uuid
  notification : Notification
  resourceId : Option Uuid
  idempotencyKey : Option String
  deriving DecidableEq, Repr

/-- `NotificationSchedulerService.schedule`: the insertion does nothing when a row
with the same idempotency key exists; rows without a key never conflict. -/
def schedule (rows : List NotificationOutboxRow) (row : NotificationOutboxRow) :
    List NotificationOutboxRow :=
  match row.idempotencyKey with
  | none => rows ++ [row]
  | some key =>
    if rows.any (fun r => decide (r.idempotencyKey = some key)) then rows else rows ++ [row]

/-! ### Type definitions -/

/-- The tables a hook may write through its transaction. -/
structure TxTables (σ : Type) where
  notificationOutbox : List NotificationOutboxRow
  domain : σ
  deriving DecidableEq, Repr

/-- What a hook draws from its environment: the clock and a generated id. -/
structure HookEnv where
  now : Time
  newId : Uuid
  deriving DecidableEq, Repr

/-- The effect of a hook; a hook that throws aborts the transaction. -/
abbrev Hook (σ : Type) := HookEnv → TxTables σ → Except Failure (TxTables σ)

/-- The hook of a type definition that has none. -/
def Hook.skip {σ : Type} : Hook σ := fun _ tables => .ok tables

/-- An optional hook. -/
def Hook.orSkip {σ : Type} (hook : Option (Hook σ)) : Hook σ := hook.getD Hook.skip

@[simp] theorem Hook.orSkip_some {σ : Type} (hook : Hook σ) : Hook.orSkip (some hook) = hook := rfl

@[simp] theorem Hook.orSkip_none {σ : Type} : Hook.orSkip (none : Option (Hook σ)) = Hook.skip := rfl

/-- `ApprovalStepDef`. -/
structure ApprovalStepDef (π σ : Type) where
  step : ℕ
  requiredPermission : PermissionKey
  resolverFn : Option (π → TxTables σ → Except Failure (Option Uuid)) := none

/-- `RequestTypeDef`, without the hook `afterApprove`, which runs after the commit and
calls external services only. -/
structure RequestTypeDef (π σ : Type) where
  type : String
  requiredApprovalPermission : PermissionKey
  allowSelfApproval : Bool := false
  defaultExpiryHours : Option ℕ := none
  slaHours : Option ℕ := none
  approvalSteps : Option (List (ApprovalStepDef π σ)) := none
  onSubmit : Option (π → Uuid → Hook σ) := none
  onApprove : π → Uuid → Uuid → Hook σ
  onStepApproved : Option (π → Uuid → ℕ → ℕ → Option Uuid → Uuid → Hook σ) := none
  onReject : Option (π → Uuid → Uuid → Hook σ) := none
  onCancel : Option (π → Uuid → Uuid → Hook σ) := none
  onExpire : Option (π → Uuid → Hook σ) := none

/-- `RequestRegistry`: the registered type definitions. -/
abbrev RequestRegistry (π σ : Type) := String → Option (RequestTypeDef π σ)

/-- `RequestRegistry.get`. -/
def RequestRegistry.get {π σ : Type} (registry : RequestRegistry π σ) (type : String) :
    Except Failure (RequestTypeDef π σ) :=
  match registry type with
  | some typeDef => .ok typeDef
  | none => .error (.error ("No RequestTypeDef registered for type '" ++ type ++ "'"))

theorem RequestRegistry.get_eq_ok_iff {π σ : Type} {registry : RequestRegistry π σ}
    {type : String} {typeDef : RequestTypeDef π σ} :
    registry.get type = .ok typeDef ↔ registry type = some typeDef := by
  unfold RequestRegistry.get
  split <;> simp_all

/-- The authenticated user of a call. -/
structure Actor where
  sub : Uuid
  email : String
  deriving DecidableEq, Repr

/-- `SubmitRequestOptions`. -/
structure SubmitRequestOptions where
  expiresAt : Option Time := none
  priority : Option RequestPriority := none
  assigneeId : Option Uuid := none
  deriving DecidableEq, Repr

/-! ### The database -/

/-- The tables of the engine, and those its hooks write.  `onApproveCalls` is not a
table: it records, for the statements about the hooks, the requests whose
`onApprove` hook ran in a committed transaction. -/
structure Db (π σ : Type) extends TxTables σ where
  requestItems : Table (@RequestItem.id π)
  requestApprovals : List RequestApproval
  outboxEvents : List OutboxEvent
  webhookSubscriptions : List WebhookSubscription
  webhookDeliveries : List WebhookDelivery
  onApproveCalls : List Uuid

/-- A database without requests. -/
def Db.initial {π σ : Type} (subscriptions : List WebhookSubscription) (tables : TxTables σ) :
    Db π σ where
  toTxTables := tables
  requestItems := Table.empty _
  requestApprovals := []
  outboxEvents := []
  webhookSubscriptions := subscriptions
  webhookDeliveries := []
  onApproveCalls := []

end OpsHub
