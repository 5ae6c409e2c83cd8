import OpsHub.Domain.Tables
import OpsHub.Lib.Outcome

/-!
# The six request types

The type definitions that the modules register with the engine, with their hooks.
`Payload` is the union of their payloads: a hook that is given the payload of another
type fails, as its statement would on the missing columns.

* `moduleRegistry`: the registered definitions;
* `moduleRegistry_eq_some`: there are no others.
-/

namespace OpsHub

/-! ### Payloads -/

/-- `AccessRequestPayload`. -/
structure AccessRequestPayload where
  accessRequestId : Uuid
  requesterId : Uuid
  accessType : AccessType
  target : String
  justification : String
  durationHours : ℕ
  deriving DecidableEq, Repr

/-- `LeaveRequestPayload`. -/
structure LeaveRequestPayload where
  leaveRequestId : Uuid
  employeeId : Uuid
  leaveType : LeaveType
  startDate : Date
  endDate : Date
  reason : Option String
  deriving DecidableEq, Repr

/-- `OvertimePayload`. -/
structure OvertimePayload where
  overtimeId : Uuid
  employeeId : Uuid
  workDate : Date
  hours : ℕ
  reason : String
  deriving DecidableEq, Repr

/-- `OnboardingPayload`. -/
structure OnboardingPayload where
  employeeId : Uuid
  employeeEmail : String
  startDate : Date
  department : Option String := none
  jobTitle : Option String := none
  managerName : Option String := none
  equipmentType : Option String := none
  preferredOs : Option String := none
  equipmentNote : Option String := none
  accessNeeds : Option (List String) := none
  deriving DecidableEq, Repr

/-- `OffboardingPayload`. -/
structure OffboardingPayload where
  employeeId : Uuid
  employeeEmail : String
  reason : Option String := none
  deriving DecidableEq, Repr

/-- `CatalogRequestPayload`. -/
structure CatalogRequestPayload where
  catalogItemId : Uuid
  catalogItemName : String
  reason : String
  deriving DecidableEq, Repr

/-- The payload of a request. -/
inductive Payload
  | accessRequest (payload : AccessRequestPayload)
  | leaveRequest (payload : LeaveRequestPayload)
  | overtime (payload : OvertimePayload)
  | onboarding (payload : OnboardingPayload)
  | offboarding (payload : OffboardingPayload)
  | catalogRequest (payload : CatalogRequestPayload)
  deriving DecidableEq, Repr

/-- The request type that a payload belongs to. -/
def Payload.type : Payload → String
  | .accessRequest _ => "access_request"
  | .leaveRequest _ => "leave_request"
  | .overtime _ => "overtime"
  | .onboarding _ => "onboarding"
  | .offboarding _ => "offboarding"
  | .catalogRequest _ => "catalog_request"

/-- The failure of a hook on the payload of another type. -/
def payloadMismatch : Failure := .error "undefined value in the hook's statement"

/-- A hook that writes domain tables only. -/
def Hook.write (f : HookEnv → Tables → Except Failure Tables) : Hook Tables := fun env tables => do
  let domain ← f env tables.domain
  pure { tables with domain := domain }

/-- A hook that writes domain tables maps them by its statements. -/
theorem Hook.write_eq_ok_iff {f : HookEnv → Tables → Except Failure Tables} {env : HookEnv}
    {tables tables' : TxTables Tables} :
    Hook.write f env tables = .ok tables' ↔
      f env tables.domain = .ok tables'.domain ∧
        tables'.notificationOutbox = tables.notificationOutbox := by
  simp only [Hook.write, Except.bind_eq_ok_iff, Except.pure_eq_ok_iff]
  constructor
  · rintro ⟨domain, hf, rfl⟩
    exact ⟨hf, rfl⟩
  · rintro ⟨hf, hout⟩
    refine ⟨tables'.domain, hf, ?_⟩
    cases tables'
    simp_all

/-! ### Access requests -/

namespace AccessRequestTypeDef

/-- The two steps: line manager, then IT security. -/
def approvalSteps : List (ApprovalStepDef Payload Tables) :=
  [{ step := 1, requiredPermission := "access_request.approve" },
    { step := 2, requiredPermission := "access_request.security_approve" }]

/-- `AccessRequestTypeDef.onStepApproved`. -/
def onStepApproved (payload : Payload) (requestId : Uuid) (completedStep : ℕ) : Hook Tables :=
  fun _ tables =>
    match payload with
    | .accessRequest payload =>
      .ok { tables with
        notificationOutbox := schedule tables.notificationOutbox
          { recipientId := payload.requesterId
            actorId := none
            notification := .accessRequestSubmitted payload.target (toString payload.requesterId)
            resourceId := some requestId
            idempotencyKey := some
              ("ar_step" ++ toString completedStep ++ "_notify:" ++ toString requestId) } }
    | _ => .error payloadMismatch

/-- The review columns that `onApprove` and `onReject` write. -/
def review (status : AccessRequestStatus) (payload : AccessRequestPayload) (approverId : Uuid)
    (now : Time) (tables : Tables) : Tables :=
  { tables with
    accessRequests := tables.accessRequests.update payload.accessRequestId
      (fun r => { r with
        status := status
        reviewerId := some approverId
        reviewedAt := some now
        updatedAt := now })
      (fun _ => rfl) }

/-- The grant of an approved request. -/
def grant (payload : AccessRequestPayload) (env : HookEnv) : AccessGrant where
  id := env.newId
  requestId := payload.accessRequestId
  granteeId := payload.requesterId
  accessType := payload.accessType
  target := payload.target
  grantedAt := env.now
  expiresAt := env.now + payload.durationHours * msPerHour

/-- `AccessRequestTypeDef.onApprove`: the domain row is approved and a grant created. -/
def onApprove (payload : Payload) (approverId : Uuid) : Hook Tables :=
  match payload with
  | .accessRequest payload => Hook.write fun env tables => do
    let tables := review .approved payload approverId env.now tables
    let accessGrants ← Outcome.orThrow (.duplicateKey "access_grants")
      (tables.accessGrants.insert (grant payload env))
    pure { tables with accessGrants := accessGrants }
  | _ => fun _ _ => .error payloadMismatch

/-- `AccessRequestTypeDef.onReject`. -/
def onReject (payload : Payload) (approverId : Uuid) : Hook Tables :=
  match payload with
  | .accessRequest payload => Hook.write fun env tables =>
    .ok (review .rejected payload approverId env.now tables)
  | _ => fun _ _ => .error payloadMismatch

/-- What `onExpire` writes. -/
def expired (payload : AccessRequestPayload) (now : Time) (tables : Tables) : Tables :=
  { tables with
    accessRequests := tables.accessRequests.update payload.accessRequestId
      (fun r => { r with status := .expired, updatedAt := now }) (fun _ => rfl) }

/-- `AccessRequestTypeDef.onExpire`. -/
def onExpire (payload : Payload) : Hook Tables :=
  match payload with
  | .accessRequest payload => Hook.write fun env tables => .ok (expired payload env.now tables)
  | _ => fun _ _ => .error payloadMismatch

section Effects

variable {payload : Payload} {requestId approverId : Uuid} {completedStep : ℕ} {env : HookEnv}
  {tables tables' : TxTables Tables}

theorem onStepApproved_ok
    (h : onStepApproved payload requestId completedStep env tables = .ok tables') :
    tables'.domain = tables.domain := by
  cases payload with
  | accessRequest payload =>
    obtain rfl := Except.ok.inj h
    rfl
  | _ => cases h

theorem onApprove_ok (h : onApprove payload approverId env tables = .ok tables') :
    ∃ p accessGrants, payload = .accessRequest p ∧
      tables.domain.accessGrants.insert (grant p env) = some accessGrants ∧
      tables'.domain = { review .approved p approverId env.now tables.domain with
        accessGrants := accessGrants } := by
  cases payload with
  | accessRequest p =>
    simp only [onApprove, Hook.write_eq_ok_iff, Except.bind_eq_ok_iff, Outcome.orThrow_eq_ok_iff,
      Except.pure_eq_ok_iff] at h
    obtain ⟨⟨accessGrants, hins, hdomain⟩, -⟩ := h
    exact ⟨p, accessGrants, rfl, hins, hdomain.symm⟩
  | _ => cases h

theorem onReject_ok (h : onReject payload approverId env tables = .ok tables') :
    ∃ p, payload = .accessRequest p ∧
      tables'.domain = review .rejected p approverId env.now tables.domain := by
  cases payload with
  | accessRequest p =>
    simp only [onReject, Hook.write_eq_ok_iff, Except.ok.injEq] at h
    exact ⟨p, rfl, h.1.symm⟩
  | _ => cases h

theorem onExpire_ok (h : onExpire payload env tables = .ok tables') :
    ∃ p, payload = .accessRequest p ∧ tables'.domain = expired p env.now tables.domain := by
  cases payload with
  | accessRequest p =>
    simp only [onExpire, Hook.write_eq_ok_iff, Except.ok.injEq] at h
    exact ⟨p, rfl, h.1.symm⟩
  | _ => cases h

end Effects

end AccessRequestTypeDef

/-- `AccessRequestTypeDef`; it has no `onCancel`. -/
def accessRequestTypeDef : RequestTypeDef Payload Tables where
  type := "access_request"
  requiredApprovalPermission := "access_request.approve"
  allowSelfApproval := false
  defaultExpiryHours := some 168
  slaHours := some 72
  approvalSteps := some AccessRequestTypeDef.approvalSteps
  onStepApproved := some fun payload requestId completedStep _ _ _ =>
    AccessRequestTypeDef.onStepApproved payload requestId completedStep
  onApprove payload _ approverId := AccessRequestTypeDef.onApprove payload approverId
  onReject := some fun payload _ approverId => AccessRequestTypeDef.onReject payload approverId
  onExpire := some fun payload _ => AccessRequestTypeDef.onExpire payload

/-! ### Leave -/

namespace LeaveRequestTypeDef

/-- The review columns that `onApprove` and `onReject` write. -/
def review (status : LeaveStatus) (payload : LeaveRequestPayload) (reviewerId : Uuid) (now : Time)
    (tables : Tables) : Tables :=
  { tables with
    leaveRequests := tables.leaveRequests.update payload.leaveRequestId
      (fun r => { r with
        status := status
        reviewerId := some reviewerId
        reviewedAt := some now })
      (fun _ => rfl) }

/-- `LeaveRequestTypeDef.onApprove`. -/
def onApprove (payload : Payload) (reviewerId : Uuid) : Hook Tables :=
  match payload with
  | .leaveRequest payload => Hook.write fun env tables =>
    .ok (review .approved payload reviewerId env.now tables)
  | _ => fun _ _ => .error payloadMismatch

/-- `LeaveRequestTypeDef.onReject`. -/
def onReject (payload : Payload) (reviewerId : Uuid) : Hook Tables :=
  match payload with
  | .leaveRequest payload => Hook.write fun env tables =>
    .ok (review .rejected payload reviewerId env.now tables)
  | _ => fun _ _ => .error payloadMismatch

/-- What `onExpire` writes. -/
def expired (payload : LeaveRequestPayload) (tables : Tables) : Tables :=
  { tables with
    leaveRequests := tables.leaveRequests.update payload.leaveRequestId
      (fun r => { r with status := .cancelled }) (fun _ => rfl) }

/-- `LeaveRequestTypeDef.onExpire`. -/
def onExpire (payload : Payload) : Hook Tables :=
  match payload with
  | .leaveRequest payload => Hook.write fun _ tables => .ok (expired payload tables)
  | _ => fun _ _ => .error payloadMismatch

section Effects

variable {payload : Payload} {reviewerId : Uuid} {env : HookEnv} {tables tables' : TxTables Tables}

theorem onApprove_ok (h : onApprove payload reviewerId env tables = .ok tables') :
    ∃ p, payload = .leaveRequest p ∧
      tables'.domain = review .approved p reviewerId env.now tables.domain := by
  cases payload with
  | leaveRequest p =>
    simp only [onApprove, Hook.write_eq_ok_iff, Except.ok.injEq] at h
    exact ⟨p, rfl, h.1.symm⟩
  | _ => cases h

theorem onReject_ok (h : onReject payload reviewerId env tables = .ok tables') :
    ∃ p, payload = .leaveRequest p ∧
      tables'.domain = review .rejected p reviewerId env.now tables.domain := by
  cases payload with
  | leaveRequest p =>
    simp only [onReject, Hook.write_eq_ok_iff, Except.ok.injEq] at h
    exact ⟨p, rfl, h.1.symm⟩
  | _ => cases h

theorem onExpire_ok (h : onExpire payload env tables = .ok tables') :
    ∃ p, payload = .leaveRequest p ∧ tables'.domain = expired p tables.domain := by
  cases payload with
  | leaveRequest p =>
    simp only [onExpire, Hook.write_eq_ok_iff, Except.ok.injEq] at h
    exact ⟨p, rfl, h.1.symm⟩
  | _ => cases h

end Effects

end LeaveRequestTypeDef

/-- `LeaveRequestTypeDef`; it has no `onCancel`. -/
def leaveRequestTypeDef : RequestTypeDef Payload Tables where
  type := "leave_request"
  requiredApprovalPermission := "workforce.leave.review"
  allowSelfApproval := false
  defaultExpiryHours := some 72
  slaHours := some 48
  onApprove payload _ reviewerId := LeaveRequestTypeDef.onApprove payload reviewerId
  onReject := some fun payload _ reviewerId => LeaveRequestTypeDef.onReject payload reviewerId
  onExpire := some fun payload _ => LeaveRequestTypeDef.onExpire payload

/-! ### Overtime -/

namespace OvertimeTypeDef

/-- The review columns that `onApprove` and `onReject` write. -/
def review (status : OvertimeStatus) (payload : OvertimePayload) (reviewerId : Uuid) (now : Time)
    (tables : Tables) : Tables :=
  { tables with
    overtimeEntries := tables.overtimeEntries.update payload.overtimeId
      (fun r => { r with
        status := status
        reviewerId := some reviewerId
        reviewedAt := some now })
      (fun _ => rfl) }

/-- `OvertimeTypeDef.onApprove`. -/
def onApprove (payload : Payload) (reviewerId : Uuid) : Hook Tables :=
  match payload with
  | .overtime payload => Hook.write fun env tables =>
    .ok (review .approved payload reviewerId env.now tables)
  | _ => fun _ _ => .error payloadMismatch

/-- `OvertimeTypeDef.onReject`. -/
def onReject (payload : Payload) (reviewerId : Uuid) : Hook Tables :=
  match payload with
  | .overtime payload => Hook.write fun env tables =>
    .ok (review .rejected payload reviewerId env.now tables)
  | _ => fun _ _ => .error payloadMismatch

/-- What `onExpire` writes. -/
def expired (payload : OvertimePayload) (tables : Tables) : Tables :=
  { tables with
    overtimeEntries := tables.overtimeEntries.update payload.overtimeId
      (fun r => { r with status := .rejected }) (fun _ => rfl) }

/-- `OvertimeTypeDef.onExpire`. -/
def onExpire (payload : Payload) : Hook Tables :=
  match payload with
  | .overtime payload => Hook.write fun _ tables => .ok (expired payload tables)
  | _ => fun _ _ => .error payloadMismatch

section Effects

variable {payload : Payload} {reviewerId : Uuid} {env : HookEnv} {tables tables' : TxTables Tables}

theorem onApprove_ok (h : onApprove payload reviewerId env tables = .ok tables') :
    ∃ p, payload = .overtime p ∧
      tables'.domain = review .approved p reviewerId env.now tables.domain := by
  cases payload with
  | overtime p =>
    simp only [onApprove, Hook.write_eq_ok_iff, Except.ok.injEq] at h
    exact ⟨p, rfl, h.1.symm⟩
  | _ => cases h

theorem onReject_ok (h : onReject payload reviewerId env tables = .ok tables') :
    ∃ p, payload = .overtime p ∧
      tables'.domain = review .rejected p reviewerId env.now tables.domain := by
  cases payload with
  | overtime p =>
    simp only [onReject, Hook.write_eq_ok_iff, Except.ok.injEq] at h
    exact ⟨p, rfl, h.1.symm⟩
  | _ => cases h

theorem onExpire_ok (h : onExpire payload env tables = .ok tables') :
    ∃ p, payload = .overtime p ∧ tables'.domain = expired p tables.domain := by
  cases payload with
  | overtime p =>
    simp only [onExpire, Hook.write_eq_ok_iff, Except.ok.injEq] at h
    exact ⟨p, rfl, h.1.symm⟩
  | _ => cases h

end Effects

end OvertimeTypeDef

/-- `OvertimeTypeDef`; it has no `onCancel`. -/
def overtimeTypeDef : RequestTypeDef Payload Tables where
  type := "overtime"
  requiredApprovalPermission := "workforce.overtime.review"
  allowSelfApproval := false
  defaultExpiryHours := some 72
  slaHours := some 48
  onApprove payload _ reviewerId := OvertimeTypeDef.onApprove payload reviewerId
  onReject := some fun payload _ reviewerId => OvertimeTypeDef.onReject payload reviewerId
  onExpire := some fun payload _ => OvertimeTypeDef.onExpire payload

/-! ### Onboarding, offboarding, catalogue -/

/-- `OnboardingTypeDef`; its `onApprove` has no effect. -/
def onboardingTypeDef : RequestTypeDef Payload Tables where
  type := "onboarding"
  requiredApprovalPermission := "onboarding.complete"
  allowSelfApproval := false
  defaultExpiryHours := some 168
  slaHours := some 72
  approvalSteps := some
    [{ step := 1, requiredPermission := "onboarding.approve" },
      { step := 2, requiredPermission := "onboarding.provision" },
      { step := 3, requiredPermission := "onboarding.complete" }]
  onApprove _ _ _ := Hook.skip

namespace OffboardingTypeDef

/-- Put an asset back in stock; the column `assigned_to` keeps its value. -/
def returnAsset (now : Time) (assets : Table Asset.id) (assetId : Uuid) : Table Asset.id :=
  assets.update assetId (fun a => { a with status := .inStock, updatedAt := now }) (fun _ => rfl)

/-- The statements of `OffboardingTypeDef.onApprove` for one employee. -/
def offboard (employeeId : Uuid) (now : Time) (tables : Tables) : Tables :=
  let open_ := fun a : AssetAssignment =>
    decide (a.employeeId = employeeId ∧ a.returnedAt = none)
  let assetIds := (tables.assetAssignments.rows.filter open_).map AssetAssignment.assetId
  { tables with
    employees := tables.employees.update employeeId
      (fun e => { e with status := .offboarded, updatedAt := now }) (fun _ => rfl)
    userRoleAssignments := tables.userRoleAssignments.deleteWhere
      (fun a => decide (a.userId = employeeId))
    accessGrants := tables.accessGrants.updateWhere
      (fun g => decide (g.granteeId = employeeId ∧ g.revokedAt = none))
      (fun g => { g with revokedAt := some now }) (fun _ => rfl)
    assetAssignments := tables.assetAssignments.updateWhere open_
      (fun a => { a with returnedAt := some now }) (fun _ => rfl)
    assets := assetIds.foldl (returnAsset now) tables.assets
    refreshTokens := tables.refreshTokens.updateWhere
      (fun t => decide (t.employeeId = employeeId ∧ t.revoked = false))
      (fun t => { t with revoked := true }) (fun _ => rfl) }

/-- `OffboardingTypeDef.onApprove`. -/
def onApprove (payload : Payload) : Hook Tables :=
  match payload with
  | .offboarding payload => Hook.write fun env tables =>
    .ok (offboard payload.employeeId env.now tables)
  | _ => fun _ _ => .error payloadMismatch

theorem onApprove_ok {payload : Payload} {env : HookEnv} {tables tables' : TxTables Tables}
    (h : onApprove payload env tables = .ok tables') :
    ∃ p, payload = .offboarding p ∧
      tables'.domain = offboard p.employeeId env.now tables.domain := by
  cases payload with
  | offboarding p =>
    simp only [onApprove, Hook.write_eq_ok_iff, Except.ok.injEq] at h
    exact ⟨p, rfl, h.1.symm⟩
  | _ => cases h

end OffboardingTypeDef

/-- `OffboardingTypeDef`. -/
def offboardingTypeDef : RequestTypeDef Payload Tables where
  type := "offboarding"
  requiredApprovalPermission := "offboarding.approve"
  allowSelfApproval := false
  defaultExpiryHours := some 72
  slaHours := some 24
  onApprove payload _ _ := OffboardingTypeDef.onApprove payload
  onReject := some fun _ _ _ => Hook.skip

/-- `CatalogRequestTypeDef`; its `onApprove` has no effect. -/
def catalogRequestTypeDef : RequestTypeDef Payload Tables where
  type := "catalog_request"
  requiredApprovalPermission := "requests.approve"
  allowSelfApproval := false
  defaultExpiryHours := some 72
  slaHours := some 24
  onApprove _ _ _ := Hook.skip

/-! ### The registry -/

/-- The definitions the modules register on start-up. -/
def typeDefs : List (RequestTypeDef Payload Tables) :=
  [accessRequestTypeDef, leaveRequestTypeDef, overtimeTypeDef, onboardingTypeDef,
    offboardingTypeDef, catalogRequestTypeDef]

/-- The registry after start-up. -/
def moduleRegistry : RequestRegistry Payload Tables := fun type =>
  typeDefs.find? (fun typeDef => decide (typeDef.type = type))

theorem moduleRegistry_eq_some {type : String} {typeDef : RequestTypeDef Payload Tables}
    (h : moduleRegistry type = some typeDef) : typeDef ∈ typeDefs ∧ typeDef.type = type := by
  unfold moduleRegistry at h
  exact ⟨List.mem_of_find?_eq_some h, by simpa using List.find?_some h⟩

/-- The definition registered for a payload's type. -/
def Payload.typeDef : Payload → RequestTypeDef Payload Tables
  | .accessRequest _ => accessRequestTypeDef
  | .leaveRequest _ => leaveRequestTypeDef
  | .overtime _ => overtimeTypeDef
  | .onboarding _ => onboardingTypeDef
  | .offboarding _ => offboardingTypeDef
  | .catalogRequest _ => catalogRequestTypeDef

theorem moduleRegistry_type (payload : Payload) : moduleRegistry payload.type = some payload.typeDef := by
  cases payload <;> rfl

end OpsHub
