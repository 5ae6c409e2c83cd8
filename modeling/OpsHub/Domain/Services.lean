import OpsHub.Domain.Linked

/-!
# The domain services over the engine

`AccessRequestService` and the leave and overtime operations of `WorkforceService`.
Filing a row is three commits in a row, with nothing that holds them together: the
domain row, the engine request, the back-link (`submitLinked`).  Reviewing goes through
the engine when the row is linked, and writes the row itself when it is not
(`*_ok_cases`).
-/

namespace OpsHub

/-- File a domain row: create it, submit the engine request, store its id.  The process
may stop after any number of `commits`. -/
def submitLinked (create : Tables → Except Failure Tables) (payload : Payload)
    (backlink : Uuid → Tables → Tables) (actor : Actor) (expiresAt now : Time) (engineId : Uuid)
    (env : HookEnv) (commits : ℕ) (db : Db Payload Tables) : Db Payload Tables :=
  match create db.domain with
  | .error _ => db
  | .ok tables =>
    if commits = 0 then db
    else
      let db : Db Payload Tables := { db with domain := tables }
      match RequestEngine.submit moduleRegistry payload.type payload actor
          { expiresAt := some expiresAt } now engineId env db with
      | .error _ => db
      | .ok (db', engineItem) =>
        if commits = 1 then db
        else if commits = 2 then db'
        else { db' with domain := backlink engineItem.id db'.domain }

/-! ### Access requests -/

namespace AccessRequestService

/-- `CreateAccessRequestInput`, without the requester. -/
structure SubmitInput where
  accessType : AccessType
  target : String
  justification : String
  durationHours : ℕ
  deriving DecidableEq, Repr

/-- `AccessRequestDrizzleRepository.create`. -/
def create (input : SubmitInput) (requesterId newId : Uuid) (now : Time) (tables : Tables) :
    Except Failure Tables := do
  let accessRequests ← Outcome.orThrow (.duplicateKey "access_requests") <|
    tables.accessRequests.insert
      { id := newId
        requesterId := requesterId
        accessType := input.accessType
        target := input.target
        justification := input.justification
        durationHours := input.durationHours
        updatedAt := now }
  pure { tables with accessRequests := accessRequests }

/-- The payload of the engine request. -/
def enginePayload (input : SubmitInput) (requesterId rowId : Uuid) : Payload :=
  .accessRequest
    { accessRequestId := rowId
      requesterId := requesterId
      accessType := input.accessType
      target := input.target
      justification := input.justification
      durationHours := input.durationHours }

/-- Store the id of the engine request in the row. -/
def backlink (rowId engineId : Uuid) (tables : Tables) : Tables :=
  { tables with
    accessRequests := tables.accessRequests.update rowId
      (fun r => { r with requestId := some engineId }) (fun _ => rfl) }

/-- `AccessRequestService.submit`. -/
def submit (input : SubmitInput) (actor : Actor) (now : Time) (rowId engineId : Uuid)
    (env : HookEnv) (commits : ℕ) : Db Payload Tables → Db Payload Tables :=
  submitLinked (create input actor.sub rowId now) (enginePayload input actor.sub rowId)
    (backlink rowId) actor (now + 168 * msPerHour) now engineId env commits

/-- `AccessRequestService.getById`. -/
def getById (tables : Tables) (id : Uuid) : Except Failure AccessRequest :=
  Outcome.orThrow (.notFound "ACCESS_REQUEST_NOT_FOUND" "Access request not found")
    (tables.accessRequests.find id)

/-- The test of `approve` and `reject` on the row they have read. -/
def assertPending (request : AccessRequest) (verb : String) : Except Failure Unit :=
  Outcome.require (request.status = .pending)
    (.preconditionFailed "ACCESS_REQUEST_NOT_PENDING" ("Only pending requests can be " ++ verb))

/-- The review columns that the repository writes for a row without engine request. -/
def legacyReview (status : AccessRequestStatus) (id reviewerId : Uuid) (note : Option String)
    (now : Time) (tables : Tables) : Tables :=
  { tables with
    accessRequests := tables.accessRequests.update id
      (fun r => { r with
        status := status
        reviewerId := some reviewerId
        reviewNote := note
        reviewedAt := some now
        updatedAt := now })
      (fun _ => rfl) }

/-- The grant that `approve` makes itself. -/
def legacyGrant (request : AccessRequest) (now : Time) (grantId : Uuid) : AccessGrant where
  id := grantId
  requestId := request.id
  granteeId := request.requesterId
  accessType := request.accessType
  target := request.target
  grantedAt := now
  expiresAt := now + request.durationHours * msPerHour

/-- `AccessRequestDrizzleRepository.approve`, in its transaction. -/
def legacyApprove (request : AccessRequest) (note : Option String) (actor : Actor) (now : Time)
    (grantId : Uuid) (tables : Tables) : Except Failure Tables := do
  let tables := legacyReview .approved request.id actor.sub note now tables
  let accessGrants ← Outcome.orThrow (.duplicateKey "access_grants")
    (tables.accessGrants.insert (legacyGrant request now grantId))
  pure { tables with accessGrants := accessGrants }

/-- `AccessRequestService.approve`. -/
def approve (view : AuthzView) (requestId : Uuid) (note : Option String) (actor : Actor)
    (now : Time) (env : HookEnv) (db : Db Payload Tables) : Except Failure (Db Payload Tables) := do
  let request ← getById db.domain requestId
  assertPending request "approved"
  match request.requestId with
  | some engineId => do
    let res ← RequestEngine.approve moduleRegistry view engineId note actor now env db
    pure res.1
  | none => do
    let tables ← legacyApprove request note actor now env.newId db.domain
    pure { db with domain := tables }

/-- `AccessRequestService.reject`. -/
def reject (view : AuthzView) (requestId : Uuid) (note : Option String) (actor : Actor)
    (now : Time) (env : HookEnv) (db : Db Payload Tables) : Except Failure (Db Payload Tables) := do
  let request ← getById db.domain requestId
  assertPending request "rejected"
  match request.requestId with
  | some engineId => do
    let res ← RequestEngine.reject moduleRegistry view engineId note actor now env db
    pure res.1
  | none =>
    pure { db with domain := legacyReview .rejected requestId actor.sub note now db.domain }

end AccessRequestService

/-! ### Leave and overtime -/

namespace WorkforceService

/-- `CreateLeaveInput`, without the employee. -/
structure CreateLeaveInput where
  leaveType : LeaveType
  startDate : Date
  endDate : Date
  reason : Option String := none
  deriving DecidableEq, Repr

/-- `CreateOvertimeInput`, without the employee. -/
structure CreateOvertimeInput where
  workDate : Date
  hours : ℕ
  reason : String
  deriving DecidableEq, Repr

/-- `WorkforceDrizzleRepository.hasOverlappingLeave`. -/
def hasOverlappingLeave (tables : Tables) (employeeId : Uuid) (startDate endDate : Date) : Bool :=
  tables.leaveRequests.rows.any (fun r => decide (r.employeeId = employeeId ∧
    (r.status = .pending ∨ r.status = .approved) ∧ r.startDate ≤ endDate ∧ startDate ≤ r.endDate))

/-- The checks of `createLeave` and the insertion of the row. -/
def createLeaveRow (input : CreateLeaveInput) (employeeId newId : Uuid) (tables : Tables) :
    Except Failure Tables := do
  Outcome.require (input.startDate ≤ input.endDate)
    (.preconditionFailed "PRECONDITION_FAILED" "startDate must be on or before endDate")
  Outcome.require (hasOverlappingLeave tables employeeId input.startDate input.endDate = false)
    (.conflict "LEAVE_OVERLAPPING" "You already have a leave request overlapping these dates")
  let leaveRequests ← Outcome.orThrow (.duplicateKey "leave_requests") <|
    tables.leaveRequests.insert
      { id := newId
        employeeId := employeeId
        leaveType := input.leaveType
        startDate := input.startDate
        endDate := input.endDate
        reason := input.reason }
  pure { tables with leaveRequests := leaveRequests }

/-- The payload of the engine request of a leave. -/
def leavePayload (input : CreateLeaveInput) (employeeId rowId : Uuid) : Payload :=
  .leaveRequest
    { leaveRequestId := rowId
      employeeId := employeeId
      leaveType := input.leaveType
      startDate := input.startDate
      endDate := input.endDate
      reason := input.reason }

/-- `WorkforceDrizzleRepository.setLeaveRequestId`. -/
def setLeaveRequestId (id requestId : Uuid) (tables : Tables) : Tables :=
  { tables with
    leaveRequests := tables.leaveRequests.update id
      (fun r => { r with requestId := some requestId }) (fun _ => rfl) }

/-- `WorkforceService.createLeave`. -/
def createLeave (input : CreateLeaveInput) (actor : Actor) (now : Time) (rowId engineId : Uuid)
    (env : HookEnv) (commits : ℕ) : Db Payload Tables → Db Payload Tables :=
  submitLinked (createLeaveRow input actor.sub rowId) (leavePayload input actor.sub rowId)
    (setLeaveRequestId rowId) actor (now + 72 * msPerHour) now engineId env commits

/-- `WorkforceDrizzleRepository.setLeaveStatus`: only a review keeps its reviewer. -/
def setLeaveStatus (id : Uuid) (status : LeaveStatus) (reviewerId : Option Uuid) (now : Time)
    (tables : Tables) : Tables :=
  let reviewed := decide (status = .approved ∨ status = .rejected)
  { tables with
    leaveRequests := tables.leaveRequests.update id
      (fun r => { r with
        status := status
        reviewerId := if reviewed then reviewerId else none
        reviewedAt := if reviewed then some now else none })
      (fun _ => rfl) }

/-- `WorkforceService.getLeave`. -/
def getLeave (tables : Tables) (id : Uuid) : Except Failure LeaveRequest :=
  Outcome.orThrow (.notFound "LEAVE_REQUEST_NOT_FOUND" "Leave request not found")
    (tables.leaveRequests.find id)

/-- `WorkforceService.reviewLeave`. -/
def reviewLeave (view : AuthzView) (id : Uuid) (approve : Bool) (actor : Actor) (now : Time)
    (env : HookEnv) (db : Db Payload Tables) : Except Failure (Db Payload Tables) := do
  let l ← getLeave db.domain id
  Outcome.require (l.status = .pending)
    (.preconditionFailed "LEAVE_REQUEST_NOT_PENDING" "Only pending leave requests can be reviewed")
  match l.requestId with
  | some engineId =>
    if approve then do
      let res ← RequestEngine.approve moduleRegistry view engineId none actor now env db
      pure res.1
    else do
      let res ← RequestEngine.reject moduleRegistry view engineId none actor now env db
      pure res.1
  | none =>
    let status := if approve then LeaveStatus.approved else .rejected
    pure { db with domain := setLeaveStatus id status (some actor.sub) now db.domain }

/-- `WorkforceService.cancelLeave`; it does not look at the engine request. -/
def cancelLeave (id : Uuid) (now : Time) (db : Db Payload Tables) :
    Except Failure (Db Payload Tables) := do
  let l ← getLeave db.domain id
  Outcome.require (l.status = .pending ∨ l.status = .approved)
    (.preconditionFailed "LEAVE_REQUEST_NOT_PENDING"
      "Only pending or approved leave can be cancelled")
  pure { db with domain := setLeaveStatus id .cancelled none now db.domain }

/-- The insertion of an overtime entry. -/
def createOvertimeRow (input : CreateOvertimeInput) (employeeId newId : Uuid) (tables : Tables) :
    Except Failure Tables := do
  let overtimeEntries ← Outcome.orThrow (.duplicateKey "overtime_entries") <|
    tables.overtimeEntries.insert
      { id := newId
        employeeId := employeeId
        workDate := input.workDate
        hours := input.hours
        reason := input.reason }
  pure { tables with overtimeEntries := overtimeEntries }

/-- The payload of the engine request of an overtime entry. -/
def overtimePayload (input : CreateOvertimeInput) (employeeId rowId : Uuid) : Payload :=
  .overtime
    { overtimeId := rowId
      employeeId := employeeId
      workDate := input.workDate
      hours := input.hours
      reason := input.reason }

/-- `WorkforceDrizzleRepository.setOvertimeRequestId`. -/
def setOvertimeRequestId (id requestId : Uuid) (tables : Tables) : Tables :=
  { tables with
    overtimeEntries := tables.overtimeEntries.update id
      (fun r => { r with requestId := some requestId }) (fun _ => rfl) }

/-- `WorkforceService.createOvertime`. -/
def createOvertime (input : CreateOvertimeInput) (actor : Actor) (now : Time)
    (rowId engineId : Uuid) (env : HookEnv) (commits : ℕ) :
    Db Payload Tables → Db Payload Tables :=
  submitLinked (createOvertimeRow input actor.sub rowId) (overtimePayload input actor.sub rowId)
    (setOvertimeRequestId rowId) actor (now + 72 * msPerHour) now engineId env commits

/-- `WorkforceDrizzleRepository.setOvertimeStatus`: only a review keeps its reviewer. -/
def setOvertimeStatus (id : Uuid) (status : OvertimeStatus) (reviewerId : Option Uuid) (now : Time)
    (tables : Tables) : Tables :=
  let reviewed := decide (status = .approved ∨ status = .rejected)
  { tables with
    overtimeEntries := tables.overtimeEntries.update id
      (fun r => { r with
        status := status
        reviewerId := if reviewed then reviewerId else none
        reviewedAt := if reviewed then some now else none })
      (fun _ => rfl) }

/-- `WorkforceService.getOvertime`. -/
def getOvertime (tables : Tables) (id : Uuid) : Except Failure OvertimeEntry :=
  Outcome.orThrow (.notFound "OVERTIME_NOT_FOUND" "Overtime entry not found")
    (tables.overtimeEntries.find id)

/-- `WorkforceService.reviewOvertime`. -/
def reviewOvertime (view : AuthzView) (id : Uuid) (approve : Bool) (actor : Actor) (now : Time)
    (env : HookEnv) (db : Db Payload Tables) : Except Failure (Db Payload Tables) := do
  let o ← getOvertime db.domain id
  Outcome.require (o.status = .pending)
    (.preconditionFailed "PRECONDITION_FAILED" "Only pending overtime entries can be reviewed")
  match o.requestId with
  | some engineId =>
    if approve then do
      let res ← RequestEngine.approve moduleRegistry view engineId none actor now env db
      pure res.1
    else do
      let res ← RequestEngine.reject moduleRegistry view engineId none actor now env db
      pure res.1
  | none =>
    let status := if approve then OvertimeStatus.approved else .rejected
    pure { db with domain := setOvertimeStatus id status (some actor.sub) now db.domain }

end WorkforceService

/-! ### Reviews that succeed -/

section Succeeds

variable {view : AuthzView} {requestId engineId : Uuid} {note : Option String} {approve : Bool}
  {actor : Actor} {now : Time} {env : HookEnv} {db db' : Db Payload Tables}

/-- An approval is a transition of the open engine request that the row is linked to, or a review
of the row itself. -/
theorem AccessRequestService.approve_ok_cases
    (hok : AccessRequestService.approve view requestId note actor now env db = .ok db') :
    ∃ a, db.domain.accessRequests.find requestId = some a ∧ a.status = .pending ∧
      ((∃ engineId item, a.requestId = some engineId ∧
          RequestEngine.approve moduleRegistry view engineId note actor now env db =
            .ok (db', item)) ∨
        (a.requestId = none ∧ ∃ tables,
          legacyApprove a note actor now env.newId db.domain = .ok tables ∧
          db' = { db with domain := tables })) := by
  simp only [AccessRequestService.approve, getById, assertPending, Except.bind_eq_ok_iff,
    Outcome.orThrow_eq_ok_iff, Outcome.require_eq_ok_iff] at hok
  obtain ⟨a, ha, -, hpending, hok⟩ := hok
  refine ⟨a, ha, hpending, ?_⟩
  cases hlink : a.requestId with
  | some engineId =>
    simp only [hlink, Except.bind_eq_ok_iff, Except.pure_eq_ok_iff] at hok
    obtain ⟨⟨db'', item⟩, happrove, rfl⟩ := hok
    exact Or.inl ⟨engineId, item, rfl, happrove⟩
  | none =>
    simp only [hlink, Except.bind_eq_ok_iff, Except.pure_eq_ok_iff] at hok
    obtain ⟨tables, hlegacy, rfl⟩ := hok
    exact Or.inr ⟨rfl, tables, hlegacy, rfl⟩

theorem AccessRequestService.reject_ok_cases
    (hok : AccessRequestService.reject view requestId note actor now env db = .ok db') :
    ∃ a, db.domain.accessRequests.find requestId = some a ∧ a.status = .pending ∧
      ((∃ engineId item, a.requestId = some engineId ∧
          RequestEngine.reject moduleRegistry view engineId note actor now env db =
            .ok (db', item)) ∨
        (a.requestId = none ∧
          db' = { db with
            domain := legacyReview .rejected requestId actor.sub note now db.domain })) := by
  simp only [AccessRequestService.reject, getById, assertPending, Except.bind_eq_ok_iff,
    Outcome.orThrow_eq_ok_iff, Outcome.require_eq_ok_iff] at hok
  obtain ⟨a, ha, -, hpending, hok⟩ := hok
  refine ⟨a, ha, hpending, ?_⟩
  cases hlink : a.requestId with
  | some engineId =>
    simp only [hlink, Except.bind_eq_ok_iff, Except.pure_eq_ok_iff] at hok
    obtain ⟨⟨db'', item⟩, hreject, rfl⟩ := hok
    exact Or.inl ⟨engineId, item, rfl, hreject⟩
  | none =>
    simp only [hlink, Except.pure_eq_ok_iff] at hok
    exact Or.inr ⟨rfl, hok.symm⟩

/-- A review that goes through the engine is one of its decisions. -/
theorem WorkforceService.engineReview_ok
    (hok : (if approve then do
        let res ← RequestEngine.approve moduleRegistry view engineId none actor now env db
        pure res.1
      else do
        let res ← RequestEngine.reject moduleRegistry view engineId none actor now env db
        pure res.1) = .ok db') :
    ∃ item, RequestEngine.approve moduleRegistry view engineId none actor now env db =
        .ok (db', item) ∨
      RequestEngine.reject moduleRegistry view engineId none actor now env db =
        .ok (db', item) := by
  cases approve with
  | true =>
    simp only [if_true, Except.bind_eq_ok_iff, Except.pure_eq_ok_iff] at hok
    obtain ⟨⟨db'', item⟩, happrove, rfl⟩ := hok
    exact ⟨item, Or.inl happrove⟩
  | false =>
    simp only [Bool.false_eq_true, if_false, Except.bind_eq_ok_iff, Except.pure_eq_ok_iff] at hok
    obtain ⟨⟨db'', item⟩, hreject, rfl⟩ := hok
    exact ⟨item, Or.inr hreject⟩

theorem WorkforceService.reviewLeave_ok_cases
    (hok : WorkforceService.reviewLeave view requestId approve actor now env db = .ok db') :
    ∃ l, db.domain.leaveRequests.find requestId = some l ∧ l.status = .pending ∧
      ((∃ engineId item, l.requestId = some engineId ∧
          (RequestEngine.approve moduleRegistry view engineId none actor now env db =
              .ok (db', item) ∨
            RequestEngine.reject moduleRegistry view engineId none actor now env db =
              .ok (db', item))) ∨
        (l.requestId = none ∧ ∃ status,
          db' = { db with
            domain := setLeaveStatus requestId status (some actor.sub) now db.domain })) := by
  simp only [WorkforceService.reviewLeave, getLeave, Except.bind_eq_ok_iff,
    Outcome.orThrow_eq_ok_iff, Outcome.require_eq_ok_iff] at hok
  obtain ⟨l, hl, -, hpending, hok⟩ := hok
  refine ⟨l, hl, hpending, ?_⟩
  cases hlink : l.requestId with
  | some engineId =>
    simp only [hlink] at hok
    obtain ⟨item, hreview⟩ := engineReview_ok hok
    exact Or.inl ⟨engineId, item, rfl, hreview⟩
  | none =>
    simp only [hlink, Except.pure_eq_ok_iff] at hok
    exact Or.inr ⟨rfl, _, hok.symm⟩

theorem WorkforceService.reviewOvertime_ok_cases
    (hok : WorkforceService.reviewOvertime view requestId approve actor now env db = .ok db') :
    ∃ o, db.domain.overtimeEntries.find requestId = some o ∧ o.status = .pending ∧
      ((∃ engineId item, o.requestId = some engineId ∧
          (RequestEngine.approve moduleRegistry view engineId none actor now env db =
              .ok (db', item) ∨
            RequestEngine.reject moduleRegistry view engineId none actor now env db =
              .ok (db', item))) ∨
        (o.requestId = none ∧ ∃ status,
          db' = { db with
            domain := setOvertimeStatus requestId status (some actor.sub) now db.domain })) := by
  simp only [WorkforceService.reviewOvertime, getOvertime, Except.bind_eq_ok_iff,
    Outcome.orThrow_eq_ok_iff, Outcome.require_eq_ok_iff] at hok
  obtain ⟨o, ho, -, hpending, hok⟩ := hok
  refine ⟨o, ho, hpending, ?_⟩
  cases hlink : o.requestId with
  | some engineId =>
    simp only [hlink] at hok
    obtain ⟨item, hreview⟩ := engineReview_ok hok
    exact Or.inl ⟨engineId, item, rfl, hreview⟩
  | none =>
    simp only [hlink, Except.pure_eq_ok_iff] at hok
    exact Or.inr ⟨rfl, _, hok.symm⟩

end Succeeds

end OpsHub
