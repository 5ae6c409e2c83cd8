import OpsHub.Lib.Runs
import OpsHub.Lib.Table
import OpsHub.Access.ConcurrentGrants
import OpsHub.Domain.Services
import OpsHub.Storage.FileLinks

/-!
# Whose rows a call changes

The routes of `WorkforceController`: those that review need a permission, the others need none and
are to be about the rows of the user who is logged in.

* `WorkforceService.submitTimesheet` and its neighbours, and `WorkforceController.perform`, which
  is a whole call with its guard;
* `OthersKept`: the timesheets, leaves and overtime entries of everybody else stay as they are;
* `OnOwn`: a timesheet that is submitted, a leave that is cancelled and a leave that is given
  another document are the actor's;
* `othersKept_iff`: that is what it takes, for any call of somebody who does not review;
* `not_othersKept`: the services do not look.
-/

namespace OpsHub

/-! ### Timesheets and shift logs -/

/-- `timesheet_status`. -/
inductive TimesheetStatus
  | draft
  | submitted
  | approved
  | rejected
  deriving DecidableEq, Repr

/-- A row of `timesheets`. -/
structure Timesheet where
  id : Uuid
  employeeId : Uuid
  workDate : Date
  minutesWorked : ℕ
  note : Option String
  status : TimesheetStatus := .draft
  submittedAt : Option Time := none
  approvedBy : Option Uuid := none
  updatedAt : Time
  deriving DecidableEq, Repr

/-- `shift_type`. -/
inductive ShiftType
  | night
  | onCall
  | weekend
  deriving DecidableEq, Repr

/-- A row of `shift_logs`. -/
structure ShiftLog where
  id : Uuid
  employeeId : Uuid
  shiftType : ShiftType
  startsAt : Time
  endsAt : Time
  note : Option String
  deriving DecidableEq, Repr

namespace WorkforceService

/-- `CreateTimesheetInput`, without the employee. -/
structure CreateTimesheetInput where
  workDate : Date
  minutesWorked : ℕ
  note : Option String := none
  deriving DecidableEq, Repr

/-- `createTimesheet`. -/
def createTimesheet (input : CreateTimesheetInput) (actor : Actor) (now : Time) (newId : Uuid)
    (timesheets : Table Timesheet.id) : Except Failure (Table Timesheet.id) :=
  Outcome.orThrow (.duplicateKey "timesheets") <|
    timesheets.insert
      { id := newId
        employeeId := actor.sub
        workDate := input.workDate
        minutesWorked := input.minutesWorked
        note := input.note
        updatedAt := now }

/-- `getTimesheet`. -/
def getTimesheet (timesheets : Table Timesheet.id) (id : Uuid) : Except Failure Timesheet :=
  Outcome.orThrow (.notFound "TIMESHEET_NOT_FOUND" "Timesheet not found") (timesheets.find id)

/-- `WorkforceDrizzleRepository.setTimesheetStatus`: only an approval keeps its approver. -/
def setTimesheetStatus (id : Uuid) (status : TimesheetStatus) (approvedBy : Option Uuid)
    (now : Time) (timesheets : Table Timesheet.id) : Table Timesheet.id :=
  timesheets.update id
    (fun r => { r with
      status := status
      approvedBy := if status = .approved then approvedBy else none
      submittedAt := if status = .submitted then some now else r.submittedAt
      updatedAt := now })
    (fun _ => rfl)

/-- `submitTimesheet`; it is given the actor as well, and does not look at it. -/
def submitTimesheet (id : Uuid) (now : Time) (timesheets : Table Timesheet.id) :
    Except Failure (Table Timesheet.id) := do
  let t ← getTimesheet timesheets id
  Outcome.require (t.status = .draft ∨ t.status = .rejected)
    (.preconditionFailed "TIMESHEET_NOT_EDITABLE"
      "Only draft or rejected timesheets can be submitted")
  pure (setTimesheetStatus id .submitted none now timesheets)

/-- `reviewTimesheet`. -/
def reviewTimesheet (id : Uuid) (approve : Bool) (actor : Actor) (now : Time)
    (timesheets : Table Timesheet.id) : Except Failure (Table Timesheet.id) := do
  let t ← getTimesheet timesheets id
  Outcome.require (t.status = .submitted)
    (.preconditionFailed "TIMESHEET_NOT_EDITABLE" "Only submitted timesheets can be reviewed")
  pure (setTimesheetStatus id (if approve then .approved else .rejected)
    (if approve then some actor.sub else none) now timesheets)

/-- `CreateShiftLogInput`, without the employee. -/
structure CreateShiftLogInput where
  shiftType : ShiftType
  startsAt : Time
  endsAt : Time
  note : Option String := none
  deriving DecidableEq, Repr

/-- `createShiftLog`. -/
def createShiftLog (input : CreateShiftLogInput) (actor : Actor) (newId : Uuid)
    (shiftLogs : Table ShiftLog.id) : Except Failure (Table ShiftLog.id) := do
  Outcome.require (input.startsAt < input.endsAt)
    (.preconditionFailed "PRECONDITION_FAILED" "startsAt must be before endsAt")
  Outcome.orThrow (.duplicateKey "shift_logs") <|
    shiftLogs.insert
      { id := newId
        employeeId := actor.sub
        shiftType := input.shiftType
        startsAt := input.startsAt
        endsAt := input.endsAt
        note := input.note }

/-- `SubmitOnboardingDto`. -/
structure SubmitOnboardingInput where
  employeeId : Uuid
  startDate : Date
  department : Option String := none
  jobTitle : Option String := none
  managerName : Option String := none
  equipmentType : Option String := none
  preferredOs : Option String := none
  equipmentNote : Option String := none
  accessNeeds : Option (List String) := none
  deriving DecidableEq, Repr

/-- The payload of an onboarding; what is empty is left out. -/
def onboardingPayload (input : SubmitOnboardingInput) (employeeEmail : String) : Payload :=
  .onboarding
    { employeeId := input.employeeId
      employeeEmail := employeeEmail
      startDate := input.startDate
      department := input.department.filter (fun text => decide (text ≠ ""))
      jobTitle := input.jobTitle.filter (fun text => decide (text ≠ ""))
      managerName := input.managerName.filter (fun text => decide (text ≠ ""))
      equipmentType := input.equipmentType.filter (fun text => decide (text ≠ ""))
      preferredOs := input.preferredOs.filter (fun text => decide (text ≠ ""))
      equipmentNote := input.equipmentNote.filter (fun text => decide (text ≠ ""))
      accessNeeds := input.accessNeeds.filter (fun texts => decide (texts ≠ [])) }

/-- The payload of an offboarding. -/
def offboardingPayload (employeeId : Uuid) (employeeEmail : String) (reason : Option String) :
    Payload :=
  .offboarding
    { employeeId := employeeId
      employeeEmail := employeeEmail
      reason := reason.filter (fun text => decide (text ≠ "")) }

/-- `submitOnboarding` and `submitOffboarding`, after the employee has been looked up. -/
def submitFor (payload : String → Payload) (employeeId : Uuid) (actor : Actor) (now : Time)
    (engineId : Uuid) (env : HookEnv) (db : Db Payload Tables) :
    Except Failure (Db Payload Tables) := do
  let employee ← EmployeeService.getById db.domain employeeId
  let payload := payload employee.email
  let (db, _) ← RequestEngine.submit moduleRegistry payload.type payload actor {} now engineId env
    db
  pure db

end WorkforceService

/-! ### The controller -/

/-- The answer of `PolicyGuard` for a route; a route without a permission is open to everybody who
is logged in. -/
def PolicyGuard.canActivate (view : AuthzView) (permission : Option PermissionKey)
    (actor : Actor) : Except Failure Unit :=
  match permission with
  | none => .ok ()
  | some permission =>
    Outcome.require (view.check actor.sub permission = true)
      (.permissionDenied ("Missing permission: " ++ permission))

/-- What the controller works on. -/
structure WorkforceState where
  timesheets : Table Timesheet.id
  shiftLogs : Table ShiftLog.id
  db : Db Payload Tables
  files : Table StoredFile.id

namespace WorkforceController

open WorkforceService

/-- The routes. -/
inductive Operation
  | listTimesheets
  | createTimesheet (dto : CreateTimesheetInput)
  | submitTimesheet (id : Uuid)
  | reviewTimesheet (id : Uuid) (approve : Bool)
  | listLeave
  | createLeave (dto : CreateLeaveInput)
  | reviewLeave (id : Uuid) (approve : Bool)
  | cancelLeave (id : Uuid)
  | listOvertime
  | createOvertime (dto : CreateOvertimeInput)
  | reviewOvertime (id : Uuid) (approve : Bool)
  | listShifts
  | createShift (dto : CreateShiftLogInput)
  | submitOnboarding (dto : SubmitOnboardingInput)
  | submitOffboarding (employeeId : Uuid) (reason : Option String)
  | presignLeaveDocument (id : Uuid) (dto : UploadInput)
  | confirmLeaveDocument (id fileId : Uuid)
  | getLeaveDocumentUrl (id : Uuid)
  deriving DecidableEq, Repr

/-- `RequirePermission`. -/
def Operation.permission : Operation → Option PermissionKey
  | .reviewTimesheet _ _ => some "workforce.approve"
  | .reviewLeave _ _ => some "workforce.approve"
  | .reviewOvertime _ _ => some "workforce.approve"
  | .submitOnboarding _ => some "onboarding.approve"
  | .submitOffboarding _ _ => some "offboarding.approve"
  | _ => none

/-- A call: who makes it, what `AuthzService` knows, the clock and the ids that are drawn, how many
of the commits of a submission take place, and what S3 answers. -/
structure Call where
  operation : Operation
  actor : Actor
  view : AuthzView
  now : Time
  newId : Uuid
  engineId : Uuid
  keyId : Uuid
  env : HookEnv
  commits : ℕ
  contentLength : Option ℕ

section Handlers

variable (parse : String → Option Uuid) (config : StorageConfig)

/-- The handlers. -/
def handle (c : Call) (s : WorkforceState) : WorkforceState :=
  match c.operation with
  | .createTimesheet dto => Outcome.commit s <|
      (createTimesheet dto c.actor c.now c.newId s.timesheets).map
        fun timesheets => { s with timesheets := timesheets }
  | .submitTimesheet id => Outcome.commit s <|
      (submitTimesheet id c.now s.timesheets).map
        fun timesheets => { s with timesheets := timesheets }
  | .reviewTimesheet id approve => Outcome.commit s <|
      (reviewTimesheet id approve c.actor c.now s.timesheets).map
        fun timesheets => { s with timesheets := timesheets }
  | .createLeave dto =>
    { s with db := createLeave dto c.actor c.now c.newId c.engineId c.env c.commits s.db }
  | .reviewLeave id approve => Outcome.commit s <|
      (reviewLeave c.view id approve c.actor c.now c.env s.db).map fun db => { s with db := db }
  | .cancelLeave id => Outcome.commit s <|
      (cancelLeave id c.now s.db).map fun db => { s with db := db }
  | .createOvertime dto =>
    { s with db := createOvertime dto c.actor c.now c.newId c.engineId c.env c.commits s.db }
  | .reviewOvertime id approve => Outcome.commit s <|
      (reviewOvertime c.view id approve c.actor c.now c.env s.db).map fun db => { s with db := db }
  | .createShift dto => Outcome.commit s <|
      (createShiftLog dto c.actor c.newId s.shiftLogs).map
        fun shiftLogs => { s with shiftLogs := shiftLogs }
  | .submitOnboarding dto => Outcome.commit s <|
      (submitFor (onboardingPayload dto) dto.employeeId c.actor c.now c.engineId c.env s.db).map
        fun db => { s with db := db }
  | .submitOffboarding employeeId reason => Outcome.commit s <|
      (submitFor (fun email => offboardingPayload employeeId email reason) employeeId c.actor c.now
        c.engineId c.env s.db).map fun db => { s with db := db }
  | .presignLeaveDocument id dto => Outcome.commit s <|
      (presignLeaveDocument config dto c.actor c.keyId c.newId ⟨s.files, s.db.domain, c.now⟩ id).map
        fun p => { s with files := p.1.files, db := { s.db with domain := p.1.tables } }
  | .confirmLeaveDocument id fileId =>
    let p := confirmLeaveDocument parse config c.contentLength fileId c.actor
      ⟨s.files, s.db.domain, c.now⟩ id
    { s with files := p.1.files, db := { s.db with domain := p.1.tables } }
  -- the other routes answer what they select
  | .listTimesheets => s
  | .listLeave => s
  | .listOvertime => s
  | .listShifts => s
  | .getLeaveDocumentUrl _ => s

/-- The state after a call. -/
def perform (s : WorkforceState) (c : Call) : WorkforceState :=
  match PolicyGuard.canActivate c.view c.operation.permission c.actor with
  | .ok () => handle parse config c s
  | .error _ => s

end Handlers

/-! ### The guarantee and the condition -/

/-- The rows of the employees other than the actor. -/
def others {ρ : Type} {key : ρ → Uuid} (employeeId : ρ → Uuid) (actor : Actor)
    (t : Table key) : List ρ :=
  t.rows.filter (fun r => decide (employeeId r ≠ actor.sub))

/-- **The guarantee**: the rows of the other employees stay as they are. -/
structure OthersKept (actor : Actor) (s s' : WorkforceState) : Prop where
  timesheets : others Timesheet.employeeId actor s'.timesheets =
    others Timesheet.employeeId actor s.timesheets
  leaveRequests : others LeaveRequest.employeeId actor s'.db.domain.leaveRequests =
    others LeaveRequest.employeeId actor s.db.domain.leaveRequests
  overtimeEntries : others OvertimeEntry.employeeId actor s'.db.domain.overtimeEntries =
    others OvertimeEntry.employeeId actor s.db.domain.overtimeEntries

/-- A leave can be given a file as its document: the file is completed, or is pending and has been
put with the length that was declared; the old document, if there is one, can be looked up; and it
is another one. -/
structure GetsDocument (parse : String → Option Uuid) (contentLength : Option ℕ) (file : StoredFile)
    (leave : LeaveRequest) : Prop where
  put : file.status = .completed ∨
    file.status = .pending ∧ contentLength = some file.sizeBytes
  old : ∀ key, leave.documentStorageKey = some key → key ≠ "" → parse key ≠ none
  other : leave.documentStorageKey ≠ some file.key

/-- **The condition**: the row that a call changes is the actor's. -/
def OnOwn (parse : String → Option Uuid) (s : WorkforceState) (c : Call) : Prop :=
  match c.operation with
  | .submitTimesheet id => ∀ t ∈ s.timesheets.find id,
      t.status = .draft ∨ t.status = .rejected → t.employeeId = c.actor.sub
  | .cancelLeave id => ∀ l ∈ s.db.domain.leaveRequests.find id,
      l.status = .pending ∨ l.status = .approved → l.employeeId = c.actor.sub
  | .confirmLeaveDocument id fileId => ∀ l ∈ s.db.domain.leaveRequests.find id,
      ∀ file ∈ StorageService.findOwn s.files fileId c.actor.sub,
        GetsDocument parse c.contentLength file l → l.employeeId = c.actor.sub
  | _ => True

/-! ### What the statements do to the rows of others -/

section Statements

variable {ρ : Type} {key : ρ → Uuid} {employeeId : ρ → Uuid} {actor : Actor} {t t' : Table key}
  {s : WorkforceState}

theorem others_insert {r : ρ} (h : t.insert r = some t') (hr : employeeId r = actor.sub) :
    others employeeId actor t' = others employeeId actor t :=
  Table.filter_insert h (by simp [hr])

/-- An update of a row keeps the rows of others exactly if the row is the actor's, or is as it
was. -/
theorem others_update_iff {id : Uuid} {f : ρ → ρ} (hf : ∀ r, key (f r) = key r)
    (howner : ∀ r, employeeId (f r) = employeeId r) :
    others employeeId actor (t.update id f hf) = others employeeId actor t ↔
      ∀ r ∈ t.find id, f r ≠ r → employeeId r = actor.sub := by
  refine (Table.filter_update_eq_iff fun r => by rw [howner r]).trans ?_
  refine forall₂_congr fun r _ => ?_
  rw [decide_eq_true_iff]
  constructor
  · intro h hne
    by_contra hother
    exact hne (h hother)
  · intro h hother
    by_contra hne
    exact hother (h hne)

/-- In particular of a row that is changed. -/
theorem others_update_changed_iff {id : Uuid} {f : ρ → ρ} (hf : ∀ r, key (f r) = key r)
    (howner : ∀ r, employeeId (f r) = employeeId r) {r : ρ} (hr : t.find id = some r)
    (hne : f r ≠ r) :
    others employeeId actor (t.update id f hf) = others employeeId actor t ↔
      employeeId r = actor.sub := by
  rw [others_update_iff hf howner, hr]
  refine ⟨fun h => h r rfl hne, fun h r' hr' _ => ?_⟩
  obtain rfl := Option.some.inj hr'
  exact h

/-- A row that is the actor's can be written again after it has been inserted. -/
theorem others_insert_update {r : ρ} (h : t.insert r = some t') (hr : employeeId r = actor.sub)
    {f : ρ → ρ} (hf : ∀ r, key (f r) = key r) (howner : ∀ r, employeeId (f r) = employeeId r) :
    others employeeId actor (t'.update (key r) f hf) = others employeeId actor t := by
  refine Eq.trans ((others_update_iff hf howner).2 fun r' hr' _ => ?_) (others_insert h hr)
  obtain rfl := Option.some.inj ((Table.find_insert_self h).symm.trans hr')
  exact hr

theorem OthersKept.refl (actor : Actor) (s : WorkforceState) : OthersKept actor s s :=
  ⟨rfl, rfl, rfl⟩

end Statements

/-! ### Documents -/

section Documents

variable {parse : String → Option Uuid} {config : StorageConfig} {contentLength : Option ℕ}
  {actor : Actor} {fileId : Uuid}

/-- The old document is an obstacle only if it cannot be looked up. -/
theorem deleteOld_isOk_iff {old : Option String} {files : Table StoredFile.id} :
    (∃ files', deleteOld parse old files = .ok files') ↔
      ∀ key, old = some key → key ≠ "" → parse key ≠ none := by
  cases old with
  | none => simp [deleteOld]
  | some key =>
    by_cases hempty : key = ""
    · have hfilter : (some key).filter (fun key => decide (key ≠ "")) = none := by simp [hempty]
      rw [deleteOld, hfilter]
      simp [hempty]
    · have hfilter : (some key).filter (fun key => decide (key ≠ "")) = some key := by
        simp [hempty]
      rw [deleteOld, hfilter]
      cases hparse : parse key with
      | none => simp [StorageService.findById, hempty, hparse, bind, Except.bind]
      | some id =>
        cases hfind : files.find id <;>
          simp [StorageService.findById, hparse, hfind, bind, Except.bind, pure, Except.pure]

/-- **What a confirmation writes**: the link, if the file has been put and the old document can be
looked up; else no table. -/
theorem confirmLinked_tables (current : Except Failure (Option String))
    (link : String → Tables → Tables) (s : LinkState) :
    (∃ old file, current = .ok old ∧ StorageService.findOwn s.files fileId actor.sub = some file ∧
      (file.status = .completed ∨ file.status = .pending ∧ contentLength = some file.sizeBytes) ∧
      (∀ key, old = some key → key ≠ "" → parse key ≠ none) ∧
      (confirmLinked parse config contentLength current link fileId actor s).1.tables =
        link file.key s.tables) ∨
    ((∀ old file, current = .ok old → StorageService.findOwn s.files fileId actor.sub = some file →
      (file.status = .completed ∨ file.status = .pending ∧ contentLength = some file.sizeBytes) →
      ¬ ∀ key, old = some key → key ≠ "" → parse key ≠ none) ∧
      (confirmLinked parse config contentLength current link fileId actor s).1.tables =
        s.tables) := by
  unfold confirmLinked
  cases current with
  | error failure =>
    refine Or.inr ⟨fun old file hold => ?_, rfl⟩
    cases hold
  | ok old =>
    cases hconfirm :
      StorageService.confirmUpload config s.now contentLength fileId actor.sub s.files with
    | mk files outcome =>
      have hiff := @FileLinks.confirmUpload_eq_ok_iff s.files fileId actor.sub s.now config
        contentLength
      rw [hconfirm] at hiff
      cases outcome with
      | error failure =>
        refine Or.inr ⟨fun old file _ hfind hput => ?_, rfl⟩
        cases hiff.2 ⟨file, hfind, hput, rfl⟩
      | ok result =>
        obtain ⟨file, hfind, hput, rfl⟩ := hiff.1 rfl
        cases hdelete : deleteOld parse old files with
        | error failure =>
          refine Or.inr ⟨fun old' file' hold _ _ hparse => ?_, by simp only [hdelete]⟩
          cases hold
          obtain ⟨files', hok⟩ := (@deleteOld_isOk_iff parse old files).2 hparse
          cases hdelete.symm.trans hok
        | ok files' =>
          refine Or.inl ⟨old, file, rfl, hfind, hput, ?_, by simp only [hdelete]⟩
          exact deleteOld_isOk_iff.1 ⟨files', hdelete⟩

end Documents

/-! ### The routes -/

section Routes

variable {parse : String → Option Uuid} {config : StorageConfig} {actor : Actor}
  {s s' : WorkforceState} {db : Db Payload Tables} {now expiresAt : Time} {engineId : Uuid}
  {env : HookEnv} {commits : ℕ}

theorem othersKept_iff_timesheets (hdomain : s'.db.domain = s.db.domain) :
    OthersKept actor s s' ↔
      others Timesheet.employeeId actor s'.timesheets =
        others Timesheet.employeeId actor s.timesheets :=
  ⟨OthersKept.timesheets, fun h => ⟨h, by rw [hdomain], by rw [hdomain]⟩⟩

theorem othersKept_iff_leaveRequests (htimesheets : s'.timesheets = s.timesheets)
    (hovertime : s'.db.domain.overtimeEntries = s.db.domain.overtimeEntries) :
    OthersKept actor s s' ↔
      others LeaveRequest.employeeId actor s'.db.domain.leaveRequests =
        others LeaveRequest.employeeId actor s.db.domain.leaveRequests :=
  ⟨OthersKept.leaveRequests, fun h => ⟨by rw [htimesheets], h, by rw [hovertime]⟩⟩

/-- A call that changes a row which meets `p`, and throws if there is none, keeps the rows of others
exactly if the row is the actor's. -/
theorem othersKept_commit_iff {ρ : Type} {x : Except Failure WorkforceState} {row : Option ρ}
    {p : ρ → Prop} {owner : ρ → Uuid} (s' : WorkforceState)
    (hx : ∀ next, x = .ok next ↔ (∃ r, row = some r ∧ p r) ∧ next = s')
    (hnext : ∀ r, row = some r → p r → (OthersKept actor s s' ↔ owner r = actor.sub)) :
    OthersKept actor s (Outcome.commit s x) ↔ ∀ r ∈ row, p r → owner r = actor.sub := by
  cases x with
  | error failure =>
    refine iff_of_true (.refl actor s) fun r hr hp => ?_
    cases (hx s').2 ⟨⟨r, hr, hp⟩, rfl⟩
  | ok next =>
    obtain ⟨⟨r, hr, hp⟩, rfl⟩ := (hx next).1 rfl
    refine (hnext r hr hp).trans ⟨fun hown r' hr' _ => ?_, fun h => h r hr hp⟩
    obtain rfl := Option.some.inj (hr.symm.trans hr')
    exact hown

/-- `submitTimesheet` comes to a row that is draft or rejected. -/
theorem othersKept_submitTimesheet_iff (id : Uuid) :
    OthersKept actor s (Outcome.commit s ((submitTimesheet id now s.timesheets).map
      fun timesheets => { s with timesheets := timesheets })) ↔
      ∀ t ∈ s.timesheets.find id, t.status = .draft ∨ t.status = .rejected →
        t.employeeId = actor.sub := by
  refine othersKept_commit_iff
    { s with timesheets := setTimesheetStatus id .submitted none now s.timesheets }
    (fun next => ?_) fun t ht hstatus => ?_
  · simp only [submitTimesheet, getTimesheet, Except.map_eq_ok_iff, Except.bind_eq_ok_iff,
      Outcome.orThrow_eq_ok_iff, Outcome.require_eq_ok_iff, Except.pure_eq_ok_iff]
    constructor
    · rintro ⟨_, ⟨t, ht, _, hstatus, rfl⟩, rfl⟩
      exact ⟨⟨t, ht, hstatus⟩, rfl⟩
    · rintro ⟨⟨t, ht, hstatus⟩, rfl⟩
      exact ⟨_, ⟨t, ht, (), hstatus, rfl⟩, rfl⟩
  · refine (othersKept_iff_timesheets (by rfl)).trans ?_
    refine others_update_changed_iff ?_ ?_ ht fun hsame => ?_
    · exact fun _ => rfl
    · exact fun _ => rfl
    have hsubmitted := congrArg Timesheet.status hsame
    rcases hstatus with hdraft | hrejected
    · cases hsubmitted.trans hdraft
    · cases hsubmitted.trans hrejected

/-- `cancelLeave` comes to a row that is pending or approved. -/
theorem othersKept_cancelLeave_iff (id : Uuid) :
    OthersKept actor s (Outcome.commit s ((cancelLeave id now s.db).map
      fun db => { s with db := db })) ↔
      ∀ l ∈ s.db.domain.leaveRequests.find id, l.status = .pending ∨ l.status = .approved →
        l.employeeId = actor.sub := by
  refine othersKept_commit_iff
    { s with db := { s.db with domain := setLeaveStatus id .cancelled none now s.db.domain } }
    (fun next => ?_) fun l hl hstatus => ?_
  · simp only [cancelLeave, getLeave, Except.map_eq_ok_iff, Except.bind_eq_ok_iff,
      Outcome.orThrow_eq_ok_iff, Outcome.require_eq_ok_iff, Except.pure_eq_ok_iff]
    constructor
    · rintro ⟨_, ⟨l, hl, _, hstatus, rfl⟩, rfl⟩
      exact ⟨⟨l, hl, hstatus⟩, rfl⟩
    · rintro ⟨⟨l, hl, hstatus⟩, rfl⟩
      exact ⟨_, ⟨l, hl, (), hstatus, rfl⟩, rfl⟩
  · refine (othersKept_iff_leaveRequests (by rfl) (by rfl)).trans ?_
    refine others_update_changed_iff ?_ ?_ hl fun hsame => ?_
    · exact fun _ => rfl
    · exact fun _ => rfl
    have hcancelled := congrArg LeaveRequest.status hsame
    rcases hstatus with hpending | happroved
    · cases hcancelled.trans hpending
    · cases hcancelled.trans happroved

/-- `confirmLeaveDocument` comes to a leave that can be given the file. -/
theorem othersKept_confirmLeaveDocument_iff (contentLength : Option ℕ) (id fileId : Uuid)
    (hs : s' = { s with
      files := (confirmLeaveDocument parse config contentLength fileId actor
        ⟨s.files, s.db.domain, now⟩ id).1.files
      db := { s.db with domain := (confirmLeaveDocument parse config contentLength fileId actor
        ⟨s.files, s.db.domain, now⟩ id).1.tables } }) :
    OthersKept actor s s' ↔
      ∀ l ∈ s.db.domain.leaveRequests.find id,
        ∀ file ∈ StorageService.findOwn s.files fileId actor.sub,
          GetsDocument parse contentLength file l → l.employeeId = actor.sub := by
  have hcases := @confirmLinked_tables parse config contentLength actor fileId
    ((getLeave s.db.domain id).map LeaveRequest.documentStorageKey)
    (fun key => WorkforceDrizzleRepository.updateLeaveDocument id (some key))
    ⟨s.files, s.db.domain, now⟩
  rcases hcases with ⟨old, file, hold, hfind, hput, hparse, htables⟩ | ⟨hnot, htables⟩
  · obtain ⟨l, hl, rfl⟩ := Except.map_eq_ok_iff.1 hold
    have hl : s.db.domain.leaveRequests.find id = some l := Outcome.orThrow_eq_ok_iff.1 hl
    have hdomain : s'.db.domain =
        WorkforceDrizzleRepository.updateLeaveDocument id (some file.key) s.db.domain := by
      rw [hs]
      exact htables
    rw [othersKept_iff_leaveRequests (by rw [hs]) (by rw [hdomain]; rfl), hdomain]
    unfold WorkforceDrizzleRepository.updateLeaveDocument
    refine (others_update_iff ?_ ?_).trans ?_
    · exact fun _ => rfl
    · exact fun _ => rfl
    · constructor
      · intro h l' hl' file' hfile' hgets
        obtain rfl := Option.some.inj (hfind.symm.trans hfile')
        exact h l' hl' fun hsame =>
          hgets.other (congrArg LeaveRequest.documentStorageKey hsame).symm
      · intro h l' hl' hne
        obtain rfl := Option.some.inj (hl.symm.trans hl')
        refine h l hl file hfind ⟨hput, hparse, fun hsame => hne ?_⟩
        rw [← hsame]
  · have hdomain : s'.db.domain = s.db.domain := by
      rw [hs]
      exact htables
    refine iff_of_true ⟨by rw [hs], by rw [hdomain], by rw [hdomain]⟩ fun l hl file hfile hgets => ?_
    refine absurd hgets.old (hnot l.documentStorageKey file ?_ hfile hgets.put)
    exact Except.map_eq_ok_iff.2 ⟨l, Outcome.orThrow_eq_ok_iff.2 hl, rfl⟩

/-- What filing a row does to the tables, whichever of its commits take place. -/
theorem submitLinked_domain {create : Tables → Except Failure Tables} {payload : Payload}
    {backlink : Uuid → Tables → Tables} {P : Tables → Prop} (h : P db.domain)
    (hcreate : ∀ tables, create db.domain = .ok tables →
      P tables ∧ ∀ q, P (backlink q tables)) :
    P (submitLinked create payload backlink actor expiresAt now engineId env commits db).domain := by
  unfold submitLinked
  split
  · exact h
  · rename_i tables hok
    obtain ⟨hcreated, hlinked⟩ := hcreate tables hok
    split
    · exact h
    · dsimp only
      split
      · exact hcreated
      · rename_i db' item hsubmit
        have hdomain : db'.domain = tables := (RequestEngine.submit_ok hsubmit).domain
          fun typeDef hdef => onSubmit_eq_none hdef
        split
        · exact hcreated
        · split
          · rw [hdomain]
            exact hcreated
          · show P (backlink item.id db'.domain)
            rw [hdomain]
            exact hlinked item.id

/-- A new leave is the actor's. -/
theorem othersKept_createLeave (dto : CreateLeaveInput) (rowId : Uuid) :
    OthersKept actor s
      { s with db := createLeave dto actor now rowId engineId env commits s.db } := by
  have hdomain := @submitLinked_domain actor s.db now (now + 72 * msPerHour) engineId env commits
    (createLeaveRow dto actor.sub rowId) (leavePayload dto actor.sub rowId)
    (setLeaveRequestId rowId)
    (fun tables => others LeaveRequest.employeeId actor tables.leaveRequests =
        others LeaveRequest.employeeId actor s.db.domain.leaveRequests ∧
      tables.overtimeEntries = s.db.domain.overtimeEntries) ⟨rfl, rfl⟩ ?_
  · exact ⟨rfl, hdomain.1, by rw [createLeave, hdomain.2]⟩
  · intro tables hok
    simp only [createLeaveRow, Except.bind_eq_ok_iff, Outcome.orThrow_eq_ok_iff,
      Except.pure_eq_ok_iff] at hok
    obtain ⟨-, -, -, -, leaveRequests, hinsert, rfl⟩ := hok
    refine ⟨⟨others_insert hinsert rfl, rfl⟩, fun q => ⟨?_, rfl⟩⟩
    exact @others_insert_update _ _ LeaveRequest.employeeId actor _ _ _ hinsert rfl
      (fun r => { r with requestId := some q }) (fun _ => rfl) (fun _ => rfl)

/-- So is a new overtime entry. -/
theorem othersKept_createOvertime (dto : CreateOvertimeInput) (rowId : Uuid) :
    OthersKept actor s
      { s with db := createOvertime dto actor now rowId engineId env commits s.db } := by
  have hdomain := @submitLinked_domain actor s.db now (now + 72 * msPerHour) engineId env commits
    (createOvertimeRow dto actor.sub rowId) (overtimePayload dto actor.sub rowId)
    (setOvertimeRequestId rowId)
    (fun tables => others OvertimeEntry.employeeId actor tables.overtimeEntries =
        others OvertimeEntry.employeeId actor s.db.domain.overtimeEntries ∧
      tables.leaveRequests = s.db.domain.leaveRequests) ⟨rfl, rfl⟩ ?_
  · exact ⟨rfl, by rw [createOvertime, hdomain.2], hdomain.1⟩
  · intro tables hok
    simp only [createOvertimeRow, Except.bind_eq_ok_iff, Outcome.orThrow_eq_ok_iff,
      Except.pure_eq_ok_iff] at hok
    obtain ⟨overtimeEntries, hinsert, rfl⟩ := hok
    refine ⟨⟨others_insert hinsert rfl, rfl⟩, fun q => ⟨?_, rfl⟩⟩
    exact @others_insert_update _ _ OvertimeEntry.employeeId actor _ _ _ hinsert rfl
      (fun r => { r with requestId := some q }) (fun _ => rfl) (fun _ => rfl)

/-- A submission for an employee writes no domain table. -/
theorem othersKept_submitFor (payload : String → Payload) (employeeId : Uuid) :
    OthersKept actor s (Outcome.commit s
      ((submitFor payload employeeId actor now engineId env s.db).map
        fun db => { s with db := db })) := by
  refine Outcome.commit_induction (.refl _ s) fun next hok => ?_
  obtain ⟨db, hsubmit, rfl⟩ := Except.map_eq_ok_iff.1 hok
  simp only [submitFor, Except.bind_eq_ok_iff, Except.pure_eq_ok_iff] at hsubmit
  obtain ⟨employee, -, ⟨db', item⟩, hsubmit, rfl⟩ := hsubmit
  have hdomain : db'.domain = s.db.domain :=
    (RequestEngine.submit_ok hsubmit).domain fun typeDef hdef => onSubmit_eq_none hdef
  exact ⟨rfl, by rw [hdomain], by rw [hdomain]⟩

theorem perform_of_refused {c : Call} {permission : PermissionKey}
    (hpermission : c.operation.permission = some permission)
    (hlacks : c.view.check c.actor.sub permission = false) : perform parse config s c = s := by
  simp [perform, PolicyGuard.canActivate, hpermission, Outcome.require, hlacks]

/-- A call does nothing, or what its handler does. -/
theorem perform_induction {P : WorkforceState → Prop} {c : Call} (h : P s)
    (hhandle : P (handle parse config c s)) : P (perform parse config s c) := by
  unfold perform
  split
  · exact hhandle
  · exact h

/-- **A call of somebody who does not review keeps the rows of the others exactly if** the row that
it changes is the actor's. -/
theorem othersKept_iff (parse : String → Option Uuid) (config : StorageConfig)
    (s : WorkforceState) (c : Call)
    (hlacks : c.view.check c.actor.sub "workforce.approve" = false) :
    OthersKept c.actor s (perform parse config s c) ↔ OnOwn parse s c := by
  obtain ⟨operation, actor, view, now, newId, engineId, keyId, env, commits, contentLength⟩ := c
  cases operation with
  | listTimesheets => exact iff_of_true (.refl _ s) trivial
  | listLeave => exact iff_of_true (.refl _ s) trivial
  | listOvertime => exact iff_of_true (.refl _ s) trivial
  | listShifts => exact iff_of_true (.refl _ s) trivial
  | getLeaveDocumentUrl id => exact iff_of_true (.refl _ s) trivial
  | reviewTimesheet id approve =>
    rw [perform_of_refused rfl hlacks]
    exact iff_of_true (.refl _ s) trivial
  | reviewLeave id approve =>
    rw [perform_of_refused rfl hlacks]
    exact iff_of_true (.refl _ s) trivial
  | reviewOvertime id approve =>
    rw [perform_of_refused rfl hlacks]
    exact iff_of_true (.refl _ s) trivial
  | createTimesheet dto =>
    refine iff_of_true ?_ trivial
    refine Outcome.commit_induction (.refl _ s) fun next hok => ?_
    obtain ⟨timesheets, hinsert, rfl⟩ := Except.map_eq_ok_iff.1 hok
    exact ⟨others_insert (Outcome.orThrow_eq_ok_iff.1 hinsert) rfl, rfl, rfl⟩
  | submitTimesheet id => exact othersKept_submitTimesheet_iff id
  | createLeave dto => exact iff_of_true (othersKept_createLeave dto newId) trivial
  | cancelLeave id => exact othersKept_cancelLeave_iff id
  | createOvertime dto => exact iff_of_true (othersKept_createOvertime dto newId) trivial
  | createShift dto =>
    refine iff_of_true ?_ trivial
    refine Outcome.commit_induction (.refl _ s) fun next hok => ?_
    obtain ⟨shiftLogs, -, rfl⟩ := Except.map_eq_ok_iff.1 hok
    exact ⟨rfl, rfl, rfl⟩
  | submitOnboarding dto =>
    refine iff_of_true (perform_induction (.refl _ s) ?_) trivial
    exact othersKept_submitFor _ dto.employeeId
  | submitOffboarding employeeId reason =>
    refine iff_of_true (perform_induction (.refl _ s) ?_) trivial
    exact othersKept_submitFor _ employeeId
  | presignLeaveDocument id dto =>
    refine iff_of_true ?_ trivial
    refine Outcome.commit_induction (.refl _ s) fun next hok => ?_
    obtain ⟨⟨l, result⟩, hpresign, rfl⟩ := Except.map_eq_ok_iff.1 hok
    obtain ⟨file, files, rfl, -⟩ := @FileLinks.presign_eq_ok config (.leaveRequest id) _ _ _ _ _ _ _
      hpresign
    exact ⟨rfl, rfl, rfl⟩
  | confirmLeaveDocument id fileId =>
    exact othersKept_confirmLeaveDocument_iff contentLength id fileId rfl

end Routes

namespace Sample

/-- Nobody reviews. -/
def view : AuthzView := ⟨fun _ _ => false, [], 0⟩

/-- Employee 1 has a draft timesheet and a pending leave, and employee 2 has put a file. -/
def state : WorkforceState where
  timesheets := ⟨[⟨10, 1, 5, 480, none, .draft, none, none, 0⟩], List.nodup_singleton _⟩
  shiftLogs := Table.empty _
  db := Db.initial []
    { notificationOutbox := []
      domain := { Tables.empty with
        leaveRequests :=
          ⟨[⟨30, 1, .sick, 1, 3, none, .pending, none, none, none, none⟩], List.nodup_singleton _⟩ } }
  files :=
    ⟨[⟨51, "leave-document/2/50.pdf", "note.pdf", "application/pdf", 1000, "leave-document",
      .completed, 2, some "leave_request", some 30, 0, none⟩], List.nodup_singleton _⟩

/-- A call of an employee. -/
def call (operation : Operation) (employeeId : Uuid) : Call where
  operation := operation
  actor := ⟨employeeId, "user@example.com"⟩
  view := view
  now := 100
  newId := 60
  engineId := 61
  keyId := 62
  env := ⟨100, 63⟩
  commits := 3
  contentLength := none

/-- The state after a call. -/
def after (operation : Operation) (employeeId : Uuid) : WorkforceState :=
  perform FileLinks.Sample.parse FileLinks.Sample.config state (call operation employeeId)

/-- Employee 2 submits the timesheet of employee 1, cancels their leave, and gives it a document. -/
theorem not_othersKept :
    ¬ (∀ s c, c.view.check c.actor.sub "workforce.approve" = false →
      OthersKept c.actor s (perform FileLinks.Sample.parse FileLinks.Sample.config s c)) ∧
    ((after (.submitTimesheet 10) 2).timesheets.find 10).map Timesheet.status = some .submitted ∧
    ((after (.cancelLeave 30) 2).db.domain.leaveRequests.find 30).map LeaveRequest.status =
      some .cancelled ∧
    ((after (.confirmLeaveDocument 30 51) 2).db.domain.leaveRequests.find 30).bind
      LeaveRequest.documentStorageKey = some "leave-document/2/50.pdf" := by
  refine ⟨fun h => ?_, by decide +kernel, by decide +kernel, by decide +kernel⟩
  have hkept := (h state (call (.submitTimesheet 10) 2) rfl).timesheets
  revert hkept
  decide +kernel

/-- Employee 1 submits it. -/
theorem othersKept_iff_own :
    OthersKept (call (.submitTimesheet 10) 1).actor state (after (.submitTimesheet 10) 1) ∧
      ((after (.submitTimesheet 10) 1).timesheets.find 10).map Timesheet.status =
        some .submitted := by
  refine ⟨(othersKept_iff _ _ state (call (.submitTimesheet 10) 1) rfl).2 ?_, by decide +kernel⟩
  show ∀ t ∈ state.timesheets.find 10, _
  decide +kernel

end Sample

end WorkforceController

end OpsHub
