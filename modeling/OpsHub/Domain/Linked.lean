import OpsHub.Domain.TypeDefs
import OpsHub.Requests.Transitions

/-!
# Domain rows under review

An access request, a leave request or an overtime entry carries a status of its own and
a link to the engine request that decides about it.  `Tables.row` looks at the three
tables in one way: `DomainRef` names a row, `DomainRow` is what matters of it.

* `Payload.ref` is the row that an engine request is about;
* `verdict` is the status that a transition writes to it, if it writes one;
* `TransitionOf.verdictWritten`: the hook of a transition writes exactly that.
-/

namespace OpsHub

/-- A row of one of the three tables. -/
inductive DomainRef
  | access (id : Uuid)
  | leave (id : Uuid)
  | overtime (id : Uuid)
  deriving DecidableEq, Repr

/-- The values of the three status columns. -/
inductive DomainStatus
  | pending
  | approved
  | rejected
  | cancelled
  | expired
  | revoked
  deriving DecidableEq, Repr

def AccessRequestStatus.toDomain : AccessRequestStatus → DomainStatus
  | .pending => .pending
  | .approved => .approved
  | .rejected => .rejected
  | .expired => .expired
  | .revoked => .revoked

def LeaveStatus.toDomain : LeaveStatus → DomainStatus
  | .pending => .pending
  | .approved => .approved
  | .rejected => .rejected
  | .cancelled => .cancelled

def OvertimeStatus.toDomain : OvertimeStatus → DomainStatus
  | .pending => .pending
  | .approved => .approved
  | .rejected => .rejected

/-- Status and link of a row. -/
structure DomainRow where
  status : DomainStatus
  link : Option Uuid
  deriving DecidableEq, Repr

def AccessRequest.domainRow (r : AccessRequest) : DomainRow := ⟨r.status.toDomain, r.requestId⟩

def LeaveRequest.domainRow (r : LeaveRequest) : DomainRow := ⟨r.status.toDomain, r.requestId⟩

def OvertimeEntry.domainRow (r : OvertimeEntry) : DomainRow := ⟨r.status.toDomain, r.requestId⟩

/-- The row that `d` names. -/
def Tables.row (tables : Tables) : DomainRef → Option DomainRow
  | .access id => (tables.accessRequests.find id).map AccessRequest.domainRow
  | .leave id => (tables.leaveRequests.find id).map LeaveRequest.domainRow
  | .overtime id => (tables.overtimeEntries.find id).map OvertimeEntry.domainRow

/-- The row that a payload is about. -/
def Payload.ref : Payload → Option DomainRef
  | .accessRequest payload => some (.access payload.accessRequestId)
  | .leaveRequest payload => some (.leave payload.leaveRequestId)
  | .overtime payload => some (.overtime payload.overtimeId)
  | .onboarding _ => none
  | .offboarding _ => none
  | .catalogRequest _ => none

/-- The status that `onExpire` writes. -/
def Payload.expiredStatus : Payload → DomainStatus
  | .accessRequest _ => .expired
  | .leaveRequest _ => .cancelled
  | .overtime _ => .rejected
  | .onboarding _ => .expired
  | .offboarding _ => .expired
  | .catalogRequest _ => .expired

/-! ### Writing one row -/

/-- The rows of `tables` with a map applied to the row `d`. -/
def RowUpdated (d : DomainRef) (f : DomainRow → DomainRow) (tables tables' : Tables) : Prop :=
  tables'.row d = (tables.row d).map f ∧ ∀ d', d' ≠ d → tables'.row d' = tables.row d'

/-- The tables before and after a write to one of them, whose rows `ref` names. -/
structure Differ {ρ : Type*} {key : ρ → Uuid} (ref : Uuid → DomainRef) (domainRow : ρ → DomainRow)
    (t t' : Table key) (tables tables' : Tables) : Prop where
  before : ∀ id, tables.row (ref id) = (t.find id).map domainRow
  after : ∀ id, tables'.row (ref id) = (t'.find id).map domainRow
  other : ∀ d, (∀ id, d ≠ ref id) → tables'.row d = tables.row d

theorem differ_access (tables : Tables) (t : Table AccessRequest.id) :
    Differ .access AccessRequest.domainRow tables.accessRequests t tables
      { tables with accessRequests := t } := by
  refine ⟨fun _ => rfl, fun _ => rfl, fun d hd => ?_⟩
  cases d with
  | access id => exact absurd rfl (hd id)
  | _ => rfl

theorem differ_leave (tables : Tables) (t : Table LeaveRequest.id) :
    Differ .leave LeaveRequest.domainRow tables.leaveRequests t tables
      { tables with leaveRequests := t } := by
  refine ⟨fun _ => rfl, fun _ => rfl, fun d hd => ?_⟩
  cases d with
  | leave id => exact absurd rfl (hd id)
  | _ => rfl

theorem differ_overtime (tables : Tables) (t : Table OvertimeEntry.id) :
    Differ .overtime OvertimeEntry.domainRow tables.overtimeEntries t tables
      { tables with overtimeEntries := t } := by
  refine ⟨fun _ => rfl, fun _ => rfl, fun d hd => ?_⟩
  cases d with
  | overtime id => exact absurd rfl (hd id)
  | _ => rfl

namespace Differ

variable {ρ : Type*} {key : ρ → Uuid} {ref : Uuid → DomainRef} {domainRow : ρ → DomainRow}
  {t t' : Table key} {tables tables' : Tables} {id : Uuid}

/-- A write that keeps all rows of its table but one keeps all other rows under review. -/
theorem row_of_ne (h : Differ ref domainRow t t' tables tables')
    (hkeep : ∀ id', id' ≠ id → t'.find id' = t.find id') {d : DomainRef} (hd : d ≠ ref id) :
    tables'.row d = tables.row d := by
  by_cases href : ∃ id', d = ref id'
  · obtain ⟨id', rfl⟩ := href
    have hne : id' ≠ id := fun heq => hd (heq ▸ rfl)
    rw [h.after, h.before, hkeep id' hne]
  · exact h.other d fun id' heq => href ⟨id', heq⟩

/-- An update of one row of the table is one of the row under review. -/
theorem rowUpdated {g : ρ → ρ} {hg : ∀ r, key (g r) = key r}
    (h : Differ ref domainRow t (t.update id g hg) tables tables') {f : DomainRow → DomainRow}
    (hf : ∀ r, domainRow (g r) = f (domainRow r)) : RowUpdated (ref id) f tables tables' := by
  constructor
  · rw [h.after, h.before, Table.find_update_self]
    simp only [Option.map_map, Function.comp_def, hf]
  · intro d hd
    exact h.row_of_ne (fun id' hne => Table.find_update_ne t hne g hg) hd

end Differ

theorem rowUpdated_access (tables : Tables) (id : Uuid) (g : AccessRequest → AccessRequest)
    (hg : ∀ r, (g r).id = r.id) {f : DomainRow → DomainRow}
    (hf : ∀ r, (g r).domainRow = f r.domainRow) :
    RowUpdated (.access id) f tables
      { tables with accessRequests := tables.accessRequests.update id g hg } :=
  (differ_access tables _).rowUpdated hf

theorem rowUpdated_leave (tables : Tables) (id : Uuid) (g : LeaveRequest → LeaveRequest)
    (hg : ∀ r, (g r).id = r.id) {f : DomainRow → DomainRow}
    (hf : ∀ r, (g r).domainRow = f r.domainRow) :
    RowUpdated (.leave id) f tables
      { tables with leaveRequests := tables.leaveRequests.update id g hg } :=
  (differ_leave tables _).rowUpdated hf

theorem rowUpdated_overtime (tables : Tables) (id : Uuid) (g : OvertimeEntry → OvertimeEntry)
    (hg : ∀ r, (g r).id = r.id) {f : DomainRow → DomainRow}
    (hf : ∀ r, (g r).domainRow = f r.domainRow) :
    RowUpdated (.overtime id) f tables
      { tables with overtimeEntries := tables.overtimeEntries.update id g hg } :=
  (differ_overtime tables _).rowUpdated hf

/-- Rows do not depend on the other tables. -/
theorem row_congr {tables tables' : Tables} (ha : tables'.accessRequests = tables.accessRequests)
    (hl : tables'.leaveRequests = tables.leaveRequests)
    (ho : tables'.overtimeEntries = tables.overtimeEntries) (d : DomainRef) :
    tables'.row d = tables.row d := by
  cases d <;> simp only [Tables.row, ha, hl, ho]

/-! ### The verdict of a transition -/

/-- Set the status of a row. -/
def DomainRow.decide (status : DomainStatus) (row : DomainRow) : DomainRow :=
  { row with status := status }

/-- The effect of a hook on the rows: the row of the payload gets the status of the
verdict; without a payload row or a verdict nothing changes. -/
def VerdictWritten (payload : Payload) (verdict : Option DomainStatus) (tables tables' : Tables) :
    Prop :=
  match payload.ref, verdict with
  | some d, some status => RowUpdated d (DomainRow.decide status) tables tables'
  | _, _ => ∀ d, tables'.row d = tables.row d

/-- What becomes of a row: its link stays, and its status changes only if it is the row
of the payload and there is a verdict. -/
theorem VerdictWritten.row_some {payload : Payload} {verdict : Option DomainStatus}
    {t t' : Tables} (h : VerdictWritten payload verdict t t') {d : DomainRef} {row : DomainRow}
    (hd : t.row d = some row) :
    ∃ row', t'.row d = some row' ∧ row'.link = row.link ∧
      (payload.ref ≠ some d → row' = row) ∧
      (payload.ref = some d → row'.status = verdict.getD row.status) := by
  cases href : payload.ref with
  | none =>
    simp only [VerdictWritten, href] at h
    exact ⟨row, (h d).trans hd, rfl, fun _ => rfl, fun h => by cases h⟩
  | some d₀ =>
    cases verdict with
    | none =>
      simp only [VerdictWritten, href] at h
      exact ⟨row, (h d).trans hd, rfl, fun _ => rfl, fun _ => rfl⟩
    | some status =>
      simp only [VerdictWritten, href] at h
      by_cases hne : d = d₀
      · subst hne
        have hnew := h.1
        rw [hd] at hnew
        exact ⟨_, hnew, rfl, fun h => absurd rfl h, fun _ => rfl⟩
      · refine ⟨row, (h.2 d hne).trans hd, rfl, fun _ => rfl, fun heq => ?_⟩
        exact absurd (Option.some.inj heq).symm hne

/-- No row comes into being, and none gets another link. -/
theorem VerdictWritten.row_back {payload : Payload} {verdict : Option DomainStatus}
    {t t' : Tables} (h : VerdictWritten payload verdict t t') {d : DomainRef} {row' : DomainRow}
    (hd : t'.row d = some row') : ∃ row, t.row d = some row ∧ row.link = row'.link := by
  cases ht : t.row d with
  | some row =>
    obtain ⟨row'', hd'', hlink, -⟩ := h.row_some ht
    obtain rfl := Option.some.inj (hd''.symm.trans hd)
    exact ⟨row, rfl, hlink.symm⟩
  | none =>
    exfalso
    unfold VerdictWritten at h
    split at h
    · rename_i d₀ status _
      by_cases hne : d = d₀
      · rw [← hne, RowUpdated, ht] at h
        rw [h.1] at hd
        cases hd
      · rw [h.2 d hne, ht] at hd
        cases hd
    · rw [h d, ht] at hd
      cases hd

section Hooks

variable {payload : Payload} {requestId approverId : Uuid} {env : HookEnv}
  {tables tables' : TxTables Tables}

theorem verdictWritten_none (h : tables'.domain = tables.domain) :
    VerdictWritten payload none tables.domain tables'.domain := by
  unfold VerdictWritten
  split
  · contradiction
  · intro d
    rw [h]

theorem verdictWritten_skip (env : HookEnv) (h : Hook.skip env tables = .ok tables') :
    VerdictWritten payload none tables.domain tables'.domain := by
  obtain rfl := Except.ok.inj h
  exact verdictWritten_none rfl

/-- Offboarding touches no row under review. -/
theorem row_offboard (employeeId : Uuid) (now : Time) (tables : Tables) (d : DomainRef) :
    (OffboardingTypeDef.offboard employeeId now tables).row d = tables.row d :=
  row_congr rfl rfl rfl d

/-- A row update survives changes of the other tables. -/
theorem RowUpdated.congr {d : DomainRef} {f : DomainRow → DomainRow} {t t' t'' : Tables}
    (h : RowUpdated d f t t') (heq : ∀ d, t''.row d = t'.row d) : RowUpdated d f t t'' :=
  ⟨(heq d).trans h.1, fun d' hd' => (heq d').trans (h.2 d' hd')⟩

theorem rowUpdated_accessReview (status : AccessRequestStatus) (p : AccessRequestPayload)
    (now : Time) (t : Tables) :
    RowUpdated (.access p.accessRequestId) (DomainRow.decide status.toDomain) t
      (AccessRequestTypeDef.review status p approverId now t) :=
  rowUpdated_access t p.accessRequestId _ _ fun _ => rfl

theorem rowUpdated_leaveReview (status : LeaveStatus) (p : LeaveRequestPayload) (now : Time)
    (t : Tables) :
    RowUpdated (.leave p.leaveRequestId) (DomainRow.decide status.toDomain) t
      (LeaveRequestTypeDef.review status p approverId now t) :=
  rowUpdated_leave t p.leaveRequestId _ _ fun _ => rfl

theorem rowUpdated_overtimeReview (status : OvertimeStatus) (p : OvertimePayload) (now : Time)
    (t : Tables) :
    RowUpdated (.overtime p.overtimeId) (DomainRow.decide status.toDomain) t
      (OvertimeTypeDef.review status p approverId now t) :=
  rowUpdated_overtime t p.overtimeId _ _ fun _ => rfl

theorem verdictWritten_onApprove
    (h : payload.typeDef.onApprove payload requestId approverId env tables = .ok tables') :
    VerdictWritten payload (some .approved) tables.domain tables'.domain := by
  cases payload with
  | accessRequest payload =>
    simp only [Payload.typeDef, accessRequestTypeDef] at h
    obtain ⟨p, accessGrants, hp, -, hdomain⟩ := AccessRequestTypeDef.onApprove_ok h
    obtain rfl := Payload.accessRequest.inj hp
    rw [hdomain]
    exact (rowUpdated_accessReview .approved payload env.now tables.domain).congr
      (row_congr rfl rfl rfl)
  | leaveRequest payload =>
    simp only [Payload.typeDef, leaveRequestTypeDef] at h
    obtain ⟨p, hp, hdomain⟩ := LeaveRequestTypeDef.onApprove_ok h
    obtain rfl := Payload.leaveRequest.inj hp
    rw [hdomain]
    exact rowUpdated_leaveReview .approved payload env.now tables.domain
  | overtime payload =>
    simp only [Payload.typeDef, overtimeTypeDef] at h
    obtain ⟨p, hp, hdomain⟩ := OvertimeTypeDef.onApprove_ok h
    obtain rfl := Payload.overtime.inj hp
    rw [hdomain]
    exact rowUpdated_overtimeReview .approved payload env.now tables.domain
  | offboarding payload =>
    simp only [Payload.typeDef, offboardingTypeDef] at h
    obtain ⟨p, hp, hdomain⟩ := OffboardingTypeDef.onApprove_ok h
    rw [hdomain]
    exact row_offboard p.employeeId env.now tables.domain
  | onboarding payload =>
    obtain rfl := Except.ok.inj h
    exact fun d => rfl
  | catalogRequest payload =>
    obtain rfl := Except.ok.inj h
    exact fun d => rfl

/-- The hook of `reject`; a type without one has no row under review. -/
theorem verdictWritten_onReject
    (h : Hook.orSkip (payload.typeDef.onReject.map fun hook => hook payload requestId approverId)
      env tables = .ok tables') :
    VerdictWritten payload (some .rejected) tables.domain tables'.domain := by
  cases payload with
  | accessRequest payload =>
    simp only [Payload.typeDef, accessRequestTypeDef, Option.map_some, Hook.orSkip_some] at h
    obtain ⟨p, hp, hdomain⟩ := AccessRequestTypeDef.onReject_ok h
    obtain rfl := Payload.accessRequest.inj hp
    rw [hdomain]
    exact rowUpdated_accessReview .rejected payload env.now tables.domain
  | leaveRequest payload =>
    simp only [Payload.typeDef, leaveRequestTypeDef, Option.map_some, Hook.orSkip_some] at h
    obtain ⟨p, hp, hdomain⟩ := LeaveRequestTypeDef.onReject_ok h
    obtain rfl := Payload.leaveRequest.inj hp
    rw [hdomain]
    exact rowUpdated_leaveReview .rejected payload env.now tables.domain
  | overtime payload =>
    simp only [Payload.typeDef, overtimeTypeDef, Option.map_some, Hook.orSkip_some] at h
    obtain ⟨p, hp, hdomain⟩ := OvertimeTypeDef.onReject_ok h
    obtain rfl := Payload.overtime.inj hp
    rw [hdomain]
    exact rowUpdated_overtimeReview .rejected payload env.now tables.domain
  | offboarding payload =>
    obtain rfl := Except.ok.inj h
    exact fun d => rfl
  | onboarding payload =>
    obtain rfl := Except.ok.inj h
    exact fun d => rfl
  | catalogRequest payload =>
    obtain rfl := Except.ok.inj h
    exact fun d => rfl

/-- The hook of `expire`; a type without one has no row under review. -/
theorem verdictWritten_onExpire
    (h : Hook.orSkip (payload.typeDef.onExpire.map fun hook => hook payload requestId)
      env tables = .ok tables') :
    VerdictWritten payload (some payload.expiredStatus) tables.domain tables'.domain := by
  cases payload with
  | accessRequest payload =>
    simp only [Payload.typeDef, accessRequestTypeDef, Option.map_some, Hook.orSkip_some] at h
    obtain ⟨p, hp, hdomain⟩ := AccessRequestTypeDef.onExpire_ok h
    obtain rfl := Payload.accessRequest.inj hp
    rw [hdomain]
    exact rowUpdated_access tables.domain payload.accessRequestId _ _ fun _ => rfl
  | leaveRequest payload =>
    simp only [Payload.typeDef, leaveRequestTypeDef, Option.map_some, Hook.orSkip_some] at h
    obtain ⟨p, hp, hdomain⟩ := LeaveRequestTypeDef.onExpire_ok h
    obtain rfl := Payload.leaveRequest.inj hp
    rw [hdomain]
    exact rowUpdated_leave tables.domain payload.leaveRequestId _ _ fun _ => rfl
  | overtime payload =>
    simp only [Payload.typeDef, overtimeTypeDef, Option.map_some, Hook.orSkip_some] at h
    obtain ⟨p, hp, hdomain⟩ := OvertimeTypeDef.onExpire_ok h
    obtain rfl := Payload.overtime.inj hp
    rw [hdomain]
    exact rowUpdated_overtime tables.domain payload.overtimeId _ _ fun _ => rfl
  | offboarding payload =>
    obtain rfl := Except.ok.inj h
    exact fun d => rfl
  | onboarding payload =>
    obtain rfl := Except.ok.inj h
    exact fun d => rfl
  | catalogRequest payload =>
    obtain rfl := Except.ok.inj h
    exact fun d => rfl

/-- The hook of a step approval changes no row. -/
theorem verdictWritten_onStepApproved {completedStep nextStep : ℕ} {nextAssigneeId : Option Uuid}
    (h : Hook.orSkip (payload.typeDef.onStepApproved.map fun hook => hook payload requestId completedStep nextStep
      nextAssigneeId approverId)
      env tables = .ok tables') :
    VerdictWritten payload none tables.domain tables'.domain := by
  cases payload with
  | accessRequest payload =>
    have hstep : AccessRequestTypeDef.onStepApproved (.accessRequest payload) requestId
        completedStep env tables = .ok tables' := h
    exact verdictWritten_none (AccessRequestTypeDef.onStepApproved_ok hstep)
  | _ => exact verdictWritten_skip env h

/-- No type has a hook for cancellations. -/
theorem verdictWritten_onCancel
    (h : Hook.orSkip (payload.typeDef.onCancel.map fun hook => hook payload requestId approverId)
      env tables = .ok tables') :
    VerdictWritten payload none tables.domain tables'.domain := by
  cases payload <;> exact verdictWritten_skip env h

end Hooks

/-! ### Transitions -/

namespace RequestEngine

/-- The status that a transition to `status` writes to the row of `payload`. -/
def verdict (payload : Payload) : RequestStatus → Option DomainStatus
  | .approved => some .approved
  | .rejected => some .rejected
  | .expired => some payload.expiredStatus
  | .pending => none
  | .inReview => none
  | .cancelled => none

/-- **The rows after a committed transition.**  The hook writes the verdict on the row
of the payload, and nothing else. -/
theorem TransitionOf.verdictWritten {request : RequestItem Payload}
    {t : Transition Payload Tables} {env : HookEnv} {tables tables' : TxTables Tables}
    (ht : TransitionOf moduleRegistry request t) (htype : request.type = request.payload.type)
    (h : t.hook env tables = .ok tables') (r : RequestItem Payload) :
    VerdictWritten request.payload (verdict request.payload (t.update r).status)
      tables.domain tables'.domain := by
  have hdef' : ∀ {typeDef}, moduleRegistry request.type = some typeDef →
      request.payload.typeDef = typeDef := by
    intro typeDef hdef
    rw [htype, moduleRegistry_type] at hdef
    exact Option.some.inj hdef
  cases ht with
  | finalApproval hdef hfinal delegation note actor now =>
    obtain rfl := hdef' hdef
    exact verdictWritten_onApprove h
  | stepApproval hdef hfinal delegation note actor now nextAssigneeId =>
    obtain rfl := hdef' hdef
    exact verdictWritten_onStepApproved h
  | rejection hdef delegation note actor now =>
    obtain rfl := hdef' hdef
    exact verdictWritten_onReject h
  | cancellation hdef actor now =>
    obtain rfl := hdef' hdef
    exact verdictWritten_onCancel h
  | expiration hdef now =>
    obtain rfl := hdef' hdef
    exact verdictWritten_onExpire h

end RequestEngine

end OpsHub
