import OpsHub.Domain.Tables
import OpsHub.Lib.Outcome

/-!
# Software licenses

The schema `licenses`, the statements of `LicenseDrizzleRepository`, and the calls of
`LicenseService` one statement at a time: `LicenseCall.advance` makes the next statement of a
call and tests its answer.
-/

namespace OpsHub

/-! ### The schema -/

/-- `license_type`. -/
inductive LicenseType
  | perpetual
  | subscription
  | perSeat
  | concurrent
  deriving DecidableEq, Repr

/-- `license_status`. -/
inductive LicenseStatus
  | active
  | expiringSoon
  | expired
  | cancelled
  deriving DecidableEq, Repr

/-- A row of `software_licenses`; without a `seatCount` the seats are unlimited. -/
structure SoftwareLicense where
  id : Uuid
  name : String
  vendor : String
  licenseType : LicenseType
  seatCount : Option ℕ
  costPerSeatCents : Option ℕ
  renewalDate : Option Date
  status : LicenseStatus := .active
  notes : Option String
  externalId : Option String
  createdAt : Time
  updatedAt : Time
  deriving DecidableEq, Repr

/-- A row of `license_assignments`; the schema has neither a foreign key nor a unique index. -/
structure LicenseAssignment where
  id : Uuid
  licenseId : Uuid
  employeeId : Uuid
  assignedAt : Time
  revokedAt : Option Time := none
  notes : Option String
  deriving DecidableEq, Repr

/-- The tables of the schema. -/
structure LicenseTables where
  softwareLicenses : Table SoftwareLicense.id
  licenseAssignments : Table LicenseAssignment.id

/-- No license yet. -/
def LicenseTables.empty : LicenseTables := ⟨Table.empty _, Table.empty _⟩

/-- `CreateLicenseInput`. -/
structure CreateLicenseInput where
  name : String
  vendor : String
  licenseType : LicenseType
  seatCount : Option ℕ := none
  costPerSeatCents : Option ℕ := none
  renewalDate : Option Date := none
  notes : Option String := none
  externalId : Option String := none
  deriving DecidableEq, Repr

/-- `UpdateLicenseInput`: a field that is absent is left alone, and a column that may be null
can be set to null. -/
structure UpdateLicenseInput where
  name : Option String := none
  vendor : Option String := none
  licenseType : Option LicenseType := none
  seatCount : Option (Option ℕ) := none
  costPerSeatCents : Option (Option ℕ) := none
  renewalDate : Option (Option Date) := none
  status : Option LicenseStatus := none
  notes : Option (Option String) := none
  externalId : Option (Option String) := none
  deriving DecidableEq, Repr

/-! ### The statements -/

namespace LicenseDrizzleRepository

/-- The row that `create` inserts. -/
def license (input : CreateLicenseInput) (now : Time) (newId : Uuid) : SoftwareLicense where
  id := newId
  name := input.name
  vendor := input.vendor
  licenseType := input.licenseType
  seatCount := input.seatCount
  costPerSeatCents := input.costPerSeatCents
  renewalDate := input.renewalDate
  notes := input.notes
  externalId := input.externalId
  createdAt := now
  updatedAt := now

/-- `create`. -/
def create (input : CreateLicenseInput) (now : Time) (newId : Uuid) (tables : LicenseTables) :
    Except Failure LicenseTables := do
  let softwareLicenses ← Outcome.orThrow (.duplicateKey "software_licenses")
    (tables.softwareLicenses.insert (license input now newId))
  pure { tables with softwareLicenses := softwareLicenses }

/-- `findById`. -/
def findById (tables : LicenseTables) (id : Uuid) : Option SoftwareLicense :=
  tables.softwareLicenses.find id

/-- The columns that `update` sets. -/
def patch (input : UpdateLicenseInput) (now : Time) (l : SoftwareLicense) : SoftwareLicense :=
  { l with
    name := input.name.getD l.name
    vendor := input.vendor.getD l.vendor
    licenseType := input.licenseType.getD l.licenseType
    seatCount := input.seatCount.getD l.seatCount
    costPerSeatCents := input.costPerSeatCents.getD l.costPerSeatCents
    renewalDate := input.renewalDate.getD l.renewalDate
    status := input.status.getD l.status
    notes := input.notes.getD l.notes
    externalId := input.externalId.getD l.externalId
    updatedAt := now }

/-- `update`. -/
def update (id : Uuid) (input : UpdateLicenseInput) (now : Time) (tables : LicenseTables) :
    LicenseTables :=
  { tables with
    softwareLicenses := tables.softwareLicenses.update id (patch input now) (fun _ => rfl) }

/-- `delete`; the assignments of the license stay. -/
def delete (id : Uuid) (tables : LicenseTables) : LicenseTables :=
  { tables with
    softwareLicenses := tables.softwareLicenses.deleteWhere (fun l => decide (l.id = id)) }

/-- The row that `assign` inserts. -/
def assignment (licenseId employeeId : Uuid) (notes : Option String) (now : Time) (newId : Uuid) :
    LicenseAssignment where
  id := newId
  licenseId := licenseId
  employeeId := employeeId
  assignedAt := now
  notes := notes

/-- `assign`. -/
def assign (licenseId employeeId : Uuid) (notes : Option String) (now : Time) (newId : Uuid)
    (tables : LicenseTables) : Except Failure LicenseTables := do
  let licenseAssignments ← Outcome.orThrow (.duplicateKey "license_assignments")
    (tables.licenseAssignments.insert (assignment licenseId employeeId notes now newId))
  pure { tables with licenseAssignments := licenseAssignments }

/-- `revoke`; a seat that is revoked already is revoked again. -/
def revoke (assignmentId : Uuid) (now : Time) (tables : LicenseTables) : LicenseTables :=
  { tables with
    licenseAssignments := tables.licenseAssignments.update assignmentId
      (fun a => { a with revokedAt := some now }) (fun _ => rfl) }

/-- `findActiveAssignment`. -/
def findActiveAssignment (tables : LicenseTables) (licenseId employeeId : Uuid) :
    Option LicenseAssignment :=
  tables.licenseAssignments.rows.find?
    (fun a => decide (a.licenseId = licenseId ∧ a.employeeId = employeeId ∧ a.revokedAt = none))

/-- `countActiveSeats`. -/
def countActiveSeats (tables : LicenseTables) (licenseId : Uuid) : ℕ :=
  tables.licenseAssignments.rows.countP
    (fun a => decide (a.licenseId = licenseId ∧ a.revokedAt = none))

end LicenseDrizzleRepository

/-! ### The calls -/

/-- What a call of `LicenseService` has still to do; `assign` keeps the license that it has read. -/
inductive LicenseCall
  | create (input : CreateLicenseInput)
  | update (id : Uuid) (input : UpdateLicenseInput)
  | updateFound (id : Uuid) (input : UpdateLicenseInput)
  | delete (id : Uuid)
  | deleteFound (id : Uuid)
  | deleteUnused (id : Uuid)
  | assign (licenseId employeeId : Uuid) (notes : Option String)
  | assignFound (license : SoftwareLicense) (licenseId employeeId : Uuid) (notes : Option String)
  | assignLimited (seatCount : ℕ) (licenseId employeeId : Uuid) (notes : Option String)
  | assignSeat (licenseId employeeId : Uuid) (notes : Option String)
  | revoke (assignmentId : Uuid)
  | done (result : Except Failure Unit)

namespace LicenseService

/-- `getById`, and how the call goes on with the license. -/
def getById (tables : LicenseTables) (id : Uuid) (next : SoftwareLicense → LicenseCall) :
    LicenseCall :=
  match LicenseDrizzleRepository.findById tables id with
  | some license => next license
  | none => .done (.error (.notFound "NOT_FOUND" "License not found"))

/-- The tables after an insertion, and the end of the call. -/
def finish (tables : LicenseTables) : Except Failure LicenseTables → LicenseTables × LicenseCall
  | .ok tables' => (tables', .done (.ok ()))
  | .error e => (tables, .done (.error e))

/-- The test of `delete` on the number of active seats. -/
def deleteCounted (id : Uuid) (usedSeats : ℕ) : LicenseCall :=
  if usedSeats > 0 then
    .done (.error (.preconditionFailed "PRECONDITION_FAILED"
      ("Cannot delete license with " ++ toString usedSeats ++
        " active assignment(s). Revoke all seats first.")))
  else .deleteUnused id

/-- The test of `assign` on the seat that the employee may have already. -/
def assignTested (license : SoftwareLicense) (licenseId employeeId : Uuid)
    (notes : Option String) : Option LicenseAssignment → LicenseCall
  | some _ => .done (.error (.conflict "CONFLICT"
      "Employee already has an active seat for this license"))
  | none =>
    match license.seatCount with
    | some seatCount => .assignLimited seatCount licenseId employeeId notes
    | none => .assignSeat licenseId employeeId notes

/-- The test of `assign` on the number of active seats; the limit is the one read first. -/
def assignCounted (seatCount used : ℕ) (licenseId employeeId : Uuid) (notes : Option String) :
    LicenseCall :=
  if used ≥ seatCount then
    .done (.error (.preconditionFailed "PRECONDITION_FAILED"
      "No seats available for this license"))
  else .assignSeat licenseId employeeId notes

end LicenseService

open LicenseService in
/-- The next statement of a call: the tables after it, and the rest of the call. -/
def LicenseCall.advance (now : Time) (newId : Uuid) (tables : LicenseTables) :
    LicenseCall → LicenseTables × LicenseCall
  | .create input => finish tables (LicenseDrizzleRepository.create input now newId tables)
  | .update id input => (tables, getById tables id fun _ => .updateFound id input)
  | .updateFound id input =>
    -- the statement returns no row, and the call throws, when the license is gone by now
    (LicenseDrizzleRepository.update id input now tables,
      getById tables id fun _ => .done (.ok ()))
  | .delete id => (tables, getById tables id fun _ => .deleteFound id)
  | .deleteFound id =>
    (tables, deleteCounted id (LicenseDrizzleRepository.countActiveSeats tables id))
  | .deleteUnused id => (LicenseDrizzleRepository.delete id tables, .done (.ok ()))
  | .assign licenseId employeeId notes =>
    (tables, getById tables licenseId fun license =>
      .assignFound license licenseId employeeId notes)
  | .assignFound license licenseId employeeId notes =>
    (tables, assignTested license licenseId employeeId notes
      (LicenseDrizzleRepository.findActiveAssignment tables licenseId employeeId))
  | .assignLimited seatCount licenseId employeeId notes =>
    (tables, assignCounted seatCount
      (LicenseDrizzleRepository.countActiveSeats tables licenseId) licenseId employeeId notes)
  | .assignSeat licenseId employeeId notes =>
    finish tables (LicenseDrizzleRepository.assign licenseId employeeId notes now newId tables)
  | .revoke assignmentId =>
    (LicenseDrizzleRepository.revoke assignmentId now tables, .done (.ok ()))
  | .done result => (tables, .done result)

end OpsHub
