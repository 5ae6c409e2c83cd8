import OpsHub.Domain.TypeDefs

/-!
# Custody of assets

`AssetService.create`, `assign`, `unassign` and `retire`: the tests on what a call has read, and
the statement or the transaction that follows them.
-/

namespace OpsHub

namespace EmployeeService

/-- `EmployeeService.getById`. -/
def getById (tables : Tables) (id : Uuid) : Except Failure Employee :=
  Outcome.orThrow (.notFound "EMPLOYEE_NOT_FOUND" "Employee not found") (tables.employees.find id)

end EmployeeService

namespace AssetDrizzleRepository

/-- The row that `assign` inserts. -/
def assignment (assetId employeeId : Uuid) (notes : Option String) (now : Time) (newId : Uuid) :
    AssetAssignment where
  id := newId
  assetId := assetId
  employeeId := employeeId
  assignedAt := now
  notes := notes

/-- `assign`. -/
def assign (assetId employeeId : Uuid) (notes : Option String) (now : Time) (newId : Uuid)
    (tables : Tables) : Except Failure Tables := do
  let assets := tables.assets.update assetId
    (fun a => { a with status := .assigned, assignedTo := some employeeId, updatedAt := now })
    (fun _ => rfl)
  let assetAssignments ← Outcome.orThrow (.duplicateKey "asset_assignments")
    (tables.assetAssignments.insert (assignment assetId employeeId notes now newId))
  pure { tables with assets := assets, assetAssignments := assetAssignments }

theorem id_returned (now : Time) (a : AssetAssignment) :
    ({ a with returnedAt := some now } : AssetAssignment).id = a.id := rfl

/-- `unassign`. -/
def unassign (assetId : Uuid) (now : Time) (tables : Tables) : Tables :=
  { tables with
    assets := tables.assets.update assetId
      (fun a => { a with status := .inStock, assignedTo := none, updatedAt := now }) (fun _ => rfl)
    assetAssignments := tables.assetAssignments.updateWhere
      (fun a => decide (a.assetId = assetId ∧ a.returnedAt = none))
      (fun a => { a with returnedAt := some now }) (id_returned now) }

/-- `findByTag`. -/
def findByTag (tables : Tables) (assetTag : String) : Option Asset :=
  tables.assets.rows.find? (fun a => decide (a.assetTag = assetTag))

/-- `create`, with the primary key and the unique index on the tag. -/
def create (assetTag : String) (now : Time) (newId : Uuid) (tables : Tables) :
    Except Failure Tables := do
  Outcome.require (findByTag tables assetTag = none) (.duplicateKey "uq_asset_tag")
  let assets ← Outcome.orThrow (.duplicateKey "assets")
    (tables.assets.insert { id := newId, assetTag := assetTag, updatedAt := now })
  pure { tables with assets := assets }

/-- `retire`. -/
def retire (assetId : Uuid) (now : Time) (tables : Tables) : Tables :=
  { tables with
    assets := tables.assets.update assetId
      (fun a => { a with status := .retired, assignedTo := none, updatedAt := now })
      (fun _ => rfl) }

theorem assign_ok {assetId employeeId newId : Uuid} {notes : Option String} {now : Time}
    {tables tables' : Tables} (h : assign assetId employeeId notes now newId tables = .ok tables') :
    ∃ assets assetAssignments,
      tables.assetAssignments.insert (assignment assetId employeeId notes now newId) =
        some assetAssignments ∧
      tables' = { tables with assets := assets, assetAssignments := assetAssignments } := by
  simp only [assign, Except.bind_eq_ok_iff, Outcome.orThrow_eq_ok_iff, Except.pure_eq_ok_iff] at h
  obtain ⟨assetAssignments, hinsert, rfl⟩ := h
  exact ⟨_, assetAssignments, hinsert, rfl⟩

end AssetDrizzleRepository

namespace AssetService

/-- `getById`. -/
def getById (tables : Tables) (id : Uuid) : Except Failure Asset :=
  Outcome.orThrow (.notFound "ASSET_NOT_FOUND" "Asset not found") (tables.assets.find id)

/-- `create`, before the insertion. -/
def create (tables : Tables) (assetTag : String) : Except Failure Unit :=
  Outcome.require (AssetDrizzleRepository.findByTag tables assetTag = none)
    (.conflict "ASSET_TAG_TAKEN" ("Asset tag " ++ assetTag ++ " is taken"))

/-- `assign`, before its transaction; of the employee it asks only that there is one. -/
def assign (tables : Tables) (assetId employeeId : Uuid) : Except Failure Unit := do
  let asset ← getById tables assetId
  Outcome.require (asset.status ≠ .retired ∧ asset.status ≠ .lost)
    (.preconditionFailed "ASSET_RETIRED" "Asset cannot be assigned")
  Outcome.require (asset.assignedTo = none)
    (.conflict "ASSET_ALREADY_ASSIGNED" "Asset is already assigned")
  let _ ← EmployeeService.getById tables employeeId
  pure ()

/-- `unassign`, before its transaction. -/
def unassign (tables : Tables) (assetId : Uuid) : Except Failure Unit := do
  let asset ← getById tables assetId
  Outcome.require (asset.assignedTo ≠ none)
    (.preconditionFailed "ASSET_NOT_ASSIGNED" "Asset is not assigned")

/-- `retire`, before its update; it asks for the status, not for the employee. -/
def retire (tables : Tables) (assetId : Uuid) : Except Failure Unit := do
  let asset ← getById tables assetId
  Outcome.require (asset.status ≠ .retired)
    (.preconditionFailed "ASSET_RETIRED" "Asset is already retired")
  Outcome.require (asset.status ≠ .assigned)
    (.preconditionFailed "ASSET_ALREADY_ASSIGNED"
      "Cannot retire an assigned asset — unassign it first")

end AssetService

end OpsHub
