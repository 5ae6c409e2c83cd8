import OpsHub.Requests.Types

/-!
# The tables of the domain modules

The rows of the schemas `access`, `workforce`, `identity`, `authz` and `assets` with
the columns that the modelled services read or write, and `Tables`, which holds them
all: it is the part of the database that the hooks of the request types map to a new
one.
-/

namespace OpsHub

/-- A calendar date, as the number of its day: strings `YYYY-MM-DD` compare as the days do. -/
abbrev Date := ℕ

/-! ### Access requests -/

/-- `access_type`. -/
inductive AccessType
  | localAdmin
  | pimRole
  | appAdmin
  | vpn
  | other
  deriving DecidableEq, Repr

/-- `access_request_status`. -/
inductive AccessRequestStatus
  | pending
  | approved
  | rejected
  | expired
  | revoked
  deriving DecidableEq, Repr

/-- A row of `access_requests`. -/
structure AccessRequest where
  id : Uuid
  requesterId : Uuid
  accessType : AccessType
  target : String
  justification : String
  durationHours : ℕ
  status : AccessRequestStatus := .pending
  reviewerId : Option Uuid := none
  reviewNote : Option String := none
  reviewedAt : Option Time := none
  updatedAt : Time
  requestId : Option Uuid := none
  deriving DecidableEq, Repr

/-- A row of `access_grants`. -/
structure AccessGrant where
  id : Uuid
  requestId : Uuid
  granteeId : Uuid
  accessType : AccessType
  target : String
  grantedAt : Time
  expiresAt : Time
  revokedAt : Option Time := none
  deriving DecidableEq, Repr

/-! ### Workforce -/

/-- `leave_type`. -/
inductive LeaveType
  | annual
  | sick
  | unpaid
  | parental
  | other
  deriving DecidableEq, Repr

/-- `leave_status`. -/
inductive LeaveStatus
  | pending
  | approved
  | rejected
  | cancelled
  deriving DecidableEq, Repr

/-- A row of `leave_requests`. -/
structure LeaveRequest where
  id : Uuid
  employeeId : Uuid
  leaveType : LeaveType
  startDate : Date
  endDate : Date
  reason : Option String
  status : LeaveStatus := .pending
  reviewerId : Option Uuid := none
  reviewedAt : Option Time := none
  requestId : Option Uuid := none
  documentStorageKey : Option String := none
  deriving DecidableEq, Repr

/-- `overtime_status`. -/
inductive OvertimeStatus
  | pending
  | approved
  | rejected
  deriving DecidableEq, Repr

/-- A row of `overtime_entries`; `hours` counts hundredths, the scale of the column. -/
structure OvertimeEntry where
  id : Uuid
  employeeId : Uuid
  workDate : Date
  hours : ℕ
  reason : String
  status : OvertimeStatus := .pending
  reviewerId : Option Uuid := none
  reviewedAt : Option Time := none
  requestId : Option Uuid := none
  deriving DecidableEq, Repr

/-! ### Identity -/

/-- `employee_status`. -/
inductive EmployeeStatus
  | active
  | onLeave
  | offboarded
  deriving DecidableEq, Repr

/-- A row of `employees`. -/
structure Employee where
  id : Uuid
  entraOid : Option String
  email : String
  displayName : String
  roles : List String
  status : EmployeeStatus := .active
  photoStorageKey : Option String := none
  updatedAt : Time
  deriving DecidableEq, Repr

/-- A row of `refresh_tokens`. -/
structure RefreshToken where
  id : Uuid
  employeeId : Uuid
  tokenHash : String
  familyId : Uuid
  revoked : Bool := false
  expiresAt : Time
  deriving DecidableEq, Repr

/-! ### Authorization -/

/-- `scope_type`. -/
inductive ScopeType
  | «global»
  | self
  | team
  | dept
  | region
  deriving DecidableEq, Repr

/-- A row of `roles`. -/
structure Role where
  id : Uuid
  key : String
  name : String
  system : Bool := false
  updatedAt : Time
  deriving DecidableEq, Repr

/-- A row of `role_permissions`. -/
structure RolePermission where
  roleId : Uuid
  permissionKey : PermissionKey
  deriving DecidableEq, Repr

/-- A row of `user_role_assignments`. -/
structure UserRoleAssignment where
  id : Uuid
  userId : Uuid
  roleId : Uuid
  scopeType : ScopeType
  scopeId : Option String
  grantedBy : Uuid
  expiresAt : Option Time
  deriving DecidableEq, Repr

/-! ### Assets -/

/-- `asset_status`. -/
inductive AssetStatus
  | inStock
  | assigned
  | inRepair
  | retired
  | lost
  deriving DecidableEq, Repr

/-- A row of `assets`. -/
structure Asset where
  id : Uuid
  assetTag : String
  status : AssetStatus := .inStock
  assignedTo : Option Uuid := none
  photoStorageKey : Option String := none
  updatedAt : Time
  deriving DecidableEq, Repr

/-- A row of `asset_assignments`. -/
structure AssetAssignment where
  id : Uuid
  assetId : Uuid
  employeeId : Uuid
  assignedAt : Time
  returnedAt : Option Time := none
  notes : Option String
  deriving DecidableEq, Repr

/-! ### All of them -/

/-- The tables of the domain modules. -/
structure Tables where
  accessRequests : Table AccessRequest.id
  accessGrants : Table AccessGrant.id
  leaveRequests : Table LeaveRequest.id
  overtimeEntries : Table OvertimeEntry.id
  employees : Table Employee.id
  refreshTokens : Table RefreshToken.id
  roles : List Role
  rolePermissions : List RolePermission
  userRoleAssignments : Table UserRoleAssignment.id
  assets : Table Asset.id
  assetAssignments : Table AssetAssignment.id

/-- A database in which nothing has been stored. -/
def Tables.empty : Tables where
  accessRequests := Table.empty _
  accessGrants := Table.empty _
  leaveRequests := Table.empty _
  overtimeEntries := Table.empty _
  employees := Table.empty _
  refreshTokens := Table.empty _
  roles := []
  rolePermissions := []
  userRoleAssignments := Table.empty _
  assets := Table.empty _
  assetAssignments := Table.empty _

/-- The status in the row of an employee. -/
def Tables.employeeStatus (tables : Tables) (id : Uuid) : Option EmployeeStatus :=
  (tables.employees.find id).map Employee.status

end OpsHub
