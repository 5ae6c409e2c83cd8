import OpsHub.Domain.Tables
import OpsHub.Lib.Outcome
import OpsHub.Lib.Pool
import OpsHub.Lib.Runs
import OpsHub.Lib.Seeding

/-!
# The seed

`main` of `db/seed.ts` inserts the permissions, the system roles with their permissions, an employee
for every role, and the role assignments of these employees, each of them where it is missing.

* `permissions`, `roles`, `employees`: what is seeded;
* `Stage`, `advance`: the statements of one run;
* `SeedState`, `step`: several runs at a time, each of which may be stopped between two statements;
* `Grown`: nothing that was there is changed, and what is missing is added once;
* `Reached`: what a run has found or added before a statement;
* `advance_spec`: the step lemma;
* `seed_once`: so it is in every order of the statements.
-/

namespace OpsHub

namespace Seed

/-! ### What is seeded -/

/-- A row of `permissions`. -/
structure Permission where
  key : PermissionKey
  description : String
  deriving DecidableEq, Repr

/-- An entry of `ROLES`. -/
structure RoleSeed where
  key : String
  name : String
  permissions : List PermissionKey
  deriving DecidableEq, Repr

/-- An entry of `EMPLOYEES`. -/
structure EmployeeSeed where
  email : String
  displayName : String
  department : String
  jobTitle : String
  roleKeys : List String
  status : EmployeeStatus
  deriving DecidableEq, Repr

/-- `PERMISSIONS`. -/
def permissions : List Permission := [
  ⟨"*", "Wildcard — grants every permission (admin only)"⟩,
  ⟨"rbac.read", "View roles, permissions and assignments"⟩,
  ⟨"rbac.manage", "Create / edit / delete roles and permissions"⟩,
  ⟨"role.assign", "Grant and revoke role assignments"⟩,
  ⟨"employee.read", "View employee directory records"⟩,
  ⟨"employee.write", "Create and update employee records"⟩,
  ⟨"employee.offboard", "Trigger offboarding and revoke all access"⟩,
  ⟨"asset.read", "View hardware asset inventory"⟩,
  ⟨"asset.write", "Create and update asset records"⟩,
  ⟨"asset.reassign", "Reassign assets between employees"⟩,
  ⟨"access_request.read", "View privileged-access requests"⟩,
  ⟨"access_request.approve", "Step-1 approval for access requests (manager tier)"⟩,
  ⟨"access_request.security_approve", "Step-2 IT-Security approval for access requests"⟩,
  ⟨"compliance.read", "View compliance findings and software catalog"⟩,
  ⟨"compliance.manage", "Resolve findings and manage compliance data"⟩,
  ⟨"workforce.read", "View timesheets, leave and overtime entries"⟩,
  ⟨"workforce.approve", "Approve or reject workforce requests (legacy)"⟩,
  ⟨"workforce.leave.review", "Approve or reject leave requests via the approval engine"⟩,
  ⟨"workforce.overtime.review", "Approve or reject overtime requests via the approval engine"⟩,
  ⟨"onboarding.approve", "Step-1: Manager approves new employee hire"⟩,
  ⟨"onboarding.provision", "Step-2: IT provisions accounts and equipment"⟩,
  ⟨"onboarding.complete", "Step-3: HR marks onboarding complete"⟩,
  ⟨"offboarding.approve", "HR approves offboarding and triggers full access revocation"⟩,
  ⟨"audit.read", "Read the immutable audit log"⟩,
  ⟨"reports.read", "View aggregate reports and analytics dashboards"⟩,
  ⟨"security.view", "View Secure Score trends and baseline drift checks"⟩,
  ⟨"security.manage", "Trigger Graph sync and manage security posture data"⟩,
  ⟨"notifications.manage", "Manage notification preferences for all users"⟩,
  ⟨"webhooks.manage", "Create and manage outbound webhook subscriptions"⟩,
  ⟨"catalog.manage", "Create / edit / delete service catalog items"⟩,
  ⟨"license.read", "View software licenses, seats and utilization"⟩,
  ⟨"license.manage", "Create / edit licenses and assign / revoke seats"⟩]

/-- `ROLES`. -/
def roles : List RoleSeed := [
  ⟨"admin", "Platform Administrator", ["*"]⟩,
  ⟨"it-admin", "IT Administrator", ["employee.read", "employee.write", "asset.read",
    "asset.write", "asset.reassign", "access_request.read", "access_request.approve",
    "access_request.security_approve", "compliance.read", "security.view", "security.manage",
    "audit.read", "reports.read", "rbac.read", "onboarding.provision", "webhooks.manage",
    "catalog.manage", "license.read", "license.manage"]⟩,
  ⟨"security", "Security Officer", ["compliance.read", "compliance.manage", "security.view",
    "security.manage", "access_request.read", "access_request.approve",
    "access_request.security_approve", "audit.read", "reports.read", "license.read"]⟩,
  ⟨"hr", "HR Manager", ["employee.read", "employee.write", "employee.offboard", "workforce.read",
    "workforce.approve", "workforce.leave.review", "workforce.overtime.review", "audit.read",
    "reports.read", "onboarding.approve", "onboarding.complete", "offboarding.approve"]⟩,
  ⟨"manager", "People Manager", ["employee.read", "workforce.read", "workforce.approve",
    "workforce.leave.review", "workforce.overtime.review", "access_request.read",
    "access_request.approve", "reports.read", "onboarding.approve"]⟩,
  ⟨"helpdesk", "Help Desk", ["asset.read", "asset.write", "access_request.read", "employee.read"]⟩,
  ⟨"auditor", "Auditor (read-only)", ["rbac.read", "audit.read", "compliance.read",
    "security.view", "employee.read", "asset.read", "reports.read", "license.read"]⟩,
  ⟨"employee", "Employee", []⟩]

/-- `EMPLOYEES`. -/
def employees : List EmployeeSeed := [
  ⟨"admin@opshub.local", "Platform Admin", "IT Operations",
    "Platform Administrator", ["admin"], .active⟩,
  ⟨"it.admin@opshub.local", "IT Admin", "IT Operations",
    "IT Systems Administrator", ["it-admin"], .active⟩,
  ⟨"security@opshub.local", "Security Officer", "Information Security",
    "Information Security Officer", ["security"], .active⟩,
  ⟨"hr@opshub.local", "HR Manager", "Human Resources",
    "HR Manager", ["hr"], .active⟩,
  ⟨"manager@opshub.local", "People Manager", "Engineering",
    "Engineering Manager", ["manager"], .active⟩,
  ⟨"helpdesk@opshub.local", "Help Desk Agent", "IT Operations",
    "IT Support Specialist", ["helpdesk"], .active⟩,
  ⟨"auditor@opshub.local", "Internal Auditor", "Compliance",
    "Internal Auditor", ["auditor"], .active⟩,
  ⟨"alice@opshub.local", "Alice Johnson", "Engineering",
    "Software Engineer", ["employee"], .active⟩,
  ⟨"bob@opshub.local", "Bob Smith", "Sales",
    "Account Executive", ["employee"], .active⟩,
  ⟨"carol@opshub.local", "Carol White", "Finance",
    "Financial Analyst", ["employee"], .active⟩]

theorem permissions_of_roles : ∀ r ∈ roles, ∀ p ∈ r.permissions, ∃ q ∈ permissions, q.key = p := by
  decide +kernel

theorem roles_of_employees : ∀ e ∈ employees, ∀ k ∈ e.roleKeys, ∃ r ∈ roles, r.key = k := by
  decide +kernel

theorem admin_employee : ∃ e ∈ employees, e.email = "admin@opshub.local" := by
  decide +kernel

/-! ### The tables -/

/-- A row of `employees`, with the columns that are seeded. -/
structure EmployeeRow extends Employee where
  department : Option String
  jobTitle : Option String
  deriving DecidableEq, Repr

/-- The tables that are seeded. -/
structure SeedTables where
  permissions : List Permission
  roles : List Role
  rolePermissions : List RolePermission
  employees : List EmployeeRow
  userRoleAssignments : List UserRoleAssignment

/-- The primary key of `permissions`. -/
def permissionIndex : UniqueIndex Permission String := ⟨["key"], none, fun p => some p.key⟩

/-- `uq_role_key`. -/
def roleKeyIndex : UniqueIndex Role (String ⊕ Uuid) :=
  ⟨["key"], none, fun r => some (.inl r.key)⟩

def roleIndexes : List (UniqueIndex Role (String ⊕ Uuid)) :=
  [⟨["id"], none, fun r => some (.inr r.id)⟩, roleKeyIndex]

/-- The primary key of `role_permissions`. -/
def rolePermissionIndex : UniqueIndex RolePermission RolePermission :=
  ⟨["role_id", "permission_key"], none, some⟩

/-- `uq_employee_email`. -/
def emailIndex : UniqueIndex EmployeeRow (String ⊕ Uuid) :=
  ⟨["email"], none, fun e => some (.inl e.email)⟩

def employeeIndexes : List (UniqueIndex EmployeeRow (String ⊕ Uuid)) :=
  [⟨["id"], none, fun e => some (.inr e.id)⟩, emailIndex,
    ⟨["entra_oid"], some "entra_oid IS NOT NULL", fun e => e.entraOid.map .inl⟩]

/-- `uq_ura_user_role_global`. -/
def globalIndex : UniqueIndex UserRoleAssignment
    (Uuid ⊕ Uuid × Uuid × ScopeType × Option String) :=
  ⟨["user_id", "role_id", "scope_type"], some "scope_id IS NULL", fun a =>
    if a.scopeId = none then some (.inr (a.userId, a.roleId, a.scopeType, none)) else none⟩

def assignmentIndexes : List (UniqueIndex UserRoleAssignment
    (Uuid ⊕ Uuid × Uuid × ScopeType × Option String)) :=
  [⟨["id"], none, fun a => some (.inl a.id)⟩, globalIndex,
    ⟨["user_id", "role_id", "scope_type", "scope_id"], some "scope_id IS NOT NULL", fun a =>
      a.scopeId.map fun scopeId => .inr (a.userId, a.roleId, a.scopeType, some scopeId)⟩]

/-! ### One run -/

/-- What the database fills in for the rows of one statement. -/
structure Defaults where
  id : ℕ → Uuid
  now : Time

def roleRows (d : Defaults) : List Role :=
  roles.mapIdx fun i r => ⟨d.id i, r.key, r.name, true, d.now⟩

def employeeRows (d : Defaults) : List EmployeeRow :=
  employees.mapIdx fun i e =>
    { id := d.id i, entraOid := none, email := e.email, displayName := e.displayName
      roles := e.roleKeys, status := e.status, updatedAt := d.now
      department := some e.department, jobTitle := some e.jobTitle }

/-- `new Map(pairs).get(key)`: a later pair replaces an earlier one. -/
def mapGet (pairs : List (String × Uuid)) (key : String) : Option Uuid :=
  pairs.reverse.lookup key

/-- `rolePermValues`. -/
def rolePermValues (roleIdByKey : List (String × Uuid)) : List RolePermission :=
  roles.flatMap fun r =>
    match mapGet roleIdByKey r.key with
    | none => []
    | some roleId => r.permissions.map fun permissionKey => ⟨roleId, permissionKey⟩

/-- The users and roles that the loops at the end go through. -/
def grants (empIdByEmail roleIdByKey : List (String × Uuid)) : List (Uuid × Uuid) :=
  employees.flatMap fun emp =>
    match mapGet empIdByEmail emp.email with
    | none => []
    | some userId => emp.roleKeys.filterMap fun roleKey =>
      (mapGet roleIdByKey roleKey).map fun roleId => (userId, roleId)

/-- The global assignment of a role is there. -/
def Assigned (t : SeedTables) (userId roleId : Uuid) : Prop :=
  ∃ a ∈ t.userRoleAssignments, a.userId = userId ∧ a.roleId = roleId ∧ a.scopeType = .global ∧
    a.scopeId = none

instance (t : SeedTables) (userId roleId : Uuid) : Decidable (Assigned t userId roleId) :=
  inferInstanceAs (Decidable (∃ a ∈ t.userRoleAssignments, _))

/-- What a run does next. -/
inductive Stage
  | insertPermissions
  | insertRoles
  | selectRoles
  | insertRolePermissions (roleIdByKey : List (String × Uuid))
  | insertEmployees (roleIdByKey : List (String × Uuid))
  | selectEmployees (roleIdByKey : List (String × Uuid))
  | selectAssignment (adminId : Option Uuid) (todo : List (Uuid × Uuid))
  | insertAssignment (adminId : Option Uuid) (userId roleId : Uuid) (todo : List (Uuid × Uuid))
  | done

/-- The foreign keys of rows that are added to `role_permissions`. -/
def References (t : SeedTables) (added : List RolePermission) : Prop :=
  ∀ rp ∈ added, (∃ role ∈ t.roles, role.id = rp.roleId) ∧
    ∃ p ∈ t.permissions, p.key = rp.permissionKey

instance (t : SeedTables) (added : List RolePermission) : Decidable (References t added) :=
  inferInstanceAs (Decidable (∀ rp ∈ added, _ ∧ _))

/-- The next statement of a run; a statement that is refused ends it. -/
def advance (d : Defaults) (t : SeedTables) : Stage → Option (SeedTables × Stage)
  | .insertPermissions => do
    let rows ← (UniqueIndex.insertAllDoNothing [permissionIndex] (some ⟨["key"], none⟩)
      t.permissions permissions).toOption
    some ({ t with permissions := rows }, .insertRoles)
  | .insertRoles => do
    let rows ← (UniqueIndex.insertAllDoNothing roleIndexes (some ⟨["key"], none⟩) t.roles
      (roleRows d)).toOption
    some ({ t with roles := rows }, .selectRoles)
  | .selectRoles =>
    let roleRows := t.roles.filter fun role => decide (role.key ∈ roles.map RoleSeed.key)
    let roleIdByKey := roleRows.map fun role => (role.key, role.id)
    some (t, if 0 < (rolePermValues roleIdByKey).length then .insertRolePermissions roleIdByKey
      else .insertEmployees roleIdByKey)
  | .insertRolePermissions roleIdByKey => do
    let rows ← (UniqueIndex.insertAllDoNothing [rolePermissionIndex]
      (some ⟨["role_id", "permission_key"], none⟩) t.rolePermissions
      (rolePermValues roleIdByKey)).toOption
    if References t (rows.drop t.rolePermissions.length) then
      some ({ t with rolePermissions := rows }, .insertEmployees roleIdByKey)
    else none
  | .insertEmployees roleIdByKey => do
    let rows ← (UniqueIndex.insertAllDoNothing employeeIndexes (some ⟨["email"], none⟩) t.employees
      (employeeRows d)).toOption
    some ({ t with employees := rows }, .selectEmployees roleIdByKey)
  | .selectEmployees roleIdByKey =>
    let empRows := t.employees.filter fun e => decide (e.email ∈ employees.map EmployeeSeed.email)
    let empIdByEmail := empRows.map fun e => (e.email, e.id)
    some (t, .selectAssignment (mapGet empIdByEmail "admin@opshub.local")
      (grants empIdByEmail roleIdByKey))
  | .selectAssignment _ [] => some (t, .done)
  | .selectAssignment adminId ((userId, roleId) :: todo) =>
    some (t, if Assigned t userId roleId then .selectAssignment adminId todo
      else .insertAssignment adminId userId roleId todo)
  | .insertAssignment adminId userId roleId todo => do
    let rows ← (UniqueIndex.insertRow assignmentIndexes t.userRoleAssignments
      ⟨d.id 0, userId, roleId, .global, none, adminId.getD userId, none⟩).toOption
    if ∃ role ∈ t.roles, role.id = roleId then
      some ({ t with userRoleAssignments := rows }, .selectAssignment adminId todo)
    else none
  | .done => some (t, .done)

/-! ### Several runs -/

structure SeedState where
  tables : SeedTables
  runs : List (Option Stage) := []

inductive SeedEvent
  | start
  | advance (i : ℕ) (d : Defaults)
  | stop (i : ℕ)

def step (s : SeedState) : SeedEvent → SeedState
  | .start => { s with runs := s.runs ++ [some .insertPermissions] }
  | .advance i d =>
    match Pool.running s.runs i with
    | none => s
    | some stage =>
      match advance d s.tables stage with
      | none => { s with runs := s.runs.set i none }
      | some (tables, next) => ⟨tables, s.runs.set i (some next)⟩
  | .stop i => { s with runs := s.runs.set i none }

/-! ### What a run adds -/

/-- A user and a role that belong together. -/
def Owed (t : SeedTables) (userId roleId : Uuid) : Prop :=
  ∃ e ∈ employees, ∃ row ∈ t.employees, row.email = e.email ∧ row.id = userId ∧
    ∃ k ∈ e.roleKeys, ∃ role ∈ t.roles, role.key = k ∧ role.id = roleId

/-- The employee who grants the roles. -/
def IsAdmin (t : SeedTables) (adminId : Uuid) : Prop :=
  ∃ row ∈ t.employees, row.email = "admin@opshub.local" ∧ row.id = adminId

def SeededRole (role : Role) : Prop :=
  ∃ r ∈ roles, role.key = r.key ∧ role.name = r.name ∧ role.system = true

def SeededRolePermission (t : SeedTables) (rp : RolePermission) : Prop :=
  ∃ r ∈ roles, ∃ role ∈ t.roles, role.key = r.key ∧ role.id = rp.roleId ∧
    rp.permissionKey ∈ r.permissions

def SeededEmployee (row : EmployeeRow) : Prop :=
  ∃ e ∈ employees, row.email = e.email ∧ row.displayName = e.displayName ∧ row.roles = e.roleKeys ∧
    row.status = e.status ∧ row.entraOid = none ∧ row.department = some e.department ∧
    row.jobTitle = some e.jobTitle

def SeededAssignment (t : SeedTables) (a : UserRoleAssignment) : Prop :=
  Owed t a.userId a.roleId ∧ a.scopeType = .global ∧ a.scopeId = none ∧ a.expiresAt = none ∧
    IsAdmin t a.grantedBy

/-- All rows are as they were, and rows of the seed have been added where they were missing. -/
structure Grown (t t' : SeedTables) : Prop where
  permissions : UniqueIndex.Seeded [permissionIndex] (· ∈ permissions) t.permissions t'.permissions
  roles : UniqueIndex.Seeded roleIndexes SeededRole t.roles t'.roles
  rolePermissions : UniqueIndex.Seeded [rolePermissionIndex] (SeededRolePermission t')
    t.rolePermissions t'.rolePermissions
  employees : UniqueIndex.Seeded employeeIndexes SeededEmployee t.employees t'.employees
  userRoleAssignments : UniqueIndex.Seeded assignmentIndexes (SeededAssignment t')
    t.userRoleAssignments t'.userRoleAssignments

variable {t t' t'' : SeedTables} {d : Defaults} {stage next : Stage} {userId roleId : Uuid}

/-! #### What stays when rows are added -/

theorem Owed.mono (h : Owed t userId roleId) (hemployees : ∀ e ∈ t.employees, e ∈ t'.employees)
    (hroles : ∀ r ∈ t.roles, r ∈ t'.roles) : Owed t' userId roleId := by
  obtain ⟨e, he, row, hrow, hemail, hid, k, hk, role, hrole, hkey⟩ := h
  exact ⟨e, he, row, hemployees row hrow, hemail, hid, k, hk, role, hroles role hrole, hkey⟩

theorem SeededRolePermission.mono {rp : RolePermission} (h : SeededRolePermission t rp)
    (hroles : ∀ r ∈ t.roles, r ∈ t'.roles) : SeededRolePermission t' rp := by
  obtain ⟨r, hr, role, hrole, hrest⟩ := h
  exact ⟨r, hr, role, hroles role hrole, hrest⟩

theorem SeededAssignment.mono {a : UserRoleAssignment} (h : SeededAssignment t a)
    (hemployees : ∀ e ∈ t.employees, e ∈ t'.employees) (hroles : ∀ r ∈ t.roles, r ∈ t'.roles) :
    SeededAssignment t' a := by
  obtain ⟨howed, htype, hid, hexpires, row, hrow, hadmin⟩ := h
  exact ⟨howed.mono hemployees hroles, htype, hid, hexpires, row, hemployees row hrow, hadmin⟩

theorem Grown.refl (t : SeedTables) : Grown t t :=
  ⟨.refl _ _ _, .refl _ _ _, .refl _ _ _, .refl _ _ _, .refl _ _ _⟩

theorem Grown.trans (h : Grown t t') (h' : Grown t' t'') : Grown t t'' where
  permissions := h.permissions.trans h'.permissions
  roles := h.roles.trans h'.roles
  rolePermissions :=
    (h.rolePermissions.mono fun _ hrp => hrp.mono fun _ => h'.roles.mem).trans h'.rolePermissions
  employees := h.employees.trans h'.employees
  userRoleAssignments := (h.userRoleAssignments.mono fun _ ha =>
    ha.mono (fun _ => h'.employees.mem) fun _ => h'.roles.mem).trans h'.userRoleAssignments

/-! #### What a run relies on -/

def HasPermissions (t : SeedTables) : Prop := ∀ p ∈ permissions, ∃ q ∈ t.permissions, q.key = p.key

def HasRoles (t : SeedTables) : Prop := ∀ r ∈ roles, ∃ role ∈ t.roles, role.key = r.key

/-- A copy of the ids of the roles. -/
def RoleIds (t : SeedTables) (roleIdByKey : List (String × Uuid)) : Prop :=
  (∀ r ∈ roles, ∃ id, mapGet roleIdByKey r.key = some id) ∧
    ∀ k id, mapGet roleIdByKey k = some id → ∃ role ∈ t.roles, role.key = k ∧ role.id = id

def HasRolePermissions (t : SeedTables) : Prop :=
  ∀ r ∈ roles, ∃ role ∈ t.roles, role.key = r.key ∧
    ∀ p ∈ r.permissions, ⟨role.id, p⟩ ∈ t.rolePermissions

def HasEmployees (t : SeedTables) : Prop := ∀ e ∈ employees, ∃ row ∈ t.employees, row.email = e.email

/-- Every employee has got the roles, but for those that are still to be looked at. -/
def HasAssignments (t : SeedTables) (todo : List (Uuid × Uuid)) : Prop :=
  ∀ e ∈ employees, ∃ row ∈ t.employees, row.email = e.email ∧ ∀ k ∈ e.roleKeys,
    ∃ role ∈ t.roles, role.key = k ∧ ((row.id, role.id) ∈ todo ∨ Assigned t row.id role.id)

/-- The end of a run. -/
structure Ending (t : SeedTables) (adminId : Option Uuid) (todo : List (Uuid × Uuid)) : Prop where
  permissions : HasPermissions t
  rolePermissions : HasRolePermissions t
  assignments : HasAssignments t todo
  owed : ∀ g ∈ todo, Owed t g.1 g.2
  admin : ∃ id, adminId = some id ∧ IsAdmin t id

/-- Everything is there. -/
structure Complete (t : SeedTables) : Prop where
  permissions : HasPermissions t
  rolePermissions : HasRolePermissions t
  assignments : HasAssignments t []

/-- What a run has reached. -/
def Reached (t : SeedTables) : Stage → Prop
  | .insertPermissions => True
  | .insertRoles => HasPermissions t
  | .selectRoles => HasPermissions t ∧ HasRoles t
  | .insertRolePermissions ids => HasPermissions t ∧ RoleIds t ids
  | .insertEmployees ids => HasPermissions t ∧ RoleIds t ids ∧ HasRolePermissions t
  | .selectEmployees ids => HasPermissions t ∧ RoleIds t ids ∧ HasRolePermissions t ∧ HasEmployees t
  | .selectAssignment adminId todo => Ending t adminId todo
  | .insertAssignment adminId userId roleId todo => Ending t adminId ((userId, roleId) :: todo)
  | .done => Complete t

/-! ### The step lemma -/

theorem Assigned.mono (h : Assigned t userId roleId)
    (hassignments : ∀ a ∈ t.userRoleAssignments, a ∈ t'.userRoleAssignments) :
    Assigned t' userId roleId := by
  obtain ⟨a, ha, hrest⟩ := h
  exact ⟨a, hassignments a ha, hrest⟩

theorem HasPermissions.mono (h : HasPermissions t) (hgrown : Grown t t') : HasPermissions t' := by
  intro p hp
  obtain ⟨q, hq, hkey⟩ := h p hp
  exact ⟨q, hgrown.permissions.mem hq, hkey⟩

theorem HasRoles.mono (h : HasRoles t) (hgrown : Grown t t') : HasRoles t' := by
  intro r hr
  obtain ⟨role, hrole, hkey⟩ := h r hr
  exact ⟨role, hgrown.roles.mem hrole, hkey⟩

theorem RoleIds.mono {ids : List (String × Uuid)} (h : RoleIds t ids) (hgrown : Grown t t') :
    RoleIds t' ids := by
  refine ⟨h.1, fun k id hid => ?_⟩
  obtain ⟨role, hrole, hrest⟩ := h.2 k id hid
  exact ⟨role, hgrown.roles.mem hrole, hrest⟩

theorem HasRolePermissions.mono (h : HasRolePermissions t) (hgrown : Grown t t') :
    HasRolePermissions t' := by
  intro r hr
  obtain ⟨role, hrole, hkey, hpermissions⟩ := h r hr
  exact ⟨role, hgrown.roles.mem hrole, hkey, fun p hp =>
    hgrown.rolePermissions.mem (hpermissions p hp)⟩

theorem HasEmployees.mono (h : HasEmployees t) (hgrown : Grown t t') : HasEmployees t' := by
  intro e he
  obtain ⟨row, hrow, hemail⟩ := h e he
  exact ⟨row, hgrown.employees.mem hrow, hemail⟩

theorem HasAssignments.mono {todo : List (Uuid × Uuid)} (h : HasAssignments t todo)
    (hgrown : Grown t t') : HasAssignments t' todo := by
  intro e he
  obtain ⟨row, hrow, hemail, hroles⟩ := h e he
  refine ⟨row, hgrown.employees.mem hrow, hemail, fun k hk => ?_⟩
  obtain ⟨role, hrole, hkey, hassigned⟩ := hroles k hk
  refine ⟨role, hgrown.roles.mem hrole, hkey, hassigned.imp_right fun h => ?_⟩
  exact h.mono fun a => hgrown.userRoleAssignments.mem

theorem Ending.mono {adminId : Option Uuid} {todo : List (Uuid × Uuid)}
    (h : Ending t adminId todo) (hgrown : Grown t t') : Ending t' adminId todo where
  permissions := h.permissions.mono hgrown
  rolePermissions := h.rolePermissions.mono hgrown
  assignments := h.assignments.mono hgrown
  owed g hg := (h.owed g hg).mono (fun _ => hgrown.employees.mem) fun _ => hgrown.roles.mem
  admin := by
    obtain ⟨id, hid, row, hrow, hrest⟩ := h.admin
    exact ⟨id, hid, row, hgrown.employees.mem hrow, hrest⟩

theorem Complete.mono (h : Complete t) (hgrown : Grown t t') : Complete t' where
  permissions := h.permissions.mono hgrown
  rolePermissions := h.rolePermissions.mono hgrown
  assignments := h.assignments.mono hgrown

/-- What a run has reached stays when others go on. -/
theorem Reached.mono (h : Reached t stage) (hgrown : Grown t t') : Reached t' stage := by
  cases stage with
  | insertPermissions => trivial
  | insertRoles => exact HasPermissions.mono h hgrown
  | selectRoles => exact ⟨h.1.mono hgrown, h.2.mono hgrown⟩
  | insertRolePermissions ids => exact ⟨h.1.mono hgrown, h.2.mono hgrown⟩
  | insertEmployees ids => exact ⟨h.1.mono hgrown, h.2.1.mono hgrown, h.2.2.mono hgrown⟩
  | selectEmployees ids =>
    exact ⟨h.1.mono hgrown, h.2.1.mono hgrown, h.2.2.1.mono hgrown, h.2.2.2.mono hgrown⟩
  | selectAssignment adminId todo => exact Ending.mono h hgrown
  | insertAssignment adminId userId roleId todo => exact Ending.mono h hgrown
  | done => exact Complete.mono h hgrown

/-! #### The maps -/

theorem mem_of_mapGet {pairs : List (String × Uuid)} {k : String} {id : Uuid}
    (h : mapGet pairs k = some id) : (k, id) ∈ pairs := by
  obtain ⟨before, after, heq, -⟩ := List.lookup_eq_some_iff.1 h
  rw [← List.mem_reverse, heq]
  simp

theorem exists_mapGet {pairs : List (String × Uuid)} {k : String} {id : Uuid}
    (h : (k, id) ∈ pairs) : ∃ id', mapGet pairs k = some id' := by
  refine Option.isSome_iff_exists.1 (List.lookup_isSome_iff.2 ?_)
  exact ⟨(k, id), List.mem_reverse.2 h, beq_self_eq_true k⟩

theorem mem_rolePermValues {ids : List (String × Uuid)} {rp : RolePermission} :
    rp ∈ rolePermValues ids ↔
      ∃ r ∈ roles, mapGet ids r.key = some rp.roleId ∧ rp.permissionKey ∈ r.permissions := by
  unfold rolePermValues
  rw [List.mem_flatMap]
  refine exists_congr fun r => and_congr_right fun _ => ?_
  cases mapGet ids r.key with
  | none => simp
  | some id =>
    obtain ⟨roleId, permissionKey⟩ := rp
    simp [and_comm]

theorem mem_grants {emps ids : List (String × Uuid)} {g : Uuid × Uuid} :
    g ∈ grants emps ids ↔ ∃ e ∈ employees, mapGet emps e.email = some g.1 ∧
      ∃ k ∈ e.roleKeys, mapGet ids k = some g.2 := by
  unfold grants
  rw [List.mem_flatMap]
  refine exists_congr fun e => and_congr_right fun _ => ?_
  obtain ⟨userId, roleId⟩ := g
  cases mapGet emps e.email with
  | none => simp
  | some id =>
    simp only [List.mem_filterMap, Option.map_eq_some_iff, Prod.mk.injEq, Option.some.injEq]
    constructor
    · rintro ⟨k, hk, id', hid', rfl, rfl⟩
      exact ⟨rfl, k, hk, hid'⟩
    · rintro ⟨rfl, k, hk, hid'⟩
      exact ⟨k, hk, roleId, hid', rfl, rfl⟩

/-! #### The targets -/

theorem permission_arbiters :
    UniqueIndex.arbiters [permissionIndex] (some ⟨["key"], none⟩) = [permissionIndex] := by
  simp [UniqueIndex.arbiters, UniqueIndex.Infers, permissionIndex]

theorem role_arbiters :
    UniqueIndex.arbiters roleIndexes (some ⟨["key"], none⟩) = [roleKeyIndex] := by
  simp [UniqueIndex.arbiters, UniqueIndex.Infers, roleIndexes, roleKeyIndex]

theorem rolePermission_arbiters :
    UniqueIndex.arbiters [rolePermissionIndex] (some ⟨["role_id", "permission_key"], none⟩) =
      [rolePermissionIndex] := by
  simp [UniqueIndex.arbiters, UniqueIndex.Infers, rolePermissionIndex]

theorem employee_arbiters :
    UniqueIndex.arbiters employeeIndexes (some ⟨["email"], none⟩) = [emailIndex] := by
  simp [UniqueIndex.arbiters, UniqueIndex.Infers, employeeIndexes, emailIndex]

theorem permission_clash {a b : Permission} : permissionIndex.Clash a b ↔ a.key = b.key := by
  simp [UniqueIndex.Clash, permissionIndex]

theorem role_clash {a b : Role} : roleKeyIndex.Clash a b ↔ a.key = b.key := by
  simp [UniqueIndex.Clash, roleKeyIndex]

theorem rolePermission_clash {a b : RolePermission} : rolePermissionIndex.Clash a b ↔ a = b := by
  simp [UniqueIndex.Clash, rolePermissionIndex]

theorem employee_clash {a b : EmployeeRow} : emailIndex.Clash a b ↔ a.email = b.email := by
  simp [UniqueIndex.Clash, emailIndex]

theorem mem_roleRows {role : Role} (h : role ∈ roleRows d) : SeededRole role := by
  obtain ⟨i, hi, rfl⟩ := List.mem_mapIdx.1 h
  exact ⟨roles[i], List.getElem_mem hi, rfl, rfl, rfl⟩

theorem exists_roleRows (d : Defaults) {r : RoleSeed} (h : r ∈ roles) :
    ∃ role ∈ roleRows d, role.key = r.key := by
  obtain ⟨i, hi, rfl⟩ := List.getElem_of_mem h
  exact ⟨_, List.mem_mapIdx.2 ⟨i, hi, rfl⟩, rfl⟩

theorem mem_employeeRows {row : EmployeeRow} (h : row ∈ employeeRows d) : SeededEmployee row := by
  obtain ⟨i, hi, rfl⟩ := List.mem_mapIdx.1 h
  exact ⟨employees[i], List.getElem_mem hi, rfl, rfl, rfl, rfl, rfl, rfl, rfl⟩

theorem exists_employeeRows (d : Defaults) {e : EmployeeSeed} (h : e ∈ employees) :
    ∃ row ∈ employeeRows d, row.email = e.email := by
  obtain ⟨i, hi, rfl⟩ := List.getElem_of_mem h
  exact ⟨_, List.mem_mapIdx.2 ⟨i, hi, rfl⟩, rfl⟩

/-! #### The statements -/

/-- What the copy of the ids is made of. -/
theorem roleIds_select (h : HasRoles t) : RoleIds t
    ((t.roles.filter fun role => decide (role.key ∈ roles.map RoleSeed.key)).map
      fun role => (role.key, role.id)) := by
  constructor
  · intro r hr
    obtain ⟨role, hrole, hkey⟩ := h r hr
    have hselected : role ∈ t.roles.filter
        fun role => decide (role.key ∈ roles.map RoleSeed.key) :=
      List.mem_filter.2 ⟨hrole, decide_eq_true (hkey ▸ List.mem_map_of_mem hr)⟩
    exact exists_mapGet (List.mem_map.2 ⟨role, hselected, by rw [hkey]⟩)
  · intro k id hid
    obtain ⟨role, hrole, heq⟩ := List.mem_map.1 (mem_of_mapGet hid)
    obtain ⟨rfl, rfl⟩ := Prod.mk.inj heq
    exact ⟨role, (List.mem_filter.1 hrole).1, rfl, rfl⟩

/-- The permissions that the values stand for. -/
theorem hasRolePermissions {ids : List (String × Uuid)} (hids : RoleIds t ids)
    (h : ∀ rp ∈ rolePermValues ids, rp ∈ t.rolePermissions) : HasRolePermissions t := by
  intro r hr
  obtain ⟨id, hid⟩ := hids.1 r hr
  obtain ⟨role, hrole, hkey, rfl⟩ := hids.2 r.key id hid
  exact ⟨role, hrole, hkey, fun p hp => h _ (mem_rolePermValues.2 ⟨r, hr, hid, hp⟩)⟩

/-- The loops at the end have everything before them. -/
theorem ending_select {ids : List (String × Uuid)} (hpermissions : HasPermissions t)
    (hids : RoleIds t ids) (hrolePermissions : HasRolePermissions t) (hemployees : HasEmployees t) :
    let empIdByEmail := (t.employees.filter
      fun e => decide (e.email ∈ employees.map EmployeeSeed.email)).map fun e => (e.email, e.id)
    Ending t (mapGet empIdByEmail "admin@opshub.local") (grants empIdByEmail ids) := by
  intro empIdByEmail
  have hemp : ∀ k id, mapGet empIdByEmail k = some id →
      ∃ row ∈ t.employees, row.email = k ∧ row.id = id := by
    intro k id hid
    obtain ⟨row, hrow, heq⟩ := List.mem_map.1 (mem_of_mapGet hid)
    obtain ⟨rfl, rfl⟩ := Prod.mk.inj heq
    exact ⟨row, (List.mem_filter.1 hrow).1, rfl, rfl⟩
  have hmap : ∀ e ∈ employees, ∃ id, mapGet empIdByEmail e.email = some id := by
    intro e he
    obtain ⟨row, hrow, hemail⟩ := hemployees e he
    have hselected : row ∈ t.employees.filter
        fun e => decide (e.email ∈ employees.map EmployeeSeed.email) :=
      List.mem_filter.2 ⟨hrow, decide_eq_true (hemail ▸ List.mem_map_of_mem he)⟩
    exact exists_mapGet (List.mem_map.2 ⟨row, hselected, by rw [hemail]⟩)
  refine ⟨hpermissions, hrolePermissions, fun e he => ?_, fun g hg => ?_, ?_⟩
  · obtain ⟨id, hid⟩ := hmap e he
    obtain ⟨row, hrow, hemail, rfl⟩ := hemp e.email id hid
    refine ⟨row, hrow, hemail, fun k hk => ?_⟩
    obtain ⟨r, hr, rfl⟩ := roles_of_employees e he k hk
    obtain ⟨roleId, hroleId⟩ := hids.1 r hr
    obtain ⟨role, hrole, hkey, rfl⟩ := hids.2 r.key roleId hroleId
    exact ⟨role, hrole, hkey, Or.inl (mem_grants.2 ⟨e, he, hid, r.key, hk, hroleId⟩)⟩
  · obtain ⟨e, he, hid, k, hk, hroleId⟩ := mem_grants.1 hg
    obtain ⟨row, hrow, hemail, hrowId⟩ := hemp e.email g.1 hid
    obtain ⟨role, hrole, hkey, hid⟩ := hids.2 k g.2 hroleId
    exact ⟨e, he, row, hrow, hemail, hrowId, k, hk, role, hrole, hkey, hid⟩
  · obtain ⟨e, he, hemail⟩ := admin_employee
    obtain ⟨id, hid⟩ := hmap e he
    rw [hemail] at hid
    obtain ⟨row, hrow, hrest⟩ := hemp _ id hid
    exact ⟨id, hid, row, hrow, hrest⟩

/-- One pair less. -/
theorem Ending.tail {adminId : Option Uuid} {todo : List (Uuid × Uuid)}
    (h : Ending t adminId ((userId, roleId) :: todo)) (hassigned : Assigned t userId roleId) :
    Ending t adminId todo where
  permissions := h.permissions
  rolePermissions := h.rolePermissions
  assignments e he := by
    obtain ⟨row, hrow, hemail, hroles⟩ := h.assignments e he
    refine ⟨row, hrow, hemail, fun k hk => ?_⟩
    obtain ⟨role, hrole, hkey, htodo | hdone⟩ := hroles k hk
    · refine ⟨role, hrole, hkey, ?_⟩
      rcases List.mem_cons.1 htodo with heq | htodo
      · obtain ⟨rfl, rfl⟩ := Prod.mk.inj heq
        exact Or.inr hassigned
      · exact Or.inl htodo
    · exact ⟨role, hrole, hkey, Or.inr hdone⟩
  owed g hg := h.owed g (List.mem_cons_of_mem _ hg)
  admin := h.admin

/-- **The step lemma.**  A statement adds what is missing, and the run has reached the next one. -/
theorem advance_spec (h : Reached t stage) (hadvance : advance d t stage = some (t', next)) :
    Grown t t' ∧ Reached t' next := by
  cases stage with
  | insertPermissions =>
    obtain ⟨rows, hrows, heq⟩ := Option.bind_eq_some_iff.1 hadvance
    rw [Except.toOption_eq_some_iff] at hrows
    cases heq
    refine ⟨⟨UniqueIndex.seeded_insertAll hrows fun _ hp => hp, .refl _ _ _, .refl _ _ _,
      .refl _ _ _, .refl _ _ _⟩, fun p hp => ?_⟩
    refine UniqueIndex.exists_of_insertAll (f := Permission.key) ?_ hrows hp
    rw [permission_arbiters]
    simp [permission_clash]
  | insertRoles =>
    obtain ⟨rows, hrows, heq⟩ := Option.bind_eq_some_iff.1 hadvance
    rw [Except.toOption_eq_some_iff] at hrows
    cases heq
    refine ⟨⟨.refl _ _ _, UniqueIndex.seeded_insertAll hrows fun _ hr => mem_roleRows hr,
      .refl _ _ _, .refl _ _ _, .refl _ _ _⟩, h, fun r hr => ?_⟩
    obtain ⟨role, hrole, hkey⟩ := exists_roleRows d hr
    rw [← hkey]
    refine UniqueIndex.exists_of_insertAll (f := Role.key) ?_ hrows hrole
    rw [role_arbiters]
    simp [role_clash]
  | selectRoles =>
    cases hadvance
    refine ⟨.refl t, ?_⟩
    have hids := roleIds_select h.2
    split
    · exact ⟨h.1, hids⟩
    · rename_i hempty
      have hnil := List.eq_nil_of_length_eq_zero (Nat.eq_zero_of_not_pos hempty)
      refine ⟨h.1, hids, hasRolePermissions hids fun rp hrp => ?_⟩
      rw [hnil] at hrp
      cases hrp
  | insertRolePermissions ids =>
    obtain ⟨rows, hrows, heq⟩ := Option.bind_eq_some_iff.1 hadvance
    rw [Except.toOption_eq_some_iff] at hrows
    split at heq
    · cases heq
      refine ⟨⟨.refl _ _ _, .refl _ _ _, UniqueIndex.seeded_insertAll hrows fun rp hrp => ?_,
        .refl _ _ _, .refl _ _ _⟩, h.1, h.2, hasRolePermissions h.2 fun rp hrp => ?_⟩
      · obtain ⟨r, hr, hid, hp⟩ := mem_rolePermValues.1 hrp
        obtain ⟨role, hrole, hkey, hroleId⟩ := h.2.2 r.key rp.roleId hid
        exact ⟨r, hr, role, hrole, hkey, hroleId, hp⟩
      · obtain ⟨x, hx, rfl⟩ := UniqueIndex.exists_of_insertAll (f := fun x => x) (by
          rw [rolePermission_arbiters]
          simp [rolePermission_clash]) hrows hrp
        exact hx
    · cases heq
  | insertEmployees ids =>
    obtain ⟨rows, hrows, heq⟩ := Option.bind_eq_some_iff.1 hadvance
    rw [Except.toOption_eq_some_iff] at hrows
    cases heq
    refine ⟨⟨.refl _ _ _, .refl _ _ _, .refl _ _ _,
      UniqueIndex.seeded_insertAll hrows fun _ he => mem_employeeRows he, .refl _ _ _⟩,
      h.1, h.2.1, h.2.2, fun e he => ?_⟩
    obtain ⟨row, hrow, hemail⟩ := exists_employeeRows d he
    rw [← hemail]
    refine UniqueIndex.exists_of_insertAll (f := fun row : EmployeeRow => row.email) ?_ hrows hrow
    rw [employee_arbiters]
    simp [employee_clash]
  | selectEmployees ids =>
    cases hadvance
    exact ⟨.refl t, ending_select h.1 h.2.1 h.2.2.1 h.2.2.2⟩
  | selectAssignment adminId todo =>
    cases todo with
    | nil =>
      cases hadvance
      exact ⟨.refl t, h.permissions, h.rolePermissions, h.assignments⟩
    | cons g todo =>
      cases hadvance
      refine ⟨.refl t, ?_⟩
      split
      · rename_i hassigned
        exact Ending.tail h hassigned
      · exact h
  | insertAssignment adminId userId roleId todo =>
    obtain ⟨rows, hrows, heq⟩ := Option.bind_eq_some_iff.1 hadvance
    rw [Except.toOption_eq_some_iff] at hrows
    split at heq
    · cases heq
      obtain ⟨id, rfl, hadmin⟩ := h.admin
      have hgrown : Grown t { t with userRoleAssignments := rows } :=
        ⟨.refl _ _ _, .refl _ _ _, .refl _ _ _, .refl _ _ _, UniqueIndex.seeded_insertRow hrows
          ⟨h.owed _ List.mem_cons_self, rfl, rfl, rfl, hadmin⟩⟩
      refine ⟨hgrown, Ending.tail (Ending.mono h hgrown) ?_⟩
      unfold UniqueIndex.insertRow at hrows
      split at hrows
      · cases hrows
      · cases hrows
        exact ⟨_, List.mem_append_right _ List.mem_cons_self, rfl, rfl, rfl, rfl⟩
    · cases heq
  | done =>
    cases hadvance
    exact ⟨.refl t, h⟩

/-! ### Every order of the statements -/

/-- The invariant of several runs. -/
structure Standing (init : SeedTables) (s : SeedState) : Prop where
  grown : Grown init s.tables
  reached : ∀ stage, some stage ∈ s.runs → Reached s.tables stage

variable {init : SeedTables} {s : SeedState} {i : ℕ}

theorem Standing.set_none (h : Standing init s) (i : ℕ) :
    Standing init { s with runs := s.runs.set i none } := by
  refine ⟨h.grown, fun stage hstage => ?_⟩
  rcases List.mem_or_eq_of_mem_set hstage with hstage | heq
  · exact h.reached stage hstage
  · cases heq

theorem standing_step (h : Standing init s) (e : SeedEvent) : Standing init (step s e) := by
  cases e with
  | start =>
    refine ⟨h.grown, fun stage hstage => ?_⟩
    rcases List.mem_append.1 hstage with hstage | hstage
    · exact h.reached stage hstage
    · obtain rfl := Option.some.inj (List.mem_singleton.1 hstage)
      trivial
  | advance i d =>
    unfold step
    dsimp only
    split
    · exact h
    · rename_i stage hrunning
      split
      · exact h.set_none i
      · rename_i tables next hadvance
        have hreached := h.reached stage (Pool.mem_of_running hrunning)
        obtain ⟨hgrown, hnext⟩ := advance_spec hreached hadvance
        refine ⟨h.grown.trans hgrown, fun stage' hstage' => ?_⟩
        rcases List.mem_or_eq_of_mem_set hstage' with hstage' | heq
        · exact (h.reached stage' hstage').mono hgrown
        · obtain rfl := Option.some.inj heq
          exact hnext
  | stop i => exact h.set_none i

theorem standing_run (init : SeedTables) (es : List SeedEvent) :
    Standing init (Runs.run step ⟨init, []⟩ es) := by
  have hinit : Standing init ⟨init, []⟩ := ⟨.refl init, fun stage h => by cases h⟩
  have hstep : ∀ s e, Standing init s → Standing init (step s e) := fun _ e h => standing_step h e
  exact Runs.run_invariant hstep hinit es

/-- **Every row once.**  Whatever the order of the statements of several runs, and wherever they are
stopped: the rows that were there stay as they are, what is missing is added, with no entry that
another row has, and a run that has finished has found or added everything. -/
theorem seed_once (init : SeedTables) (es : List SeedEvent) :
    Grown init (Runs.run step ⟨init, []⟩ es).tables ∧
      (some .done ∈ (Runs.run step ⟨init, []⟩ es).runs →
        Complete (Runs.run step ⟨init, []⟩ es).tables) := by
  have h := standing_run init es
  exact ⟨h.grown, h.reached .done⟩

end Seed

end OpsHub
