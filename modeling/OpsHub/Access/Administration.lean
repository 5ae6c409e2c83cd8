import OpsHub.Access.Authz
import OpsHub.Lib.Pool
import OpsHub.Lib.Runs

/-!
# Role administration

The part of `AuthzAdminService` that manages roles, and the service as a whole: any number of
calls of it, and of `AuthzService.check`, whose statements may be interleaved.

* `RoleDrizzleRepository.create`, `setPermissions`, `delete`: the transactions on roles;
* `Call`, `Operation`: the calls and how they begin;
* `Administration.step`: the state after one event;
* `Step`, `step_cases`: what an event can do.

`catalog` stands for the table of permissions, which no modelled function changes.
-/

namespace OpsHub

/-! ### Roles -/

/-- `CreateRoleInput`. -/
structure CreateRoleInput where
  key : String
  name : String
  permissions : List PermissionKey
  deriving DecidableEq, Repr

namespace RoleDrizzleRepository

/-- `findByKey`. -/
def findByKey (tables : Tables) (key : String) : Option RoleWithPermissions :=
  (tables.roles.find? (fun role => decide (role.key = key))).map (toDomain tables)

/-- The rows of `role_permissions` for a role. -/
def permissionRows (roleId : Uuid) (keys : List PermissionKey) : List RolePermission :=
  keys.map fun key => ⟨roleId, key⟩

/-- The insertion of permissions, with the constraints of the table; `others` are the rows of
the other roles. -/
def insertPermissions (catalog : List PermissionKey) (roleId : Uuid) (keys : List PermissionKey)
    (others : List RolePermission) : Except Failure (List RolePermission) := do
  Outcome.require keys.Nodup (.duplicateKey "role_permissions")
  Outcome.require (∀ key ∈ keys, ⟨roleId, key⟩ ∉ others) (.duplicateKey "role_permissions")
  Outcome.require (∀ key ∈ keys, key ∈ catalog)
    (.error "insert or update on table role_permissions violates foreign key constraint")
  pure (others ++ permissionRows roleId keys)

/-- The transaction of `create`. -/
def create (catalog : List PermissionKey) (input : CreateRoleInput) (newId : Uuid) (now : Time)
    (tables : Tables) : Except Failure Tables := do
  Outcome.require (∀ role ∈ tables.roles, role.id ≠ newId ∧ role.key ≠ input.key)
    (.duplicateKey "roles")
  let rolePermissions ← insertPermissions catalog newId input.permissions tables.rolePermissions
  pure { tables with
    roles := tables.roles ++ [⟨newId, input.key, input.name, false, now⟩]
    rolePermissions := rolePermissions }

/-- The transaction of `setPermissions`. -/
def setPermissions (catalog : List PermissionKey) (roleId : Uuid) (keys : List PermissionKey)
    (now : Time) (tables : Tables) : Except Failure Tables := do
  let others := tables.rolePermissions.filter (fun p => decide (p.roleId ≠ roleId))
  Outcome.require (keys = [] ∨ ∃ role ∈ tables.roles, role.id = roleId)
    (.error "insert or update on table role_permissions violates foreign key constraint")
  let rolePermissions ← insertPermissions catalog roleId keys others
  pure { tables with
    roles := tables.roles.map fun role =>
      if role.id = roleId then { role with updatedAt := now } else role
    rolePermissions := rolePermissions }

/-- `delete`; the permissions and the assignments of the role go with it. -/
def delete (roleId : Uuid) (tables : Tables) : Tables :=
  { tables with
    roles := tables.roles.filter (fun role => decide (role.id ≠ roleId))
    rolePermissions := tables.rolePermissions.filter (fun p => decide (p.roleId ≠ roleId))
    userRoleAssignments := tables.userRoleAssignments.deleteWhere
      (fun a => decide (a.roleId = roleId)) }

end RoleDrizzleRepository

namespace AuthzAdminService

/-- `getRole`. -/
def getRole (tables : Tables) (id : Uuid) : Except Failure RoleWithPermissions :=
  Outcome.orThrow (.notFound "ROLE_NOT_FOUND" ("Role " ++ toString id ++ " not found"))
    (RoleDrizzleRepository.findById tables id)

/-- `assertPermissionsExist`. -/
def assertPermissionsExist (catalog keys : List PermissionKey) : Except Failure Unit :=
  let unknown := keys.filter (fun key => decide (key ∉ catalog))
  Outcome.require (unknown = []) (.validation "PERMISSION_NOT_FOUND"
    ("Unknown permission keys: " ++ ", ".intercalate unknown))

end AuthzAdminService

/-! ### Calls -/

namespace Administration

open Authz

/-- What is left of a call. -/
inductive Call
  /-- A change of assignments, or a check. -/
  | authz (statements : List Statement)
  /-- `createRole`, before its transaction. -/
  | createRole (input : CreateRoleInput)
  /-- `setRolePermissions`, before its transaction. -/
  | setRolePermissions (roleId : Uuid) (keys : List PermissionKey)
  /-- `deleteRole`, before the deletion. -/
  | deleteRole (roleId : Uuid)
  | finished
  deriving DecidableEq, Repr

/-- The statements that a call has left. -/
def Call.statements : Call → List Statement
  | .authz statements => statements
  | _ => []

/-- The calls of the services, with the user who makes them. -/
inductive Operation
  | check (userId : Uuid)
  | createRole (input : CreateRoleInput) (actor : Uuid)
  | setRolePermissions (roleId : Uuid) (keys : List PermissionKey) (actor : Uuid)
  | deleteRole (roleId : Uuid) (actor : Uuid)
  | assignRole (command : AssignRoleCommand) (actor : Uuid)
  | revokeAssignment (id : Uuid) (actor : Uuid)
  | syncUserRolesByKeys (userId : Uuid) (roleKeys : List String) (actor : Uuid)
  deriving DecidableEq, Repr

/-- The user who makes the call; a check is made by the guard of a route. -/
def Operation.actor : Operation → Option Uuid
  | .check _ => none
  | .createRole _ actor => some actor
  | .setRolePermissions _ _ actor => some actor
  | .deleteRole _ actor => some actor
  | .assignRole _ actor => some actor
  | .revokeAssignment _ actor => some actor
  | .syncUserRolesByKeys _ _ actor => some actor

/-- The beginning of a call, up to its first change. -/
def Operation.begin (catalog : List PermissionKey) (tables : Tables) :
    Operation → Except Failure Call
  | .check userId => .ok (.authz [.getJson userId .check])
  | .createRole input _ => do
    Outcome.require (RoleDrizzleRepository.findByKey tables input.key = none)
      (.conflict "ROLE_KEY_TAKEN" ("Role key '" ++ input.key ++ "' already exists"))
    AuthzAdminService.assertPermissionsExist catalog input.permissions
    pure (.createRole input)
  | .setRolePermissions roleId keys _ => do
    let _ ← AuthzAdminService.getRole tables roleId
    AuthzAdminService.assertPermissionsExist catalog keys
    pure (.setRolePermissions roleId keys)
  | .deleteRole roleId _ => do
    let role ← AuthzAdminService.getRole tables roleId
    Outcome.require (role.system = false) (.validation "ROLE_IMMUTABLE"
      ("System role '" ++ role.key ++ "' cannot be deleted"))
    pure (.deleteRole roleId)
  | .assignRole command actor =>
    (AuthzAdminService.assignRole tables command actor).map .authz
  | .revokeAssignment id _ => (AuthzAdminService.revokeAssignment tables id).map .authz
  | .syncUserRolesByKeys userId roleKeys actor =>
    .ok (.authz (AuthzAdminService.syncUserRolesByKeys userId roleKeys actor))

/-- The next statement or transaction of a call: the store, and what is left of the call. -/
def Call.advance (catalog : List PermissionKey) (now : Time) (newId : Uuid) (store : Store) :
    Call → Store × Call
  | .authz statements =>
    ((Authz.advance now newId store statements).1, .authz (Authz.advance now newId store statements).2)
  | .createRole input =>
    ({ store with
      tables := Outcome.commit store.tables
        (RoleDrizzleRepository.create catalog input newId now store.tables) }, .finished)
  | .setRolePermissions roleId keys =>
    ({ store with
      tables := Outcome.commit store.tables
        (RoleDrizzleRepository.setPermissions catalog roleId keys now store.tables) }, .finished)
  | .deleteRole roleId =>
    ({ store with tables := RoleDrizzleRepository.delete roleId store.tables }, .finished)
  | .finished => (store, .finished)

/-! ### The machine -/

/-- The tables and the cache, the clock, and the calls that have begun. -/
structure State where
  store : Store
  now : Time
  calls : List Call

/-- Nothing has been called yet, and the cache is empty. -/
def State.initial (tables : Tables) (now : Time) : State where
  store := ⟨tables, TtlCache.empty⟩
  now := now
  calls := []

/-- What can happen. -/
inductive Event
  | begin (operation : Operation)
  | advance (i : ℕ) (newId : Uuid)
  | tick (duration : ℕ)
  deriving DecidableEq, Repr

/-- The state after one event; a call that throws at once leaves no trace. -/
def step (catalog : List PermissionKey) (s : State) : Event → State
  | .begin operation =>
    match operation.begin catalog s.store.tables with
    | .ok call => { s with calls := s.calls ++ [call] }
    | .error _ => s
  | .advance i newId =>
    match s.calls[i]? with
    | some call =>
      { s with
        store := (call.advance catalog s.now newId s.store).1
        calls := s.calls.set i (call.advance catalog s.now newId s.store).2 }
    | none => s
  | .tick duration => { s with now := s.now + duration }

/-! ### What an event can do -/

/-- The state in which the `i`-th call goes on with `call` on another store. -/
def State.goOn (s : State) (i : ℕ) (store : Store) (call : Call) : State :=
  { s with store := store, calls := s.calls.set i call }

/-- The state with other tables, in which the `i`-th call has ended. -/
def State.commit (s : State) (i : ℕ) (tables : Tables) : State :=
  s.goOn i { s.store with tables := tables } .finished

/-- The call has nothing left to do. -/
def Call.Ended (call : Call) : Prop := call = .finished ∨ call = .authz []

/-- The call has no statement left, and does not delete a role. -/
def Call.Quiet : Call → Prop
  | .authz (_ :: _) => False
  | .deleteRole _ => False
  | _ => True

theorem Call.Quiet.statements_eq {call : Call} (h : call.Quiet) : call.statements = [] := by
  cases call with
  | authz statements =>
    cases statements with
    | nil => rfl
    | cons statement rest => exact h.elim
  | _ => rfl

theorem Call.Ended.statements_eq {call : Call} (h : call.Ended) : call.statements = [] := by
  rcases h with rfl | rfl
  · rfl
  · rfl

/-- What an event can do. -/
inductive Step (catalog : List PermissionKey) (s : State) : Event → State → Prop
  /-- The call throws at once. -/
  | refused {operation : Operation} {failure : Failure}
      (hbegin : operation.begin catalog s.store.tables = .error failure) :
      Step catalog s (.begin operation) s
  /-- There is no such call. -/
  | absent {i : ℕ} {newId : Uuid} (hcall : s.calls[i]? = none) :
      Step catalog s (.advance i newId) s
  | begin {operation : Operation} {call : Call}
      (hbegin : operation.begin catalog s.store.tables = .ok call) :
      Step catalog s (.begin operation) { s with calls := s.calls ++ [call] }
  | statement {i : ℕ} {newId : Uuid} {statement : Statement} {rest : List Statement}
      (hcall : s.calls[i]? = some (.authz (statement :: rest))) :
      Step catalog s (.advance i newId) (s.goOn i (exec s.now newId s.store statement).1
        (.authz (Authz.advance s.now newId s.store (statement :: rest)).2))
  | createRole {i : ℕ} {newId : Uuid} {input : CreateRoleInput} {tables : Tables}
      (hcall : s.calls[i]? = some (.createRole input))
      (hok : RoleDrizzleRepository.create catalog input newId s.now s.store.tables = .ok tables) :
      Step catalog s (.advance i newId) (s.commit i tables)
  | setRolePermissions {i : ℕ} {newId roleId : Uuid} {keys : List PermissionKey} {tables : Tables}
      (hcall : s.calls[i]? = some (.setRolePermissions roleId keys))
      (hok : RoleDrizzleRepository.setPermissions catalog roleId keys s.now s.store.tables =
        .ok tables) :
      Step catalog s (.advance i newId) (s.commit i tables)
  | deleteRole {i : ℕ} {newId roleId : Uuid} (hcall : s.calls[i]? = some (.deleteRole roleId)) :
      Step catalog s (.advance i newId)
        (s.commit i (RoleDrizzleRepository.delete roleId s.store.tables))
  /-- The call ends without a change. -/
  | finish {i : ℕ} {newId : Uuid} {call call' : Call} (hcall : s.calls[i]? = some call)
      (hquiet : call.Quiet) (hended : call'.Ended) :
      Step catalog s (.advance i newId) (s.goOn i s.store call')
  | tick (duration : ℕ) : Step catalog s (.tick duration) { s with now := s.now + duration }

/-- The next statement of a call. -/
theorem step_statement (catalog : List PermissionKey) {s : State} {i : ℕ} {statement : Statement}
    {rest : List Statement} (hcall : s.calls[i]? = some (.authz (statement :: rest)))
    (newId : Uuid) :
    step catalog s (.advance i newId) = s.goOn i (exec s.now newId s.store statement).1
      (.authz (Authz.advance s.now newId s.store (statement :: rest)).2) := by
  simp only [step, hcall, Call.advance, Authz.advance_cons]
  rfl

/-- **What an event can do**, said once. -/
theorem step_cases (catalog : List PermissionKey) (s : State) (e : Event) :
    Step catalog s e (step catalog s e) := by
  cases e with
  | begin operation =>
    simp only [step]
    split
    · rename_i call hbegin
      exact .begin hbegin
    · rename_i failure hbegin
      exact .refused hbegin
  | tick duration => exact .tick duration
  | advance i newId =>
    cases hcall : s.calls[i]? with
    | none =>
      simp only [step, hcall]
      exact .absent hcall
    | some call =>
      cases call with
      | authz statements =>
        cases statements with
        | nil =>
          simp only [step, hcall]
          exact .finish hcall trivial (Or.inr rfl)
        | cons statement rest =>
          rw [step_statement catalog hcall]
          exact .statement hcall
      | createRole input =>
        simp only [step, hcall, Call.advance]
        cases hok : RoleDrizzleRepository.create catalog input newId s.now s.store.tables with
        | ok tables => exact .createRole hcall hok
        | error e => exact .finish hcall trivial (Or.inl rfl)
      | setRolePermissions roleId keys =>
        simp only [step, hcall, Call.advance]
        cases hok : RoleDrizzleRepository.setPermissions catalog roleId keys s.now s.store.tables with
        | ok tables => exact .setRolePermissions hcall hok
        | error e => exact .finish hcall trivial (Or.inl rfl)
      | deleteRole roleId =>
        simp only [step, hcall]
        exact .deleteRole hcall
      | finished =>
        simp only [step, hcall]
        exact .finish hcall trivial (Or.inl rfl)

/-- The statements with which a call begins. -/
inductive Begins (tables : Tables) : Operation → List Statement → Prop
  | check (userId : Uuid) : Begins tables (.check userId) [.getJson userId .check]
  | assignRole {command : AssignRoleCommand} {actor : Uuid} {role : RoleWithPermissions}
      (hrole : RoleDrizzleRepository.findById tables command.roleId = some role) :
      Begins tables (.assignRole command actor) [.getJson actor (.assignRole command actor role)]
  | revokeAssignment {assignmentId actor : Uuid} {a : UserRoleAssignment}
      (hfind : tables.userRoleAssignments.find assignmentId = some a) :
      Begins tables (.revokeAssignment assignmentId actor) (.revoke assignmentId :: settle a.userId)
  | syncUserRolesByKeys (userId : Uuid) (roleKeys : List String) (actor : Uuid) :
      Begins tables (.syncUserRolesByKeys userId roleKeys actor)
        [.listForUser userId roleKeys actor]
  /-- A change of a role is a transaction. -/
  | role (operation : Operation) : Begins tables operation []

theorem begins_of_begin {catalog : List PermissionKey} {operation : Operation} {call : Call}
    {tables : Tables} (hbegin : operation.begin catalog tables = .ok call) :
    Begins tables operation call.statements := by
  cases operation with
  | check userId =>
    obtain rfl := Except.ok.inj hbegin
    exact .check userId
  | createRole input actor =>
    simp only [Operation.begin, Except.bind_eq_ok_iff, Except.pure_eq_ok_iff] at hbegin
    obtain ⟨-, -, -, -, rfl⟩ := hbegin
    exact .role _
  | setRolePermissions roleId keys actor =>
    simp only [Operation.begin, Except.bind_eq_ok_iff, Except.pure_eq_ok_iff] at hbegin
    obtain ⟨-, -, -, -, rfl⟩ := hbegin
    exact .role _
  | deleteRole roleId actor =>
    simp only [Operation.begin, Except.bind_eq_ok_iff, Except.pure_eq_ok_iff] at hbegin
    obtain ⟨-, -, -, -, rfl⟩ := hbegin
    exact .role _
  | assignRole command actor =>
    obtain ⟨first, hfirst, rfl⟩ := Except.map_eq_ok_iff.1 hbegin
    simp only [AuthzAdminService.assignRole, Except.bind_eq_ok_iff, Outcome.orThrow_eq_ok_iff,
      Except.pure_eq_ok_iff] at hfirst
    obtain ⟨role, hrole, rfl⟩ := hfirst
    exact .assignRole hrole
  | revokeAssignment assignmentId actor =>
    obtain ⟨first, hfirst, rfl⟩ := Except.map_eq_ok_iff.1 hbegin
    simp only [AuthzAdminService.revokeAssignment, Except.bind_eq_ok_iff,
      Outcome.orThrow_eq_ok_iff, Except.pure_eq_ok_iff] at hfirst
    obtain ⟨a, hfind, rfl⟩ := hfirst
    exact .revokeAssignment hfind
  | syncUserRolesByKeys userId roleKeys actor =>
    obtain rfl := Except.ok.inj hbegin
    exact .syncUserRolesByKeys userId roleKeys actor

/-- The clock goes on. -/
theorem Step.now_le {catalog : List PermissionKey} {s s' : State} {e : Event}
    (h : Step catalog s e s') : s.now ≤ s'.now := by
  cases h with
  | tick duration => exact Nat.le_add_right _ _
  | _ => exact Nat.le_refl _

/-- The rows of the permissions of roles after they have been set. -/
theorem insertPermissions_ok {catalog keys : List PermissionKey} {roleId : Uuid}
    {others rows : List RolePermission}
    (h : RoleDrizzleRepository.insertPermissions catalog roleId keys others = .ok rows) :
    rows = others ++ RoleDrizzleRepository.permissionRows roleId keys := by
  simp only [RoleDrizzleRepository.insertPermissions, Except.bind_eq_ok_iff,
    Outcome.require_eq_ok_iff, Except.pure_eq_ok_iff] at h
  obtain ⟨-, -, -, -, -, -, rfl⟩ := h
  rfl

/-- `create` and `setPermissions` add no other rows than those of the role, and leave the
assignments alone. -/
structure Writes (roleId : Uuid) (keys : List PermissionKey) (tables tables' : Tables) : Prop where
  rolePermissions : ∀ p ∈ tables'.rolePermissions, p ∈ tables.rolePermissions ∨
    (p.roleId = roleId ∧ p.permissionKey ∈ keys)
  userRoleAssignments : tables'.userRoleAssignments = tables.userRoleAssignments

theorem mem_permissionRows {roleId : Uuid} {keys : List PermissionKey} {p : RolePermission} :
    p ∈ RoleDrizzleRepository.permissionRows roleId keys ↔
      p.roleId = roleId ∧ p.permissionKey ∈ keys := by
  rw [RoleDrizzleRepository.permissionRows, List.mem_map]
  constructor
  · rintro ⟨key, hkey, rfl⟩
    exact ⟨rfl, hkey⟩
  · rintro ⟨rfl, hkey⟩
    exact ⟨p.permissionKey, hkey, rfl⟩

section Writes

variable {catalog : List PermissionKey} {newId : Uuid} {now : Time} {tables tables' : Tables}

theorem writes_create {input : CreateRoleInput}
    (h : RoleDrizzleRepository.create catalog input newId now tables = .ok tables') :
    Writes newId input.permissions tables tables' := by
  simp only [RoleDrizzleRepository.create, Except.bind_eq_ok_iff, Outcome.require_eq_ok_iff,
    Except.pure_eq_ok_iff] at h
  obtain ⟨-, -, rows, hrows, rfl⟩ := h
  refine ⟨fun p hp => ?_, rfl⟩
  rw [insertPermissions_ok hrows, List.mem_append, mem_permissionRows] at hp
  exact hp

theorem writes_setPermissions {roleId : Uuid} {keys : List PermissionKey}
    (h : RoleDrizzleRepository.setPermissions catalog roleId keys now tables = .ok tables') :
    Writes roleId keys tables tables' := by
  simp only [RoleDrizzleRepository.setPermissions, Except.bind_eq_ok_iff,
    Outcome.require_eq_ok_iff, Except.pure_eq_ok_iff] at h
  obtain ⟨-, -, rows, hrows, rfl⟩ := h
  refine ⟨fun p hp => ?_, rfl⟩
  rw [insertPermissions_ok hrows, List.mem_append, mem_permissionRows] at hp
  exact hp.imp_left fun hp => (List.mem_filter.1 hp).1

end Writes

end Administration

end OpsHub
