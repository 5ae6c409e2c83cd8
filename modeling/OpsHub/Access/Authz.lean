import OpsHub.Domain.Tables
import OpsHub.Lib.Outcome
import OpsHub.Lib.TtlCache
import Mathlib.Data.List.Sort

/-!
# Authorization

`AuthzService` with `ScopeEvaluator`, and the part of `AuthzAdminService` that grants and
revokes roles, with the repositories below them.

* `AuthzService.effective`, `AuthzService.answer`: the permissions of a user as the database
  has them, and what `check` makes of them;
* `Statement`, `Authz.exec`: the statements of these services, each of which names the
  statements that follow it; a call is the list of those that it has still to make;
* `AuthzFrame`, `authzFrame`: what a statement adds to the assignments and to the cache.
-/

namespace OpsHub

/-! ### Permissions -/

/-- The value of the database enumeration. -/
def ScopeType.name : ScopeType → String
  | «global» => "global"
  | self => "self"
  | team => "team"
  | dept => "dept"
  | region => "region"

/-- A scope in which a permission is held. -/
structure Scope where
  type : ScopeType
  id : Option String
  deriving DecidableEq, Repr

/-- The attributes of a resource that scopes are compared with. -/
structure ResourceAttrs where
  ownerId : Option Uuid := none
  teamId : Option String := none
  deptId : Option String := none
  region : Option String := none
  deriving DecidableEq, Repr

/-- `EffectivePermissions`: the scopes in which each permission is held. -/
abbrev EffectivePermissions := List (PermissionKey × List Scope)

namespace EffectivePermissions

/-- `effective[permission] ?? []`. -/
def scopes (effective : EffectivePermissions) (permission : PermissionKey) : List Scope :=
  (effective.lookup permission).getD []

/-- `(effective[permission] ??= []).push(scope)`. -/
def push (permission : PermissionKey) (scope : Scope) : EffectivePermissions → EffectivePermissions
  | [] => [(permission, [scope])]
  | (key, scopes) :: rest =>
    if key = permission then (key, scopes ++ [scope]) :: rest
    else (key, scopes) :: push permission scope rest

/-- `Object.keys(effective)`. -/
def keys (effective : EffectivePermissions) : List PermissionKey := effective.map Prod.fst

theorem scopes_cons (key permission : PermissionKey) (scopes : List Scope)
    (effective : EffectivePermissions) : EffectivePermissions.scopes ((key, scopes) :: effective)
      permission = if permission = key then scopes else effective.scopes permission := by
  unfold EffectivePermissions.scopes
  rw [List.lookup_cons]
  by_cases hkey : permission = key
  · simp [hkey]
  · simp [hkey, beq_eq_false_iff_ne.2 hkey]

theorem scopes_push (permission key : PermissionKey) (scope : Scope)
    (effective : EffectivePermissions) : (push permission scope effective).scopes key =
      effective.scopes key ++ if key = permission then [scope] else [] := by
  induction effective with
  | nil =>
    rw [push, scopes_cons]
    rfl
  | cons entry rest ih =>
    obtain ⟨key', scopes'⟩ := entry
    unfold push
    by_cases hnew : key' = permission
    · -- the key has been seen before
      subst hnew
      rw [if_pos rfl, scopes_cons, scopes_cons]
      by_cases hkey : key = key'
      · simp only [if_pos hkey]
      · simp only [if_neg hkey, List.append_nil]
    · rw [if_neg hnew, scopes_cons, scopes_cons]
      by_cases hkey : key = key'
      · have hne : key ≠ permission := fun h => hnew (hkey.symm.trans h)
        simp only [if_pos hkey, if_neg hne, List.append_nil]
      · simp only [if_neg hkey]
        exact ih

theorem mem_keys_push {permission key : PermissionKey} {scope : Scope}
    {effective : EffectivePermissions} :
    key ∈ (push permission scope effective).keys ↔ key ∈ effective.keys ∨ key = permission := by
  induction effective with
  | nil => simp [push, keys]
  | cons entry rest ih =>
    obtain ⟨key', scopes'⟩ := entry
    unfold push
    by_cases hnew : key' = permission
    · subst hnew
      simp only [if_true, keys, List.map_cons, List.mem_cons]
      tauto
    · simp only [if_neg hnew, keys, List.map_cons, List.mem_cons] at ih ⊢
      rw [ih]
      tauto

end EffectivePermissions

/-- `WILDCARD_PERMISSION`. -/
def wildcardPermission : PermissionKey := "*"

namespace ScopeEvaluator

/-- `matchers`; `user` is the `sub` of the principal. -/
def matchers (grant : Scope) (resource : ResourceAttrs) (user : Uuid) : Bool :=
  match grant.type with
  | .global => true
  | .self => decide (resource.ownerId = some user)
  | .team => decide (grant.id ≠ none ∧ grant.id = resource.teamId)
  | .dept => decide (grant.id ≠ none ∧ grant.id = resource.deptId)
  | .region => decide (grant.id ≠ none ∧ grant.id = resource.region)

/-- `anyMatches`. -/
def anyMatches (grants : List Scope) (resource : ResourceAttrs) (user : Uuid) : Bool :=
  grants.any (fun grant => matchers grant resource user)

end ScopeEvaluator

namespace AuthzService

/-- `CACHE_TTL_SECONDS`. -/
def cacheTtlSeconds : ℕ := 300

/-- The assignment has not expired. -/
def Unexpired (now : Time) (a : UserRoleAssignment) : Prop := ∀ expiresAt ∈ a.expiresAt, now < expiresAt

instance (now : Time) : DecidablePred (Unexpired now) := fun a =>
  inferInstanceAs (Decidable (∀ expiresAt ∈ a.expiresAt, now < expiresAt))

/-- The unexpired assignments of a user. -/
def assignments (tables : Tables) (now : Time) (userId : Uuid) : List UserRoleAssignment :=
  tables.userRoleAssignments.rows.filter (fun a => decide (a.userId = userId ∧ Unexpired now a))

/-- The rows of the join of `resolve`. -/
def joined (tables : Tables) (now : Time) (userId : Uuid) : List (PermissionKey × Scope) :=
  (assignments tables now userId).flatMap fun a =>
    (tables.rolePermissions.filter (fun p => decide (p.roleId = a.roleId))).map fun p =>
      (p.permissionKey, ⟨a.scopeType, a.scopeId⟩)

/-- What `resolve` makes of the rows. -/
def effective (tables : Tables) (now : Time) (userId : Uuid) : EffectivePermissions :=
  (joined tables now userId).foldl (fun effective row => effective.push row.1 row.2) []

/-- The answer of `check` for the permissions that `resolve` has returned. -/
def answer (effective : EffectivePermissions) (permission : PermissionKey)
    (resource : Option ResourceAttrs) (user : Option Uuid) : Bool :=
  let grants := effective.scopes wildcardPermission ++ effective.scopes permission
  match grants, resource, user with
  | [], _, _ => false
  | grants, some resource, some user => ScopeEvaluator.anyMatches grants resource user
  | _, _, _ => true

/-- Who holds nothing is refused. -/
@[simp] theorem answer_nil (permission : PermissionKey) (resource : Option ResourceAttrs)
    (user : Option Uuid) : answer [] permission resource user = false := rfl

section Effective

variable {tables : Tables} {now : Time} {userId : Uuid} {permission : PermissionKey}

/-- Who holds a permission in some scope passes a check without a resource. -/
theorem mem_keys_of_answer {e : EffectivePermissions} {key : PermissionKey}
    (h : answer e key none none = true) : wildcardPermission ∈ e.keys ∨ key ∈ e.keys := by
  have hkeys : ∀ k, e.scopes k ≠ [] → k ∈ e.keys := by
    intro k hk
    cases hlookup : e.lookup k with
    | none => exact absurd (by rw [EffectivePermissions.scopes, hlookup]; rfl) hk
    | some scopes =>
      obtain ⟨⟨k', scopes'⟩, hentry, hk'⟩ := List.lookup_isSome_iff.1 (by rw [hlookup]; rfl)
      obtain rfl : k = k' := by simpa using hk'
      exact List.mem_map_of_mem hentry
  by_contra hnone
  rw [not_or] at hnone
  have hwildcard : e.scopes wildcardPermission = [] := by
    by_contra hk
    exact hnone.1 (hkeys _ hk)
  have hkey : e.scopes key = [] := by
    by_contra hk
    exact hnone.2 (hkeys _ hk)
  simp [answer, hwildcard, hkey] at h

theorem mem_assignments {a : UserRoleAssignment} : a ∈ assignments tables now userId ↔
    a ∈ tables.userRoleAssignments.rows ∧ a.userId = userId ∧ Unexpired now a := by
  simp only [assignments, List.mem_filter, decide_eq_true_eq]

theorem mem_joined {scope : Scope} : (permission, scope) ∈ joined tables now userId ↔
    ∃ a ∈ assignments tables now userId, ⟨a.roleId, permission⟩ ∈ tables.rolePermissions ∧
      scope = ⟨a.scopeType, a.scopeId⟩ := by
  simp only [joined, List.mem_flatMap, List.mem_map, List.mem_filter, decide_eq_true_eq,
    Prod.mk.injEq]
  constructor
  · rintro ⟨a, ha, ⟨roleId, key⟩, ⟨hcarried, rfl⟩, rfl, rfl⟩
    exact ⟨a, ha, hcarried, rfl⟩
  · rintro ⟨a, ha, hcarried, rfl⟩
    exact ⟨a, ha, ⟨a.roleId, permission⟩, ⟨hcarried, rfl⟩, rfl, rfl⟩

/-- A permission is held in the scopes of the assignments that carry it. -/
theorem mem_scopes_effective {scope : Scope} :
    scope ∈ (effective tables now userId).scopes permission ↔
      (permission, scope) ∈ joined tables now userId := by
  have hfold : ∀ (rows : List (PermissionKey × Scope)) (e : EffectivePermissions),
      scope ∈ (rows.foldl (fun e row => e.push row.1 row.2) e).scopes permission ↔
        scope ∈ e.scopes permission ∨ (permission, scope) ∈ rows := by
    intro rows
    induction rows with
    | nil => simp
    | cons row rows ih =>
      intro e
      obtain ⟨key, scope'⟩ := row
      rw [List.foldl_cons, ih, EffectivePermissions.scopes_push, List.mem_append, List.mem_cons,
        Prod.mk.injEq, or_assoc]
      by_cases hkey : permission = key
      · simp [hkey]
      · simp [hkey]
  rw [effective, hfold]
  simp [EffectivePermissions.scopes]

theorem mem_keys_effective : permission ∈ (effective tables now userId).keys ↔
    ∃ a ∈ assignments tables now userId, ⟨a.roleId, permission⟩ ∈ tables.rolePermissions := by
  have hfold : ∀ (rows : List (PermissionKey × Scope)) (e : EffectivePermissions),
      permission ∈ (rows.foldl (fun e row => e.push row.1 row.2) e).keys ↔
        permission ∈ e.keys ∨ ∃ scope, (permission, scope) ∈ rows := by
    intro rows
    induction rows with
    | nil => simp
    | cons row rows ih =>
      intro e
      obtain ⟨key, scope'⟩ := row
      rw [List.foldl_cons, ih, EffectivePermissions.mem_keys_push, or_assoc]
      simp only [List.mem_cons, Prod.mk.injEq, exists_or, exists_and_left, exists_eq, and_true]
  rw [effective, hfold]
  simp only [EffectivePermissions.keys, List.map_nil, List.not_mem_nil, false_or, mem_joined]
  constructor
  · rintro ⟨scope, a, ha, hcarried, -⟩
    exact ⟨a, ha, hcarried⟩
  · rintro ⟨a, ha, hcarried⟩
    exact ⟨⟨a.scopeType, a.scopeId⟩, a, ha, hcarried, rfl⟩

/-- The role carries the permission, by itself or as a wildcard. -/
def Carries (tables : Tables) (roleId : Uuid) (permission : PermissionKey) : Prop :=
  ⟨roleId, permission⟩ ∈ tables.rolePermissions ∨
    ⟨roleId, wildcardPermission⟩ ∈ tables.rolePermissions

instance (tables : Tables) (roleId : Uuid) (permission : PermissionKey) :
    Decidable (Carries tables roleId permission) :=
  inferInstanceAs (Decidable (_ ∨ _))

/-- **What `check` enforces**: some unexpired assignment of the user has a role that carries the
permission and a scope that covers the resource. -/
theorem answer_effective_iff {resource : ResourceAttrs} {user : Uuid} :
    answer (effective tables now userId) permission (some resource) (some user) = true ↔
      ∃ a ∈ assignments tables now userId, Carries tables a.roleId permission ∧
        ScopeEvaluator.matchers ⟨a.scopeType, a.scopeId⟩ resource user = true := by
  have hany : answer (effective tables now userId) permission (some resource) (some user) =
      ScopeEvaluator.anyMatches ((effective tables now userId).scopes wildcardPermission ++
        (effective tables now userId).scopes permission) resource user := by
    unfold answer
    cases (effective tables now userId).scopes wildcardPermission ++
      (effective tables now userId).scopes permission <;> rfl
  rw [hany, ScopeEvaluator.anyMatches, List.any_eq_true]
  simp only [List.mem_append, mem_scopes_effective, mem_joined]
  constructor
  · rintro ⟨scope, ⟨a, ha, hcarried, rfl⟩ | ⟨a, ha, hcarried, rfl⟩, hmatch⟩
    · exact ⟨a, ha, Or.inr hcarried, hmatch⟩
    · exact ⟨a, ha, Or.inl hcarried, hmatch⟩
  · rintro ⟨a, ha, hcarried | hcarried, hmatch⟩
    · exact ⟨_, Or.inr ⟨a, ha, hcarried, rfl⟩, hmatch⟩
    · exact ⟨_, Or.inl ⟨a, ha, hcarried, rfl⟩, hmatch⟩

/-- Without a resource any scope suffices. -/
theorem answer_effective_none_iff :
    answer (effective tables now userId) permission none none = true ↔
      ∃ a ∈ assignments tables now userId, Carries tables a.roleId permission := by
  constructor
  · intro h
    rcases mem_keys_of_answer h with hkey | hkey
    · obtain ⟨a, ha, hcarried⟩ := mem_keys_effective.1 hkey
      exact ⟨a, ha, Or.inr hcarried⟩
    · obtain ⟨a, ha, hcarried⟩ := mem_keys_effective.1 hkey
      exact ⟨a, ha, Or.inl hcarried⟩
  · rintro ⟨a, ha, hcarried⟩
    have hgrants : (⟨a.scopeType, a.scopeId⟩ : Scope) ∈
        (effective tables now userId).scopes wildcardPermission ++
          (effective tables now userId).scopes permission := by
      rw [List.mem_append, mem_scopes_effective, mem_scopes_effective, mem_joined, mem_joined]
      rcases hcarried with hcarried | hcarried
      · exact Or.inr ⟨a, ha, hcarried, rfl⟩
      · exact Or.inl ⟨a, ha, hcarried, rfl⟩
    unfold answer
    cases hlist : (effective tables now userId).scopes wildcardPermission ++
        (effective tables now userId).scopes permission with
    | nil =>
      rw [hlist] at hgrants
      cases hgrants
    | cons scope scopes => rfl

end Effective

/-- Who has no assignment holds nothing. -/
theorem effective_eq_nil {tables : Tables} {userId : Uuid} (now : Time)
    (h : ∀ a ∈ tables.userRoleAssignments.rows, a.userId ≠ userId) :
    effective tables now userId = [] := by
  have hnone : assignments tables now userId = [] := by
    refine List.filter_eq_nil_iff.2 fun a ha => ?_
    simp [h a ha]
  rw [effective, joined, hnone]
  rfl

end AuthzService

/-! ### Repositories -/

/-- `RoleWithPermissions`. -/
structure RoleWithPermissions where
  id : Uuid
  key : String
  name : String
  system : Bool
  updatedAt : Time
  permissions : List PermissionKey
  deriving DecidableEq, Repr

namespace RoleDrizzleRepository

/-- `toDomain` with `permsFor`. -/
def toDomain (tables : Tables) (role : Role) : RoleWithPermissions where
  id := role.id
  key := role.key
  name := role.name
  system := role.system
  updatedAt := role.updatedAt
  permissions := (tables.rolePermissions.filter (fun p => decide (p.roleId = role.id))).map
    RolePermission.permissionKey

/-- `findById`. -/
def findById (tables : Tables) (id : Uuid) : Option RoleWithPermissions :=
  (tables.roles.find? (fun role => decide (role.id = id))).map (toDomain tables)

end RoleDrizzleRepository

/-- `AssignRoleInput`. -/
structure AssignRoleInput where
  userId : Uuid
  roleId : Uuid
  scopeType : ScopeType
  scopeId : Option String
  grantedBy : Uuid
  expiresAt : Option Time
  deriving DecidableEq, Repr

namespace RoleAssignmentDrizzleRepository

/-- The columns of `uq_ura_user_role_global` and `uq_ura_user_role_scoped` together. -/
def grantIndex (a : UserRoleAssignment) : Option (Uuid × Uuid × ScopeType × Option String) :=
  some (a.userId, a.roleId, a.scopeType, a.scopeId)

/-- `listForUser`, the newest first. -/
def listForUser (tables : Tables) (userId : Uuid) : List UserRoleAssignment :=
  (tables.userRoleAssignments.rows.filter (fun a => decide (a.userId = userId))).reverse

/-- `findEquivalent`. -/
def findEquivalent (tables : Tables) (input : AssignRoleInput) : Option UserRoleAssignment :=
  tables.userRoleAssignments.findBy grantIndex
    (input.userId, input.roleId, input.scopeType, input.scopeId)

/-- The row that `assign` inserts. -/
def row (input : AssignRoleInput) (newId : Uuid) : UserRoleAssignment where
  id := newId
  userId := input.userId
  roleId := input.roleId
  scopeType := input.scopeType
  scopeId := input.scopeId
  grantedBy := input.grantedBy
  expiresAt := input.expiresAt

/-- The insertion of `assign`, with the constraints of the table. -/
def insert (input : AssignRoleInput) (newId : Uuid) (tables : Tables) : Except Failure Tables := do
  Outcome.require (∃ role ∈ tables.roles, role.id = input.roleId)
    (.error "insert or update on table user_role_assignments violates foreign key constraint")
  Outcome.require (findEquivalent tables input = none) (.duplicateKey "user_role_assignments")
  let userRoleAssignments ← Outcome.orThrow (.duplicateKey "user_role_assignments")
    (tables.userRoleAssignments.insert (row input newId))
  pure { tables with userRoleAssignments := userRoleAssignments }

/-- `revoke`. -/
def revoke (id : Uuid) (tables : Tables) : Tables :=
  { tables with
    userRoleAssignments := tables.userRoleAssignments.deleteWhere (fun a => decide (a.id = id)) }

/-- The sorted role keys that `syncEmployeeRoleClaims` reads. -/
def roleKeys (tables : Tables) (now : Time) (userId : Uuid) : List String :=
  (((AuthzService.assignments tables now userId).filterMap fun a =>
    (tables.roles.find? (fun role => decide (role.id = a.roleId))).map Role.key).eraseDups).insertionSort
      (· ≤ ·)

/-- The update of `syncEmployeeRoleClaims`. -/
def storeRoleKeys (userId : Uuid) (keys : List String) (now : Time) (tables : Tables) : Tables :=
  { tables with
    employees := tables.employees.update userId
      (fun e => { e with roles := keys, updatedAt := now }) (fun _ => rfl) }

end RoleAssignmentDrizzleRepository

/-! ### The administrative service -/

/-- `AssignRoleCommand`. -/
structure AssignRoleCommand where
  userId : Uuid
  roleId : Uuid
  scopeType : Option ScopeType := none
  scopeId : Option String := none
  expiresAt : Option Time := none
  deriving DecidableEq, Repr

namespace AuthzAdminService

/-- `assertCanGrantRole`, for the permissions that `resolve` has returned. -/
def assertCanGrantRole (effective : EffectivePermissions) (role : RoleWithPermissions) :
    Except Failure Unit :=
  if wildcardPermission ∈ effective.keys then .ok ()
  else
    let missing := role.permissions.filter (fun p => decide (p ∉ effective.keys))
    Outcome.require (missing = []) (.permissionDenied
      ("Cannot grant role '" ++ role.key ++ "': it includes permissions you do not hold (" ++
        ", ".intercalate missing ++ ")."))

/-- The scope of `assignRole`; an empty scope id counts as none. -/
def assignInput (command : AssignRoleCommand) (actor : Uuid) : Except Failure AssignRoleInput := do
  let scopeType := command.scopeType.getD .global
  let unscoped : Bool := decide (scopeType = .global ∨ scopeType = .self)
  let scopeId := if unscoped then none else command.scopeId
  Outcome.require (unscoped = true ∨ scopeId.getD "" ≠ "") (.validation "VALIDATION_FAILED"
    ("scopeId is required for scope type '" ++ scopeType.name ++ "'"))
  pure
    { userId := command.userId
      roleId := command.roleId
      scopeType := scopeType
      scopeId := scopeId
      grantedBy := actor
      expiresAt := command.expiresAt }

end AuthzAdminService

/-! ### Statements -/

namespace Authz

/-- Who has called `resolve`. -/
inductive Caller
  | check
  /-- `assertCanGrantRole`, in an `assignRole`. -/
  | assignRole (command : AssignRoleCommand) (actor : Uuid) (role : RoleWithPermissions)
  deriving DecidableEq, Repr

/-- A statement on the database or on the cache. -/
inductive Statement
  /-- `resolve`: the lookup in the cache. -/
  | getJson (userId : Uuid) (caller : Caller)
  /-- Then: the join. -/
  | select (userId : Uuid) (caller : Caller)
  /-- Then: the entry in the cache. -/
  | setJson (userId : Uuid) (effective : EffectivePermissions) (caller : Caller)
  /-- `assign`: `findEquivalent`. -/
  | findEquivalent (input : AssignRoleInput)
  /-- Then: the insertion. -/
  | insert (input : AssignRoleInput)
  | revoke (id : Uuid)
  /-- `syncUserRolesByKeys`: the roles and the assignments of the user. -/
  | listForUser (userId : Uuid) (roleKeys : List String) (actor : Uuid)
  /-- `syncEmployeeRoleClaims`: the role keys. -/
  | selectKeys (userId : Uuid)
  /-- Then: the update. -/
  | updateRoles (userId : Uuid) (keys : List String)
  | invalidate (userId : Uuid)
  deriving DecidableEq, Repr

/-- The tables and the cache of permissions. -/
structure Store where
  tables : Tables
  permissions : TtlCache Uuid EffectivePermissions

/-- What `resolve` returns when nothing fails. -/
def Store.resolve (store : Store) (now : Time) (userId : Uuid) : EffectivePermissions :=
  (store.permissions.get now userId).getD (AuthzService.effective store.tables now userId)

/-- `AuthzService.check`. -/
def Store.check (store : Store) (now : Time) (userId : Uuid) (permission : PermissionKey)
    (resource : Option ResourceAttrs) (user : Option Uuid) : Bool :=
  AuthzService.answer (store.resolve now userId) permission resource user

/-- `syncEmployeeRoleClaims` and `invalidate`, which end every change of assignments. -/
def settle (userId : Uuid) : List Statement := [.selectKeys userId, .invalidate userId]

/-- The role ids that `syncUserRolesByKeys` is to leave; unknown keys are ignored. -/
def desiredRoleIds (tables : Tables) (roleKeys : List String) : List Uuid :=
  (roleKeys.filterMap fun key =>
    (tables.roles.find? (fun role => decide (role.key = key))).map Role.id).eraseDups

/-- The grants, the revocations and the rest of `syncUserRolesByKeys`. -/
def reconcile (tables : Tables) (userId : Uuid) (roleKeys : List String) (actor : Uuid) :
    List Statement :=
  let desired := desiredRoleIds tables roleKeys
  let currentGlobal := (RoleAssignmentDrizzleRepository.listForUser tables userId).filter
    (fun a => decide (a.scopeType = .global))
  let missing := desired.filter
    (fun roleId => decide (roleId ∉ currentGlobal.map UserRoleAssignment.roleId))
  let extra := currentGlobal.filter (fun a => decide (a.roleId ∉ desired))
  missing.map (fun roleId => .findEquivalent
      { userId := userId
        roleId := roleId
        scopeType := .global
        scopeId := none
        grantedBy := actor
        expiresAt := none }) ++
    extra.map (fun a => .revoke a.id) ++ settle userId

/-- How the call goes on when `resolve` returns. -/
def Caller.resume (effective : EffectivePermissions) : Caller → Except Failure (List Statement)
  | .check => .ok []
  | .assignRole command actor role => do
    AuthzAdminService.assertCanGrantRole effective role
    let input ← AuthzAdminService.assignInput command actor
    pure (.findEquivalent input :: settle command.userId)

/-- What a statement does, and the statements that it is followed by; the call ends if it
throws. -/
def exec (now : Time) (newId : Uuid) (store : Store) :
    Statement → Store × Except Failure (List Statement)
  | .getJson userId caller =>
    match store.permissions.get now userId with
    | some cached => (store, caller.resume cached)
    | none => (store, .ok [.select userId caller])
  | .select userId caller =>
    (store, .ok [.setJson userId (AuthzService.effective store.tables now userId) caller])
  | .setJson userId effective caller =>
    ({ store with
      permissions := store.permissions.set userId effective
        (now + AuthzService.cacheTtlSeconds * 1000) }, caller.resume effective)
  | .findEquivalent input =>
    match RoleAssignmentDrizzleRepository.findEquivalent store.tables input with
    | some _ => (store, .ok [])
    | none => (store, .ok [.insert input])
  | .insert input =>
    match RoleAssignmentDrizzleRepository.insert input newId store.tables with
    | .ok tables => ({ store with tables := tables }, .ok [])
    | .error e => (store, .error e)
  | .revoke id =>
    ({ store with tables := RoleAssignmentDrizzleRepository.revoke id store.tables }, .ok [])
  | .listForUser userId roleKeys actor =>
    (store, .ok (reconcile store.tables userId roleKeys actor))
  | .selectKeys userId =>
    (store, .ok [.updateRoles userId
      (RoleAssignmentDrizzleRepository.roleKeys store.tables now userId)])
  | .updateRoles userId keys =>
    ({ store with
      tables := RoleAssignmentDrizzleRepository.storeRoleKeys userId keys now store.tables }, .ok [])
  | .invalidate userId => ({ store with permissions := store.permissions.del userId }, .ok [])

/-- The next statement of a call: the store, and the statements that the call has left. -/
def advance (now : Time) (newId : Uuid) (store : Store) : List Statement → Store × List Statement
  | [] => (store, [])
  | statement :: rest =>
    match exec now newId store statement with
    | (store', .ok next) => (store', next ++ rest)
    | (store', .error _) => (store', [])

end Authz

namespace AuthzAdminService

open Authz

/-- The beginning of `assignRole`. -/
def assignRole (tables : Tables) (command : AssignRoleCommand) (actor : Uuid) :
    Except Failure (List Statement) := do
  let role ← Outcome.orThrow
    (.notFound "ROLE_NOT_FOUND" ("Role " ++ toString command.roleId ++ " not found"))
    (RoleDrizzleRepository.findById tables command.roleId)
  pure [.getJson actor (.assignRole command actor role)]

/-- The beginning of `revokeAssignment`. -/
def revokeAssignment (tables : Tables) (id : Uuid) : Except Failure (List Statement) := do
  let assignment ← Outcome.orThrow
    (.notFound "ROLE_ASSIGNMENT_NOT_FOUND" ("Assignment " ++ toString id ++ " not found"))
    (tables.userRoleAssignments.find id)
  pure (.revoke id :: settle assignment.userId)

/-- The beginning of `syncUserRolesByKeys`. -/
def syncUserRolesByKeys (userId : Uuid) (roleKeys : List String) (actor : Uuid) : List Statement :=
  [.listForUser userId roleKeys actor]

end AuthzAdminService

/-! ### What a statement adds -/

namespace Authz

/-- The user to whom a statement grants a role. -/
def Statement.grantee : Statement → Option Uuid
  | .insert input => some input.userId
  | _ => none

/-- The entry that a statement makes in the cache. -/
def Statement.entry : Statement → Option (Uuid × EffectivePermissions)
  | .setJson userId effective _ => some (userId, effective)
  | _ => none

/-- A statement writes assignments, the claims in the rows of employees, and the cache. -/
structure AuthzFrame (now : Time) (statement : Statement) (store store' : Store) : Prop where
  tables : store'.tables = { store.tables with
    userRoleAssignments := store'.tables.userRoleAssignments
    employees := store'.tables.employees }
  assignments : ∀ a ∈ store'.tables.userRoleAssignments.rows,
    a ∈ store.tables.userRoleAssignments.rows ∨ statement.grantee = some a.userId
  permissions : ∀ userId effective, store'.permissions.get now userId = some effective →
    store.permissions.get now userId = some effective ∨ statement.entry = some (userId, effective)
  statuses : ∀ userId, store'.tables.employeeStatus userId = store.tables.employeeStatus userId

variable {now : Time} {newId : Uuid} {store : Store} {statement : Statement}

/-- The store stays as it is. -/
theorem AuthzFrame.refl : AuthzFrame now statement store store :=
  ⟨rfl, fun _ ha => Or.inl ha, fun _ _ hget => Or.inl hget, fun _ => rfl⟩

theorem insert_ok {input : AssignRoleInput} {tables tables' : Tables}
    (h : RoleAssignmentDrizzleRepository.insert input newId tables = .ok tables') :
    ∃ userRoleAssignments,
      tables.userRoleAssignments.insert (RoleAssignmentDrizzleRepository.row input newId) =
        some userRoleAssignments ∧
      tables' = { tables with userRoleAssignments := userRoleAssignments } := by
  simp only [RoleAssignmentDrizzleRepository.insert, Except.bind_eq_ok_iff,
    Outcome.require_eq_ok_iff, Outcome.orThrow_eq_ok_iff, Except.pure_eq_ok_iff] at h
  obtain ⟨-, -, -, -, userRoleAssignments, hinsert, rfl⟩ := h
  exact ⟨userRoleAssignments, hinsert, rfl⟩

/-- How `assignRole` goes on. -/
theorem resume_assignRole_ok {effective : EffectivePermissions} {command : AssignRoleCommand}
    {actor : Uuid} {role : RoleWithPermissions} {next : List Statement}
    (h : Caller.resume effective (.assignRole command actor role) = .ok next) :
    AuthzAdminService.assertCanGrantRole effective role = .ok () ∧
      ∃ input, AuthzAdminService.assignInput command actor = .ok input ∧
        next = .findEquivalent input :: settle command.userId := by
  simp only [Caller.resume, Except.bind_eq_ok_iff, Except.pure_eq_ok_iff] at h
  obtain ⟨⟨⟩, hguard, input, hinput, rfl⟩ := h
  exact ⟨hguard, input, hinput, rfl⟩

/-- **What a statement adds**: the row that it inserts, and the entry that it makes. -/
theorem authzFrame (now : Time) (newId : Uuid) (store : Store) (statement : Statement) :
    AuthzFrame now statement store (exec now newId store statement).1 := by
  cases statement with
  | getJson userId caller =>
    simp only [exec]
    split
    · exact .refl
    · exact .refl
  | select userId caller => exact .refl
  | setJson userId effective caller =>
    refine ⟨rfl, fun a ha => Or.inl ha, fun userId' effective' hget => ?_, fun _ => rfl⟩
    by_cases hid : userId' = userId
    · subst hid
      obtain rfl := TtlCache.get_set_self hget
      exact Or.inr rfl
    · rw [exec, TtlCache.get_set_ne _ hid] at hget
      exact Or.inl hget
  | findEquivalent input =>
    simp only [exec]
    split
    · exact .refl
    · exact .refl
  | insert input =>
    simp only [exec]
    split
    · rename_i tables hinsert
      obtain ⟨userRoleAssignments, hrow, rfl⟩ := insert_ok hinsert
      refine ⟨rfl, fun a ha => ?_, fun _ _ hget => Or.inl hget, fun _ => rfl⟩
      rcases (Table.mem_insert hrow).1 ha with ha | rfl
      · exact Or.inl ha
      · exact Or.inr rfl
    · exact .refl
  | revoke id =>
    exact ⟨rfl, fun a ha => Or.inl (Table.mem_deleteWhere.1 ha).1, fun _ _ hget => Or.inl hget,
      fun _ => rfl⟩
  | listForUser userId roleKeys actor => exact .refl
  | selectKeys userId => exact .refl
  | updateRoles userId keys =>
    refine ⟨rfl, fun a ha => Or.inl ha, fun _ _ hget => Or.inl hget, fun userId' => ?_⟩
    simp only [exec, RoleAssignmentDrizzleRepository.storeRoleKeys, Tables.employeeStatus,
      Table.update]
    rw [Table.find_updateWhere, Option.map_map]
    congr 1
    funext e
    simp only [Function.comp_apply]
    split <;> rfl
  | invalidate userId =>
    refine ⟨rfl, fun a ha => Or.inl ha, fun userId' effective' hget => ?_, fun _ => rfl⟩
    by_cases hid : userId' = userId
    · subst hid
      rw [exec, TtlCache.get_del_self] at hget
      cases hget
    · rw [exec, TtlCache.get_del_ne _ hid] at hget
      exact Or.inl hget

theorem advance_cons (now : Time) (newId : Uuid) (store : Store) (statement : Statement)
    (rest : List Statement) :
    (advance now newId store (statement :: rest)).1 = (exec now newId store statement).1 := by
  rw [advance]
  split
  · rename_i store' next hexec
    rw [hexec]
  · rename_i store' e hexec
    rw [hexec]

/-- The statements that a call has left are those that the executed one is followed by, and those
that it had left before. -/
theorem mem_advance {rest : List Statement} {x : Statement}
    (h : x ∈ (advance now newId store (statement :: rest)).2) :
    (∃ next, (exec now newId store statement).2 = .ok next ∧ x ∈ next) ∨ x ∈ rest := by
  rw [advance] at h
  split at h
  · rename_i store' next hexec
    refine (List.mem_append.1 h).imp_left fun hx => ⟨next, ?_, hx⟩
    rw [hexec]
  · cases h

end Authz

end OpsHub
