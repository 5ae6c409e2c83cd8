import OpsHub.Access.RoleSync
import OpsHub.Identity.EntraLogin
import OpsHub.Identity.Sessions

/-!
# The roles of a login with an identity token

`entraLogin` takes the keys of roles from the claim `roles`, or `employee` if the claim is not a
list, and has `syncUserRolesByKeys` make the assignments of the user agree with them, which leaves
out the keys that it does not know.

* `entraRoles`: the keys that the login passes on;
* `SsoLogin`: a login that succeeds, stage by stage;
* `FollowsClaim`: the effective roles are the recognised ones of the claim, or that of an employee
  if there is none;
* `followsClaim_iff`: this is so exactly if the claim is not a list or has a recognised key;
* `not_followsClaim`: unknown keys leave the user without a role.
-/

namespace OpsHub

namespace SsoRoles

open AuthzService Authz RoleSync

/-! ### The claim -/

/-- The claim `roles` of a token: the items of the list, of which some are no strings; `none` if
the claim is absent or is not a list. -/
abbrev RolesClaim := Option (List (Option String))

/-- The keys that the login passes on. -/
def entraRoles : RolesClaim → List String
  | some items => items.reduceOption
  | none => ["employee"]

/-- The keys in the claim. -/
def claimKeys : RolesClaim → List String
  | some items => items.reduceOption
  | none => []

/-- The keys in the claim that name roles. -/
def recognisedKeys (roles : List Role) (rolesClaim : RolesClaim) : List String :=
  (claimKeys rolesClaim).filter fun key => decide (∃ role ∈ roles, role.key = key)

/-- The keys of the roles that the user should have: the recognised ones, or that of an employee
if there is none. -/
def mappedKeys (roles : List Role) (rolesClaim : RolesClaim) : List String :=
  if recognisedKeys roles rolesClaim = [] then ["employee"] else recognisedKeys roles rolesClaim

/-! ### The login -/

/-- The store with other employees. -/
def withEmployees (store : Store) (employees : Table Employee.id) : Store :=
  { store with tables := { store.tables with employees := employees } }

/-- The store with other refresh tokens. -/
def withRefreshTokens (store : Store) (tokens : Table RefreshToken.id) : Store :=
  { store with tables := { store.tables with refreshTokens := tokens } }

/-- **A login that succeeds**: the row of the identity, the test of its status, the roles, and the
session. -/
structure SsoLogin (toLowerCase : String → String) (config : AuthConfig) (claims : EntraClaims)
    (rolesClaim : RolesClaim) (store : Store) where
  now : Time
  newId : Uuid
  before : EmployeeTable
  employees : EmployeeTable
  employee : Employee
  stored : store.tables.employees = before.table
  resolved : AuthService.entraLogin toLowerCase claims now newId before = .ok (employees, employee)
  active : Sessions.assertActive employee = .ok ()
  syncedAt : Time
  synced : Store
  sync : Completes now (withEmployees store employees.table)
    (AuthzAdminService.syncUserRolesByKeys employee.id (entraRoles rolesClaim) employee.id)
    syncedAt synced
  familyId : Uuid
  sessionId : Uuid
  raw : String
  mintedAt : Time
  tokens : Table RefreshToken.id
  mint : RefreshTokenDrizzleRepository.create
    (Sessions.refreshRow config employee familyId mintedAt sessionId raw)
    synced.tables.refreshTokens = some tokens

namespace SsoLogin

variable {toLowerCase : String → String} {config : AuthConfig} {claims : EntraClaims}
  {rolesClaim : RolesClaim} {store : Store}

/-- The store after the login. -/
def after (login : SsoLogin toLowerCase config claims rolesClaim store) : Store :=
  withRefreshTokens login.synced login.tokens

/-- **The effective global roles are those of the claim.** -/
def FollowsClaim (login : SsoLogin toLowerCase config claims rolesClaim store) (t : Time) : Prop :=
  ∀ roleId, EffectiveGlobal login.after.tables t login.employee.id roleId ↔
    ∃ role ∈ store.tables.roles, role.id = roleId ∧
      role.key ∈ mappedKeys store.tables.roles rolesClaim

/-- The roles follow from the keys that the login passes on. -/
theorem effective_iff_entraRoles (login : SsoLogin toLowerCase config claims rolesClaim store)
    {t : Time} (hkeys : (store.tables.roles.map Role.key).Nodup)
    (hunexpired : ∀ a ∈ store.tables.userRoleAssignments.rows, a.userId = login.employee.id →
      Unexpired t a) (roleId : Uuid) :
    EffectiveGlobal login.after.tables t login.employee.id roleId ↔
      ∃ role ∈ store.tables.roles, role.id = roleId ∧ role.key ∈ entraRoles rolesClaim := by
  -- the session writes no assignment
  have hsame : EffectiveGlobal login.after.tables t login.employee.id roleId ↔
      EffectiveGlobal login.synced.tables t login.employee.id roleId := Iff.rfl
  rw [hsame]
  refine (effective_iff (by exact hkeys) login.sync t).2 (fun role _ _ hcurrent => ?_) roleId
  obtain ⟨a, ha, hglobal, hrole⟩ := mem_currentRoleIds.1 hcurrent
  exact effectiveGlobal_iff.2 ⟨a, ha, hglobal, hrole, hunexpired a ha hglobal.1⟩

theorem mem_recognisedKeys {roles : List Role} {key : String} :
    key ∈ recognisedKeys roles rolesClaim ↔
      key ∈ claimKeys rolesClaim ∧ ∃ role ∈ roles, role.key = key := by
  rw [recognisedKeys, List.mem_filter, decide_eq_true_eq]

/-- The login passes on keys that name the roles which the user should have, if the claim is no
list or has a recognised key. -/
theorem mem_entraRoles_iff {role : Role} (hrole : role ∈ store.tables.roles)
    (hclaim : rolesClaim = none ∨ recognisedKeys store.tables.roles rolesClaim ≠ []) :
    role.key ∈ entraRoles rolesClaim ↔ role.key ∈ mappedKeys store.tables.roles rolesClaim := by
  cases rolesClaim with
  | none => rfl
  | some items =>
    have hsome : recognisedKeys store.tables.roles (some items) ≠ [] :=
      hclaim.resolve_left (Option.some_ne_none items)
    rw [mappedKeys, if_neg hsome, mem_recognisedKeys]
    exact (and_iff_left ⟨role, hrole, rfl⟩).symm

/-- **The roles are those of the claim exactly if it is no list or has a recognised key.** -/
theorem followsClaim_iff (login : SsoLogin toLowerCase config claims rolesClaim store) {t : Time}
    (hkeys : (store.tables.roles.map Role.key).Nodup)
    (hemployee : ∃ role ∈ store.tables.roles, role.key = "employee")
    (hunexpired : ∀ a ∈ store.tables.userRoleAssignments.rows, a.userId = login.employee.id →
      Unexpired t a) :
    login.FollowsClaim t ↔
      rolesClaim = none ∨ recognisedKeys store.tables.roles rolesClaim ≠ [] := by
  constructor
  · intro hfollows
    rw [or_iff_not_imp_right, not_not]
    intro hnone
    obtain ⟨role, hrole, hkey⟩ := hemployee
    have hmapped : role.key ∈ mappedKeys store.tables.roles rolesClaim := by
      rw [mappedKeys, if_pos hnone, hkey]
      exact List.mem_singleton_self _
    -- the user has the role of an employee, so the login has passed on its key
    have heffective := (hfollows role.id).2 ⟨role, hrole, rfl, hmapped⟩
    obtain ⟨role', hrole', -, hpassed⟩ :=
      (login.effective_iff_entraRoles hkeys hunexpired role.id).1 heffective
    cases rolesClaim with
    | none => rfl
    | some items =>
      have hrecognised : role'.key ∈ recognisedKeys store.tables.roles (some items) :=
        mem_recognisedKeys.2 ⟨hpassed, role', hrole', rfl⟩
      rw [hnone] at hrecognised
      cases hrecognised
  · intro hclaim roleId
    rw [login.effective_iff_entraRoles hkeys hunexpired roleId]
    refine exists_congr fun role => and_congr_right fun hrole => and_congr_right fun _ => ?_
    exact mem_entraRoles_iff hrole hclaim

end SsoLogin

/-! ### Unknown keys -/

namespace Unmapped

open EntraBinding

/-- The roles of employees and of auditors; nobody has an assignment. -/
def tables : Tables :=
  { Tables.empty with
    roles := [⟨5, "employee", "Employee", true, 0⟩, ⟨6, "auditor", "Auditor", true, 0⟩] }

/-- Nothing is in the cache. -/
def start : Store := ⟨tables, TtlCache.empty⟩

/-- A first login. -/
def claims : EntraClaims :=
  { oid := some "oid-a", preferredUsername := some "lan@corp.vn", name := some "Lan Le" }

/-- The row that it creates. -/
def employee : Employee :=
  { id := 1, entraOid := some "oid-a", email := String.toLower "lan@corp.vn",
    displayName := "Lan Le", roles := [], updatedAt := 0 }

/-- The employees after it. -/
def employees : EmployeeTable where
  table := ⟨[employee], List.nodup_singleton _⟩
  email := by simp [Table.Unique]
  entraOid := by simp [Table.Unique]
  fits := by decide +kernel

theorem resolved :
    AuthService.entraLogin String.toLower claims 0 1 Takeover.empty = .ok (employees, employee) := by
  have hstore : EmployeeTable.store employees.table = .ok employees :=
    EmployeeTable.store_eq_ok_iff.2 rfl
  have hcreate : EmployeeDrizzleRepository.create "oid-a" (claims.input String.toLower "lan@corp.vn")
      0 1 Takeover.empty = (EmployeeTable.store employees.table).map fun e => (e, employee) := rfl
  rw [hstore] at hcreate
  exact hcreate

/-- The store after the roles have been synced. -/
def synced (rolesClaim : RolesClaim) : Store :=
  (complete 0 11 8 (withEmployees start employees.table)
    (AuthzAdminService.syncUserRolesByKeys 1 (entraRoles rolesClaim) 1)).getD start

/-- The login with a claim, if the roles can be synced. -/
def login (rolesClaim : RolesClaim)
    (h : complete 0 11 8 (withEmployees start employees.table)
      (AuthzAdminService.syncUserRolesByKeys 1 (entraRoles rolesClaim) 1) = some (synced rolesClaim))
    (htokens : (synced rolesClaim).tables.refreshTokens = Table.empty _) :
    SsoLogin String.toLower Sessions.Sample.config claims rolesClaim start where
  now := 0
  newId := 1
  before := Takeover.empty
  employees := employees
  employee := employee
  stored := rfl
  resolved := resolved
  active := rfl
  syncedAt := 0
  synced := synced rolesClaim
  sync := completes_of_complete 11 8 h
  familyId := 2
  sessionId := 3
  raw := "token-a"
  mintedAt := 0
  tokens := ⟨[Sessions.refreshRow Sessions.Sample.config employee 2 0 3 "token-a"],
    List.nodup_singleton _⟩
  mint := by
    rw [htokens]
    rfl

end Unmapped

open Unmapped in
/-- A claim with a known and an unknown key. -/
theorem followsClaim_auditor :
    (login (some [some "auditor", some "Auditor"]) rfl rfl).FollowsClaim 0 :=
  (SsoLogin.followsClaim_iff _ (by decide) (by decide)
    (by intro a ha; cases ha)).2 (Or.inr (by decide))

open Unmapped in
/-- **A claim whose keys are all unknown leaves the user without a role.** -/
theorem not_followsClaim :
    ¬(login (some [some "Auditor"]) rfl rfl).FollowsClaim 0 := by
  intro h
  have hrole := (h 5).2 (by decide)
  exact absurd hrole (by decide)

end SsoRoles

end OpsHub
