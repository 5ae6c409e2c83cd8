import OpsHub.Access.Administration

/-!
# Privileges over whole runs

A permission reaches a user by an assignment to one of the user's roles, or by an edit of such a
role.  `assignRole` asks whether the actor holds the permissions of the role; an edit asks nobody.

* `HoldsKey`: what a user effectively holds;
* `Bound`: what a user, or one of the acting users, has held in the beginning;
* `KeepsBound`: the condition on the edits of roles;
* `Confined`: the invariant; it speaks about assignments, about the cache and about the calls
  that have passed the test of `assignRole` but not yet made the grant;
* `run_confined`: nobody ever holds more than the bound in runs whose edits keep it;
* `not_confined`: whoever manages roles can give themselves any permission.
-/

namespace OpsHub

namespace Escalation

open Authz Administration

/-! ### What users hold -/

/-- The user effectively holds the permission, according to the tables. -/
def HoldsKey (tables : Tables) (now : Time) (userId : Uuid) (key : PermissionKey) : Prop :=
  AuthzService.answer (AuthzService.effective tables now userId) key none none = true

instance (tables : Tables) (now : Time) (userId : Uuid) (key : PermissionKey) :
    Decidable (HoldsKey tables now userId key) :=
  inferInstanceAs (Decidable (_ = true))

/-- The user, or one of the acting users, holds the permission. -/
def Bound (tables : Tables) (now : Time) (actors : List Uuid) (userId : Uuid)
    (key : PermissionKey) : Prop :=
  HoldsKey tables now userId key ∨ ∃ actor ∈ actors, HoldsKey tables now actor key

instance (tables : Tables) (now : Time) (actors : List Uuid) (userId : Uuid)
    (key : PermissionKey) : Decidable (Bound tables now actors userId key) :=
  inferInstanceAs (Decidable (_ ∨ _))

/-- A bound on what users may hold under which the actors may share what they have: `*` stands
for every permission, and what one of the actors may hold, everybody may hold. -/
structure Shared (bound : Uuid → PermissionKey → Prop) (actors : List Uuid) : Prop where
  wildcard : ∀ userId key, bound userId wildcardPermission → bound userId key
  actors : ∀ actor ∈ actors, ∀ userId key, bound actor key → bound userId key

theorem holdsKey_of_wildcard {tables : Tables} {now : Time} {userId : Uuid}
    (h : HoldsKey tables now userId wildcardPermission) (key : PermissionKey) :
    HoldsKey tables now userId key := by
  obtain ⟨a, ha, hcarried⟩ := AuthzService.answer_effective_none_iff.1 h
  exact AuthzService.answer_effective_none_iff.2 ⟨a, ha, Or.inr (hcarried.elim id id)⟩

theorem shared_bound (tables : Tables) (now : Time) (actors : List Uuid) :
    Shared (Bound tables now actors) actors := by
  constructor
  · rintro userId key (h | ⟨actor, hactor, h⟩)
    · exact Or.inl (holdsKey_of_wildcard h key)
    · exact Or.inr ⟨actor, hactor, holdsKey_of_wildcard h key⟩
  · rintro actor hactor userId key (h | h)
    · exact Or.inr ⟨actor, hactor, h⟩
    · exact Or.inr h

/-! ### The condition -/

/-- The user to whom an `assignRole` gives a role, with the role. -/
def grantOf : Caller → Option (Uuid × Uuid)
  | .check => none
  | .assignRole command _ _ => some (command.userId, command.roleId)

/-- The user to whom a statement, or a later one of its call, gives a role, with the role. -/
def target : Statement → Option (Uuid × Uuid)
  | .getJson _ caller => grantOf caller
  | .select _ caller => grantOf caller
  | .setJson _ _ caller => grantOf caller
  | .findEquivalent input => some (input.userId, input.roleId)
  | .insert input => some (input.userId, input.roleId)
  | _ => none

/-- Those who hold the role, and those to whom a call in flight is to give it. -/
def holders (s : State) (roleId : Uuid) : List Uuid :=
  (s.store.tables.userRoleAssignments.rows.filter
      (fun a => decide (a.roleId = roleId ∧ AuthzService.Unexpired s.now a))).map
      UserRoleAssignment.userId ++
    ((s.calls.flatMap Call.statements).filterMap target).filterMap
      (fun grant => if grant.2 = roleId then some grant.1 else none)

/-- The role that a step edits, and the permissions that it gets. -/
def edit (s : State) : Event → Option (Uuid × List PermissionKey)
  | .advance i newId =>
    match s.calls[i]? with
    | some (.createRole input) => some (newId, input.permissions)
    | some (.setRolePermissions roleId keys) => some (roleId, keys)
    | _ => none
  | _ => none

/-- The user who acts. -/
def actorOf : Event → Option Uuid
  | .begin operation => operation.actor
  | _ => none

/-- The call is not an interactive one. -/
def syncs : Event → Bool
  | .begin (.syncUserRolesByKeys _ _ _) => true
  | _ => false

/-- The condition on a step. -/
structure KeepsBound (bound : Uuid → PermissionKey → Prop) (actors : List Uuid) (s : State)
    (e : Event) : Prop where
  /-- One of the acting users acts. -/
  performed : ∀ actor ∈ actorOf e, actor ∈ actors
  /-- Nothing is reconciled with an identity provider. -/
  interactive : syncs e = false
  /-- An edit of a role gives nobody more than the bound. -/
  edits : ∀ role ∈ edit s e, ∀ key ∈ role.2, ∀ userId ∈ holders s role.1, bound userId key

instance (bound : Uuid → PermissionKey → Prop) [∀ userId key, Decidable (bound userId key)]
    (actors : List Uuid) (s : State) (e : Event) : Decidable (KeepsBound bound actors s e) :=
  decidable_of_iff
    ((∀ actor ∈ actorOf e, actor ∈ actors) ∧ syncs e = false ∧
      ∀ role ∈ edit s e, ∀ key ∈ role.2, ∀ userId ∈ holders s role.1, bound userId key)
    ⟨fun h => ⟨h.1, h.2.1, h.2.2⟩, fun h => ⟨h.performed, h.interactive, h.edits⟩⟩

theorem mem_holders {s : State} {roleId userId : Uuid} : userId ∈ holders s roleId ↔
    (∃ a ∈ s.store.tables.userRoleAssignments.rows, a.roleId = roleId ∧
      AuthzService.Unexpired s.now a ∧ a.userId = userId) ∨
    ∃ call ∈ s.calls, ∃ statement ∈ call.statements, target statement = some (userId, roleId) := by
  simp only [holders, List.mem_append, List.mem_map, List.mem_filter, decide_eq_true_eq,
    List.mem_filterMap, List.mem_flatMap]
  constructor
  · rintro (⟨a, ⟨ha, hrole, hlive⟩, huser⟩ | ⟨⟨userId', roleId'⟩, ⟨statement, hstatement, ht⟩, hgrant⟩)
    · exact Or.inl ⟨a, ha, hrole, hlive, huser⟩
    · obtain ⟨call, hcall, hmem⟩ := hstatement
      split at hgrant
      · rename_i hrole
        obtain rfl := Option.some.inj hgrant
        exact Or.inr ⟨call, hcall, statement, hmem, by rw [ht, ← hrole]⟩
      · cases hgrant
  · rintro (⟨a, ha, hrole, hlive, huser⟩ | ⟨call, hcall, statement, hmem, ht⟩)
    · exact Or.inl ⟨a, ⟨ha, hrole, hlive⟩, huser⟩
    · exact Or.inr ⟨(userId, roleId), ⟨statement, ⟨call, hcall, hmem⟩, ht⟩, if_pos rfl⟩

/-! ### The invariant -/

section Invariant

variable (bound : Uuid → PermissionKey → Prop) (actors : List Uuid)

/-- The role that an actor grants gives the grantee nothing beyond the bound, except permissions
that are still to be compared with those of the actor. -/
def CallerConfined (rows : List RolePermission) (userId : Uuid) : Caller → Prop
  | .check => True
  | .assignRole command actor role => actor = userId ∧ actor ∈ actors ∧
    ∀ key, ⟨command.roleId, key⟩ ∈ rows → key ∈ role.permissions ∨ bound command.userId key

/-- What a statement may carry to a user. -/
def StatementConfined (rows : List RolePermission) : Statement → Prop
  | .getJson userId caller => CallerConfined bound actors rows userId caller
  | .select userId caller => CallerConfined bound actors rows userId caller
  | .setJson userId effective caller =>
    (∀ key ∈ effective.keys, bound userId key) ∧ CallerConfined bound actors rows userId caller
  | .findEquivalent input => ∀ key, ⟨input.roleId, key⟩ ∈ rows → bound input.userId key
  | .insert input => ∀ key, ⟨input.roleId, key⟩ ∈ rows → bound input.userId key
  | .listForUser _ _ _ => False
  | .revoke _ => True
  | .selectKeys _ => True
  | .updateRoles _ _ => True
  | .invalidate _ => True

/-- Neither the assignments nor the cache give anybody more than the bound. -/
structure StoreConfined (now : Time) (store : Store) : Prop where
  assigned : ∀ a ∈ store.tables.userRoleAssignments.rows, AuthzService.Unexpired now a →
    ∀ key, ⟨a.roleId, key⟩ ∈ store.tables.rolePermissions → bound a.userId key
  cached : ∀ userId effective, store.permissions.get now userId = some effective →
    ∀ key ∈ effective.keys, bound userId key

/-- Nor do the calls in flight. -/
structure Confined (s : State) : Prop where
  store : StoreConfined bound s.now s.store
  calls : ∀ call ∈ s.calls, ∀ statement ∈ call.statements,
    StatementConfined bound actors s.store.tables.rolePermissions statement

end Invariant

section Steps

variable {bound : Uuid → PermissionKey → Prop} {actors : List Uuid} {catalog : List PermissionKey}
  {s : State} {e : Event} {store : Store} {now : Time} {newId : Uuid}
  {rows rows' : List RolePermission} {statement : Statement}

/-- Nobody holds anything beyond the bound. -/
theorem StoreConfined.of_holds (h : StoreConfined bound now store) (hshared : Shared bound actors)
    {userId : Uuid} {key : PermissionKey}
    (hholds : store.check now userId key none none = true ∨
      HoldsKey store.tables now userId key) : bound userId key := by
  have hdatabase : HoldsKey store.tables now userId key → bound userId key := by
    intro hholds
    obtain ⟨a, ha, hcarried⟩ := AuthzService.answer_effective_none_iff.1 hholds
    obtain ⟨hrow, rfl, hlive⟩ := AuthzService.mem_assignments.1 ha
    rcases hcarried with hcarried | hcarried
    · exact h.assigned a hrow hlive key hcarried
    · exact hshared.wildcard _ key (h.assigned a hrow hlive _ hcarried)
  rcases hholds with hcheck | hholds
  · rw [Store.check, Store.resolve] at hcheck
    cases hcache : store.permissions.get now userId with
    | none =>
      rw [hcache] at hcheck
      exact hdatabase hcheck
    | some effective =>
      rw [hcache] at hcheck
      rcases AuthzService.mem_keys_of_answer hcheck with hkey | hkey
      · exact hshared.wildcard _ key (h.cached userId effective hcache _ hkey)
      · exact h.cached userId effective hcache key hkey
  · exact hdatabase hholds

/-- What a user is found to hold in the tables. -/
theorem StoreConfined.effective (h : StoreConfined bound now store) (userId : Uuid) :
    ∀ key ∈ (AuthzService.effective store.tables now userId).keys, bound userId key := by
  intro key hkey
  obtain ⟨a, ha, hcarried⟩ := AuthzService.mem_keys_effective.1 hkey
  obtain ⟨hrow, rfl, hlive⟩ := AuthzService.mem_assignments.1 ha
  exact h.assigned a hrow hlive key hcarried

/-- **The test of `assignRole`**: whoever passes it may share what the role carries. -/
theorem statementConfined_resume (hshared : Shared bound actors) {userId : Uuid} {caller : Caller}
    {effective : EffectivePermissions} {next : List Statement}
    (hcaller : CallerConfined bound actors rows userId caller)
    (heffective : ∀ key ∈ effective.keys, bound userId key)
    (hresume : caller.resume effective = .ok next) :
    ∀ x ∈ next, StatementConfined bound actors rows x := by
  cases caller with
  | check =>
    obtain rfl := Except.ok.inj hresume
    exact List.forall_mem_nil _
  | assignRole command actor role =>
    obtain ⟨hgrant, input, hinput, rfl⟩ := resume_assignRole_ok hresume
    obtain ⟨rfl, hactor, hcarried⟩ := hcaller
    have hpermissions : ∀ key ∈ role.permissions, bound command.userId key := by
      intro key hkey
      unfold AuthzAdminService.assertCanGrantRole at hgrant
      split at hgrant
      · rename_i hwildcard
        exact hshared.actors actor hactor _ key
          (hshared.wildcard actor key (heffective _ hwildcard))
      · rw [Outcome.require_eq_ok_iff, List.filter_eq_nil_iff] at hgrant
        have hheld : key ∈ effective.keys := by simpa using hgrant key hkey
        exact hshared.actors actor hactor _ key (heffective key hheld)
    simp only [AuthzAdminService.assignInput, Except.bind_eq_ok_iff, Outcome.require_eq_ok_iff,
      Except.pure_eq_ok_iff] at hinput
    obtain ⟨-, -, rfl⟩ := hinput
    intro x hx
    simp only [settle, List.mem_cons, List.not_mem_nil, or_false] at hx
    rcases hx with rfl | rfl | rfl
    · exact fun key hkey => (hcarried key hkey).elim (hpermissions key) id
    · trivial
    · trivial

/-- What follows a statement. -/
theorem statementConfined_exec (hshared : Shared bound actors) (h : StoreConfined bound now store)
    (hstatement : StatementConfined bound actors store.tables.rolePermissions statement)
    {next : List Statement} (hexec : (exec now newId store statement).2 = .ok next) :
    ∀ x ∈ next, StatementConfined bound actors store.tables.rolePermissions x := by
  cases statement with
  | getJson userId caller =>
    simp only [exec] at hexec
    cases hcache : store.permissions.get now userId with
    | some cached =>
      rw [hcache] at hexec
      exact statementConfined_resume hshared hstatement (h.cached userId cached hcache) hexec
    | none =>
      rw [hcache] at hexec
      obtain rfl := Except.ok.inj hexec
      exact List.forall_mem_singleton.2 hstatement
  | select userId caller =>
    obtain rfl := Except.ok.inj hexec
    exact List.forall_mem_singleton.2 ⟨h.effective userId, hstatement⟩
  | setJson userId effective caller =>
    exact statementConfined_resume hshared hstatement.2 hstatement.1 hexec
  | findEquivalent input =>
    simp only [exec] at hexec
    split at hexec
    · obtain rfl := Except.ok.inj hexec
      exact List.forall_mem_nil _
    · obtain rfl := Except.ok.inj hexec
      exact List.forall_mem_singleton.2 hstatement
  | insert input =>
    simp only [exec] at hexec
    split at hexec
    · obtain rfl := Except.ok.inj hexec
      exact List.forall_mem_nil _
    · cases hexec
  | listForUser userId roleKeys actor => exact hstatement.elim
  | selectKeys userId =>
    obtain rfl := Except.ok.inj hexec
    exact List.forall_mem_singleton.2 trivial
  | revoke id =>
    obtain rfl := Except.ok.inj hexec
    exact List.forall_mem_nil _
  | updateRoles userId keys =>
    obtain rfl := Except.ok.inj hexec
    exact List.forall_mem_nil _
  | invalidate userId =>
    obtain rfl := Except.ok.inj hexec
    exact List.forall_mem_nil _

/-- What a statement does to the store. -/
theorem StoreConfined.exec (h : StoreConfined bound now store)
    (hstatement : StatementConfined bound actors store.tables.rolePermissions statement) :
    StoreConfined bound now (exec now newId store statement).1 := by
  have hframe := authzFrame now newId store statement
  constructor
  · intro a ha hlive key hkey
    rw [hframe.tables] at hkey
    rcases hframe.assignments a ha with hold | hgrantee
    · exact h.assigned a hold hlive key hkey
    · cases statement with
      | insert input =>
        -- the row is the inserted one, or an older one of the same user
        simp only [Authz.exec] at ha
        split at ha
        · rename_i tables hinsert
          obtain ⟨userRoleAssignments, hrow, rfl⟩ := insert_ok hinsert
          rcases (Table.mem_insert hrow).1 ha with hold | rfl
          · exact h.assigned a hold hlive key hkey
          · exact hstatement key hkey
        · exact h.assigned a ha hlive key hkey
      | _ => cases hgrantee
  · intro userId effective hget
    rcases hframe.permissions userId effective hget with hold | hentry
    · exact h.cached userId effective hold
    · cases statement with
      | setJson userId' effective' caller =>
        obtain ⟨rfl, rfl⟩ := Prod.mk.inj (Option.some.inj hentry)
        exact hstatement.1
      | _ => cases hentry

section Edits

variable {roleId : Uuid} {keys : List PermissionKey}
  (hrows : ∀ p ∈ rows', p ∈ rows ∨ (p.roleId = roleId ∧ p.permissionKey ∈ keys))
include hrows

/-- An edit of a role, for an `assignRole` that has not been tested yet. -/
theorem callerConfined_edit {userId : Uuid} {caller : Caller}
    (h : CallerConfined bound actors rows userId caller)
    (hedit : ∀ grantee, grantOf caller = some (grantee, roleId) → ∀ key ∈ keys, bound grantee key) :
    CallerConfined bound actors rows' userId caller := by
  cases caller with
  | check => trivial
  | assignRole command actor role =>
    obtain ⟨hactor, hmem, hcarried⟩ := h
    refine ⟨hactor, hmem, fun key hkey => ?_⟩
    rcases hrows _ hkey with hold | ⟨hrole, hnew⟩
    · exact hcarried key hold
    · -- the edit adds the permission to the role that is about to be assigned
      exact Or.inr (hedit command.userId (by rw [← hrole, grantOf]) key hnew)

/-- An edit of a role that gives the grantee of a statement nothing beyond the bound. -/
theorem statementConfined_edit (h : StatementConfined bound actors rows statement)
    (hedit : ∀ grantee, target statement = some (grantee, roleId) →
      ∀ key ∈ keys, bound grantee key) :
    StatementConfined bound actors rows' statement := by
  have hinput : ∀ input : AssignRoleInput, target statement = some (input.userId, input.roleId) →
      (∀ key, ⟨input.roleId, key⟩ ∈ rows → bound input.userId key) →
      ∀ key, ⟨input.roleId, key⟩ ∈ rows' → bound input.userId key := by
    intro input htarget hcarried key hkey
    rcases hrows _ hkey with hold | ⟨hrole, hnew⟩
    · exact hcarried key hold
    · exact hedit input.userId (by rw [htarget, ← hrole]) key hnew
  cases statement with
  | getJson userId caller => exact callerConfined_edit hrows h hedit
  | select userId caller => exact callerConfined_edit hrows h hedit
  | setJson userId effective caller => exact ⟨h.1, callerConfined_edit hrows h.2 hedit⟩
  | findEquivalent input => exact hinput input rfl h
  | insert input => exact hinput input rfl h
  | listForUser userId roleKeys actor => exact h.elim
  | revoke id => trivial
  | selectKeys userId => trivial
  | updateRoles userId keys => trivial
  | invalidate userId => trivial

end Edits

/-- The calls that are left when one of them has ended. -/
theorem statements_of_mem_set {i : ℕ} {call call' : Call} (hended : call.Ended)
    (h : call' ∈ s.calls.set i call) {x : Statement} (hx : x ∈ call'.statements) :
    call' ∈ s.calls := by
  rcases List.mem_or_eq_of_mem_set h with hold | rfl
  · exact hold
  · rw [hended.statements_eq] at hx
    cases hx

/-- A transaction on roles and assignments. -/
theorem Confined.commit (h : Confined bound actors s) {i : ℕ} {tables : Tables} (roleId : Uuid)
    (keys : List PermissionKey)
    (hrows : ∀ p ∈ tables.rolePermissions, p ∈ s.store.tables.rolePermissions ∨
      (p.roleId = roleId ∧ p.permissionKey ∈ keys))
    (hassignments : ∀ a ∈ tables.userRoleAssignments.rows,
      a ∈ s.store.tables.userRoleAssignments.rows)
    (hedit : ∀ key ∈ keys, ∀ userId ∈ holders s roleId, bound userId key) :
    Confined bound actors (s.commit i tables) := by
  refine ⟨⟨fun a ha hlive key hkey => ?_, h.store.cached⟩, fun call hcall x hx => ?_⟩
  · rcases hrows _ hkey with hold | ⟨hrole, hnew⟩
    · exact h.store.assigned a (hassignments a ha) hlive key hold
    · exact hedit key hnew a.userId (mem_holders.2 (Or.inl ⟨a, hassignments a ha, hrole, hlive, rfl⟩))
  · have hold := statements_of_mem_set (Or.inl rfl) hcall hx
    refine statementConfined_edit hrows (h.calls call hold x hx) fun grantee htarget key hkey => ?_
    exact hedit key hkey grantee (mem_holders.2 (Or.inr ⟨call, hold, x, hx, htarget⟩))

/-- The beginning of a call. -/
theorem statementConfined_begin {operation : Operation} {call : Call} {tables : Tables}
    (hbegin : operation.begin catalog tables = .ok call)
    (hperformed : ∀ actor ∈ operation.actor, actor ∈ actors)
    (hinteractive : syncs (.begin operation) = false) :
    ∀ x ∈ call.statements, StatementConfined bound actors tables.rolePermissions x := by
  have hbegins := begins_of_begin hbegin
  generalize call.statements = statements at hbegins
  cases hbegins with
  | check userId => exact List.forall_mem_singleton.2 trivial
  | @assignRole command actor role hrole =>
    refine List.forall_mem_singleton.2 ⟨rfl, hperformed actor rfl, fun key hkey => Or.inl ?_⟩
    obtain ⟨row, hrow, rfl⟩ := Option.map_eq_some_iff.1 hrole
    have hid : row.id = command.roleId := by simpa using List.find?_some hrow
    refine List.mem_map.2 ⟨⟨command.roleId, key⟩, List.mem_filter.2 ⟨hkey, ?_⟩, rfl⟩
    exact decide_eq_true hid.symm
  | revokeAssignment hfind =>
    intro x hx
    simp only [settle, List.mem_cons, List.not_mem_nil, or_false] at hx
    rcases hx with rfl | rfl | rfl <;> trivial
  | syncUserRolesByKeys userId roleKeys actor => cases hinteractive
  | role => exact List.forall_mem_nil _

/-- **The step lemma.** -/
theorem confined_step (hshared : Shared bound actors) (h : Confined bound actors s)
    (hok : KeepsBound bound actors s e) : Confined bound actors (step catalog s e) := by
  have hstep := step_cases catalog s e
  generalize step catalog s e = s' at hstep
  cases hstep with
  | refused hbegin => exact h
  | absent hcall => exact h
  | begin hbegin =>
    refine ⟨h.store, fun call hcall => ?_⟩
    rcases List.mem_append.1 hcall with hold | hnew
    · exact h.calls call hold
    · obtain rfl := List.mem_singleton.1 hnew
      exact statementConfined_begin hbegin hok.performed hok.interactive
  | @statement i newId statement rest hcall =>
    have hmem := List.mem_of_getElem? hcall
    have hstatement := h.calls _ hmem statement List.mem_cons_self
    have hframe := authzFrame s.now newId s.store statement
    refine ⟨h.store.exec hstatement, fun call hcall' x hx => ?_⟩
    show StatementConfined bound actors
      (Authz.exec s.now newId s.store statement).1.tables.rolePermissions x
    rw [hframe.tables]
    rcases List.mem_or_eq_of_mem_set hcall' with hold | rfl
    · exact h.calls call hold x hx
    · -- the statement leads to new ones, or the others of the call are left
      rcases mem_advance hx with ⟨next, hexec, hx⟩ | hx
      · exact statementConfined_exec hshared h.store hstatement hexec x hx
      · exact h.calls _ hmem x (List.mem_cons_of_mem _ hx)
  | @createRole i newId input tables hcall hcreate =>
    have hwrites := writes_create hcreate
    refine h.commit newId input.permissions hwrites.rolePermissions (fun a ha => ?_)
      fun key hkey userId hholder => ?_
    · rw [hwrites.userRoleAssignments] at ha
      exact ha
    · refine hok.edits (newId, input.permissions) ?_ key hkey userId hholder
      rw [edit, hcall]
      rfl
  | @setRolePermissions i newId roleId keys tables hcall hset =>
    have hwrites := writes_setPermissions hset
    refine h.commit roleId keys hwrites.rolePermissions (fun a ha => ?_)
      fun key hkey userId hholder => ?_
    · rw [hwrites.userRoleAssignments] at ha
      exact ha
    · refine hok.edits (roleId, keys) ?_ key hkey userId hholder
      rw [edit, hcall]
      rfl
  | @deleteRole i newId roleId hcall =>
    exact h.commit roleId [] (fun p hp => Or.inl (List.mem_filter.1 hp).1)
      (fun a ha => (Table.mem_deleteWhere.1 ha).1) (List.forall_mem_nil _)
  | finish hcall hquiet hended =>
    refine ⟨h.store, fun call hcall x hx => ?_⟩
    exact h.calls call (statements_of_mem_set hended hcall hx) x hx
  | tick duration =>
    -- assignments and entries only run out
    refine ⟨⟨fun a ha hlive => h.store.assigned a ha fun expiresAt hexpiry => ?_,
      fun userId effective hget => h.store.cached userId effective ?_⟩, h.calls⟩
    · exact Nat.lt_of_le_of_lt (Nat.le_add_right _ _) (hlive expiresAt hexpiry)
    · exact TtlCache.get_of_le (Nat.le_add_right _ _) hget

end Steps

/-- **Nobody ever holds more** than they, or one of the acting users, held in the beginning, in
every run whose edits of roles keep this bound: neither in the tables nor in the cache. -/
theorem run_confined (catalog : List PermissionKey) (tables : Tables) (now : Time)
    (actors : List Uuid) (es : List Event)
    (hok : Runs.Meets (step catalog) (KeepsBound (Bound tables now actors) actors)
      (State.initial tables now) es) (userId : Uuid) (key : PermissionKey)
    (hholds : (Runs.run (step catalog) (State.initial tables now) es).store.check
        (Runs.run (step catalog) (State.initial tables now) es).now userId key none none = true ∨
      HoldsKey (Runs.run (step catalog) (State.initial tables now) es).store.tables
        (Runs.run (step catalog) (State.initial tables now) es).now userId key) :
    Bound tables now actors userId key := by
  have hshared := shared_bound tables now actors
  have hinitial : Confined (Bound tables now actors) actors (State.initial tables now) := by
    refine ⟨⟨fun a ha hlive key hkey => Or.inl ?_, fun userId effective hget => ?_⟩,
      List.forall_mem_nil _⟩
    · exact AuthzService.answer_effective_none_iff.2
        ⟨a, AuthzService.mem_assignments.2 ⟨ha, rfl, hlive⟩, Or.inl hkey⟩
    · rw [State.initial, TtlCache.get_empty] at hget
      cases hget
  have hrun := Runs.run_induction (fun s e h hok => confined_step hshared h hok) hinitial hok
  exact hrun.store.of_holds hshared hholds

/-! ### Edits that nobody tests -/

namespace Sample

/-- The permissions there are. -/
def catalog : List PermissionKey :=
  ["*", "asset.read", "audit.read", "rbac.manage", "role.assign"]

/-- Employee 1 manages roles; nobody holds the role of the auditor. -/
def tables : Tables :=
  { Tables.empty with
    roles := [⟨5, "manager", "Manager", false, 0⟩, ⟨6, "auditor", "Auditor", false, 0⟩]
    rolePermissions := [⟨5, "asset.read"⟩, ⟨5, "rbac.manage"⟩, ⟨5, "role.assign"⟩,
      ⟨6, "audit.read"⟩]
    userRoleAssignments := ⟨[⟨7, 1, 5, .global, none, 9, none⟩], by decide⟩ }

/-- The state after the events. -/
def after (es : List Event) : State := Runs.run (step catalog) (State.initial tables 0) es

/-- Employee 1 adds a permission to the role that they hold. -/
def edited : List Event :=
  [.begin (.setRolePermissions 5 ["rbac.manage", "role.assign", "audit.read"] 1), .advance 0 0]

/-- Employee 1 creates a role, assigns it to employee 2 and adds a permission to it. -/
def orderly : List Event :=
  [.begin (.createRole ⟨"reader", "Reader", ["asset.read"]⟩ 1), .advance 0 8,
    .begin (.assignRole { userId := 2, roleId := 8 } 1), .advance 1 0, .advance 1 0, .advance 1 0,
    .advance 1 0, .advance 1 10, .advance 1 0, .advance 1 0, .advance 1 0,
    .begin (.setRolePermissions 8 ["asset.read", "role.assign"] 1), .advance 2 0]

end Sample

open Sample in
/-- The bound in a run in which a role is created, assigned and edited. -/
theorem run_confined_orderly :
    HoldsKey (after orderly).store.tables (after orderly).now 2 "role.assign" ∧
      Bound tables 0 [1] 2 "role.assign" := by
  have hholds : HoldsKey (after orderly).store.tables (after orderly).now 2 "role.assign" := by
    decide +kernel
  refine ⟨hholds, run_confined catalog tables 0 [1] orderly ?_ 2 "role.assign" (Or.inr hholds)⟩
  decide +kernel

open Sample in
/-- Whoever manages roles can give themselves a permission that none of the acting users held. -/
theorem not_confined : ¬ HoldsKey tables 0 1 wildcardPermission ∧
    ¬ (∀ es : List Event, (∀ e ∈ es, syncs e = false ∧ ∀ actor ∈ actorOf e, actor ∈ [1]) →
      ∀ userId key, HoldsKey (after es).store.tables (after es).now userId key →
        Bound tables 0 [1] userId key) := by
  refine ⟨by decide +kernel, fun h => ?_⟩
  have hbound := h edited (by decide) 1 "audit.read" (by decide +kernel)
  revert hbound
  decide +kernel

end Escalation

end OpsHub
