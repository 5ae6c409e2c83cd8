import OpsHub.Access.WholeCalls
import OpsHub.Domain.TypeDefs

/-!
# Role claims

`employees.roles`, from which the claims of an access token are made, is a copy of what the
assignments of roles say.  `syncEmployeeRoleClaims` refreshes it at the end of each call that
changes assignments; the deletion of a role and an approved offboarding take assignments away
without it.

* `sortedKeys`: the keys of the roles of some assignments, in order and without repetition;
* `State`, `step`: whole calls, deletions of roles and offboardings, one after another, with the
  instant when the assignments of each user were last changed;
* `exists_sequential`: every call can take part;
* `Mirrors`: the claims are the keys of the assignments that were unexpired at that instant;
* `Orderly`: the condition on a step;
* `always_mirrors_iff`: the claims mirror the assignments throughout exactly the orderly runs;
* `not_mirrors`: the runs in which they do not.
-/

namespace OpsHub

namespace AuthzAdminService

/-- `deleteRole`. -/
def deleteRole (tables : Tables) (roleId : Uuid) : Except Failure Tables := do
  let role ← getRole tables roleId
  Outcome.require (role.system = false) (.validation "ROLE_IMMUTABLE"
    ("System role '" ++ role.key ++ "' cannot be deleted"))
  pure (RoleDrizzleRepository.delete roleId tables)

/-- It begins as a call among others does. -/
theorem deleteRole_eq (catalog : List PermissionKey) (tables : Tables) (roleId actor : Uuid) :
    deleteRole tables roleId =
      ((Administration.Operation.deleteRole roleId actor).begin catalog tables).map
        fun _ => RoleDrizzleRepository.delete roleId tables := by
  cases hrole : getRole tables roleId with
  | error failure =>
    simp only [deleteRole, Administration.Operation.begin, hrole]
    rfl
  | ok role =>
    cases hsystem : role.system with
    | false =>
      simp only [deleteRole, Administration.Operation.begin, hrole]
      simp [bind, Except.bind, Except.map, Outcome.require, hsystem, pure, Except.pure]
    | true =>
      simp only [deleteRole, Administration.Operation.begin, hrole]
      simp [bind, Except.bind, Except.map, Outcome.require, hsystem]

end AuthzAdminService

namespace RoleClaims

open Authz AuthzService Runs

/-! ### The keys of roles -/

/-- The key of a role. -/
def roleKey (tables : Tables) (roleId : Uuid) : Option String :=
  (tables.roles.find? (fun role => decide (role.id = roleId))).map Role.key

/-- The keys of the roles of some assignments, in order and without repetition. -/
def sortedKeys (tables : Tables) (as : List UserRoleAssignment) : List String :=
  ((as.filterMap fun a => roleKey tables a.roleId).eraseDups).insertionSort (· ≤ ·)

/-- This is what `syncEmployeeRoleClaims` reads. -/
theorem roleKeys_eq (tables : Tables) (now : Time) (userId : Uuid) :
    RoleAssignmentDrizzleRepository.roleKeys tables now userId =
      sortedKeys tables (assignments tables now userId) := rfl

theorem nodup_eraseDups {α : Type} [BEq α] [LawfulBEq α] (keys : List α) :
    keys.eraseDups.Nodup := by
  induction hlength : keys.length using Nat.strong_induction_on generalizing keys with
  | _ n ih =>
    cases keys with
    | nil => exact List.nodup_nil
    | cons key rest =>
      rw [List.eraseDups_cons, List.nodup_cons]
      refine ⟨fun hkey => ?_, ih _ ?_ _ rfl⟩
      · have hrest := (List.mem_filter.1 (List.mem_eraseDups.1 hkey)).2
        simp at hrest
      · rw [← hlength, List.length_cons]
        exact Nat.lt_succ_of_le (List.length_filter_le _ _)

/-- **The list is sorted, without repetition, and of the keys of these assignments.** -/
theorem sortedKeys_spec (tables : Tables) (as : List UserRoleAssignment) :
    (sortedKeys tables as).Pairwise (· ≤ ·) ∧ (sortedKeys tables as).Nodup ∧
      ∀ key, key ∈ sortedKeys tables as ↔ ∃ a ∈ as, roleKey tables a.roleId = some key := by
  refine ⟨List.pairwise_insertionSort _ _, ?_, fun key => ?_⟩
  · exact (List.perm_insertionSort _ _).nodup_iff.2 (nodup_eraseDups _)
  · rw [sortedKeys, List.mem_insertionSort, List.mem_eraseDups, List.mem_filterMap]

theorem sortedKeys_congr {tables tables' : Tables} {as : List UserRoleAssignment}
    (h : ∀ a ∈ as, roleKey tables' a.roleId = roleKey tables a.roleId) :
    sortedKeys tables' as = sortedKeys tables as := by
  rw [sortedKeys, sortedKeys, List.filterMap_congr h]

/-- All assignments of a user. -/
def assignmentsOf (tables : Tables) (userId : Uuid) : List UserRoleAssignment :=
  tables.userRoleAssignments.rows.filter (fun a => decide (a.userId = userId))

/-- The claims of an employee. -/
def claimsOf (tables : Tables) (userId : Uuid) : Option (List String) :=
  (tables.employees.find userId).map Employee.roles

theorem mem_assignmentsOf {tables : Tables} {userId : Uuid} {a : UserRoleAssignment} :
    a ∈ assignmentsOf tables userId ↔ a ∈ tables.userRoleAssignments.rows ∧ a.userId = userId := by
  rw [assignmentsOf, List.mem_filter, decide_eq_true_eq]

theorem assignments_eq (tables : Tables) (t : Time) (userId : Uuid) :
    assignments tables t userId =
      (assignmentsOf tables userId).filter (fun a => decide (Unexpired t a)) := by
  rw [assignments, assignmentsOf, List.filter_filter]
  refine List.filter_congr fun a _ => ?_
  simp [Bool.and_comm]

/-! ### The machine -/

/-- The calls that change assignments one by one. -/
inductive Call
  | assignRole (command : AssignRoleCommand) (actor : Uuid)
  | revokeAssignment (id : Uuid)
  | syncUserRolesByKeys (userId : Uuid) (roleKeys : List String) (actor : Uuid)
  deriving DecidableEq, Repr

/-- The statements with which a call begins; none if it throws at once. -/
def Call.statements (tables : Tables) : Call → List Statement
  | .assignRole command actor =>
    (AuthzAdminService.assignRole tables command actor).toOption.getD []
  | .revokeAssignment id => (AuthzAdminService.revokeAssignment tables id).toOption.getD []
  | .syncUserRolesByKeys userId roleKeys actor =>
    AuthzAdminService.syncUserRolesByKeys userId roleKeys actor

/-- The tables and the cache, the clock, and when the assignments of a user were last changed. -/
structure State where
  store : Store
  now : Time
  changed : Uuid → Option Time

/-- The tables. -/
def State.tables (s : State) : Tables := s.store.tables

/-- Nothing has been changed yet, and the cache is empty. -/
def State.initial (tables : Tables) (now : Time) : State where
  store := ⟨tables, TtlCache.empty⟩
  now := now
  changed := fun _ => none

/-- The state with another store; the assignments of `counted` count as changed in any case. -/
def State.after (s : State) (store : Store) (counted : Option Uuid) : State where
  store := store
  now := s.now
  changed := fun userId =>
    if assignmentsOf store.tables userId = assignmentsOf s.tables userId ∧ counted ≠ some userId then
      s.changed userId
    else some s.now

/-- What can happen; `newIds` are the ids that a call draws. -/
inductive Event
  | call (call : Call) (newIds : List Uuid)
  | deleteRole (roleId : Uuid)
  | onApprove (payload : OffboardingPayload)
  | tick (duration : ℕ)
  deriving DecidableEq, Repr

/-- The user whose claims an event refreshes while it leaves the assignments alone. -/
def State.refreshes (s : State) : Event → Option Uuid
  | .call (.assignRole command actor) _ => do
    let role ← RoleDrizzleRepository.findById s.tables command.roleId
    let _ ← (AuthzAdminService.assertCanGrantRole (s.store.resolve s.now actor) role).toOption
    let input ← (AuthzAdminService.assignInput command actor).toOption
    let _ ← RoleAssignmentDrizzleRepository.findEquivalent s.tables input
    pure command.userId
  | .call (.syncUserRolesByKeys userId roleKeys actor) _ =>
    if reconcile s.tables userId roleKeys actor = settle userId then some userId else none
  | _ => none

/-- The state after one event.  `counts` says whether a call that finds the assignments as they
should be, and refreshes the claims only, counts as a change of the assignments. -/
def step (counts : Bool) (s : State) : Event → State
  | .call call newIds =>
    s.after (drive s.now newIds s.store (call.statements s.tables)).1
      (if counts then s.refreshes (.call call newIds) else none)
  | .deleteRole roleId =>
    s.after { s.store with
      tables := Outcome.commit s.tables (AuthzAdminService.deleteRole s.tables roleId) } none
  | .onApprove payload =>
    s.after { s.store with
      tables := OffboardingTypeDef.offboard payload.employeeId s.now s.tables } none
  | .tick duration => { s with now := s.now + duration }

/-- Calls are run to their end, and draw unused ids. -/
def Sequential (s : State) : Event → Prop
  | .call call newIds => Whole s.now newIds s.store (call.statements s.tables)
  | _ => True

instance (s : State) : ∀ e, Decidable (Sequential s e)
  | .call call newIds =>
    inferInstanceAs (Decidable (Whole s.now newIds s.store (call.statements s.tables)))
  | .deleteRole _ => isTrue trivial
  | .onApprove _ => isTrue trivial
  | .tick _ => isTrue trivial

/-- Every call can be run to its end. -/
theorem exists_sequential (s : State) (call : Call) :
    ∃ newIds, Sequential s (.call call newIds) := by
  have hfinish : CanFinish s.now (call.statements s.tables) := by
    cases call with
    | assignRole command actor =>
      simp only [Call.statements, AuthzAdminService.assignRole]
      cases RoleDrizzleRepository.findById s.tables command.roleId with
      | none => exact canFinish_nil
      | some role => exact canFinish_getJson actor _
    | revokeAssignment id =>
      simp only [Call.statements, AuthzAdminService.revokeAssignment]
      cases s.tables.userRoleAssignments.find id with
      | none => exact canFinish_nil
      | some a => exact canFinish_short_cons trivial (canFinish_short (short_settle a.userId))
    | syncUserRolesByKeys userId roleKeys actor => exact canFinish_listForUser userId roleKeys actor
  exact hfinish s.store

/-! ### The guarantee -/

/-- The claims are the keys of the assignments that were unexpired at `t`. -/
def Mirrored (tables : Tables) (t : Time) (userId : Uuid) : Prop :=
  ∀ claims ∈ claimsOf tables userId, claims = sortedKeys tables (assignments tables t userId)

instance (tables : Tables) (t : Time) (userId : Uuid) : Decidable (Mirrored tables t userId) :=
  inferInstanceAs (Decidable (∀ claims ∈ claimsOf tables userId, _))

/-- The claims of all users whose assignments have been changed mirror them. -/
def Mirrors (s : State) : Prop := ∀ userId, ∀ t ∈ s.changed userId, Mirrored s.tables t userId

/-! ### The condition -/

/-- The assignments that an event takes away without `syncEmployeeRoleClaims`. -/
def State.takes (s : State) : Event → UserRoleAssignment → Bool
  | .deleteRole roleId, a =>
    (AuthzAdminService.deleteRole s.tables roleId).isOk && decide (a.roleId = roleId)
  | .onApprove payload, a => decide (a.userId = payload.employeeId)
  | _, _ => false

/-- The condition on a step. -/
structure Orderly (counts : Bool) (s : State) (e : Event) : Prop where
  /-- Who loses an assignment by a deletion has no claims but those from the others. -/
  takes : ∀ a ∈ s.tables.userRoleAssignments.rows, s.takes e a = true →
    ∀ claims ∈ claimsOf s.tables a.userId, claims = sortedKeys s.tables
      ((assignments s.tables s.now a.userId).filter (fun a' => !s.takes e a'))
  /-- Whose claims are refreshed without a change has lost no role by its expiry. -/
  refreshes : counts = false → ∀ userId ∈ s.refreshes e, ∀ t ∈ s.changed userId, claimsOf s.tables userId ≠ none →
    sortedKeys s.tables (assignments s.tables s.now userId) =
      sortedKeys s.tables (assignments s.tables t userId)

instance (counts : Bool) (s : State) (e : Event) : Decidable (Orderly counts s e) :=
  decidable_of_iff
    ((∀ a ∈ s.tables.userRoleAssignments.rows, s.takes e a = true →
        ∀ claims ∈ claimsOf s.tables a.userId, claims = sortedKeys s.tables
          ((assignments s.tables s.now a.userId).filter (fun a' => !s.takes e a'))) ∧
      (counts = false → ∀ userId ∈ s.refreshes e, ∀ t ∈ s.changed userId,
        claimsOf s.tables userId ≠ none →
          sortedKeys s.tables (assignments s.tables s.now userId) =
            sortedKeys s.tables (assignments s.tables t userId)))
    ⟨fun h => ⟨h.1, h.2⟩, fun h => ⟨h.takes, h.refreshes⟩⟩

/-! ### What a call does -/

/-- The user's assignments are others perhaps, and their claims are as of now. -/
structure Syncs (now : Time) (userId : Uuid) (tables tables' : Tables) : Prop where
  roles : tables'.roles = tables.roles
  others : ∀ v, v ≠ userId → assignmentsOf tables' v = assignmentsOf tables v
  claims : ∀ v, claimsOf tables' v = if v = userId then
    (claimsOf tables v).map fun _ => sortedKeys tables' (assignments tables' now v)
    else claimsOf tables v

section Calls

variable {now : Time} {store store' : Store} {userId : Uuid}

theorem claimsOf_storeRoleKeys (tables : Tables) (keys : List String) (v : Uuid) :
    claimsOf (RoleAssignmentDrizzleRepository.storeRoleKeys userId keys now tables) v =
      if v = userId then (claimsOf tables v).map fun _ => keys else claimsOf tables v := by
  simp only [claimsOf, RoleAssignmentDrizzleRepository.storeRoleKeys]
  by_cases hv : v = userId
  · subst hv
    rw [if_pos rfl, Table.find_update_self, Option.map_map, Option.map_map]
    rfl
  · rw [if_neg hv, Table.find_update_ne _ hv]

/-- The end of a call, after the assignments have been changed. -/
theorem syncs_of_settle {tables : Tables} {userRoleAssignments : Table UserRoleAssignment.id}
    (h : Finishes now { store with
      tables := { tables with userRoleAssignments := userRoleAssignments } } (settle userId) store')
    (hothers : ∀ v, v ≠ userId → userRoleAssignments.rows.filter (fun a => decide (a.userId = v)) =
      assignmentsOf tables v) :
    Syncs now userId tables store'.tables ∧
      assignmentsOf store'.tables userId =
        userRoleAssignments.rows.filter (fun a => decide (a.userId = userId)) := by
  rw [h.of_settle]
  refine ⟨⟨rfl, hothers, fun v => ?_⟩, rfl⟩
  rw [claimsOf_storeRoleKeys]
  by_cases hv : v = userId
  · subst hv
    rfl
  · rw [if_neg hv, if_neg hv]
    rfl

/-- What a call has done: nothing, or it has refreshed the claims of a user, whose assignments
have stayed as they were or not. -/
inductive Outcome (now : Time) (tables tables' : Tables) : Option Uuid → Prop
  | nothing (h : tables' = tables) : Outcome now tables tables' none
  | refreshed {userId : Uuid} (h : Syncs now userId tables tables')
      (hsame : assignmentsOf tables' userId = assignmentsOf tables userId) :
      Outcome now tables tables' (some userId)
  | changed {userId : Uuid} (h : Syncs now userId tables tables')
      (hnew : assignmentsOf tables' userId ≠ assignmentsOf tables userId) :
      Outcome now tables tables' none

/-- Rows of one user do not count for another. -/
theorem filter_append_of_user {rows news : List UserRoleAssignment} {v : Uuid}
    (hnews : ∀ a ∈ news, a.userId = userId) (hv : v ≠ userId) :
    (rows ++ news).filter (fun a => decide (a.userId = v)) =
      rows.filter (fun a => decide (a.userId = v)) := by
  have hnone : news.filter (fun a => decide (a.userId = v)) = [] := by
    refine List.filter_eq_nil_iff.2 fun a ha => ?_
    rw [hnews a ha, decide_eq_true_eq]
    exact hv.symm
  rw [List.filter_append, hnone, List.append_nil]

theorem assignInput_user {command : AssignRoleCommand} {actor : Uuid} {input : AssignRoleInput}
    (h : AuthzAdminService.assignInput command actor = .ok input) :
    input.userId = command.userId ∧ input.roleId = command.roleId := by
  simp only [AuthzAdminService.assignInput, Except.bind_eq_ok_iff, Outcome.require_eq_ok_iff,
    Except.pure_eq_ok_iff] at h
  obtain ⟨-, -, rfl⟩ := h
  exact ⟨rfl, rfl⟩

/-- `assignRole`. -/
theorem outcome_assignRole {s : State} {command : AssignRoleCommand} {actor : Uuid}
    (newIds : List Uuid)
    (h : Finishes s.now s.store ((Call.assignRole command actor).statements s.tables) store') :
    Outcome s.now s.tables store'.tables
      (s.refreshes (.call (.assignRole command actor) newIds)) := by
  cases hrole : RoleDrizzleRepository.findById s.tables command.roleId with
  | none =>
    have hnone : s.refreshes (.call (.assignRole command actor) newIds) = none := by
      simp [State.refreshes, hrole]
    rw [hnone]
    simp only [Call.statements, AuthzAdminService.assignRole, hrole] at h
    cases h with
    | nil => exact .nothing rfl
  | some role =>
    have hexists : ∃ r ∈ s.tables.roles, r.id = command.roleId := by
      obtain ⟨r, hr, -⟩ := Option.map_eq_some_iff.1 hrole
      exact ⟨r, List.mem_of_find?_eq_some hr, by simpa using List.find?_some hr⟩
    simp only [Call.statements, AuthzAdminService.assignRole, hrole] at h
    rcases Finishes.of_resolve h with
      ⟨store₁, next, htables, hresume, hrest⟩ | ⟨⟨failure, hresume⟩, htables⟩
    · obtain ⟨hguard, input, hinput, rfl⟩ := resume_assignRole_ok hresume
      obtain ⟨huser, hinputRole⟩ := assignInput_user hinput
      have hrefreshes : s.refreshes (.call (.assignRole command actor) newIds) =
          (RoleAssignmentDrizzleRepository.findEquivalent s.tables input).map
            fun _ => command.userId := by
        simp only [State.refreshes, hrole, Option.bind_eq_bind, Option.bind_some, hguard, hinput,
          Except.toOption]
        cases RoleAssignmentDrizzleRepository.findEquivalent s.tables input <;> rfl
      rw [← hinputRole, State.tables, ← htables] at hexists
      rw [hrefreshes, State.tables, ← htables]
      rcases hrest.of_grant hexists with ⟨hfound, hsettle⟩ | ⟨newId, added, -, hnone, hadded, hsettle⟩
      · -- the assignment is there already
        obtain ⟨a, ha⟩ := Option.ne_none_iff_exists'.1 hfound
        obtain ⟨hsyncs, hsame⟩ := @syncs_of_settle _ store₁ _ _ store₁.tables
          store₁.tables.userRoleAssignments hsettle (fun _ _ => rfl)
        rw [ha]
        exact .refreshed hsyncs hsame
      · obtain ⟨hsyncs, hnew⟩ := syncs_of_settle hsettle fun v hv => by
          rw [hadded]
          refine filter_append_of_user (fun b hb => ?_) hv
          rw [List.mem_singleton.1 hb]
          exact huser
        rw [hnone]
        refine .changed hsyncs ?_
        rw [hnew, hadded, List.filter_append, assignmentsOf]
        simp [RoleAssignmentDrizzleRepository.row, huser]
    · have hrefreshes : s.refreshes (.call (.assignRole command actor) newIds) = none := by
        simp only [Caller.resume] at hresume
        simp only [State.refreshes, hrole, Option.bind_eq_bind, Option.bind_some]
        cases hguard : AuthzAdminService.assertCanGrantRole (s.store.resolve s.now actor) role with
        | error _ => rfl
        | ok _ =>
          cases hinput : AuthzAdminService.assignInput command actor with
          | error _ => rfl
          | ok input =>
            simp only [hguard, hinput] at hresume
            cases hresume
      rw [hrefreshes]
      exact .nothing htables

/-- Taking rows of one user away does not count for another. -/
theorem filter_deleteWhere_of_user {table : Table UserRoleAssignment.id}
    {p : UserRoleAssignment → Bool} {v : Uuid}
    (hp : ∀ a ∈ table.rows, p a = true → a.userId = userId) (hv : v ≠ userId) :
    (table.deleteWhere p).rows.filter (fun a => decide (a.userId = v)) =
      table.rows.filter (fun a => decide (a.userId = v)) := by
  rw [Table.deleteWhere, List.filter_filter]
  refine List.filter_congr fun a ha => ?_
  by_cases hav : a.userId = v
  · have hkept : p a = false := by
      refine Bool.eq_false_iff.2 fun htaken => hv ?_
      rw [← hav, hp a ha htaken]
    simp [hav, hkept]
  · simp [hav]

/-- `revokeAssignment`. -/
theorem outcome_revokeAssignment {s : State} {id : Uuid} (newIds : List Uuid)
    (h : Finishes s.now s.store ((Call.revokeAssignment id).statements s.tables) store') :
    Outcome s.now s.tables store'.tables (s.refreshes (.call (.revokeAssignment id) newIds)) := by
  cases hfind : s.tables.userRoleAssignments.find id with
  | none =>
    simp only [Call.statements, AuthzAdminService.revokeAssignment, hfind] at h
    cases h with
    | nil => exact .nothing rfl
  | some a =>
    obtain ⟨ha, hid⟩ := Table.find_eq_some_iff.1 hfind
    simp only [Call.statements, AuthzAdminService.revokeAssignment, hfind] at h
    have hsettle := Finishes.of_revoke h
    have howner : ∀ b ∈ s.tables.userRoleAssignments.rows, decide (b.id = id) = true →
        b.userId = a.userId := by
      intro b hb hbid
      rw [s.tables.userRoleAssignments.eq_of_key_eq hb ha ((of_decide_eq_true hbid).trans hid.symm)]
    obtain ⟨hsyncs, hnew⟩ := syncs_of_settle hsettle fun v hv =>
      filter_deleteWhere_of_user howner hv
    refine .changed hsyncs fun hsame => ?_
    have hold : a ∈ assignmentsOf s.tables a.userId := mem_assignmentsOf.2 ⟨ha, rfl⟩
    rw [← hsame, hnew] at hold
    have hgone := (Table.mem_deleteWhere.1 (List.mem_filter.1 hold).1).2
    simp [hid] at hgone

/-- What `syncUserRolesByKeys` is to do: grants of global roles that the user does not hold, and
revocations of assignments of the user. -/
theorem reconcile_spec (tables : Tables) (userId : Uuid) (roleKeys : List String) (actor : Uuid) :
    ∃ (inputs : List AssignRoleInput) (ids : List Uuid),
      reconcile tables userId roleKeys actor =
        inputs.map .findEquivalent ++ (ids.map .revoke ++ settle userId) ∧
      (∀ input ∈ inputs, input.userId = userId ∧ (∃ role ∈ tables.roles, role.id = input.roleId) ∧
        ∀ a ∈ tables.userRoleAssignments.rows, RoleAssignmentDrizzleRepository.grantIndex a ≠
          some (input.userId, input.roleId, input.scopeType, input.scopeId)) ∧
      ∀ id ∈ ids, ∃ a ∈ tables.userRoleAssignments.rows, a.id = id ∧ a.userId = userId := by
  let desired := desiredRoleIds tables roleKeys
  let currentGlobal := (RoleAssignmentDrizzleRepository.listForUser tables userId).filter
    (fun a => decide (a.scopeType = .global))
  refine ⟨(desired.filter fun roleId =>
      decide (roleId ∉ currentGlobal.map UserRoleAssignment.roleId)).map
        fun roleId => ⟨userId, roleId, .global, none, actor, none⟩,
    (currentGlobal.filter fun a => decide (a.roleId ∉ desired)).map UserRoleAssignment.id,
    ?_, fun input hinput => ?_, fun id hid => ?_⟩
  · rw [List.map_map, List.map_map, ← List.append_assoc]
    rfl
  · obtain ⟨roleId, hmissing, rfl⟩ := List.mem_map.1 hinput
    obtain ⟨hdesired, habsent⟩ := List.mem_filter.1 hmissing
    simp only [desired, desiredRoleIds, List.mem_eraseDups, List.mem_filterMap] at hdesired
    obtain ⟨key, -, hkey⟩ := hdesired
    obtain ⟨role, hrole, rfl⟩ := Option.map_eq_some_iff.1 hkey
    refine ⟨rfl, ⟨role, List.mem_of_find?_eq_some hrole, rfl⟩, fun a ha hindex => ?_⟩
    simp only [RoleAssignmentDrizzleRepository.grantIndex, Option.some.injEq, Prod.mk.injEq] at hindex
    obtain ⟨huser, hroleId, hscope, -⟩ := hindex
    refine of_decide_eq_true habsent (List.mem_map.2 ⟨a, ?_, hroleId⟩)
    refine List.mem_filter.2 ⟨?_, decide_eq_true hscope⟩
    exact List.mem_reverse.2 (List.mem_filter.2 ⟨ha, decide_eq_true huser⟩)
  · obtain ⟨a, hextra, rfl⟩ := List.mem_map.1 hid
    have hlisted := (List.mem_filter.1 (List.mem_filter.1 hextra).1).1
    obtain ⟨ha, huser⟩ := List.mem_filter.1 (List.mem_reverse.1 hlisted)
    exact ⟨a, ha, rfl, of_decide_eq_true huser⟩

/-- It only refreshes the claims if it has nothing to grant and nothing to revoke. -/
theorem refreshes_syncUserRolesByKeys {s : State} {roleKeys : List String} {actor : Uuid}
    {inputs : List AssignRoleInput} {ids : List Uuid} (newIds : List Uuid)
    (hreconcile : reconcile s.tables userId roleKeys actor =
      inputs.map .findEquivalent ++ (ids.map .revoke ++ settle userId)) :
    s.refreshes (.call (.syncUserRolesByKeys userId roleKeys actor) newIds) =
      if inputs = [] ∧ ids = [] then some userId else none := by
  simp only [State.refreshes, hreconcile]
  refine if_congr ?_ rfl rfl
  constructor
  · intro hsame
    have hlength := congrArg List.length hsame
    simp only [List.length_append, List.length_map] at hlength
    exact ⟨List.length_eq_zero_iff.1 (by omega), List.length_eq_zero_iff.1 (by omega)⟩
  · rintro ⟨rfl, rfl⟩
    rfl

/-- After an assignment has been granted or revoked, the assignments of the user are others. -/
theorem filter_deleteWhere_append_ne {table : Table UserRoleAssignment.id}
    {old news : List UserRoleAssignment} {ids : List Uuid} (hrows : table.rows = old ++ news)
    (hids : ∀ id ∈ ids, ∃ a ∈ old, a.id = id ∧ a.userId = userId)
    (hnews : ∀ a ∈ news, a.id ∉ ids ∧ a.userId = userId)
    (hsome : ids ≠ [] ∨ ∃ a ∈ news, a ∉ old) :
    (table.deleteWhere fun a => decide (a.id ∈ ids)).rows.filter
      (fun a => decide (a.userId = userId)) ≠ old.filter (fun a => decide (a.userId = userId)) := by
  intro hsame
  rcases hsome with hrevoked | ⟨a, hadded, habsent⟩
  · obtain ⟨id, hid⟩ := List.exists_mem_of_ne_nil ids hrevoked
    obtain ⟨a, ha, rfl, huser⟩ := hids id hid
    have hold : a ∈ old.filter (fun a => decide (a.userId = userId)) :=
      List.mem_filter.2 ⟨ha, decide_eq_true huser⟩
    rw [← hsame] at hold
    have hgone := (Table.mem_deleteWhere.1 (List.mem_filter.1 hold).1).2
    exact of_decide_eq_false hgone hid
  · obtain ⟨hkept, huser⟩ := hnews a hadded
    have hthere : a ∈ (table.deleteWhere fun a => decide (a.id ∈ ids)).rows.filter
        (fun a => decide (a.userId = userId)) := by
      rw [List.mem_filter, Table.mem_deleteWhere, hrows]
      exact ⟨⟨List.mem_append_right _ hadded, decide_eq_false hkept⟩, decide_eq_true huser⟩
    rw [hsame] at hthere
    exact habsent (List.mem_filter.1 hthere).1

/-- `syncUserRolesByKeys`. -/
theorem outcome_syncUserRolesByKeys {s : State} {roleKeys : List String} {actor : Uuid}
    (newIds : List Uuid)
    (h : Finishes s.now s.store
      ((Call.syncUserRolesByKeys userId roleKeys actor).statements s.tables) store') :
    Outcome s.now s.tables store'.tables
      (s.refreshes (.call (.syncUserRolesByKeys userId roleKeys actor) newIds)) := by
  obtain ⟨inputs, ids, hreconcile, hinputs, hids⟩ := reconcile_spec s.tables userId roleKeys actor
  have hlisted : Finishes s.now s.store (reconcile s.tables userId roleKeys actor ++ []) store' :=
    Finishes.step h fun _ => rfl
  rw [List.append_nil, hreconcile] at hlisted
  obtain ⟨table, news, hrows, hnews, hthere, hgranted⟩ :=
    hlisted.of_grants fun input hinput => (hinputs input hinput).2.1
  have hsettle : Finishes s.now { s.store with
      tables := { s.tables with
        userRoleAssignments := table.deleteWhere (fun a => decide (a.id ∈ ids)) } }
      (settle userId) store' := hgranted.of_revokes
  have hnewUser : ∀ a ∈ news, a.userId = userId := by
    intro a ha
    obtain ⟨-, input, hinput, huser⟩ := hnews a ha
    exact huser.trans (hinputs input hinput).1
  -- the rows that are revoked have been there before
  have hnewIds : ∀ a ∈ news, a.id ∉ ids := by
    intro a ha hid
    obtain ⟨b, hb, hbid, -⟩ := hids a.id hid
    exact Table.find_eq_none_iff.1 (hnews a ha).1 b hb hbid
  have howner : ∀ a ∈ table.rows, decide (a.id ∈ ids) = true → a.userId = userId := by
    intro a ha hid
    obtain ⟨b, hb, hbid, hbuser⟩ := hids a.id (of_decide_eq_true hid)
    have hbrow : b ∈ table.rows := by
      rw [hrows]
      exact List.mem_append_left _ hb
    rw [← table.eq_of_key_eq hbrow ha hbid, hbuser]
  obtain ⟨hsyncs, hnew⟩ := syncs_of_settle hsettle fun v hv => by
    rw [filter_deleteWhere_of_user howner hv, hrows, filter_append_of_user hnewUser hv]
    rfl
  rw [refreshes_syncUserRolesByKeys newIds hreconcile]
  split
  · rename_i hnone
    obtain ⟨rfl, rfl⟩ := hnone
    refine .refreshed hsyncs ?_
    have hnewsNil : news = [] := List.eq_nil_iff_forall_not_mem.2 fun a ha => by
      obtain ⟨-, input, hinput, -⟩ := hnews a ha
      cases hinput
    have hkept : (table.deleteWhere fun a => decide (a.id ∈ [])).rows =
        s.tables.userRoleAssignments.rows := by
      have hall : (table.deleteWhere fun a => decide (a.id ∈ [])).rows = table.rows :=
        List.filter_eq_self.2 fun a _ => by simp
      rw [hall, hrows, hnewsNil, List.append_nil]
      rfl
    rw [hnew, hkept]
    rfl
  · rename_i hsome
    refine .changed hsyncs ?_
    rw [hnew]
    refine filter_deleteWhere_append_ne hrows hids (fun a ha => ⟨hnewIds a ha, hnewUser a ha⟩) ?_
    by_cases hgrants : inputs = []
    · exact Or.inl fun hnil => hsome ⟨hgrants, hnil⟩
    · obtain ⟨input, hinput⟩ := List.exists_mem_of_ne_nil inputs hgrants
      obtain ⟨a, ha, hindex⟩ := hthere input hinput
      have habsent : a ∉ s.tables.userRoleAssignments.rows := fun hold =>
        (hinputs input hinput).2.2 a hold hindex
      rw [hrows] at ha
      exact Or.inr ⟨a, (List.mem_append.1 ha).resolve_left habsent, habsent⟩

/-- **What a whole call does.** -/
theorem outcome_call {s : State} (call : Call) (newIds : List Uuid)
    (h : Finishes s.now s.store (call.statements s.tables) store') :
    Outcome s.now s.tables store'.tables (s.refreshes (.call call newIds)) := by
  cases call with
  | assignRole command actor => exact outcome_assignRole newIds h
  | revokeAssignment id => exact outcome_revokeAssignment newIds h
  | syncUserRolesByKeys userId roleKeys actor => exact outcome_syncUserRolesByKeys newIds h

end Calls

/-! ### What a step keeps -/

section Steps

variable {counts : Bool} {s : State} {e : Event} {store' : Store} {counted : Option Uuid}

theorem changed_after_same {userId : Uuid}
    (h : assignmentsOf store'.tables userId = assignmentsOf s.tables userId)
    (hcounted : counted ≠ some userId) :
    (s.after store' counted).changed userId = s.changed userId := if_pos ⟨h, hcounted⟩

theorem changed_after_kept {userId : Uuid}
    (h : assignmentsOf store'.tables userId = assignmentsOf s.tables userId) :
    (s.after store' none).changed userId = s.changed userId :=
  changed_after_same h (Option.some_ne_none userId).symm

theorem changed_after_new {userId : Uuid}
    (h : assignmentsOf store'.tables userId ≠ assignmentsOf s.tables userId) :
    (s.after store' counted).changed userId = some s.now := if_neg fun hsame => h hsame.1

theorem changed_after_counted (userId : Uuid) :
    (s.after store' (some userId)).changed userId = some s.now := if_neg fun hsame => hsame.2 rfl

/-- The keys depend on the user's assignments and on the roles of these. -/
theorem keys_congr {tables tables' : Tables} {userId : Uuid} (t : Time)
    (hsame : assignmentsOf tables' userId = assignmentsOf tables userId)
    (hkeys : ∀ a ∈ assignmentsOf tables userId,
      roleKey tables' a.roleId = roleKey tables a.roleId) :
    sortedKeys tables' (assignments tables' t userId) =
      sortedKeys tables (assignments tables t userId) := by
  rw [assignments_eq, assignments_eq, hsame]
  exact sortedKeys_congr fun a ha => hkeys a (List.mem_filter.1 ha).1

theorem mirrored_congr {tables tables' : Tables} {userId : Uuid} (t : Time)
    (hsame : assignmentsOf tables' userId = assignmentsOf tables userId)
    (hkeys : ∀ a ∈ assignmentsOf tables userId,
      roleKey tables' a.roleId = roleKey tables a.roleId)
    (hclaims : claimsOf tables' userId = claimsOf tables userId) :
    Mirrored tables' t userId ↔ Mirrored tables t userId := by
  rw [Mirrored, Mirrored, hclaims, keys_congr t hsame hkeys]

/-- The claims of those whose assignments and claims are not touched. -/
theorem Syncs.mirrored_iff {now : Time} {userId v : Uuid} {tables tables' : Tables}
    (h : Syncs now userId tables tables') (hv : v ≠ userId) (t : Time) :
    Mirrored tables' t v ↔ Mirrored tables t v := by
  refine mirrored_congr t (h.others v hv) (fun a _ => ?_) ?_
  · rw [roleKey, roleKey, h.roles]
  · rw [h.claims, if_neg hv]

/-- The claims that have been refreshed. -/
theorem Syncs.mirrored_self {now : Time} {userId : Uuid} {tables tables' : Tables}
    (h : Syncs now userId tables tables') : Mirrored tables' now userId := by
  intro claims hclaims
  rw [h.claims, if_pos rfl] at hclaims
  obtain ⟨-, -, rfl⟩ := Option.mem_map.1 hclaims
  rfl

/-- After a refresh that is not counted as a change. -/
theorem mirrors_refresh_iff {userId : Uuid} (hs : Mirrors s)
    (h : Syncs s.now userId s.tables store'.tables)
    (hsame : assignmentsOf store'.tables userId = assignmentsOf s.tables userId) :
    Mirrors (s.after store' none) ↔ (false = false → ∀ v ∈ some userId, ∀ t ∈ s.changed v,
      claimsOf s.tables v ≠ none → sortedKeys s.tables (assignments s.tables s.now v) =
        sortedKeys s.tables (assignments s.tables t v)) := by
  have hkeys : ∀ t, sortedKeys store'.tables (assignments store'.tables t userId) =
      sortedKeys s.tables (assignments s.tables t userId) := fun t =>
    keys_congr t hsame fun a _ => by rw [roleKey, roleKey, h.roles]
  have hclaims : claimsOf store'.tables userId = (claimsOf s.tables userId).map
      fun _ => sortedKeys s.tables (assignments s.tables s.now userId) := by
    rw [h.claims, if_pos rfl, hkeys]
  constructor
  · intro hmirrors _ v hv t ht hemployee
    obtain rfl := Option.some.inj hv
    obtain ⟨claims, hold⟩ := Option.ne_none_iff_exists'.1 hemployee
    rw [← changed_after_kept hsame] at ht
    rw [← hkeys t]
    refine hmirrors userId t ht _ ?_
    show _ ∈ claimsOf store'.tables userId
    rw [hclaims, hold]
    rfl
  · intro hexpiry v t ht
    by_cases hv : v = userId
    · subst hv
      rw [changed_after_kept hsame] at ht
      intro claims hnew
      have hnew' : claims ∈ claimsOf store'.tables v := hnew
      rw [hclaims] at hnew'
      obtain ⟨old, hold, rfl⟩ := Option.mem_map.1 hnew'
      have hemployee : claimsOf s.tables v ≠ none := by
        rw [Option.mem_def.1 hold]
        exact Option.some_ne_none old
      exact (hexpiry rfl v rfl t ht hemployee).trans (hkeys t).symm
    · rw [changed_after_kept (h.others v hv)] at ht
      exact (h.mirrored_iff hv t).2 (hs v t ht)

/-- After a call the claims mirror the assignments exactly if no role has been lost by expiry
when the claims have been refreshed without a change. -/
theorem mirrors_call_iff (hs : Mirrors s) (htakes : ∀ a, s.takes e a = false)
    (h : Outcome s.now s.tables store'.tables (s.refreshes e)) :
    Mirrors (s.after store' (if counts then s.refreshes e else none)) ↔ Orderly counts s e := by
  have horderly : Orderly counts s e ↔ (counts = false → ∀ userId ∈ s.refreshes e,
      ∀ t ∈ s.changed userId, claimsOf s.tables userId ≠ none →
        sortedKeys s.tables (assignments s.tables s.now userId) =
          sortedKeys s.tables (assignments s.tables t userId)) := by
    refine ⟨fun h => h.refreshes, fun h => ⟨fun a _ htaken => ?_, h⟩⟩
    rw [htakes a] at htaken
    cases htaken
  rw [horderly]
  generalize s.refreshes e = refreshed at h
  cases h with
  | nothing h =>
    rw [ite_self]
    refine iff_of_true (fun userId t ht => ?_) (fun _ userId hnone => by cases hnone)
    have hsame : assignmentsOf store'.tables userId = assignmentsOf s.tables userId := by rw [h]
    rw [changed_after_kept hsame] at ht
    show Mirrored store'.tables t userId
    rw [h]
    exact hs userId t ht
  | @changed userId h hnew =>
    rw [ite_self]
    refine iff_of_true (fun v t ht => ?_) (fun _ v hnone => by cases hnone)
    by_cases hv : v = userId
    · subst hv
      rw [changed_after_new hnew] at ht
      obtain rfl := Option.some.inj ht
      exact h.mirrored_self
    · rw [changed_after_kept (h.others v hv)] at ht
      exact (h.mirrored_iff hv t).2 (hs v t ht)
  | @refreshed userId h hsame =>
    cases counts with
    | true =>
      refine iff_of_true (fun v t ht => ?_) (fun hcounts => by cases hcounts)
      by_cases hv : v = userId
      · subst hv
        rw [if_pos rfl, changed_after_counted] at ht
        obtain rfl := Option.some.inj ht
        exact h.mirrored_self
      · rw [changed_after_same (h.others v hv) (by simpa using Ne.symm hv)] at ht
        exact (h.mirrored_iff hv t).2 (hs v t ht)
    | false => exact mirrors_refresh_iff hs h hsame

/-- After assignments have been taken away the claims mirror the others exactly if the claims of
those who have lost one are made of these. -/
theorem mirrors_take_iff (hs : Mirrors s) (hrefreshes : s.refreshes e = none)
    (hrows : store'.tables.userRoleAssignments = s.tables.userRoleAssignments.deleteWhere (s.takes e))
    (hclaims : ∀ v, claimsOf store'.tables v = claimsOf s.tables v)
    (hkeys : ∀ a ∈ s.tables.userRoleAssignments.rows, s.takes e a = false →
      roleKey store'.tables a.roleId = roleKey s.tables a.roleId) :
    Mirrors (s.after store' none) ↔ Orderly counts s e := by
  have hleft : ∀ v, assignmentsOf store'.tables v =
      (assignmentsOf s.tables v).filter (fun a => !s.takes e a) := by
    intro v
    simp only [assignmentsOf, hrows, Table.deleteWhere, List.filter_filter]
    exact List.filter_congr fun a _ => Bool.and_comm _ _
  -- the claims of somebody who has lost an assignment
  have htaken : ∀ v, Mirrored store'.tables s.now v ↔ ∀ claims ∈ claimsOf s.tables v,
      claims = sortedKeys s.tables
        ((assignments s.tables s.now v).filter (fun a => !s.takes e a)) := by
    intro v
    have hnow : assignments store'.tables s.now v =
        (assignments s.tables s.now v).filter (fun a => !s.takes e a) := by
      rw [assignments_eq, assignments_eq, hleft, List.filter_filter, List.filter_filter]
      exact List.filter_congr fun a _ => Bool.and_comm _ _
    rw [Mirrored, hclaims, hnow]
    refine forall₂_congr fun claims _ => ?_
    rw [sortedKeys_congr]
    intro a ha
    obtain ⟨hold, hkept⟩ := List.mem_filter.1 ha
    exact hkeys a (mem_assignments.1 hold).1 (by simpa using hkept)
  constructor
  · intro hmirrors
    refine ⟨fun a ha htake => (htaken a.userId).1 (hmirrors a.userId s.now ?_), ?_⟩
    · refine changed_after_new fun hsame => ?_
      have hold : a ∈ assignmentsOf s.tables a.userId := mem_assignmentsOf.2 ⟨ha, rfl⟩
      rw [← hsame, hleft] at hold
      have hkept := (List.mem_filter.1 hold).2
      rw [htake] at hkept
      cases hkept
    · intro _ userId huser
      rw [hrefreshes] at huser
      cases huser
  · intro horderly v t ht
    by_cases hsame : assignmentsOf store'.tables v = assignmentsOf s.tables v
    · rw [changed_after_kept hsame] at ht
      refine (mirrored_congr t hsame (fun a ha => ?_) (hclaims v)).2 (hs v t ht)
      have hkept := ha
      rw [← hsame, hleft] at hkept
      exact hkeys a (mem_assignmentsOf.1 ha).1 (by simpa using (List.mem_filter.1 hkept).2)
    · rw [changed_after_new hsame] at ht
      obtain rfl := Option.some.inj ht
      refine (htaken v).2 ?_
      -- some row of theirs has been taken
      by_contra hnone
      refine hsame ?_
      rw [hleft]
      refine List.filter_eq_self.2 fun a ha => ?_
      obtain ⟨harow, rfl⟩ := mem_assignmentsOf.1 ha
      cases htake : s.takes e a with
      | false => rfl
      | true => exact absurd (horderly.takes a harow htake) hnone

theorem deleteRole_ok {tables tables' : Tables} {roleId : Uuid}
    (h : AuthzAdminService.deleteRole tables roleId = .ok tables') :
    tables' = RoleDrizzleRepository.delete roleId tables := by
  simp only [AuthzAdminService.deleteRole, Except.bind_eq_ok_iff, Except.pure_eq_ok_iff] at h
  obtain ⟨-, -, -, -, rfl⟩ := h
  rfl

/-- The other roles are still there. -/
theorem roleKey_delete {tables : Tables} {roleId roleId' : Uuid} (h : roleId' ≠ roleId) :
    roleKey (RoleDrizzleRepository.delete roleId tables) roleId' = roleKey tables roleId' := by
  simp only [roleKey, RoleDrizzleRepository.delete, List.find?_filter]
  congr 2
  funext role
  by_cases hrole : role.id = roleId'
  · simp [hrole, h]
  · simp [hrole]

/-- **What a step keeps.** -/
theorem mirrors_step_iff (hs : Mirrors s) (h : Sequential s e) :
    Mirrors (step counts s e) ↔ Orderly counts s e := by
  cases e with
  | call call newIds =>
    exact mirrors_call_iff hs (fun _ => rfl) (outcome_call call newIds (finishes_drive h))
  | deleteRole roleId =>
    cases hok : AuthzAdminService.deleteRole s.tables roleId with
    | error failure =>
      have htakes : s.takes (.deleteRole roleId) = fun _ => false := by
        funext a
        simp [State.takes, hok, Except.isOk, Except.toBool]
      simp only [step, hok, Outcome.commit_error]
      refine mirrors_take_iff hs rfl ?_ (fun _ => rfl) (fun _ _ _ => rfl)
      rw [htakes]
      exact (Table.eq_of_rows_eq (List.filter_eq_self.2 fun _ _ => rfl)).symm
    | ok tables =>
      have htakes : s.takes (.deleteRole roleId) = fun a => decide (a.roleId = roleId) := by
        funext a
        simp [State.takes, hok, Except.isOk, Except.toBool]
      obtain rfl := deleteRole_ok hok
      simp only [step, hok, Outcome.commit_ok]
      refine mirrors_take_iff hs rfl ?_ (fun _ => rfl) (fun a _ hkept => ?_)
      · rw [htakes]
        rfl
      · rw [htakes] at hkept
        exact roleKey_delete (of_decide_eq_false hkept)
  | onApprove payload =>
    refine mirrors_take_iff hs rfl rfl (fun v => ?_) (fun _ _ _ => rfl)
    simp only [claimsOf, OffboardingTypeDef.offboard, Table.update, Table.find_updateWhere,
      Option.map_map]
    congr 1
    funext employee
    simp only [Function.comp_apply]
    split <;> rfl
  | tick duration =>
    refine iff_of_true hs ⟨fun _ _ htake => ?_, fun _ _ hnone => ?_⟩
    · cases htake
    · cases hnone

end Steps

/-- **The claims mirror the assignments throughout a run exactly if it is orderly.** -/
theorem always_mirrors_iff (counts : Bool) {tables : Tables} {now : Time} {es : List Event}
    (h : Meets (step counts) Sequential (State.initial tables now) es) :
    (∀ fs, fs <+: es → Mirrors (run (step counts) (State.initial tables now) fs)) ↔
      Meets (step counts) (Orderly counts) (State.initial tables now) es :=
  @always_iff_meets_within _ _ (step counts) (Orderly counts) Sequential (fun _ => True) Mirrors
    (fun _ _ hsequential _ hs => mirrors_step_iff hs hsequential) (fun _ _ _ _ _ _ => trivial)
    _ _ h trivial (fun _ _ hnone => by cases hnone)

namespace Sample

/-- One employee, and a role without permissions. -/
def tables : Tables :=
  { Tables.empty with
    employees := ⟨[⟨1, none, "user1@example.com", "User 1", [], .active, none, 0⟩], by decide⟩
    roles := [⟨7, "it-admin", "IT admin", false, 0⟩] }

/-- The start. -/
def start : State := State.initial tables 0

/-- The employee gets the role from the identity provider. -/
def granted : List Event := [.call (.syncUserRolesByKeys 1 ["it-admin"] 1) [100, 101, 102, 103, 104, 105]]

/-- Then the role is deleted. -/
def deleted : List Event := granted ++ [.deleteRole 7]

/-- Or the employee leaves. -/
def left : List Event := granted ++ [.onApprove ⟨1, "user1@example.com", none⟩]

/-- The role is granted until instant 10, and the claims are refreshed at 20. -/
def expired : List Event :=
  [.call (.assignRole ⟨1, 7, none, none, some 10⟩ 1) [100, 101, 102, 103, 104, 105, 106, 107],
    .tick 20, .call (.syncUserRolesByKeys 1 ["it-admin"] 1) [200, 201, 202, 203, 204]]

/-- The role is deleted, and the employee leaves, after the role has been taken from them. -/
def orderly : List Event :=
  granted ++ [.call (.syncUserRolesByKeys 1 [] 1) [200, 201, 202, 203, 204], .deleteRole 7,
    .onApprove ⟨1, "user1@example.com", none⟩]

/-- The claims of employee 1 are those of the deleted role, or those of a role held before
leaving; and a refresh drops a role that was unexpired when the assignments were changed. -/
theorem not_mirrors :
    (∀ counts, Meets (step counts) Sequential start deleted ∧
      ¬ Mirrors (run (step counts) start deleted)) ∧
    (∀ counts, Meets (step counts) Sequential start left ∧
      ¬ Mirrors (run (step counts) start left)) ∧
    (Meets (step false) Sequential start expired ∧ ¬ Mirrors (run (step false) start expired)) := by
  refine ⟨fun counts => ⟨?_, fun h => ?_⟩, fun counts => ⟨?_, fun h => ?_⟩, ?_, fun h => ?_⟩
  · cases counts <;> decide +kernel
  · refine absurd (h 1 0 ?_) ?_
    · cases counts <;> decide +kernel
    · cases counts <;> decide +kernel
  · cases counts <;> decide +kernel
  · refine absurd (h 1 0 ?_) ?_
    · cases counts <;> decide +kernel
    · cases counts <;> decide +kernel
  · decide +kernel
  · exact absurd (h 1 0 (by decide +kernel)) (by decide +kernel)

/-- A run in which the claims mirror the assignments throughout. -/
theorem mirrors_orderly :
    Meets (step false) Sequential start orderly ∧
      ∀ fs, fs <+: orderly → Mirrors (run (step false) start fs) := by
  have hwhole : Meets (step false) Sequential start orderly := by decide +kernel
  exact ⟨hwhole, (always_mirrors_iff false hwhole).2 (by decide +kernel)⟩

end Sample

end RoleClaims

end OpsHub
