import OpsHub.Access.Authz
import OpsHub.Assets.AssetService
import OpsHub.Domain.Services
import OpsHub.Identity.Offboarding

/-!
# What a leaver holds

`OffboardingTypeDef.onApprove` takes everything from an employee at once: role assignments,
access grants, assets, refresh tokens.  This module puts it together with everything that
hands such things out (role administration with its cache of permissions, approvals of access
requests, custody of assets, sessions), with any number of calls in flight.

* `HoldsNothing`: an employee who has left holds nothing;
* `NoGain`: what a change of the tables must not add;
* `Stripped`: the invariant; sessions ask for the status, and so mint nothing for leavers;
* `run_holdsNothing`: leavers hold nothing in runs that hand no role, grant or asset out to
  them, put none of them on leave, and in which they leave without permissions in the cache;
* `not_holdsNothing`: an approved offboarding leaves the cache alone, and neither the
  assignment of a role nor that of an asset nor the approval of a request asks whether the
  employee is still there.
-/

namespace OpsHub

namespace Leavers

/-! ### Calls -/

/-- The next statement of a call. -/
inductive Call
  /-- Role administration, a permission check: the statements that are left. -/
  | authz (statements : List Authz.Statement)
  /-- `AssetService.assign`, before its transaction. -/
  | assign (assetId employeeId : Uuid) (notes : Option String)
  /-- `AssetService.unassign`, before its transaction. -/
  | unassign (assetId : Uuid)
  /-- `AccessRequestService.approve` on a row without engine request, before its transaction. -/
  | approve (request : AccessRequest) (note : Option String) (actor : Actor)
  | finished
  deriving DecidableEq, Repr

/-- The identities, the cache of permissions, the calls in flight, and those who have left:
`gone` lists the employees whose offboarding has been approved and who have not been set
active since. -/
structure State where
  identity : Offboarding.State
  permissions : TtlCache Uuid EffectivePermissions
  calls : List Call
  gone : List Uuid

/-- Nobody has logged in or left yet, and the cache is empty. -/
def State.initial (tables : Tables) (now : ℕ) : State where
  identity := Offboarding.State.initial tables now
  permissions := TtlCache.empty
  calls := []
  gone := []

/-- The tables. -/
def State.tables (s : State) : Tables := s.identity.tables

/-- The clock. -/
def State.now (s : State) : ℕ := s.identity.now

/-- The tables and the cache of permissions. -/
def State.store (s : State) : Authz.Store := ⟨s.tables, s.permissions⟩

/-- The state with other tables. -/
def State.withTables (s : State) (tables : Tables) : State :=
  { s with identity := s.identity.withTables tables }

/-- The state with another store. -/
def State.withStore (s : State) (store : Authz.Store) : State :=
  { s.withTables store.tables with permissions := store.permissions }

/-- The state in which the `i`-th call goes on with `call`. -/
def State.goOn (s : State) (i : ℕ) (call : Call) : State :=
  { s with calls := s.calls.set i call }

/-- The state in which a new call goes on with `call`. -/
def State.begin (s : State) (call : Call) : State := { s with calls := s.calls ++ [call] }

/-- Those who have left after a step of the identities. -/
def State.goneAfter (s : State) : Offboarding.Event → List Uuid
  | .onApprove payload => s.gone ++ [payload.employeeId]
  | .advance i =>
    match s.identity.changes[i]? with
    | some (.store id .active) => s.gone.filter (fun g => decide (g ≠ id))
    | _ => s.gone
  | _ => s.gone

/-! ### The steps -/

/-- The commit of `AccessRequestTypeDef.onApprove`. -/
def approveAccess (payload : AccessRequestPayload) (approverId newId : Uuid) (now : Time)
    (tables : Tables) : Tables :=
  match AccessRequestTypeDef.onApprove (.accessRequest payload) approverId ⟨now, newId⟩
    ⟨[], tables⟩ with
  | .ok tx => tx.domain
  | .error _ => tables

/-- The beginning of `AccessRequestService.approve`; a row with an engine request is left to
the engine. -/
def approve (tables : Tables) (requestId : Uuid) (note : Option String) (actor : Actor) :
    Except Failure Call := do
  let request ← AccessRequestService.getById tables requestId
  AccessRequestService.assertPending request "approved"
  match request.requestId with
  | some _ => pure .finished
  | none => pure (.approve request note actor)

/-- What can happen. -/
inductive Event
  | identity (e : Offboarding.Event)
  /-- `entraLogin`: the session, and the reconciliation of the roles, which may be overtaken. -/
  | entraLogin (employeeId familyId : Uuid) (roleKeys : List String)
  | check (userId : Uuid)
  | assignRole (command : AssignRoleCommand) (actor : Uuid)
  | revokeAssignment (id : Uuid)
  | onApprove (payload : AccessRequestPayload) (approverId newId : Uuid)
  | approve (requestId : Uuid) (note : Option String) (actor : Actor)
  | assignAsset (assetId employeeId : Uuid) (notes : Option String)
  | unassignAsset (assetId : Uuid)
  | advance (i : ℕ) (newId : Uuid)
  deriving DecidableEq, Repr

/-- The state in which a call has begun, unless it throws. -/
def State.beginWith (s : State) : Except Failure Call → State
  | .ok call => s.begin call
  | .error _ => s

/-- The next statement of the `i`-th call. -/
def advance (s : State) (i : ℕ) (newId : Uuid) : State :=
  match s.calls[i]? with
  | some (.authz statements) =>
    let done := Authz.advance s.now newId s.store statements
    (s.withStore done.1).goOn i (.authz done.2)
  | some (.assign assetId employeeId notes) =>
    (s.withTables (Outcome.commit s.tables
      (AssetDrizzleRepository.assign assetId employeeId notes s.now newId s.tables))).goOn i
        .finished
  | some (.unassign assetId) =>
    (s.withTables (AssetDrizzleRepository.unassign assetId s.now s.tables)).goOn i .finished
  | some (.approve request note actor) =>
    (s.withTables (Outcome.commit s.tables
      (AccessRequestService.legacyApprove request note actor s.now newId s.tables))).goOn i
        .finished
  | some .finished => s
  | none => s

/-- The state after one event; a call that throws at once leaves no trace. -/
def step (config : AuthConfig) (s : State) : Event → State
  | .identity e =>
    { s with
      identity := Offboarding.step config s.identity e
      gone := s.goneAfter e }
  | .entraLogin employeeId familyId roleKeys =>
    match Sessions.login s.tables.employees employeeId with
    | .ok employee =>
      { s.begin (.authz (AuthzAdminService.syncUserRolesByKeys employee.id roleKeys employee.id)) with
        identity := Offboarding.step config s.identity (.session (.login employeeId familyId)) }
    | .error _ => s
  | .check userId => s.begin (.authz [.getJson userId .check])
  | .assignRole command actor =>
    s.beginWith ((AuthzAdminService.assignRole s.tables command actor).map .authz)
  | .revokeAssignment id => s.beginWith ((AuthzAdminService.revokeAssignment s.tables id).map .authz)
  | .onApprove payload approverId newId =>
    s.withTables (approveAccess payload approverId newId s.now s.tables)
  | .approve requestId note actor => s.beginWith (approve s.tables requestId note actor)
  | .assignAsset assetId employeeId notes =>
    s.beginWith ((AssetService.assign s.tables assetId employeeId).map fun _ =>
      .assign assetId employeeId notes)
  | .unassignAsset assetId =>
    s.beginWith ((AssetService.unassign s.tables assetId).map fun _ => .unassign assetId)
  | .advance i newId => advance s i newId

/-! ### The guarantee -/

/-- The employee holds nothing: no role, no grant that has not been revoked, no asset that has
not been returned, no live refresh token, and no permission, neither in the database nor in
the cache. -/
structure HoldsNothing (s : State) (id : Uuid) : Prop where
  roles : ∀ a ∈ s.tables.userRoleAssignments.rows, a.userId ≠ id
  grants : ∀ g ∈ s.tables.accessGrants.rows, g.granteeId = id → g.revokedAt ≠ none
  assets : ∀ a ∈ s.tables.assetAssignments.rows, a.employeeId = id → a.returnedAt ≠ none
  tokens : ∀ t ∈ s.tables.refreshTokens.rows, t.employeeId = id → t.revoked = true
  fresh : ∀ permission resource user, AuthzService.answer
    (AuthzService.effective s.tables s.now id) permission resource user = false
  check : ∀ permission resource user, s.store.check s.now id permission resource user = false

/-! ### The condition -/

/-- The employee to whom a call is about to hand something out. -/
def Call.handedTo : Call → Option Uuid
  | .authz (statement :: _) => statement.grantee
  | .assign _ employeeId _ => some employeeId
  | .approve request _ _ => some request.requesterId
  | _ => none

/-- The entry that a call is about to make in the cache of permissions. -/
def Call.entry : Call → Option (Uuid × EffectivePermissions)
  | .authz (statement :: _) => statement.entry
  | _ => none

/-- The employee to whom a step hands something out: a grant, a role or an asset. -/
def State.handedTo (s : State) : Event → Option Uuid
  | .onApprove payload _ _ => some payload.requesterId
  | .advance i _ => s.calls[i]?.bind Call.handedTo
  | _ => none

/-- The entry that a step makes in the cache of permissions. -/
def State.entry (s : State) : Event → Option (Uuid × EffectivePermissions)
  | .advance i _ => s.calls[i]?.bind Call.entry
  | _ => none

/-- The employee who leaves with a step. -/
def Event.leaving : Event → Option Uuid
  | .identity (.onApprove payload) => some payload.employeeId
  | _ => none

/-- The employee whom a step puts on leave. -/
def State.puttingOnLeave (s : State) : Event → Option Uuid
  | .identity (.advance i) =>
    match s.identity.changes[i]? with
    | some (.store id .onLeave) => some id
    | _ => none
  | _ => none

/-- The condition on a step. -/
structure KeepsOut (s : State) (e : Event) : Prop where
  /-- No role, grant or asset is handed out to those who have left. -/
  handed : ∀ id ∈ s.handedTo e, id ∉ s.gone
  /-- Permissions that have been read before an employee left do not get into the cache. -/
  cached : ∀ entry ∈ s.entry e, entry.1 ∈ s.gone → entry.2 = []
  /-- Nobody who has left is put on leave. -/
  returning : ∀ id ∈ s.puttingOnLeave e, id ∉ s.gone
  /-- Nobody leaves with permissions in the cache, or during a login or a refresh that has
  passed its test of the status. -/
  leaving : ∀ id ∈ e.leaving, (∀ effective ∈ s.permissions.get s.now id, effective = []) ∧
    ∀ call ∈ s.identity.sessions.calls, Offboarding.mintsFor call ≠ some id

instance (s : State) (e : Event) : Decidable (KeepsOut s e) :=
  decidable_of_iff
    ((∀ id ∈ s.handedTo e, id ∉ s.gone) ∧ (∀ entry ∈ s.entry e, entry.1 ∈ s.gone → entry.2 = []) ∧
      (∀ id ∈ s.puttingOnLeave e, id ∉ s.gone) ∧
      ∀ id ∈ e.leaving, (∀ effective ∈ s.permissions.get s.now id, effective = []) ∧
        ∀ call ∈ s.identity.sessions.calls, Offboarding.mintsFor call ≠ some id)
    ⟨fun h => ⟨h.1, h.2.1, h.2.2.1, h.2.2.2⟩,
      fun h => ⟨h.handed, h.cached, h.returning, h.leaving⟩⟩

/-! ### What a change of the tables must not add -/

/-- The employee gains nothing, and does not come back. -/
structure NoGain (tables tables' : Tables) (id : Uuid) : Prop where
  roles : ∀ a ∈ tables'.userRoleAssignments.rows, a.userId = id →
    a ∈ tables.userRoleAssignments.rows
  grants : ∀ g ∈ tables'.accessGrants.rows, g.granteeId = id → g.revokedAt = none →
    g ∈ tables.accessGrants.rows
  assets : ∀ a ∈ tables'.assetAssignments.rows, a.employeeId = id → a.returnedAt = none →
    a ∈ tables.assetAssignments.rows
  tokens : ∀ t ∈ tables'.refreshTokens.rows, t.employeeId = id → t.revoked = false →
    t ∈ tables.refreshTokens.rows
  status : ∀ status ∈ tables'.employeeStatus id,
    status ∈ tables.employeeStatus id ∨ status = .offboarded

section Tables

variable {tables tables' : Tables} {id newId approverId : Uuid} {now : Time}

theorem NoGain.refl : NoGain tables tables id :=
  ⟨fun _ ha _ => ha, fun _ hg _ _ => hg, fun _ ha _ _ => ha, fun _ ht _ _ => ht,
    fun _ hstatus => Or.inl hstatus⟩

/-- An offboarding closes grants, assignments of assets and refresh tokens. -/
theorem offboard_open {employeeId : Uuid} :
    (∀ g ∈ (OffboardingTypeDef.offboard employeeId now tables).accessGrants.rows,
      g.revokedAt = none → g ∈ tables.accessGrants.rows ∧ g.granteeId ≠ employeeId) ∧
    (∀ a ∈ (OffboardingTypeDef.offboard employeeId now tables).assetAssignments.rows,
      a.returnedAt = none → a ∈ tables.assetAssignments.rows ∧ a.employeeId ≠ employeeId) ∧
    ∀ t ∈ (OffboardingTypeDef.offboard employeeId now tables).refreshTokens.rows,
      t.revoked = false → t ∈ tables.refreshTokens.rows ∧ t.employeeId ≠ employeeId := by
  refine ⟨fun g hg hlive => ?_, fun a ha hlive => ?_, fun t ht hlive => ?_⟩
  · obtain ⟨hold, hother⟩ := Table.mem_updateWhere_open
      (o := fun g => g.revokedAt = none) (by intro r; rfl) (by simp) hg hlive
    exact ⟨hold, fun hid => by simp [hid, hlive] at hother⟩
  · obtain ⟨hold, hother⟩ := Table.mem_updateWhere_open
      (o := fun a => a.returnedAt = none) (by intro r; rfl) (by simp) ha hlive
    exact ⟨hold, fun hid => by simp [hid, hlive] at hother⟩
  · obtain ⟨hold, hother⟩ := Table.mem_updateWhere_open
      (o := fun t => t.revoked = false) (by intro r; rfl) (by simp) ht hlive
    exact ⟨hold, fun hid => by simp [hid, hlive] at hother⟩

/-- An employee is offboarded, perhaps another one. -/
theorem noGain_offboard (employeeId : Uuid) :
    NoGain tables (OffboardingTypeDef.offboard employeeId now tables) id := by
  obtain ⟨hgrants, hassets, htokens⟩ := @offboard_open tables now employeeId
  constructor
  · intro a ha _
    exact (Table.mem_deleteWhere.1 ha).1
  · intro g hg _ hlive
    exact (hgrants g hg hlive).1
  · intro a ha _ hlive
    exact (hassets a ha hlive).1
  · intro t ht _ hlive
    exact (htokens t ht hlive).1
  · intro status hstatus
    exact Offboarding.mem_employeeStatus_offboard hstatus

/-- A grant for another employee. -/
theorem noGain_grant {accessGrants : Table AccessGrant.id} {grant : AccessGrant}
    (hinsert : tables.accessGrants.insert grant = some accessGrants)
    (hroles : tables'.userRoleAssignments = tables.userRoleAssignments)
    (hgrants : tables'.accessGrants = accessGrants)
    (hassets : tables'.assetAssignments = tables.assetAssignments)
    (htokens : tables'.refreshTokens = tables.refreshTokens)
    (hemployees : tables'.employees = tables.employees) (hother : grant.granteeId ≠ id) :
    NoGain tables tables' id := by
  refine ⟨fun a ha _ => hroles ▸ ha, fun g hg hid _ => ?_, fun a ha _ _ => hassets ▸ ha,
    fun t ht _ _ => htokens ▸ ht, fun status hstatus => Or.inl ?_⟩
  · rw [hgrants] at hg
    rcases (Table.mem_insert hinsert).1 hg with hg | rfl
    · exact hg
    · exact absurd hid hother
  · rw [Tables.employeeStatus, hemployees] at hstatus
    exact hstatus

theorem noGain_approveAccess {payload : AccessRequestPayload} (hother : payload.requesterId ≠ id) :
    NoGain tables (approveAccess payload approverId newId now tables) id := by
  unfold approveAccess
  split
  · rename_i tx hok
    obtain ⟨p, accessGrants, hpayload, hinsert, hdomain⟩ := AccessRequestTypeDef.onApprove_ok hok
    obtain rfl := Payload.accessRequest.inj hpayload
    rw [hdomain]
    exact noGain_grant hinsert rfl rfl rfl rfl rfl hother
  · exact .refl

theorem noGain_legacyApprove {request : AccessRequest} {note : Option String} {actor : Actor}
    (hother : request.requesterId ≠ id) :
    NoGain tables (Outcome.commit tables
      (AccessRequestService.legacyApprove request note actor now newId tables)) id := by
  refine Outcome.commit_induction (P := fun tables' => NoGain tables tables' id) .refl
    fun tables' hok => ?_
  simp only [AccessRequestService.legacyApprove, Except.bind_eq_ok_iff, Outcome.orThrow_eq_ok_iff,
    Except.pure_eq_ok_iff] at hok
  obtain ⟨accessGrants, hinsert, rfl⟩ := hok
  exact noGain_grant hinsert rfl rfl rfl rfl rfl hother

/-- An asset for another employee. -/
theorem noGain_assign {assetId employeeId : Uuid} {notes : Option String}
    (hother : employeeId ≠ id) :
    NoGain tables (Outcome.commit tables
      (AssetDrizzleRepository.assign assetId employeeId notes now newId tables)) id := by
  refine Outcome.commit_induction (P := fun tables' => NoGain tables tables' id) .refl
    fun tables' hok => ?_
  obtain ⟨assets, assetAssignments, hinsert, rfl⟩ := AssetDrizzleRepository.assign_ok hok
  refine ⟨fun _ ha _ => ha, fun _ hg _ _ => hg, fun a ha hid _ => ?_, fun _ ht _ _ => ht,
    fun _ hstatus => Or.inl hstatus⟩
  rcases (Table.mem_insert hinsert).1 ha with ha | rfl
  · exact ha
  · exact absurd hid hother

theorem noGain_unassign (assetId : Uuid) :
    NoGain tables (AssetDrizzleRepository.unassign assetId now tables) id := by
  refine ⟨fun _ ha _ => ha, fun _ hg _ _ => hg, fun a ha _ hlive => ?_, fun _ ht _ _ => ht,
    fun _ hstatus => Or.inl hstatus⟩
  exact (Table.mem_updateWhere_open
    (o := fun a => a.returnedAt = none) (by intro r; rfl) (by simp) ha hlive).1

end Tables

/-! ### The invariant -/

/-- Whoever has left has nothing in the tables and no permission in the cache, is offboarded,
and no call is about to mint for them. -/
structure Stripped (s : State) (id : Uuid) : Prop where
  roles : ∀ a ∈ s.tables.userRoleAssignments.rows, a.userId ≠ id
  grants : ∀ g ∈ s.tables.accessGrants.rows, g.granteeId = id → g.revokedAt ≠ none
  assets : ∀ a ∈ s.tables.assetAssignments.rows, a.employeeId = id → a.returnedAt ≠ none
  tokens : ∀ t ∈ s.tables.refreshTokens.rows, t.employeeId = id → t.revoked = true
  status : ∀ status ∈ s.tables.employeeStatus id, status = .offboarded
  cached : ∀ effective ∈ s.permissions.get s.now id, effective = []
  calls : ∀ call ∈ s.identity.sessions.calls, Offboarding.mintsFor call ≠ some id

/-- A step by which the employee gains nothing. -/
structure Kept (s s' : State) (id : Uuid) : Prop where
  tables : NoGain s.tables s'.tables id
  cached : ∀ effective ∈ s'.permissions.get s'.now id,
    effective ∈ s.permissions.get s.now id ∨ effective = []
  calls : ∀ call ∈ s'.identity.sessions.calls, Offboarding.mintsFor call ≠ some id

section Steps

variable {config : AuthConfig} {s s' : State} {e : Event} {i : ℕ} {id newId : Uuid}

theorem Stripped.of_kept (h : Stripped s id) (hkept : Kept s s' id) : Stripped s' id := by
  constructor
  · intro a ha hid
    exact h.roles a (hkept.tables.roles a ha hid) hid
  · intro g hg hid hlive
    exact h.grants g (hkept.tables.grants g hg hid hlive) hid hlive
  · intro a ha hid hlive
    exact h.assets a (hkept.tables.assets a ha hid hlive) hid hlive
  · intro t ht hid
    by_contra hlive
    have hfalse : t.revoked = false := Bool.eq_false_iff.2 hlive
    exact hlive (h.tokens t (hkept.tables.tokens t ht hid hfalse) hid)
  · intro status hstatus
    rcases hkept.tables.status status hstatus with hstatus | hoff
    · exact h.status status hstatus
    · exact hoff
  · intro effective hget
    rcases hkept.cached effective hget with hget | hnil
    · exact h.cached effective hget
    · exact hnil
  · exact hkept.calls

/-- What is stripped holds nothing. -/
theorem Stripped.holdsNothing (h : Stripped s id) : HoldsNothing s id := by
  have hfresh : AuthzService.effective s.tables s.now id = [] :=
    AuthzService.effective_eq_nil s.now h.roles
  have hresolve : s.store.resolve s.now id = [] := by
    unfold Authz.Store.resolve
    cases hget : s.store.permissions.get s.now id with
    | none => exact hfresh
    | some effective => exact h.cached effective hget
  refine ⟨h.roles, h.grants, h.assets, h.tokens, fun permission resource user => ?_,
    fun permission resource user => ?_⟩
  · rw [hfresh, AuthzService.answer_nil]
  · rw [Authz.Store.check, hresolve, AuthzService.answer_nil]

/-- Nobody mints for those who have left. -/
theorem Stripped.not_mintable (h : Stripped s id) :
    ¬ Offboarding.Mintable s.identity.sessions id := by
  rintro (⟨call, hcall, hmints⟩ | ⟨status, hstatus, hactive⟩)
  · exact h.calls call hcall hmints
  · exact hactive (h.status status hstatus)

/-- The tables change, and the clock, the cache and the sessions do not. -/
theorem Stripped.kept (h : Stripped s id) (htables : NoGain s.tables s'.tables id)
    (hnow : s'.now = s.now) (hpermissions : s'.permissions = s.permissions)
    (hcalls : s'.identity.sessions.calls = s.identity.sessions.calls) : Kept s s' id := by
  refine ⟨htables, fun effective hget => Or.inl ?_, hcalls ▸ h.calls⟩
  rw [hnow, hpermissions] at hget
  exact hget

theorem Stripped.kept_refl (h : Stripped s id) : Kept s s id := h.kept .refl rfl rfl rfl

theorem Stripped.kept_beginWith (h : Stripped s id) (call : Except Failure Call) :
    Kept s (s.beginWith call) id := by
  cases call with
  | error _ => exact h.kept_refl
  | ok call => exact h.kept .refl rfl rfl rfl

/-- A step of the sessions. -/
theorem Stripped.kept_session (h : Stripped s id) {e : Sessions.Event}
    {sessions : Sessions.State} (hsession : Sessions.Step config s.identity.sessions e sessions) :
    Kept s { s with identity := { s.identity with sessions := sessions } } id := by
  have hframe := Offboarding.sessionFrame hsession
  constructor
  · show NoGain s.tables sessions.tables id
    rw [hframe.tables]
    refine ⟨fun _ ha _ => ha, fun _ hg _ _ => hg, fun _ ha _ _ => ha, fun t ht hid hlive => ?_,
      fun _ hstatus => Or.inl hstatus⟩
    refine (hframe.live t ht hlive).resolve_right fun hmint => ?_
    exact h.not_mintable (hid ▸ Offboarding.mintable_of_minting hmint)
  · intro effective hget
    exact Or.inl (TtlCache.get_of_le hframe.now hget)
  · intro call hcall hmints
    exact h.not_mintable (hframe.calls call hcall id hmints)

/-- A step of the identities that does not bring the employee back. -/
theorem Stripped.kept_identity (h : Stripped s id) {e : Offboarding.Event}
    {identity : Offboarding.State} {gone : List Uuid}
    (hstep : Offboarding.Step config s.identity e identity)
    (hstore : ∀ i status, e = .advance i → s.identity.changes[i]? = some (.store id status) →
      status = .offboarded) :
    Kept s { s with identity := identity, gone := gone } id := by
  cases hstep with
  | idle => exact h.kept .refl rfl rfl rfl
  | session hsession =>
    have hkept := h.kept_session hsession
    exact ⟨hkept.tables, hkept.cached, hkept.calls⟩
  | updateStatus hfind hother => exact h.kept .refl rfl rfl rfl
  | @store i id' status hcall =>
    refine h.kept ?_ rfl rfl rfl
    refine ⟨fun _ ha _ => ha, fun _ hg _ _ => hg, fun _ ha _ _ => ha, fun _ ht _ _ => ht,
      fun status' hstatus => ?_⟩
    by_cases hid : id = id'
    · -- the employee's own row, which becomes offboarded once more
      subst hid
      rw [hstore i status rfl hcall] at hstatus
      exact Offboarding.mem_employeeStatus_offboard hstatus
    · rw [← Offboarding.employeeStatus_storeStatus_ne hid]
      exact Or.inl hstatus
  | revokeAll hcall =>
    refine h.kept ?_ rfl rfl rfl
    refine ⟨fun _ ha _ => ha, fun _ hg _ _ => hg, fun _ ha _ _ => ha, fun t ht _ hlive => ?_,
      fun _ hstatus => Or.inl hstatus⟩
    exact Offboarding.mem_of_live_revokeWhere ht hlive
  | setKey hcall => exact h.kept .refl rfl rfl rfl
  | delKey hcall => exact h.kept .refl rfl rfl rfl
  | onApprove payload => exact h.kept (noGain_offboard _) rfl rfl rfl

/-- A statement of the role administration. -/
theorem Stripped.kept_authz (h : Stripped s id) {statements : List Authz.Statement}
    (hhanded : ∀ id' ∈ (Call.authz statements).handedTo, id' ≠ id)
    (hentry : ∀ entry ∈ (Call.authz statements).entry, entry.1 = id → entry.2 = []) :
    Kept s ((s.withStore (Authz.advance s.now newId s.store statements).1).goOn i
      (.authz (Authz.advance s.now newId s.store statements).2)) id := by
  cases statements with
  | nil => exact h.kept .refl rfl rfl rfl
  | cons statement rest =>
    have hframe := Authz.authzFrame s.now newId s.store statement
    rw [← Authz.advance_cons s.now newId s.store statement rest] at hframe
    refine ⟨?_, fun effective hget => ?_, h.calls⟩
    · show NoGain s.tables (Authz.advance s.now newId s.store (statement :: rest)).1.tables id
      constructor
      · intro a ha hid
        refine (hframe.assignments a ha).resolve_right fun hgrantee => ?_
        exact hhanded a.userId hgrantee hid
      · intro g hg _ _
        rw [hframe.tables] at hg
        exact hg
      · intro a ha _ _
        rw [hframe.tables] at ha
        exact ha
      · intro t ht _ _
        rw [hframe.tables] at ht
        exact ht
      · intro status hstatus
        rw [hframe.statuses] at hstatus
        exact Or.inl hstatus
    · rcases hframe.permissions id effective hget with hget | hmade
      · exact Or.inl hget
      · exact Or.inr (hentry _ hmade rfl)

/-- A statement of a call. -/
theorem Stripped.kept_advance (h : Stripped s id) (hgone : id ∈ s.gone)
    (hok : KeepsOut s (.advance i newId)) : Kept s (advance s i newId) id := by
  have hhanded : ∀ call, s.calls[i]? = some call → ∀ id' ∈ call.handedTo, id' ≠ id := by
    rintro call hcall id' hid' rfl
    refine hok.handed id' ?_ hgone
    rw [State.handedTo, hcall]
    exact hid'
  have hentry : ∀ call, s.calls[i]? = some call → ∀ entry ∈ call.entry, entry.1 = id →
      entry.2 = [] := by
    rintro call hcall entry hmade rfl
    refine hok.cached entry ?_ hgone
    rw [State.entry, hcall]
    exact hmade
  unfold advance
  split
  · rename_i statements hcall
    exact h.kept_authz (hhanded _ hcall) (hentry _ hcall)
  · rename_i assetId employeeId notes hcall
    exact h.kept (noGain_assign (hhanded _ hcall employeeId rfl)) rfl rfl rfl
  · exact h.kept (noGain_unassign _) rfl rfl rfl
  · rename_i request note actor hcall
    exact h.kept (noGain_legacyApprove (hhanded _ hcall request.requesterId rfl)) rfl rfl rfl
  · exact h.kept_refl
  · exact h.kept_refl

/-- **Whoever has left gains nothing** by a step that meets the condition and after which they
are still gone. -/
theorem Stripped.kept_step (h : Stripped s id) (hgone : id ∈ s.gone) (hok : KeepsOut s e)
    (hstill : id ∈ (step config s e).gone) : Kept s (step config s e) id := by
  cases e with
  | identity e =>
    refine h.kept_identity (Offboarding.step_cases config s.identity e) ?_
    rintro i status rfl hcall
    cases status with
    | offboarded => rfl
    | active =>
      -- the change takes the employee off the list
      have hleft : id ∈ s.goneAfter (.advance i) := hstill
      simp [State.goneAfter, hcall] at hleft
    | onLeave =>
      refine absurd hgone (hok.returning id ?_)
      rw [State.puttingOnLeave, hcall]
      rfl
  | entraLogin employeeId familyId roleKeys =>
    simp only [step]
    split
    · have hkept := h.kept_session
        (Sessions.step_cases config s.identity.sessions (.login employeeId familyId))
      exact ⟨hkept.tables, hkept.cached, hkept.calls⟩
    · exact h.kept_refl
  | check userId => exact h.kept .refl rfl rfl rfl
  | assignRole command actor => exact h.kept_beginWith _
  | revokeAssignment id => exact h.kept_beginWith _
  | onApprove payload approverId newId =>
    refine h.kept (noGain_approveAccess fun hid => ?_) rfl rfl rfl
    exact hok.handed payload.requesterId rfl (hid ▸ hgone)
  | approve requestId note actor => exact h.kept_beginWith _
  | assignAsset assetId employeeId notes => exact h.kept_beginWith _
  | unassignAsset assetId => exact h.kept_beginWith _
  | advance i newId => exact h.kept_advance hgone hok

/-- Whoever leaves has nothing any more. -/
theorem stripped_onApprove {payload : OffboardingPayload} {gone : List Uuid}
    (hcached : ∀ effective ∈ s.permissions.get s.now payload.employeeId, effective = [])
    (hcalls : ∀ call ∈ s.identity.sessions.calls,
      Offboarding.mintsFor call ≠ some payload.employeeId) :
    Stripped { s with
      identity := Offboarding.step config s.identity (.onApprove payload)
      gone := gone } payload.employeeId := by
  obtain ⟨hgrants, hassets, htokens⟩ := @offboard_open s.tables s.now payload.employeeId
  constructor
  · intro a ha hid
    have hkept := (Table.mem_deleteWhere.1 ha).2
    simp [hid] at hkept
  · intro g hg hid hlive
    exact (hgrants g hg hlive).2 hid
  · intro a ha hid hlive
    exact (hassets a ha hlive).2 hid
  · intro t ht hid
    by_contra hlive
    exact (htokens t ht (Bool.eq_false_iff.2 hlive)).2 hid
  · intro status hstatus
    exact Offboarding.mem_employeeStatus_offboard_self hstatus
  · exact hcached
  · exact hcalls

theorem gone_beginWith (call : Except Failure Call) : (s.beginWith call).gone = s.gone := by
  cases call with
  | error _ => rfl
  | ok call => rfl

theorem gone_advance (i : ℕ) (newId : Uuid) : (advance s i newId).gone = s.gone := by
  unfold advance
  split
  all_goals rfl

/-- Those who are gone after a step have been gone before, or leave with it. -/
theorem gone_step (h : id ∈ (step config s e).gone) : id ∈ s.gone ∨ e.leaving = some id := by
  cases e with
  | identity e =>
    have hgone : id ∈ s.goneAfter e := h
    cases e with
    | onApprove payload =>
      rcases List.mem_append.1 hgone with hgone | hgone
      · exact Or.inl hgone
      · exact Or.inr (congrArg some (List.mem_singleton.1 hgone).symm)
    | advance i =>
      simp only [State.goneAfter] at hgone
      split at hgone
      · exact Or.inl (List.mem_filter.1 hgone).1
      · exact Or.inl hgone
    | session e => exact Or.inl hgone
    | updateStatus id status => exact Or.inl hgone
  | entraLogin employeeId familyId roleKeys =>
    simp only [step] at h
    split at h
    · exact Or.inl h
    · exact Or.inl h
  | assignRole command actor => exact Or.inl (gone_beginWith _ ▸ h)
  | revokeAssignment id => exact Or.inl (gone_beginWith _ ▸ h)
  | approve requestId note actor => exact Or.inl (gone_beginWith _ ▸ h)
  | assignAsset assetId employeeId notes => exact Or.inl (gone_beginWith _ ▸ h)
  | unassignAsset assetId => exact Or.inl (gone_beginWith _ ▸ h)
  | check userId => exact Or.inl h
  | onApprove payload approverId newId => exact Or.inl h
  | advance i newId => exact Or.inl (gone_advance i newId ▸ h)

/-- **The step lemma.** -/
theorem stripped_step (h : ∀ id ∈ s.gone, Stripped s id) (hok : KeepsOut s e) :
    ∀ id ∈ (step config s e).gone, Stripped (step config s e) id := by
  intro id hid
  rcases gone_step hid with hgone | hleaving
  · exact (h id hgone).of_kept ((h id hgone).kept_step hgone hok hid)
  · cases e with
    | identity e =>
      cases e with
      | onApprove payload =>
        obtain rfl := Option.some.inj hleaving
        obtain ⟨hcached, hcalls⟩ := hok.leaving payload.employeeId rfl
        exact stripped_onApprove hcached hcalls
      | _ => cases hleaving
    | _ => cases hleaving

end Steps

/-- **A leaver holds nothing** in every run in which no role, grant or asset is handed out to
those who have left, none of them is put on leave, and nobody leaves with permissions in the
cache or during a login. -/
theorem run_holdsNothing (config : AuthConfig) (tables : Tables) (now : ℕ) (es : List Event)
    (hok : Runs.Meets (step config) KeepsOut (State.initial tables now) es) :
    ∀ id ∈ (Runs.run (step config) (State.initial tables now) es).gone,
      HoldsNothing (Runs.run (step config) (State.initial tables now) es) id := by
  have hrun := @Runs.run_induction _ _ (step config) KeepsOut
    (fun s => ∀ id ∈ s.gone, Stripped s id) (fun s e h hok => stripped_step h hok) _ es
    (fun id hid => by cases hid) hok
  intro id hid
  exact (hrun id hid).holdsNothing

/-! ### What a leaver still holds -/

namespace Sample

open Sessions.Sample (config)

/-- Employee 1 holds the role `viewer` and has asked for access, employee 2 holds the role
`admin`, and asset 20 is in stock. -/
def tables : Tables :=
  { Tables.empty with
    accessRequests := ⟨[⟨30, 1, .vpn, "vpn", "on call", 8, .pending, none, none, none, 0, some 40⟩],
      by decide⟩
    employees := ⟨[Sessions.Sample.employee,
      { Sessions.Sample.employee with id := 2, email := "user2@example.com" }], by decide⟩
    roles := [⟨5, "viewer", "Viewer", true, 0⟩, ⟨6, "admin", "Administrator", true, 0⟩]
    rolePermissions := [⟨5, "asset.read"⟩, ⟨6, "*"⟩]
    userRoleAssignments := ⟨[⟨7, 1, 5, .global, none, 2, none⟩, ⟨8, 2, 6, .global, none, 2, none⟩],
      by decide⟩
    assets := ⟨[⟨20, "LT-00020", .inStock, none, none, 0⟩], by decide⟩ }

/-- The start of the sample runs. -/
def start : State := State.initial tables 0

/-- The state after the events. -/
def after (es : List Event) : State := Runs.run (step config) start es

/-- A permission check for employee 1. -/
def checked : List Event := [.check 1, .advance 0 0, .advance 0 0, .advance 0 0]

/-- The offboarding of employee 1 is approved. -/
def leave : List Event := [.identity (.onApprove ⟨1, "user1@example.com", none⟩)]

/-- Employee 2 assigns the role to employee 1. -/
def assignRole : List Event :=
  [.assignRole { userId := 1, roleId := 5 } 2, .advance 0 0, .advance 0 0, .advance 0 0,
    .advance 0 0, .advance 0 9]

/-- The access request of employee 1 is approved at its last step. -/
def grantAccess : List Event := [.onApprove ⟨30, 1, .vpn, "vpn", "on call", 8⟩ 2 31]

/-- The asset is assigned to employee 1. -/
def assignAsset : List Event := [.assignAsset 20 1 none, .advance 0 21]

/-- Employee 1 is put on leave, and logs in. -/
def returnOnLeave : List Event :=
  [.identity (.updateStatus 1 .onLeave), .identity (.advance 0),
    .identity (.session (.login 1 100)), .identity (.session (.advance 0 10 "token-a"))]

/-- Employee 1 leaves when the entry in the cache has run out, and the asset goes to
employee 2. -/
def orderly : List Event :=
  checked ++ [.identity (.session (.tick 300000))] ++ leave ++
    [.check 1, .advance 1 0, .advance 1 0, .advance 1 0, .assignAsset 20 2 none, .advance 2 21]

end Sample

open Sample in
/-- The answer of an earlier check is still in the cache after an approved offboarding; and a
role, a grant, an asset and, after a change to `on_leave`, a refresh token can be had
afterwards. -/
theorem not_holdsNothing :
    ¬ (∀ es, ∀ id ∈ (after es).gone, HoldsNothing (after es) id) ∧
    ¬ HoldsNothing (after (leave ++ assignRole)) 1 ∧
    ¬ HoldsNothing (after (leave ++ grantAccess)) 1 ∧
    ¬ HoldsNothing (after (leave ++ assignAsset)) 1 ∧
    ¬ HoldsNothing (after (leave ++ returnOnLeave)) 1 := by
  refine ⟨fun h => ?_, fun h => ?_, fun h => ?_, fun h => ?_, fun h => ?_⟩
  · have hcheck := (h (checked ++ leave) 1 (by decide)).check "asset.read" none none
    revert hcheck
    decide
  · exact h.roles ⟨9, 1, 5, .global, none, 2, none⟩ (by decide) rfl
  · exact h.grants ⟨31, 30, 1, .vpn, "vpn", 0, 28800000, none⟩ (by decide) rfl rfl
  · exact h.assets ⟨21, 20, 1, 0, none, none⟩ (by decide) rfl rfl
  · have htoken := h.tokens ⟨10, 1, Sessions.Sample.sha256 "token-a", 100, false, 604800000⟩
      (by decide) rfl
    cases htoken

/-- The guarantee for an employee who leaves when the entry in the cache has run out. -/
theorem run_holdsNothing_orderly :
    (Sample.after Sample.orderly).gone = [1] ∧
      ∀ id ∈ (Sample.after Sample.orderly).gone, HoldsNothing (Sample.after Sample.orderly) id := by
  refine ⟨by decide, ?_⟩
  refine run_holdsNothing Sessions.Sample.config Sample.tables 0 Sample.orderly ?_
  decide

end Leavers

end OpsHub
