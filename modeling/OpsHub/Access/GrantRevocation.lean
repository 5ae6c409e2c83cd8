import OpsHub.Access.ApprovedGrant
import OpsHub.Audit.AuditLogs
import OpsHub.Requests.FinalApprovals

/-!
# The end of access grants

`AccessRequestService.revokeGrant` reads a grant, updates it by its id, and records that, as its
handler does once more.  Offboardings revoke grants as well, and every other call of the service
and of the engine goes on meanwhile.

* `listActiveGrants`, `revokeCheck`, `RevokeCall`: the query, and the statements of a revocation;
* `GrantState`, `step`: any calls in any order;
* `GrantsMove`: what a step can do to the grants;
* `GrantsAccounted`: grants stay as they were made; one that has ended never comes back; and each
  revocation has been asked for with the permission to, or comes from an approved offboarding;
* `grants_accounted`: so it is in every run;
* `always_first_iff`: the first revocation keeps its time exactly if no call revokes what has been
  revoked since its check; `revoked_since_check`: every check has found the grant in force.
-/

namespace OpsHub

/-! ### The source -/

namespace AccessRequestDrizzleRepository

/-- `findGrantById`. -/
def findGrantById (grantId : Uuid) (grants : Table AccessGrant.id) : Option AccessGrant :=
  grants.find grantId

/-- A revocation keeps the id. -/
theorem id_revoked (now : Time) (g : AccessGrant) :
    ({ g with revokedAt := some now } : AccessGrant).id = g.id := rfl

/-- `revokeGrant`. -/
def revokeGrant (grantId : Uuid) (now : Time) (grants : Table AccessGrant.id) :
    Table AccessGrant.id :=
  grants.update grantId (fun g => { g with revokedAt := some now }) (id_revoked now)

/-- What becomes of a grant in a revocation. -/
theorem mem_revokeGrant {grantId : Uuid} {now : Time} {grants : Table AccessGrant.id}
    {g : AccessGrant} (hg : g ∈ grants.rows) :
    (if g.id = grantId then { g with revokedAt := some now } else g) ∈
      (revokeGrant grantId now grants).rows :=
  Table.mem_update_of_mem hg

/-- The grant is in force. -/
def Active (now : Time) (g : AccessGrant) : Prop := g.revokedAt = none ∧ now < g.expiresAt

instance (now : Time) : DecidablePred (Active now) := fun g =>
  inferInstanceAs (Decidable (g.revokedAt = none ∧ now < g.expiresAt))

/-- `listActiveGrants`. -/
def listActiveGrants (granteeId : Uuid) (now : Time) (grants : Table AccessGrant.id) :
    List AccessGrant :=
  orderByDesc AccessGrant.grantedAt
    (grants.rows.filter fun g => decide (g.granteeId = granteeId ∧ Active now g))

theorem mem_listActiveGrants {granteeId : Uuid} {now : Time} {grants : Table AccessGrant.id}
    {g : AccessGrant} : g ∈ listActiveGrants granteeId now grants ↔
      g ∈ grants.rows ∧ g.granteeId = granteeId ∧ Active now g := by
  rw [listActiveGrants, orderByDesc, List.mem_insertionSort, List.mem_filter, decide_eq_true_iff]

end AccessRequestDrizzleRepository

namespace AccessRequestService

open AccessRequestDrizzleRepository

/-- `revokeGrant`, up to its update. -/
def revokeCheck (grantId : Uuid) (grants : Table AccessGrant.id) : Except Failure Unit := do
  let grant ← Outcome.orThrow (.notFound "ACCESS_GRANT_NOT_FOUND" "Grant not found")
    (findGrantById grantId grants)
  Outcome.require (grant.revokedAt = none)
    (.preconditionFailed "ACCESS_GRANT_NOT_ACTIVE" "Grant is already revoked")

/-- The audit entry of `revokeGrant`, and that of its handler. -/
def revokeEntry (action : String) (grantId : Uuid) (actor : Actor) : CreateAuditLogInput ℕ where
  actorId := some actor.sub
  actorEmail := some actor.email
  action := action
  resourceType := "access_grant"
  resourceId := some (toString grantId)

/-- A revocation that has passed its check. -/
inductive RevokeCall
  | update (grantId : Uuid) (actor : Actor)
  | record (grantId : Uuid) (actor : Actor)
  /-- `AccessRequestsController.revoke` records the revocation as well. -/
  | recordAgain (grantId : Uuid) (actor : Actor)
  deriving DecidableEq, Repr

/-! ### The machine -/

/-- The service with the engine behind it, the revocations, and their audit entries. -/
structure GrantState where
  service : TwoApprovals.State
  calls : List (Option RevokeCall) := []
  log : AuditLogs ℕ := Table.empty _

/-- A statement of a call; `view` is what `PolicyGuard` learns. -/
inductive GrantEvent
  | service (e : TwoApprovals.Event)
  /-- Requests of any type, offboardings among them. -/
  | engine (e : Concurrent.Event Payload)
  | revoke (grantId : Uuid) (actor : Actor) (view : AuthzView)
  | update (i : ℕ) (now : Time)
  | record (i : ℕ) (now : Time) (newId : Uuid) (ok : Bool)
  /-- A revocation ends with a failure. -/
  | fail (i : ℕ)

namespace GrantState

open RequestEngine
open Concurrent (Copied)

/-- No engine request, and no call in flight. -/
def initial (subscriptions : List WebhookSubscription) (tables : TxTables Tables) : GrantState where
  service := TwoApprovals.State.initial subscriptions tables

def grants (s : GrantState) : Table AccessGrant.id := s.service.tables.accessGrants

/-- The update of a revocation. -/
def update (s : GrantState) (i : ℕ) (now : Time) : GrantState :=
  match Pool.running s.calls i with
  | some (.update grantId actor) =>
    { s with
      service := s.service.withTables
        { s.service.tables with
          accessGrants := AccessRequestDrizzleRepository.revokeGrant grantId now s.grants }
      calls := s.calls.set i (some (.record grantId actor)) }
  | _ => s

/-- The audit entries of a revocation. -/
def record (s : GrantState) (i : ℕ) (now : Time) (newId : Uuid) (ok : Bool) : GrantState :=
  match Pool.running s.calls i with
  | some (.record grantId actor) =>
    { s with
      log := AuditService.record (revokeEntry "access_grant.revoked" grantId actor) now newId ok
        s.log
      calls := s.calls.set i (some (.recordAgain grantId actor)) }
  | some (.recordAgain grantId actor) =>
    { s with
      log := AuditService.record (revokeEntry "access_request.grant_revoked" grantId actor) now
        newId ok s.log
      calls := s.calls.set i none }
  | _ => s

/-- The state after a statement. -/
def step (s : GrantState) : GrantEvent → GrantState
  | .service e => { s with service := TwoApprovals.step s.service e }
  | .engine e =>
    { s with
      service := { s.service with
        engine := Concurrent.step moduleRegistry s.service.engine e } }
  | .revoke grantId actor view =>
    let checks : Except Failure Unit := do
      PolicyGuard.canActivate view (some "access_request.security_approve") actor
      revokeCheck grantId s.grants
    { s with calls := s.calls ++ [checks.toOption.map fun _ => .update grantId actor] }
  | .update i now => s.update i now
  | .record i now newId ok => s.record i now newId ok
  | .fail i => { s with calls := s.calls.set i none }

/-! ### What a step does to the grants -/

/-- The statement of an offboarding that revokes grants. -/
def leave (employeeId : Uuid) (now : Time) (grants : Table AccessGrant.id) : Table AccessGrant.id :=
  grants.updateWhere (fun g => decide (g.granteeId = employeeId ∧ g.revokedAt = none))
    (fun g => { g with revokedAt := some now }) (id_revoked now)

/-- What a call of the service or of the engine can do to the grants; `items` are the requests
afterwards. -/
inductive GrantsMove (items : Table (@RequestItem.id Payload))
    (grants grants' : Table AccessGrant.id) : Prop
  | quiet (h : grants' = grants)
  | granted {g : AccessGrant} (h : grants.insert g = some grants') (hactive : g.revokedAt = none)
  | left {r : RequestItem Payload} {p : OffboardingPayload} {now : Time} (hr : r ∈ items.rows)
      (hpayload : r.payload = .offboarding p) (happroved : r.status = .approved)
      (h : grants' = leave p.employeeId now grants)

section Engine

variable {s : Concurrent.State Payload Tables} {e : Concurrent.Event Payload}

/-- A hook of a request with the payload. -/
theorem grantsMove_hookEffect {payload : Payload} {approves : Bool} {env : HookEnv}
    {tables tables' : Tables} {items : Table (@RequestItem.id Payload)}
    (h : HookEffect env tables payload approves tables')
    (hr : approves = true → ∃ r ∈ items.rows, r.payload = payload ∧ r.status = .approved) :
    GrantsMove items tables.accessGrants tables'.accessGrants := by
  cases h with
  | accessApproved p approverId accessGrants hinsert => exact .granted hinsert rfl
  | offboarded p =>
    obtain ⟨r, hr, hpayload, happroved⟩ := hr rfl
    exact .left hr hpayload happroved rfl
  | _ => exact .quiet rfl

/-- **A step of the engine.** -/
theorem grantsMove_engine (h : Copied s) (e : Concurrent.Event Payload) :
    GrantsMove (Concurrent.step moduleRegistry s e).db.requestItems s.db.domain.accessGrants
      (Concurrent.step moduleRegistry s e).db.domain.accessGrants := by
  rcases Concurrent.step_cases moduleRegistry s e with ⟨hdb, -⟩ |
    ⟨⟨type, payload, actor, opts, now, newId, env, row, -, hs⟩, -⟩ |
    ⟨i, now, env, operation, request, delegation, view, -, hcommit⟩
  · exact .quiet (by rw [hdb])
  · exact .quiet (by rw [hs.domain fun typeDef hdef => onSubmit_eq_none hdef])
  · obtain ⟨row, htx⟩ := hcommit.tx
    obtain ⟨t, ht, htc, -⟩ := Concurrent.Operation.tx_ok htx
    obtain ⟨hook, hhook, hdomain⟩ := htc.hook
    rw [hdomain]
    refine grantsMove_hookEffect (hookEffect_of_transition ht hhook) fun happroves => ?_
    -- the request as it is stored then
    obtain ⟨stored, hstored, -, hpayload⟩ := h request hcommit.mem_copies
    obtain ⟨old, hold, rfl⟩ := htc.returned
    rw [ht.requestId_eq, hstored] at hold
    obtain rfl := Option.some.inj hold
    exact ⟨t.update stored, Table.mem_of_find htc.find_self,
      (ht.update_fixed stored).2.2.1.trans hpayload, (ht.approves_iff stored).1 happroves⟩

end Engine

/-- A review without engine request. -/
theorem grantsMove_legacy {items : Table (@RequestItem.id Payload)} (verdict : TwoApprovals.Verdict)
    (note : Option String) (actor : Actor) (request : AccessRequest) (now : Time) (env : HookEnv)
    (tables : Tables) : GrantsMove items tables.accessGrants
      (Outcome.commit tables
        (TwoApprovals.legacyTx verdict note actor request now env tables)).accessGrants := by
  refine Outcome.commit_induction
    (P := fun tables' : Tables => GrantsMove items tables.accessGrants tables'.accessGrants)
    (.quiet rfl) fun tables' h => ?_
  cases verdict with
  | approve =>
    simp only [TwoApprovals.legacyTx, legacyApprove, Except.bind_eq_ok_iff,
      Outcome.orThrow_eq_ok_iff, Except.pure_eq_ok_iff] at h
    obtain ⟨accessGrants, hins, rfl⟩ := h
    exact .granted hins rfl
  | reject =>
    obtain rfl := Except.ok.inj h
    exact .quiet rfl

/-- A statement of the service: one of the engine, or a write to its own tables. -/
theorem service_cases (s : TwoApprovals.State) (e : TwoApprovals.Event) :
    (∃ e', (TwoApprovals.step s e).engine = Concurrent.step moduleRegistry s.engine e') ∨
      ∃ tables, (TwoApprovals.step s e).engine = (s.withTables tables).engine ∧
        GrantsMove s.engine.db.requestItems s.tables.accessGrants tables.accessGrants := by
  have hsame : ∃ tables, s.engine = (s.withTables tables).engine ∧
      GrantsMove s.engine.db.requestItems s.tables.accessGrants tables.accessGrants :=
    ⟨s.tables, rfl, .quiet rfl⟩
  cases e with
  | create input actor now rowId =>
    simp only [TwoApprovals.step]
    cases hcreate : create input actor.sub rowId now s.tables with
    | error _ => exact Or.inr hsame
    | ok tables =>
      refine Or.inr ⟨tables, rfl, .quiet ?_⟩
      simp only [create, Except.bind_eq_ok_iff, Except.pure_eq_ok_iff] at hcreate
      obtain ⟨accessRequests, -, rfl⟩ := hcreate
      rfl
  | submitEngine i now engineId env =>
    simp only [TwoApprovals.step]
    split
    · rename_i rowId input actor hcall
      split
      · rename_i db item hsubmit
        refine Or.inl ⟨.submit "access_request" (enginePayload input actor.sub rowId) actor
          { expiresAt := some (now + 168 * msPerHour) } now engineId env, ?_⟩
        simp [Concurrent.step, hsubmit, Except.map, Outcome.commit]
      · exact Or.inr hsame
    · exact Or.inr hsame
  | backlink i =>
    simp only [TwoApprovals.step]
    split
    · exact Or.inr ⟨_, rfl, .quiet rfl⟩
    · exact Or.inr hsame
  | read requestId verdict note actor =>
    simp only [TwoApprovals.step]
    split
    · exact Or.inr hsame
    · exact Or.inr hsame
  | proceed i now env =>
    simp only [TwoApprovals.step]
    split
    · rename_i verdict note actor request hcall
      split
      · rename_i engineId hlinked
        exact Or.inl ⟨.read engineId (verdict.operation note actor), rfl⟩
      · exact Or.inr ⟨_, rfl, grantsMove_legacy verdict note actor request now env s.tables⟩
    · exact Or.inr hsame
  | check i view => exact Or.inl ⟨.check i view, rfl⟩
  | commit i now env => exact Or.inl ⟨.commit i now env, rfl⟩

section Steps

variable {s : GrantState} {e : GrantEvent} {g g' : AccessGrant}

/-- The statements of the service and the engine. -/
theorem service_step (h : Copied s.service.engine) (e : TwoApprovals.Event) :
    Copied (TwoApprovals.step s.service e).engine ∧
      GrantsMove (TwoApprovals.step s.service e).engine.db.requestItems s.grants
        (TwoApprovals.step s.service e).tables.accessGrants := by
  rcases service_cases s.service e with ⟨e', heq⟩ | ⟨tables, heq, hmove⟩
  · rw [TwoApprovals.State.tables, heq]
    exact ⟨Concurrent.copied_step moduleRegistry h e', grantsMove_engine h e'⟩
  · rw [TwoApprovals.State.tables, heq]
    exact ⟨h, hmove⟩

theorem copied_grantStep (h : Copied s.service.engine) (e : GrantEvent) :
    Copied (s.step e).service.engine := by
  cases e with
  | service e => exact (service_step h e).1
  | engine e => exact Concurrent.copied_step moduleRegistry h e
  | revoke grantId actor view => exact h
  | update i now =>
    simp only [step, update]
    split <;> exact h
  | record i now newId ok =>
    simp only [step, record]
    split <;> exact h
  | fail i => exact h

/-- **What a statement does to the grants.** -/
theorem step_cases (h : Copied s.service.engine) (e : GrantEvent) :
    ((∀ i now, e ≠ .update i now) ∧ GrantsMove (s.step e).service.engine.db.requestItems s.grants
        (s.step e).grants) ∨
      ∃ i now, e = .update i now ∧
        (((∀ grantId actor, Pool.running s.calls i ≠ some (.update grantId actor)) ∧
            (s.step e).grants = s.grants) ∨
          ∃ grantId actor, Pool.running s.calls i = some (.update grantId actor) ∧
            (s.step e).grants =
              AccessRequestDrizzleRepository.revokeGrant grantId now s.grants) := by
  cases e with
  | service e => exact Or.inl ⟨by simp, (service_step h e).2⟩
  | engine e => exact Or.inl ⟨by simp, grantsMove_engine h e⟩
  | revoke grantId actor view => exact Or.inl ⟨by simp, .quiet rfl⟩
  | update i now =>
    refine Or.inr ⟨i, now, rfl, ?_⟩
    simp only [step, update]
    split
    · rename_i grantId actor hrun
      exact Or.inr ⟨grantId, actor, hrun, rfl⟩
    · rename_i hrun
      exact Or.inl ⟨hrun, rfl⟩
  | record i now newId ok =>
    refine Or.inl ⟨by simp, .quiet ?_⟩
    simp only [step, record]
    split <;> rfl
  | fail i => exact Or.inl ⟨by simp, .quiet rfl⟩

/-! ### Grants over time -/

/-- What has become of a grant. -/
structure Later (g g' : AccessGrant) : Prop where
  same : { g' with revokedAt := none } = { g with revokedAt := none }
  revoked : g.revokedAt ≠ none → g'.revokedAt ≠ none

theorem Later.refl (g : AccessGrant) : Later g g := ⟨rfl, id⟩

theorem Later.trans {g'' : AccessGrant} (h : Later g g') (h' : Later g' g'') : Later g g'' :=
  ⟨h'.same.trans h.same, fun hg => h'.revoked (h.revoked hg)⟩

theorem Later.id_eq (h : Later g g') : g'.id = g.id := (congrArg AccessGrant.id h.same :)

theorem Later.grantee_eq (h : Later g g') : g'.granteeId = g.granteeId :=
  (congrArg AccessGrant.granteeId h.same :)

/-- A revocation. -/
theorem later_revoke (g : AccessGrant) (now : Time) : Later g { g with revokedAt := some now } :=
  ⟨rfl, fun _ => Option.some_ne_none now⟩

/-- What has ended stays so. -/
theorem Later.not_active (h : Later g g') {t t' : Time} (ht : t ≤ t')
    (hended : ¬ AccessRequestDrizzleRepository.Active t g) :
    ¬ AccessRequestDrizzleRepository.Active t' g' := by
  rintro ⟨hnone, hexpires⟩
  have hexpiry : g'.expiresAt = g.expiresAt := (congrArg AccessGrant.expiresAt h.same :)
  refine hended ⟨?_, ?_⟩
  · by_contra hne
    exact h.revoked hne hnone
  · rw [← hexpiry]
    exact Nat.lt_of_le_of_lt ht hexpires

/-- Why a grant is revoked after a statement. -/
inductive Cause (s : GrantState) (e : GrantEvent) (g' : AccessGrant) : Prop
  /-- It was revoked before. -/
  | before {g : AccessGrant} (hg : g ∈ s.grants.rows) (hlater : Later g g')
      (hrevoked : g.revokedAt ≠ none)
  | asked {i : ℕ} {actor : Actor} (hrun : Pool.running s.calls i = some (.update g'.id actor))
  | left {r : RequestItem Payload} {p : OffboardingPayload}
      (hr : r ∈ (s.step e).service.engine.db.requestItems.rows)
      (hpayload : r.payload = .offboarding p) (happroved : r.status = .approved)
      (hgrantee : p.employeeId = g'.granteeId)

/-- Grants stay. -/
theorem later_step (h : Copied s.service.engine) (e : GrantEvent) (hg : g ∈ s.grants.rows) :
    ∃ g' ∈ (s.step e).grants.rows, Later g g' := by
  rcases step_cases h e with ⟨-, hmove⟩ | ⟨i, now, rfl, ⟨-, heq⟩ | ⟨grantId, actor, -, heq⟩⟩
  · cases hmove with
    | quiet heq => exact ⟨g, heq ▸ hg, Later.refl g⟩
    | granted hins => exact ⟨g, (Table.mem_insert hins).2 (Or.inl hg), Later.refl g⟩
    | left hr hpayload happroved heq =>
      rw [heq]
      refine ⟨_, Table.mem_updateWhere.2 ⟨g, hg, rfl⟩, ?_⟩
      split
      · exact later_revoke g _
      · exact Later.refl g
  · exact ⟨g, heq ▸ hg, Later.refl g⟩
  · rw [heq]
    refine ⟨_, AccessRequestDrizzleRepository.mem_revokeGrant hg, ?_⟩
    split
    · exact later_revoke g now
    · exact Later.refl g

/-- **A revoked grant** was revoked before, or this statement has revoked it. -/
theorem cause_step (h : Copied s.service.engine) (e : GrantEvent)
    (hg' : g' ∈ (s.step e).grants.rows) (hrevoked : g'.revokedAt ≠ none) : Cause s e g' := by
  rcases step_cases h e with ⟨-, hmove⟩ | ⟨i, now, rfl, ⟨-, heq⟩ | ⟨grantId, actor, hrun, heq⟩⟩
  · cases hmove with
    | quiet heq => exact .before (heq ▸ hg') (Later.refl g') hrevoked
    | granted hins hactive =>
      rcases (Table.mem_insert hins).1 hg' with hg | rfl
      · exact .before hg (Later.refl g') hrevoked
      · exact absurd hactive hrevoked
    | @left r p now hr hpayload happroved heq =>
      rw [heq] at hg'
      obtain ⟨g, hg, rfl⟩ := Table.mem_updateWhere.1 hg'
      by_cases hmatch : g.granteeId = p.employeeId ∧ g.revokedAt = none
      · rw [if_pos (decide_eq_true hmatch)]
        exact .left hr hpayload happroved hmatch.1.symm
      · rw [if_neg (by simpa using hmatch)] at hrevoked ⊢
        exact .before hg (Later.refl g) hrevoked
  · exact .before (heq ▸ hg') (Later.refl g') hrevoked
  · rw [heq] at hg'
    rcases Table.mem_update hg' with ⟨g, hg, rfl⟩ | ⟨hg, -⟩
    · have hid : g.id = grantId := Table.key_of_find hg
      subst hid
      exact .asked hrun
    · exact .before hg (Later.refl g') hrevoked

end Steps

/-! ### Runs -/

/-- The actor has asked for the revocation, with the permission to. -/
def Asked (es : List GrantEvent) (grantId : Uuid) (actor : Actor) : Prop :=
  ∃ view, .revoke grantId actor view ∈ es ∧
    view.check actor.sub "access_request.security_approve" = true

/-- The grant has been revoked. -/
def Revoked (s : GrantState) (grantId : Uuid) : Prop :=
  ∃ g ∈ s.grants.rows, g.id = grantId ∧ g.revokedAt ≠ none

/-- Why a grant is revoked after the statements `es`. -/
inductive Reason (start : GrantState) (es : List GrantEvent) (g : AccessGrant) : Prop
  | before (h : start.Revoked g.id)
  | asked {actor : Actor} (h : Asked es g.id actor)
  /-- An offboarding of the grantee had been approved. -/
  | left {fs : List GrantEvent} {r : RequestItem Payload} {p : OffboardingPayload} (hfs : fs <+: es)
      (hr : r ∈ (Runs.run step start fs).service.engine.db.requestItems.rows)
      (hpayload : r.payload = .offboarding p) (happroved : r.status = .approved)
      (hgrantee : p.employeeId = g.granteeId)

/-- A revocation in flight has been asked for; after its update the grant is revoked. -/
def CallKept (es : List GrantEvent) (s : GrantState) : RevokeCall → Prop
  | .update grantId actor => Asked es grantId actor ∧ ∃ g ∈ s.grants.rows, g.id = grantId
  | .record grantId actor => Asked es grantId actor ∧ s.Revoked grantId
  | .recordAgain grantId actor => Asked es grantId actor ∧ s.Revoked grantId

/-- An audit entry is one of a revocation that has been asked for, and made. -/
def Audited (es : List GrantEvent) (s : GrantState) (r : AuditLog ℕ) : Prop :=
  ∃ action ∈ ["access_grant.revoked", "access_request.grant_revoked"], ∃ grantId actor,
    r = AuditDrizzleRepository.newLog (revokeEntry action grantId actor) r.occurredAt r.id ∧
      Asked es grantId actor ∧ s.Revoked grantId

/-- The invariant after the statements `es`. -/
structure Kept (start : GrantState) (es : List GrantEvent) (s : GrantState) : Prop where
  copied : Copied s.service.engine
  calls : ∀ call, some call ∈ s.calls → CallKept es s call
  reasons : ∀ g ∈ s.grants.rows, g.revokedAt ≠ none → Reason start es g
  audited : ∀ r ∈ s.log.rows, Audited es s r

section Run

variable {start s : GrantState} {es : List GrantEvent} {e : GrantEvent} {g g' : AccessGrant}
  {grantId : Uuid} {actor : Actor}

theorem Asked.append (h : Asked es grantId actor) (e : GrantEvent) :
    Asked (es ++ [e]) grantId actor := by
  obtain ⟨view, hmem, hcheck⟩ := h
  exact ⟨view, List.mem_append_left _ hmem, hcheck⟩

theorem Revoked.step (h : s.Revoked grantId) (hcopied : Copied s.service.engine) (e : GrantEvent) :
    (s.step e).Revoked grantId := by
  obtain ⟨g, hg, rfl, hrevoked⟩ := h
  obtain ⟨g', hg', hlater⟩ := later_step hcopied e hg
  exact ⟨g', hg', hlater.id_eq, hlater.revoked hrevoked⟩

/-- A reason is one for what becomes of the grant, too. -/
theorem Reason.later (h : Reason start es g) (hlater : Later g g') (e : GrantEvent) :
    Reason start (es ++ [e]) g' := by
  cases h with
  | before h => exact .before (hlater.id_eq.symm ▸ h)
  | asked h => exact .asked (hlater.id_eq.symm ▸ h.append e)
  | left hfs hr hpayload happroved hgrantee =>
    exact .left (hfs.trans (List.prefix_append es [e])) hr hpayload happroved
      (hgrantee.trans hlater.grantee_eq.symm)

/-- What guard and check have let through. -/
theorem mem_calls_revoke {view : AuthzView} {call : RevokeCall}
    (h : some call ∈ (s.step (.revoke grantId actor view)).calls) :
    some call ∈ s.calls ∨ call = .update grantId actor ∧
      view.check actor.sub "access_request.security_approve" = true ∧
      ∃ g, s.grants.find grantId = some g ∧ g.revokedAt = none := by
  rcases List.mem_append.1 h with h | h
  · exact Or.inl h
  · obtain ⟨_, hchecks, rfl⟩ := Option.map_eq_some_iff.1 (List.mem_singleton.1 h).symm
    have hok := Except.toOption_eq_some_iff.1 hchecks
    simp only [PolicyGuard.canActivate, revokeCheck, AccessRequestDrizzleRepository.findGrantById,
      Except.bind_eq_ok_iff, Outcome.require_eq_ok_iff, Outcome.orThrow_eq_ok_iff] at hok
    obtain ⟨-, hcheck, g, hg, hnone⟩ := hok
    exact Or.inr ⟨rfl, hcheck, g, hg, hnone⟩

/-- A call goes on as one that has been asked for, across any statement. -/
theorem CallKept.step {call : RevokeCall} (h : CallKept es s call)
    (hcopied : Copied s.service.engine) (e : GrantEvent) :
    CallKept (es ++ [e]) (s.step e) call := by
  cases call with
  | update grantId actor =>
    obtain ⟨hasked, g, hg, rfl⟩ := h
    obtain ⟨g', hg', hlater⟩ := later_step hcopied e hg
    exact ⟨hasked.append e, g', hg', hlater.id_eq⟩
  | record grantId actor => exact ⟨h.1.append e, h.2.step hcopied e⟩
  | recordAgain grantId actor => exact ⟨h.1.append e, h.2.step hcopied e⟩

/-- The update of a call revokes its grant. -/
theorem revoked_update {i : ℕ} {now : Time}
    (hrun : Pool.running s.calls i = some (.update grantId actor))
    (hg : ∃ g ∈ s.grants.rows, g.id = grantId) : (s.step (.update i now)).Revoked grantId := by
  obtain ⟨g, hg, rfl⟩ := hg
  have hgrants : (s.step (.update i now)).grants =
      AccessRequestDrizzleRepository.revokeGrant g.id now s.grants := by
    simp only [GrantState.step, update, hrun]
    rfl
  refine ⟨{ g with revokedAt := some now }, ?_, rfl, Option.some_ne_none now⟩
  have hmem : (if g.id = g.id then { g with revokedAt := some now } else g) ∈
      (AccessRequestDrizzleRepository.revokeGrant g.id now s.grants).rows :=
    AccessRequestDrizzleRepository.mem_revokeGrant hg
  rw [hgrants]
  rwa [if_pos rfl] at hmem

theorem calls_step (h : Kept start es s) (e : GrantEvent) {call : RevokeCall}
    (hcall : some call ∈ (s.step e).calls) : CallKept (es ++ [e]) (s.step e) call := by
  have hold : ∀ call, some call ∈ s.calls → CallKept (es ++ [e]) (s.step e) call :=
    fun call hcall => (h.calls call hcall).step h.copied e
  cases e with
  | service e => exact hold call hcall
  | engine e => exact hold call hcall
  | revoke grantId actor view =>
    rcases mem_calls_revoke hcall with hcall | ⟨rfl, hcheck, g, hg, -⟩
    · exact hold call hcall
    · exact ⟨⟨view, List.mem_append_right _ (List.mem_singleton.2 rfl), hcheck⟩, g,
        Table.mem_of_find hg, Table.key_of_find hg⟩
  | update i now =>
    simp only [GrantState.step, update] at hcall
    split at hcall
    · rename_i grantId actor hrun
      rcases List.mem_or_eq_of_mem_set hcall with hcall | hcall
      · exact hold call hcall
      · obtain rfl := Option.some.inj hcall
        obtain ⟨hasked, hg⟩ := h.calls _ (Pool.mem_of_running hrun)
        exact ⟨hasked.append _, revoked_update hrun hg⟩
    · exact hold call hcall
  | record i now newId ok =>
    simp only [GrantState.step, record] at hcall
    split at hcall
    · rename_i grantId actor hrun
      rcases List.mem_or_eq_of_mem_set hcall with hcall | hcall
      · exact hold call hcall
      · obtain rfl := Option.some.inj hcall
        exact hold (.record grantId actor) (Pool.mem_of_running hrun)
    · rcases List.mem_or_eq_of_mem_set hcall with hcall | hcall
      · exact hold call hcall
      · cases hcall
    · exact hold call hcall
  | fail i =>
    rcases List.mem_or_eq_of_mem_set hcall with hcall | hcall
    · exact hold call hcall
    · cases hcall

/-- An entry was there before, or tells of a call that has made its update. -/
theorem audited_step (h : Kept start es s) (e : GrantEvent) {r : AuditLog ℕ}
    (hr : r ∈ (s.step e).log.rows) : Audited (es ++ [e]) (s.step e) r := by
  have hold : r ∈ s.log.rows → Audited (es ++ [e]) (s.step e) r := by
    intro hr
    obtain ⟨action, haction, grantId, actor, heq, hasked, hrevoked⟩ := h.audited r hr
    exact ⟨action, haction, grantId, actor, heq, hasked.append e, hrevoked.step h.copied e⟩
  cases e with
  | record i now newId ok =>
    simp only [GrantState.step, record] at hr
    split at hr
    · rename_i grantId actor hrun
      rcases AuditService.mem_record hr with hr | rfl
      · exact hold hr
      · obtain ⟨hasked, hrevoked⟩ := h.calls _ (Pool.mem_of_running hrun)
        exact ⟨_, List.mem_cons_self, grantId, actor, rfl, hasked.append _,
          hrevoked.step h.copied _⟩
    · rename_i grantId actor hrun
      rcases AuditService.mem_record hr with hr | rfl
      · exact hold hr
      · obtain ⟨hasked, hrevoked⟩ := h.calls _ (Pool.mem_of_running hrun)
        exact ⟨_, List.mem_cons_of_mem _ List.mem_cons_self, grantId, actor, rfl, hasked.append _,
          hrevoked.step h.copied _⟩
    · exact hold hr
  | service e => exact hold hr
  | engine e => exact hold hr
  | revoke grantId actor view => exact hold hr
  | update i now =>
    simp only [GrantState.step, update] at hr
    split at hr <;> exact hold hr
  | fail i => exact hold hr

/-- **The step lemma**, for a run from `start`. -/
theorem kept_step (h : Kept start es (Runs.run step start es)) (e : GrantEvent) :
    Kept start (es ++ [e]) (Runs.run step start (es ++ [e])) := by
  have hrun : Runs.run step start (es ++ [e]) = (Runs.run step start es).step e := by
    rw [Runs.run_append]
    rfl
  refine ⟨?_, fun call hcall => ?_, fun g hg hrevoked => ?_, fun r hr => ?_⟩
  · rw [hrun]
    exact copied_grantStep h.copied e
  · rw [hrun] at hcall ⊢
    exact calls_step h e hcall
  · rw [hrun] at hg
    cases cause_step h.copied e hg hrevoked with
    | before hg hlater hrevoked => exact (h.reasons _ hg hrevoked).later hlater e
    | asked hcall => exact .asked ((h.calls _ (Pool.mem_of_running hcall)).1.append e)
    | left hr hpayload happroved hgrantee =>
      rw [← hrun] at hr
      exact .left (List.prefix_refl _) hr hpayload happroved hgrantee
  · rw [hrun] at hr ⊢
    exact audited_step h e hr

theorem kept_initial (subscriptions : List WebhookSubscription) (tables : TxTables Tables) :
    Kept (initial subscriptions tables) [] (initial subscriptions tables) where
  copied _ hc := by cases hc
  calls _ hcall := by cases hcall
  reasons g hg hrevoked := .before ⟨g, hg, rfl, hrevoked⟩
  audited _ hr := by cases hr

theorem kept_run (subscriptions : List WebhookSubscription) (tables : TxTables Tables)
    (es : List GrantEvent) : Kept (initial subscriptions tables) es
      (Runs.run step (initial subscriptions tables) es) := by
  induction es using List.reverseRecOn with
  | nil => exact kept_initial subscriptions tables
  | append_singleton es e ih => exact kept_step ih e

/-- Grants stay, as they were made; one that is not in force never is again; those that are revoked
have been revoked with the permission to, or by an offboarding; and so tell the audit entries. -/
structure GrantsAccounted (start : GrantState) (es : List GrantEvent) (s : GrantState) : Prop where
  kept : ∀ fs, fs <+: es → ∀ g ∈ (Runs.run step start fs).grants.rows,
    ∃ g' ∈ s.grants.rows, Later g g'
  ended : ∀ fs, fs <+: es → ∀ g ∈ (Runs.run step start fs).grants.rows, ∀ t t', t ≤ t' →
    g ∉ AccessRequestDrizzleRepository.listActiveGrants g.granteeId t
        (Runs.run step start fs).grants →
      ∀ userId, ∀ g' ∈ AccessRequestDrizzleRepository.listActiveGrants userId t' s.grants,
        g'.id ≠ g.id
  reasons : ∀ g ∈ s.grants.rows, g.revokedAt ≠ none → Reason start es g
  audited : ∀ r ∈ s.log.rows, Audited es s r

/-- **The end of grants**, in every order of the statements of all calls. -/
theorem grants_accounted (subscriptions : List WebhookSubscription) (tables : TxTables Tables)
    (es : List GrantEvent) : GrantsAccounted (initial subscriptions tables) es
      (Runs.run step (initial subscriptions tables) es) := by
  have hkept := kept_run subscriptions tables es
  have hlater : ∀ fs, fs <+: es →
      ∀ g ∈ (Runs.run step (initial subscriptions tables) fs).grants.rows,
        ∃ g' ∈ (Runs.run step (initial subscriptions tables) es).grants.rows, Later g g' := by
    rintro fs ⟨gs, rfl⟩ g hg
    rw [Runs.run_append]
    have hstep : ∀ (s : GrantState) e, Copied s.service.engine →
        (∃ g' ∈ s.grants.rows, Later g g') → ∃ g' ∈ (s.step e).grants.rows, Later g g' := by
      rintro s e hcopied ⟨g', hg', hlater⟩
      obtain ⟨g'', hg'', hlater'⟩ := later_step hcopied e hg'
      exact ⟨g'', hg'', hlater.trans hlater'⟩
    exact Runs.run_invariant_within (fun _ e h => copied_grantStep h e) hstep
      (kept_run subscriptions tables fs).copied ⟨g, hg, Later.refl g⟩ gs
  refine ⟨hlater, ?_, hkept.reasons, hkept.audited⟩
  intro fs hfs g hg t t' ht hended userId g' hg' hid
  rw [AccessRequestDrizzleRepository.mem_listActiveGrants] at hended hg'
  obtain ⟨g'', hg'', hsame⟩ := hlater fs hfs g hg
  obtain rfl := Table.eq_of_key_eq _ hg'' hg'.1 (hsame.id_eq.trans hid.symm)
  exact hsame.not_active ht (fun hactive => hended ⟨hg, rfl, hactive⟩) hg'.2.2

end Run

/-! ### The time of the first revocation -/

/-- What is revoked in `s` is revoked in `s'`, since the same time. -/
def FirstKept (s s' : GrantState) : Prop :=
  ∀ g ∈ s.grants.rows, ∀ t ∈ g.revokedAt,
    ∃ g' ∈ s'.grants.rows, g'.id = g.id ∧ g'.revokedAt = some t

/-- A call that finds its grant revoked writes the same time. -/
def RevokesFirst (s : GrantState) : GrantEvent → Prop
  | .update i now => ∀ grantId actor, Pool.running s.calls i = some (.update grantId actor) →
      ∀ g, s.grants.find grantId = some g → ∀ t ∈ g.revokedAt, now = t
  | _ => True

section First

variable {s s' s'' : GrantState}

theorem firstKept_refl (s : GrantState) : FirstKept s s := fun g hg _ ht => ⟨g, hg, rfl, ht⟩

theorem FirstKept.trans (h : FirstKept s s') (h' : FirstKept s' s'') : FirstKept s s'' := by
  intro g hg t ht
  obtain ⟨g', hg', hid, ht'⟩ := h g hg t ht
  obtain ⟨g'', hg'', hid', ht''⟩ := h' g' hg' t ht'
  exact ⟨g'', hg'', hid'.trans hid, ht''⟩

/-- Calls of the service and the engine leave revoked grants alone. -/
theorem firstKept_move {items : Table (@RequestItem.id Payload)}
    (h : GrantsMove items s.grants s'.grants) : FirstKept s s' := by
  intro g hg t ht
  cases h with
  | quiet heq => exact ⟨g, heq ▸ hg, rfl, ht⟩
  | granted hins => exact ⟨g, (Table.mem_insert hins).2 (Or.inl hg), rfl, ht⟩
  | left hr hpayload happroved heq =>
    refine ⟨g, ?_, rfl, ht⟩
    rw [heq]
    refine Table.mem_updateWhere.2 ⟨g, hg, ?_⟩
    rw [if_neg]
    rw [decide_eq_true_iff]
    rintro ⟨-, hnone⟩
    rw [hnone] at ht
    cases ht

theorem firstKept_step_iff (h : Copied s.service.engine) (e : GrantEvent) :
    FirstKept s (s.step e) ↔ s.RevokesFirst e := by
  rcases step_cases h e with ⟨hne, hmove⟩ |
    ⟨i, now, rfl, ⟨hnone, heq⟩ | ⟨grantId, actor, hrun, heq⟩⟩
  · refine iff_of_true (firstKept_move hmove) ?_
    cases e with
    | update i now => exact absurd rfl (hne i now)
    | _ => trivial
  · refine iff_of_true (fun g hg t ht => ⟨g, heq ▸ hg, rfl, ht⟩) ?_
    exact fun grantId actor hrun => absurd hrun (hnone grantId actor)
  · constructor
    · intro hkept grantId' actor' hrun' g hg t ht
      cases Option.some.inj (hrun.symm.trans hrun')
      obtain ⟨g', hg', hid, ht'⟩ := hkept g (Table.mem_of_find hg) t ht
      rw [heq] at hg'
      -- the row that has been written is the one that was found
      rcases Table.mem_update hg' with ⟨old, -, rfl⟩ | ⟨-, hne⟩
      · exact Option.some.inj ht'
      · exact absurd (hid.trans (Table.key_of_find hg)) hne
    · intro hfirst g hg t ht
      refine ⟨_, heq ▸ AccessRequestDrizzleRepository.mem_revokeGrant hg, ?_⟩
      by_cases hid : g.id = grantId
      · rw [if_pos hid, hfirst grantId actor hrun g (Table.find_eq_some_iff.2 ⟨hg, hid⟩) t ht]
        exact ⟨rfl, rfl⟩
      · rw [if_neg hid]
        exact ⟨rfl, ht⟩

/-- A call that is to update a grant is an older one, or its check has found the grant in force. -/
theorem update_mem_calls {e : GrantEvent} {grantId : Uuid} {actor : Actor}
    (h : some (.update grantId actor) ∈ (s.step e).calls) :
    some (.update grantId actor) ∈ s.calls ∨ (∃ view, e = .revoke grantId actor view) ∧
      ∃ g, s.grants.find grantId = some g ∧ g.revokedAt = none := by
  cases e with
  | service e => exact Or.inl h
  | engine e => exact Or.inl h
  | revoke grantId' actor' view =>
    rcases mem_calls_revoke h with h | ⟨heq, -, hg⟩
    · exact Or.inl h
    · cases heq
      exact Or.inr ⟨⟨view, rfl⟩, hg⟩
  | update i now =>
    simp only [GrantState.step, update] at h
    split at h
    · rcases List.mem_or_eq_of_mem_set h with h | h
      · exact Or.inl h
      · cases h
    · exact Or.inl h
  | record i now newId ok =>
    simp only [GrantState.step, record] at h
    split at h
    · rcases List.mem_or_eq_of_mem_set h with h | h
      · exact Or.inl h
      · cases h
    · rcases List.mem_or_eq_of_mem_set h with h | h
      · exact Or.inl h
      · cases h
    · exact Or.inl h
  | fail i =>
    rcases List.mem_or_eq_of_mem_set h with h | h
    · exact Or.inl h
    · cases h

/-- What the check of a call has found. -/
theorem check_found (subscriptions : List WebhookSubscription) (tables : TxTables Tables)
    {es : List GrantEvent} {grantId : Uuid} {actor : Actor}
    (h : some (.update grantId actor) ∈ (Runs.run step (initial subscriptions tables) es).calls) :
    ∃ fs view g, fs ++ [.revoke grantId actor view] <+: es ∧
      (Runs.run step (initial subscriptions tables) fs).grants.find grantId = some g ∧
        g.revokedAt = none := by
  induction es using List.reverseRecOn with
  | nil => cases h
  | append_singleton es e ih =>
    rw [Runs.run_append] at h
    rcases update_mem_calls h with h | ⟨⟨view, rfl⟩, g, hg, hnone⟩
    · obtain ⟨fs, view, g, hfs, hg⟩ := ih h
      exact ⟨fs, view, g, hfs.trans (List.prefix_append es [e]), hg⟩
    · exact ⟨es, view, g, List.prefix_rfl, hg, hnone⟩

/-- A call that misses the condition updates a grant that has been revoked since its check. -/
theorem revoked_since_check (subscriptions : List WebhookSubscription) (tables : TxTables Tables)
    {es : List GrantEvent} {e : GrantEvent}
    (h : ¬ (Runs.run step (initial subscriptions tables) es).RevokesFirst e) :
    ∃ fs grantId actor view g g', fs ++ [.revoke grantId actor view] <+: es ∧
      (Runs.run step (initial subscriptions tables) fs).grants.find grantId = some g ∧
        g.revokedAt = none ∧
      (Runs.run step (initial subscriptions tables) es).grants.find grantId = some g' ∧
        g'.revokedAt ≠ none := by
  cases e with
  | update i now =>
    simp only [RevokesFirst, not_forall] at h
    obtain ⟨grantId, actor, hrun, g', hg', t, ht, -⟩ := h
    obtain ⟨fs, view, g, hfs, hg, hnone⟩ :=
      check_found subscriptions tables (Pool.mem_of_running hrun)
    refine ⟨fs, grantId, actor, view, g, g', hfs, hg, hnone, hg', fun hnone' => ?_⟩
    rw [hnone'] at ht
    cases ht
  | _ => exact absurd trivial h

/-- **The time of a revocation** stands in a run exactly if no call writes another one to a grant
that has been revoked since its check. -/
theorem always_first_iff (subscriptions : List WebhookSubscription) (tables : TxTables Tables)
    (es : List GrantEvent) :
    (∀ fs gs, fs <+: gs → gs <+: es →
      FirstKept (Runs.run step (initial subscriptions tables) fs)
        (Runs.run step (initial subscriptions tables) gs)) ↔
      Runs.Meets step RevokesFirst (initial subscriptions tables) es := by
  have hstep : ∀ (s : GrantState) e, Copied s.service.engine →
      (Copied (s.step e).service.engine ∧ FirstKept s (s.step e) ↔ s.RevokesFirst e) :=
    fun s e h => (and_iff_right (copied_grantStep h e)).trans (firstKept_step_iff h e)
  have hstates : ∀ fs, fs <+: es →
      Copied (Runs.run step (initial subscriptions tables) fs).service.engine :=
    fun fs _ => (kept_run subscriptions tables fs).copied
  refine Iff.trans (and_iff_right hstates).symm ?_
  exact Runs.always_related_iff_meets firstKept_refl (fun _ _ _ => FirstKept.trans) hstep
    (kept_initial subscriptions tables).copied

end First

/-! ### Two revocations of one grant -/

namespace TwiceRevoked

/-- User 1 has a grant for a day. -/
def tables : TxTables Tables where
  notificationOutbox := []
  domain := { Tables.empty with
    accessGrants :=
      { rows := [⟨7, 6, 1, .vpn, "office", 0, 86400000, none⟩]
        nodup := by simp } }

/-- Whoever has the permission. -/
def view : AuthzView where
  check user permission := decide (user = 2 ∧ permission = "access_request.security_approve")
  delegations := []
  now := 0

/-- Two revocations have passed their checks when the first of them is made. -/
def events : List GrantEvent :=
  [.revoke 7 ⟨2, "user2@example.com"⟩ view, .revoke 7 ⟨2, "user2@example.com"⟩ view, .update 0 10]

end TwiceRevoked

/-- The other one takes the place of the first. -/
theorem not_firstKept :
    ¬ FirstKept (Runs.run step (initial [] TwiceRevoked.tables) TwiceRevoked.events)
      (Runs.run step (initial [] TwiceRevoked.tables)
        (TwiceRevoked.events ++ [.update 1 20])) := by
  intro h
  obtain ⟨g', hg', -, ht⟩ := h _ (List.mem_singleton.2 rfl) 10 (by decide)
  obtain rfl := List.mem_singleton.1 hg'
  exact absurd ht (by decide)

end GrantState

end AccessRequestService

end OpsHub
