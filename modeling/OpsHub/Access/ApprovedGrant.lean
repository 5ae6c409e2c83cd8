import OpsHub.Domain.ServicesInStep
import OpsHub.Domain.Ownership
import OpsHub.Access.TwoApprovals
import OpsHub.Ai.AiService

/-!
# The grant that an approval returns

`AccessRequestService.approve` lets the engine decide and then selects the latest grant of the
request, which it returns as if there always were one.  The calls of `InStep` lead to the states.

* `approveGrant`, `AccessRequestsController.approve`: the call to its end, and its handler;
* `Booked`: requests, payloads and grants belong together, in every reachable state;
* `ReturnsGrant`: what a call should return, and that its handler fails only if nothing has
  changed;
* `returnsGrant_iff`: it does exactly if the engine request does not wait on its first step.
-/

namespace OpsHub

open RequestEngine

/-! ### The call and its handler -/

namespace AccessRequestService

/-- The row that `approve` selects at its end. -/
def latestGrant (tables : Tables) (requestId : Uuid) : Option AccessGrant :=
  (limitRows (some 1) (orderByDesc AccessGrant.grantedAt
    (tables.accessGrants.rows.filter (fun g => decide (g.requestId = requestId))))).head?

/-- `approve` to its end; the row it returns is `undefined` if none has been found. -/
def approveGrant (view : AuthzView) (requestId : Uuid) (note : Option String) (actor : Actor)
    (now : Time) (env : HookEnv) (db : Db Payload Tables) :
    Except Failure (Db Payload Tables × Option AccessGrant) := do
  let db' ← approve view requestId note actor now env db
  pure (db', latestGrant db'.domain requestId)

end AccessRequestService

/-- `AccessGrantResponseDto`. -/
structure AccessGrantResponseDto where
  id : Uuid
  requestId : Uuid
  granteeId : Uuid
  accessType : AccessType
  target : String
  grantedAt : String
  expiresAt : String
  revokedAt : Option String
  deriving DecidableEq, Repr

namespace AccessRequestsController

variable (toISOString : Time → String)

/-- `toGrantDto`. -/
def toGrantDto (g : AccessGrant) : AccessGrantResponseDto where
  id := g.id
  requestId := g.requestId
  granteeId := g.granteeId
  accessType := g.accessType
  target := g.target
  grantedAt := toISOString g.grantedAt
  expiresAt := toISOString g.expiresAt
  revokedAt := g.revokedAt.map toISOString

/-- `approve`, with its guard: the answer, and the database afterwards.  The audit entry reads
`grant.id` first. -/
def approve (view : AuthzView) (id : Uuid) (note : Option String) (actor : Actor) (now : Time)
    (env : HookEnv) (db : Db Payload Tables) :
    Except Failure AccessGrantResponseDto × Db Payload Tables :=
  match (do
      PolicyGuard.canActivate view (some "access_request.security_approve") actor
      AccessRequestService.approveGrant view id note actor now env db : Except Failure _) with
  | .error failure => (.error failure, db)
  | .ok (db', some grant) => (.ok (toGrantDto toISOString grant), db')
  | .ok (db', none) => (.error (.error "Cannot read properties of undefined (reading 'id')"), db')

end AccessRequestsController

namespace ApprovedGrant

/-! ### What belongs together -/

/-- A grant as the request `a` asks for it. -/
structure GrantOf (a : AccessRequest) (g : AccessGrant) : Prop where
  request : g.requestId = a.id
  grantee : g.granteeId = a.requesterId
  duration : g.expiresAt = g.grantedAt + a.durationHours * msPerHour

/-- A payload that asks for what the request `a` asks for. -/
structure PayloadOf (a : AccessRequest) (p : AccessRequestPayload) : Prop where
  request : p.accessRequestId = a.id
  requester : p.requesterId = a.requesterId
  duration : p.durationHours = a.durationHours

/-- A grant of a request that is not pending any more. -/
def Granted (requests : Table AccessRequest.id) (g : AccessGrant) : Prop :=
  ∃ a ∈ requests.rows, a.status ≠ .pending ∧ GrantOf a g

/-- Requests, engine requests and grants belong together. -/
structure Booked (db : Db Payload Tables) : Prop where
  typed : ∀ r ∈ db.requestItems.rows, r.type = r.payload.type
  payloads : ∀ r ∈ db.requestItems.rows, ∀ p, r.payload = .accessRequest p →
    ∃ a ∈ db.domain.accessRequests.rows, PayloadOf a p
  links : ∀ a ∈ db.domain.accessRequests.rows, ∀ q, a.requestId = some q →
    ∃ r p, db.requestItems.find q = some r ∧ r.payload = .accessRequest p ∧
      p.accessRequestId = a.id
  grants : ∀ g ∈ db.domain.accessGrants.rows, Granted db.domain.accessRequests g

/-- The tables before the engine: no access request is linked, and every grant is one of a
request that has been approved. -/
structure Legacy (tables : Tables) : Prop where
  links : ∀ a ∈ tables.accessRequests.rows, a.requestId = none
  grants : ∀ g ∈ tables.accessGrants.rows, Granted tables.accessRequests g

/-! ### The property and the condition -/

/-- What `approve` and its handler promise. -/
structure ReturnsGrant (toISOString : Time → String) (db : Db Payload Tables) (view : AuthzView)
    (requestId : Uuid) (note : Option String) (actor : Actor) (now : Time) (env : HookEnv) :
    Prop where
  /-- A call that resolves returns a grant of the request. -/
  returned : ∀ db' grant,
    AccessRequestService.approveGrant view requestId note actor now env db = .ok (db', grant) →
      ∃ a g, db.domain.accessRequests.find requestId = some a ∧ grant = some g ∧ GrantOf a g
  /-- The handler fails only if nothing has changed. -/
  handler : ∀ failure db',
    AccessRequestsController.approve toISOString view requestId note actor now env db =
      (.error failure, db') → db' = db

/-- The pending request is linked to an engine request that does not wait on its last step, and
the actor passes the checks of the engine. -/
def AtFirstStep (db : Db Payload Tables) (view : AuthzView) (requestId : Uuid) (actor : Actor) :
    Prop :=
  ∃ a engineId item, db.domain.accessRequests.find requestId = some a ∧ a.status = .pending ∧
    a.requestId = some engineId ∧ db.requestItems.find engineId = some item ∧
    isFinalStep accessRequestTypeDef item.currentStep = false ∧
    ∃ delegation, reviewCheck moduleRegistry view "approve" item actor = .ok delegation

/-! ### Access requests across a write -/

/-- The requests of `t` are in `t'`, asking for the same and not pending anew. -/
def Kept (t t' : Table AccessRequest.id) : Prop :=
  ∀ a ∈ t.rows, ∃ a' ∈ t'.rows, a'.id = a.id ∧ a'.requesterId = a.requesterId ∧
    a'.durationHours = a.durationHours ∧ (a'.status = .pending → a.status = .pending)

/-- The requests before and after a write that links none. -/
structure RequestsKept (t t' : Table AccessRequest.id) : Prop where
  kept : Kept t t'
  links : ∀ a' ∈ t'.rows, ∀ q, a'.requestId = some q →
    ∃ a ∈ t.rows, a.id = a'.id ∧ a.requestId = some q

variable {t t' t'' : Table AccessRequest.id} {a : AccessRequest} {g : AccessGrant}
  {p : AccessRequestPayload}

theorem RequestsKept.refl (t : Table AccessRequest.id) : RequestsKept t t where
  kept a ha := ⟨a, ha, rfl, rfl, rfl, id⟩
  links a ha _ hq := ⟨a, ha, rfl, hq⟩

theorem kept_update (t : Table AccessRequest.id) (id : Uuid) {f : AccessRequest → AccessRequest}
    (hf : ∀ a, (f a).id = a.id) (hrequester : ∀ a, (f a).requesterId = a.requesterId)
    (hduration : ∀ a, (f a).durationHours = a.durationHours)
    (hstatus : ∀ a, (f a).status = .pending → a.status = .pending) : Kept t (t.update id f hf) := by
  intro a ha
  refine ⟨_, Table.mem_update_of_mem ha, ?_⟩
  split
  · exact ⟨hf a, hrequester a, hduration a, hstatus a⟩
  · exact ⟨rfl, rfl, rfl, fun hpending => hpending⟩

/-- A review writes the status of one request, and not `pending`. -/
theorem requestsKept_update (t : Table AccessRequest.id) (id : Uuid)
    {f : AccessRequest → AccessRequest} (hf : ∀ a, (f a).id = a.id)
    (hrequester : ∀ a, (f a).requesterId = a.requesterId)
    (hduration : ∀ a, (f a).durationHours = a.durationHours)
    (hlink : ∀ a, (f a).requestId = a.requestId) (hstatus : ∀ a, (f a).status ≠ .pending) :
    RequestsKept t (t.update id f hf) where
  kept := kept_update t id hf hrequester hduration fun a hpending => absurd hpending (hstatus a)
  links a' ha' q hq := by
    rcases Table.mem_update ha' with ⟨a, ha, rfl⟩ | ⟨ha, -⟩
    · exact ⟨a, Table.mem_of_find ha, (hf a).symm, (hlink a).symm.trans hq⟩
    · exact ⟨a', ha, rfl, hq⟩

/-- A new request is not linked. -/
theorem requestsKept_insert (h : t.insert a = some t') (hlink : a.requestId = none) :
    RequestsKept t t' where
  kept a' ha' := ⟨a', (Table.mem_insert h).2 (Or.inl ha'), rfl, rfl, rfl, id⟩
  links a' ha' q hq := by
    rcases (Table.mem_insert h).1 ha' with ha' | rfl
    · exact ⟨a', ha', rfl, hq⟩
    · rw [hlink] at hq
      cases hq

theorem PayloadOf.kept (h : ∃ a ∈ t.rows, PayloadOf a p) (hkept : Kept t t') :
    ∃ a ∈ t'.rows, PayloadOf a p := by
  obtain ⟨a, ha, hp⟩ := h
  obtain ⟨a', ha', hid, hrequester, hduration, -⟩ := hkept a ha
  exact ⟨a', ha', hp.request.trans hid.symm, hp.requester.trans hrequester.symm,
    hp.duration.trans hduration.symm⟩

theorem Granted.kept (h : Granted t g) (hkept : Kept t t') : Granted t' g := by
  obtain ⟨a, ha, hstatus, hg⟩ := h
  obtain ⟨a', ha', hid, hrequester, hduration, hpending⟩ := hkept a ha
  refine ⟨a', ha', fun h => hstatus (hpending h), hg.request.trans hid.symm,
    hg.grantee.trans hrequester.symm, ?_⟩
  rw [hduration]
  exact hg.duration

/-- A grant that a payload asks for, once its request has been approved. -/
theorem granted_of_payload (h : ∃ a ∈ t.rows, PayloadOf a p) (env : HookEnv)
    (approved : ∀ a ∈ t.rows, a.id = p.accessRequestId → a.status ≠ .pending) :
    Granted t (AccessRequestTypeDef.grant p env) := by
  obtain ⟨a, ha, hp⟩ := h
  refine ⟨a, ha, approved a ha hp.request.symm, hp.request, hp.requester, ?_⟩
  show env.now + p.durationHours * msPerHour = env.now + a.durationHours * msPerHour
  rw [hp.duration]

/-! ### What keeps the books -/

section Steps

variable {db db' : Db Payload Tables} {tables : Tables}

/-- A write to the domain tables that keeps the requests, and grants only what is asked for. -/
theorem Booked.write (h : Booked db)
    (hkept : RequestsKept db.domain.accessRequests tables.accessRequests)
    (hgrants : ∀ g ∈ tables.accessGrants.rows, Granted tables.accessRequests g) :
    Booked { db with domain := tables } where
  typed := h.typed
  payloads r hr p hp := PayloadOf.kept (h.payloads r hr p hp) hkept.kept
  links a' ha' q hq := by
    obtain ⟨a, ha, hid, hlink⟩ := hkept.links a' ha' q hq
    obtain ⟨r, p, hr, hp, hpid⟩ := h.links a ha q hlink
    exact ⟨r, p, hr, hp, hpid.trans hid⟩
  grants := hgrants

/-- A write that leaves requests and grants alone. -/
theorem Booked.frame (h : Booked db) (hrequests : tables.accessRequests = db.domain.accessRequests)
    (hgrants : tables.accessGrants = db.domain.accessGrants) :
    Booked { db with domain := tables } := by
  refine h.write (hrequests ▸ RequestsKept.refl _) ?_
  rw [hrequests, hgrants]
  exact h.grants

/-- A write of reviews, without a grant. -/
theorem Booked.review (h : Booked db)
    (hkept : RequestsKept db.domain.accessRequests tables.accessRequests)
    (hgrants : tables.accessGrants = db.domain.accessGrants) :
    Booked { db with domain := tables } := by
  refine h.write hkept ?_
  rw [hgrants]
  exact fun g hg => (h.grants g hg).kept hkept.kept

/-- A change of the engine's requests that keeps their payloads, and adds only requests about
something stored. -/
theorem Booked.requests (h : Booked db) (hdomain : db'.domain = db.domain)
    (hold : ∀ r ∈ db'.requestItems.rows,
      (∃ old ∈ db.requestItems.rows, r.type = old.type ∧ r.payload = old.payload) ∨
      (r.type = r.payload.type ∧ ∀ p, r.payload = .accessRequest p →
        ∃ a ∈ db.domain.accessRequests.rows, PayloadOf a p))
    (hfind : ∀ q r, db.requestItems.find q = some r →
      ∃ r', db'.requestItems.find q = some r' ∧ r'.payload = r.payload) : Booked db' where
  typed r hr := by
    rcases hold r hr with ⟨old, hold, htype, hpayload⟩ | ⟨htype, -⟩
    · rw [htype, hpayload, h.typed old hold]
    · exact htype
  payloads r hr p hp := by
    rw [hdomain]
    rcases hold r hr with ⟨old, hold, -, hpayload⟩ | ⟨-, hnew⟩
    · exact h.payloads old hold p (hpayload.symm.trans hp)
    · exact hnew p hp
  links a ha q hq := by
    rw [hdomain] at ha
    obtain ⟨r, p, hr, hp, hid⟩ := h.links a ha q hq
    obtain ⟨r', hr', hpayload⟩ := hfind q r hr
    exact ⟨r', p, hr', hpayload.trans hp, hid⟩
  grants := by
    rw [hdomain]
    exact h.grants

/-- **What a hook does to the books**, for a payload about something stored. -/
theorem Booked.hookEffect {env : HookEnv} {payload : Payload} {approves : Bool} (h : Booked db)
    (hstored : ∀ p, payload = .accessRequest p →
      ∃ a ∈ db.domain.accessRequests.rows, PayloadOf a p)
    (he : HookEffect env db.domain payload approves tables) :
    Booked { db with domain := tables } := by
  cases he with
  | nothing => exact h
  | accessApproved p approverId accessGrants hinsert =>
    have hkept : RequestsKept db.domain.accessRequests
        (AccessRequestTypeDef.review .approved p approverId env.now db.domain).accessRequests := by
      refine requestsKept_update _ _ ?_ ?_ ?_ ?_ ?_ <;> intro a <;> simp
    refine h.write hkept (Table.forall_mem_insert hinsert
      (fun g hg => (h.grants g hg).kept hkept.kept) ?_)
    refine granted_of_payload (PayloadOf.kept (hstored p rfl) hkept.kept) env fun a ha hid => ?_
    -- the request of the payload is the one that has been updated
    simp only [AccessRequestTypeDef.review] at ha
    rcases Table.mem_update ha with ⟨old, -, rfl⟩ | ⟨-, hne⟩
    · simp
    · exact absurd hid hne
  | accessRejected p approverId =>
    refine h.review (requestsKept_update _ _ ?_ ?_ ?_ ?_ ?_) rfl <;> intro a <;> simp
  | accessExpired p =>
    refine h.review (requestsKept_update _ _ ?_ ?_ ?_ ?_ ?_) rfl <;> intro a <;> simp
  | leaveApproved p reviewerId => exact h.frame rfl rfl
  | leaveRejected p reviewerId => exact h.frame rfl rfl
  | leaveExpired p => exact h.frame rfl rfl
  | overtimeApproved p reviewerId => exact h.frame rfl rfl
  | overtimeRejected p reviewerId => exact h.frame rfl rfl
  | overtimeExpired p => exact h.frame rfl rfl
  | offboarded p =>
    -- a grant that is revoked is still one of its request
    refine h.write (RequestsKept.refl _) fun g hg => ?_
    simp only [OffboardingTypeDef.offboard] at hg
    obtain ⟨g₀, hg₀, rfl⟩ := Table.mem_updateWhere.1 hg
    obtain ⟨a, ha, hstatus, hgrant⟩ := h.grants g₀ hg₀
    refine ⟨a, ha, hstatus, ?_⟩
    split
    · exact ⟨hgrant.request, hgrant.grantee, hgrant.duration⟩
    · exact hgrant

/-- A decision of the engine keeps the books. -/
theorem Booked.decided (h : Booked db) (hd : DecidedOpen moduleRegistry db db') : Booked db' := by
  obtain ⟨request, env, row, hreq, hopen, t, ht, hc⟩ := hd
  obtain ⟨tables, hhook, hdomain⟩ := hc.hook
  have hwritten : Booked { db with domain := tables.domain } :=
    h.hookEffect (h.payloads request (Table.mem_of_find hreq)) (hookEffect_of_transition ht hhook)
  refine hwritten.requests hdomain (fun r hr => ?_) fun q r hr => ?_
  · obtain ⟨old, hold, -, htype, -, hpayload⟩ := ht.mem_committed hc hr
    exact Or.inl ⟨old, hold, htype, hpayload⟩
  · refine ⟨_, ht.find_committed hreq hc hr, ?_⟩
    split
    · rename_i hq
      subst hq
      obtain rfl : request = r := Option.some.inj (hreq.symm.trans hr)
      exact (ht.update_fixed request).2.2.1
    · rfl

/-- So does a submission about something stored. -/
theorem Booked.submitted (h : Booked db) {payload : Payload} {actor : Actor}
    {opts : SubmitRequestOptions} {now : Time} {newId : Uuid} {env : HookEnv}
    {item : RequestItem Payload}
    (hs : Submitted moduleRegistry payload.type payload actor opts now newId env db db' item)
    (hstored : ∀ p, payload = .accessRequest p →
      ∃ a ∈ db.domain.accessRequests.rows, PayloadOf a p) : Booked db' := by
  have hdomain : db'.domain = db.domain := hs.domain fun typeDef hdef => onSubmit_eq_none hdef
  refine h.requests hdomain (fun r hr => ?_) fun q r hr => ?_
  · rcases (Table.mem_insert hs.requestItems).1 hr with hr | rfl
    · exact Or.inl ⟨r, hr, rfl, rfl⟩
    · obtain ⟨typeDef, -, rfl⟩ := hs.row_eq
      exact Or.inr ⟨rfl, hstored⟩
  · exact ⟨r, Table.find_insert_of_find hs.requestItems hr, rfl⟩

/-! ### The engine's operations -/

variable {view : AuthzView} {requestId : Uuid} {note : Option String} {actor : Actor} {now : Time}
  {env : HookEnv} {item : RequestItem Payload}

theorem Booked.approve (h : Booked db)
    (hok : RequestEngine.approve moduleRegistry view requestId note actor now env db =
      .ok (db', item)) : Booked db' := by
  obtain ⟨request, delegation, hreq, hcheck, htx⟩ := approve_eq_ok_iff.1 hok
  exact h.decided (decidedOpen_of_find hreq (reviewCheck_eq_ok_iff.1 hcheck).1
    (approveTx_decided htx))

theorem Booked.reject (h : Booked db)
    (hok : RequestEngine.reject moduleRegistry view requestId note actor now env db =
      .ok (db', item)) : Booked db' := by
  obtain ⟨request, delegation, hreq, hcheck, htx⟩ := reject_eq_ok_iff.1 hok
  exact h.decided (decidedOpen_of_find hreq (reviewCheck_eq_ok_iff.1 hcheck).1
    (rejectTx_decided htx))

theorem Booked.cancel (h : Booked db)
    (hok : RequestEngine.cancel moduleRegistry view requestId actor now env db =
      .ok (db', item)) : Booked db' := by
  obtain ⟨request, hreq, hcheck, htx⟩ := cancel_eq_ok_iff.1 hok
  exact h.decided (decidedOpen_of_find hreq (cancelCheck_eq_ok_iff.1 hcheck).2.1
    (cancelTx_decided htx))

theorem Booked.expire (h : Booked db)
    (hok : RequestEngine.expire moduleRegistry requestId now env db = .ok db') : Booked db' := by
  obtain rfl | ⟨request, row, hreq, hopen, htx⟩ := expire_ok hok
  · exact h
  · exact h.decided (decidedOpen_of_find hreq hopen (expireTx_decided htx))

/-- The engine returns the request besides the database. -/
theorem booked_commit_fst (h : Booked db) {x : Except Failure (Db Payload Tables × RequestItem Payload)}
    (hok : ∀ db' item, x = .ok (db', item) → Booked db') :
    Booked (Outcome.commit db (x.map Prod.fst)) := by
  refine Outcome.commit_induction h fun db' hmap => ?_
  obtain ⟨⟨db'', item⟩, hres, rfl⟩ := Except.map_eq_ok_iff.1 hmap
  exact hok db'' item hres

/-! ### The services -/

/-- Filing a row keeps the books after each of its commits if each commit does. -/
theorem Booked.submitLinked (h : Booked db) {create : Tables → Except Failure Tables}
    {payload : Payload} {backlink : Uuid → Tables → Tables} {expiresAt : Time} {engineId : Uuid}
    {commits : ℕ}
    (hcreate : ∀ tables, create db.domain = .ok tables →
      Booked { db with domain := tables } ∧ ∀ p, payload = .accessRequest p →
        ∃ a ∈ tables.accessRequests.rows, PayloadOf a p)
    (hlink : ∀ db' item, Booked db' → db'.requestItems.find item.id = some item →
      item.payload = payload → Booked { db' with domain := backlink item.id db'.domain }) :
    Booked (submitLinked create payload backlink actor expiresAt now engineId env commits db) := by
  unfold OpsHub.submitLinked
  split
  · exact h
  · rename_i tables hok
    obtain ⟨hcreated, hstored⟩ := hcreate tables hok
    split
    · exact h
    · dsimp only
      split
      · exact hcreated
      · rename_i db' item hsubmit
        have hs := submit_ok hsubmit
        have hsubmitted := hcreated.submitted hs hstored
        split
        · exact hcreated
        · split
          · exact hsubmitted
          · refine hlink db' item hsubmitted (Table.find_insert_self hs.requestItems) ?_
            obtain ⟨typeDef, -, rfl⟩ := hs.row_eq
            rfl

theorem Booked.submitAccess (h : Booked db) {input : AccessRequestService.SubmitInput}
    {rowId engineId : Uuid} {commits : ℕ} :
    Booked (AccessRequestService.submit input actor now rowId engineId env commits db) := by
  refine h.submitLinked (fun tables hcreate => ?_) fun db' item h' hitem hpayload => ?_
  · simp only [AccessRequestService.create, Except.bind_eq_ok_iff, Outcome.orThrow_eq_ok_iff,
      Except.pure_eq_ok_iff] at hcreate
    obtain ⟨accessRequests, hinsert, rfl⟩ := hcreate
    refine ⟨h.review (requestsKept_insert hinsert rfl) rfl, fun p hp => ?_⟩
    obtain rfl := Payload.accessRequest.inj hp
    exact ⟨_, (Table.mem_insert hinsert).2 (Or.inr rfl), rfl, rfl, rfl⟩
  · have hkept : Kept db'.domain.accessRequests
        (AccessRequestService.backlink rowId item.id db'.domain).accessRequests := by
      refine kept_update _ _ ?_ ?_ ?_ ?_ <;> intro a <;> simp
    refine ⟨h'.typed, fun r hr p hp => PayloadOf.kept (h'.payloads r hr p hp) hkept,
      fun a ha q hq => ?_, fun g hg => (h'.grants g hg).kept hkept⟩
    simp only [AccessRequestService.backlink] at ha
    rcases Table.mem_update ha with ⟨old, hold, rfl⟩ | ⟨ha, -⟩
    · obtain rfl := Option.some.inj hq
      exact ⟨item, _, hitem, hpayload, (Table.key_of_find hold).symm⟩
    · exact h'.links a ha q hq

theorem Booked.approveAccess (h : Booked db)
    (hok : AccessRequestService.approve view requestId note actor now env db = .ok db') :
    Booked db' := by
  obtain ⟨request, hreq, -, ⟨engineId, item, -, happrove⟩ | ⟨-, tables, hlegacy, rfl⟩⟩ :=
    AccessRequestService.approve_ok_cases hok
  · exact h.approve happrove
  · simp only [AccessRequestService.legacyApprove, Except.bind_eq_ok_iff,
      Outcome.orThrow_eq_ok_iff, Except.pure_eq_ok_iff] at hlegacy
    obtain ⟨accessGrants, hinsert, rfl⟩ := hlegacy
    have hkept : RequestsKept db.domain.accessRequests (AccessRequestService.legacyReview .approved
        request.id actor.sub note now db.domain).accessRequests := by
      refine requestsKept_update _ _ ?_ ?_ ?_ ?_ ?_ <;> intro a <;> simp
    refine h.write hkept (Table.forall_mem_insert hinsert
      (fun g hg => (h.grants g hg).kept hkept.kept) ?_)
    simp only [Granted, AccessRequestService.legacyReview]
    refine ⟨_, Table.mem_update_of_mem (Table.mem_of_find hreq), ?_⟩
    rw [if_pos rfl]
    exact ⟨by simp, rfl, rfl, rfl⟩

theorem Booked.rejectAccess (h : Booked db)
    (hok : AccessRequestService.reject view requestId note actor now env db = .ok db') :
    Booked db' := by
  obtain ⟨request, -, -, ⟨engineId, item, -, hreject⟩ | ⟨-, rfl⟩⟩ :=
    AccessRequestService.reject_ok_cases hok
  · exact h.reject hreject
  · refine h.review (requestsKept_update _ _ ?_ ?_ ?_ ?_ ?_) rfl <;> intro a <;> simp

/-- Leave is not an access request. -/
theorem Booked.createLeave (h : Booked db) {input : WorkforceService.CreateLeaveInput}
    {rowId engineId : Uuid} {commits : ℕ} :
    Booked (WorkforceService.createLeave input actor now rowId engineId env commits db) := by
  refine h.submitLinked (fun tables hcreate => ?_) fun db' item h' _ _ => h'.frame rfl rfl
  simp only [WorkforceService.createLeaveRow, Except.bind_eq_ok_iff, Outcome.require_eq_ok_iff,
    Outcome.orThrow_eq_ok_iff, Except.pure_eq_ok_iff] at hcreate
  obtain ⟨-, -, -, -, leaveRequests, -, rfl⟩ := hcreate
  exact ⟨h.frame rfl rfl, fun p hp => by cases hp⟩

theorem Booked.createOvertime (h : Booked db) {input : WorkforceService.CreateOvertimeInput}
    {rowId engineId : Uuid} {commits : ℕ} :
    Booked (WorkforceService.createOvertime input actor now rowId engineId env commits db) := by
  refine h.submitLinked (fun tables hcreate => ?_) fun db' item h' _ _ => h'.frame rfl rfl
  simp only [WorkforceService.createOvertimeRow, Except.bind_eq_ok_iff,
    Outcome.orThrow_eq_ok_iff, Except.pure_eq_ok_iff] at hcreate
  obtain ⟨overtimeEntries, -, rfl⟩ := hcreate
  exact ⟨h.frame rfl rfl, fun p hp => by cases hp⟩

theorem Booked.reviewLeave (h : Booked db) {approve : Bool}
    (hok : WorkforceService.reviewLeave view requestId approve actor now env db = .ok db') :
    Booked db' := by
  obtain ⟨l, -, -, ⟨engineId, item, -, happrove | hreject⟩ | ⟨-, status, rfl⟩⟩ :=
    WorkforceService.reviewLeave_ok_cases hok
  · exact h.approve happrove
  · exact h.reject hreject
  · exact h.frame rfl rfl

theorem Booked.reviewOvertime (h : Booked db) {approve : Bool}
    (hok : WorkforceService.reviewOvertime view requestId approve actor now env db = .ok db') :
    Booked db' := by
  obtain ⟨o, -, -, ⟨engineId, item, -, happrove | hreject⟩ | ⟨-, status, rfl⟩⟩ :=
    WorkforceService.reviewOvertime_ok_cases hok
  · exact h.approve happrove
  · exact h.reject hreject
  · exact h.frame rfl rfl

theorem Booked.cancelLeave (h : Booked db)
    (hok : WorkforceService.cancelLeave requestId now db = .ok db') : Booked db' := by
  simp only [WorkforceService.cancelLeave, WorkforceService.getLeave, Except.bind_eq_ok_iff,
    Outcome.orThrow_eq_ok_iff, Except.pure_eq_ok_iff] at hok
  obtain ⟨l, -, -, -, rfl⟩ := hok
  exact h.frame rfl rfl

/-- **The step lemma.** -/
theorem step_booked (db : Db Payload Tables) (e : InStep.Event) (h : Booked db) :
    Booked (InStep.step db e) := by
  cases e with
  | submitAccess input actor now rowId engineId env commits => exact h.submitAccess
  | approveAccess view id note actor now env =>
    exact Outcome.commit_induction h fun _ => h.approveAccess
  | rejectAccess view id note actor now env =>
    exact Outcome.commit_induction h fun _ => h.rejectAccess
  | createLeave input actor now rowId engineId env commits => exact h.createLeave
  | reviewLeave view id approve actor now env =>
    exact Outcome.commit_induction h fun _ => h.reviewLeave
  | cancelLeave id now => exact Outcome.commit_induction h fun _ => h.cancelLeave
  | createOvertime input actor now rowId engineId env commits => exact h.createOvertime
  | reviewOvertime view id approve actor now env =>
    exact Outcome.commit_induction h fun _ => h.reviewOvertime
  | approve view requestId note actor now env => exact booked_commit_fst h fun _ _ => h.approve
  | reject view requestId note actor now env => exact booked_commit_fst h fun _ _ => h.reject
  | cancel view requestId actor now env => exact booked_commit_fst h fun _ _ => h.cancel
  | expire requestId now env => exact Outcome.commit_induction h fun _ => h.expire

/-- **The run lemma.** -/
theorem run_booked (subscriptions : List WebhookSubscription) {tables : TxTables Tables}
    (h : Legacy tables.domain) (es : List InStep.Event) :
    Booked (InStep.after (Db.initial subscriptions tables) es) := by
  refine Runs.run_invariant step_booked ⟨by simp [Db.initial], by simp [Db.initial], ?_, h.grants⟩ es
  intro a ha q hq
  rw [h.links a ha] at hq
  cases hq

end Steps

/-! ### The grant that is returned -/

section Returned

variable {toISOString : Time → String} {db db' : Db Payload Tables} {view : AuthzView}
  {requestId : Uuid} {note : Option String} {actor : Actor} {now : Time} {env : HookEnv}
  {grant : Option AccessGrant}

theorem latestGrant_eq_none_iff {tables : Tables} :
    AccessRequestService.latestGrant tables requestId = none ↔
      ∀ g ∈ tables.accessGrants.rows, g.requestId ≠ requestId := by
  rw [AccessRequestService.latestGrant, List.head?_eq_none_iff]
  simp only [limitRows, List.take_eq_nil_iff, Nat.one_ne_zero, false_or, orderByDesc]
  rw [← List.length_eq_zero_iff, List.length_insertionSort, List.length_eq_zero_iff,
    List.filter_eq_nil_iff]
  simp

theorem mem_of_latestGrant {tables : Tables} {g : AccessGrant}
    (h : AccessRequestService.latestGrant tables requestId = some g) :
    g ∈ tables.accessGrants.rows ∧ g.requestId = requestId := by
  have hmem := List.mem_of_mem_take (List.mem_of_head? h)
  simpa [orderByDesc, List.mem_insertionSort] using hmem

theorem approveGrant_eq_ok_iff :
    AccessRequestService.approveGrant view requestId note actor now env db = .ok (db', grant) ↔
      AccessRequestService.approve view requestId note actor now env db = .ok db' ∧
        AccessRequestService.latestGrant db'.domain requestId = grant := by
  simp only [AccessRequestService.approveGrant, Except.bind_eq_ok_iff, Except.pure_eq_ok_iff,
    Prod.mk.injEq]
  constructor
  · rintro ⟨db'', happrove, rfl, hgrant⟩
    exact ⟨happrove, hgrant⟩
  · rintro ⟨happrove, hgrant⟩
    exact ⟨db', happrove, rfl, hgrant⟩

theorem kept_hookEffect {payload : Payload} {approves : Bool} {tables tables' : Tables}
    (he : HookEffect env tables payload approves tables') :
    Kept tables.accessRequests tables'.accessRequests := by
  cases he with
  | accessApproved p approverId accessGrants hinsert =>
    refine kept_update _ _ ?_ ?_ ?_ ?_ <;> intro a <;> simp
  | accessRejected p approverId =>
    refine kept_update _ _ ?_ ?_ ?_ ?_ <;> intro a <;> simp
  | accessExpired p =>
    refine kept_update _ _ ?_ ?_ ?_ ?_ <;> intro a <;> simp
  | _ => exact (RequestsKept.refl _).kept

/-- An approval keeps requesters and durations. -/
theorem kept_approve
    (hok : AccessRequestService.approve view requestId note actor now env db = .ok db') :
    Kept db.domain.accessRequests db'.domain.accessRequests := by
  obtain ⟨a, -, -, ⟨engineId, item, -, happrove⟩ | ⟨-, tables, hlegacy, rfl⟩⟩ :=
    AccessRequestService.approve_ok_cases hok
  · obtain ⟨request, delegation, -, -, htx⟩ := approve_eq_ok_iff.1 happrove
    obtain ⟨t, ht, hc⟩ := approveTx_decided htx
    obtain ⟨tables, hhook, hdomain⟩ := hc.hook
    rw [hdomain]
    exact kept_hookEffect (hookEffect_of_transition ht hhook)
  · simp only [AccessRequestService.legacyApprove, Except.bind_eq_ok_iff,
      Outcome.orThrow_eq_ok_iff, Except.pure_eq_ok_iff] at hlegacy
    obtain ⟨accessGrants, -, rfl⟩ := hlegacy
    refine kept_update _ _ ?_ ?_ ?_ ?_ <;> intro a <;> simp

/-- What the books say about the grant that is returned, if one is. -/
theorem grantOf_latestGrant (h : Booked db) {a : AccessRequest} {g : AccessGrant}
    (hok : AccessRequestService.approve view requestId note actor now env db = .ok db')
    (ha : db.domain.accessRequests.find requestId = some a)
    (hg : AccessRequestService.latestGrant db'.domain requestId = some g) : GrantOf a g := by
  obtain ⟨hmem, hrequest⟩ := mem_of_latestGrant hg
  have hid := Table.key_of_find ha
  obtain ⟨a', ha', -, hgrant⟩ := (h.approveAccess hok).grants g hmem
  obtain ⟨a'', ha'', hid', hrequester, hduration, -⟩ := kept_approve hok a (Table.mem_of_find ha)
  -- the grant is one of the row with this id, which asks for what it asked before
  obtain rfl : a' = a'' := by
    refine Table.eq_of_key_eq _ ha' ha'' ?_
    rw [← hgrant.request, hrequest, hid', hid]
  refine ⟨hrequest.trans hid.symm, hgrant.grantee.trans hrequester, ?_⟩
  rw [← hduration]
  exact hgrant.duration

/-- The engine request of a linked row is one about it. -/
theorem linked_item (h : Booked db) {a : AccessRequest} {engineId : Uuid}
    {item : RequestItem Payload} (ha : db.domain.accessRequests.find requestId = some a)
    (hlink : a.requestId = some engineId) (hitem : db.requestItems.find engineId = some item) :
    ∃ p, item.payload = .accessRequest p ∧ p.accessRequestId = requestId ∧
      moduleRegistry item.type = some accessRequestTypeDef := by
  obtain ⟨r, p, hr, hp, hid⟩ := h.links a (Table.mem_of_find ha) engineId hlink
  obtain rfl : item = r := Option.some.inj (hitem.symm.trans hr)
  refine ⟨p, hp, hid.trans (Table.key_of_find ha), ?_⟩
  rw [h.typed item (Table.mem_of_find hitem), hp]
  rfl

/-- **The last step**: an approval that does not stop at an earlier one leaves a grant. -/
theorem exists_grant (h : Booked db)
    (hok : AccessRequestService.approve view requestId note actor now env db = .ok db')
    (hlast : ¬ AtFirstStep db view requestId actor) :
    ∃ g ∈ db'.domain.accessGrants.rows, g.requestId = requestId := by
  obtain ⟨a, ha, hpending, ⟨engineId, item, hlink, happrove⟩ | ⟨-, tables, hlegacy, rfl⟩⟩ :=
    AccessRequestService.approve_ok_cases hok
  · obtain ⟨request, delegation, hreq, hcheck, htx⟩ := approve_eq_ok_iff.1 happrove
    obtain ⟨p, hp, hid, hregistered⟩ := linked_item h ha hlink hreq
    obtain ⟨typeDef, hdef, ⟨hfinal, hc⟩ | ⟨hfinal, nextAssigneeId, hc⟩⟩ := approveTx_ok htx
    · obtain rfl := Option.some.inj (hregistered.symm.trans hdef)
      obtain ⟨tables, hhook, hdomain⟩ := hc.hook
      obtain ⟨p', accessGrants, hp', hinsert, htables⟩ := AccessRequestTypeDef.onApprove_ok hhook
      obtain rfl : p = p' := Payload.accessRequest.inj (hp.symm.trans hp')
      rw [hdomain, htables]
      exact ⟨_, (Table.mem_insert hinsert).2 (Or.inr rfl), hid⟩
    · obtain rfl := Option.some.inj (hregistered.symm.trans hdef)
      exact absurd ⟨a, engineId, request, ha, hpending, hlink, hreq, hfinal, delegation, hcheck⟩ hlast
  · simp only [AccessRequestService.legacyApprove, Except.bind_eq_ok_iff,
      Outcome.orThrow_eq_ok_iff, Except.pure_eq_ok_iff] at hlegacy
    obtain ⟨accessGrants, hinsert, rfl⟩ := hlegacy
    have hid : a.id = requestId := Table.key_of_find ha
    exact ⟨_, (Table.mem_insert hinsert).2 (Or.inr rfl), hid⟩

/-- The transaction of a stored request commits if its hook does. -/
theorem run_isOk {t : Transition Payload Tables} {r : RequestItem Payload}
    {tables : TxTables Tables} (hr : db.requestItems.find t.requestId = some r)
    (hhook : t.hook env db.toTxTables = .ok tables) : ∃ res, t.run env db = .ok res := by
  have hrow := Table.find_update_self db.requestItems t.requestId t.update t.update_id
  rw [hr, Option.map_some] at hrow
  simp [Transition.run, hrow, hhook, Outcome.orThrow, bind, Except.bind, pure, Except.pure]

/-- No step of an access request has a resolver. -/
theorem nextAssignee_access (item : RequestItem Payload) (tables : TxTables Tables) :
    nextAssignee accessRequestTypeDef item tables = .ok item.assigneeId := by
  have hnone : (stepDef accessRequestTypeDef (item.currentStep + 1)).bind
      ApprovalStepDef.resolverFn = none := by
    cases hs : stepDef accessRequestTypeDef (item.currentStep + 1) with
    | none => rfl
    | some s =>
      obtain ⟨steps, hsteps, hfind⟩ := Option.bind_eq_some_iff.1 hs
      obtain rfl := Option.some.inj hsteps
      have hmem : s ∈ AccessRequestTypeDef.approvalSteps := List.mem_of_find?_eq_some hfind
      simp only [AccessRequestTypeDef.approvalSteps, List.mem_cons, List.not_mem_nil,
        or_false] at hmem
      rcases hmem with rfl | rfl
      · rfl
      · rfl
  rw [nextAssignee, hnone]

/-- **The first step**: the approval commits, and no grant of the request is there. -/
theorem approveGrant_atFirstStep (h : Booked db) (hfirst : AtFirstStep db view requestId actor) :
    ∃ db', AccessRequestService.approveGrant view requestId note actor now env db =
      .ok (db', none) := by
  obtain ⟨a, engineId, item, ha, hpending, hlink, hitem, hfinal, delegation, hcheck⟩ := hfirst
  obtain ⟨p, hp, -, hregistered⟩ := linked_item h ha hlink hitem
  have hid := Table.key_of_find hitem
  -- the hook of this step schedules a notification only
  have hhook : ∃ tables, (stepApproval accessRequestTypeDef item delegation note actor now
      item.assigneeId).hook env db.toTxTables = .ok tables := by
    show ∃ tables, AccessRequestTypeDef.onStepApproved item.payload item.id item.currentStep env
      db.toTxTables = .ok tables
    rw [hp]
    exact ⟨_, rfl⟩
  obtain ⟨tables, hhook⟩ := hhook
  obtain ⟨⟨db', row⟩, hrun⟩ := run_isOk (hid ▸ hitem) hhook
  have htx : approveTx moduleRegistry item delegation note actor now env db = .ok (db', row) := by
    simp only [approveTx, Except.bind_eq_ok_iff, RequestRegistry.get_eq_ok_iff]
    refine ⟨accessRequestTypeDef, hregistered, ?_⟩
    rw [if_neg (by simp [hfinal]), nextAssignee_access]
    exact hrun
  have happrove : AccessRequestService.approve view requestId note actor now env db = .ok db' := by
    have hengine := approve_eq_ok_iff.2 ⟨item, delegation, hitem, hcheck, htx⟩
    simp only [AccessRequestService.approve, AccessRequestService.getById,
      AccessRequestService.assertPending, Except.bind_eq_ok_iff, Outcome.orThrow_eq_ok_iff,
      Outcome.require_eq_ok_iff]
    refine ⟨a, ha, (), hpending, ?_⟩
    simp only [hlink, hengine]
    rfl
  have hgrants : db'.domain = db.domain := by
    obtain ⟨tables', hhook', hdomain⟩ := (Transition.run_ok hrun).hook
    exact hdomain.trans (@AccessRequestTypeDef.onStepApproved_ok _ _ _ env _ _ hhook')
  refine ⟨db', approveGrant_eq_ok_iff.2 ⟨happrove, latestGrant_eq_none_iff.2 fun g hg hrequest => ?_⟩⟩
  -- a pending request has no grant
  rw [hgrants] at hg
  obtain ⟨a', ha', hstatus, hgrant⟩ := h.grants g hg
  obtain rfl : a' = a := by
    refine Table.eq_of_key_eq _ ha' (Table.mem_of_find ha) ?_
    rw [← hgrant.request, hrequest, Table.key_of_find ha]
  exact hstatus hpending

/-- What a call promises in a booked state, exactly when it does not stop at the first step. -/
theorem Booked.returns_iff (h : Booked db) :
    ReturnsGrant toISOString db view requestId note actor now env ↔
      ¬ AtFirstStep db view requestId actor := by
  constructor
  · intro hreturns hfirst
    obtain ⟨db', hok⟩ := approveGrant_atFirstStep h hfirst
    obtain ⟨a, g, -, hg, -⟩ := hreturns.returned db' none hok
    cases hg
  · intro hlast
    have hreturned : ∀ db' grant,
        AccessRequestService.approveGrant view requestId note actor now env db = .ok (db', grant) →
        ∃ a g, db.domain.accessRequests.find requestId = some a ∧ grant = some g ∧ GrantOf a g := by
      intro db' grant hok
      obtain ⟨happrove, hgrant⟩ := approveGrant_eq_ok_iff.1 hok
      obtain ⟨a, ha, -⟩ := AccessRequestService.approve_ok_cases happrove
      obtain ⟨g₀, hg₀, hrequest⟩ := exists_grant h happrove hlast
      cases grant with
      | none => exact absurd hrequest (latestGrant_eq_none_iff.1 hgrant g₀ hg₀)
      | some g => exact ⟨a, g, ha, rfl, grantOf_latestGrant h happrove ha hgrant⟩
    refine ⟨hreturned, fun failure db' hfails => ?_⟩
    unfold AccessRequestsController.approve at hfails
    split at hfails
    · exact (Prod.mk.inj hfails).2.symm
    · cases (Prod.mk.inj hfails).1
    · rename_i db'' hok
      obtain ⟨-, -, hcall⟩ := Except.bind_eq_ok_iff.1 hok
      obtain ⟨a, g, -, hg, -⟩ := hreturned db'' none hcall
      cases hg

/-- **The grant of an approval.**  In every state that the services lead to, a call of `approve`
returns a grant of its request as asked for, and its handler fails only without effect, exactly
if the pending request is not one whose engine request the actor may approve at an earlier step
than the last. -/
theorem returnsGrant_iff (toISOString : Time → String) (subscriptions : List WebhookSubscription)
    (tables : TxTables Tables) (hlegacy : Legacy tables.domain) (es : List InStep.Event)
    (view : AuthzView) (requestId : Uuid) (note : Option String) (actor : Actor) (now : Time)
    (env : HookEnv) :
    ReturnsGrant toISOString (InStep.after (Db.initial subscriptions tables) es) view requestId
        note actor now env ↔
      ¬ AtFirstStep (InStep.after (Db.initial subscriptions tables) es) view requestId actor :=
  (run_booked subscriptions hlegacy es).returns_iff

end Returned

/-! ### The two steps of one request -/

namespace Filed

def start : Db Payload Tables := Db.initial [] ⟨[], Tables.empty⟩

def requester : Actor := ⟨1, "user1@example.com"⟩

def manager : Actor := ⟨2, "user2@example.com"⟩

def security : Actor := ⟨3, "user3@example.com"⟩

/-- Every user but the requester holds every permission. -/
def view : AuthzView where
  check user _ := decide (user ≠ 1)
  delegations := []
  now := 0

/-- User 1 asks for eight hours. -/
def filed : InStep.Event :=
  .submitAccess ⟨.vpn, "gateway", "maintenance", 8⟩ requester 0 50 6 ⟨0, 0⟩ 3

/-- The first step. -/
def managed : InStep.Event := .approveAccess view 50 none manager 10 ⟨10, 90⟩

theorem legacy_empty : Legacy Tables.empty where
  links a ha := by cases ha
  grants g hg := by cases hg

theorem atFirstStep : AtFirstStep (InStep.after start [filed]) view 50 manager :=
  ⟨_, 6, _, rfl, rfl, rfl, rfl, rfl, none, rfl⟩

end Filed

/-- The approval of the manager returns no grant, and the handler fails with the request already
in review. -/
theorem not_returnsGrant :
    ¬ ReturnsGrant toString (InStep.after Filed.start [Filed.filed]) Filed.view 50 none
      Filed.manager 10 ⟨10, 90⟩ ∧
    ∃ failure db', AccessRequestsController.approve toString Filed.view 50 none Filed.manager 10
        ⟨10, 90⟩ (InStep.after Filed.start [Filed.filed]) = (.error failure, db') ∧
      ∃ r ∈ db'.requestItems.rows, r.status = .inReview := by
  constructor
  · intro h
    have hbooked : Booked (InStep.after Filed.start [Filed.filed]) :=
      run_booked [] Filed.legacy_empty [Filed.filed]
    obtain ⟨db', hok⟩ := approveGrant_atFirstStep hbooked Filed.atFirstStep
    obtain ⟨a, g, -, hg, -⟩ := h.returned db' none hok
    cases hg
  · exact ⟨_, _, rfl, _, List.mem_singleton.2 rfl, rfl⟩

/-- The approval of the security officer, after that of the manager, returns the grant. -/
theorem returnsGrant_iff_security :
    ReturnsGrant toString (InStep.after Filed.start [Filed.filed, Filed.managed]) Filed.view 50 none
      Filed.security 20 ⟨20, 91⟩ := by
  refine (returnsGrant_iff toString [] ⟨[], Tables.empty⟩ Filed.legacy_empty
    [Filed.filed, Filed.managed] Filed.view 50 none Filed.security 20 ⟨20, 91⟩).2 ?_
  rintro ⟨a, engineId, item, ha, -, hlink, hitem, hfinal, -⟩
  obtain rfl := Option.some.inj ha
  obtain rfl := Option.some.inj hlink
  obtain rfl := Option.some.inj hitem
  cases hfinal

end ApprovedGrant

end OpsHub
