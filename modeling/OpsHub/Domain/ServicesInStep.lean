import OpsHub.Domain.InStep

/-!
# The domain operations keep rows and requests in step

The sequential operations refine the abstract model of `InStep`: an operation moves
every linked pair by one of its moves (`step_spec`), unless it cancels an open engine
request that a row is linked to, or a linked leave that is still pending (`Allowed`).
`run_inStep` is the result for whole runs; `not_inStep` shows both exceptions.
-/

namespace OpsHub

namespace InStep

open RequestEngine

/-! ### The operations -/

/-- A call of one of the domain services or of the generic engine endpoints. -/
inductive Event
  | submitAccess (input : AccessRequestService.SubmitInput) (actor : Actor) (now : Time)
      (rowId engineId : Uuid) (env : HookEnv) (commits : ℕ)
  | approveAccess (view : AuthzView) (id : Uuid) (note : Option String) (actor : Actor)
      (now : Time) (env : HookEnv)
  | rejectAccess (view : AuthzView) (id : Uuid) (note : Option String) (actor : Actor)
      (now : Time) (env : HookEnv)
  | createLeave (input : WorkforceService.CreateLeaveInput) (actor : Actor) (now : Time)
      (rowId engineId : Uuid) (env : HookEnv) (commits : ℕ)
  | reviewLeave (view : AuthzView) (id : Uuid) (approve : Bool) (actor : Actor) (now : Time)
      (env : HookEnv)
  | cancelLeave (id : Uuid) (now : Time)
  | createOvertime (input : WorkforceService.CreateOvertimeInput) (actor : Actor) (now : Time)
      (rowId engineId : Uuid) (env : HookEnv) (commits : ℕ)
  | reviewOvertime (view : AuthzView) (id : Uuid) (approve : Bool) (actor : Actor) (now : Time)
      (env : HookEnv)
  | approve (view : AuthzView) (requestId : Uuid) (note : Option String) (actor : Actor)
      (now : Time) (env : HookEnv)
  | reject (view : AuthzView) (requestId : Uuid) (note : Option String) (actor : Actor)
      (now : Time) (env : HookEnv)
  | cancel (view : AuthzView) (requestId : Uuid) (actor : Actor) (now : Time) (env : HookEnv)
  | expire (requestId : Uuid) (now : Time) (env : HookEnv)

/-- The database after a call. -/
def step (db : Db Payload Tables) : Event → Db Payload Tables
  | .submitAccess input actor now rowId engineId env commits =>
    AccessRequestService.submit input actor now rowId engineId env commits db
  | .approveAccess view id note actor now env =>
    Outcome.commit db (AccessRequestService.approve view id note actor now env db)
  | .rejectAccess view id note actor now env =>
    Outcome.commit db (AccessRequestService.reject view id note actor now env db)
  | .createLeave input actor now rowId engineId env commits =>
    WorkforceService.createLeave input actor now rowId engineId env commits db
  | .reviewLeave view id approve actor now env =>
    Outcome.commit db (WorkforceService.reviewLeave view id approve actor now env db)
  | .cancelLeave id now => Outcome.commit db (WorkforceService.cancelLeave id now db)
  | .createOvertime input actor now rowId engineId env commits =>
    WorkforceService.createOvertime input actor now rowId engineId env commits db
  | .reviewOvertime view id approve actor now env =>
    Outcome.commit db (WorkforceService.reviewOvertime view id approve actor now env db)
  | .approve view requestId note actor now env =>
    RequestEngine.step moduleRegistry db (.approve view requestId note actor now env)
  | .reject view requestId note actor now env =>
    RequestEngine.step moduleRegistry db (.reject view requestId note actor now env)
  | .cancel view requestId actor now env =>
    RequestEngine.step moduleRegistry db (.cancel view requestId actor now env)
  | .expire requestId now env => RequestEngine.step moduleRegistry db (.expire requestId now env)

/-- The engine request that an event cancels, with the view and the actor. -/
def Event.engineCancel : Event → Option (AuthzView × Uuid × Actor)
  | .cancel view requestId actor _ _ => some (view, requestId, actor)
  | _ => none

/-- The leave that an event cancels. -/
def Event.leaveCancel : Event → Option Uuid
  | .cancelLeave id _ => some id
  | _ => none

/-- No permitted cancellation of an engine request that a row is linked to, and no
cancellation of a linked leave that is still pending. -/
def Allowed (db : Db Payload Tables) (e : Event) : Prop :=
  (∀ c ∈ e.engineCancel, ∀ r ∈ db.requestItems.find c.2.1,
    cancelCheck moduleRegistry c.1 r c.2.2 = .ok () →
      ∀ d ∈ r.payload.ref, ∀ row ∈ db.domain.row d, row.link ≠ some c.2.1) ∧
  ∀ id ∈ e.leaveCancel, ∀ l ∈ db.domain.leaveRequests.find id,
    l.status = .pending → l.requestId = none

instance (db : Db Payload Tables) (e : Event) : Decidable (Allowed db e) :=
  inferInstanceAs (Decidable (_ ∧ _))

/-! ### Every operation keeps linked pairs in step -/

section Operations

variable {db : Db Payload Tables}

theorem rowCreated_access {input : AccessRequestService.SubmitInput} {requesterId newId : Uuid}
    {now : Time} {tables tables' : Tables}
    (h : AccessRequestService.create input requesterId newId now tables = .ok tables') :
    RowCreated (.access newId) tables tables' := by
  simp only [AccessRequestService.create, Except.bind_eq_ok_iff, Outcome.orThrow_eq_ok_iff,
    Except.pure_eq_ok_iff] at h
  obtain ⟨accessRequests, hins, rfl⟩ := h
  exact rowCreated_of_insert (differ_access tables accessRequests) hins rfl

theorem rowCreated_leave {input : WorkforceService.CreateLeaveInput} {employeeId newId : Uuid}
    {tables tables' : Tables}
    (h : WorkforceService.createLeaveRow input employeeId newId tables = .ok tables') :
    RowCreated (.leave newId) tables tables' := by
  simp only [WorkforceService.createLeaveRow, Except.bind_eq_ok_iff, Outcome.require_eq_ok_iff,
    Outcome.orThrow_eq_ok_iff, Except.pure_eq_ok_iff] at h
  obtain ⟨-, -, -, -, leaveRequests, hins, rfl⟩ := h
  exact rowCreated_of_insert (differ_leave tables leaveRequests) hins rfl

theorem rowCreated_overtime {input : WorkforceService.CreateOvertimeInput}
    {employeeId newId : Uuid} {tables tables' : Tables}
    (h : WorkforceService.createOvertimeRow input employeeId newId tables = .ok tables') :
    RowCreated (.overtime newId) tables tables' := by
  simp only [WorkforceService.createOvertimeRow, Except.bind_eq_ok_iff,
    Outcome.orThrow_eq_ok_iff, Except.pure_eq_ok_iff] at h
  obtain ⟨overtimeEntries, hins, rfl⟩ := h
  exact rowCreated_of_insert (differ_overtime tables overtimeEntries) hins rfl

theorem rowUpdated_backlink (rowId q : Uuid) (tables : Tables) :
    RowUpdated (.access rowId) (setLink q) tables
      (AccessRequestService.backlink rowId q tables) :=
  rowUpdated_access tables rowId _ _ fun _ => rfl

theorem rowUpdated_setLeaveRequestId (rowId q : Uuid) (tables : Tables) :
    RowUpdated (.leave rowId) (setLink q) tables
      (WorkforceService.setLeaveRequestId rowId q tables) :=
  rowUpdated_leave tables rowId _ _ fun _ => rfl

theorem rowUpdated_setOvertimeRequestId (rowId q : Uuid) (tables : Tables) :
    RowUpdated (.overtime rowId) (setLink q) tables
      (WorkforceService.setOvertimeRequestId rowId q tables) :=
  rowUpdated_overtime tables rowId _ _ fun _ => rfl

/-- The legacy review of an access request writes its status. -/
theorem rowUpdated_legacyReview (status : AccessRequestStatus) (id reviewerId : Uuid)
    (note : Option String) (now : Time) (tables : Tables) :
    RowUpdated (.access id) (DomainRow.decide status.toDomain) tables
      (AccessRequestService.legacyReview status id reviewerId note now tables) :=
  rowUpdated_access tables id _ _ fun _ => rfl

theorem rowUpdated_setLeaveStatus (id : Uuid) (status : LeaveStatus) (reviewerId : Option Uuid)
    (now : Time) (tables : Tables) :
    RowUpdated (.leave id) (DomainRow.decide status.toDomain) tables
      (WorkforceService.setLeaveStatus id status reviewerId now tables) :=
  rowUpdated_leave tables id _ _ fun _ => rfl

theorem rowUpdated_setOvertimeStatus (id : Uuid) (status : OvertimeStatus)
    (reviewerId : Option Uuid) (now : Time) (tables : Tables) :
    RowUpdated (.overtime id) (DomainRow.decide status.toDomain) tables
      (WorkforceService.setOvertimeStatus id status reviewerId now tables) :=
  rowUpdated_overtime tables id _ _ fun _ => rfl

theorem stepSpec_approveAccess (h : Linked db) {view : AuthzView} {id : Uuid}
    {note : Option String} {actor : Actor} {now : Time} {env : HookEnv} {db' : Db Payload Tables}
    (hok : AccessRequestService.approve view id note actor now env db = .ok db') :
    StepSpec db db' := by
  obtain ⟨request, hreq, -, ⟨engineId, item, -, happrove⟩ | ⟨hlink, tables, hlegacy, rfl⟩⟩ :=
    AccessRequestService.approve_ok_cases hok
  · exact stepSpec_approve h happrove
  · simp only [AccessRequestService.legacyApprove, Except.bind_eq_ok_iff,
      Outcome.orThrow_eq_ok_iff, Except.pure_eq_ok_iff] at hlegacy
    obtain ⟨accessGrants, -, rfl⟩ := hlegacy
    have hrow : db.domain.row (.access request.id) = some request.domainRow := by
      rw [Tables.row, Table.find_of_mem (Table.mem_of_find hreq), Option.map_some]
    have hu := rowUpdated_legacyReview .approved request.id actor.sub note now db.domain
    exact stepSpec_unlinked h hrow hlink (hu.congr (row_congr rfl rfl rfl))

theorem stepSpec_rejectAccess (h : Linked db) {view : AuthzView} {id : Uuid}
    {note : Option String} {actor : Actor} {now : Time} {env : HookEnv} {db' : Db Payload Tables}
    (hok : AccessRequestService.reject view id note actor now env db = .ok db') :
    StepSpec db db' := by
  obtain ⟨request, hreq, -, ⟨engineId, item, -, hreject⟩ | ⟨hlink, rfl⟩⟩ :=
    AccessRequestService.reject_ok_cases hok
  · exact stepSpec_reject h hreject
  · have hrow : db.domain.row (.access id) = some request.domainRow := by
      rw [Tables.row, hreq, Option.map_some]
    exact stepSpec_unlinked h hrow hlink
      (rowUpdated_legacyReview .rejected id actor.sub note now db.domain)

theorem stepSpec_reviewLeave (h : Linked db) {view : AuthzView} {id : Uuid} {approve : Bool}
    {actor : Actor} {now : Time} {env : HookEnv} {db' : Db Payload Tables}
    (hok : WorkforceService.reviewLeave view id approve actor now env db = .ok db') :
    StepSpec db db' := by
  obtain ⟨l, hl, -, ⟨engineId, item, -, happrove | hreject⟩ | ⟨hlink, status, rfl⟩⟩ :=
    WorkforceService.reviewLeave_ok_cases hok
  · exact stepSpec_approve h happrove
  · exact stepSpec_reject h hreject
  · have hrow : db.domain.row (.leave id) = some l.domainRow := by
      rw [Tables.row, hl, Option.map_some]
    exact stepSpec_unlinked h hrow hlink (rowUpdated_setLeaveStatus id _ _ now db.domain)

theorem stepSpec_reviewOvertime (h : Linked db) {view : AuthzView} {id : Uuid} {approve : Bool}
    {actor : Actor} {now : Time} {env : HookEnv} {db' : Db Payload Tables}
    (hok : WorkforceService.reviewOvertime view id approve actor now env db = .ok db') :
    StepSpec db db' := by
  obtain ⟨o, ho, -, ⟨engineId, item, -, happrove | hreject⟩ | ⟨hlink, status, rfl⟩⟩ :=
    WorkforceService.reviewOvertime_ok_cases hok
  · exact stepSpec_approve h happrove
  · exact stepSpec_reject h hreject
  · have hrow : db.domain.row (.overtime id) = some o.domainRow := by
      rw [Tables.row, ho, Option.map_some]
    exact stepSpec_unlinked h hrow hlink (rowUpdated_setOvertimeStatus id _ _ now db.domain)

/-- A cancelled leave was approved, unless it is not linked. -/
theorem stepSpec_cancelLeave (h : Linked db) {id : Uuid} {now : Time} {db' : Db Payload Tables}
    (hok : WorkforceService.cancelLeave id now db = .ok db')
    (hpending : ∀ l ∈ db.domain.leaveRequests.find id, l.status = .pending → l.requestId = none) :
    StepSpec db db' := by
  simp only [WorkforceService.cancelLeave, WorkforceService.getLeave, Except.bind_eq_ok_iff,
    Outcome.orThrow_eq_ok_iff, Outcome.require_eq_ok_iff, Except.pure_eq_ok_iff] at hok
  obtain ⟨l, hl, -, hstatus, rfl⟩ := hok
  have hrow : db.domain.row (.leave id) = some l.domainRow := by
    rw [Tables.row, hl, Option.map_some]
  refine stepSpec_decided h (rowUpdated_setLeaveStatus id .cancelled none now db.domain) ?_
  rintro q p ⟨row, r, hd, hlink, hr, rfl⟩
  obtain rfl := Option.some.inj (hrow.symm.trans hd)
  have hnot : l.status ≠ .pending := by
    intro hp
    rw [LeaveRequest.domainRow, hpending l hl hp] at hlink
    cases hlink
  have happroved : l.status = .approved := hstatus.resolve_left hnot
  rw [LeaveRequest.domainRow, happroved]
  exact Move.withdraw r.status

/-- An operation that commits keeps the pairs in step if the committed database does. -/
theorem stepSpec_commit (h : Linked db) {x : Except Failure (Db Payload Tables)}
    (hok : ∀ db', x = .ok db' → StepSpec db db') : StepSpec db (Outcome.commit db x) :=
  Outcome.commit_induction (Keeps.refl h).stepSpec hok

/-- **The refinement, for one operation.** -/
theorem step_spec (h : Linked db) (e : Event) (hok : Allowed db e) : StepSpec db (step db e) := by
  -- an engine call returns the request besides the database
  have hfst : ∀ {x : Except Failure (Db Payload Tables × RequestItem Payload)},
      (∀ db' item, x = .ok (db', item) → StepSpec db db') →
      ∀ db', x.map Prod.fst = .ok db' → StepSpec db db' := by
    intro x hx db' hmap
    cases x with
    | error _ => cases hmap
    | ok res =>
      obtain rfl := Except.ok.inj hmap
      exact hx res.1 res.2 rfl
  cases e with
  | submitAccess input actor now rowId engineId env commits =>
    exact (keeps_submitLinked h rfl (fun _ _ => rowCreated_access)
      (rowUpdated_backlink rowId)).stepSpec
  | approveAccess view id note actor now env =>
    exact stepSpec_commit h fun _ => stepSpec_approveAccess h
  | rejectAccess view id note actor now env =>
    exact stepSpec_commit h fun _ => stepSpec_rejectAccess h
  | createLeave input actor now rowId engineId env commits =>
    exact (keeps_submitLinked h rfl (fun _ _ => rowCreated_leave)
      (rowUpdated_setLeaveRequestId rowId)).stepSpec
  | reviewLeave view id approve actor now env =>
    exact stepSpec_commit h fun _ => stepSpec_reviewLeave h
  | cancelLeave id now =>
    exact stepSpec_commit h fun _ hc => stepSpec_cancelLeave h hc (hok.2 id rfl)
  | createOvertime input actor now rowId engineId env commits =>
    exact (keeps_submitLinked h rfl (fun _ _ => rowCreated_overtime)
      (rowUpdated_setOvertimeRequestId rowId)).stepSpec
  | reviewOvertime view id approve actor now env =>
    exact stepSpec_commit h fun _ => stepSpec_reviewOvertime h
  | approve view requestId note actor now env =>
    exact stepSpec_commit h (hfst fun _ _ => stepSpec_approve h)
  | reject view requestId note actor now env =>
    exact stepSpec_commit h (hfst fun _ _ => stepSpec_reject h)
  | cancel view requestId actor now env =>
    refine stepSpec_commit h (hfst fun _ _ hc => stepSpec_cancel h hc ?_)
    exact hok.1 (view, requestId, actor) rfl
  | expire requestId now env => exact stepSpec_commit h fun _ => stepSpec_expire h

end Operations

/-! ### Runs -/

/-- Rows and requests are linked soundly, and every linked pair is in step. -/
structure Invariant (db : Db Payload Tables) : Prop where
  linked : Linked db
  agree : ∀ d q p, PairAt db d q p → p.Agree

/-- **The step lemma.** -/
theorem step_invariant (db : Db Payload Tables) (e : Event) (h : Invariant db)
    (hok : Allowed db e) : Invariant (step db e) := by
  have hspec := step_spec h.linked e hok
  refine ⟨hspec.linked, ?_⟩
  intro d q p' hp'
  rcases hspec.new d q p' hp' with ⟨p, hp⟩ | rfl
  · obtain ⟨p'', hp'', hm⟩ := hspec.old d q p hp
    exact hp''.unique hp' ▸ hm.agree (h.agree d q p hp)
  · exact agree_pending

/-- The state after the events `es` of a database. -/
def after (db : Db Payload Tables) (es : List Event) : Db Payload Tables := Runs.run step db es

/-- What a run promises about linked rows and their requests. -/
structure RunInStep (db : Db Payload Tables) (es : List Event) : Prop where
  /-- A linked row has its request. -/
  linked : ∀ d row q, (after db es).domain.row d = some row → row.link = some q →
    ∃ p, PairAt (after db es) d q p
  /-- The statuses of the two agree. -/
  agree : ∀ d q p, PairAt (after db es) d q p → p.Agree
  /-- A cancelled row of an approved request was approved before. -/
  history : ∀ d q, PairAt (after db es) d q ⟨.approved, .cancelled⟩ →
    ∃ es₁ es₂ E, es = es₁ ++ es₂ ∧ PairAt (after db es₁) d q ⟨E, .approved⟩
  /-- A linked row that is neither pending nor approved never becomes approved. -/
  settled : ∀ es₁ es₂, es = es₁ ++ es₂ → ∀ d q p, PairAt (after db es₁) d q p →
    p.domain ≠ .pending → p.domain ≠ .approved →
    ∃ p', PairAt (after db es) d q p' ∧ p'.domain ≠ .approved

/-- **The run lemma.** -/
theorem run_invariant {db : Db Payload Tables} {es : List Event} (h : Invariant db)
    (hok : Runs.Meets step Allowed db es) : Invariant (after db es) :=
  Runs.run_induction step_invariant h hok

/-- A database without requests whose rows carry no links. -/
theorem invariant_initial {subscriptions : List WebhookSubscription} {tables : TxTables Tables}
    (hlegacy : ∀ d row, tables.domain.row d = some row → row.link = none) :
    Invariant (Db.initial subscriptions tables) := by
  have hnone : ∀ d q p, ¬ PairAt (Db.initial subscriptions tables) d q p := by
    rintro d q p ⟨row, r, hd, hlink, -, -⟩
    rw [hlegacy d row hd] at hlink
    cases hlink
  refine ⟨⟨by simp [Db.initial], by simp [Db.initial], by simp [Db.initial], ?_⟩, ?_⟩
  · intro d row q hd hlink
    rw [hlegacy d row hd] at hlink
    cases hlink
  · exact fun d q p hp => absurd hp (hnone d q p)

/-- In a run that keeps to the condition, a cancelled row of an approved request was
approved before. -/
theorem run_history {db : Db Payload Tables} (h : Invariant db) (es : List Event)
    (hnone : ∀ d q p, ¬ PairAt db d q p) (hok : Runs.Meets step Allowed db es) (d : DomainRef)
    (q : Uuid) (hp : PairAt (after db es) d q ⟨.approved, .cancelled⟩) :
    ∃ es₁ es₂ E, es = es₁ ++ es₂ ∧ PairAt (after db es₁) d q ⟨E, .approved⟩ := by
  -- induction on the run from its end: the last event found the row approved, or left it
  induction es using List.reverseRecOn with
  | nil => exact absurd hp (hnone d q _)
  | append_singleton es e ih =>
    obtain ⟨hes, he⟩ := Runs.meets_append.1 hok
    have hinv := run_invariant h hes
    have hspec := step_spec hinv.linked e he.1
    have hlast : after db (es ++ [e]) = step (after db es) e := by
      rw [after, Runs.run_append]
      rfl
    rw [hlast] at hp
    rcases hspec.new d q _ hp with ⟨p, hold⟩ | hnew
    · obtain ⟨p', hp', hm⟩ := hspec.old d q p hold
      obtain rfl := hp'.unique hp
      rcases hm.of_cancelled with happroved | rfl
      · obtain ⟨E, S⟩ := p
        obtain rfl : S = .approved := happroved
        exact ⟨es, [e], E, rfl, hold⟩
      · obtain ⟨es₁, es₂, E, rfl, happroved⟩ := ih hes hold
        exact ⟨es₁, es₂ ++ [e], E, by rw [List.append_assoc], happroved⟩
    · cases hnew

/-- In a run that keeps to the condition, a settled row is not approved. -/
theorem run_not_approved {db : Db Payload Tables} (h : Invariant db) {es : List Event}
    (hok : Runs.Meets step Allowed db es) {d : DomainRef} {q : Uuid} {p : Pair}
    (hp : PairAt db d q p) (hpending : p.domain ≠ .pending) (happroved : p.domain ≠ .approved) :
    ∃ p', PairAt (after db es) d q p' ∧ p'.domain ≠ .approved := by
  have hrun := @Runs.run_induction _ _ step Allowed
    (fun db => Invariant db ∧ ∃ p, PairAt db d q p ∧ p.domain ≠ .pending ∧ p.domain ≠ .approved)
    (by
      rintro db e ⟨hinv, p, hp, hpending, happroved⟩ hok
      obtain ⟨p', hp', hm⟩ := (step_spec hinv.linked e hok).old d q p hp
      exact ⟨step_invariant db e hinv hok, p', hp',
        hm.not_approved (hinv.agree d q p hp) hpending happroved⟩)
    db es ⟨h, p, hp, hpending, happroved⟩ hok
  obtain ⟨-, p', hp', -, hnot⟩ := hrun
  exact ⟨p', hp', hnot⟩

/-- **Rows and requests in step.**  Starting without requests and links, every run that
cancels no open engine request of a linked row and no linked leave that is still pending
keeps linked rows and their requests in step. -/
theorem run_inStep (subscriptions : List WebhookSubscription) (tables : TxTables Tables)
    (hlegacy : ∀ d row, tables.domain.row d = some row → row.link = none) (es : List Event)
    (hok : Runs.Meets step Allowed (Db.initial subscriptions tables) es) :
    RunInStep (Db.initial subscriptions tables) es := by
  have hinitial : Invariant (Db.initial subscriptions tables) := invariant_initial hlegacy
  have hinv := run_invariant hinitial hok
  constructor
  · exact fun d row q hd hlink => hinv.linked.pairAt hd hlink
  · exact hinv.agree
  · refine fun d q hp => run_history hinitial es ?_ hok d q hp
    rintro d q p ⟨row, r, hd, hlink, -, -⟩
    rw [hlegacy d row hd] at hlink
    cases hlink
  · rintro es₁ es₂ rfl d q p hp hpending happroved
    obtain ⟨h₁, h₂⟩ := Runs.meets_append.1 hok
    rw [after, Runs.run_append]
    exact run_not_approved (run_invariant hinitial h₁) h₂ hp hpending happroved

/-! ### Cancellations that break the step -/

namespace Cancelled

def empty : Db Payload Tables := Db.initial [] ⟨[], Tables.empty⟩

def requester : Actor := ⟨1, "user1@example.com"⟩

/-- User 2 holds every permission. -/
def view : AuthzView where
  check user _ := decide (user = 2)
  delegations := []
  now := 0

def leave : WorkforceService.CreateLeaveInput where
  leaveType := .annual
  startDate := 100
  endDate := 104

/-- User 1 requests leave, and user 2 approves it through the engine. -/
def filed : Event := .createLeave leave requester 0 50 6 ⟨0, 0⟩ 3

def approved : Event := .approve view 6 none ⟨2, "user2@example.com"⟩ 20 ⟨20, 90⟩

/-- The cancellation of the leave, which leaves the engine request open. -/
def withdrawn : Event := .cancelLeave 50 10

/-- The cancellation of the engine request, which leaves the leave pending. -/
def cancelled : Event := .cancel view 6 requester 10 ⟨10, 0⟩

end Cancelled

/-- A request cancelled through the engine leaves its row pending; a row cancelled while
pending leaves its request open, whose approval then approves the row. -/
theorem not_inStep :
    ¬ (∀ es, RunInStep Cancelled.empty es) ∧
    PairAt (after Cancelled.empty [Cancelled.filed, Cancelled.cancelled]) (.leave 50) 6
      ⟨.cancelled, .pending⟩ ∧
    PairAt (after Cancelled.empty [Cancelled.filed, Cancelled.withdrawn]) (.leave 50) 6
      ⟨.pending, .cancelled⟩ ∧
    PairAt (after Cancelled.empty [Cancelled.filed, Cancelled.withdrawn, Cancelled.approved])
      (.leave 50) 6 ⟨.approved, .approved⟩ := by
  have hcancelled : PairAt (after Cancelled.empty [Cancelled.filed, Cancelled.cancelled])
      (.leave 50) 6 ⟨.cancelled, .pending⟩ := ⟨_, _, rfl, rfl, rfl, rfl⟩
  refine ⟨fun h => ?_, hcancelled, ⟨_, _, rfl, rfl, rfl, rfl⟩, ⟨_, _, rfl, rfl, rfl, rfl⟩⟩
  have hagree := (h [Cancelled.filed, Cancelled.cancelled]).agree _ _ _ hcancelled
  exact (hagree.withdrawn (Or.inl rfl)).1 rfl

/-- Leave that is approved and cancelled afterwards. -/
theorem run_inStep_approved :
    RunInStep Cancelled.empty [Cancelled.filed, Cancelled.approved, Cancelled.withdrawn] := by
  refine run_inStep [] ⟨[], Tables.empty⟩ ?_ _ (by decide)
  rintro d row hd
  cases d <;> cases hd

end InStep

end OpsHub
