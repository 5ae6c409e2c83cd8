import Mathlib.Data.Set.Lattice
import Mathlib.Order.CompletePartialOrder
import Mathlib.Order.Interval.Set.Basic
import OpsHub.Lib.Conflicts
import OpsHub.Access.ConcurrentGrants
import OpsHub.Domain.Hooks
import OpsHub.Domain.Services

/-!
# Overlapping leave

The checks and the writes of `createLeave`, `reviewLeave` and `cancelLeave` as separate steps,
interleaved with each other and with the calls of the engine.

* `LeaveState`, `step`: the machine; a call reads and checks in one step and writes in later
  ones;
* `NoDoubleBooking`: the live leaves of an employee are disjoint intervals;
* `WritesFree`: no row becomes live while a live row of its employee overlaps it;
* `run_noDoubleBooking`: in a run whose writes are all like that nobody is booked twice;
* `not_noDoubleBooking`: two calls of `createLeave` race, and an approval revives a leave that
  has been cancelled.
-/

namespace OpsHub

open Concurrent (Operation)
open WorkforceService

/-! ### The operations, check and write apart -/

namespace WorkforceService

/-- The checks of `createLeave`. -/
def createLeaveCheck (input : CreateLeaveInput) (employeeId : Uuid) (tables : Tables) :
    Except Failure Unit := do
  Outcome.require (input.startDate ≤ input.endDate)
    (.preconditionFailed "PRECONDITION_FAILED" "startDate must be on or before endDate")
  Outcome.require (hasOverlappingLeave tables employeeId input.startDate input.endDate = false)
    (.conflict "LEAVE_OVERLAPPING" "You already have a leave request overlapping these dates")

/-- The row that `createLeave` inserts. -/
def leaveRow (input : CreateLeaveInput) (employeeId newId : Uuid) : LeaveRequest where
  id := newId
  employeeId := employeeId
  leaveType := input.leaveType
  startDate := input.startDate
  endDate := input.endDate
  reason := input.reason

/-- `WorkforceDrizzleRepository.createLeave`. -/
def insertLeave (input : CreateLeaveInput) (employeeId newId : Uuid) (tables : Tables) :
    Except Failure Tables := do
  let leaveRequests ← Outcome.orThrow (.duplicateKey "leave_requests")
    (tables.leaveRequests.insert (leaveRow input employeeId newId))
  pure { tables with leaveRequests := leaveRequests }

/-- Check and insertion in a row. -/
theorem createLeaveRow_eq (input : CreateLeaveInput) (employeeId newId : Uuid) (tables : Tables) :
    createLeaveRow input employeeId newId tables = (do
      createLeaveCheck input employeeId tables
      insertLeave input employeeId newId tables) := by
  simp only [createLeaveRow, createLeaveCheck, insertLeave, leaveRow, bind_assoc]

/-- The checks of `reviewLeave`. -/
def reviewLeaveCheck (id : Uuid) (tables : Tables) : Except Failure LeaveRequest := do
  let l ← getLeave tables id
  Outcome.require (l.status = .pending)
    (.preconditionFailed "LEAVE_REQUEST_NOT_PENDING" "Only pending leave requests can be reviewed")
  pure l

/-- The checks of `cancelLeave`. -/
def cancelLeaveCheck (id : Uuid) (tables : Tables) : Except Failure LeaveRequest := do
  let l ← getLeave tables id
  Outcome.require (l.status = .pending ∨ l.status = .approved)
    (.preconditionFailed "LEAVE_REQUEST_NOT_PENDING"
      "Only pending or approved leave can be cancelled")
  pure l

end WorkforceService

/-! ### The machine -/

/-- What a call of `WorkforceService` does next. -/
inductive LeaveCall
  /-- `createLeave` has found no overlap. -/
  | insert (input : CreateLeaveInput) (actor : Actor)
  | submit (input : CreateLeaveInput) (actor : Actor) (rowId : Uuid)
  | link (rowId engineId : Uuid)
  /-- `reviewLeave` goes to the engine. -/
  | engine (engineId : Uuid) (operation : Operation)
  /-- `reviewLeave` of a row without an engine request, and `cancelLeave`. -/
  | setStatus (id : Uuid) (status : LeaveStatus) (reviewerId : Option Uuid)
  | finished

/-- The database with the calls of the engine, and the calls of the leave operations. -/
structure LeaveState where
  engine : Concurrent.State Payload Tables
  calls : List LeaveCall := []

/-- The tables of the modules. -/
def LeaveState.tables (s : LeaveState) : Tables := s.engine.db.domain

/-- Write tables of the modules. -/
def LeaveState.write (s : LeaveState) (tables : Tables) : LeaveState :=
  { s with engine := { s.engine with db := { s.engine.db with domain := tables } } }

/-- The next phase of the `i`-th call. -/
def LeaveState.goOn (s : LeaveState) (i : ℕ) (call : LeaveCall) : LeaveState :=
  { s with calls := s.calls.set i call }

/-- A call begins. -/
def LeaveState.begin (s : LeaveState) (call : LeaveCall) : LeaveState :=
  { s with calls := s.calls ++ [call] }

/-- A step of the engine, a call that reads and checks, or the next write of a call. -/
inductive LeaveEvent
  | engine (e : Concurrent.Event Payload)
  | createLeave (input : CreateLeaveInput) (actor : Actor)
  | reviewLeave (id : Uuid) (approve : Bool) (actor : Actor)
  | cancelLeave (id : Uuid)
  | insert (i : ℕ) (rowId : Uuid)
  | submit (i : ℕ) (now : Time) (engineId : Uuid) (env : HookEnv)
  | link (i : ℕ)
  | read (i : ℕ)
  | setStatus (i : ℕ) (now : Time)

namespace LeaveState

/-- What `reviewLeave` goes on with. -/
def reviewing (l : LeaveRequest) (approve : Bool) (actor : Actor) : LeaveCall :=
  match l.requestId with
  | some engineId => .engine engineId (if approve then .approve none actor else .reject none actor)
  | none => .setStatus l.id (if approve then .approved else .rejected) (some actor.sub)

/-- The state after a step; a step that is not due, and a check that fails, change nothing. -/
def step (s : LeaveState) : LeaveEvent → LeaveState
  | .engine e => { s with engine := Concurrent.step moduleRegistry s.engine e }
  | .createLeave input actor =>
    match createLeaveCheck input actor.sub s.tables with
    | .ok _ => s.begin (.insert input actor)
    | .error _ => s
  | .reviewLeave id approve actor =>
    match reviewLeaveCheck id s.tables with
    | .ok l => s.begin (reviewing l approve actor)
    | .error _ => s
  | .cancelLeave id =>
    match cancelLeaveCheck id s.tables with
    | .ok l => s.begin (.setStatus l.id .cancelled none)
    | .error _ => s
  | .insert i rowId =>
    match s.calls[i]? with
    | some (.insert input actor) =>
      match insertLeave input actor.sub rowId s.tables with
      | .ok tables => (s.write tables).goOn i (.submit input actor rowId)
      | .error _ => s.goOn i .finished
    | _ => s
  | .submit i now engineId env =>
    match s.calls[i]? with
    | some (.submit input actor rowId) =>
      let payload := leavePayload input actor.sub rowId
      match RequestEngine.submit moduleRegistry payload.type payload actor
          { expiresAt := some (now + 72 * msPerHour) } now engineId env s.engine.db with
      | .ok (db, item) =>
        { engine := { s.engine with db := db }, calls := s.calls.set i (.link rowId item.id) }
      | .error _ => s.goOn i .finished
    | _ => s
  | .link i =>
    match s.calls[i]? with
    | some (.link rowId engineId) =>
      (s.write (setLeaveRequestId rowId engineId s.tables)).goOn i .finished
    | _ => s
  | .read i =>
    match s.calls[i]? with
    | some (.engine engineId operation) =>
      { engine := Concurrent.step moduleRegistry s.engine (.read engineId operation)
        calls := s.calls.set i .finished }
    | _ => s
  | .setStatus i now =>
    match s.calls[i]? with
    | some (.setStatus id status reviewerId) =>
      (s.write (setLeaveStatus id status reviewerId now s.tables)).goOn i .finished
    | _ => s

/-- No call in flight. -/
def initial (subscriptions : List WebhookSubscription) (tables : TxTables Tables) : LeaveState :=
  { engine := Concurrent.State.initial subscriptions tables }

end LeaveState

/-! ### The property and the condition -/

/-- The statuses in which a leave takes its days. -/
def LeaveStatus.Live (status : LeaveStatus) : Prop := status = .pending ∨ status = .approved

instance (status : LeaveStatus) : Decidable status.Live :=
  inferInstanceAs (Decidable (status = .pending ∨ status = .approved))

/-- The days of a leave. -/
def LeaveRequest.days (r : LeaveRequest) : Set Date := Set.Icc r.startDate r.endDate

/-- Two leaves of one employee that are live and have a day in common. -/
def LeaveRequest.Clash (r r' : LeaveRequest) : Prop :=
  r.employeeId = r'.employeeId ∧ r.status.Live ∧ r'.status.Live ∧ ¬ Disjoint r.days r'.days

/-- Nobody is booked twice: two live leaves of an employee are disjoint. -/
def NoDoubleBooking (tables : Tables) : Prop :=
  ∀ r ∈ tables.leaveRequests.rows, ∀ r' ∈ tables.leaveRequests.rows, r.id ≠ r'.id →
    r.employeeId = r'.employeeId → r.status.Live → r'.status.Live → Disjoint r.days r'.days

/-- The row `id` is live, or its days are free. -/
def FreeFor (tables : Tables) (id : Uuid) : Prop :=
  ∀ r ∈ tables.leaveRequests.find id, r.status.Live ∨
    hasOverlappingLeave tables r.employeeId r.startDate r.endDate = false

instance (tables : Tables) (id : Uuid) : Decidable (FreeFor tables id) :=
  inferInstanceAs (Decidable (∀ r ∈ tables.leaveRequests.find id, r.status.Live ∨
    hasOverlappingLeave tables r.employeeId r.startDate r.endDate = false))

/-- The leave that a call of the engine is about to approve. -/
def approvedByEngine : Concurrent.Call Payload → Option Uuid
  | ⟨.approve _ _, .checked request _ _⟩ =>
    match request.payload with
    | .leaveRequest payload => some payload.leaveRequestId
    | _ => none
  | _ => none

/-- The leave that a call of `reviewLeave` is about to approve. -/
def approvedByCall : LeaveCall → Option Uuid
  | .setStatus id status _ => if status.Live then some id else none
  | _ => none

/-- The leave that a call of `createLeave` is about to insert. -/
def insertedByCall : LeaveCall → Option (CreateLeaveInput × Actor)
  | .insert input actor => some (input, actor)
  | _ => none

namespace LeaveState

/-- The leave that a step approves. -/
def approved (s : LeaveState) : LeaveEvent → Option Uuid
  | .engine (.commit i _ _) => s.engine.calls[i]?.bind approvedByEngine
  | .setStatus i _ => s.calls[i]?.bind approvedByCall
  | _ => none

/-- The leave that a step inserts. -/
def inserted (s : LeaveState) : LeaveEvent → Option (CreateLeaveInput × Actor)
  | .insert i _ => s.calls[i]?.bind insertedByCall
  | _ => none

/-- The condition on a step: when it inserts a leave, the check would still pass; when it approves
one, that leave is live, or its days are free. -/
def WritesFree (s : LeaveState) (e : LeaveEvent) : Prop :=
  (∀ leave ∈ s.inserted e,
    hasOverlappingLeave s.tables leave.2.sub leave.1.startDate leave.1.endDate = false) ∧
  ∀ id ∈ s.approved e, FreeFor s.tables id

instance (s : LeaveState) (e : LeaveEvent) : Decidable (s.WritesFree e) :=
  inferInstanceAs (Decidable (_ ∧ _))

end LeaveState

/-! ### Leaves without conflicts -/

section Conflicts

variable {tables tables' : Tables} {r r' : LeaveRequest} {id : Uuid}

theorem LeaveRequest.Clash.symm (h : r.Clash r') : r'.Clash r :=
  ⟨h.1.symm, h.2.2.1, h.2.1, fun hdisjoint => h.2.2.2 hdisjoint.symm⟩

/-- The property in the terms of tables without conflicts. -/
theorem noDoubleBooking_iff :
    NoDoubleBooking tables ↔ Conflicts.Free LeaveRequest.Clash tables.leaveRequests := by
  constructor
  · intro h r hr r' hr' hne hclash
    exact hclash.2.2.2 (h r hr r' hr' hne hclash.1 hclash.2.1 hclash.2.2.1)
  · intro h r hr r' hr' hne hemployee hlive hlive'
    by_contra hdisjoint
    exact h r hr r' hr' hne ⟨hemployee, hlive, hlive', hdisjoint⟩

/-- Two leaves with a day in common are what the query looks for. -/
theorem overlap_of_not_disjoint (h : ¬ Disjoint r.days r'.days) :
    r'.startDate ≤ r.endDate ∧ r.startDate ≤ r'.endDate := by
  obtain ⟨d, hd, hd'⟩ := Set.not_disjoint_iff.1 h
  exact ⟨Nat.le_trans hd'.1 hd.2, Nat.le_trans hd.1 hd'.2⟩

/-- A leave whose days are free clashes with none. -/
theorem not_clash_of_free
    (h : hasOverlappingLeave tables r.employeeId r.startDate r.endDate = false)
    (hr' : r' ∈ tables.leaveRequests.rows) : ¬ r.Clash r' := by
  intro hclash
  have hnot := List.any_eq_false.1 h r' hr'
  obtain ⟨hstart, hend⟩ := overlap_of_not_disjoint hclash.2.2.2
  exact hnot (decide_eq_true ⟨hclash.1.symm, hclash.2.2.1, hstart, hend⟩)

end Conflicts

/-! ### What the hooks do to the leaves -/

/-- The row `id` is given a status; its employee and its days stay. -/
inductive StatusSet (id : Uuid) (status : LeaveStatus) (t : Table LeaveRequest.id) :
    Table LeaveRequest.id → Prop
  | update {f : LeaveRequest → LeaveRequest} (hf : ∀ r, (f r).id = r.id)
      (hcols : ∀ r, (f r).employeeId = r.employeeId ∧ (f r).startDate = r.startDate ∧
        (f r).endDate = r.endDate ∧ (f r).status = status) :
      StatusSet id status t (t.update id f hf)

/-- The hooks leave the leaves alone, or set the status of the one of their payload; only
`onApprove` makes it live. -/
theorem statusSet_of_hookEffect {payload : Payload} {approves : Bool} {env : HookEnv}
    {tables tables' : Tables} (h : HookEffect env tables payload approves tables') :
    tables'.leaveRequests = tables.leaveRequests ∨
      ∃ p status, payload = .leaveRequest p ∧ (status.Live → approves = true) ∧
        StatusSet p.leaveRequestId status tables.leaveRequests tables'.leaveRequests := by
  cases h with
  | leaveApproved p reviewerId =>
    refine Or.inr ⟨p, .approved, rfl, fun _ => rfl, ?_⟩
    refine .update ?_ fun r => ?_
    · exact fun _ => rfl
    · exact ⟨rfl, rfl, rfl, rfl⟩
  | leaveRejected p reviewerId =>
    refine Or.inr ⟨p, .rejected, rfl, fun hlive => absurd hlive (by decide), ?_⟩
    refine .update ?_ fun r => ?_
    · exact fun _ => rfl
    · exact ⟨rfl, rfl, rfl, rfl⟩
  | leaveExpired p =>
    refine Or.inr ⟨p, .cancelled, rfl, fun hlive => absurd hlive (by decide), ?_⟩
    refine .update ?_ fun r => ?_
    · exact fun _ => rfl
    · exact ⟨rfl, rfl, rfl, rfl⟩
  | _ => exact Or.inl rfl

/-- Only an approval calls `onApprove`. -/
theorem Concurrent.Operation.eq_approve_of_approves {operation : Operation}
    {registry : RequestRegistry Payload Tables} {request : RequestItem Payload}
    {t : Transition Payload Tables} {delegation : Option ApprovalDelegation} {now : Time}
    (ht : RequestEngine.TransitionOf registry request t) (happ : t.approves = true)
    (hdecision : t.approval = operation.decision request delegation now) :
    ∃ note actor, operation = .approve note actor := by
  cases ht with
  | finalApproval hdef hfinal delegation' note actor now' =>
    cases operation with
    | approve note actor => exact ⟨note, actor, rfl⟩
    | reject note actor =>
      have hverdict := congrArg (Option.map RequestApproval.decision) hdecision
      cases hverdict
    | cancel actor => cases hdecision
    | expire => cases hdecision
  | _ => cases happ

/-! ### What a step writes among the leaves -/

namespace LeaveState

/-- What a step leaves of the leaves: nothing has been written; a row of `createLeave` has been
inserted; or a row has kept its employee and its days, and has become live only if the step
approves it. -/
inductive Wrote (s : LeaveState) (e : LeaveEvent) : Table LeaveRequest.id → Prop
  | nothing : Wrote s e s.tables.leaveRequests
  | inserted {input : CreateLeaveInput} {actor : Actor} {rowId : Uuid}
      {leaveRequests : Table LeaveRequest.id} (h : (input, actor) ∈ s.inserted e)
      (hinsert : s.tables.leaveRequests.insert (leaveRow input actor.sub rowId) =
        some leaveRequests) : Wrote s e leaveRequests
  | updated {id : Uuid} {f : LeaveRequest → LeaveRequest} (hf : ∀ r, (f r).id = r.id)
      (hkeep : ∀ r, (f r).employeeId = r.employeeId ∧ (f r).startDate = r.startDate ∧
        (f r).endDate = r.endDate)
      (hlive : (∀ r, (f r).status.Live → r.status.Live) ∨ id ∈ s.approved e) :
      Wrote s e (s.tables.leaveRequests.update id f hf)

variable {s : LeaveState} {i : ℕ}

/-- Setting a status. -/
theorem Wrote.of_statusSet {e : LeaveEvent} {id : Uuid} {status : LeaveStatus}
    {leaveRequests : Table LeaveRequest.id}
    (h : StatusSet id status s.tables.leaveRequests leaveRequests)
    (hlive : status.Live → id ∈ s.approved e) : Wrote s e leaveRequests := by
  obtain ⟨hf, hcols⟩ := h
  refine .updated hf (fun r => ⟨(hcols r).1, (hcols r).2.1, (hcols r).2.2.1⟩) ?_
  by_cases hl : status.Live
  · exact Or.inr (hlive hl)
  · refine Or.inl fun r hr => ?_
    rw [(hcols r).2.2.2] at hr
    exact absurd hr hl

/-- **A step of the engine.** -/
theorem wrote_engine (s : LeaveState) (e : Concurrent.Event Payload) :
    Wrote s (.engine e) (Concurrent.step moduleRegistry s.engine e).db.domain.leaveRequests := by
  rcases Concurrent.step_cases moduleRegistry s.engine e with ⟨hdb, -, -⟩ |
    ⟨⟨type, payload, actor, opts, now, newId, env, row, -, hs⟩, -, -⟩ |
    ⟨i, now, env, operation, request, delegation, view, rfl, hc⟩
  · rw [hdb]
    exact .nothing
  · rw [hs.domain fun typeDef hdef => onSubmit_eq_none hdef]
    exact .nothing
  · obtain ⟨row, htx⟩ := hc.tx
    obtain ⟨t, ht, htc, hdecision⟩ := operation.tx_ok htx
    obtain ⟨tables, hhook, hdomain⟩ := htc.hook
    rw [hdomain]
    rcases statusSet_of_hookEffect (hookEffect_of_transition ht hhook) with heq |
      ⟨p, status, hpayload, hlive, hset⟩
    · rw [heq]
      exact .nothing
    · refine .of_statusSet hset fun hl => ?_
      obtain ⟨note, actor, rfl⟩ := Concurrent.Operation.eq_approve_of_approves ht (hlive hl) hdecision
      simp [approved, hc.call, approvedByEngine, hpayload]

/-- **What one step can do** to the leaves. -/
theorem step_wrote (s : LeaveState) (e : LeaveEvent) : Wrote s e (s.step e).tables.leaveRequests := by
  cases e with
  | engine e => exact wrote_engine s e
  | createLeave input actor =>
    simp only [step]
    split <;> exact .nothing
  | reviewLeave id approve actor =>
    simp only [step]
    split <;> exact .nothing
  | cancelLeave id =>
    simp only [step]
    split <;> exact .nothing
  | insert i rowId =>
    simp only [step]
    split
    · rename_i input actor hcall
      split
      · rename_i tables hinsert
        simp only [insertLeave, Except.bind_eq_ok_iff, Outcome.orThrow_eq_ok_iff,
          Except.pure_eq_ok_iff] at hinsert
        obtain ⟨leaveRequests, hinsert, rfl⟩ := hinsert
        -- the row is written as it has been checked, without another look at the table
        refine .inserted ?_ hinsert
        simp [inserted, hcall, insertedByCall]
      · exact .nothing
    · exact .nothing
  | submit i now engineId env =>
    simp only [step]
    split
    · split
      · rename_i db item hsubmit
        have hdomain := (RequestEngine.submit_ok hsubmit).domain fun typeDef hdef =>
          onSubmit_eq_none hdef
        show Wrote s _ db.domain.leaveRequests
        rw [hdomain]
        exact .nothing
      · exact .nothing
    · exact .nothing
  | link i =>
    simp only [step]
    split
    · refine .updated ?_ (fun r => ?_) (Or.inl fun r hr => ?_)
      · exact fun _ => rfl
      · exact ⟨rfl, rfl, rfl⟩
      · exact hr
    · exact .nothing
  | read i =>
    simp only [step]
    split
    · rename_i engineId operation hcall
      have hdb : (Concurrent.step moduleRegistry s.engine (.read engineId operation)).db =
          s.engine.db := by
        simp only [Concurrent.step]
        split <;> rfl
      show Wrote s _ (Concurrent.step moduleRegistry s.engine (.read engineId operation)).db.domain.leaveRequests
      rw [hdb]
      exact .nothing
    · exact .nothing
  | setStatus i now =>
    simp only [step]
    split
    · rename_i id status reviewerId hcall
      have hset : StatusSet id status s.tables.leaveRequests
          (setLeaveStatus id status reviewerId now s.tables).leaveRequests := by
        refine .update ?_ fun r => ?_
        · exact fun _ => rfl
        · exact ⟨rfl, rfl, rfl, rfl⟩
      refine .of_statusSet hset fun hl => ?_
      simp [approved, hcall, approvedByCall, hl]
    · exact .nothing

/-- **The step lemma.** -/
theorem step_noDoubleBooking (s : LeaveState) (e : LeaveEvent) (h : NoDoubleBooking s.tables)
    (hok : s.WritesFree e) : NoDoubleBooking (s.step e).tables := by
  rw [noDoubleBooking_iff] at h ⊢
  have hwrote := step_wrote s e
  generalize (s.step e).tables.leaveRequests = leaveRequests at hwrote ⊢
  cases hwrote with
  | nothing => exact h
  | @inserted input actor rowId _ hinserted hinsert =>
    have hfree := hok.1 (input, actor) hinserted
    refine h.insert (fun _ _ => LeaveRequest.Clash.symm) hinsert fun x hx => ?_
    exact not_clash_of_free hfree hx
  | @updated id f hf hkeep hlive =>
    have hclash : ∀ r x, r.status.Live → (f r).Clash x → r.Clash x := by
      intro r x hr hclash
      obtain ⟨hemployee, hstart, hend⟩ := hkeep r
      have hdays : (f r).days = r.days := by rw [LeaveRequest.days, hstart, hend, LeaveRequest.days]
      exact ⟨hemployee.symm.trans hclash.1, hr, hclash.2.2.1, hdays ▸ hclash.2.2.2⟩
    refine h.update hf (fun _ _ => LeaveRequest.Clash.symm) fun r hr => ?_
    rcases hlive with hlive | happroved
    · exact Or.inl fun x hx => hclash r x (hlive r hx.2.1) hx
    · -- the step makes the row live: it was, or its days are free
      rcases hok.2 id happroved r hr with hr' | hfree
      · exact Or.inl fun x => hclash r x hr'
      · refine Or.inr fun x hx _ => not_clash_of_free ?_ hx
        obtain ⟨hemployee, hstart, hend⟩ := hkeep r
        rw [hemployee, hstart, hend]
        exact hfree

/-- **Nobody is booked twice.**  When every leave that is inserted has its days free at that
moment, and every leave that is approved is live or has its days free, no run books an employee
twice. -/
theorem run_noDoubleBooking (subscriptions : List WebhookSubscription) (tables : TxTables Tables)
    (es : List LeaveEvent) (h : NoDoubleBooking tables.domain)
    (hok : Runs.Meets step WritesFree (initial subscriptions tables) es) :
    NoDoubleBooking (Runs.run step (initial subscriptions tables) es).tables :=
  Runs.run_induction step_noDoubleBooking h hok

namespace Sample

def employee : Actor := ⟨1, "user1@example.com"⟩

def manager : Actor := ⟨2, "user2@example.com"⟩

/-- The manager holds every permission. -/
def view : AuthzView where
  check user _ := decide (user = 2)
  delegations := []
  now := 0

def input : CreateLeaveInput where
  leaveType := .annual
  startDate := 10
  endDate := 14

def start : LeaveState := initial [] ⟨[], Tables.empty⟩

/-- The `i`-th call files a leave. -/
def file (i : ℕ) (rowId engineId : Uuid) : List LeaveEvent :=
  [.createLeave input employee, .insert i rowId, .submit i 0 engineId ⟨0, 90⟩, .link i]

/-- The manager approves an engine request. -/
def approve (i : ℕ) (engineId : Uuid) : List LeaveEvent :=
  [.engine (.read engineId (.approve none manager)), .engine (.check i view),
    .engine (.commit i 6 ⟨6, 91⟩)]

/-- The employee cancels a leave. -/
def cancel (i : ℕ) (rowId : Uuid) : List LeaveEvent := [.cancelLeave rowId, .setStatus i 5]

/-- Two calls have both found no overlap. -/
def race : List LeaveEvent :=
  [.createLeave input employee, .createLeave input employee, .insert 0 10, .insert 1 11]

/-- The first leave is cancelled, and the days are taken by another one; then the engine request of
the first one is approved. -/
def revival : List LeaveEvent := file 0 10 20 ++ cancel 1 10 ++ file 2 11 21 ++ approve 0 20

/-- The first leave is approved and cancelled, then the days are taken by another one. -/
def orderly : List LeaveEvent := file 0 10 20 ++ approve 0 20 ++ cancel 1 10 ++ file 2 11 21

/-- Two live leaves of an employee with a day in common. -/
theorem not_disjoint {tables : Tables} {r q : LeaveRequest}
    (hr : r ∈ tables.leaveRequests.rows) (hq : q ∈ tables.leaveRequests.rows)
    (hne : r.id ≠ q.id) (hemployee : r.employeeId = q.employeeId) (hlive : r.status.Live)
    (hqlive : q.status.Live) {d : Date} (hd : r.startDate ≤ d ∧ d ≤ r.endDate)
    (hqd : q.startDate ≤ d ∧ d ≤ q.endDate) : ¬ NoDoubleBooking tables := by
  intro h
  exact Set.disjoint_left.1 (h r hr q hq hne hemployee hlive hqlive) hd hqd

/-- The employee is booked twice after the race, and after the revival. -/
theorem not_noDoubleBooking :
    NoDoubleBooking start.tables ∧ ¬ NoDoubleBooking (Runs.run step start race).tables ∧
      ¬ NoDoubleBooking (Runs.run step start revival).tables := by
  refine ⟨fun r hr => absurd hr (List.not_mem_nil), ?_, ?_⟩
  · refine not_disjoint (r := leaveRow input 1 10) (q := leaveRow input 1 11) (d := 10) ?_ ?_ ?_ rfl
      ?_ ?_ ?_ ?_ <;> decide
  · refine not_disjoint
      (r := { leaveRow input 1 10 with
        status := .approved, reviewerId := some 2, reviewedAt := some 6, requestId := some 20 })
      (q := { leaveRow input 1 11 with requestId := some 21 }) (d := 10) ?_ ?_ ?_ rfl
      ?_ ?_ ?_ ?_ <;> decide

/-- A run in which nobody is booked twice. -/
theorem run_noDoubleBooking_orderly : NoDoubleBooking (Runs.run step start orderly).tables :=
  run_noDoubleBooking [] ⟨[], Tables.empty⟩ orderly (fun r hr => absurd hr (List.not_mem_nil))
    (by decide)

end Sample

end LeaveState

end OpsHub
