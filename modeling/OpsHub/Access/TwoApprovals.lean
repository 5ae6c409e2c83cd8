import OpsHub.Domain.Services
import OpsHub.Access.ConcurrentGrants

/-!
# Two approvals for privileged access

`AccessRequestService.submit`, `approve` and `reject` step by step.  `submit` commits the
domain row, the engine request and the back-link one after the other; `approve` and
`reject` read the row, and what they do next depends on the back-link in their copy.
Any number of these calls are in flight, and each may stop at any point.

* `TwoApprovals`: a filed request with a grant has two recorded approvals, of step 1 and
  of step 2, by reviewers other than the requester;
* `run_twoApprovals`: it holds in every run in which no filed request is approved before
  its back-link is stored, and no requester reviews under a delegation;
* `not_twoApprovals`: both do happen.
-/

namespace OpsHub

namespace TwoApprovals

open RequestEngine AccessRequestService

/-! ### The calls of the service -/

/-- How far a call of `submit` has come. -/
inductive SubmitPhase
  | created
  | submitted (engineId : Uuid)
  | finished
  deriving DecidableEq, Repr

/-- A call of `submit` whose domain row is stored. -/
structure Submission where
  rowId : Uuid
  input : SubmitInput
  actor : Actor
  phase : SubmitPhase
  deriving DecidableEq, Repr

/-- The two ways to review. -/
inductive Verdict
  | approve
  | reject
  deriving DecidableEq, Repr

/-- The engine operation of a review. -/
def Verdict.operation (note : Option String) (actor : Actor) : Verdict → Concurrent.Operation
  | .approve => .approve note actor
  | .reject => .reject note actor

/-- The word of the precondition failure. -/
def Verdict.verb : Verdict → String
  | .approve => "approved"
  | .reject => "rejected"

/-- A call of `approve` or `reject` that has read the domain row; `request` is its copy,
until the call goes on. -/
structure ReviewCall where
  verdict : Verdict
  note : Option String
  actor : Actor
  request : Option AccessRequest
  deriving DecidableEq, Repr

/-- The engine, and the calls of the service. -/
structure State where
  engine : Concurrent.State Payload Tables
  submissions : List Submission
  calls : List ReviewCall

/-- A database without engine requests, and no call in flight. -/
def State.initial (subscriptions : List WebhookSubscription) (tables : TxTables Tables) : State :=
  ⟨Concurrent.State.initial subscriptions tables, [], []⟩

/-- The domain tables. -/
def State.tables (s : State) : Tables := s.engine.db.domain

/-- The state with other domain tables. -/
def State.withTables (s : State) (tables : Tables) : State :=
  { s with engine := { s.engine with db := { s.engine.db with domain := tables } } }

/-- One step of one call.  `create`, `submitEngine` and `backlink` are the commits of
`submit`; `read` is the beginning of `approve` and `reject`, `proceed` what they do with
the row, `check` and `commit` the steps of the engine call. -/
inductive Event
  | create (input : SubmitInput) (actor : Actor) (now : Time) (rowId : Uuid)
  | submitEngine (i : ℕ) (now : Time) (engineId : Uuid) (env : HookEnv)
  | backlink (i : ℕ)
  | read (requestId : Uuid) (verdict : Verdict) (note : Option String) (actor : Actor)
  | proceed (i : ℕ) (now : Time) (env : HookEnv)
  | check (i : ℕ) (view : AuthzView)
  | commit (i : ℕ) (now : Time) (env : HookEnv)

/-- The transaction of a review without engine request. -/
def legacyTx (verdict : Verdict) (note : Option String) (actor : Actor) (request : AccessRequest)
    (now : Time) (env : HookEnv) (tables : Tables) : Except Failure Tables :=
  match verdict with
  | .approve => legacyApprove request note actor now env.newId tables
  | .reject => .ok (legacyReview .rejected request.id actor.sub note now tables)

/-- The state after one step; a step that is not due leaves the state as it is. -/
def step (s : State) : Event → State
  | .create input actor now rowId =>
    match create input actor.sub rowId now s.tables with
    | .ok tables =>
      { s.withTables tables with
        submissions := s.submissions ++ [⟨rowId, input, actor, .created⟩] }
    | .error _ => s
  | .submitEngine i now engineId env =>
    match s.submissions[i]? with
    | some ⟨rowId, input, actor, .created⟩ =>
      match submit moduleRegistry "access_request" (enginePayload input actor.sub rowId) actor
          { expiresAt := some (now + 168 * msPerHour) } now engineId env s.engine.db with
      | .ok (db, engineItem) =>
        { s with
          engine := { s.engine with db := db }
          submissions := s.submissions.set i ⟨rowId, input, actor, .submitted engineItem.id⟩ }
      | .error _ => { s with submissions := s.submissions.set i ⟨rowId, input, actor, .finished⟩ }
    | _ => s
  | .backlink i =>
    match s.submissions[i]? with
    | some ⟨rowId, input, actor, .submitted engineId⟩ =>
      { s.withTables (AccessRequestService.backlink rowId engineId s.tables) with
        submissions := s.submissions.set i ⟨rowId, input, actor, .finished⟩ }
    | _ => s
  | .read requestId verdict note actor =>
    match (do
        let request ← getById s.tables requestId
        assertPending request verdict.verb
        pure request : Except Failure AccessRequest) with
    | .ok request => { s with calls := s.calls ++ [⟨verdict, note, actor, some request⟩] }
    | .error _ => s
  | .proceed i now env =>
    match s.calls[i]? with
    | some ⟨verdict, note, actor, some request⟩ =>
      let s := { s with calls := s.calls.set i ⟨verdict, note, actor, none⟩ }
      match request.requestId with
      | some engineId =>
        { s with
          engine := Concurrent.step moduleRegistry s.engine
            (.read engineId (verdict.operation note actor)) }
      | none =>
        s.withTables (Outcome.commit s.tables (legacyTx verdict note actor request now env s.tables))
    | _ => s
  | .check i view => { s with engine := Concurrent.step moduleRegistry s.engine (.check i view) }
  | .commit i now env =>
    { s with engine := Concurrent.step moduleRegistry s.engine (.commit i now env) }

/-! ### Two approvals -/

/-- The engine holds an approval of step `k` of the request `id`, by a reviewer who held
the permission of the step and is not `requesterId`. -/
def ApprovedStep (engine : Concurrent.State Payload Tables) (id requesterId : Uuid) (k : ℕ) :
    Prop :=
  ∃ rv ∈ engine.reviews, rv.approval ∈ engine.db.requestApprovals ∧ rv.approval.requestId = id ∧
    rv.approval.step = k ∧ rv.approval.decision = .approved ∧
    rv.approval.approverId ≠ requesterId ∧
    ∃ actor : Actor, actor.sub = rv.approval.approverId ∧
      Permitted rv.view actor (requiredPermission accessRequestTypeDef k)

/-- An engine request about the access request `a` of `requesterId` has passed both steps. -/
def ApprovedTwice (engine : Concurrent.State Payload Tables) (a requesterId : Uuid) : Prop :=
  ∃ r ∈ engine.db.requestItems.rows, r.payload.accessRequestId = some a ∧
    r.requesterId = requesterId ∧
    ApprovedStep engine r.id requesterId 1 ∧ ApprovedStep engine r.id requesterId 2

/-- The filed access requests, each with its requester. -/
def State.filed (s : State) : List (Uuid × Uuid) :=
  s.submissions.map (fun filed => (filed.rowId, filed.actor.sub))

/-- **The guarantee**: a filed access request with a grant has been approved twice. -/
def Guaranteed (s : State) : Prop :=
  ∀ g ∈ s.tables.accessGrants.rows, ∀ requesterId, (g.requestId, requesterId) ∈ s.filed →
    ApprovedTwice s.engine g.requestId requesterId

/-! ### The condition -/

/-- A call about to approve the row itself. -/
def State.legacyApproval (s : State) : Event → Option AccessRequest
  | .proceed i _ _ =>
    match s.calls[i]? with
    | some ⟨.approve, _, _, some request⟩ => if request.requestId = none then some request else none
    | _ => none
  | _ => none

/-- The copy that an approval is about to be checked on, with its actor and what the check
will see. -/
def State.checkedApproval (s : State) : Event → Option (RequestItem Payload × Actor × AuthzView)
  | .check i view =>
    match s.engine.calls[i]? with
    | some ⟨.approve _ actor, .read request⟩ => some (request, actor, view)
    | _ => none
  | _ => none

/-- The requester reviews with the permission of the step and under the delegation of
someone else. -/
def SelfReview (request : RequestItem Payload) (actor : Actor) (view : AuthzView) : Prop :=
  request.requesterId = actor.sub ∧
    Permitted view actor (requiredPermission accessRequestTypeDef request.currentStep) ∧
    ¬ ∀ d ∈ view.activeDelegation actor.sub, d.fromUserId = actor.sub

instance (request : RequestItem Payload) (actor : Actor) (view : AuthzView) :
    Decidable (SelfReview request actor view) :=
  inferInstanceAs (Decidable (_ ∧ _ ∧ ¬ _))

/-- The step neither approves a filed row itself nor checks a requester who reviews under
a delegation. -/
structure Allowed (s : State) (e : Event) : Prop where
  linked : ∀ request ∈ s.legacyApproval e, ∀ filed ∈ s.filed, filed.1 ≠ request.id
  segregated : ∀ c ∈ s.checkedApproval e, ¬ SelfReview c.1 c.2.1 c.2.2

instance (s : State) (e : Event) : Decidable (Allowed s e) :=
  decidable_of_iff
    ((∀ request ∈ s.legacyApproval e, ∀ filed ∈ s.filed, filed.1 ≠ request.id) ∧
      ∀ c ∈ s.checkedApproval e, ¬ SelfReview c.1 c.2.1 c.2.2)
    ⟨fun h => ⟨h.1, h.2⟩, fun h => ⟨h.linked, h.segregated⟩⟩

/-! ### What the engine keeps -/

section Engine

variable {filed : List (Uuid × Uuid)} {engine engine' : Concurrent.State Payload Tables}
  {request x : RequestItem Payload}

/-- The later state has every review, decision and request of the earlier one. -/
structure Extends (engine engine' : Concurrent.State Payload Tables) : Prop where
  reviews : ∀ rv ∈ engine.reviews, rv ∈ engine'.reviews
  approvals : ∀ a ∈ engine.db.requestApprovals, a ∈ engine'.db.requestApprovals
  requests : ∀ r ∈ engine.db.requestItems.rows, ∃ r' ∈ engine'.db.requestItems.rows,
    r'.id = r.id ∧ r'.payload = r.payload ∧ r'.requesterId = r.requesterId

theorem ApprovedStep.mono {id requesterId : Uuid} {k : ℕ} (hext : Extends engine engine')
    (h : ApprovedStep engine id requesterId k) : ApprovedStep engine' id requesterId k := by
  obtain ⟨rv, hrv, happroval, hrest⟩ := h
  exact ⟨rv, hext.reviews rv hrv, hext.approvals _ happroval, hrest⟩

theorem ApprovedTwice.mono {a requesterId : Uuid} (hext : Extends engine engine')
    (h : ApprovedTwice engine a requesterId) : ApprovedTwice engine' a requesterId := by
  obtain ⟨r, hr, hpayload, hrequester, h1, h2⟩ := h
  obtain ⟨r', hr', hid, hpayload', hrequester'⟩ := hext.requests r hr
  refine ⟨r', hr', hpayload' ▸ hpayload, hrequester' ▸ hrequester, ?_, ?_⟩
  · rw [hid]
    exact h1.mono hext
  · rw [hid]
    exact h2.mono hext

/-- A request waits on step 1, or on step 2 after an approval of step 1. -/
def Reached (engine : Concurrent.State Payload Tables) (x : RequestItem Payload) : Prop :=
  x.currentStep = 1 ∨ x.currentStep = 2 ∧ ApprovedStep engine x.id x.requesterId 1

/-- The request `x` is the engine request of a filed access request. -/
structure Belongs (filed : List (Uuid × Uuid)) (engine : Concurrent.State Payload Tables)
    (x : RequestItem Payload) : Prop where
  filed : ∃ a, x.payload.accessRequestId = some a ∧ (a, x.requesterId) ∈ filed
  type : x.type = "access_request"
  reached : Reached engine x

theorem Belongs.mono {filed' : List (Uuid × Uuid)} (hext : Extends engine engine')
    (hfiled : ∀ f ∈ filed, f ∈ filed') (h : Belongs filed engine x) : Belongs filed' engine' x := by
  obtain ⟨a, ha, hmem⟩ := h.filed
  exact ⟨⟨a, ha, hfiled _ hmem⟩, h.type, h.reached.imp_right fun h => ⟨h.1, h.2.mono hext⟩⟩

/-- A call that waits to commit an approval is not the requester's. -/
def Segregated (call : Concurrent.Call Payload) : Prop :=
  ∀ note actor request delegation view, call.operation = .approve note actor →
    call.phase = .checked request delegation view → request.requesterId ≠ actor.sub

/-- The engine invariant: decisions come with what their check has seen, and every request
and every copy of one belongs to a filed access request. -/
structure EngineInvariant (filed : List (Uuid × Uuid))
    (engine : Concurrent.State Payload Tables) : Prop where
  passed : ∀ call ∈ engine.calls, call.Passed moduleRegistry
  segregated : ∀ call ∈ engine.calls, Segregated call
  stored : ∀ x ∈ engine.db.requestItems.rows, Belongs filed engine x
  copies : ∀ x ∈ engine.copies, Belongs filed engine x ∧
    ∃ r, engine.db.requestItems.find x.id = some r ∧ r.payload = x.payload ∧
      r.requesterId = x.requesterId

theorem moduleRegistry_access : moduleRegistry "access_request" = some accessRequestTypeDef := rfl

/-- Step 2 is the last one. -/
theorem isFinalStep_access (k : ℕ) : isFinalStep accessRequestTypeDef k = decide (2 ≤ k) := by
  simp only [isFinalStep, accessRequestTypeDef, AccessRequestTypeDef.approvalSteps, List.all_cons,
    List.all_nil, Bool.and_true, ← Bool.decide_and, decide_eq_decide]
  omega

/-- A check that does not let the requester through under a delegation lets no requester
through. -/
theorem segregated_of_check {note : Option String} {actor : Actor} {view : AuthzView}
    {delegation : Option ApprovalDelegation} (htype : request.type = "access_request")
    (hcheck : (Concurrent.Operation.approve note actor).check moduleRegistry view request =
      some delegation)
    (hself : ¬ SelfReview request actor view) : request.requesterId ≠ actor.sub := by
  obtain ⟨-, ⟨typeDef, hdef, hsod, hperm⟩, -⟩ :=
    reviewCheck_eq_ok_iff.1 (Except.toOption_eq_some_iff.1 hcheck)
  rw [htype, moduleRegistry_access] at hdef
  obtain rfl := Option.some.inj hdef
  intro heq
  refine hself ⟨heq, hperm, fun hall => hsod ⟨rfl, ?_⟩⟩
  cases hdel : view.activeDelegation actor.sub with
  | none => exact heq
  | some d => exact heq.trans (hall d hdel).symm

/-- The step of an engine call is quiet, or adds a copy of a stored request. -/
theorem EngineInvariant.quiet {e : Concurrent.Event Payload} (h : EngineInvariant filed engine)
    (hdb : (Concurrent.step moduleRegistry engine e).db = engine.db)
    (hreviews : (Concurrent.step moduleRegistry engine e).reviews = engine.reviews)
    (hcopies : ∀ r ∈ (Concurrent.step moduleRegistry engine e).copies,
      r ∈ engine.copies ∨ r ∈ engine.db.requestItems.rows)
    (hcalls : ∀ call ∈ (Concurrent.step moduleRegistry engine e).calls, Segregated call) :
    EngineInvariant filed (Concurrent.step moduleRegistry engine e) := by
  have hext : Extends engine (Concurrent.step moduleRegistry engine e) := by
    refine ⟨fun rv hrv => hreviews ▸ hrv, fun a ha => hdb ▸ ha, fun r hr => ?_⟩
    exact ⟨r, hdb ▸ hr, rfl, rfl, rfl⟩
  constructor
  · exact Concurrent.step_passed h.passed e
  · exact hcalls
  · intro x hx
    rw [hdb] at hx
    exact (h.stored x hx).mono hext fun _ hf => hf
  · intro x hx
    rcases hcopies x hx with hx | hx
    · obtain ⟨hb, hr⟩ := h.copies x hx
      exact ⟨hb.mono hext fun _ hf => hf, hdb ▸ hr⟩
    · exact ⟨(h.stored x hx).mono hext fun _ hf => hf, x, hdb ▸ Table.find_of_mem hx, rfl, rfl⟩

section Commit

variable {t : Transition Payload Tables} {row : RequestItem Payload} {i : ℕ} {now : Time}
  {env : HookEnv} {operation : Concurrent.Operation} {delegation : Option ApprovalDelegation}
  {view : AuthzView}

/-- A commit removes no review, decision or request. -/
theorem extends_commit
    (hc : Concurrent.Commit moduleRegistry engine engine' i now env operation request delegation view)
    (ht : TransitionOf moduleRegistry request t) (htc : t.Committed env engine.db engine'.db row) :
    Extends engine engine' := by
  constructor
  · intro rv hrv
    rw [hc.reviews]
    exact List.mem_append_left _ hrv
  · intro a ha
    rw [htc.requestApprovals]
    exact List.mem_append_left _ ha
  · intro r hr
    obtain ⟨r', hr', -, hrequester, hpayload⟩ := ht.find_kept htc (Table.find_of_mem hr)
    exact ⟨r', Table.mem_of_find hr', Table.key_of_find hr', hpayload, hrequester⟩

/-- A committed approval is an approval of the step of the copy. -/
theorem approvedStep_commit (h : EngineInvariant filed engine)
    (hc : Concurrent.Commit moduleRegistry engine engine' i now env operation request delegation view)
    (htc : t.Committed env engine.db engine'.db row)
    (happroval : t.approval = operation.decision request delegation now)
    (happroves : ∃ a ∈ t.approval, a.decision = .approved) :
    ApprovedStep engine' request.id request.requesterId request.currentStep := by
  obtain ⟨a, ha, hdecision⟩ := happroves
  cases operation with
  | approve note actor =>
    have hmem := List.mem_of_getElem? hc.call
    have hcheck := h.passed _ hmem request delegation view rfl
    obtain ⟨-, ⟨typeDef, hdef, -, hperm⟩, -⟩ :=
      reviewCheck_eq_ok_iff.1 (Except.toOption_eq_some_iff.1 hcheck)
    rw [(h.copies request hc.mem_copies).1.type, moduleRegistry_access] at hdef
    obtain rfl := Option.some.inj hdef
    refine ⟨⟨request, view, approvalRow request delegation .approved note actor now⟩, ?_, ?_, rfl,
      rfl, rfl, ?_, actor, rfl, hperm⟩
    · rw [hc.reviews]
      simp [Concurrent.Operation.decision]
    · rw [htc.requestApprovals, happroval]
      simp [Concurrent.Operation.decision]
    · exact (h.segregated _ hmem note actor request delegation view rfl rfl).symm
  | reject note actor =>
    rw [happroval] at ha
    obtain rfl := Option.some.inj ha
    cases hdecision
  | cancel actor =>
    rw [happroval] at ha
    cases ha
  | expire =>
    rw [happroval] at ha
    cases ha

/-- A committed final approval is the second one: the copy is at its last step. -/
theorem approvedTwice_commit (h : EngineInvariant filed engine)
    (hc : Concurrent.Commit moduleRegistry engine engine' i now env operation request delegation view)
    (ht : TransitionOf moduleRegistry request t) (htc : t.Committed env engine.db engine'.db row)
    (happroval : t.approval = operation.decision request delegation now) (happ : t.approves = true)
    {a : Uuid} (ha : request.payload.accessRequestId = some a) :
    ApprovedTwice engine' a request.requesterId := by
  have hext := extends_commit hc ht htc
  obtain ⟨hb, r, hr, hpayload, hrequester⟩ := h.copies request hc.mem_copies
  cases ht with
  | finalApproval hdef hfinal delegation' note actor now' =>
    have happroved := approvedStep_commit h hc htc happroval ⟨_, rfl, rfl⟩
    rw [hb.type, moduleRegistry_access] at hdef
    obtain rfl := Option.some.inj hdef
    rw [isFinalStep_access, decide_eq_true_iff] at hfinal
    have htwo : request.currentStep = 2 ∧ ApprovedStep engine request.id request.requesterId 1 := by
      rcases hb.reached with hone | htwo
      · omega
      · exact htwo
    obtain ⟨r', hr', hid', hpayload', hrequester'⟩ := hext.requests r (Table.mem_of_find hr)
    have hid : r'.id = request.id := hid'.trans (Table.key_of_find hr)
    refine ⟨r', hr', ?_, hrequester'.trans hrequester, ?_, ?_⟩
    · rw [hpayload', hpayload, ha]
    · rw [hid]
      exact htwo.2.mono hext
    · rw [hid, ← htwo.1]
      exact happroved
  | _ => cases happ

/-- The request has reached its step after a commit on it. -/
theorem reached_commit (h : EngineInvariant filed engine)
    (hc : Concurrent.Commit moduleRegistry engine engine' i now env operation request delegation view)
    (ht : TransitionOf moduleRegistry request t) (htc : t.Committed env engine.db engine'.db row)
    (happroval : t.approval = operation.decision request delegation now)
    {old : RequestItem Payload} (hold : engine.db.requestItems.find request.id = some old) :
    Reached engine' (t.update old) := by
  have hext := extends_commit hc ht htc
  obtain ⟨hb, r, hr, -, hrequester⟩ := h.copies request hc.mem_copies
  obtain rfl : r = old := Option.some.inj (hr.symm.trans hold)
  have hid : (t.update r).id = request.id := by rw [t.update_id, Table.key_of_find hr]
  have hreq : (t.update r).requesterId = request.requesterId := by
    rw [(ht.update_fixed r).2.1, hrequester]
  have hcopy : Reached engine' request := hb.reached.imp_right fun h => ⟨h.1, h.2.mono hext⟩
  have hkept : (t.update r).currentStep = r.currentStep → Reached engine' (t.update r) := by
    intro hstep
    rw [Reached, hstep, t.update_id, (ht.update_fixed r).2.1]
    exact (h.stored r (Table.mem_of_find hr)).reached.imp_right fun h => ⟨h.1, h.2.mono hext⟩
  cases ht with
  | finalApproval hdef hfinal delegation note actor now =>
    rw [Reached, hid, hreq]
    exact hcopy
  | stepApproval hdef hfinal delegation note actor now nextAssigneeId =>
    have happroved := approvedStep_commit h hc htc happroval ⟨_, rfl, rfl⟩
    rw [hb.type, moduleRegistry_access] at hdef
    obtain rfl := Option.some.inj hdef
    rw [isFinalStep_access, decide_eq_false_iff_not] at hfinal
    -- a step that is not the last one is the first
    have hone : request.currentStep = 1 := by
      rcases hb.reached with hone | ⟨htwo, -⟩
      · exact hone
      · omega
    rw [hone] at happroved
    refine Or.inr ⟨?_, ?_⟩
    · show request.currentStep + 1 = 2
      omega
    · rw [hid, hreq]
      exact happroved
  | rejection hdef delegation note actor now => exact hkept rfl
  | cancellation hdef actor now => exact hkept rfl
  | expiration hdef now => exact hkept rfl

/-- The engine invariant across a commit. -/
theorem EngineInvariant.commit (h : EngineInvariant filed engine)
    (hc : Concurrent.Commit moduleRegistry engine engine' i now env operation request delegation view)
    (ht : TransitionOf moduleRegistry request t) (htc : t.Committed env engine.db engine'.db row)
    (happroval : t.approval = operation.decision request delegation now)
    (hpassed : ∀ call ∈ engine'.calls, call.Passed moduleRegistry)
    (hcalls : ∀ call ∈ engine'.calls, Segregated call) : EngineInvariant filed engine' := by
  have hext := extends_commit hc ht htc
  constructor
  · exact hpassed
  · exact hcalls
  · intro x hx
    rw [htc.requestItems] at hx
    rcases Table.mem_update hx with ⟨old, hold, rfl⟩ | ⟨hx, -⟩
    · have hb := h.stored old (Table.mem_of_find hold)
      obtain ⟨htype, hrequester, hpayload, -⟩ := ht.update_fixed old
      rw [ht.requestId_eq] at hold
      constructor
      · rw [hpayload, hrequester]
        exact hb.filed
      · rw [htype, hb.type]
      · exact reached_commit h hc ht htc happroval hold
    · exact (h.stored x hx).mono hext fun _ hf => hf
  · intro x hx
    obtain ⟨hb, r, hr, hpayload, hrequester⟩ := h.copies x (hc.copies x hx)
    obtain ⟨r', hr', hid', hpayload', hrequester'⟩ := hext.requests r (Table.mem_of_find hr)
    refine ⟨hb.mono hext fun _ hf => hf, r', ?_, hpayload'.trans hpayload,
      hrequester'.trans hrequester⟩
    rw [← Table.key_of_find hr, ← hid']
    exact Table.find_of_mem hr'

end Commit

end Engine

/-! ### What the tables keep -/

/-- Stored access requests stay, with their requesters. -/
def RowsKept (tables tables' : Tables) : Prop :=
  ∀ a row, tables.accessRequests.find a = some row →
    ∃ row', tables'.accessRequests.find a = some row' ∧ row'.requesterId = row.requesterId

theorem RowsKept.refl (tables : Tables) : RowsKept tables tables :=
  fun _ row hrow => ⟨row, hrow, rfl⟩

/-- An update that leaves the requester alone keeps the rows. -/
theorem find_update_kept {t : Table AccessRequest.id} (id : Uuid) (f : AccessRequest → AccessRequest)
    (hf : ∀ r, (f r).id = r.id) (hrequester : ∀ r, (f r).requesterId = r.requesterId) {a : Uuid}
    {row : AccessRequest} (h : t.find a = some row) :
    ∃ row', (t.update id f hf).find a = some row' ∧ row'.requesterId = row.requesterId := by
  by_cases ha : a = id
  · subst ha
    exact ⟨f row, by rw [Table.find_update_self, h, Option.map_some], hrequester row⟩
  · exact ⟨row, by rw [Table.find_update_ne _ ha, h], rfl⟩

/-- A hook keeps the access requests. -/
theorem rowsKept_hookEffect {payload : Payload} {approves : Bool} {env : HookEnv}
    {tables tables' : Tables} (h : HookEffect env tables payload approves tables') :
    RowsKept tables tables' := by
  cases h with
  | accessApproved p approverId accessGrants hinsert =>
    exact fun a row hrow => find_update_kept _ _ (by intro r; rfl) (by intro r; rfl) hrow
  | accessRejected p approverId =>
    exact fun a row hrow => find_update_kept _ _ (by intro r; rfl) (by intro r; rfl) hrow
  | accessExpired p =>
    exact fun a row hrow => find_update_kept _ _ (by intro r; rfl) (by intro r; rfl) hrow
  | _ => exact RowsKept.refl _

/-- A grant after a transition: its request had one before, or the transition approves it. -/
theorem grant_of_transition {request : RequestItem Payload} {t : Transition Payload Tables}
    {env : HookEnv} {tables tables' : TxTables Tables}
    (ht : TransitionOf moduleRegistry request t) (h : t.hook env tables = .ok tables')
    {g : AccessGrant} (hg : g ∈ tables'.domain.accessGrants.rows) :
    (∃ g₀ ∈ tables.domain.accessGrants.rows, g₀.requestId = g.requestId) ∨
      t.approves = true ∧ request.payload.accessRequestId = some g.requestId := by
  have hpos : 0 < tables'.domain.grantsFor g.requestId :=
    List.countP_pos_iff.2 ⟨g, hg, decide_eq_true rfl⟩
  have hle := grantsFor_transition (a := g.requestId) ht h
  by_cases hnew : t.approves = true ∧ request.payload.accessRequestId = some g.requestId
  · exact Or.inr hnew
  · rw [if_neg hnew, Nat.add_zero] at hle
    obtain ⟨g₀, hg₀, heq⟩ := List.countP_pos_iff.1 (hpos.trans_le hle)
    exact Or.inl ⟨g₀, hg₀, of_decide_eq_true heq⟩

/-! ### The invariant -/

/-- The engine invariant; the rows behind the filed requests, the grants and the copies of
reviewers; and the guarantee. -/
structure Invariant (s : State) : Prop where
  engine : EngineInvariant s.filed s.engine
  filed : ∀ f ∈ s.filed, ∃ row, s.tables.accessRequests.find f.1 = some row ∧
    row.requesterId = f.2
  grants : ∀ g ∈ s.tables.accessGrants.rows,
    ∃ row, s.tables.accessRequests.find g.requestId = some row
  reads : ∀ call ∈ s.calls, ∀ request ∈ call.request,
    ∃ row, s.tables.accessRequests.find request.id = some row
  guaranteed : Guaranteed s

section Steps

variable {s : State} {tables : Tables}

/-- The engine invariant does not speak about the domain tables. -/
theorem EngineInvariant.withTables (h : EngineInvariant s.filed s.engine) (tables : Tables) :
    EngineInvariant s.filed (s.withTables tables).engine :=
  ⟨h.passed, h.segregated, fun x hx => ⟨(h.stored x hx).filed, (h.stored x hx).type,
    (h.stored x hx).reached⟩, fun x hx => ⟨⟨(h.copies x hx).1.filed, (h.copies x hx).1.type,
    (h.copies x hx).1.reached⟩, (h.copies x hx).2⟩⟩

/-- A change of the tables keeps the invariant if it keeps the rows and grants nothing to
a filed request. -/
theorem Invariant.withTables (h : Invariant s) (hrows : RowsKept s.tables tables)
    (hgrants : ∀ g ∈ tables.accessGrants.rows, g ∈ s.tables.accessGrants.rows ∨
      (∃ row, s.tables.accessRequests.find g.requestId = some row) ∧
        ∀ f ∈ s.filed, f.1 ≠ g.requestId) : Invariant (s.withTables tables) := by
  constructor
  · exact h.engine.withTables tables
  · intro f hf
    obtain ⟨row, hrow, hrequester⟩ := h.filed f hf
    obtain ⟨row', hrow', hrequester'⟩ := hrows f.1 row hrow
    exact ⟨row', hrow', hrequester'.trans hrequester⟩
  · intro g hg
    have hold : ∃ row, s.tables.accessRequests.find g.requestId = some row := by
      rcases hgrants g hg with hg | ⟨hrow, -⟩
      · exact h.grants g hg
      · exact hrow
    obtain ⟨row, hrow⟩ := hold
    obtain ⟨row', hrow', -⟩ := hrows _ row hrow
    exact ⟨row', hrow'⟩
  · intro call hcall request hrequest
    obtain ⟨row, hrow⟩ := h.reads call hcall request hrequest
    obtain ⟨row', hrow', -⟩ := hrows _ row hrow
    exact ⟨row', hrow'⟩
  · intro g hg requesterId hfiled
    rcases hgrants g hg with hg | ⟨-, hnot⟩
    · exact h.guaranteed g hg requesterId hfiled
    · exact absurd rfl (hnot _ hfiled)

/-- The calls of the service may change, as long as the rows they have read are stored. -/
theorem Invariant.withCalls (h : Invariant s) {calls : List ReviewCall}
    (hcalls : ∀ call ∈ calls, ∀ request ∈ call.request,
      ∃ row, s.tables.accessRequests.find request.id = some row) :
    Invariant { s with calls := calls } :=
  ⟨h.engine, h.filed, h.grants, hcalls, h.guaranteed⟩

/-- The phase of a submission may change. -/
theorem filed_set {submissions : List Submission} {i : ℕ} {rowId : Uuid} {input : SubmitInput}
    {actor : Actor} {phase phase' : SubmitPhase}
    (h : submissions[i]? = some ⟨rowId, input, actor, phase⟩) :
    (submissions.set i ⟨rowId, input, actor, phase'⟩).map
        (fun filed => (filed.rowId, filed.actor.sub)) =
      submissions.map (fun filed => (filed.rowId, filed.actor.sub)) := by
  refine List.ext_getElem? fun j => ?_
  by_cases hj : i = j
  · subst hj
    rw [List.getElem?_map, List.getElem?_map, List.getElem?_set_self (List.getElem?_eq_some_iff.1 h).1, h]
    rfl
  · simp [List.getElem?_set_ne hj]

/-! ### One lemma for each kind of event -/

variable {s' : State}

/-- Filing a row: it is new, so there is no grant for it. -/
theorem invariant_create (h : Invariant s) {input : SubmitInput} {actor : Actor} {now : Time}
    {rowId : Uuid} (hc : create input actor.sub rowId now s.tables = .ok tables) :
    Invariant { s.withTables tables with
      submissions := s.submissions ++ [⟨rowId, input, actor, .created⟩] } := by
  simp only [create, Except.bind_eq_ok_iff, Outcome.orThrow_eq_ok_iff,
    Except.pure_eq_ok_iff] at hc
  obtain ⟨accessRequests, hins, rfl⟩ := hc
  have hnew := (Table.insert_eq_some_iff.1 hins).1
  have hkept : ∀ {a row}, s.tables.accessRequests.find a = some row →
      accessRequests.find a = some row := fun hrow => Table.find_insert_of_find hins hrow
  have hfiled : ∀ f ∈ s.filed, f ∈ ({ s with
      submissions := s.submissions ++ [⟨rowId, input, actor, .created⟩] } : State).filed := by
    intro f hf
    simp only [State.filed, List.map_append]
    exact List.mem_append_left _ hf
  have hext : Extends s.engine s.engine :=
    ⟨fun _ h => h, fun _ h => h, fun r hr => ⟨r, hr, rfl, rfl, rfl⟩⟩
  have hengine : EngineInvariant ({ s with
      submissions := s.submissions ++ [⟨rowId, input, actor, .created⟩] } : State).filed s.engine :=
    ⟨h.engine.passed, h.engine.segregated, fun x hx => (h.engine.stored x hx).mono hext hfiled,
      fun x hx => ⟨(h.engine.copies x hx).1.mono hext hfiled, (h.engine.copies x hx).2⟩⟩
  constructor
  · exact EngineInvariant.withTables (s := { s with
      submissions := s.submissions ++ [⟨rowId, input, actor, .created⟩] }) hengine _
  · intro f hf
    simp only [State.filed, List.map_append, List.map_cons, List.map_nil, List.mem_append,
      List.mem_singleton] at hf
    rcases hf with hf | rfl
    · obtain ⟨row, hrow, hrequester⟩ := h.filed f hf
      exact ⟨row, hkept hrow, hrequester⟩
    · exact ⟨_, Table.find_insert_self hins, rfl⟩
  · intro g hg
    obtain ⟨row, hrow⟩ := h.grants g hg
    exact ⟨row, hkept hrow⟩
  · intro call hcall request hrequest
    obtain ⟨row, hrow⟩ := h.reads call hcall request hrequest
    exact ⟨row, hkept hrow⟩
  · intro g hg requesterId hf
    simp only [State.filed, List.map_append, List.map_cons, List.map_nil, List.mem_append,
      List.mem_singleton] at hf
    rcases hf with hf | hf
    · exact h.guaranteed g hg requesterId hf
    · obtain ⟨row, hrow⟩ := h.grants g hg
      rw [(Prod.mk.inj hf).1, hnew] at hrow
      cases hrow

/-- Submitting the engine request of a filed row. -/
theorem invariant_submitEngine (h : Invariant s) {i : ℕ} {rowId : Uuid} {input : SubmitInput}
    {actor : Actor} (hcall : s.submissions[i]? = some ⟨rowId, input, actor, .created⟩)
    {opts : SubmitRequestOptions} {now : Time} {engineId : Uuid} {env : HookEnv}
    {db : Db Payload Tables} {row : RequestItem Payload} {phase : SubmitPhase}
    (hs : Submitted moduleRegistry "access_request" (enginePayload input actor.sub rowId) actor opts
      now engineId env s.engine.db db row) :
    Invariant { s with
      engine := { s.engine with db := db }
      submissions := s.submissions.set i ⟨rowId, input, actor, phase⟩ } := by
  obtain ⟨typeDef, hdef, hrow⟩ := hs.row_eq
  have hfiled : State.filed { s with
      engine := { s.engine with db := db }
      submissions := s.submissions.set i ⟨rowId, input, actor, phase⟩ } = s.filed :=
    filed_set hcall
  have hdomain : db.domain = s.tables := hs.domain fun typeDef hdef => onSubmit_eq_none hdef
  have hext : Extends s.engine { s.engine with db := db } := by
    refine ⟨fun _ hrv => hrv, fun a ha => ?_, fun r hr => ⟨r, ?_, rfl, rfl, rfl⟩⟩
    · show a ∈ db.requestApprovals
      rw [hs.requestApprovals]
      exact ha
    · exact (Table.mem_insert hs.requestItems).2 (Or.inl hr)
  constructor
  · rw [hfiled]
    constructor
    · exact h.engine.passed
    · exact h.engine.segregated
    · intro x hx
      rcases (Table.mem_insert hs.requestItems).1 hx with hx | rfl
      · exact (h.engine.stored x hx).mono hext fun _ hf => hf
      · rw [hrow]
        refine ⟨⟨rowId, rfl, ?_⟩, rfl, Or.inl rfl⟩
        exact List.mem_map.2 ⟨_, List.mem_of_getElem? hcall, rfl⟩
    · intro x hx
      obtain ⟨hb, r, hr, hrest⟩ := h.engine.copies x hx
      exact ⟨hb.mono hext fun _ hf => hf, r, Table.find_insert_of_find hs.requestItems hr, hrest⟩
  · rw [hfiled]
    intro f hf
    show ∃ row, db.domain.accessRequests.find f.1 = some row ∧ row.requesterId = f.2
    rw [hdomain]
    exact h.filed f hf
  · show ∀ g ∈ db.domain.accessGrants.rows, ∃ row, db.domain.accessRequests.find g.requestId = some row
    rw [hdomain]
    exact h.grants
  · show ∀ call ∈ s.calls, ∀ request ∈ call.request,
      ∃ row, db.domain.accessRequests.find request.id = some row
    rw [hdomain]
    exact h.reads
  · intro g hg requesterId hf
    rw [hfiled] at hf
    replace hg : g ∈ db.domain.accessGrants.rows := hg
    rw [hdomain] at hg
    exact (h.guaranteed g hg requesterId hf).mono hext

/-- A review without engine request grants nothing to a filed one. -/
theorem invariant_legacy (h : Invariant s) {verdict : Verdict} {note : Option String}
    {actor : Actor} {request : AccessRequest} {now : Time} {env : HookEnv}
    (hstored : ∃ row, s.tables.accessRequests.find request.id = some row)
    (hlinked : verdict = .approve → ∀ f ∈ s.filed, f.1 ≠ request.id)
    (hok : legacyTx verdict note actor request now env s.tables = .ok tables) :
    Invariant (s.withTables tables) := by
  cases verdict with
  | approve =>
    simp only [legacyTx, legacyApprove, Except.bind_eq_ok_iff, Outcome.orThrow_eq_ok_iff,
      Except.pure_eq_ok_iff] at hok
    obtain ⟨accessGrants, hins, rfl⟩ := hok
    refine h.withTables ?_ fun g hg => ?_
    · exact fun a row hrow => find_update_kept _ _ (by intro r; rfl) (by intro r; rfl) hrow
    · rcases (Table.mem_insert hins).1 hg with hg | rfl
      · exact Or.inl hg
      · exact Or.inr ⟨hstored, hlinked rfl⟩
  | reject =>
    obtain rfl := Except.ok.inj hok
    refine h.withTables ?_ fun g hg => Or.inl hg
    exact fun a row hrow => find_update_kept _ _ (by intro r; rfl) (by intro r; rfl) hrow

/-- A step of an engine call. -/
theorem invariant_engine (h : Invariant s) {e : Concurrent.Event Payload}
    (hsubmit : ∀ type payload actor opts now newId env,
      e ≠ .submit type payload actor opts now newId env)
    (hcalls : ∀ call ∈ (Concurrent.step moduleRegistry s.engine e).calls, Segregated call) :
    Invariant { s with engine := Concurrent.step moduleRegistry s.engine e } := by
  rcases Concurrent.step_cases moduleRegistry s.engine e with ⟨hdb, hreviews, hcopies⟩ |
    ⟨⟨type, payload, actor, opts, now, newId, env, row, rfl, -⟩, -⟩ |
    ⟨i, now, env, operation, request, delegation, view, rfl, hc⟩
  · have hext : Extends s.engine (Concurrent.step moduleRegistry s.engine e) :=
      ⟨fun rv hrv => hreviews ▸ hrv, fun a ha => hdb ▸ ha,
        fun r hr => ⟨r, hdb ▸ hr, rfl, rfl, rfl⟩⟩
    have htables : State.tables { s with engine := Concurrent.step moduleRegistry s.engine e } =
        s.tables := congrArg (fun db : Db Payload Tables => db.domain) hdb
    refine ⟨h.engine.quiet hdb hreviews hcopies hcalls, ?_, ?_, ?_, ?_⟩
    · rw [htables]
      exact h.filed
    · rw [htables]
      exact h.grants
    · rw [htables]
      exact h.reads
    · intro g hg requesterId hf
      rw [htables] at hg
      exact (h.guaranteed g hg requesterId hf).mono hext
  · exact absurd rfl (hsubmit type payload actor opts now newId env)
  · obtain ⟨row, htx⟩ := hc.tx
    obtain ⟨t, ht, htc, happroval⟩ := Concurrent.Operation.tx_ok htx
    obtain ⟨hook, hhook, hdomain⟩ := htc.hook
    have hext := extends_commit hc ht htc
    have hpassed := Concurrent.step_passed h.engine.passed (.commit i now env)
    have hb := (h.engine.copies request hc.mem_copies).1
    have hrows := rowsKept_hookEffect (hookEffect_of_transition ht hhook)
    have htables : State.tables { s with
        engine := Concurrent.step moduleRegistry s.engine (.commit i now env) } = hook.domain :=
      hdomain
    obtain ⟨a, ha, hfiled⟩ := hb.filed
    have hkept : ∀ {id : Uuid}, (∃ row, s.tables.accessRequests.find id = some row) →
        ∃ row, hook.domain.accessRequests.find id = some row := by
      rintro id ⟨row, hrow⟩
      obtain ⟨row', hrow', -⟩ := hrows id row hrow
      exact ⟨row', hrow'⟩
    refine ⟨h.engine.commit hc ht htc happroval hpassed hcalls, ?_, ?_, ?_, ?_⟩
    · rw [htables]
      intro f hf
      obtain ⟨row, hrow, hrequester⟩ := h.filed f hf
      obtain ⟨row', hrow', hrequester'⟩ := hrows f.1 row hrow
      exact ⟨row', hrow', hrequester'.trans hrequester⟩
    · rw [htables]
      intro g hg
      rcases grant_of_transition ht hhook hg with ⟨g₀, hg₀, heq⟩ | ⟨-, hga⟩
      · exact heq ▸ hkept (h.grants g₀ hg₀)
      · rw [ha] at hga
        obtain ⟨row, hrow, -⟩ := h.filed _ hfiled
        exact hkept ⟨row, Option.some.inj hga ▸ hrow⟩
    · rw [htables]
      exact fun call hcall request hrequest => hkept (h.reads call hcall request hrequest)
    · intro g hg requesterId hf
      rw [htables] at hg
      rcases grant_of_transition ht hhook hg with ⟨g₀, hg₀, heq⟩ | ⟨happ, hga⟩
      · rw [← heq] at hf ⊢
        exact (h.guaranteed g₀ hg₀ requesterId hf).mono hext
      · -- the grant of this commit
        rw [ha] at hga
        obtain rfl := Option.some.inj hga
        obtain ⟨row₁, hrow₁, hreq₁⟩ := h.filed _ hfiled
        obtain ⟨row₂, hrow₂, hreq₂⟩ := h.filed _ hf
        obtain rfl := Option.some.inj (hrow₁.symm.trans hrow₂)
        obtain rfl : request.requesterId = requesterId := hreq₁.symm.trans hreq₂
        exact approvedTwice_commit h.engine hc ht htc happroval happ ha

/-- The phase of a submission may change. -/
theorem Invariant.withPhase (h : Invariant s) {i : ℕ} {rowId : Uuid} {input : SubmitInput}
    {actor : Actor} {phase phase' : SubmitPhase}
    (hcall : s.submissions[i]? = some ⟨rowId, input, actor, phase⟩) :
    Invariant { s with submissions := s.submissions.set i ⟨rowId, input, actor, phase'⟩ } := by
  have hfiled : State.filed { s with
      submissions := s.submissions.set i ⟨rowId, input, actor, phase'⟩ } = s.filed :=
    filed_set hcall
  refine ⟨?_, ?_, h.grants, h.reads, ?_⟩
  · rw [hfiled]
    exact h.engine
  · rw [hfiled]
    exact h.filed
  · intro g hg requesterId hf
    rw [hfiled] at hf
    exact h.guaranteed g hg requesterId hf

/-- After a step of an engine call, the calls that wait to commit an approval are not the
requester's, if the checked one is not. -/
theorem segregated_step (h : EngineInvariant s.filed s.engine) {e : Concurrent.Event Payload}
    (hself : ∀ i view, e = .check i view → ∀ c ∈ s.checkedApproval (.check i view),
      ¬ SelfReview c.1 c.2.1 c.2.2) :
    ∀ call ∈ (Concurrent.step moduleRegistry s.engine e).calls, Segregated call := by
  intro call hmem note actor request delegation view hop hphase
  rcases Concurrent.step_calls moduleRegistry s.engine e hmem with hmem | ⟨request', hread⟩ |
    hfinished | ⟨i, view', operation, request', delegation', rfl, hcall, hcheck, rfl⟩
  · exact h.segregated call hmem note actor request delegation view hop hphase
  · rw [hread] at hphase
    cases hphase
  · rw [hfinished] at hphase
    cases hphase
  · obtain rfl : operation = .approve note actor := hop
    cases hphase
    have hcopy : request ∈ s.engine.copies :=
      Concurrent.mem_copies.2 ⟨_, List.mem_of_getElem? hcall, rfl⟩
    refine segregated_of_check (h.copies request hcopy).1.type hcheck ?_
    refine hself i view rfl (request, actor, view) ?_
    simp [State.checkedApproval, hcall]

/-- **The step lemma.** -/
theorem step_invariant (s : State) (e : Event) (h : Invariant s) (hok : Allowed s e) :
    Invariant (step s e) := by
  cases e with
  | create input actor now rowId =>
    simp only [step]
    split
    · rename_i tables hc
      exact invariant_create h hc
    · exact h
  | submitEngine i now engineId env =>
    simp only [step]
    split
    · rename_i rowId input actor hcall
      split
      · rename_i db engineItem hs
        exact invariant_submitEngine h hcall (submit_ok hs)
      · exact h.withPhase hcall
    · exact h
  | backlink i =>
    simp only [step]
    split
    · rename_i rowId input actor engineId hcall
      have htables : Invariant (s.withTables (AccessRequestService.backlink rowId engineId s.tables)) :=
        h.withTables
          (fun a row hrow => find_update_kept _ _ (by intro r; rfl) (by intro r; rfl) hrow)
          fun g hg => Or.inl hg
      exact htables.withPhase hcall
    · exact h
  | read requestId verdict note actor =>
    simp only [step]
    split
    · rename_i request hread
      simp only [getById, Except.bind_eq_ok_iff, Outcome.orThrow_eq_ok_iff,
        Except.pure_eq_ok_iff] at hread
      obtain ⟨request', hfind, -, -, rfl⟩ := hread
      refine h.withCalls fun call hmem request hrequest => ?_
      rcases List.mem_append.1 hmem with hmem | hmem
      · exact h.reads call hmem request hrequest
      · rw [List.mem_singleton] at hmem
        subst hmem
        obtain rfl := Option.some.inj hrequest
        exact ⟨request', by rw [Table.key_of_find hfind]; exact hfind⟩
    · exact h
  | proceed i now env =>
    simp only [step]
    split
    · rename_i verdict note actor request hcall
      have hended : Invariant { s with calls := s.calls.set i ⟨verdict, note, actor, none⟩ } := by
        refine h.withCalls fun call hmem request hrequest => ?_
        rcases List.mem_or_eq_of_mem_set hmem with hmem | rfl
        · exact h.reads call hmem request hrequest
        · cases hrequest
      cases hlink : request.requestId with
      | some engineId =>
        exact invariant_engine hended (by simp)
          (segregated_step hended.engine (by simp))
      | none =>
        show Invariant (State.withTables _ _)
        refine Outcome.commit_induction (P := fun tables => Invariant (State.withTables _ tables))
          hended fun tables hlegacy => ?_
        refine invariant_legacy hended ?_ ?_ hlegacy
        · exact h.reads _ (List.mem_of_getElem? hcall) request rfl
        · rintro rfl
          refine hok.linked request ?_
          simp [State.legacyApproval, hcall, hlink]
    · exact h
  | check i view =>
    refine invariant_engine h (by simp) (segregated_step h.engine ?_)
    rintro i' view' ⟨rfl, rfl⟩
    exact hok.segregated
  | commit i now env =>
    exact invariant_engine h (by simp) (segregated_step h.engine (by simp))

end Steps

/-- **Two approvals.**  Starting without engine requests and from grants of stored access
requests, every run that approves no filed row itself and checks no requester who reviews
under a delegation grants filed access requests only after two approvals. -/
theorem run_twoApprovals (subscriptions : List WebhookSubscription) (tables : TxTables Tables)
    (hgrants : ∀ g ∈ tables.domain.accessGrants.rows,
      ∃ row, tables.domain.accessRequests.find g.requestId = some row)
    (es : List Event) (hok : Runs.Meets step Allowed (State.initial subscriptions tables) es) :
    Guaranteed (Runs.run step (State.initial subscriptions tables) es) := by
  have hinitial : Invariant (State.initial subscriptions tables) := by
    refine ⟨⟨?_, ?_, ?_, ?_⟩, ?_, hgrants, ?_, ?_⟩
    · intro call hcall
      cases hcall
    · intro call hcall
      cases hcall
    · intro x hx
      cases hx
    · intro x hx
      cases hx
    · intro f hf
      cases hf
    · intro call hcall
      cases hcall
    · intro g _ requesterId hf
      cases hf
  exact (Runs.run_induction step_invariant hinitial hok).guaranteed

/-! ### Two ways around the second approval -/

namespace Filed

def start : State := State.initial [] ⟨[], Tables.empty⟩

def requester : Actor := ⟨1, "user1@example.com"⟩

def manager : Actor := ⟨2, "user2@example.com"⟩

def security : Actor := ⟨3, "user3@example.com"⟩

def input : SubmitInput where
  accessType := .vpn
  target := "vpn-gw"
  justification := "on-call access"
  durationHours := 8

/-- User 2 holds the permission of step 1, user 3 that of step 2; `delegatedFrom` has
delegated to user 1. -/
def view (delegatedFrom : Option Uuid) : AuthzView where
  check user permission := decide (user = 2 ∧ permission = "access_request.approve" ∨
    user = 3 ∧ permission = "access_request.security_approve")
  delegations := (delegatedFrom.map (fun user => ApprovalDelegation.mk user user 1 0 100 none)).toList
  now := 0

/-- The domain row is stored, the rest of `submit` is still to come. -/
def created : List Event := [.create input requester 0 50]

/-- All of `submit`. -/
def submitted : List Event := created ++ [.submitEngine 0 0 5 ⟨0, 0⟩, .backlink 0]

/-- Security approves before the back-link is stored. -/
def early : List Event := created ++ [.read 50 .approve none security, .proceed 0 10 ⟨10, 90⟩]

/-- One approval after another, by `first` and `second`. -/
def approvals (first second : Actor) (view₁ view₂ : AuthzView) : List Event :=
  submitted ++
    [.read 50 .approve none first, .proceed 0 10 ⟨10, 0⟩, .check 0 view₁, .commit 0 10 ⟨10, 0⟩,
      .read 50 .approve none second, .proceed 1 20 ⟨20, 0⟩, .check 1 view₂, .commit 1 20 ⟨20, 90⟩]

/-- The requester approves both steps, for the manager and for security. -/
def delegated : List Event := approvals requester requester (view (some 2)) (view (some 3))

/-- The manager approves, then security. -/
def orderly : List Event := approvals manager security (view none) (view none)

end Filed

/-- An approval that comes before the back-link grants without any decision of the engine;
under delegations, the requester makes both decisions. -/
theorem not_twoApprovals :
    ¬ (∀ es, Guaranteed (Runs.run step Filed.start es)) ∧
    (Runs.run step Filed.start Filed.early).engine.db.requestApprovals = [] ∧
    ¬ Guaranteed (Runs.run step Filed.start Filed.delegated) := by
  have hearly : ¬ Guaranteed (Runs.run step Filed.start Filed.early) := by
    intro h
    obtain ⟨r, hr, -⟩ := h _ (List.mem_singleton.2 rfl) 1 (by decide)
    cases hr
  refine ⟨fun h => hearly (h Filed.early), rfl, fun h => ?_⟩
  obtain ⟨r, -, -, -, ⟨rv, hrv, -, -, -, -, hne, -⟩, -⟩ :=
    h _ (List.mem_singleton.2 rfl) 1 (by decide)
  have hself : ∀ rv ∈ (Runs.run step Filed.start Filed.delegated).engine.reviews,
      rv.approval.approverId = 1 := by decide
  exact hne (hself rv hrv)

/-- The guarantee for a request that the manager approves and then security. -/
theorem run_twoApprovals_orderly :
    Guaranteed (Runs.run step Filed.start Filed.orderly) ∧
      (Runs.run step Filed.start Filed.orderly).tables.accessGrants.rows.length = 1 := by
  refine ⟨run_twoApprovals [] ⟨[], Tables.empty⟩ ?_ Filed.orderly (by decide), by decide⟩
  intro g hg
  cases hg

end TwoApprovals

end OpsHub
