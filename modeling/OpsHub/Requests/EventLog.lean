import OpsHub.Lib.Transaction
import OpsHub.Requests.Chain

/-!
# The event log

The transactions of the engine, statement by statement: every statement, and every hook in
the middle of what it writes, may throw.

* `Faults`: what throws; `perform` is a call of the engine under faults;
* `perform_cases`: a call leaves the database as it was, or it has done what the
  operation of the engine does without faults;
* `Logged`: one event has been written, and one webhook delivery for each subscriber;
* `replay`: the state of a request that its events tell;
* `run_replays`: in every run the events of a request replay to its row, and every call
  writes one event or nothing.
-/

namespace OpsHub

variable {π σ : Type}

namespace RequestEngine

open Callback (check write transaction Returns)

/-! ### Statements that throw -/

/-- The statements of the callbacks, and the call of `resolverFn`. -/
inductive Statement
  | resolveAssignee
  | insertRequest
  | updateRequest
  | insertApproval
  | schedule
  | enqueue
  | selectSubscriptions
  | insertDeliveries
  deriving DecidableEq, Repr

/-- What throws in a callback: the statements, and the hook, which has then left the tables that
it may write in some state. -/
structure Faults (σ : Type) where
  statement : Statement → Option Failure := fun _ => none
  hook : Option (TxTables σ × Failure) := none

/-- A statement is reached. -/
def Faults.reach (faults : Faults σ) (statement : Statement) : Except Failure Unit :=
  match faults.statement statement with
  | none => .ok ()
  | some e => .error e

/-- The call of a hook. -/
def callHook (faults : Faults σ) (hook : Hook σ) (env : HookEnv) :
    Callback (Db π σ) Failure Unit :=
  match faults.hook with
  | some (tables, e) => do
    write fun db => { db with toTxTables := tables }
    check fun _ => .error e
  | none => do
    let tables ← check fun db => hook env db.toTxTables
    write fun db => { db with toTxTables := tables }

/-- `notifScheduler.schedule`, if there is a notification to schedule. -/
def scheduleNotification (faults : Faults σ) (notification : Option NotificationOutboxRow) :
    Callback (Db π σ) Failure Unit := do
  check fun _ => if notification = none then .ok () else faults.reach .schedule
  write fun db => notify db notification

/-- `outbox.enqueue` and `webhookEnqueue.fanout`. -/
def logEvent (faults : Faults σ) (id : Uuid) (event : EventPayload) (now : Time) :
    Callback (Db π σ) Failure Unit := do
  check fun _ => faults.reach .enqueue
  write fun db => enqueue db id event
  check fun _ => faults.reach .selectSubscriptions
  check fun db =>
    if subscribers db event.eventType = [] then .ok () else faults.reach .insertDeliveries
  write fun db => fanout db event now

end RequestEngine

open RequestEngine Callback in
/-- The callback of `approve`, `reject`, `cancel` and `expire`. -/
def Transition.callback (t : Transition π σ) (faults : Faults σ) (env : HookEnv) :
    Callback (Db π σ) Failure (RequestItem π) := do
  check fun _ => faults.reach .updateRequest
  write fun db =>
    { db with requestItems := db.requestItems.update t.requestId t.update t.update_id }
  check fun _ => if t.approval = none then .ok () else faults.reach .insertApproval
  let row ← check fun db =>
    Outcome.orThrow (.error "insert violates foreign key constraint on request_approvals")
      (db.requestItems.find t.requestId)
  write fun db => { db with requestApprovals := db.requestApprovals ++ t.approval.toList }
  callHook faults t.hook env
  write fun db =>
    { db with onApproveCalls := db.onApproveCalls ++ if t.approves then [t.requestId] else [] }
  scheduleNotification faults t.notification
  logEvent faults t.requestId t.event env.now
  pure row

namespace RequestEngine

open Callback (check write transaction Returns)

/-- The callback of `submit`. -/
def submitCallback (typeDef : RequestTypeDef π σ) (type : String) (payload : π) (actor : Actor)
    (opts : SubmitRequestOptions) (now : Time) (newId : Uuid) (faults : Faults σ) (env : HookEnv) :
    Callback (Db π σ) Failure (RequestItem π) := do
  callHook faults (Hook.orSkip (typeDef.onSubmit.map fun hook => hook payload actor.sub)) env
  let row := submittedItem typeDef type payload actor opts now newId
  check fun _ => faults.reach .insertRequest
  let requestItems ← check fun db =>
    Outcome.orThrow (.duplicateKey "request_items") (db.requestItems.insert row)
  write fun db => { db with requestItems := requestItems }
  logEvent faults row.id (.submitted row.id type actor.sub row.priority) env.now
  scheduleNotification faults (row.assigneeId.map fun assigneeId =>
    { recipientId := assigneeId
      actorId := some actor.sub
      notification := .requestSubmitted type row.id actor.email
      resourceId := some row.id
      idempotencyKey := some ("request_submitted:" ++ toString row.id) })
  pure row

/-- The callback of `approve`, with the assignee of the next step. -/
def approveCallback (typeDef : RequestTypeDef π σ) (request : RequestItem π)
    (delegation : Option ApprovalDelegation) (note : Option String) (actor : Actor) (now : Time)
    (faults : Faults σ) (env : HookEnv) : Callback (Db π σ) Failure (RequestItem π) :=
  if isFinalStep typeDef request.currentStep then
    (finalApproval typeDef request delegation note actor now).callback faults env
  else do
    check fun _ =>
      if ((stepDef typeDef (request.currentStep + 1)).bind ApprovalStepDef.resolverFn).isSome then
        faults.reach .resolveAssignee
      else .ok ()
    let nextAssigneeId ← check fun db => nextAssignee typeDef request db.toTxTables
    (stepApproval typeDef request delegation note actor now nextAssigneeId).callback faults env

/-! ### Calls -/

/-- A call that has passed its checks goes into its transaction. -/
def inTransaction {β : Type} (checks : Except Failure β)
    (callback : β → Callback (Db π σ) Failure (RequestItem π)) (db : Db π σ) :
    Except Failure (Option (RequestItem π)) × Db π σ :=
  match checks with
  | .error e => (.error e, db)
  | .ok b => (transaction (callback b) db).map (Except.map some) id

/-- What a call returns or throws, and the database that it leaves; `expire` returns without a
transaction for a request that is no longer open. -/
def perform (registry : RequestRegistry π σ) (faults : Faults σ) (db : Db π σ) :
    Event π → Except Failure (Option (RequestItem π)) × Db π σ
  | .submit type payload actor opts now newId env =>
    inTransaction (registry.get type)
      (fun typeDef => submitCallback typeDef type payload actor opts now newId faults env) db
  | .approve view requestId note actor now env =>
    inTransaction
      (do
        let request ← getOrFail db requestId
        let delegation ← reviewCheck registry view "approve" request actor
        let typeDef ← registry.get request.type
        pure (request, delegation, typeDef))
      (fun (request, delegation, typeDef) =>
        approveCallback typeDef request delegation note actor now faults env) db
  | .reject view requestId note actor now env =>
    inTransaction
      (do
        let request ← getOrFail db requestId
        let delegation ← reviewCheck registry view "reject" request actor
        let typeDef ← registry.get request.type
        pure (request, delegation, typeDef))
      (fun (request, delegation, typeDef) =>
        (rejection typeDef request delegation note actor now).callback faults env) db
  | .cancel view requestId actor now env =>
    inTransaction
      (do
        let request ← getOrFail db requestId
        cancelCheck registry view request actor
        let typeDef ← registry.get request.type
        pure (request, typeDef))
      (fun (request, typeDef) => (cancellation typeDef request actor now).callback faults env) db
  | .expire requestId now env =>
    match getOrFail db requestId with
    | .error e => (.error e, db)
    | .ok request =>
      if request.status.Open then
        inTransaction (registry.get request.type)
          (fun typeDef => (expiration typeDef request now).callback faults env) db
      else (.ok none, db)

/-! ### Without faults -/

variable {registry : RequestRegistry π σ} {faults : Faults σ} {env : HookEnv} {db db' : Db π σ}
  {row request : RequestItem π} {t : Transition π σ} {u : Unit}

/-- A hook that has returned has done what it does without faults. -/
theorem callHook_returns {hook : Hook σ} (h : Returns (callHook faults hook env) db u db') :
    ∃ tables, hook env db.toTxTables = .ok tables ∧ db' = { db with toTxTables := tables } := by
  unfold callHook at h
  split at h
  · simp only [Callback.returns_bind_iff, Callback.returns_check_iff] at h
    obtain ⟨-, -, -, herror, -⟩ := h
    cases herror
  · simp only [Callback.returns_bind_iff, Callback.returns_check_iff,
      Callback.returns_write_iff] at h
    obtain ⟨tables, db₁, ⟨hhook, rfl⟩, rfl⟩ := h
    exact ⟨tables, hhook, rfl⟩

theorem scheduleNotification_returns {notification : Option NotificationOutboxRow}
    (h : Returns (scheduleNotification faults notification) db u db') :
    db' = notify db notification := by
  simp only [scheduleNotification, Callback.returns_bind_iff, Callback.returns_check_iff,
    Callback.returns_write_iff] at h
  obtain ⟨-, db₁, ⟨-, rfl⟩, rfl⟩ := h
  rfl

theorem logEvent_returns {id : Uuid} {event : EventPayload} {now : Time}
    (h : Returns (logEvent faults id event now) db u db') :
    db' = fanout (enqueue db id event) event now := by
  simp only [logEvent, Callback.returns_bind_iff, Callback.returns_check_iff,
    Callback.returns_write_iff] at h
  obtain ⟨-, db₁, ⟨-, rfl⟩, -, db₂, rfl, -, db₃, ⟨-, rfl⟩, -, db₄, ⟨-, rfl⟩, rfl⟩ := h
  rfl

/-- **A callback that returns** has done what the transaction does without faults. -/
theorem callback_returns (h : Returns (t.callback faults env) db row db') :
    t.run env db = .ok (db', row) := by
  simp only [Transition.callback, Callback.returns_bind_iff, Callback.returns_check_iff,
    Callback.returns_write_iff, Callback.returns_pure_iff, Outcome.orThrow_eq_ok_iff] at h
  obtain ⟨_, db₁, ⟨-, rfl⟩, _, db₂, rfl, _, db₃, ⟨-, rfl⟩, row', db₄, ⟨hrow, rfl⟩, _, db₅, rfl, _,
    db₆, hhook, _, db₇, rfl, _, db₈, hnotify, _, db₉, hlog, rfl, rfl⟩ := h
  obtain ⟨tables, htables, rfl⟩ := callHook_returns hhook
  obtain rfl := scheduleNotification_returns hnotify
  obtain rfl := logEvent_returns hlog
  simp only [Transition.run, Except.bind_eq_ok_iff, Outcome.orThrow_eq_ok_iff]
  exact ⟨row', hrow, tables, htables, rfl⟩

/-- A submission that returns has done what `submit` does without faults. -/
theorem submitCallback_returns {typeDef : RequestTypeDef π σ} {type : String} {payload : π}
    {actor : Actor} {opts : SubmitRequestOptions} {now : Time} {newId : Uuid}
    (hdef : registry type = some typeDef)
    (h : Returns (submitCallback typeDef type payload actor opts now newId faults env) db row db') :
    submit registry type payload actor opts now newId env db = .ok (db', row) := by
  simp only [submitCallback, Callback.returns_bind_iff, Callback.returns_check_iff,
    Callback.returns_write_iff, Callback.returns_pure_iff, Outcome.orThrow_eq_ok_iff] at h
  obtain ⟨_, db₁, hhook, _, db₂, ⟨-, rfl⟩, requestItems, db₃, ⟨hinsert, rfl⟩, _, db₄, rfl, _, db₅,
    hlog, _, db₆, hnotify, rfl, rfl⟩ := h
  obtain ⟨tables, htables, rfl⟩ := callHook_returns hhook
  obtain rfl := logEvent_returns hlog
  obtain rfl := scheduleNotification_returns hnotify
  simp only [submit, Except.bind_eq_ok_iff, RequestRegistry.get_eq_ok_iff,
    Outcome.orThrow_eq_ok_iff]
  exact ⟨typeDef, hdef, tables, htables, requestItems, hinsert, rfl⟩

/-- What a call has done that has gone through its transaction. -/
inductive Wrote (registry : RequestRegistry π σ) (db db' : Db π σ) (row : RequestItem π) : Prop
  | submitted {type : String} {payload : π} {actor : Actor} {opts : SubmitRequestOptions}
      {now : Time} {newId : Uuid} {env : HookEnv}
      (h : submit registry type payload actor opts now newId env db = .ok (db', row))
  | decided {request : RequestItem π} {t : Transition π σ} {env : HookEnv}
      (hreq : db.requestItems.find request.id = some request)
      (ht : TransitionOf registry request t) (hrun : t.run env db = .ok (db', row))

/-- The call has nothing to do: it is the expiry of a request that is not open. -/
def Idle (db : Db π σ) : Event π → Prop
  | .expire requestId _ _ =>
    ∃ request, db.requestItems.find requestId = some request ∧ ¬ request.status.Open
  | _ => False

/-- The outcomes of a call: it has thrown, or it had nothing to do, and the database is as it
was, or it has gone through its transaction. -/
def Outcomes (registry : RequestRegistry π σ) (db : Db π σ) (idle : Prop) :
    Except Failure (Option (RequestItem π)) × Db π σ → Prop
  | (.error _, db') => db' = db
  | (.ok none, db') => idle ∧ db' = db
  | (.ok (some row), db') => Wrote registry db db' row

/-- A transaction leaves the database as it was, or its callback has returned. -/
theorem outcomes_inTransaction {β : Type} {checks : Except Failure β} {idle : Prop}
    {callback : β → Callback (Db π σ) Failure (RequestItem π)}
    (h : ∀ b row db', checks = .ok b → Returns (callback b) db row db' →
      Wrote registry db db' row) :
    Outcomes registry db idle (inTransaction checks callback db) := by
  unfold inTransaction
  cases hchecks : checks with
  | error e => exact rfl
  | ok b =>
    rcases Callback.transaction_cases (callback b) db with ⟨e, heq⟩ | ⟨row, db', hreturns, heq⟩
    · simp only [heq]
      exact rfl
    · simp only [heq]
      exact h b row db' hchecks hreturns

/-- A callback of a transition of a stored request. -/
theorem wrote_of_callback {id : Uuid} (hreq : db.requestItems.find id = some request)
    (ht : TransitionOf registry request t) (h : Returns (t.callback faults env) db row db') :
    Wrote registry db db' row := by
  have hid : request.id = id := Table.key_of_find hreq
  exact .decided (hid ▸ hreq) ht (callback_returns h)

/-- **What a call can do**, whatever throws. -/
theorem perform_cases (registry : RequestRegistry π σ) (faults : Faults σ) (db : Db π σ)
    (e : Event π) : Outcomes registry db (Idle db e) (perform registry faults db e) := by
  cases e with
  | submit type payload actor opts now newId env =>
    refine outcomes_inTransaction fun typeDef row db' hdef h => ?_
    exact .submitted (submitCallback_returns (RequestRegistry.get_eq_ok_iff.1 hdef) h)
  | approve view requestId note actor now env =>
    refine outcomes_inTransaction fun b row db' hchecks h => ?_
    simp only [Except.bind_eq_ok_iff, getOrFail_eq_ok_iff, RequestRegistry.get_eq_ok_iff,
      Except.pure_eq_ok_iff] at hchecks
    obtain ⟨request, hreq, delegation, -, typeDef, hdef, rfl⟩ := hchecks
    simp only [approveCallback] at h
    split at h
    · rename_i hfinal
      exact wrote_of_callback hreq (.finalApproval hdef hfinal delegation note actor now) h
    · rename_i hfinal
      simp only [Callback.returns_bind_iff, Callback.returns_check_iff] at h
      obtain ⟨-, db₁, ⟨-, rfl⟩, nextAssigneeId, db₂, ⟨-, rfl⟩, h⟩ := h
      exact wrote_of_callback hreq (.stepApproval hdef (Bool.eq_false_iff.2 hfinal) delegation
        note actor now nextAssigneeId) h
  | reject view requestId note actor now env =>
    refine outcomes_inTransaction fun b row db' hchecks h => ?_
    simp only [Except.bind_eq_ok_iff, getOrFail_eq_ok_iff, RequestRegistry.get_eq_ok_iff,
      Except.pure_eq_ok_iff] at hchecks
    obtain ⟨request, hreq, delegation, -, typeDef, hdef, rfl⟩ := hchecks
    exact wrote_of_callback hreq (.rejection hdef delegation note actor now) h
  | cancel view requestId actor now env =>
    refine outcomes_inTransaction fun b row db' hchecks h => ?_
    simp only [Except.bind_eq_ok_iff, getOrFail_eq_ok_iff, RequestRegistry.get_eq_ok_iff,
      Except.pure_eq_ok_iff] at hchecks
    obtain ⟨request, hreq, -, -, typeDef, hdef, rfl⟩ := hchecks
    exact wrote_of_callback hreq (.cancellation hdef actor now) h
  | expire requestId now env =>
    simp only [perform]
    cases hreq : getOrFail db requestId with
    | error e => exact rfl
    | ok request =>
      rw [getOrFail_eq_ok_iff] at hreq
      simp only
      split
      · refine outcomes_inTransaction fun typeDef row db' hdef h => ?_
        exact wrote_of_callback hreq (.expiration (RequestRegistry.get_eq_ok_iff.1 hdef) now) h
      · rename_i hclosed
        exact ⟨⟨request, hreq, hclosed⟩, rfl⟩

/-! ### One event, one delivery for each subscriber -/

/-- One event of the request `id` has been written, and one delivery of that event for each
active subscription whose list contains its type. -/
structure Logged (db db' : Db π σ) (id : Uuid) (event : EventPayload) : Prop where
  outboxEvents : db'.outboxEvents = db.outboxEvents ++ [⟨"request", id, event.eventType, event⟩]
  webhookDeliveries : ∃ deliveries, db'.webhookDeliveries = db.webhookDeliveries ++ deliveries ∧
    deliveries.map WebhookDelivery.subscriptionId =
      (db.webhookSubscriptions.filter fun s =>
        s.active && decide (event.eventType ∈ s.events)).map WebhookSubscription.id ∧
    ∀ d ∈ deliveries, d.eventType = event.eventType ∧ d.payload = event

variable {id : Uuid} {event : EventPayload} {now : Time}

/-- What the last statements write, on tables that the others have not written. -/
theorem logged_fanout (houtbox : db'.outboxEvents = db.outboxEvents)
    (hdeliveries : db'.webhookDeliveries = db.webhookDeliveries)
    (hsubscriptions : db'.webhookSubscriptions = db.webhookSubscriptions) :
    Logged db (fanout (enqueue db' id event) event now) id event := by
  refine ⟨congrArg (· ++ _) houtbox, _, congrArg (· ++ _) hdeliveries, ?_, fun d hd => ?_⟩
  · rw [List.map_map, ← hsubscriptions]
    rfl
  · obtain ⟨s, -, rfl⟩ := List.mem_map.1 hd
    exact ⟨rfl, rfl⟩

/-- A notification is not logged. -/
theorem Logged.notify (h : Logged db db' id event) (n : Option NotificationOutboxRow) :
    Logged db (RequestEngine.notify db' n) id event := by
  cases n with
  | none => exact h
  | some n => exact ⟨h.outboxEvents, h.webhookDeliveries⟩

theorem notify_webhookDeliveries (db : Db π σ) (n : Option NotificationOutboxRow) :
    (notify db n).webhookDeliveries = db.webhookDeliveries := by
  cases n <;> rfl

/-- **A committed transition is logged.** -/
theorem logged_of_run (hrun : t.run env db = .ok (db', row)) :
    Logged db db' t.requestId t.event := by
  simp only [Transition.run, Except.bind_eq_ok_iff, Outcome.orThrow_eq_ok_iff,
    Except.pure_eq_ok_iff, Prod.mk.injEq] at hrun
  obtain ⟨row', -, tables, -, rfl, -⟩ := hrun
  refine logged_fanout ?_ (notify_webhookDeliveries _ _) ?_
  · exact (notify_fields _ _).2.2.2.1
  · exact (notify_fields _ _).2.2.2.2.1

/-- **A submission is logged.** -/
theorem logged_of_submit {type : String} {payload : π} {actor : Actor} {opts : SubmitRequestOptions}
    {newId : Uuid} (h : submit registry type payload actor opts now newId env db = .ok (db', row)) :
    Logged db db' row.id (.submitted row.id type actor.sub row.priority) := by
  simp only [submit, Except.bind_eq_ok_iff, RequestRegistry.get_eq_ok_iff,
    Outcome.orThrow_eq_ok_iff, Except.pure_eq_ok_iff, Prod.mk.injEq] at h
  obtain ⟨typeDef, -, tables, -, requestItems, -, rfl, rfl⟩ := h
  refine Logged.notify ?_ _
  refine logged_fanout ?_ ?_ ?_ <;> rfl

/-! ### Replaying the log -/

/-- The state of a request after an event. -/
def replayEvent (state : Option (RequestStatus × ℕ)) (event : OutboxEvent) :
    Option (RequestStatus × ℕ) :=
  if event.eventType = "request.submitted" then some (.pending, 1)
  else state.map fun (status, currentStep) =>
    if event.eventType = "request.step_approved" then (.inReview, currentStep + 1)
    else if event.eventType = "request.approved" then (.approved, currentStep)
    else if event.eventType = "request.rejected" then (.rejected, currentStep)
    else if event.eventType = "request.cancelled" then (.cancelled, currentStep)
    else if event.eventType = "request.expired" then (.expired, currentStep)
    else (status, currentStep)

/-- The state that a log tells. -/
def replay (events : List OutboxEvent) : Option (RequestStatus × ℕ) := events.foldl replayEvent none

/-- The events of a request, oldest first. -/
def eventsOf (db : Db π σ) (id : Uuid) : List OutboxEvent :=
  db.outboxEvents.filter fun e => decide (e.aggregateType = "request" ∧ e.aggregateId = id)

/-- A transition takes the request to the state that its event tells. -/
theorem replayEvent_transition (ht : TransitionOf registry request t) (id : Uuid) :
    replayEvent (some (request.status, request.currentStep))
        ⟨"request", id, t.event.eventType, t.event⟩ =
      some ((t.update request).status, (t.update request).currentStep) := by
  cases ht with
  | finalApproval => simp [replayEvent, EventPayload.eventType, finalApproval]
  | stepApproval => simp [replayEvent, EventPayload.eventType, stepApproval]
  | rejection => simp [replayEvent, EventPayload.eventType, rejection]
  | cancellation => simp [replayEvent, EventPayload.eventType, cancellation]
  | expiration => simp [replayEvent, EventPayload.eventType, expiration]

theorem eventsOf_logged (h : Logged db db' id event) (q : Uuid) :
    eventsOf db' q = eventsOf db q ++
      if id = q then [⟨"request", id, event.eventType, event⟩] else [] := by
  unfold eventsOf
  rw [h.outboxEvents, List.filter_append]
  by_cases hq : id = q
  · simp [hq]
  · simp [hq]

/-- The events of every request tell the state of its row, and every event is about a request. -/
structure Replays (db : Db π σ) : Prop where
  state : ∀ r ∈ db.requestItems.rows, replay (eventsOf db r.id) = some (r.status, r.currentStep)
  known : ∀ e ∈ db.outboxEvents, ∃ r, db.requestItems.find e.aggregateId = some r

/-- A request that is not there has no events. -/
theorem Replays.eventsOf_eq_nil (h : Replays db) (hid : db.requestItems.find id = none) :
    eventsOf db id = [] := by
  refine List.filter_eq_nil_iff.2 fun e he heq => ?_
  obtain ⟨r, hr⟩ := h.known e he
  rw [(of_decide_eq_true heq).2, hid] at hr
  cases hr

/-- The events stay about requests. -/
theorem known_logged (h : Replays db) (hlog : Logged db db' id event)
    (hkeep : ∀ q r, db.requestItems.find q = some r → ∃ r', db'.requestItems.find q = some r')
    (hstored : db'.requestItems.find id = some row) :
    ∀ e ∈ db'.outboxEvents, ∃ r, db'.requestItems.find e.aggregateId = some r := by
  intro e he
  rw [hlog.outboxEvents] at he
  rcases List.mem_append.1 he with he | he
  · obtain ⟨r, hr⟩ := h.known e he
    exact hkeep _ r hr
  · rw [List.mem_singleton.1 he]
    exact ⟨row, hstored⟩

/-- **A submission keeps the log in step.** -/
theorem Replays.submitted {type : String} {payload : π} {actor : Actor} {opts : SubmitRequestOptions}
    {newId : Uuid} (h : Replays db)
    (hsubmit : submit registry type payload actor opts now newId env db = .ok (db', row)) :
    Replays db' := by
  have hlog := logged_of_submit hsubmit
  have hs := submit_ok hsubmit
  obtain ⟨typeDef, -, hrow⟩ := hs.row_eq
  obtain ⟨hnew, hrows⟩ := Table.insert_eq_some_iff.1 hs.requestItems
  have hkeep : ∀ q r, db.requestItems.find q = some r → ∃ r', db'.requestItems.find q = some r' :=
    fun q r hr => ⟨r, Table.find_insert_of_find hs.requestItems hr⟩
  refine ⟨fun r hr => ?_, known_logged h hlog hkeep (Table.find_insert_self hs.requestItems)⟩
  rw [eventsOf_logged hlog]
  rcases (Table.mem_insert hs.requestItems).1 hr with hold | rfl
  · have hne : ¬ row.id = r.id := by
      intro heq
      rw [heq, Table.find_of_mem hold] at hnew
      cases hnew
    rw [if_neg hne, List.append_nil]
    exact h.state r hold
  · rw [if_pos rfl, h.eventsOf_eq_nil hnew, hrow]
    simp [replay, replayEvent, EventPayload.eventType, submittedItem]

/-- **A decision keeps the log in step.** -/
theorem Replays.decided (h : Replays db) (hreq : db.requestItems.find request.id = some request)
    (ht : TransitionOf registry request t) (hrun : t.run env db = .ok (db', row)) :
    Replays db' := by
  have hlog := logged_of_run hrun
  have hc := Transition.run_ok hrun
  have hkeep : ∀ q r, db.requestItems.find q = some r → ∃ r', db'.requestItems.find q = some r' :=
    fun q r hr => ⟨_, ht.find_committed hreq hc hr⟩
  refine ⟨fun r hr => ?_, known_logged h hlog hkeep hc.find_self⟩
  rw [eventsOf_logged hlog, ht.requestId_eq]
  rcases ht.rows_committed hreq hc hr with rfl | ⟨hr, hne⟩
  · have hid : (t.update request).id = request.id := t.update_id request
    rw [hid, if_pos rfl, replay, List.foldl_append]
    have hstate := h.state request (Table.mem_of_find hreq)
    unfold replay at hstate
    rw [hstate]
    exact replayEvent_transition ht request.id
  · rw [if_neg (Ne.symm hne), List.append_nil]
    exact h.state r hr

/-! ### Runs -/

/-- What happens to the database: a call of the engine under faults, or a change of the other
tables. -/
inductive LogEvent (π σ : Type)
  | call (faults : Faults σ) (e : Event π)
  | others (tables : TxTables σ) (webhookSubscriptions : List WebhookSubscription)

/-- The database after an event. -/
def logStep (registry : RequestRegistry π σ) (db : Db π σ) : LogEvent π σ → Db π σ
  | .call faults e => (perform registry faults db e).2
  | .others tables webhookSubscriptions =>
    { db with toTxTables := tables, webhookSubscriptions := webhookSubscriptions }

/-- A call that throws has written nothing, nor has one that has nothing to do; any other one has
written the row that it returns, one event of it, and its deliveries. -/
def Accounted (db : Db π σ) (e : Event π) :
    Except Failure (Option (RequestItem π)) × Db π σ → Prop
  | (.error _, db') => db' = db
  | (.ok none, db') => Idle db e ∧ db' = db
  | (.ok (some row), db') =>
    db'.requestItems.find row.id = some row ∧ ∃ event, Logged db db' row.id event

theorem Outcomes.accounted {e : Event π} {o : Except Failure (Option (RequestItem π)) × Db π σ}
    (h : Outcomes registry db (Idle db e) o) : Accounted db e o := by
  obtain ⟨_ | _ | row, db'⟩ := o
  · exact h
  · exact h
  · cases h with
    | submitted h =>
      exact ⟨Table.find_insert_self (submit_ok h).requestItems, _, logged_of_submit h⟩
    | @decided request t env hreq ht hrun =>
      have hstored := (Transition.run_ok hrun).find_self
      have hid : row.id = t.requestId := Table.key_of_find hstored
      exact ⟨hid ▸ hstored, _, hid ▸ logged_of_run hrun⟩

theorem Outcomes.replays {idle : Prop} {o : Except Failure (Option (RequestItem π)) × Db π σ}
    (h : Outcomes registry db idle o) (hdb : Replays db) : Replays o.2 := by
  obtain ⟨_ | _ | row, db'⟩ := o
  · obtain rfl : db' = db := h
    exact hdb
  · obtain rfl : db' = db := h.2
    exact hdb
  · cases h with
    | submitted h => exact hdb.submitted h
    | decided hreq ht hrun => exact hdb.decided hreq ht hrun

theorem replays_initial (subscriptions : List WebhookSubscription) (tables : TxTables σ) :
    Replays (Db.initial subscriptions tables : Db π σ) :=
  ⟨by simp [Db.initial, Table.empty], by simp [Db.initial]⟩

theorem replays_step (registry : RequestRegistry π σ) (e : LogEvent π σ) (h : Replays db) :
    Replays (logStep registry db e) := by
  cases e with
  | call faults e => exact (perform_cases registry faults db e).replays h
  | others tables webhookSubscriptions => exact ⟨h.state, h.known⟩

/-- **The event log replays to the state.**  After every run, whatever has thrown in it, the events
of every request tell its status and its step; and the next call, if it throws or has nothing to
do, writes nothing, else one event and one delivery for each subscriber to it. -/
theorem run_replays (registry : RequestRegistry π σ) (subscriptions : List WebhookSubscription)
    (tables : TxTables σ) (es : List (LogEvent π σ)) :
    (∀ r ∈ (Runs.run (logStep registry) (Db.initial subscriptions tables) es).requestItems.rows,
      replay (eventsOf (Runs.run (logStep registry) (Db.initial subscriptions tables) es) r.id) =
        some (r.status, r.currentStep)) ∧
    ∀ faults e, Accounted (Runs.run (logStep registry) (Db.initial subscriptions tables) es) e
      (perform registry faults (Runs.run (logStep registry) (Db.initial subscriptions tables) es)
        e) := by
  have hinv : Replays (Runs.run (logStep registry) (Db.initial subscriptions tables) es) :=
    Runs.run_invariant (fun db e h => replays_step registry e h)
      (replays_initial subscriptions tables) es
  exact ⟨hinv.state, fun faults e => (perform_cases registry faults _ e).accounted⟩

/-- A submission whose fan-out throws, then one that commits, and its expiry. -/
example :
    let registry : RequestRegistry Unit Unit := fun type => some
      { type := type
        requiredApprovalPermission := "workforce.manage"
        onApprove := fun _ _ _ => Hook.skip }
    let submit : Event Unit := .submit "leave_request" () ⟨1, "user1@example.com"⟩ {} 0 5 ⟨0, 6⟩
    let faults : Faults Unit :=
      { statement := fun s => if s = .insertDeliveries then some (.error "timeout") else none }
    let db := Runs.run (logStep registry)
      (Db.initial [⟨7, true, ["request.submitted"]⟩] ⟨[], ()⟩)
      [.call faults submit, .call {} submit, .call {} (.expire 5 0 ⟨0, 6⟩)]
    replay (eventsOf db 5) = some (.expired, 1) ∧ db.webhookDeliveries.length = 1 := by
  decide +kernel

end RequestEngine

end OpsHub
