import OpsHub.Outbox.Relays
import OpsHub.Platform.Errors
import OpsHub.Requests.Engine

/-!
# Webhook deliveries over time

The table `webhook_deliveries` with everything that writes to it: `fanout` inserts rows, the
passes of `WebhookRelayService` in any number of processes POST and mark them, and
`WebhooksService.retryDelivery` resets a row.

* `map_columns_deliveries`: the rows of `fanout` are those that the request engine adds;
* `Deliveries`: the table, the passes under way, and the POSTs that have been made;
* `Held`: the invariant; a row under way is as it has been fetched;
* `Change`, `change_of_step`: all that a step can do to one delivery;
* `RetriesAgain`: after a retry the relay fetches the delivery until it has been POSTed again;
* `never_retried`: no failed delivery is ever POSTed again, since its attempts are used up.
-/

namespace OpsHub

open WebhookRelayService (relay)

/-! ### The statements -/

/-- The text that the column `status` holds. -/
def OutboxStatus.value : OutboxStatus → String
  | .pending => "pending"
  | .sent => "sent"
  | .dispatched => "dispatched"
  | .delivered => "delivered"
  | .failed => "failed"
  | .dead => "dead"

/-- The active subscriptions to an event. -/
def WebhookEnqueueService.subscribers (subscriptions : List WebhookTarget) (eventType : String) :
    List WebhookTarget :=
  subscriptions.filter fun s => s.active && decide (eventType ∈ s.events)

/-- The rows that `fanout` inserts. -/
def WebhookEnqueueService.deliveries (subscriptions : List WebhookTarget) (event : EventPayload)
    (newId : ℕ → Uuid) (now : Time) : List (OutboxRow DeliveryData) :=
  (subscribers subscriptions event.eventType).mapIdx fun i s =>
    { id := newId i
      data := ⟨s.id, event.eventType, event⟩
      status := .pending
      attempts := 0
      dueAt := now }

/-- The columns of a delivery that the engine's `fanout` writes. -/
def WebhookEnqueueService.columns (r : OutboxRow DeliveryData) : WebhookDelivery where
  subscriptionId := r.data.subscriptionId
  eventType := r.data.eventType
  payload := r.data.payload
  status := r.status.value
  attempts := r.attempts
  nextAttemptAt := r.dueAt

/-- The rows are those that the engine adds with a transition. -/
theorem WebhookEnqueueService.map_columns_deliveries {π σ : Type} {db : Db π σ}
    {subscriptions : List WebhookTarget}
    (hsubscriptions : db.webhookSubscriptions =
      subscriptions.map WebhookTarget.toWebhookSubscription)
    (event : EventPayload) (newId : ℕ → Uuid) (now : Time) :
    (RequestEngine.fanout db event now).webhookDeliveries =
      db.webhookDeliveries ++ (deliveries subscriptions event newId now).map columns := by
  have hsubscribers : RequestEngine.subscribers db event.eventType =
      (subscribers subscriptions event.eventType).map WebhookTarget.toWebhookSubscription := by
    rw [RequestEngine.subscribers, hsubscriptions, List.filter_map]
    rfl
  have hrows : (deliveries subscriptions event newId now).map columns =
      (subscribers subscriptions event.eventType).map fun s =>
        { subscriptionId := s.id
          eventType := event.eventType
          payload := event
          status := "pending"
          attempts := 0
          nextAttemptAt := now } := by
    refine List.ext_getElem (by simp [deliveries]) fun i hi hi' => ?_
    simp only [deliveries, List.getElem_map, List.getElem_mapIdx]
    rfl
  rw [hrows]
  simp only [RequestEngine.fanout, hsubscribers, List.map_map]
  rfl

/-- `WebhookEnqueueService.fanout`; a key that is taken makes it fail. -/
def WebhookEnqueueService.fanout (event : EventPayload) (newId : ℕ → Uuid) (now : Time)
    (db : Outbox DeliveryData (List WebhookTarget)) : Outbox DeliveryData (List WebhookTarget) :=
  match db.rows.insertAll (deliveries db.joined event newId now) with
  | some rows => { db with rows := rows }
  | none => db

/-- What `retryDelivery` writes. -/
def WebhooksService.retriedRow (now : Time) (r : OutboxRow DeliveryData) : OutboxRow DeliveryData :=
  { r with status := .pending, dueAt := now, lastError := none }

theorem WebhooksService.retriedRow_id (now : Time) (r : OutboxRow DeliveryData) :
    (retriedRow now r).id = r.id := rfl

/-- `WebhooksService.retryDelivery`, with the row that it returns. -/
def WebhooksService.retryDelivery (deliveryId : Uuid) (now : Time)
    (db : Outbox DeliveryData (List WebhookTarget)) :
    Except Failure (Outbox DeliveryData (List WebhookTarget) × OutboxRow DeliveryData) :=
  let rows := db.rows.update deliveryId (retriedRow now) (retriedRow_id now)
  match rows.find deliveryId with
  | some row => .ok ({ db with rows := rows }, row)
  | none => .error (.notFound "DELIVERY_NOT_FOUND" "Webhook delivery not found")

/-! ### The system -/

/-- A pass of the relay under way. -/
structure RelayPass where
  fetchedAt : Time
  batch : List (FetchedRow DeliveryRow)

/-- How much time passes until a row is POSTed, until the POST has been answered or given up, and
until the row is marked; the first is reckoned from the fetch, each other one from the last. -/
structure Elapsed where
  posted : ℕ
  ended : ℕ
  marked : ℕ

/-- The instants at which a pass that has fetched at `fetchedAt` marks its rows. -/
def Pattern.timed {ρ τ : Type} (p : Pattern ρ τ) (fetchedAt : Time) (elapsed : Uuid → Elapsed) :
    Pattern ρ τ :=
  { p with
    markedAt := fun id =>
      fetchedAt + (elapsed id).posted + (elapsed id).ended + (elapsed id).marked }

/-- The instants do not decide whether a pass commits. -/
theorem Pattern.commits_timed {ρ τ : Type} {p : Pattern ρ τ} {fetchedAt : Time}
    {elapsed : Uuid → Elapsed} {batch : List (FetchedRow ρ)} :
    AbstractOutboxRelay.Commits (p.timed fetchedAt elapsed) batch ↔
      AbstractOutboxRelay.Commits p batch := Iff.rfl

/-- A POST: the `next_attempt_at` that was stored then, when it was sent, and when it was answered
or given up. -/
structure Post where
  deliveryId : Uuid
  nextAttemptAt : Option Time
  postedAt : Time
  endedAt : Time
  deriving DecidableEq, Repr

/-- The table of the deliveries with the subscriptions, the passes under way, and the POSTs. -/
structure Deliveries where
  db : Outbox DeliveryData (List WebhookTarget)
  passes : List RelayPass
  posts : List Post

/-- What can happen to the deliveries. -/
inductive DeliveryEvent
  /-- A transaction with a `fanout` commits. -/
  | fanout (event : EventPayload) (newId : ℕ → Uuid) (now : Time)
  /-- A pass begins.  `held` are rows that it skips because others than passes hold them, or
  because their subscription is held. -/
  | fetch (now : Time) (held : Uuid → Bool)
  /-- The `i`-th pass ends. -/
  | finish (i : ℕ) (p : Pattern DeliveryRow Empty) (elapsed : Uuid → Elapsed)
  /-- `retryDelivery`; its statement waits while a pass holds the row. -/
  | retryDelivery (deliveryId : Uuid) (now : Time)
  /-- The subscriptions change. -/
  | subscribe (subscriptions : List WebhookTarget)

namespace Deliveries

/-- There are no deliveries yet. -/
def initial (subscriptions : List WebhookTarget) : Deliveries :=
  ⟨⟨Table.empty OutboxRow.id, subscriptions⟩, [], []⟩

/-- The runs of the relay. -/
def runs (s : Deliveries) : RelaySystem DeliveryData (List WebhookTarget) DeliveryRow :=
  ⟨s.db, [], s.passes.map RelayPass.batch⟩

/-- The POST of a fetched row. -/
def postOf (s : Deliveries) (fetchedAt : Time) (elapsed : Uuid → Elapsed)
    (row : FetchedRow DeliveryRow) : Post where
  deliveryId := row.id
  nextAttemptAt := (s.db.rows.find row.id).map OutboxRow.dueAt
  postedAt := fetchedAt + (elapsed row.id).posted
  endedAt := fetchedAt + (elapsed row.id).posted + (elapsed row.id).ended

/-- The next state. -/
def step (s : Deliveries) : DeliveryEvent → Deliveries
  | .fanout event newId now => { s with db := WebhookEnqueueService.fanout event newId now s.db }
  | .fetch now held =>
    let batch := relay.fetchBatch now (fun id => s.runs.locked id || held id) s.db
    { s with passes := s.passes ++ [⟨now, batch⟩] }
  | .finish i p elapsed =>
    match s.passes[i]? with
    | some pass =>
      let run := relay.finish (p.timed pass.fetchedAt elapsed).env pass.batch [] s.db
      { db := run.db
        passes := s.passes.set i ⟨pass.fetchedAt, []⟩
        posts := s.posts ++ run.world.map (s.postOf pass.fetchedAt elapsed) }
    | none => s
  | .retryDelivery deliveryId now =>
    if s.runs.locked deliveryId then s
    else
      match WebhooksService.retryDelivery deliveryId now s.db with
      | .ok (db, _) => { s with db := db }
      | .error _ => s
  | .subscribe subscriptions => { s with db := { s.db with joined := subscriptions } }

/-- The state after a sequence of events. -/
def after (subscriptions : List WebhookTarget) (es : List DeliveryEvent) : Deliveries :=
  Runs.run step (initial subscriptions) es

/-- The POSTs of a delivery. -/
def postsOf (s : Deliveries) (id : Uuid) : List Post :=
  s.posts.filter fun post => decide (post.deliveryId = id)

/-! ### The invariant -/

/-- The row is as it has been fetched at the instant `t`. -/
structure Fetched (t : Time) (row : FetchedRow DeliveryRow) (r : OutboxRow DeliveryData) :
    Prop where
  pending : r.status = .pending
  attempts : row.attempts = r.attempts
  unspent : r.attempts < relay.maxAttempts
  due : r.dueAt ≤ t

/-- No row is in two passes under way, and each of them is as it has been fetched. -/
structure Held (s : Deliveries) : Prop where
  locked : RelaySystem.Locked s.runs
  fetched : ∀ pass ∈ s.passes, ∀ row ∈ pass.batch,
    ∃ r, s.db.rows.find row.id = some r ∧ Fetched pass.fetchedAt row r

variable {s s' : Deliveries} {id : Uuid}

theorem locked_of_mem {pass : RelayPass} (hpass : pass ∈ s.passes) {row : FetchedRow DeliveryRow}
    (hrow : row ∈ pass.batch) : s.runs.locked row.id = true :=
  RelaySystem.locked_eq_true_iff.2 ⟨pass.batch, List.mem_map_of_mem hpass, row, hrow, rfl⟩

theorem batch_of_pass {i : ℕ} {pass : RelayPass} (hpass : s.passes[i]? = some pass) :
    s.runs.batches[i]? = some pass.batch := by
  show (s.passes.map RelayPass.batch)[i]? = some pass.batch
  rw [List.getElem?_map, hpass]
  rfl

theorem Held.initial (subscriptions : List WebhookTarget) : Held (initial subscriptions) :=
  ⟨RelaySystem.Locked.initial _, fun _ hpass => by cases hpass⟩

/-- A statement that leaves the rows under way as they are. -/
theorem Held.of_kept (h : Held s) {db : Outbox DeliveryData (List WebhookTarget)}
    (hkept : ∀ id r, s.runs.locked id = true → s.db.rows.find id = some r →
      db.rows.find id = some r) : Held { s with db := db } := by
  refine ⟨h.locked.of_kept hkept, fun pass hpass row hrow => ?_⟩
  obtain ⟨r, hr, hfetched⟩ := h.fetched pass hpass row hrow
  exact ⟨r, hkept row.id r (locked_of_mem hpass hrow) hr, hfetched⟩

/-- A pass begins. -/
theorem Held.fetch (h : Held s) (now : Time) (held : Uuid → Bool) :
    Held (step s (.fetch now held)) := by
  have hruns : (step s (.fetch now held)).runs = { s.runs with
      batches := s.runs.batches ++
        [relay.fetchBatch now (fun id => s.runs.locked id || held id) s.runs.db] } := by
    simp only [step, runs, List.map_append, List.map_cons, List.map_nil]
  constructor
  · rw [hruns]
    exact h.locked.fetch now fun id hlocked => by rw [hlocked, Bool.true_or]
  · refine Pool.forall_mem_add h.fetched fun row hrow => ?_
    obtain ⟨r, hr, hdue, hattempts⟩ := AbstractOutboxRelay.mem_fetchBatch hrow
    exact ⟨r, hr, hdue.1, hattempts, hdue.2.1, hdue.2.2.1⟩

/-- A pass ends. -/
theorem Held.finish (h : Held s) (i : ℕ) (p : Pattern DeliveryRow Empty)
    (elapsed : Uuid → Elapsed) : Held (step s (.finish i p elapsed)) := by
  simp only [step]
  split
  · rename_i pass hpass
    have hruns := h.locked.finish (R := relay) (p.timed pass.fetchedAt elapsed)
      (batch_of_pass hpass) [] []
    refine ⟨?_, fun other hother row hrow => ?_⟩
    · simpa only [runs, List.map_set] using hruns
    · obtain ⟨j, hj⟩ := List.getElem?_of_mem hother
      rcases Pool.get_set_cases hj with ⟨-, rfl⟩ | ⟨hij, hj⟩
      · cases hrow
      · obtain ⟨r, hr, hfetched⟩ := h.fetched other (List.mem_of_getElem? hj) row hrow
        have hdisjoint : ∀ x ∈ pass.batch, x.id ≠ row.id := fun x hx =>
          h.locked.disjoint i j _ _ (batch_of_pass hpass) (batch_of_pass hj) hij.symm x hx row hrow
        exact ⟨r, (RelaySystem.find_finish hdisjoint).trans hr, hfetched⟩
  · exact h

/-! ### The statements, row by row -/

section Statements

variable {db db' : Outbox DeliveryData (List WebhookTarget)} {r row : OutboxRow DeliveryData}
  {now : Time}

theorem mem_deliveries {subscriptions : List WebhookTarget} {event : EventPayload}
    {newId : ℕ → Uuid} (h : r ∈ WebhookEnqueueService.deliveries subscriptions event newId now) :
    r.status = .pending ∧ r.attempts = 0 := by
  obtain ⟨i, hi, rfl⟩ := List.mem_mapIdx.1 h
  exact ⟨rfl, rfl⟩

theorem find_fanout_cases (event : EventPayload) (newId : ℕ → Uuid) (now : Time)
    (db : Outbox DeliveryData (List WebhookTarget)) (id : Uuid) :
    (WebhookEnqueueService.fanout event newId now db).rows.find id = db.rows.find id ∨
      db.rows.find id = none ∧ ∃ r, r.status = .pending ∧ r.attempts = 0 ∧
        (WebhookEnqueueService.fanout event newId now db).rows.find id = some r := by
  unfold WebhookEnqueueService.fanout
  split
  · rename_i rows hinsert
    rcases Table.find_insertAll_cases hinsert with hkept | ⟨hnone, r, hr, hfind⟩
    · exact Or.inl hkept
    · obtain ⟨hpending, hattempts⟩ := mem_deliveries hr
      exact Or.inr ⟨hnone, r, hpending, hattempts, hfind⟩
  · exact Or.inl rfl

theorem find_fanout_of_find (event : EventPayload) (newId : ℕ → Uuid) (now : Time)
    (hr : db.rows.find id = some r) :
    (WebhookEnqueueService.fanout event newId now db).rows.find id = some r := by
  rcases find_fanout_cases event newId now db id with hkept | ⟨hnone, -⟩
  · exact hkept.trans hr
  · rw [hnone] at hr
    cases hr

/-- A retry writes the row that it returns, and no other. -/
theorem retryDelivery_eq_ok (h : WebhooksService.retryDelivery id now db = .ok (db', row)) :
    (∃ r, db.rows.find id = some r ∧ row = WebhooksService.retriedRow now r) ∧
      db'.rows.find id = some row ∧
      (∀ id', id' ≠ id → db'.rows.find id' = db.rows.find id') ∧ db'.joined = db.joined := by
  unfold WebhooksService.retryDelivery at h
  simp only at h
  split at h
  · rename_i row' hfind
    simp only [Except.ok.injEq, Prod.mk.injEq] at h
    obtain ⟨rfl, rfl⟩ := h
    refine ⟨?_, hfind, fun id' hne => ?_, rfl⟩
    · rw [Table.find_update_self, Option.map_eq_some_iff] at hfind
      obtain ⟨r, hr, rfl⟩ := hfind
      exact ⟨r, hr, rfl⟩
    · exact Table.find_update_ne _ hne _ (WebhooksService.retriedRow_id now)
  · cases h

/-- A delivery that is there can be retried. -/
theorem retryDelivery_of_find (hr : db.rows.find id = some r) (now : Time) :
    ∃ db', WebhooksService.retryDelivery id now db =
      .ok (db', WebhooksService.retriedRow now r) := by
  have hfind : (db.rows.update id (WebhooksService.retriedRow now)
      (WebhooksService.retriedRow_id now)).find id = some (WebhooksService.retriedRow now r) := by
    rw [Table.find_update_self, hr, Option.map_some]
  simp only [WebhooksService.retryDelivery, hfind]
  exact ⟨_, rfl⟩

end Statements

/-- **The invariant**, step by step. -/
theorem Held.step (h : Held s) (e : DeliveryEvent) : Held (step s e) := by
  cases e with
  | fanout event newId now => exact h.of_kept fun _ _ _ hr => find_fanout_of_find event newId now hr
  | fetch now held => exact h.fetch now held
  | finish i p elapsed => exact h.finish i p elapsed
  | retryDelivery deliveryId now =>
    simp only [Deliveries.step]
    split
    · exact h
    · rename_i hfree
      split
      · rename_i db row hretry
        refine h.of_kept fun id r hlocked hr => ?_
        have hne : id ≠ deliveryId := fun hid => hfree (hid ▸ hlocked)
        rw [(retryDelivery_eq_ok hretry).2.2.1 id hne]
        exact hr
      · exact h
  | subscribe subscriptions => exact h.of_kept fun _ _ _ hr => hr

theorem held_after (subscriptions : List WebhookTarget) (es : List DeliveryEvent) :
    Held (after subscriptions es) :=
  Runs.run_invariant (fun _ e hs => hs.step e) (Held.initial subscriptions) es

/-! ### What a step does to a delivery -/

/-- All that a step can do to the delivery `id`. -/
inductive Change (s s' : Deliveries) (id : Uuid) : DeliveryEvent → Prop
  /-- Neither its row nor its POSTs change. -/
  | kept {e : DeliveryEvent} (hrow : s'.db.rows.find id = s.db.rows.find id)
      (hposts : s'.postsOf id = s.postsOf id) : Change s s' id e
  /-- It is inserted. -/
  | created {e : DeliveryEvent} {r : OutboxRow DeliveryData} (hnone : s.db.rows.find id = none)
      (hpending : r.status = .pending) (hattempts : r.attempts = 0)
      (hrow : s'.db.rows.find id = some r) (hposts : s'.postsOf id = s.postsOf id) :
      Change s s' id e
  /-- It is reset. -/
  | retried {now : Time} {r : OutboxRow DeliveryData} (hr : s.db.rows.find id = some r)
      (hrow : s'.db.rows.find id = some (WebhooksService.retriedRow now r))
      (hposts : s'.postsOf id = s.postsOf id) : Change s s' id (.retryDelivery id now)
  /-- A pass POSTs it, marks it and commits. -/
  | marked {i : ℕ} {p : Pattern DeliveryRow Empty} {elapsed : Uuid → Elapsed}
      {pass : RelayPass} {row : FetchedRow DeliveryRow} {r : OutboxRow DeliveryData}
      (hpass : s.passes[i]? = some pass) (hmem : row ∈ pass.batch) (hid : row.id = id)
      (hr : s.db.rows.find id = some r) (hfetched : Fetched pass.fetchedAt row r)
      (hrow : s'.db.rows.find id =
        some (relay.markedRow (p.timed pass.fetchedAt elapsed) row r))
      (hposts : s'.postsOf id = s.postsOf id ++ [s.postOf pass.fetchedAt elapsed row]) :
      Change s s' id (.finish i p elapsed)
  /-- A pass that has fetched it does not commit. -/
  | rolledBack {i : ℕ} {p : Pattern DeliveryRow Empty} {elapsed : Uuid → Elapsed}
      {pass : RelayPass} {row : FetchedRow DeliveryRow} {r : OutboxRow DeliveryData}
      (hpass : s.passes[i]? = some pass) (hmem : row ∈ pass.batch) (hid : row.id = id)
      (hr : s.db.rows.find id = some r) (hfetched : Fetched pass.fetchedAt row r)
      (hcommits : ¬AbstractOutboxRelay.Commits p pass.batch)
      (hrow : s'.db.rows.find id = some r) : Change s s' id (.finish i p elapsed)

/-- The POSTs of a pass for one of the deliveries that it has fetched. -/
theorem filter_postOf (s : Deliveries) (t : Time) (elapsed : Uuid → Elapsed)
    {batch : List (FetchedRow DeliveryRow)} (hnodup : (batch.map FetchedRow.id).Nodup)
    {row : FetchedRow DeliveryRow} (hrow : row ∈ batch) :
    (batch.map (s.postOf t elapsed)).filter (fun post => decide (post.deliveryId = row.id)) =
      [s.postOf t elapsed row] := by
  induction batch with
  | nil => cases hrow
  | cons x batch ih =>
    rw [List.map_cons, List.nodup_cons] at hnodup
    rw [List.map_cons, List.filter_cons]
    rcases List.mem_cons.1 hrow with rfl | hmem
    · have hrest : ∀ post ∈ batch.map (s.postOf t elapsed),
          ¬decide (post.deliveryId = row.id) = true := by
        intro post hpost hid
        obtain ⟨y, hy, rfl⟩ := List.mem_map.1 hpost
        exact hnodup.1 (List.mem_map.2 ⟨y, hy, of_decide_eq_true hid⟩)
      rw [List.filter_eq_nil_iff.2 hrest]
      exact if_pos (decide_eq_true rfl)
    · have hne : ¬decide ((s.postOf t elapsed x).deliveryId = row.id) = true := fun hid =>
        hnodup.1 (List.mem_map.2 ⟨row, hmem, (of_decide_eq_true hid).symm⟩)
      rw [if_neg hne]
      exact ih hnodup.2 hmem

/-- A pass has no POSTs of a delivery that it has not fetched. -/
theorem filter_postOf_of_notMem (s : Deliveries) (t : Time) (elapsed : Uuid → Elapsed)
    {rows : List (FetchedRow DeliveryRow)} (h : ∀ row ∈ rows, row.id ≠ id) :
    (rows.map (s.postOf t elapsed)).filter (fun post => decide (post.deliveryId = id)) =
      [] := by
  refine List.filter_eq_nil_iff.2 fun post hpost hid => ?_
  obtain ⟨row, hrow, rfl⟩ := List.mem_map.1 hpost
  exact h row hrow (of_decide_eq_true hid)

/-- The end of a pass, for one delivery. -/
theorem change_of_finish (h : Held s) (i : ℕ) (p : Pattern DeliveryRow Empty)
    (elapsed : Uuid → Elapsed) (id : Uuid) :
    Change s (step s (.finish i p elapsed)) id (.finish i p elapsed) := by
  cases hpass : s.passes[i]? with
  | none =>
    have hstep : step s (.finish i p elapsed) = s := by simp only [step, hpass]
    rw [hstep]
    exact .kept rfl rfl
  | some pass =>
    have hposts : (step s (.finish i p elapsed)).postsOf id = s.postsOf id ++
        (((p.timed pass.fetchedAt elapsed).processedRows pass.batch).map
          (s.postOf pass.fetchedAt elapsed)).filter
            (fun post => decide (post.deliveryId = id)) := by
      simp only [step, hpass, postsOf, AbstractOutboxRelay.finish_world, List.nil_append,
        List.filter_append]
    have hdb : (step s (.finish i p elapsed)).db =
        (relay.finish (p.timed pass.fetchedAt elapsed).env pass.batch [] s.db).db := by
      simp only [step, hpass]
    by_cases hmem : ∃ row ∈ pass.batch, row.id = id
    · obtain ⟨row, hrow, rfl⟩ := hmem
      obtain ⟨r, hr, hfetched⟩ := h.fetched pass (List.mem_of_getElem? hpass) row hrow
      have hnodup := h.locked.distinct i pass.batch (batch_of_pass hpass)
      by_cases hcommits : AbstractOutboxRelay.Commits (p.timed pass.fetchedAt elapsed) pass.batch
      · refine .marked hpass hrow rfl hr hfetched ?_ ?_
        · rw [hdb, AbstractOutboxRelay.finish_of_commits hcommits,
            AbstractOutboxRelay.find_foldl_of_mem hnodup hrow, hr, Option.map_some]
        · rw [hposts, Pattern.processedRows_of_not_aborts _ hcommits.1,
            filter_postOf s _ _ hnodup hrow]
      · refine .rolledBack hpass hrow rfl hr hfetched (mt Pattern.commits_timed.2 hcommits) ?_
        rw [hdb, AbstractOutboxRelay.finish_of_not_commits hcommits, hr]
    · have hother : ∀ row ∈ pass.batch, row.id ≠ id := fun row hrow hid => hmem ⟨row, hrow, hid⟩
      refine .kept ?_ ?_
      · rw [hdb, RelaySystem.find_finish hother]
      · rw [hposts, filter_postOf_of_notMem s _ _ fun row hrow =>
          hother row (Pattern.mem_of_mem_processedRows _ hrow), List.append_nil]

/-- **The inversion of a step**, for one delivery. -/
theorem change_of_step (h : Held s) (e : DeliveryEvent) (id : Uuid) : Change s (step s e) id e := by
  cases e with
  | fanout event newId now =>
    rcases find_fanout_cases event newId now s.db id with hkept | ⟨hnone, r, hpending, hzero, hr⟩
    · exact .kept hkept rfl
    · exact .created hnone hpending hzero hr rfl
  | fetch now held => exact .kept rfl rfl
  | finish i p elapsed => exact change_of_finish h i p elapsed id
  | retryDelivery deliveryId now =>
    simp only [step]
    split
    · exact .kept rfl rfl
    · split
      · rename_i db row hretry
        obtain ⟨⟨r, hr, rfl⟩, hfind, hother, -⟩ := retryDelivery_eq_ok hretry
        by_cases hid : id = deliveryId
        · subst hid
          exact .retried hr hfind rfl
        · exact .kept (hother id hid) rfl
      · exact .kept rfl rfl
  | subscribe subscriptions => exact .kept rfl rfl

/-- A delivery that no pass can have fetched stays as it is, or is reset. -/
theorem Change.kept_or_retried {e : DeliveryEvent} (h : Change s s' id e)
    {r : OutboxRow DeliveryData} (hr : s.db.rows.find id = some r)
    (hclosed : ∀ t row, ¬Fetched t row r) :
    s'.postsOf id = s.postsOf id ∧ (s'.db.rows.find id = some r ∨
      ∃ now, e = .retryDelivery id now ∧
        s'.db.rows.find id = some (WebhooksService.retriedRow now r)) := by
  cases h with
  | kept hrow hposts => exact ⟨hposts, Or.inl (hrow.trans hr)⟩
  | created hnone =>
    rw [hnone] at hr
    cases hr
  | retried hr' hrow hposts =>
    obtain rfl := Option.some.inj (hr'.symm.trans hr)
    exact ⟨hposts, Or.inr ⟨_, rfl, hrow⟩⟩
  | marked _ _ _ hr' hfetched =>
    obtain rfl := Option.some.inj (hr'.symm.trans hr)
    exact absurd hfetched (hclosed _ _)
  | rolledBack _ _ _ hr' hfetched =>
    obtain rfl := Option.some.inj (hr'.symm.trans hr)
    exact absurd hfetched (hclosed _ _)

/-! ### Failed deliveries -/

/-- The attempts of every failed delivery are used up. -/
def FailedSpent (s : Deliveries) : Prop :=
  ∀ id r, s.db.rows.find id = some r → r.status = .failed → relay.maxAttempts ≤ r.attempts

/-- A row that a pass marks as failed has used up its attempts. -/
theorem spent_of_markedRow {p : Pattern DeliveryRow Empty} {row : FetchedRow DeliveryRow}
    {r : OutboxRow DeliveryData} (h : (relay.markedRow p row r).status = .failed) :
    relay.maxAttempts ≤ (relay.markedRow p row r).attempts := by
  unfold AbstractOutboxRelay.markedRow at h ⊢
  split
  · rename_i hattempt
    rw [hattempt] at h
    cases h
  · rename_i errMsg hattempt
    rw [hattempt] at h
    simp only [AbstractOutboxRelay.failedRow] at h ⊢
    by_contra hlt
    rw [decide_eq_false hlt] at h
    cases h

theorem FailedSpent.step (hspent : FailedSpent s) (h : Held s) (e : DeliveryEvent) :
    FailedSpent (step s e) := by
  intro id r hr hfailed
  cases change_of_step h e id with
  | kept hrow =>
    rw [hrow] at hr
    exact hspent id r hr hfailed
  | created _ hpending _ hrow =>
    obtain rfl := Option.some.inj (hrow.symm.trans hr)
    rw [hpending] at hfailed
    cases hfailed
  | retried _ hrow =>
    obtain rfl := Option.some.inj (hrow.symm.trans hr)
    cases hfailed
  | marked _ _ _ _ _ hrow =>
    obtain rfl := Option.some.inj (hrow.symm.trans hr)
    exact spent_of_markedRow hfailed
  | rolledBack _ _ _ hr' _ _ hrow =>
    obtain rfl := Option.some.inj (hrow.symm.trans hr)
    exact hspent id _ hr' hfailed

theorem failedSpent_after (subscriptions : List WebhookTarget) (es : List DeliveryEvent) :
    FailedSpent (after subscriptions es) := by
  have hinitial : FailedSpent (initial subscriptions) := fun id r hr => by cases hr
  exact Runs.run_invariant_within (fun _ e h => h.step e) (fun _ e h hspent => hspent.step h e)
    (Held.initial subscriptions) hinitial es

/-- The attempts of the delivery are used up, and `posts` are its POSTs. -/
def Spent (id : Uuid) (posts : List Post) (s : Deliveries) : Prop :=
  (∃ r, s.db.rows.find id = some r ∧ relay.maxAttempts ≤ r.attempts) ∧ s.postsOf id = posts

/-- No pass fetches a delivery whose attempts are used up, and no statement gives it new ones. -/
theorem Spent.step {posts : List Post} (hspent : Spent id posts s) (h : Held s)
    (e : DeliveryEvent) : Spent id posts (step s e) := by
  obtain ⟨⟨r, hr, hattempts⟩, rfl⟩ := hspent
  have hclosed : ∀ t row, ¬Fetched t row r := fun _ _ hfetched =>
    absurd hfetched.unspent (Nat.not_lt_of_le hattempts)
  obtain ⟨hposts, hrow | ⟨now, -, hrow⟩⟩ := (change_of_step h e id).kept_or_retried hr hclosed
  · exact ⟨⟨r, hrow, hattempts⟩, hposts⟩
  · exact ⟨⟨_, hrow, hattempts⟩, hposts⟩

theorem Spent.run {posts : List Post} (hspent : Spent id posts s) (h : Held s)
    (es : List DeliveryEvent) : Spent id posts (Runs.run Deliveries.step s es) :=
  Runs.run_invariant_within (fun _ e h => h.step e) (fun _ e h hspent => hspent.step h e) h hspent es

/-- **The retry takes effect**: as long as no pass has POSTed the delivery again and its
subscription is active, it meets the condition of `fetchBatch` from its next attempt on. -/
def RetriesAgain (s : Deliveries) (id : Uuid) : Prop :=
  ∀ es, (Runs.run step s es).postsOf id = s.postsOf id →
    ∀ r, (Runs.run step s es).db.rows.find id = some r →
      (relay.join (Runs.run step s es).db.joined r.data).isSome = true →
      ∀ t, r.dueAt ≤ t → relay.Due t (fun _ => false) (Runs.run step s es).db.joined r

/-- The retry of a failed delivery, as a step. -/
theorem step_retryDelivery (h : Held s) {r : OutboxRow DeliveryData}
    (hr : s.db.rows.find id = some r) (hfailed : r.status = .failed) (now : Time) :
    (step s (.retryDelivery id now)).db.rows.find id =
        some (WebhooksService.retriedRow now r) ∧
      (step s (.retryDelivery id now)).db.joined = s.db.joined := by
  -- what a pass holds is pending, so that the statement need not wait
  have hfree : ¬s.runs.locked id = true := by
    intro hlocked
    obtain ⟨batch, hbatch, row, hrow, rfl⟩ := RelaySystem.locked_eq_true_iff.1 hlocked
    obtain ⟨i, hi⟩ := List.getElem?_of_mem hbatch
    obtain ⟨r', hr', hpending⟩ := h.locked.pending i batch hi row hrow
    obtain rfl := Option.some.inj (hr.symm.trans hr')
    rw [hpending] at hfailed
    cases hfailed
  obtain ⟨db, hretry⟩ := retryDelivery_of_find hr now
  have hstep : step s (.retryDelivery id now) = { s with db := db } := by
    simp only [step, if_neg hfree, hretry]
  rw [hstep]
  exact ⟨(retryDelivery_eq_ok hretry).2.1, (retryDelivery_eq_ok hretry).2.2.2⟩

/-- **A failed delivery is never retried**: `retryDelivery` makes it pending and due, but the relay
does not fetch it, and it is not POSTed again whatever happens. -/
theorem never_retried (subscriptions : List WebhookTarget) (es : List DeliveryEvent) (id : Uuid)
    (r : OutboxRow DeliveryData) (now : Time)
    (hr : (after subscriptions es).db.rows.find id = some r) (hfailed : r.status = .failed)
    (hactive : (relay.join (after subscriptions es).db.joined r.data).isSome = true) :
    (step (after subscriptions es) (.retryDelivery id now)).db.rows.find id =
        some (WebhooksService.retriedRow now r) ∧
      ¬RetriesAgain (step (after subscriptions es) (.retryDelivery id now)) id ∧
      ∀ es', (Runs.run step (step (after subscriptions es) (.retryDelivery id now))
          es').postsOf id = (after subscriptions es).postsOf id := by
  have h := held_after subscriptions es
  have hattempts := failedSpent_after subscriptions es id r hr hfailed
  obtain ⟨hrow, hjoined⟩ := step_retryDelivery h hr hfailed now
  have hspent : Spent id ((after subscriptions es).postsOf id) (after subscriptions es) :=
    ⟨⟨r, hr, hattempts⟩, rfl⟩
  refine ⟨hrow, fun hagain => ?_, fun es' => ?_⟩
  · have hdue := hagain [] rfl _ hrow (by rw [Runs.run_nil, hjoined]; exact hactive) now le_rfl
    exact Nat.not_lt_of_le hattempts hdue.2.1
  · exact ((hspent.step h _).run (h.step _) es').2

/-! ### A delivery that fails five times -/

namespace Sample

/-- An active subscription. -/
def target : WebhookTarget where
  id := 1
  active := true
  events := ["request.expired"]
  url := "https://example.org/hook"
  secret := "0123456789abcdef"

/-- The event that it is subscribed to. -/
def event : EventPayload := .expired 7 "access"

/-- Every POST is answered with an error. -/
def unavailable : Pattern DeliveryRow Empty where
  processRow _ := .error "HTTP 503 Service Unavailable"
  markSent _ := .ok ()
  markFailed _ := .ok ()
  commit := .ok ()
  markedAt _ := 0

/-- The `i`-th pass, which fetches at the instant `t`. -/
def pass (i : ℕ) (t : Time) : List DeliveryEvent :=
  [.fetch t fun _ => false, .finish i unavailable fun _ => ⟨1, 1, 1⟩]

/-- One delivery, and passes as long as it is pending. -/
def history : List DeliveryEvent :=
  .fanout event (fun i => i + 1) 0 :: pass 0 1000 ++ pass 1 100000 ++ pass 2 500000 ++
    pass 3 2000000 ++ pass 4 6000000

/-- The delivery after them. -/
def delivery : OutboxRow DeliveryData where
  id := 1
  data := ⟨1, "request.expired", event⟩
  status := .failed
  attempts := 5
  lastError := some "HTTP 503 Service Unavailable"
  dueAt := 6000003

/-- It is not POSTed again after a retry. -/
theorem never_retried_delivery :
    (step (after [target] history) (.retryDelivery 1 7000000)).db.rows.find 1 =
        some (WebhooksService.retriedRow 7000000 delivery) ∧
      ¬RetriesAgain (step (after [target] history) (.retryDelivery 1 7000000)) 1 ∧
      ∀ es', (Runs.run step (step (after [target] history) (.retryDelivery 1 7000000))
          es').postsOf 1 = (after [target] history).postsOf 1 :=
  never_retried [target] history 1 delivery 7000000 (by decide +kernel) rfl (by decide +kernel)

/-- **The retry does not take effect**: the delivery has failed, its subscription is active, and
the relay does not fetch it afterwards. -/
theorem not_retriesAgain :
    (after [target] history).db.rows.find 1 = some delivery ∧ delivery.status = .failed ∧
      (relay.join (after [target] history).db.joined delivery.data).isSome = true ∧
      ¬RetriesAgain (step (after [target] history) (.retryDelivery 1 7000000)) 1 := by
  refine ⟨by decide +kernel, rfl, by decide +kernel, fun hagain => ?_⟩
  have hdue := hagain [] rfl (WebhooksService.retriedRow 7000000 delivery) (by decide +kernel)
    (by decide +kernel) 7000000 le_rfl
  have hspent : ¬(5 < relay.maxAttempts) := by decide
  exact hspent hdue.2.1

end Sample

end Deliveries

end OpsHub
