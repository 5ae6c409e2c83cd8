import Mathlib.Data.List.Induction
import OpsHub.Outbox.Deliveries

/-!
# What subscribers are sent

The POSTs of `WebhookRelayService.processRow`, with their signatures, in any run of the deliveries:
commits with a `fanout`, passes of any number of processes, retries, and changes of the
subscriptions.

* `WebhookRequest`, `request`: what `processRow` sends for a row;
* `SubscriberSystem`: the deliveries with everything that has been sent;
* `contents_step`: the table holds what `fanout` has offered, and never loses it;
* `Entitled`: why something is sent to a subscriber;
* `subscribers_served`: the table holds exactly one delivery for each commit and each subscription
  that was active then and lists the event; and what is sent is the event of such a delivery, to
  the URL and with the secret of its subscription, which was active when the pass began.
-/

namespace OpsHub

open WebhookRelayService (relay)

/-! ### Requests -/

/-- The body of a POST. -/
structure DeliveryBody where
  id : Uuid
  eventType : String
  payload : EventPayload
  timestamp : Time
  deriving DecidableEq, Repr

/-- `JSON.stringify` of a body, and `createHmac` with SHA-256, of a secret and a text. -/
structure WebhookCodec where
  stringify : DeliveryBody → String
  hmac : String → String → String

/-- A POST: its URL, its headers and its body. -/
structure WebhookRequest where
  url : String
  signature : String
  event : String
  delivery : Uuid
  body : String
  deriving DecidableEq, Repr

/-- The POST of `processRow`. -/
def WebhookRelayService.request (codec : WebhookCodec) (timestamp : Time)
    (row : FetchedRow DeliveryRow) : WebhookRequest :=
  let body := codec.stringify ⟨row.id, row.data.eventType, row.data.payload, timestamp⟩
  { url := row.data.url
    signature := "sha256=" ++ codec.hmac row.data.secret body
    event := row.data.eventType
    delivery := row.id
    body := body }

/-! ### The system -/

/-- The deliveries, and what has been sent. -/
structure SubscriberSystem where
  deliveries : Deliveries
  requests : List WebhookRequest := []

namespace SubscriberSystem

/-- The rows that a pass hands to `processRow` when it goes on. -/
def processed (s : Deliveries) : DeliveryEvent → List (Time × FetchedRow DeliveryRow)
  | .finish i p elapsed =>
    match s.passes[i]? with
    | some pass =>
      (relay.finish (p.timed pass.fetchedAt elapsed).env pass.batch [] s.db).world.map fun row =>
        (pass.fetchedAt + (elapsed row.id).posted, row)
    | none => []
  | _ => []

/-- The next state. -/
def step (codec : WebhookCodec) (s : SubscriberSystem) (e : DeliveryEvent) : SubscriberSystem where
  deliveries := s.deliveries.step e
  requests := s.requests ++ (processed s.deliveries e).map fun (timestamp, row) =>
    WebhookRelayService.request codec timestamp row

/-- The state after a sequence of events. -/
def after (codec : WebhookCodec) (subscriptions : List WebhookTarget) (es : List DeliveryEvent) :
    SubscriberSystem :=
  Runs.run (step codec) ⟨Deliveries.initial subscriptions, []⟩ es

end SubscriberSystem

/-! ### What the table holds -/

/-- The ids and the data of the deliveries. -/
def Deliveries.contents (s : Deliveries) : List (Uuid × DeliveryData) :=
  s.db.rows.rows.map fun r => (r.id, r.data)

/-- What an event adds. -/
def Deliveries.offers (s : Deliveries) : DeliveryEvent → List (Uuid × DeliveryData)
  | .fanout event newId now =>
    let rows := WebhookEnqueueService.deliveries s.db.joined event newId now
    if (s.db.rows.insertAll rows).isSome then rows.map fun r => (r.id, r.data) else []
  | _ => []

namespace SubscriberSystem

variable {s : Deliveries} {e : DeliveryEvent}

/-- An update that keeps the data. -/
theorem contents_update {rows : Table (@OutboxRow.id DeliveryData)} (id : Uuid)
    {f : OutboxRow DeliveryData → OutboxRow DeliveryData} (hf : ∀ r, (f r).id = r.id)
    (hdata : ∀ r, (f r).data = r.data) :
    (rows.update id f hf).rows.map (fun r => (r.id, r.data)) =
      rows.rows.map fun r => (r.id, r.data) := by
  unfold Table.update Table.updateWhere
  rw [List.map_map]
  refine List.map_congr_left fun r _ => ?_
  rw [Function.comp_apply]
  split
  · rw [hf, hdata]
  · rfl

theorem markedRow_data {p : Pattern DeliveryRow Empty} (row : FetchedRow DeliveryRow)
    (r : OutboxRow DeliveryData) : (relay.markedRow p row r).data = r.data := by
  unfold AbstractOutboxRelay.markedRow
  split <;> rfl

/-- The marks of a pass keep the data. -/
theorem contents_finish (p : Pattern DeliveryRow Empty) (batch : List (FetchedRow DeliveryRow))
    (db : Outbox DeliveryData (List WebhookTarget)) :
    (relay.finish p.env batch [] db).db.rows.rows.map (fun r => (r.id, r.data)) =
      db.rows.rows.map fun r => (r.id, r.data) := by
  have hfold : ∀ db : Outbox DeliveryData (List WebhookTarget),
      (batch.foldl (relay.markRow p) db).rows.rows.map (fun r => (r.id, r.data)) =
        db.rows.rows.map fun r => (r.id, r.data) := by
    induction batch with
    | nil => exact fun _ => rfl
    | cons row batch ih =>
      intro db
      rw [List.foldl_cons, ih]
      exact contents_update row.id (relay.markedRow_id p row) (markedRow_data row)
  by_cases hcommits : AbstractOutboxRelay.Commits p batch
  · rw [AbstractOutboxRelay.finish_of_commits hcommits]
    exact hfold db
  · rw [AbstractOutboxRelay.finish_of_not_commits hcommits]

/-- **The table** gains what is offered, and loses nothing. -/
theorem contents_step (s : Deliveries) (e : DeliveryEvent) :
    (s.step e).contents = s.contents ++ s.offers e := by
  cases e with
  | fanout event newId now =>
    simp only [Deliveries.step, Deliveries.contents, Deliveries.offers,
      WebhookEnqueueService.fanout]
    cases hinsert : s.db.rows.insertAll
        (WebhookEnqueueService.deliveries s.db.joined event newId now) with
    | none => simp
    | some rows =>
      simp only [Option.isSome_some, if_true]
      rw [Table.rows_insertAll hinsert, List.map_append]
  | fetch now held => exact (List.append_nil _).symm
  | finish i p elapsed =>
    show (s.step (.finish i p elapsed)).contents = s.contents ++ []
    rw [List.append_nil]
    simp only [Deliveries.step]
    split
    · exact contents_finish _ _ _
    · rfl
  | retryDelivery deliveryId now =>
    show (s.step (.retryDelivery deliveryId now)).contents = s.contents ++ []
    rw [List.append_nil]
    simp only [Deliveries.step]
    split
    · rfl
    · split
      · rename_i db row hretry
        unfold WebhooksService.retryDelivery at hretry
        simp only at hretry
        split at hretry
        · obtain ⟨rfl, -⟩ := Prod.mk.inj (Except.ok.inj hretry)
          exact contents_update deliveryId (WebhooksService.retriedRow_id now) fun _ => rfl
        · cases hretry
      · rfl
  | subscribe subscriptions => exact (List.append_nil _).symm

/-- What the `fanout`s of a run offer. -/
def offered (s : Deliveries) : List DeliveryEvent → List (Uuid × DeliveryData)
  | [] => []
  | e :: es => s.offers e ++ offered (s.step e) es

/-- The run lemma. -/
theorem contents_run (s : Deliveries) (es : List DeliveryEvent) :
    (Runs.run Deliveries.step s es).contents = s.contents ++ offered s es := by
  induction es generalizing s with
  | nil => exact (List.append_nil _).symm
  | cons e es ih => rw [Runs.run_cons, ih, contents_step, offered, List.append_assoc]

/-- Whatever has been offered was offered by one of the events. -/
theorem exists_of_mem_offered {s : Deliveries} {es : List DeliveryEvent} {d : Uuid × DeliveryData}
    (hd : d ∈ offered s es) :
    ∃ fs e, fs ++ [e] <+: es ∧ d ∈ (Runs.run Deliveries.step s fs).offers e := by
  induction es generalizing s with
  | nil => cases hd
  | cons e es ih =>
    rw [offered, List.mem_append] at hd
    rcases hd with hd | hd
    · exact ⟨[], e, ⟨es, rfl⟩, hd⟩
    · obtain ⟨fs, x, ⟨gs, hgs⟩, hoffers⟩ := ih hd
      exact ⟨e :: fs, x, ⟨gs, by rw [List.cons_append, List.cons_append, hgs]⟩, hoffers⟩

/-! ### Why something is sent -/

/-- The run has offered the delivery of the row to its subscription, which was active and lists
the event. -/
def Offered (subscriptions : List WebhookTarget) (es : List DeliveryEvent)
    (row : FetchedRow DeliveryRow) : Prop :=
  ∃ fs event newId now, fs ++ [.fanout event newId now] <+: es ∧
    (row.id, row.data.toDeliveryData) ∈
      (Deliveries.after subscriptions fs).offers (.fanout event newId now) ∧
    row.data.eventType = event.eventType ∧ row.data.payload = event ∧
    ∃ t ∈ (Deliveries.after subscriptions fs).db.joined,
      t.id = row.data.subscriptionId ∧ t.active = true ∧ event.eventType ∈ t.events

/-- The row has been offered, and when a pass began later, its subscription was active and had
the URL and the secret. -/
def Entitled (subscriptions : List WebhookTarget) (es : List DeliveryEvent)
    (row : FetchedRow DeliveryRow) : Prop :=
  ∃ gs now held, gs ++ [.fetch now held] <+: es ∧ Offered subscriptions gs row ∧
    ∃ t ∈ (Deliveries.after subscriptions gs).db.joined,
      t.id = row.data.subscriptionId ∧ t.active = true ∧
        t.url = row.data.url ∧ t.secret = row.data.secret

variable {subscriptions : List WebhookTarget} {es fs : List DeliveryEvent}
  {row : FetchedRow DeliveryRow}

theorem Entitled.mono (h : Entitled subscriptions es row) (hfs : es <+: fs) :
    Entitled subscriptions fs row := by
  obtain ⟨gs, now, held, hgs, hrow⟩ := h
  exact ⟨gs, now, held, hgs.trans hfs, hrow⟩

/-- A row that the table holds has been offered. -/
theorem offered_of_find {r : OutboxRow DeliveryData}
    (hr : (Deliveries.after subscriptions es).db.rows.find row.id = some r)
    (hdata : row.data.toDeliveryData = r.data) : Offered subscriptions es row := by
  have hmem : (row.id, row.data.toDeliveryData) ∈
      (Deliveries.after subscriptions es).contents := by
    rw [hdata, ← Table.key_of_find hr]
    exact List.mem_map_of_mem (Table.mem_of_find hr)
  rw [Deliveries.after, contents_run] at hmem
  obtain ⟨fs, e, hfs, hoffers⟩ := exists_of_mem_offered hmem
  cases e with
  | fanout event newId now =>
    have hrowOffered := hoffers
    simp only [Deliveries.offers] at hoffers
    split at hoffers
    · obtain ⟨x, hx, hxr⟩ := List.mem_map.1 hoffers
      obtain ⟨i, hi, rfl⟩ := List.mem_mapIdx.1 hx
      have htarget := List.mem_filter.1 (List.getElem_mem hi)
      have hactive := (Bool.and_eq_true _ _).mp htarget.2
      have hrow : row.data.toDeliveryData = ⟨_, event.eventType, event⟩ :=
        (Prod.mk.inj hxr).2.symm
      exact ⟨fs, event, newId, now, hfs, hrowOffered, congrArg DeliveryData.eventType hrow,
        congrArg DeliveryData.payload hrow, _, htarget.1,
        (congrArg DeliveryData.subscriptionId hrow).symm, hactive.1, of_decide_eq_true hactive.2⟩
    · cases hoffers
  | fetch | finish | retryDelivery | subscribe => cases hoffers

/-- What a pass has fetched is due to its subscription. -/
theorem entitled_of_fetch {now : Time} {held : Uuid → Bool} {locked : Uuid → Bool}
    (hrow : row ∈ relay.fetchBatch now locked (Deliveries.after subscriptions es).db) :
    Entitled subscriptions (es ++ [.fetch now held]) row := by
  obtain ⟨r, hr, -, -⟩ := AbstractOutboxRelay.mem_fetchBatch hrow
  have hjoin := AbstractOutboxRelay.data_of_mem_fetchBatch hrow hr
  obtain ⟨t, ht, hdata⟩ := Option.map_eq_some_iff.1 hjoin
  have hmatch := List.find?_some (p := fun s : WebhookTarget =>
    decide (s.id = r.data.subscriptionId) && s.active) ht
  have hactive := (Bool.and_eq_true _ _).mp hmatch
  have hrowdata : row.data.toDeliveryData = r.data := by rw [← hdata]
  have hid : t.id = row.data.subscriptionId := by
    rw [of_decide_eq_true hactive.1, ← hrowdata]
  exact ⟨es, now, held, List.prefix_rfl, offered_of_find hr hrowdata, t,
    List.mem_of_find?_eq_some ht, hid, hactive.2, by rw [← hdata], by rw [← hdata]⟩

/-- Every row under way is due to its subscription. -/
theorem entitled_of_pass {pass : RelayPass}
    (hpass : pass ∈ (Deliveries.after subscriptions es).passes) (hrow : row ∈ pass.batch) :
    Entitled subscriptions es row := by
  induction es using List.reverseRecOn generalizing pass with
  | nil => cases hpass
  | append_singleton es e ih =>
    have hrun : Deliveries.after subscriptions (es ++ [e]) =
        (Deliveries.after subscriptions es).step e := Runs.run_append _ _ _ _
    have hold : ∀ {pass : RelayPass}, pass ∈ (Deliveries.after subscriptions es).passes →
        row ∈ pass.batch → Entitled subscriptions (es ++ [e]) row :=
      fun hpass hrow => (ih hpass hrow).mono (List.prefix_append es [e])
    rw [hrun] at hpass
    cases e with
    | fanout event newId now => exact hold hpass hrow
    | fetch now held =>
      rcases List.mem_append.1 hpass with hpass | hpass
      · exact hold hpass hrow
      · rw [List.mem_singleton] at hpass
        subst hpass
        exact entitled_of_fetch hrow
    | finish i p elapsed =>
      simp only [Deliveries.step] at hpass
      split at hpass
      · rcases List.mem_or_eq_of_mem_set hpass with hpass | rfl
        · exact hold hpass hrow
        · cases hrow
      · exact hold hpass hrow
    | retryDelivery deliveryId now =>
      refine hold ?_ hrow
      simp only [Deliveries.step] at hpass
      split at hpass
      · exact hpass
      · split at hpass <;> exact hpass
    | subscribe subscriptions => exact hold hpass hrow

/-- What is sent is under way. -/
theorem exists_of_mem_processed {s : Deliveries} {e : DeliveryEvent} {timestamp : Time}
    (h : (timestamp, row) ∈ processed s e) : ∃ pass ∈ s.passes, row ∈ pass.batch := by
  cases e with
  | finish i p elapsed =>
    simp only [processed] at h
    split at h
    · rename_i pass hpass
      obtain ⟨x, hx, hxrow⟩ := List.mem_map.1 h
      obtain rfl := (Prod.mk.inj hxrow).2
      rw [AbstractOutboxRelay.finish_world, List.nil_append] at hx
      exact ⟨pass, List.mem_of_getElem? hpass, Pattern.mem_of_mem_processedRows _ hx⟩
    · cases h
  | fanout | fetch | retryDelivery | subscribe => cases h

/-! ### The result -/

/-- Sending changes nothing in the deliveries. -/
theorem deliveries_after (codec : WebhookCodec) (subscriptions : List WebhookTarget)
    (es : List DeliveryEvent) :
    (after codec subscriptions es).deliveries = Deliveries.after subscriptions es := by
  induction es using List.reverseRecOn with
  | nil => rfl
  | append_singleton es e ih =>
    simp only [after, Deliveries.after, Runs.run_append] at ih ⊢
    exact congrArg (Deliveries.step · e) ih

/-- **Subscribers.**  In any run the table holds one delivery for each commit of an event and each
subscription that was active then and lists it, and no other; what is sent is the event of such a
delivery, to the URL of its subscription and signed with its secret, as they were when the pass
began. -/
theorem subscribers_served (codec : WebhookCodec) (subscriptions : List WebhookTarget)
    (es : List DeliveryEvent) :
    (after codec subscriptions es).deliveries.contents =
        offered (Deliveries.initial subscriptions) es ∧
      ∀ request ∈ (after codec subscriptions es).requests, ∃ timestamp row,
        Entitled subscriptions es row ∧
          request = WebhookRelayService.request codec timestamp row := by
  refine ⟨?_, ?_⟩
  · rw [deliveries_after]
    exact contents_run _ _
  · induction es using List.reverseRecOn with
    | nil => exact fun request h => by cases h
    | append_singleton es e ih =>
      intro request hrequest
      have hrun : after codec subscriptions (es ++ [e]) =
          step codec (after codec subscriptions es) e := Runs.run_append _ _ _ _
      rw [hrun] at hrequest
      rcases List.mem_append.1 hrequest with hold | hnew
      · obtain ⟨timestamp, row, hrow, rfl⟩ := ih request hold
        exact ⟨timestamp, row, hrow.mono (List.prefix_append es [e]), rfl⟩
      · obtain ⟨⟨timestamp, row⟩, hmem, rfl⟩ := List.mem_map.1 hnew
        rw [deliveries_after] at hmem
        obtain ⟨pass, hpass, hrow⟩ := exists_of_mem_processed hmem
        exact ⟨timestamp, row,
          (entitled_of_pass hpass hrow).mono (List.prefix_append es [e]), rfl⟩

end SubscriberSystem

end OpsHub
