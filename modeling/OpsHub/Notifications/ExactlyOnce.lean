import Mathlib.Data.List.TakeWhile
import OpsHub.Lib.Runs
import OpsHub.Notifications.InApp

/-!
# Exactly one delivery

A notification is scheduled, and the relay runs, once or more often, alone and on a healthy
database.

* `handled`: what a run makes of one row, `relayAt_eq_foldl` of its batch;
* `Apart`: rows other than the scheduled one leave it and its delivery alone;
* `exactlyOnce_iff`: the notification is delivered exactly once if and only if its source event
  is a UUID that nothing delivered before has, its title fits, and the first run reaches it;
* `not_exactlyOnce`: the keys of the request engine are no UUIDs.
-/

namespace OpsHub

/-- The outbox, and what the relay works on besides it. -/
structure NotificationSystem where
  db : Outbox NotificationOutboxRow Unit
  world : NotificationWorld

namespace NotificationSystem

open AbstractOutboxRelay NotificationRelayService

/-- One run of the relay. -/
def relayAt (s : NotificationSystem) (now : Time) : NotificationSystem :=
  let run := relay.relay (environment now) now (fun _ => false) s.world s.db
  ⟨run.db, run.world⟩

/-- Several runs of the relay. -/
def relays (s : NotificationSystem) (times : List Time) : NotificationSystem :=
  Runs.run relayAt s times

/-- The notifications that have been sent for a row of the outbox. -/
def sentFor (s : NotificationSystem) (id : Uuid) : ℕ :=
  s.world.inApp.countP (fun n => decide (n.outboxId = id))

/-- Some notification has the source event `u`. -/
def Known (s : NotificationSystem) (u : Uuid) : Prop := ∃ n ∈ s.world.inApp, n.sourceEventId = some u

/-- The scheduled notification `id` has been delivered exactly once, and scheduling another one
with the same key changes nothing. -/
structure ExactlyOnce (s : NotificationSystem) (id : Uuid) (key : Option String) : Prop where
  one : s.sentFor id = 1
  dispatched : ∃ r, s.db.rows.find id = some r ∧ r.status = .dispatched
  again : key ≠ none → ∀ input newId now, input.idempotencyKey = key →
    NotificationSchedulerService.schedule s.db input newId now = .ok s.db

/-- The source event that a row leaves among the notifications, unless it is there already. -/
def delivers (preferences : List NotificationPreference) (row : FetchedRow NotificationOutboxRow) :
    Option Uuid :=
  if isInAppEnabled preferences row.data.recipientId row.data.notification.type = true ∧
      (renderNotification row.data.notification).title.length ≤ 500 then (sourceEvent row).uuid
  else none

/-- The condition: the first run, at `now`, reaches the row `id`; its title fits; its source event
is a UUID that no notification has, and that no row before it in the batch delivers. -/
structure Deliverable (s : NotificationSystem) (now : Time) (id : Uuid)
    (data : NotificationOutboxRow) : Prop where
  fetched : ∃ row ∈ relay.fetchBatch now (fun _ => false) s.db, row.id = id
  title : (renderNotification data.notification).title.length ≤ 500
  fresh : ∃ u, (sourceEvent ⟨id, 0, data⟩).uuid = some u ∧ ¬ s.Known u ∧
    ∀ row ∈ (relay.fetchBatch now (fun _ => false) s.db).takeWhile (fun row => decide (row.id ≠ id)),
      delivers s.world.preferences row ≠ some u

/-! ### One row -/

/-- What a run makes of one row. -/
def handled (now : Time) (s : NotificationSystem) (row : FetchedRow NotificationOutboxRow) :
    NotificationSystem :=
  match processRow row s.world with
  | (world, .ok _) => ⟨relay.markSent now row.id s.db, world⟩
  | (world, .error e) =>
    ⟨relay.markFailed now row.id (row.attempts + 1)
      (decide (relay.maxAttempts ≤ row.attempts + 1)) e s.db, world⟩

variable {s s' s'' : NotificationSystem} {now : Time} {id u : Uuid}
  {row : FetchedRow NotificationOutboxRow} {batch : List (FetchedRow NotificationOutboxRow)}

/-- On a healthy database the loop goes through the whole batch. -/
theorem relayBatch_environment (now : Time) (batch : List (FetchedRow NotificationOutboxRow))
    (s : NotificationSystem) (tasks : List InAppNotification) :
    ∃ tasks', relay.relayBatch (environment now) batch s.world (s.db, tasks) =
      ((batch.foldl (handled now) s).world, .ok ((batch.foldl (handled now) s).db, tasks')) := by
  induction batch generalizing s tasks with
  | nil => exact ⟨tasks, rfl⟩
  | cons row batch ih =>
    have hrow : ∃ tasks', relay.relayRow (environment now) row s.world (s.db, tasks) =
        ((handled now s row).world, .ok ((handled now s row).db, tasks')) := by
      unfold relayRow handled
      simp only [environment]
      rcases processRow row s.world with ⟨world, task | e⟩
      · exact ⟨tasks, rfl⟩
      · exact ⟨_, rfl⟩
    obtain ⟨tasks', hrow⟩ := hrow
    obtain ⟨tasks'', hbatch⟩ := ih (handled now s row) tasks'
    refine ⟨tasks'', ?_⟩
    rw [relayBatch, hrow]
    exact hbatch

/-- A run goes through its batch. -/
theorem relayAt_eq_foldl (s : NotificationSystem) (now : Time) :
    s.relayAt now = (relay.fetchBatch now (fun _ => false) s.db).foldl (handled now) s := by
  obtain ⟨tasks, hbatch⟩ := relayBatch_environment now
    (relay.fetchBatch now (fun _ => false) s.db) s []
  simp only [relayAt, AbstractOutboxRelay.relay, finish, hbatch]
  rfl

/-- A notification that is sent has a new source event, the one that its row delivers. -/
theorem send_eq_some {rows : List InAppNotification} {n : InAppNotification}
    (h : NotificationsService.send rows row.id row.data (sourceEvent row) = .ok (some n)) :
    n.outboxId = row.id ∧ n.sourceEventId = (sourceEvent row).uuid ∧
      (renderNotification row.data.notification).title.length ≤ 500 ∧
      ∃ u, (sourceEvent row).uuid = some u ∧ ∀ m ∈ rows, m.sourceEventId ≠ some u := by
  simp only [NotificationsService.send, Except.bind_eq_ok_iff] at h
  obtain ⟨delivered, -, h⟩ := h
  split at h
  · cases h
  · simp only [NotificationDrizzleRepository.create, NotificationDrizzleRepository.uuidParameter,
      Except.bind_eq_ok_iff, Outcome.orThrow_eq_ok_iff, Outcome.require_eq_ok_iff,
      Except.pure_eq_ok_iff] at h
    obtain ⟨n', ⟨u, huuid, -, htitle, -, hnew, rfl⟩, hn⟩ := h
    obtain rfl := Option.some.inj hn
    exact ⟨rfl, huuid.symm, htitle, u, huuid, hnew⟩

/-- The test for a UUID looks it up. -/
theorem delivered_of_uuid {rows : List InAppNotification} (huuid : (sourceEvent row).uuid = some u) :
    NotificationsService.delivered rows (sourceEvent row) =
      .ok (rows.any fun n => decide (n.sourceEventId = some u)) := by
  have hkey : sourceEvent row ≠ .key "" := by
    intro heq
    rw [heq] at huuid
    cases huuid
  rw [NotificationsService.delivered, if_neg hkey,
    NotificationDrizzleRepository.existsBySourceEventId,
    NotificationDrizzleRepository.uuidParameter, huuid]
  rfl

/-- What has been delivered before is not sent again. -/
theorem send_of_known (huuid : (sourceEvent row).uuid = some u) (h : s.Known u) :
    NotificationsService.send s.world.inApp row.id row.data (sourceEvent row) = .ok none := by
  have hany : (s.world.inApp.any fun n => decide (n.sourceEventId = some u)) = true := by
    obtain ⟨n, hn, hsource⟩ := h
    exact List.any_eq_true.2 ⟨n, hn, decide_eq_true hsource⟩
  rw [NotificationsService.send, delivered_of_uuid huuid, hany]
  rfl

/-- A new source event is sent, if the title fits. -/
theorem send_of_not_known (huuid : (sourceEvent row).uuid = some u)
    (htitle : (renderNotification row.data.notification).title.length ≤ 500) (h : ¬ s.Known u) :
    ∃ n, NotificationsService.send s.world.inApp row.id row.data (sourceEvent row) =
      .ok (some n) := by
  have hnew : ∀ n ∈ s.world.inApp, n.sourceEventId ≠ some u := fun n hn hsource => h ⟨n, hn, hsource⟩
  have hany : (s.world.inApp.any fun n => decide (n.sourceEventId = some u)) = false :=
    List.any_eq_false.2 fun n hn => by simpa using hnew n hn
  rw [NotificationsService.send, delivered_of_uuid huuid, hany,
    NotificationDrizzleRepository.create, NotificationDrizzleRepository.uuidParameter, huuid]
  simp only [Outcome.orThrow, Outcome.require, bind, Except.bind, pure, Except.pure,
    Bool.false_eq_true, if_false, if_pos htitle, if_pos hnew]
  exact ⟨_, rfl⟩

/-- What handling a row does to the notifications: nothing, or it adds the one that the row
delivers, whose source event is new. -/
theorem handled_world (now : Time) (s : NotificationSystem) (row : FetchedRow NotificationOutboxRow) :
    (handled now s row).world = s.world ∨
      ∃ n u, (handled now s row).world = { s.world with inApp := s.world.inApp ++ [n] } ∧
        n.outboxId = row.id ∧ n.sourceEventId = some u ∧
        delivers s.world.preferences row = some u ∧ ¬ s.Known u := by
  unfold handled processRow
  by_cases henabled : isInAppEnabled s.world.preferences row.data.recipientId
      row.data.notification.type = true
  · rw [if_pos henabled]
    cases hsend : NotificationsService.send s.world.inApp row.id row.data (sourceEvent row) with
    | error e => exact Or.inl rfl
    | ok sent =>
      cases sent with
      | none => exact Or.inl rfl
      | some n =>
        obtain ⟨hfor, hsource, htitle, u, huuid, hnew⟩ := send_eq_some hsend
        refine Or.inr ⟨n, u, rfl, hfor, hsource.trans huuid, ?_, ?_⟩
        · rw [delivers, if_pos ⟨henabled, htitle⟩]
          exact huuid
        · rintro ⟨m, hm, hknown⟩
          exact hnew m hm hknown
  · rw [if_neg henabled]
    exact Or.inl rfl

/-- A row that delivers `u` leaves `u` known. -/
theorem known_handled (h : delivers s.world.preferences row = some u) :
    (handled now s row).Known u := by
  unfold delivers at h
  split at h
  · rename_i hconds
    by_cases hknown : s.Known u
    · unfold handled processRow
      rw [if_pos hconds.1, send_of_known h hknown]
      exact hknown
    · obtain ⟨n, hsend⟩ := send_of_not_known h hconds.2 hknown
      have hsource := (send_eq_some hsend).2.1
      unfold handled processRow
      rw [if_pos hconds.1, hsend]
      exact ⟨n, List.mem_append_right _ (List.mem_singleton.2 rfl), hsource.trans h⟩
  · cases h

/-- A row whose source event is new is delivered and marked. -/
theorem exactly_handled (now : Time) {r : OutboxRow NotificationOutboxRow}
    (hr : s.db.rows.find row.id = some r)
    (h : delivers s.world.preferences row = some u) (hnew : ¬ s.Known u) :
    (handled now s row).sentFor row.id = s.sentFor row.id + 1 ∧
      (handled now s row).db.rows.find row.id = some (relay.sentRow now r) := by
  unfold delivers at h
  split at h
  · rename_i hconds
    obtain ⟨n, hsend⟩ := send_of_not_known h hconds.2 hnew
    have hfor := (send_eq_some hsend).1
    unfold handled processRow
    rw [if_pos hconds.1, hsend]
    refine ⟨?_, ?_⟩
    · simp [sentFor, List.countP_append, hfor]
    · show (relay.markSent now row.id s.db).rows.find row.id = _
      rw [find_markSent_self, hr]
      rfl
  · cases h

/-! ### Other rows -/

/-- The row `id` and its delivery are as they were. -/
structure Apart (s s' : NotificationSystem) (id : Uuid) : Prop where
  row : s'.db.rows.find id = s.db.rows.find id
  sent : s'.sentFor id = s.sentFor id
  preferences : s'.world.preferences = s.world.preferences

theorem Apart.refl (s : NotificationSystem) (id : Uuid) : Apart s s id := ⟨rfl, rfl, rfl⟩

theorem Apart.trans (h : Apart s s' id) (h' : Apart s' s'' id) : Apart s s'' id :=
  ⟨h'.row.trans h.row, h'.sent.trans h.sent, h'.preferences.trans h.preferences⟩

theorem preferences_handled (now : Time) (s : NotificationSystem)
    (row : FetchedRow NotificationOutboxRow) :
    (handled now s row).world.preferences = s.world.preferences := by
  rcases handled_world now s row with heq | ⟨n, u, heq, -⟩
  · rw [heq]
  · rw [heq]

/-- Handling another row. -/
theorem apart_handled (now : Time) (s : NotificationSystem) (h : row.id ≠ id) :
    Apart s (handled now s row) id := by
  refine ⟨?_, ?_, preferences_handled now s row⟩
  · unfold handled
    split
    · exact find_markSent_ne relay now h.symm s.db
    · exact find_markFailed_ne relay now h.symm _ _ _ s.db
  · unfold sentFor
    rcases handled_world now s row with heq | ⟨n, u, heq, hfor, -⟩
    · rw [heq]
    · have hother : ¬ n.outboxId = id := hfor ▸ h
      rw [heq]
      simp [List.countP_append, hother]

/-- Handling other rows. -/
theorem apart_foldl (now : Time) (s : NotificationSystem) (h : ∀ row ∈ batch, row.id ≠ id) :
    Apart s (batch.foldl (handled now) s) id := by
  induction batch generalizing s with
  | nil => exact Apart.refl s id
  | cons row batch ih =>
    exact (apart_handled now s (h row List.mem_cons_self)).trans
      (ih _ fun x hx => h x (List.mem_cons_of_mem _ hx))

/-- What is known after a row has been handled. -/
theorem known_handled_iff : (handled now s row).Known u ↔
    s.Known u ∨ delivers s.world.preferences row = some u := by
  constructor
  · intro h
    unfold Known at h
    rcases handled_world now s row with heq | ⟨n, u', heq, -, hsource, hdelivers, -⟩
    · rw [heq] at h
      exact Or.inl h
    · rw [heq] at h
      obtain ⟨m, hm, hmu⟩ := h
      rcases List.mem_append.1 hm with hm | hm
      · exact Or.inl ⟨m, hm, hmu⟩
      · rw [List.mem_singleton.1 hm, hsource] at hmu
        exact Or.inr (hdelivers.trans hmu)
  · rintro (⟨m, hm, hmu⟩ | hdelivers)
    · unfold Known
      rcases handled_world now s row with heq | ⟨n, u', heq, -⟩
      · rw [heq]
        exact ⟨m, hm, hmu⟩
      · rw [heq]
        exact ⟨m, List.mem_append_left _ hm, hmu⟩
    · exact known_handled hdelivers

/-- What is known after some rows have been handled. -/
theorem known_foldl_iff : (batch.foldl (handled now) s).Known u ↔
    s.Known u ∨ ∃ row ∈ batch, delivers s.world.preferences row = some u := by
  induction batch generalizing s with
  | nil => simp
  | cons row batch ih =>
    rw [List.foldl_cons, ih, known_handled_iff, preferences_handled, List.exists_mem_cons_iff,
      or_assoc]

/-- The place of a row in its batch. -/
theorem split_batch (hnodup : (batch.map FetchedRow.id).Nodup) (h : ∃ row ∈ batch, row.id = id) :
    ∃ row after, batch = batch.takeWhile (fun row => decide (row.id ≠ id)) ++ row :: after ∧
      row.id = id ∧ (∀ x ∈ batch.takeWhile (fun row => decide (row.id ≠ id)), x.id ≠ id) ∧
      ∀ x ∈ after, x.id ≠ id := by
  have hbefore : ∀ x ∈ batch.takeWhile (fun row => decide (row.id ≠ id)), x.id ≠ id := fun x hx => by
    simpa using List.mem_takeWhile_imp hx
  induction batch with
  | nil => simp at h
  | cons x batch ih =>
    rw [List.map_cons, List.nodup_cons] at hnodup
    by_cases hx : x.id = id
    · refine ⟨x, batch, by simp [hx], hx, hbefore, fun y hy hid => ?_⟩
      exact hnodup.1 (List.mem_map.2 ⟨y, hy, hid.trans hx.symm⟩)
    · have hrest : ∃ row ∈ batch, row.id = id := by
        obtain ⟨row, hrow, hid⟩ := h
        rcases List.mem_cons.1 hrow with rfl | hrow
        · exact absurd hid hx
        · exact ⟨row, hrow, hid⟩
      obtain ⟨row, after, hsplit, hid, -, hafter⟩ := ih hnodup.2 hrest fun x hx => by
        simpa using List.mem_takeWhile_imp hx
      refine ⟨row, after, ?_, hid, hbefore, hafter⟩
      rw [List.takeWhile_cons_of_pos (by simpa using hx), List.cons_append, ← hsplit]

/-- The row `id` has been dispatched. -/
def Dispatched (s : NotificationSystem) (id : Uuid) (data : NotificationOutboxRow) : Prop :=
  ∃ r, s.db.rows.find id = some r ∧ r.status = .dispatched ∧ r.data = data

/-- A row that has been dispatched is not fetched again. -/
theorem apart_relays {data : NotificationOutboxRow} (h : s.Dispatched id data) (times : List Time) :
    Apart s (s.relays times) id := by
  induction times generalizing s with
  | nil => exact Apart.refl s id
  | cons t times ih =>
    have hrun : Apart s (s.relayAt t) id := by
      rw [relayAt_eq_foldl]
      refine apart_foldl t s fun row hrow hid => ?_
      obtain ⟨r, hr, hdue, -⟩ := mem_fetchBatch hrow
      obtain ⟨r', hr', hdispatched, -⟩ := h
      rw [hid] at hr
      obtain rfl := Option.some.inj (hr.symm.trans hr')
      rw [hdue.1] at hdispatched
      cases hdispatched
    have hnext : (s.relayAt t).Dispatched id data := by
      unfold Dispatched
      rw [hrun.row]
      exact h
    exact hrun.trans (ih hnext)

/-! ### The scheduled row -/

/-- What scheduling inserts. -/
theorem schedule_ok {db db' : Outbox NotificationOutboxRow Unit} {input : NotificationOutboxRow}
    {newId : Uuid} (h : NotificationSchedulerService.schedule db input newId now = .ok db')
    (hfresh : db.rows.find newId = none)
    (hkey : input.idempotencyKey ≠ none →
      ∀ r ∈ db.rows.rows, r.data.idempotencyKey ≠ input.idempotencyKey) :
    (∀ key ∈ input.idempotencyKey, key.length ≤ 255) ∧
      db'.rows.find newId = some { id := newId, data := input, dueAt := now } := by
  simp only [NotificationSchedulerService.schedule, Except.bind_eq_ok_iff,
    Outcome.require_eq_ok_iff] at h
  obtain ⟨-, hlength, h⟩ := h
  obtain ⟨rows, hinsert⟩ := Table.exists_insert (t := db.rows)
    (r := { id := newId, data := input, dueAt := now }) hfresh
  rw [if_neg fun htaken => (htaken.2.elim fun r hr => hkey htaken.1 r hr.1 hr.2),
    Except.pure_eq_ok_iff, hinsert, Option.getD_some] at h
  rw [← h]
  exact ⟨hlength, Table.find_insert_self hinsert⟩

/-- A key that is in the table stays in use. -/
theorem schedule_again {data : NotificationOutboxRow} (h : s.Dispatched id data)
    (hlength : ∀ key ∈ data.idempotencyKey, key.length ≤ 255) (hkey : data.idempotencyKey ≠ none)
    {input : NotificationOutboxRow} (hinput : input.idempotencyKey = data.idempotencyKey)
    (newId : Uuid) (now : Time) :
    NotificationSchedulerService.schedule s.db input newId now = .ok s.db := by
  obtain ⟨r, hr, -, hdata⟩ := h
  have htaken : input.idempotencyKey ≠ none ∧
      ∃ r ∈ s.db.rows.rows, r.data.idempotencyKey = input.idempotencyKey :=
    ⟨hinput ▸ hkey, r, Table.mem_of_find hr, by rw [hdata, hinput]⟩
  rw [NotificationSchedulerService.schedule, Outcome.require, if_pos (hinput ▸ hlength)]
  exact if_pos htaken

/-- A stored row in the first batch: it has the data it is stored with. -/
theorem split_fetchBatch {data : NotificationOutboxRow} {r : OutboxRow NotificationOutboxRow}
    (hr : s.db.rows.find id = some r) (hdata : r.data = data)
    (hfetched : ∃ row ∈ relay.fetchBatch now (fun _ => false) s.db, row.id = id) :
    ∃ row after, relay.fetchBatch now (fun _ => false) s.db =
        (relay.fetchBatch now (fun _ => false) s.db).takeWhile (fun row => decide (row.id ≠ id)) ++
          row :: after ∧
      row.id = id ∧ row.data = data ∧
      (∀ x ∈ (relay.fetchBatch now (fun _ => false) s.db).takeWhile
        (fun row => decide (row.id ≠ id)), x.id ≠ id) ∧ ∀ x ∈ after, x.id ≠ id := by
  obtain ⟨row, after, hsplit, rfl, hpre, hpost⟩ :=
    split_batch (relay.nodup_fetchBatch now (fun _ => false) s.db) hfetched
  have hmem : row ∈ relay.fetchBatch now (fun _ => false) s.db := by
    rw [hsplit]
    simp
  refine ⟨row, after, hsplit, rfl, ?_, hpre, hpost⟩
  rw [← hdata]
  exact (Option.some.inj (data_of_mem_fetchBatch hmem hr)).symm

/-- A deliverable row is delivered by the first run. -/
theorem Deliverable.relayAt {data : NotificationOutboxRow} {r : OutboxRow NotificationOutboxRow}
    (h : s.Deliverable now id data) (hr : s.db.rows.find id = some r) (hdata : r.data = data)
    (henabled : isInAppEnabled s.world.preferences data.recipientId data.notification.type = true)
    (hsent : s.sentFor id = 0) :
    (s.relayAt now).sentFor id = 1 ∧ (s.relayAt now).Dispatched id data := by
  obtain ⟨u, huuid, hnew, hbefore⟩ := h.fresh
  obtain ⟨row, after, hsplit, rfl, hrowdata, hpre, hpost⟩ := split_fetchBatch hr hdata h.fetched
  rw [relayAt_eq_foldl, hsplit, List.foldl_append, List.foldl_cons]
  generalize List.takeWhile _ _ = before at *
  -- the rows before it leave its source event unknown
  have hapart := apart_foldl now s hpre
  have hunknown : ¬ (before.foldl (handled now) s).Known u := by
    rw [known_foldl_iff]
    rintro (hknown | ⟨x, hx, hdelivers⟩)
    · exact hnew hknown
    · exact hbefore x hx hdelivers
  have hdelivers : delivers (before.foldl (handled now) s).world.preferences row = some u := by
    rw [hapart.preferences, delivers, hrowdata, if_pos ⟨henabled, h.title⟩, ← huuid, sourceEvent,
      sourceEvent, hrowdata]
  obtain ⟨hone, hmarked⟩ := exactly_handled now (hapart.row.trans hr) hdelivers hunknown
  have hrest := apart_foldl now (handled now (before.foldl (handled now) s) row) hpost
  refine ⟨?_, relay.sentRow now r, hrest.row.trans hmarked, rfl, hdata⟩
  rw [hrest.sent, hone, hapart.sent, hsent]

/-- A row that the first run delivers is deliverable. -/
theorem deliverable_of_sent {data : NotificationOutboxRow} {r : OutboxRow NotificationOutboxRow}
    (hr : s.db.rows.find id = some r) (hdata : r.data = data) (hsent : s.sentFor id = 0)
    (h : (s.relayAt now).sentFor id = 1) : s.Deliverable now id data := by
  rw [relayAt_eq_foldl] at h
  have hfetched : ∃ row ∈ relay.fetchBatch now (fun _ => false) s.db, row.id = id := by
    by_contra hnone
    have hapart := apart_foldl now s fun row hrow hid => hnone ⟨row, hrow, hid⟩
    rw [hapart.sent, hsent] at h
    cases h
  obtain ⟨row, after, hsplit, rfl, hrowdata, hpre, hpost⟩ := split_fetchBatch hr hdata hfetched
  rw [hsplit, List.foldl_append, List.foldl_cons] at h
  rw [(apart_foldl now _ hpost).sent] at h
  have hapart := apart_foldl now s hpre
  -- the row itself has been delivered, since the others have not been sent for it
  rcases handled_world now _ row with heq | ⟨n, u, -, -, -, hdelivers, hunknown⟩
  · have hsame := hapart.sent
    unfold sentFor at hsame hsent h
    rw [heq, hsame, hsent] at h
    cases h
  · rw [hapart.preferences] at hdelivers
    unfold delivers at hdelivers
    split at hdelivers
    · rename_i hconds
      rw [hrowdata] at hconds
      refine ⟨hfetched, hconds.2, u, ?_, fun hknown => hunknown ?_, fun x hx hx' => hunknown ?_⟩
      · rw [← hdelivers, sourceEvent, sourceEvent, hrowdata]
      · exact known_foldl_iff.2 (Or.inl hknown)
      · exact known_foldl_iff.2 (Or.inr ⟨x, hx, hx'⟩)
    · cases hdelivers

/-- **When a notification is delivered exactly once.**  It has been scheduled and the recipient
has not disabled it: however often the relay runs, there is exactly one notification for it, its
row is dispatched, and scheduling another one with its key changes nothing, if and only if it is
deliverable. -/
theorem exactlyOnce_iff {db' : Outbox NotificationOutboxRow Unit} {input : NotificationOutboxRow}
    {newId : Uuid} (first : Time)
    (hschedule : NotificationSchedulerService.schedule s.db input newId now = .ok db')
    (hfresh : s.db.rows.find newId = none)
    (hkey : input.idempotencyKey ≠ none →
      ∀ r ∈ s.db.rows.rows, r.data.idempotencyKey ≠ input.idempotencyKey)
    (hsent : ∀ n ∈ s.world.inApp, n.outboxId ≠ newId)
    (henabled : isInAppEnabled s.world.preferences input.recipientId input.notification.type = true) :
    (∀ rest, ExactlyOnce (relays ⟨db', s.world⟩ (first :: rest)) newId input.idempotencyKey) ↔
      Deliverable ⟨db', s.world⟩ first newId input := by
  obtain ⟨hlength, hr⟩ := schedule_ok hschedule hfresh hkey
  have hzero : sentFor ⟨db', s.world⟩ newId = 0 :=
    List.countP_eq_zero.2 fun n hn => by simpa using hsent n hn
  constructor
  · intro h
    exact deliverable_of_sent hr rfl hzero (h []).one
  · intro h rest
    obtain ⟨hone, hdispatched⟩ := h.relayAt hr rfl henabled hzero
    have hrest := apart_relays hdispatched rest
    have hlater : Dispatched (relays ⟨db', s.world⟩ (first :: rest)) newId input := by
      obtain ⟨r, hr, hstatus, hdata⟩ := hdispatched
      exact ⟨r, hrest.row.trans hr, hstatus, hdata⟩
    refine ⟨hrest.sent.trans hone, ?_, fun hnone input' newId' now' hinput => ?_⟩
    · obtain ⟨r, hr, hstatus, -⟩ := hlater
      exact ⟨r, hr, hstatus⟩
    · exact schedule_again hlater hlength hnone hinput newId' now'

end NotificationSystem

namespace NotificationSystem.Sample

/-- A notification that a request has been approved, as the request engine schedules it. -/
def approved (key : Option String) : NotificationOutboxRow :=
  ⟨1, none, .requestApproved "leave" 7, some 7, key⟩

/-- A key of the request engine. -/
def engineKey : Option String := some "request_approved:00000000-0000-0000-0000-000000000007"

/-- The outbox after scheduling the notification. -/
def scheduled (key : Option String) : NotificationSystem :=
  ⟨⟨⟨[{ id := 9, data := approved key, dueAt := 0 }], List.nodup_singleton _⟩, ()⟩, ⟨[], []⟩⟩

/-- A notification without a key is delivered exactly once. -/
theorem exactlyOnce_iff_no_key :
    (∀ rest, ExactlyOnce (relays (scheduled none) (0 :: rest)) 9 none) ↔
      Deliverable (scheduled none) 0 9 (approved none) := by
  have hschedule : NotificationSchedulerService.schedule ⟨Table.empty _, ()⟩ (approved none) 9 0 =
      .ok (scheduled none).db := rfl
  exact exactlyOnce_iff (s := ⟨⟨Table.empty _, ()⟩, ⟨[], []⟩⟩) 0 hschedule rfl (by decide)
    (by decide) (by decide)

/-- **A key of the engine.**  Scheduling accepts it, and no number of runs of the relay delivers
the notification; after five of them its row is dead. -/
theorem not_exactlyOnce :
    NotificationSchedulerService.schedule ⟨Table.empty _, ()⟩ (approved engineKey) 9 0 =
        .ok (scheduled engineKey).db ∧
      (∀ key ∈ engineKey, key.length ≤ 255) ∧
      isInAppEnabled (scheduled engineKey).world.preferences 1 "request_approved" = true ∧
      ((scheduled engineKey).relays [0, 0, 0, 0, 0]).world.inApp = [] ∧
      ((scheduled engineKey).relays [0, 0, 0, 0, 0]).db.rows.rows.map OutboxRow.status = [.dead] ∧
      ¬ ∀ first rest, ExactlyOnce ((scheduled engineKey).relays (first :: rest)) 9 engineKey := by
  refine ⟨rfl, by decide, by decide, by decide +kernel, by decide +kernel, ?_⟩
  intro h
  exact absurd (h 0 []).one (by decide +kernel)

end NotificationSystem.Sample

end OpsHub
