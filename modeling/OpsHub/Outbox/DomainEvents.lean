import OpsHub.Lib.Oldest
import OpsHub.Lib.Pool
import OpsHub.Lib.Runs
import OpsHub.Requests.Types

/-!
# The outbox of domain events

`OutboxService.enqueue` writes events in the transactions of its callers; `OutboxRelayService`
of any number of worker processes reads those that are not published, oldest first, sends them
to the queue one by one, and marks each of them after its send.  Neither a transaction nor a lock
holds the read, the sends and the marks together.

* `DomainEvents`: the table, the open transactions, the queue, the workers; `step` has every
  failure of a send or of an update and crashes at any point;
* `Grows`: what is kept from every state to every later one;
* `Relaying`, `Delivered`: the invariant of a run under way, and of the whole;
* `MarkedBy`, `Marked`: which rows a run has written, as the table shows it;
* `delivery`: what is published has been sent, what is not stays eligible, a failed run has
  marked what comes before the failure, and the event itself if only the answer to its update was
  lost, and events are first sent in the order of their creation; `not_marked_before` is such a run.
-/

namespace OpsHub

/-- The columns of `outbox_events` that never change.  `committedAt` is not a column: it records,
for the statements about the order, when the row was committed. -/
structure CommittedEvent where
  id : Uuid
  event : OutboxEvent
  createdAt : Time
  committedAt : Time
  deriving DecidableEq, Repr

/-- A row of `outbox_events`.  `markedBy` is not a column: it records, for the statements about a
run, whose updates have been applied to the row. -/
structure OutboxEventRow extends CommittedEvent where
  published : Bool := false
  publishedAt : Option Time := none
  markedBy : List ℕ := []
  deriving DecidableEq, Repr

/-- The columns that the update after a send writes. -/
def OutboxEventRow.markPublished (now : Time) (number : ℕ) (r : OutboxEventRow) : OutboxEventRow :=
  { r with published := true, publishedAt := some now, markedBy := r.markedBy ++ [number] }

theorem OutboxEventRow.id_markPublished (now : Time) (number : ℕ) (r : OutboxEventRow) :
    (r.markPublished now number).id = r.id := rfl

/-- The body of a message: the row without its instants and flags. -/
structure QueueMessage where
  id : Uuid
  event : OutboxEvent
  deriving DecidableEq, Repr

/-- The message that is sent for an event. -/
def CommittedEvent.message (e : CommittedEvent) : QueueMessage := ⟨e.id, e.event⟩

/-- An open transaction of a caller: `now()` is the instant at which it has begun. -/
structure EventTransaction where
  startedAt : Time
  enqueued : List (Uuid × OutboxEvent)
  deriving DecidableEq, Repr

/-- A run of `relay`: its number, the batch, the place of the current event in it, and whether that
event has been sent. -/
structure EventRun where
  number : ℕ
  batch : List OutboxEventRow
  position : ℕ := 0
  sent : Bool := false
  deriving DecidableEq, Repr

/-- A run that has ended: `failedAt` is the place, counted from one, of the event at which it
has failed; `answerLost` if it has failed after the update of that event was applied. -/
structure EndedRun where
  number : ℕ
  batch : List OutboxEventRow
  failedAt : Option ℕ
  answerLost : Bool := false
  deriving DecidableEq, Repr

/-- What becomes of a send. -/
inductive SendOutcome
  | accepted
  | refused
  /-- The message is in the queue, but the send throws. -/
  | unacknowledged
  deriving DecidableEq, Repr

/-- What becomes of the update after a send. -/
inductive MarkOutcome
  | applied
  | refused
  /-- The row is written, but the statement throws, or the process stops there. -/
  | unacknowledged
  deriving DecidableEq, Repr

/-- The clock, the table, and the messages in the order of their sends. -/
structure EventStore where
  now : Time := 0
  rows : Table (fun r : OutboxEventRow => r.id) := Table.empty _
  queue : List QueueMessage := []

/-- The store, the open transactions, the worker processes with their runs, the number of runs
that have been started, and those that have ended. -/
structure DomainEvents extends EventStore where
  transactions : List EventTransaction := []
  workers : List (Option EventRun) := []
  started : ℕ := 0
  ended : List EndedRun := []

/-- What can happen. -/
inductive DomainEvent
  | tick (d : ℕ)
  | begin
  /-- `enqueue` in the `i`-th transaction. -/
  | enqueue (i : ℕ) (id : Uuid) (event : OutboxEvent)
  | commit (i : ℕ)
  | rollback (i : ℕ)
  /-- The timer of the `w`-th worker calls `relay`. -/
  | relay (w : ℕ)
  | send (w : ℕ) (outcome : SendOutcome)
  | mark (w : ℕ) (outcome : MarkOutcome)
  | crash (w : ℕ)
  deriving DecidableEq, Repr

/-- The rows that a transaction leaves when it commits. -/
def EventTransaction.rows (now : Time) (tx : EventTransaction) : List OutboxEventRow :=
  tx.enqueued.map fun e =>
    { id := e.1, event := e.2, createdAt := tx.startedAt, committedAt := now }

/-- The run after the update of its current event. -/
def EventRun.next (run : EventRun) : EventRun :=
  { run with position := run.position + 1, sent := false }

/-- How many events of its batch a run has marked that has failed at the `k`-th. -/
def EndedRun.count (run : EndedRun) (k : ℕ) : ℕ := if run.answerLost then k else k - 1

namespace EventStore

/-- `BATCH_SIZE`. -/
def batchSize : ℕ := 50

/-- What `relay` selects: the events that are not published, the oldest first. -/
def fetchBatch (s : EventStore) : List OutboxEventRow :=
  Oldest.first (fun r => r.createdAt) batchSize (s.rows.rows.filter (fun r => !r.published))

/-- The insertions of a transaction; a key that is taken makes it fail. -/
def insertAll (rows : Table (fun r : OutboxEventRow => r.id)) :
    List OutboxEventRow → Option (Table (fun r : OutboxEventRow => r.id))
  | [] => some rows
  | r :: rs => (rows.insert r).bind fun rows' => insertAll rows' rs

/-- The end of a transaction. -/
def commit (s : EventStore) (tx : EventTransaction) : EventStore :=
  match insertAll s.rows (tx.rows s.now) with
  | some rows => { s with rows := rows }
  | none => s

/-- `publish`; without a queue the event is only logged. -/
def publish (s : EventStore) (queueUrl : Option String) (row : OutboxEventRow) : EventStore :=
  match queueUrl with
  | some _ => { s with queue := s.queue ++ [row.message] }
  | none => s

/-- The update after a send, in the run with the number. -/
def setPublished (s : EventStore) (id : Uuid) (number : ℕ) : EventStore :=
  { s with
    rows := s.rows.update id (OutboxEventRow.markPublished s.now number)
      (OutboxEventRow.id_markPublished s.now number) }

end EventStore

namespace DomainEvents

/-- The state with another store. -/
def withStore (s : DomainEvents) (store : EventStore) : DomainEvents :=
  { s with toEventStore := store }

/-- The `w`-th worker goes on with `run`. -/
def goOn (s : DomainEvents) (w : ℕ) (run : EventRun) : DomainEvents :=
  { s with workers := s.workers.set w (some run) }

/-- The run of the `w`-th worker ends. -/
def finish (s : DomainEvents) (w : ℕ) (run : EndedRun) : DomainEvents :=
  { s with workers := s.workers.set w none, ended := s.ended ++ [run] }

/-- The run of the `w`-th worker fails at the current event. -/
def fail (s : DomainEvents) (w : ℕ) (run : EventRun) (answerLost : Bool) : DomainEvents :=
  s.finish w ⟨run.number, run.batch, some (run.position + 1), answerLost⟩

/-- The `w`-th worker goes on with the next event of its batch, if there is one. -/
def advance (s : DomainEvents) (w : ℕ) (run : EventRun) : DomainEvents :=
  if run.position < run.batch.length then s.goOn w run
  else s.finish w ⟨run.number, run.batch, none, false⟩

/-- The next state. -/
def step (queueUrl : Option String) (s : DomainEvents) : DomainEvent → DomainEvents
  | .tick d => { s with now := s.now + d }
  | .begin => { s with transactions := s.transactions ++ [⟨s.now, []⟩] }
  | .enqueue i id event =>
    match s.transactions[i]? with
    | some tx =>
      { s with
        transactions := s.transactions.set i { tx with enqueued := tx.enqueued ++ [(id, event)] } }
    | none => s
  | .commit i =>
    match s.transactions[i]? with
    | some tx =>
      { s.withStore (s.toEventStore.commit tx) with transactions := s.transactions.eraseIdx i }
    | none => s
  | .rollback i => { s with transactions := s.transactions.eraseIdx i }
  | .relay w =>
    match s.workers[w]? with
    | some none =>
      match s.fetchBatch with
      | [] => s
      | batch => { s.goOn w { number := s.started, batch := batch } with started := s.started + 1 }
    | _ => s
  | .send w outcome =>
    match s.workers[w]? with
    | some (some run) =>
      if run.sent then s
      else
        match run.batch[run.position]? with
        | some row =>
          match outcome with
          | .accepted => (s.withStore (s.publish queueUrl row)).goOn w { run with sent := true }
          | .refused => s.fail w run false
          | .unacknowledged => (s.withStore (s.publish queueUrl row)).fail w run false
        | none => s
    | _ => s
  | .mark w outcome =>
    match s.workers[w]? with
    | some (some run) =>
      if run.sent then
        match run.batch[run.position]? with
        | some row =>
          match outcome with
          | .applied => (s.withStore (s.setPublished row.id run.number)).advance w run.next
          | .refused => s.fail w run false
          | .unacknowledged => (s.withStore (s.setPublished row.id run.number)).fail w run true
        | none => s
      else s
    | _ => s
  | .crash w =>
    match s.workers[w]? with
    | some (some run) => s.fail w run false
    | _ => s

/-- No event has been stored, and the workers are idle. -/
def initial (workers : ℕ) : DomainEvents := { workers := List.replicate workers none }

end DomainEvents

/-! ### The store -/

/-- The row is in the batch of the next run, or behind a full batch of rows that are not
younger. -/
def EventStore.Eligible (s : EventStore) (r : OutboxEventRow) : Prop :=
  r ∈ s.fetchBatch ∨
    (s.fetchBatch.length = EventStore.batchSize ∧ ∀ r' ∈ s.fetchBatch, r'.createdAt ≤ r.createdAt)

/-- **A row that is not published is eligible.** -/
theorem EventStore.eligible_of_unpublished {s : EventStore} {r : OutboxEventRow}
    (hr : r ∈ s.rows.rows) (hpublished : r.published = false) : s.Eligible r := by
  have hmem : r ∈ s.rows.rows.filter (fun r => !r.published) :=
    List.mem_filter.2 ⟨hr, by rw [hpublished]; rfl⟩
  exact Oldest.mem_first_or (fun r : OutboxEventRow => r.createdAt) EventStore.batchSize hmem

/-- What every later store has: the messages, and the rows, published if they were. -/
structure Grows (s s' : EventStore) : Prop where
  now : s.now ≤ s'.now
  queue : ∀ m ∈ s.queue, m ∈ s'.queue
  kept : ∀ r ∈ s.rows.rows, ∃ r' ∈ s'.rows.rows, r'.toCommittedEvent = r.toCommittedEvent ∧
    (r.published = true → r'.published = true)
  old : ∀ r' ∈ s'.rows.rows, (∃ r ∈ s.rows.rows, r'.toCommittedEvent = r.toCommittedEvent) ∨
    s.now ≤ r'.committedAt

/-- What holds of the store: instants are in order, what is published has been sent, what has
been sent is in the table, and an event that was committed before another one was created is
sent before it. -/
structure Consistent (s : EventStore) : Prop where
  instants : ∀ r ∈ s.rows.rows, r.createdAt ≤ r.committedAt ∧ r.committedAt ≤ s.now
  published : ∀ r ∈ s.rows.rows, r.published = true → r.message ∈ s.queue
  sent : ∀ m ∈ s.queue, ∃ r ∈ s.rows.rows, r.message = m
  order : ∀ a ∈ s.rows.rows, ∀ b ∈ s.rows.rows, a.committedAt < b.createdAt →
    ∀ before after, s.queue = before ++ b.message :: after → a.message ∈ before

section Store

variable {s s' s'' : EventStore} {r r' row : OutboxEventRow} {tx : EventTransaction}
  {queueUrl : Option String} {url : String} {id : Uuid} {number : ℕ}

/-- Rows with the same message are the same row. -/
theorem eq_of_message_eq (hr : r ∈ s.rows.rows) (hr' : r' ∈ s.rows.rows)
    (h : r.message = r'.message) : r = r' :=
  s.rows.eq_of_key_eq hr hr' (congrArg QueueMessage.id h)

theorem message_eq_of_eq {e e' : CommittedEvent} (h : e = e') : e.message = e'.message :=
  congrArg CommittedEvent.message h

theorem mem_insertAll {rows rows' : Table (fun r : OutboxEventRow => r.id)}
    {rs : List OutboxEventRow} (h : EventStore.insertAll rows rs = some rows') :
    r ∈ rows'.rows ↔ r ∈ rows.rows ∨ r ∈ rs := by
  induction rs generalizing rows with
  | nil =>
    obtain rfl : rows = rows' := Option.some.inj h
    simp
  | cons x rs ih =>
    obtain ⟨rows₁, hinsert, hrest⟩ := Option.bind_eq_some_iff.1 h
    rw [ih hrest, Table.mem_insert hinsert, List.mem_cons, or_assoc]

/-- A row after the update comes from a row before it, which was published or is the updated
one. -/
theorem mem_setPublished (h : r' ∈ (s.setPublished id number).rows.rows) :
    ∃ r ∈ s.rows.rows, r'.toCommittedEvent = r.toCommittedEvent ∧
      (r'.published = true → r.published = true ∨ r.id = id) := by
  have hmem : r' ∈ (s.rows.update id (OutboxEventRow.markPublished s.now number)
      (OutboxEventRow.id_markPublished s.now number)).rows := h
  rcases Table.mem_update hmem with ⟨r, hr, rfl⟩ | ⟨hr, -⟩
  · exact ⟨r, Table.mem_of_find hr, rfl, fun _ => Or.inr (Table.find_eq_some_iff.1 hr).2⟩
  · exact ⟨r', hr, rfl, Or.inl⟩

theorem Grows.refl (s : EventStore) : Grows s s :=
  ⟨Nat.le_refl _, fun _ hm => hm, fun r hr => ⟨r, hr, rfl, id⟩, fun r hr => Or.inl ⟨r, hr, rfl⟩⟩

theorem Grows.trans (h : Grows s s') (h' : Grows s' s'') : Grows s s'' := by
  refine ⟨Nat.le_trans h.now h'.now, fun m hm => h'.queue m (h.queue m hm), fun r hr => ?_,
    fun r'' hr'' => ?_⟩
  · obtain ⟨r', hr', hsame, hpub⟩ := h.kept r hr
    obtain ⟨r'', hr'', hsame', hpub'⟩ := h'.kept r' hr'
    exact ⟨r'', hr'', hsame'.trans hsame, fun hp => hpub' (hpub hp)⟩
  · rcases h'.old r'' hr'' with ⟨r', hr', hsame'⟩ | hnew
    · rcases h.old r' hr' with ⟨r, hr, hsame⟩ | hnew
      · exact Or.inl ⟨r, hr, hsame'.trans hsame⟩
      · have hcommitted : r''.committedAt = r'.committedAt :=
          congrArg CommittedEvent.committedAt hsame'
        exact Or.inr (hcommitted ▸ hnew)
    · exact Or.inr (Nat.le_trans h.now hnew)

theorem grows_tick (d : ℕ) : Grows s { s with now := s.now + d } :=
  ⟨Nat.le_add_right _ _, fun _ hm => hm, fun r hr => ⟨r, hr, rfl, fun hp => hp⟩,
    fun r hr => Or.inl ⟨r, hr, rfl⟩⟩

theorem grows_commit : Grows s (s.commit tx) := by
  unfold EventStore.commit
  split
  · rename_i rows hinsert
    refine ⟨Nat.le_refl _, fun _ hm => hm, fun r hr => ?_, fun r hr => ?_⟩
    · exact ⟨r, (mem_insertAll hinsert).2 (Or.inl hr), rfl, fun hp => hp⟩
    · rcases (mem_insertAll hinsert).1 hr with hr | hnew
      · exact Or.inl ⟨r, hr, rfl⟩
      · obtain ⟨e, -, rfl⟩ := List.mem_map.1 hnew
        exact Or.inr (Nat.le_refl _)
  · exact Grows.refl s

theorem grows_publish : Grows s (s.publish queueUrl row) := by
  unfold EventStore.publish
  split
  · exact ⟨Nat.le_refl _, fun _ hm => List.mem_append_left _ hm,
      fun r hr => ⟨r, hr, rfl, fun hp => hp⟩, fun r hr => Or.inl ⟨r, hr, rfl⟩⟩
  · exact Grows.refl s

theorem grows_setPublished : Grows s (s.setPublished id number) := by
  refine ⟨Nat.le_refl _, fun _ hm => hm, fun r hr => ?_, fun r' hr' => ?_⟩
  · have hmem := @Table.mem_update_of_mem _ _ _ _ s.rows id
      (OutboxEventRow.markPublished s.now number) (OutboxEventRow.id_markPublished s.now number) r hr
    refine ⟨_, hmem, ?_, fun hp => ?_⟩
    · split <;> rfl
    · split
      · rfl
      · exact hp
  · obtain ⟨r, hr, hsame, -⟩ := mem_setPublished hr'
    exact Or.inl ⟨r, hr, hsame⟩

theorem Consistent.tick (h : Consistent s) (d : ℕ) : Consistent { s with now := s.now + d } :=
  ⟨fun r hr => ⟨(h.instants r hr).1, Nat.le_trans (h.instants r hr).2 (Nat.le_add_right _ _)⟩,
    h.published, h.sent, h.order⟩

/-- New rows are committed now, and have been created before. -/
theorem Consistent.commit (h : Consistent s) (htx : tx.startedAt ≤ s.now) :
    Consistent (s.commit tx) := by
  unfold EventStore.commit
  split
  · rename_i rows hinsert
    have hnew : ∀ r ∈ tx.rows s.now,
        r.createdAt = tx.startedAt ∧ r.committedAt = s.now ∧ r.published = false := by
      intro r hr
      obtain ⟨e, -, rfl⟩ := List.mem_map.1 hr
      exact ⟨rfl, rfl, rfl⟩
    constructor
    · intro r hr
      rcases (mem_insertAll hinsert).1 hr with hr | hr
      · exact h.instants r hr
      · obtain ⟨hcreated, hcommitted, -⟩ := hnew r hr
        rw [hcreated, hcommitted]
        exact ⟨htx, Nat.le_refl _⟩
    · intro r hr hpublished
      rcases (mem_insertAll hinsert).1 hr with hr | hr
      · exact h.published r hr hpublished
      · rw [(hnew r hr).2.2] at hpublished
        cases hpublished
    · intro m hm
      obtain ⟨r, hr, hmessage⟩ := h.sent m hm
      exact ⟨r, (mem_insertAll hinsert).2 (Or.inl hr), hmessage⟩
    · intro a ha b hb hlt before after hqueue
      -- `b` has been sent, so it is not one of the new rows
      obtain ⟨b', hb', hmessage⟩ := h.sent b.message (by
        rw [show s.queue = before ++ b.message :: after from hqueue]
        simp)
      have hbb : b' = b :=
        rows.eq_of_key_eq ((mem_insertAll hinsert).2 (Or.inl hb')) hb
          (congrArg QueueMessage.id hmessage)
      rw [hbb] at hb'
      rcases (mem_insertAll hinsert).1 ha with ha | ha
      · exact h.order a ha b hb' hlt before after hqueue
      · have hinstants := h.instants b hb'
        rw [(hnew a ha).2.1] at hlt
        exact absurd hlt (Nat.not_lt.2 (Nat.le_trans hinstants.1 hinstants.2))
  · exact h

/-- An event is sent, after all that were committed before it was created. -/
theorem Consistent.publish (h : Consistent s)
    (hrow : ∃ r ∈ s.rows.rows, r.toCommittedEvent = row.toCommittedEvent)
    (hold : ∀ a ∈ s.rows.rows, a.committedAt < row.createdAt → a.message ∈ s.queue) :
    Consistent (s.publish queueUrl row) := by
  obtain ⟨r, hr, hsame⟩ := hrow
  unfold EventStore.publish
  split
  · refine ⟨h.instants, fun r hr hp => List.mem_append_left _ (h.published r hr hp),
      fun m hm => ?_, fun a ha b hb hlt before after hqueue => ?_⟩
    · rcases List.mem_append.1 hm with hm | hm
      · exact h.sent m hm
      · rw [List.mem_singleton.1 hm]
        exact ⟨r, hr, message_eq_of_eq hsame⟩
    · rcases List.eq_nil_or_concat' after with rfl | ⟨after, last, rfl⟩
      · obtain ⟨rfl, hmessage⟩ := List.append_inj' hqueue rfl
        have hrb : r = b := eq_of_message_eq hr hb
          ((message_eq_of_eq hsame).trans (List.singleton_inj.1 hmessage))
        have hcreated : b.createdAt = row.createdAt := by
          rw [← hrb]
          exact congrArg CommittedEvent.createdAt hsame
        exact hold a ha (hcreated ▸ hlt)
      · have hsplit : s.queue ++ [row.message] = (before ++ b.message :: after) ++ [last] :=
          hqueue.trans (by simp)
        exact h.order a ha b hb hlt before after (List.append_inj' hsplit rfl).1
  · exact h

/-- An event that has been sent is marked. -/
theorem Consistent.setPublished (h : Consistent s)
    (hsent : ∀ r ∈ s.rows.rows, r.id = id → r.message ∈ s.queue) :
    Consistent (s.setPublished id number) := by
  constructor
  · intro r' hr'
    obtain ⟨r, hr, hsame, -⟩ := mem_setPublished hr'
    rw [hsame]
    exact h.instants r hr
  · intro r' hr' hpublished
    obtain ⟨r, hr, hsame, hwas⟩ := mem_setPublished hr'
    rw [message_eq_of_eq hsame]
    rcases hwas hpublished with hp | hid
    · exact h.published r hr hp
    · exact hsent r hr hid
  · intro m hm
    obtain ⟨r, hr, hmessage⟩ := h.sent m hm
    obtain ⟨r', hr', hsame, -⟩ := (@grows_setPublished s id number).kept r hr
    exact ⟨r', hr', (message_eq_of_eq hsame).trans hmessage⟩
  · intro a' ha' b' hb' hlt before after hqueue
    obtain ⟨a, ha, hsame, -⟩ := mem_setPublished ha'
    obtain ⟨b, hb, hsame', -⟩ := mem_setPublished hb'
    rw [hsame, hsame'] at hlt
    rw [message_eq_of_eq hsame'] at hqueue
    rw [message_eq_of_eq hsame]
    exact h.order a ha b hb hlt before after hqueue

end Store

/-! ### Runs -/

/-- What holds of a run under way: the events before the current one have been sent, and an event
of the batch is younger than the events that have not been sent only if these come before it in
the batch. -/
structure Relaying (s : EventStore) (run : EventRun) : Prop where
  position : run.position ≤ run.batch.length
  sent : ∀ (j : ℕ) (row : OutboxEventRow), run.batch[j]? = some row →
    j < run.position ∨ (j = run.position ∧ run.sent = true) → row.message ∈ s.queue
  known : ∀ row ∈ run.batch, ∃ r ∈ s.rows.rows, r.toCommittedEvent = row.toCommittedEvent
  created : ∀ row ∈ run.batch, row.createdAt ≤ s.now
  older : ∀ (i : ℕ) (row : OutboxEventRow), run.batch[i]? = some row →
    ∀ a ∈ s.rows.rows, a.committedAt < row.createdAt → a.message ∈ s.queue ∨
      ∃ (j : ℕ) (row' : OutboxEventRow), j < i ∧ run.batch[j]? = some row' ∧
        row'.message = a.message

/-- What holds of a run that has ended. -/
structure Ended (s : EventStore) (run : EndedRun) : Prop where
  failed : ∀ k : ℕ, run.failedAt = some k → 0 < k ∧ k ≤ run.batch.length
  known : ∀ row ∈ run.batch, ∃ r ∈ s.rows.rows, r.toCommittedEvent = row.toCommittedEvent

/-- **The invariant.** -/
structure Delivered (s : DomainEvents) : Prop where
  store : Consistent s.toEventStore
  transactions : ∀ tx ∈ s.transactions, tx.startedAt ≤ s.now
  running : ∀ (w : ℕ) (run : EventRun), s.workers[w]? = some (some run) →
    Relaying s.toEventStore run ∧ run.position < run.batch.length
  ended : ∀ run ∈ s.ended, Ended s.toEventStore run

section Runs

variable {s s' : EventStore} {t : DomainEvents} {run : EventRun} {row : OutboxEventRow} {w : ℕ}
  {queueUrl : Option String} {url : String} {ended : EndedRun}

theorem known_of_grows {batch : List OutboxEventRow} (hg : Grows s s')
    (h : ∀ row ∈ batch, ∃ r ∈ s.rows.rows, r.toCommittedEvent = row.toCommittedEvent) :
    ∀ row ∈ batch, ∃ r ∈ s'.rows.rows, r.toCommittedEvent = row.toCommittedEvent := by
  intro row hrow
  obtain ⟨r, hr, hsame⟩ := h row hrow
  obtain ⟨r', hr', hsame', -⟩ := hg.kept r hr
  exact ⟨r', hr', hsame'.trans hsame⟩

/-- A run does not notice what the others do: new rows are committed too late to be older than
the rows of its batch. -/
theorem Relaying.of_grows (h : Relaying s run) (hg : Grows s s') : Relaying s' run := by
  refine ⟨h.position, fun j row hj hdone => hg.queue _ (h.sent j row hj hdone),
    known_of_grows hg h.known, fun row hrow => Nat.le_trans (h.created row hrow) hg.now,
    fun i row hi a' ha' hlt => ?_⟩
  rcases hg.old a' ha' with ⟨a, ha, hsame⟩ | hnew
  · have hcommitted : a'.committedAt = a.committedAt :=
      congrArg CommittedEvent.committedAt hsame
    rw [message_eq_of_eq hsame]
    exact (h.older i row hi a ha (hcommitted ▸ hlt)).imp_left (hg.queue _)
  · have hcreated := h.created row (List.mem_of_getElem? hi)
    exact absurd hlt (Nat.not_lt.2 (Nat.le_trans hcreated hnew))

theorem Ended.of_grows {run : EndedRun} (h : Ended s run) (hg : Grows s s') : Ended s' run :=
  ⟨h.failed, known_of_grows hg h.known⟩

/-- A run begins: whatever is older than an event of the batch has been sent, or is in the batch
before it. -/
theorem Relaying.fetch (h : Consistent s) (number : ℕ) :
    Relaying s { number := number, batch := s.fetchBatch } := by
  have hmem : ∀ row ∈ s.fetchBatch, row ∈ s.rows.rows := fun row hrow =>
    (List.mem_filter.1 (Oldest.mem_of_mem_first hrow)).1
  refine ⟨Nat.zero_le _, fun j row _ hdone => ?_, fun row hrow => ⟨row, hmem row hrow, rfl⟩,
    fun row hrow => ?_, fun i row hi a ha hlt => ?_⟩
  · rcases hdone with hlt | ⟨-, hsent⟩
    · exact absurd hlt (Nat.not_lt_zero j)
    · cases hsent
  · have hinstants := h.instants row (hmem row hrow)
    exact Nat.le_trans hinstants.1 hinstants.2
  · by_cases hp : a.published = true
    · exact Or.inl (h.published a ha hp)
    · have ha' : a ∈ s.rows.rows.filter (fun r => !r.published) :=
        List.mem_filter.2 ⟨ha, by simpa using hp⟩
      have hkey : a.createdAt < row.createdAt := Nat.lt_of_le_of_lt (h.instants a ha).1 hlt
      obtain ⟨j, hj, hja⟩ :=
        Oldest.before_of_lt (fun r : OutboxEventRow => r.createdAt) hi ha' hkey
      exact Or.inr ⟨j, a, hj, hja, rfl⟩

/-- What is older than the current event of a run has been sent. -/
theorem Relaying.older_sent (h : Relaying s run) (hrow : run.batch[run.position]? = some row)
    {a : OutboxEventRow} (ha : a ∈ s.rows.rows) (hlt : a.committedAt < row.createdAt) :
    a.message ∈ s.queue := by
  rcases h.older run.position row hrow a ha hlt with hsent | ⟨j, row', hj, hrow', hmessage⟩
  · exact hsent
  · exact hmessage ▸ h.sent j row' hrow' (Or.inl hj)

/-- The current event of a run has been sent. -/
theorem Relaying.sentCurrent (h : Relaying (s.publish (some url) row) run)
    (hrow : run.batch[run.position]? = some row) :
    Relaying (s.publish (some url) row) { run with sent := true } := by
  refine ⟨h.position, fun j row' hj hdone => ?_, h.known, h.created, h.older⟩
  rcases hdone with hlt | ⟨rfl, -⟩
  · exact h.sent j row' hj (Or.inl hlt)
  · obtain rfl : row = row' := Option.some.inj (hrow.symm.trans hj)
    exact List.mem_append_right _ (List.mem_singleton.2 rfl)

/-- The current event of a run is marked. -/
theorem Relaying.next (h : Relaying s run) (hsent : run.sent = true)
    (hrow : run.batch[run.position]? = some row) :
    Relaying (s.setPublished row.id run.number) run.next := by
  have h' : Relaying (s.setPublished row.id run.number) run := h.of_grows grows_setPublished
  refine ⟨(List.getElem?_eq_some_iff.1 hrow).1, fun j row' hj hdone => ?_, h'.known, h'.created,
    h'.older⟩
  rcases hdone with hlt | ⟨-, hfalse⟩
  · refine h'.sent j row' hj ?_
    rcases Nat.lt_succ_iff_lt_or_eq.1 hlt with hlt | heq
    · exact Or.inl hlt
    · exact Or.inr ⟨heq, hsent⟩
  · cases hfalse

/-- What has been sent of the current event of a run is in the queue. -/
theorem Relaying.message_mem (h : Relaying s run) (hsent : run.sent = true)
    (hrow : run.batch[run.position]? = some row) :
    ∀ r ∈ s.rows.rows, r.id = row.id → r.message ∈ s.queue := by
  intro r hr hid
  obtain ⟨r', hr', hsame⟩ := h.known row (List.mem_of_getElem? hrow)
  have hrr : r = r' := s.rows.eq_of_key_eq hr hr'
    (hid.trans (congrArg CommittedEvent.id hsame).symm)
  rw [hrr, message_eq_of_eq hsame]
  exact h.sent run.position row hrow (Or.inr ⟨rfl, hsent⟩)

/-! ### Steps -/

theorem Delivered.withStore (h : Delivered t) (hg : Grows t.toEventStore s') (hs : Consistent s') :
    Delivered (t.withStore s') :=
  ⟨hs, fun tx htx => Nat.le_trans (h.transactions tx htx) hg.now,
    fun w run hw => ⟨(h.running w run hw).1.of_grows hg, (h.running w run hw).2⟩,
    fun run hrun => (h.ended run hrun).of_grows hg⟩

theorem Delivered.goOn (h : Delivered t) (hrun : Relaying t.toEventStore run)
    (hlt : run.position < run.batch.length) : Delivered (t.goOn w run) := by
  refine ⟨h.store, h.transactions, fun w' run' hw' => ?_, h.ended⟩
  rcases Pool.get_set_cases hw' with ⟨-, heq⟩ | ⟨-, hw'⟩
  · obtain rfl := Option.some.inj heq
    exact ⟨hrun, hlt⟩
  · exact h.running w' run' hw'

theorem Delivered.finish (h : Delivered t) (hrun : Ended t.toEventStore ended) :
    Delivered (t.finish w ended) := by
  refine ⟨h.store, h.transactions, fun w' run' hw' => ?_, fun e he => ?_⟩
  · rcases Pool.get_set_cases hw' with ⟨-, heq⟩ | ⟨-, hw'⟩
    · cases heq
    · exact h.running w' run' hw'
  · rcases List.mem_append.1 he with he | he
    · exact h.ended e he
    · rw [List.mem_singleton.1 he]
      exact hrun

theorem Delivered.fail (h : Delivered t) (hrun : Relaying t.toEventStore run)
    (hlt : run.position < run.batch.length) (answerLost : Bool) :
    Delivered (t.fail w run answerLost) := by
  refine h.finish ⟨fun k hk => ?_, hrun.known⟩
  obtain rfl : run.position + 1 = k := Option.some.inj hk
  exact ⟨Nat.succ_pos _, hlt⟩

theorem Delivered.advance (h : Delivered t) (hrun : Relaying t.toEventStore run) :
    Delivered (t.advance w run) := by
  unfold DomainEvents.advance
  split
  · rename_i hlt
    exact h.goOn hrun hlt
  · exact h.finish ⟨nofun, hrun.known⟩

/-- **One step**, with a queue. -/
theorem Delivered.step (h : Delivered t) (e : DomainEvent) :
    Delivered (t.step (some url) e) := by
  cases e with
  | tick d => exact h.withStore (grows_tick d) (h.store.tick d)
  | begin =>
    exact ⟨h.store, Pool.forall_mem_add h.transactions (Nat.le_refl _), h.running, h.ended⟩
  | enqueue i id event =>
    simp only [DomainEvents.step]
    split
    · rename_i tx htx
      refine ⟨h.store, Pool.forall_mem_set h.transactions ?_, h.running, h.ended⟩
      exact h.transactions tx (List.mem_of_getElem? htx)
    · exact h
  | commit i =>
    simp only [DomainEvents.step]
    split
    · rename_i tx htx
      have hstarted := h.transactions tx (List.mem_of_getElem? htx)
      have h' := h.withStore grows_commit (h.store.commit hstarted)
      exact ⟨h'.store, fun tx' htx' => h'.transactions tx' (List.mem_of_mem_eraseIdx htx'),
        h'.running, h'.ended⟩
    · exact h
  | rollback i =>
    exact ⟨h.store, fun tx htx => h.transactions tx (List.mem_of_mem_eraseIdx htx), h.running,
      h.ended⟩
  | relay w =>
    simp only [DomainEvents.step]
    split
    · split
      · exact h
      · rename_i hne
        have h' : Delivered (t.goOn w { number := t.started, batch := t.fetchBatch }) :=
          h.goOn (Relaying.fetch h.store t.started) (List.length_pos_iff.2 hne)
        exact ⟨h'.store, h'.transactions, h'.running, h'.ended⟩
    · exact h
  | send w outcome =>
    simp only [DomainEvents.step]
    split
    · rename_i run hw
      obtain ⟨hrun, hlt⟩ := h.running w run hw
      split
      · exact h
      · split
        · rename_i row hrow
          -- everything older has been sent, so this is the turn of the event
          have hknown := hrun.known row (List.mem_of_getElem? hrow)
          have hgrows : Grows t.toEventStore (t.toEventStore.publish (some url) row) := grows_publish
          have hpublish := h.withStore hgrows
            (h.store.publish hknown fun a ha hlt => hrun.older_sent hrow ha hlt)
          have hrun' := hrun.of_grows hgrows
          split
          · exact hpublish.goOn (hrun'.sentCurrent hrow) hlt
          · exact h.fail hrun hlt false
          · exact hpublish.fail hrun' hlt false
        · exact h
    · exact h
  | mark w outcome =>
    simp only [DomainEvents.step]
    split
    · rename_i run hw
      obtain ⟨hrun, hlt⟩ := h.running w run hw
      split
      · rename_i hsent
        split
        · rename_i row hrow
          have hgrows : Grows t.toEventStore (t.setPublished row.id run.number) :=
            grows_setPublished
          have hmark := h.withStore hgrows (h.store.setPublished (hrun.message_mem hsent hrow))
          split
          · exact hmark.advance (hrun.next hsent hrow)
          · exact h.fail hrun hlt false
          · exact hmark.fail (hrun.of_grows hgrows) hlt true
        · exact h
      · exact h
    · exact h
  | crash w =>
    simp only [DomainEvents.step]
    split
    · rename_i run hw
      obtain ⟨hrun, hlt⟩ := h.running w run hw
      exact h.fail hrun hlt false
    · exact h

/-- Every step keeps what is there. -/
theorem grows_step (t : DomainEvents) (e : DomainEvent) :
    Grows t.toEventStore (t.step queueUrl e).toEventStore := by
  have hsame : Grows t.toEventStore t.toEventStore := Grows.refl _
  cases e with
  | tick d => exact grows_tick d
  | begin => exact hsame
  | enqueue i id event =>
    simp only [DomainEvents.step]
    split <;> exact hsame
  | commit i =>
    simp only [DomainEvents.step]
    split
    · exact grows_commit
    · exact hsame
  | rollback i => exact hsame
  | relay w =>
    simp only [DomainEvents.step]
    split
    · split <;> exact hsame
    · exact hsame
  | send w outcome =>
    simp only [DomainEvents.step]
    split
    · split
      · exact hsame
      · split
        · split
          · exact grows_publish
          · exact hsame
          · exact grows_publish
        · exact hsame
    · exact hsame
  | mark w outcome =>
    simp only [DomainEvents.step]
    split
    · split
      · split
        · split
          · unfold DomainEvents.advance
            split <;> exact grows_setPublished
          · exact hsame
          · exact grows_setPublished
        · exact hsame
      · exact hsame
    · exact hsame
  | crash w =>
    simp only [DomainEvents.step]
    split <;> exact hsame

theorem grows_run (t : DomainEvents) (es : List DomainEvent) :
    Grows t.toEventStore (Runs.run (DomainEvents.step queueUrl) t es).toEventStore := by
  induction es generalizing t with
  | nil => exact Grows.refl _
  | cons e es ih => exact (grows_step t e).trans (ih _)

theorem Delivered.initial (workers : ℕ) : Delivered (DomainEvents.initial workers) := by
  refine ⟨⟨fun r hr => ?_, fun r hr _ => ?_, fun m hm => ?_, fun a ha => ?_⟩, fun tx htx => ?_,
    fun w run hw => ?_, fun run hrun => ?_⟩
  · cases hr
  · cases hr
  · cases hm
  · cases ha
  · cases htx
  · have hidle := List.eq_of_mem_replicate (List.mem_of_getElem? hw)
    cases hidle
  · cases hrun

end Runs

/-! ### What a run marks -/

/-- The run has written these rows of the table, and no other. -/
def MarkedBy (s : EventStore) (number : ℕ) (rows : List OutboxEventRow) : Prop :=
  ∀ r ∈ s.rows.rows, number ∈ r.markedBy ↔ ∃ row ∈ rows, row.id = r.id

/-- A run writes nothing from one store to the next. -/
def Spares (number : ℕ) (s s' : EventStore) : Prop :=
  ∀ r' ∈ s'.rows.rows,
    (∃ r ∈ s.rows.rows, r.id = r'.id ∧ (number ∈ r'.markedBy ↔ number ∈ r.markedBy)) ∨
    (number ∉ r'.markedBy ∧ ∀ r ∈ s.rows.rows, r.id ≠ r'.id)

/-- **Which rows have been written**: those that are published, by runs that have been started; a run
under way has written those before its current event, and a failed one those before the event at
which it has failed, and that one if only the answer was lost.  The run of the worker `except` is
left out. -/
structure Marked (except : Option ℕ) (s : DomainEvents) : Prop where
  flag : ∀ r ∈ s.rows.rows, r.published = true ↔ r.markedBy ≠ []
  started : ∀ r ∈ s.rows.rows, ∀ number ∈ r.markedBy, number < s.started
  number : ∀ (w : ℕ) (run : EventRun), s.workers[w]? = some (some run) → run.number < s.started
  distinct : ∀ (w w' : ℕ) (run run' : EventRun), s.workers[w]? = some (some run) →
    s.workers[w']? = some (some run') → run.number = run'.number → w = w'
  running : ∀ (w : ℕ) (run : EventRun), except ≠ some w → s.workers[w]? = some (some run) →
    MarkedBy s.toEventStore run.number (run.batch.take run.position)
  ended : ∀ e ∈ s.ended, e.number < s.started ∧
    (∀ (w : ℕ) (run : EventRun), s.workers[w]? = some (some run) → run.number ≠ e.number) ∧
      ∀ k ∈ e.failedAt, MarkedBy s.toEventStore e.number (e.batch.take (e.count k))

/-- Some rows are new, and the others are the old ones. -/
def Appends (s s' : EventStore) : Prop :=
  ∀ r' ∈ s'.rows.rows, r' ∈ s.rows.rows ∨
    (r'.published = false ∧ r'.markedBy = [] ∧ ∀ r ∈ s.rows.rows, r.id ≠ r'.id)

section Marks

variable {s s' : EventStore} {t : DomainEvents} {run : EventRun} {row : OutboxEventRow} {w : ℕ}
  {number : ℕ} {rows : List OutboxEventRow} {tx : EventTransaction} {ended : EndedRun}
  {except : Option ℕ} {queueUrl : Option String} {url : String}

theorem appends_of_rows_eq (h : s'.rows = s.rows) : Appends s s' := by
  intro r hr
  rw [h] at hr
  exact Or.inl hr

theorem appends_publish : Appends s (s.publish queueUrl row) := by
  refine appends_of_rows_eq ?_
  unfold EventStore.publish
  split <;> rfl

theorem appends_commit : Appends s (s.commit tx) := by
  unfold EventStore.commit
  split
  · rename_i table hinsert
    intro r hr
    by_cases hold : ∃ r₀ ∈ s.rows.rows, r₀.id = r.id
    · obtain ⟨r₀, hr₀, hid⟩ := hold
      obtain rfl : r₀ = r :=
        table.eq_of_key_eq ((mem_insertAll hinsert).2 (Or.inl hr₀)) hr hid
      exact Or.inl hr₀
    · rcases (mem_insertAll hinsert).1 hr with hr | hr
      · exact absurd ⟨r, hr, rfl⟩ hold
      · obtain ⟨e, -, rfl⟩ := List.mem_map.1 hr
        exact Or.inr ⟨rfl, rfl, fun r₀ hr₀ hid => hold ⟨r₀, hr₀, hid⟩⟩
  · exact appends_of_rows_eq rfl

theorem Appends.spares (h : Appends s s') : Spares number s s' := by
  intro r hr
  rcases h r hr with hr | ⟨-, hmarkedBy, hnew⟩
  · exact Or.inl ⟨r, hr, rfl, Iff.rfl⟩
  · refine Or.inr ⟨?_, hnew⟩
    rw [hmarkedBy]
    exact List.not_mem_nil

/-- The rows after an update. -/
theorem mem_setPublished_cases {r' : OutboxEventRow} {id : Uuid}
    (h : r' ∈ (s.setPublished id number).rows.rows) :
    (∃ r ∈ s.rows.rows, r.id = id ∧ r' = r.markPublished s.now number) ∨
      (r' ∈ s.rows.rows ∧ r'.id ≠ id) := by
  dsimp only [EventStore.setPublished] at h
  rcases Table.mem_update h with ⟨r, hr, rfl⟩ | ⟨hr, hne⟩
  · exact Or.inl ⟨r, Table.mem_of_find hr, (Table.find_eq_some_iff.1 hr).2, rfl⟩
  · exact Or.inr ⟨hr, hne⟩

/-- The update of one run is not that of another. -/
theorem spares_setPublished {number' : ℕ} (hne : number' ≠ number) (id : Uuid) :
    Spares number' s (s.setPublished id number) := by
  intro r' hr'
  rcases mem_setPublished_cases hr' with ⟨r, hr, -, rfl⟩ | ⟨hr, -⟩
  · refine Or.inl ⟨r, hr, rfl, ?_⟩
    show number' ∈ r.markedBy ++ [number] ↔ _
    rw [List.mem_append, List.mem_singleton]
    exact or_iff_left hne
  · exact Or.inl ⟨r', hr, rfl, Iff.rfl⟩

/-- A run that writes nothing has written the same rows. -/
theorem MarkedBy.of_spares (h : MarkedBy s number rows)
    (hknown : ∀ row ∈ rows, ∃ r ∈ s.rows.rows, r.toCommittedEvent = row.toCommittedEvent)
    (hspares : Spares number s s') : MarkedBy s' number rows := by
  intro r' hr'
  rcases hspares r' hr' with ⟨r, hr, hid, hiff⟩ | ⟨hnot, hnew⟩
  · rw [hiff, h r hr, hid]
  · refine iff_of_false hnot ?_
    rintro ⟨row, hrow, hid⟩
    obtain ⟨r, hr, hsame⟩ := hknown row hrow
    exact hnew r hr ((congrArg CommittedEvent.id hsame).trans hid)

/-- The update of the current event. -/
theorem MarkedBy.next {position : ℕ} (h : MarkedBy s number (rows.take position))
    (hrow : rows[position]? = some row) :
    MarkedBy (s.setPublished row.id number) number (rows.take (position + 1)) := by
  have htake : rows.take (position + 1) = rows.take position ++ [row] := by
    rw [List.take_add_one, hrow]
    rfl
  intro r' hr'
  rw [htake]
  rcases mem_setPublished_cases hr' with ⟨r, -, hid, rfl⟩ | ⟨hr, hne⟩
  · exact iff_of_true (List.mem_append_right _ (List.mem_singleton_self number))
      ⟨row, List.mem_append_right _ (List.mem_singleton_self row), hid.symm⟩
  · rw [h r' hr]
    constructor
    · rintro ⟨row', hrow', hid⟩
      exact ⟨row', List.mem_append_left _ hrow', hid⟩
    · rintro ⟨row', hrow', hid⟩
      rcases List.mem_append.1 hrow' with hrow' | hrow'
      · exact ⟨row', hrow', hid⟩
      · rw [List.mem_singleton.1 hrow'] at hid
        exact absurd hid.symm hne

theorem known_take {position : ℕ}
    (h : ∀ row ∈ rows, ∃ r ∈ s.rows.rows, r.toCommittedEvent = row.toCommittedEvent) :
    ∀ row ∈ rows.take position, ∃ r ∈ s.rows.rows, r.toCommittedEvent = row.toCommittedEvent :=
  fun row hrow => h row (List.mem_of_mem_take hrow)

/-- Rows are added. -/
theorem Marked.appends (h : Marked except t) (hdelivered : Delivered t)
    (happends : Appends t.toEventStore s') : Marked except (t.withStore s') := by
  refine ⟨fun r hr => ?_, fun r hr number hnumber => ?_, h.number, h.distinct,
    fun w run hexcept hw => ?_, fun e he => ?_⟩
  · rcases happends r hr with hr | ⟨hpublished, hmarkedBy, -⟩
    · exact h.flag r hr
    · simp [hpublished, hmarkedBy]
  · rcases happends r hr with hr | ⟨-, hmarkedBy, -⟩
    · exact h.started r hr number hnumber
    · rw [hmarkedBy] at hnumber
      cases hnumber
  · exact (h.running w run hexcept hw).of_spares (known_take (hdelivered.running w run hw).1.known)
      happends.spares
  · obtain ⟨hlt, hother, hmarked⟩ := h.ended e he
    exact ⟨hlt, hother, fun k hk =>
      (hmarked k hk).of_spares (known_take (hdelivered.ended e he).known) happends.spares⟩

/-- The current event of a run is marked; the run itself has still to go on. -/
theorem Marked.write (h : Marked none t) (hdelivered : Delivered t)
    (hw : t.workers[w]? = some (some run)) (id : Uuid) :
    Marked (some w) (t.withStore (t.setPublished id run.number)) := by
  refine ⟨fun r hr => ?_, fun r hr number hnumber => ?_, h.number, h.distinct,
    fun w' run' hexcept hw' => ?_, fun e he => ?_⟩
  · rcases mem_setPublished_cases hr with ⟨r, -, -, rfl⟩ | ⟨hr, -⟩
    · exact iff_of_true rfl (List.append_ne_nil_of_right_ne_nil _ (List.cons_ne_nil _ _))
    · exact h.flag r hr
  · rcases mem_setPublished_cases hr with ⟨r₀, hr₀, -, rfl⟩ | ⟨hr, -⟩
    · rcases List.mem_append.1 hnumber with hnumber | hnumber
      · exact h.started r₀ hr₀ number hnumber
      · rw [List.mem_singleton.1 hnumber]
        exact h.number w run hw
    · exact h.started r hr number hnumber
  · have hne : run'.number ≠ run.number := fun heq =>
      hexcept (congrArg some (h.distinct w w' run run' hw hw' heq.symm))
    exact (h.running w' run' nofun hw').of_spares
      (known_take (hdelivered.running w' run' hw').1.known) (spares_setPublished hne id)
  · obtain ⟨hlt, hother, hmarked⟩ := h.ended e he
    exact ⟨hlt, hother, fun k hk => (hmarked k hk).of_spares
      (known_take (hdelivered.ended e he).known) (spares_setPublished (hother w run hw).symm id)⟩

theorem Marked.leaveOut (h : Marked none t) (w : ℕ) : Marked (some w) t :=
  ⟨h.flag, h.started, h.number, h.distinct, fun w' run _ => h.running w' run nofun, h.ended⟩

/-- A run goes on. -/
theorem Marked.goOn (h : Marked (some w) t) (hw : t.workers[w]? = some (some run))
    {run' : EventRun} (hnumber : run'.number = run.number)
    (hmarked : MarkedBy t.toEventStore run.number (run'.batch.take run'.position)) :
    Marked none (t.goOn w run') := by
  -- the worker has a run with the same number as before
  have hold : ∀ (w' : ℕ) (run₁ : EventRun), (t.goOn w run').workers[w']? = some (some run₁) →
      ∃ run₀ : EventRun, t.workers[w']? = some (some run₀) ∧ run₁.number = run₀.number := by
    intro w' run₁ hw'
    rcases Pool.get_set_cases hw' with ⟨rfl, heq⟩ | ⟨-, hw'⟩
    · obtain rfl := Option.some.inj heq
      exact ⟨run, hw, hnumber⟩
    · exact ⟨run₁, hw', rfl⟩
  refine ⟨h.flag, h.started, fun w' run₁ hw' => ?_, fun w₁ w₂ run₁ run₂ hw₁ hw₂ heq => ?_,
    fun w' run₁ _ hw' => ?_, fun e he => ?_⟩
  · obtain ⟨run₀, hw₀, hsame⟩ := hold w' run₁ hw'
    exact hsame ▸ h.number w' run₀ hw₀
  · obtain ⟨run₃, hw₃, hsame⟩ := hold w₁ run₁ hw₁
    obtain ⟨run₄, hw₄, hsame'⟩ := hold w₂ run₂ hw₂
    exact h.distinct w₁ w₂ run₃ run₄ hw₃ hw₄ (hsame.symm.trans (heq.trans hsame'))
  · rcases Pool.get_set_cases hw' with ⟨rfl, heq⟩ | ⟨hne, hw'⟩
    · obtain rfl := Option.some.inj heq
      rw [hnumber]
      exact hmarked
    · exact h.running w' run₁ (fun heq => hne (Option.some.inj heq).symm) hw'
  · obtain ⟨hlt, hother, hends⟩ := h.ended e he
    refine ⟨hlt, fun w' run₁ hw' => ?_, hends⟩
    obtain ⟨run₀, hw₀, hsame⟩ := hold w' run₁ hw'
    exact hsame ▸ hother w' run₀ hw₀

/-- A run ends. -/
theorem Marked.finish (h : Marked (some w) t) (hw : t.workers[w]? = some (some run))
    (hnumber : ended.number = run.number)
    (hmarked : ∀ k ∈ ended.failedAt,
      MarkedBy t.toEventStore run.number (ended.batch.take (ended.count k))) :
    Marked none (t.finish w ended) := by
  -- the other workers are as they were
  have hold : ∀ w' run₁, (t.finish w ended).workers[w']? = some (some run₁) →
      w' ≠ w ∧ t.workers[w']? = some (some run₁) := by
    intro w' run₁ hw'
    rcases Pool.get_set_cases hw' with ⟨-, heq⟩ | ⟨hne, hw'⟩
    · cases heq
    · exact ⟨hne, hw'⟩
  refine ⟨h.flag, h.started, fun w' run₁ hw' => h.number w' run₁ (hold w' run₁ hw').2,
    fun w₁ w₂ run₁ run₂ hw₁ hw₂ => h.distinct w₁ w₂ run₁ run₂ (hold w₁ run₁ hw₁).2
      (hold w₂ run₂ hw₂).2, fun w' run₁ _ hw' => ?_, fun e he => ?_⟩
  · obtain ⟨hne, hw'⟩ := hold w' run₁ hw'
    exact h.running w' run₁ (fun heq => hne (Option.some.inj heq).symm) hw'
  · rcases List.mem_append.1 he with he | he
    · obtain ⟨hlt, hother, hends⟩ := h.ended e he
      exact ⟨hlt, fun w' run₁ hw' => hother w' run₁ (hold w' run₁ hw').2, hends⟩
    · obtain rfl := List.mem_singleton.1 he
      rw [hnumber]
      refine ⟨h.number w run hw, fun w' run₁ hw' heq => ?_, hmarked⟩
      obtain ⟨hne, hw'⟩ := hold w' run₁ hw'
      exact hne (h.distinct w' w run₁ run hw' hw heq)

theorem Marked.fail (h : Marked (some w) t) (hw : t.workers[w]? = some (some run))
    {answerLost : Bool}
    (hmarked : MarkedBy t.toEventStore run.number
      (run.batch.take (if answerLost then run.position + 1 else run.position))) :
    Marked none (t.fail w run answerLost) := by
  refine h.finish hw rfl fun k hk => ?_
  obtain rfl : run.position + 1 = k := Option.some.inj hk
  exact hmarked

theorem Marked.advance (h : Marked (some w) t) (hw : t.workers[w]? = some (some run))
    {run' : EventRun} (hnumber : run'.number = run.number)
    (hmarked : MarkedBy t.toEventStore run.number (run'.batch.take run'.position)) :
    Marked none (t.advance w run') := by
  unfold DomainEvents.advance
  split
  · exact h.goOn hw hnumber hmarked
  · exact h.finish hw hnumber nofun

/-- A run begins, and has written nothing yet. -/
theorem Marked.begin (h : Marked none t) (batch : List OutboxEventRow) :
    Marked none { t.goOn w { number := t.started, batch := batch } with
      started := t.started + 1 } := by
  have hold : ∀ (w' : ℕ) (run₁ : EventRun),
      (t.goOn w { number := t.started, batch := batch }).workers[w']? = some (some run₁) →
      (w' = w ∧ run₁ = { number := t.started, batch := batch }) ∨
        t.workers[w']? = some (some run₁) := by
    intro w' run₁ hw'
    rcases Pool.get_set_cases hw' with ⟨rfl, heq⟩ | ⟨-, hw'⟩
    · exact Or.inl ⟨rfl, Option.some.inj heq⟩
    · exact Or.inr hw'
  refine ⟨h.flag, fun r hr number hnumber => Nat.lt_succ_of_lt (h.started r hr number hnumber),
    fun w' run₁ hw' => ?_, fun w₁ w₂ run₁ run₂ hw₁ hw₂ heq => ?_, fun w' run₁ _ hw' => ?_,
    fun e he => ?_⟩
  · rcases hold w' run₁ hw' with ⟨-, rfl⟩ | hw'
    · exact Nat.lt_succ_self _
    · exact Nat.lt_succ_of_lt (h.number w' run₁ hw')
  · rcases hold w₁ run₁ hw₁ with ⟨hw, hrun⟩ | hold₁
    · rcases hold w₂ run₂ hw₂ with ⟨hw', -⟩ | hold₂
      · exact hw.trans hw'.symm
      · rw [hrun] at heq
        exact absurd heq (Nat.ne_of_gt (h.number w₂ run₂ hold₂))
    · rcases hold w₂ run₂ hw₂ with ⟨-, hrun⟩ | hold₂
      · rw [hrun] at heq
        exact absurd heq (Nat.ne_of_lt (h.number w₁ run₁ hold₁))
      · exact h.distinct w₁ w₂ run₁ run₂ hold₁ hold₂ heq
  · rcases hold w' run₁ hw' with ⟨-, rfl⟩ | hw'
    · intro r hr
      refine iff_of_false (fun hnumber => ?_) ?_
      · exact Nat.lt_irrefl _ (h.started r hr _ hnumber)
      · rintro ⟨row, hrow, -⟩
        cases hrow
    · exact h.running w' run₁ nofun hw'
  · obtain ⟨hlt, hother, hends⟩ := h.ended e he
    refine ⟨Nat.lt_succ_of_lt hlt, fun w' run₁ hw' => ?_, hends⟩
    rcases hold w' run₁ hw' with ⟨-, rfl⟩ | hw'
    · exact Nat.ne_of_gt hlt
    · exact hother w' run₁ hw'

/-- **One step.** -/
theorem Marked.step (h : Marked none t) (hdelivered : Delivered t) (e : DomainEvent) :
    Marked none (t.step (some url) e) := by
  have hsame : ∀ transactions, Marked none { t with transactions := transactions } := fun _ =>
    ⟨h.flag, h.started, h.number, h.distinct, h.running, h.ended⟩
  cases e with
  | tick d => exact h.appends hdelivered (appends_of_rows_eq rfl)
  | begin => exact hsame _
  | enqueue i id event =>
    simp only [DomainEvents.step]
    split
    · exact hsame _
    · exact h
  | commit i =>
    simp only [DomainEvents.step]
    split
    · rename_i tx _
      have h' := h.appends hdelivered (@appends_commit t.toEventStore tx)
      exact ⟨h'.flag, h'.started, h'.number, h'.distinct, h'.running, h'.ended⟩
    · exact h
  | rollback i => exact hsame _
  | relay w =>
    simp only [DomainEvents.step]
    split
    · split
      · exact h
      · exact h.begin _
    · exact h
  | send w outcome =>
    simp only [DomainEvents.step]
    split
    · rename_i run hw
      split
      · exact h
      · split
        · rename_i row _
          have hpublish := h.appends hdelivered (@appends_publish t.toEventStore row (some url))
          split
          · exact (hpublish.leaveOut w).goOn hw rfl (hpublish.running w run nofun hw)
          · exact (h.leaveOut w).fail hw (h.running w run nofun hw)
          · exact (hpublish.leaveOut w).fail hw (hpublish.running w run nofun hw)
        · exact h
    · exact h
  | mark w outcome =>
    simp only [DomainEvents.step]
    split
    · rename_i run hw
      split
      · split
        · rename_i row hrow
          have hwrite := h.write hdelivered hw row.id
          have hnext : MarkedBy (t.setPublished row.id run.number) run.number
              (run.batch.take (run.position + 1)) := (h.running w run nofun hw).next hrow
          split
          · exact hwrite.advance hw rfl hnext
          · exact (h.leaveOut w).fail hw (h.running w run nofun hw)
          · exact hwrite.fail hw hnext
        · exact h
      · exact h
    · exact h
  | crash w =>
    simp only [DomainEvents.step]
    split
    · rename_i run hw
      exact (h.leaveOut w).fail hw (h.running w run nofun hw)
    · exact h

theorem Marked.initial (workers : ℕ) : Marked none (DomainEvents.initial workers) := by
  have hidle : ∀ (w : ℕ) (run : EventRun),
      (DomainEvents.initial workers).workers[w]? ≠ some (some run) := by
    intro w run hw
    have hidle := List.eq_of_mem_replicate (List.mem_of_getElem? hw)
    cases hidle
  exact ⟨nofun, nofun, fun w run hw => absurd hw (hidle w run),
    fun w _ run _ hw => absurd hw (hidle w run), fun w run _ hw => absurd hw (hidle w run), nofun⟩

end Marks

/-- The state after some events, with a queue. -/
def DomainEvents.after (url : String) (workers : ℕ) (es : List DomainEvent) : DomainEvents :=
  Runs.run (DomainEvents.step (some url)) (DomainEvents.initial workers) es

/-- **The outbox delivers at least once and in order.**  With any number of workers, and whatever
fails or crashes: a published event has been sent; a committed event is never lost, and is
eligible as long as it is not published; of its batch, a run that fails at the `k`-th event has
marked exactly the first `k - 1` events, or the first `k` if it has failed after the update of the
`k`-th was applied; and an event that was committed before another one was created is sent before
it. -/
theorem delivery (url : String) (workers : ℕ) (es : List DomainEvent) :
    (∀ r ∈ (DomainEvents.after url workers es).rows.rows,
      (r.published = true → r.message ∈ (DomainEvents.after url workers es).queue) ∧
        (r.published = true ↔ r.markedBy ≠ [])) ∧
    (∀ es', ∀ r ∈ (DomainEvents.after url workers es).rows.rows,
      ∃ r' ∈ (DomainEvents.after url workers (es ++ es')).rows.rows,
        r'.toCommittedEvent = r.toCommittedEvent ∧
        (r'.published = false →
          (DomainEvents.after url workers (es ++ es')).toEventStore.Eligible r')) ∧
    (∀ run ∈ (DomainEvents.after url workers es).ended, ∀ k, run.failedAt = some k →
      0 < k ∧ k ≤ run.batch.length ∧
        (∀ row ∈ run.batch, ∃ r ∈ (DomainEvents.after url workers es).rows.rows,
          r.toCommittedEvent = row.toCommittedEvent) ∧
        ∀ r ∈ (DomainEvents.after url workers es).rows.rows, run.number ∈ r.markedBy ↔
          ∃ row ∈ run.batch.take (run.count k), row.id = r.id) ∧
    (∀ a ∈ (DomainEvents.after url workers es).rows.rows,
      ∀ b ∈ (DomainEvents.after url workers es).rows.rows, a.committedAt < b.createdAt →
        ∀ before after, (DomainEvents.after url workers es).queue = before ++ b.message :: after →
          a.message ∈ before) := by
  have hdeliver : ∀ (s : DomainEvents) (e : DomainEvent), Delivered s →
      Delivered (s.step (some url) e) := fun _ e h => h.step e
  have hmark : ∀ (s : DomainEvents) (e : DomainEvent), Delivered s → Marked none s →
      Marked none (s.step (some url) e) := fun _ e hd h => h.step hd e
  have hdelivered : Delivered (DomainEvents.after url workers es) :=
    Runs.run_invariant hdeliver (Delivered.initial workers) es
  have hmarked : Marked none (DomainEvents.after url workers es) :=
    Runs.run_invariant_within hdeliver hmark (Delivered.initial workers) (Marked.initial workers) es
  refine ⟨fun r hr => ⟨hdelivered.store.published r hr, hmarked.flag r hr⟩, fun es' r hr => ?_,
    fun run hrun k hk => ?_, hdelivered.store.order⟩
  · have hg : Grows (DomainEvents.after url workers es).toEventStore
        (DomainEvents.after url workers (es ++ es')).toEventStore := by
      unfold DomainEvents.after
      rw [Runs.run_append]
      exact grows_run _ es'
    obtain ⟨r', hr', hsame, -⟩ := hg.kept r hr
    exact ⟨r', hr', hsame, EventStore.eligible_of_unpublished hr'⟩
  · have hended := hdelivered.ended run hrun
    obtain ⟨hpos, hle⟩ := hended.failed k hk
    exact ⟨hpos, hle, hended.known, (hmarked.ended run hrun).2.2 k hk⟩

namespace DomainEvents.Sample

/-- An event of the request with the given id. -/
def event (id : Uuid) : OutboxEvent :=
  ⟨"request", id, "request.expired", .expired id "leave"⟩

/-- Two transactions commit one after the other; the run of the only worker sends and marks the
first event, and its second send fails. -/
def events : List DomainEvent :=
  [.begin, .enqueue 0 1 (event 10), .commit 0, .tick 5, .begin, .enqueue 0 2 (event 20), .commit 0,
    .relay 0, .send 0 .accepted, .mark 0 .applied, .send 0 .unacknowledged]

/-- The first event, as it is stored in the end. -/
def first : OutboxEventRow :=
  { id := 1, event := event 10, createdAt := 0, committedAt := 0, published := true,
    publishedAt := some 5, markedBy := [0] }

/-- The second event. -/
def second : OutboxEventRow := { id := 2, event := event 20, createdAt := 5, committedAt := 5 }

/-- The first event has been sent, it was sent before the second one, and the run that has failed
at the second one has marked the first one. -/
theorem delivery_two :
    first.message ∈ (after "queue" 1 events).queue ∧ first.message ∈ [first.message] ∧
      ∀ run ∈ (after "queue" 1 events).ended, run.failedAt = some 2 →
        ∀ r ∈ (after "queue" 1 events).rows.rows, run.number ∈ r.markedBy ↔
          ∃ row ∈ run.batch.take (run.count 2), row.id = r.id :=
  ⟨((delivery "queue" 1 events).1 first (by decide)).1 rfl,
    (delivery "queue" 1 events).2.2.2 first (by decide) second (by decide) (by decide)
      [first.message] [] (by decide),
    fun run hrun hfailed => ((delivery "queue" 1 events).2.2.1 run hrun 2 hfailed).2.2.2⟩

/-- The update of the first event is applied, and its answer is lost. -/
def lost : List DomainEvent :=
  [.begin, .enqueue 0 1 (event 10), .commit 0, .tick 5, .relay 0, .send 0 .accepted,
    .mark 0 .unacknowledged]

/-- **A lost answer**: the run has failed at the first event, and that event is published. -/
theorem not_marked_before :
    ¬ (∀ es, ∀ run ∈ (after "queue" 1 es).ended, ∀ k, run.failedAt = some k →
      ∀ r ∈ (after "queue" 1 es).rows.rows, run.number ∈ r.markedBy ↔
        ∃ row ∈ run.batch.take (k - 1), row.id = r.id) ∧
      first ∈ (after "queue" 1 lost).rows.rows := by
  refine ⟨fun h => ?_, by decide⟩
  have hrun := h lost ⟨0, [{ id := 1, event := event 10, createdAt := 0, committedAt := 0 }],
    some 1, true⟩ (by decide) 1 rfl first (by decide)
  exact absurd hrun (by decide)

end DomainEvents.Sample

end OpsHub
