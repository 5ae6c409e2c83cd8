import OpsHub.Lib.Pool
import OpsHub.Lib.Runs
import OpsHub.Lib.Utf16
import OpsHub.Outbox.RelayBatch

/-!
# The three relays

`WebhookRelayService`, `NotificationRelayService` and `EmailRelayService` as instances of
`AbstractOutboxRelay`, and what any number of runs of a relay does to its table.

The relays of several processes share a table.  `RelaySystem` has any number of runs under way,
each of which holds the locks of its batch until it ends.

* `Locked`: the invariant; what is under way is pending, and no row is in two batches;
* `relay_batch`: post-commit tasks, marks, final statuses, the independence of the rows, and
  that a row in its final status is not processed again;
* `not_isolated`: a row that cannot be marked as failed takes the rest of its batch along.
-/

namespace OpsHub

/-! ### Webhooks -/

/-- The columns of `webhook_deliveries` that are sent. -/
structure DeliveryData where
  subscriptionId : Uuid
  eventType : String
  payload : EventPayload
  deriving DecidableEq, Repr

/-- A row of `webhook_subscriptions`, as the relay reads it. -/
structure WebhookTarget extends WebhookSubscription where
  url : String
  secret : String
  deriving DecidableEq, Repr

/-- The columns of `DeliveryRow` besides its id and its attempts. -/
structure DeliveryRow extends DeliveryData where
  url : String
  secret : String
  deriving DecidableEq, Repr

namespace WebhookRelayService

/-- `RETRY_DELAYS_SECONDS`. -/
def retryDelaysSeconds : List ℕ := [60, 300, 900, 3600]

/-- `MAX_DELIVERY_ERROR_LENGTH`. -/
def maxDeliveryErrorLength : ℕ := 2000

/-- The inner join with the active subscriptions. -/
def join (subscriptions : List WebhookTarget) (d : DeliveryData) : Option DeliveryRow :=
  (subscriptions.find? (fun s => decide (s.id = d.subscriptionId) && s.active)).map fun s =>
    { d with url := s.url, secret := s.secret }

/-- `delaySeconds`. -/
def delaySeconds (newAttempts : ℕ) : ℕ :=
  (retryDelaysSeconds[min (newAttempts - 1) (retryDelaysSeconds.length - 1)]?).getD 3600

/-- `WebhookRelayService`. -/
def relay : AbstractOutboxRelay DeliveryData (List WebhookTarget) DeliveryRow where
  sentStatus := .delivered
  failedStatus := .failed
  join := join
  nextAttempt now newAttempts exhausted _ :=
    if exhausted then now else now + delaySeconds newAttempts * 1000
  storedError error := String.ofList (Utf16.take maxDeliveryErrorLength error.toList)
  sent_ne_pending := by decide
  failed_ne_pending := by decide
  sent_ne_failed := by decide

/-- The error that is stored: not longer than the maximum, and whole if it is not longer. -/
theorem storedError_spec (error : String) :
    ((relay.storedError error).toList.flatMap Utf16.units).length ≤ maxDeliveryErrorLength ∧
      ((error.toList.flatMap Utf16.units).length ≤ maxDeliveryErrorLength →
        relay.storedError error = error) := by
  constructor
  · show ((String.ofList _).toList.flatMap Utf16.units).length ≤ _
    rw [String.toList_ofList]
    exact Utf16.length_units_take_le _ _
  · intro h
    show String.ofList _ = error
    rw [Utf16.take_of_length_le h, String.ofList_toList]

end WebhookRelayService

/-! ### Notifications -/

/-- `NotificationRelayService`. -/
def NotificationRelayService.relay :
    AbstractOutboxRelay NotificationOutboxRow Unit NotificationOutboxRow where
  sentStatus := .dispatched
  failedStatus := .dead
  join _ data := some data
  nextAttempt _ _ _ scheduledAt := scheduledAt
  storedError error := error
  sent_ne_pending := by decide
  failed_ne_pending := by decide
  sent_ne_failed := by decide

/-! ### E-mail -/

/-- The columns of `email_outbox` that are sent; `vars` is the text of a JSON value. -/
structure EmailData where
  «to» : String
  template : String
  vars : String
  idempotencyKey : Option String
  deriving DecidableEq, Repr

/-- `EmailRelayService`. -/
def EmailRelayService.relay : AbstractOutboxRelay EmailData Unit EmailData where
  sentStatus := .sent
  failedStatus := .failed
  join _ data := some data
  nextAttempt _ _ _ scheduledAt := scheduledAt
  storedError error := error
  sent_ne_pending := by decide
  failed_ne_pending := by decide
  sent_ne_failed := by decide

/-! ### Runs of several processes -/

/-- An outbox table, the rows that have been handed to `processRow`, and the batches of the
runs under way, in any number of processes. -/
structure RelaySystem (δ κ ρ : Type) where
  db : Outbox δ κ
  processed : List (FetchedRow ρ)
  batches : List (List (FetchedRow ρ))

/-- What can happen to an outbox table. -/
inductive RelayEvent (δ κ ρ τ : Type)
  /-- A run begins.  `held` are rows that it skips because others than runs hold them, or because
  what they are joined with is held. -/
  | fetch (now : Time) (held : Uuid → Bool)
  /-- The `i`-th run ends. -/
  | finish (i : ℕ) (p : Pattern ρ τ)
  /-- A scheduler inserts a row. -/
  | enqueue (id : Uuid) (data : δ) (dueAt : Time)
  /-- The rows that the table is joined with change. -/
  | rejoin (joined : κ)

namespace RelaySystem

variable {δ κ ρ τ : Type}

/-- No run has begun. -/
def initial (db : Outbox δ κ) : RelaySystem δ κ ρ := ⟨db, [], []⟩

/-- The row is in a batch under way, whose transaction has locked it. -/
def locked (s : RelaySystem δ κ ρ) (id : Uuid) : Bool :=
  s.batches.any fun batch => batch.any fun row => decide (row.id = id)

/-- The rows that a run skips. -/
def skipped (s : RelaySystem δ κ ρ) (held : Uuid → Bool) (id : Uuid) : Bool := s.locked id || held id

/-- The rows after an insertion; a key that is taken makes it fail. -/
def enqueue (db : Outbox δ κ) (row : OutboxRow δ) : Outbox δ κ :=
  match db.rows.insert row with
  | some rows => { db with rows := rows }
  | none => db

/-- The next state. -/
def step (R : AbstractOutboxRelay δ κ ρ) (s : RelaySystem δ κ ρ) :
    RelayEvent δ κ ρ τ → RelaySystem δ κ ρ
  | .fetch now held => { s with batches := s.batches ++ [R.fetchBatch now (s.skipped held) s.db] }
  | .finish i p =>
    match s.batches[i]? with
    | some batch =>
      let run := R.finish p.env batch s.processed s.db
      { db := run.db, processed := run.world, batches := s.batches.set i [] }
    | none => s
  | .enqueue id data dueAt =>
    { s with db := enqueue s.db { id := id, data := data, dueAt := dueAt } }
  | .rejoin joined => { s with db := { s.db with joined := joined } }

/-- What is under way is pending, and no row is in two batches. -/
structure Locked (s : RelaySystem δ κ ρ) : Prop where
  pending : ∀ (i : ℕ) (batch : List (FetchedRow ρ)), s.batches[i]? = some batch →
    ∀ row ∈ batch, ∃ r, s.db.rows.find row.id = some r ∧ r.status = .pending
  distinct : ∀ (i : ℕ) (batch : List (FetchedRow ρ)), s.batches[i]? = some batch →
    (batch.map FetchedRow.id).Nodup
  disjoint : ∀ (i j : ℕ) (batch batch' : List (FetchedRow ρ)), s.batches[i]? = some batch →
    s.batches[j]? = some batch' → i ≠ j → ∀ row ∈ batch, ∀ row' ∈ batch', row.id ≠ row'.id

/-- No row that is not pending any more is changed or handed to `processRow`. -/
def Settled (s s' : RelaySystem δ κ ρ) : Prop :=
  ∀ (id : Uuid) (r : OutboxRow δ), s.db.rows.find id = some r → r.status ≠ .pending →
    s'.db.rows.find id = some r ∧
      ∃ later, s'.processed = s.processed ++ later ∧ ∀ row ∈ later, row.id ≠ id

variable {R : AbstractOutboxRelay δ κ ρ} {s s' : RelaySystem δ κ ρ}

theorem locked_eq_true_iff {id : Uuid} :
    s.locked id = true ↔ ∃ batch ∈ s.batches, ∃ row ∈ batch, row.id = id := by
  simp [locked, List.any_eq_true]

theorem Locked.initial (db : Outbox δ κ) : Locked (initial db : RelaySystem δ κ ρ) := by
  constructor
  · intro i batch h
    cases h
  · intro i batch h
    cases h
  · intro i j batch batch' h
    cases h

/-- A run begins: the rows that it locks were not locked. -/
theorem Locked.fetch (h : Locked s) (now : Time) {skipped : Uuid → Bool}
    (hskipped : ∀ id, s.locked id = true → skipped id = true) :
    Locked { s with batches := s.batches ++ [R.fetchBatch now skipped s.db] } := by
  have hfree : ∀ (j : ℕ) (batch : List (FetchedRow ρ)), s.batches[j]? = some batch →
      ∀ row ∈ R.fetchBatch now skipped s.db, ∀ row' ∈ batch, row.id ≠ row'.id := by
    intro j batch hbatch row hrow row' hrow' hid
    obtain ⟨r, hr, hdue, -⟩ := AbstractOutboxRelay.mem_fetchBatch hrow
    have hlocked : s.locked r.id = true :=
      locked_eq_true_iff.2 ⟨batch, List.mem_of_getElem? hbatch, row', hrow',
        hid.symm.trans (Table.key_of_find hr).symm⟩
    have hfree : skipped r.id = false := hdue.2.2.2.1
    rw [hskipped r.id hlocked] at hfree
    exact Bool.false_ne_true hfree.symm
  constructor
  · intro i batch hi row hrow
    rcases Pool.get_append_cases hi with ⟨-, rfl⟩ | hi
    · obtain ⟨r, hr, hdue, -⟩ := AbstractOutboxRelay.mem_fetchBatch hrow
      exact ⟨r, hr, hdue.1⟩
    · exact h.pending i batch hi row hrow
  · intro i batch hi
    rcases Pool.get_append_cases hi with ⟨-, rfl⟩ | hi
    · exact R.nodup_fetchBatch now skipped s.db
    · exact h.distinct i batch hi
  · intro i j batch batch' hi hj hij row hrow row' hrow'
    rcases Pool.get_append_cases hi with ⟨hlast, rfl⟩ | hi
    · rcases Pool.get_append_cases hj with ⟨hlast', -⟩ | hj
      · exact absurd (hlast.trans hlast'.symm) hij
      · exact hfree j batch' hj row hrow row' hrow'
    · rcases Pool.get_append_cases hj with ⟨-, rfl⟩ | hj
      · exact (hfree i batch hi row' hrow' row hrow).symm
      · exact h.disjoint i j batch batch' hi hj hij row hrow row' hrow'

/-- A run ends: rows that are not in its batch stay as they are. -/
theorem find_finish {p : Pattern ρ τ} {batch : List (FetchedRow ρ)}
    {processed : List (FetchedRow ρ)} {db : Outbox δ κ} {id : Uuid}
    (h : ∀ row ∈ batch, row.id ≠ id) :
    (R.finish p.env batch processed db).db.rows.find id = db.rows.find id := by
  by_cases hcommits : AbstractOutboxRelay.Commits p batch
  · rw [AbstractOutboxRelay.finish_of_commits hcommits]
    exact AbstractOutboxRelay.find_foldl_of_notMem h
  · rw [AbstractOutboxRelay.finish_of_not_commits hcommits]

/-- An insertion leaves the stored rows as they are. -/
theorem find_enqueue {db : Outbox δ κ} {id : Uuid} {r : OutboxRow δ} (hr : db.rows.find id = some r)
    (row : OutboxRow δ) : (enqueue db row).rows.find id = some r := by
  unfold enqueue
  split
  · rename_i rows hinsert
    exact Table.find_insert_of_find hinsert hr
  · exact hr

/-- A run ends, and its batch is no longer under way. -/
theorem Locked.finish (h : Locked s) (p : Pattern ρ τ) {i : ℕ} {batch : List (FetchedRow ρ)}
    (hbatch : s.batches[i]? = some batch) (processed processed' : List (FetchedRow ρ)) :
    Locked ⟨(R.finish p.env batch processed s.db).db, processed', s.batches.set i []⟩ := by
  constructor
  · intro j other hj row hrow
    rcases Pool.get_set_cases hj with ⟨-, rfl⟩ | ⟨hij, hj⟩
    · cases hrow
    · obtain ⟨r, hr, hpending⟩ := h.pending j other hj row hrow
      refine ⟨r, ?_, hpending⟩
      rw [find_finish fun x hx => h.disjoint i j batch other hbatch hj hij.symm x hx row hrow]
      exact hr
  · intro j other hj
    rcases Pool.get_set_cases hj with ⟨-, rfl⟩ | ⟨-, hj⟩
    · exact List.nodup_nil
    · exact h.distinct j other hj
  · intro j k other other' hj hk hjk row hrow row' hrow'
    rcases Pool.get_set_cases hj with ⟨-, rfl⟩ | ⟨-, hj⟩
    · cases hrow
    · rcases Pool.get_set_cases hk with ⟨-, rfl⟩ | ⟨-, hk⟩
      · cases hrow'
      · exact h.disjoint j k other other' hj hk hjk row hrow row' hrow'

/-- Another statement, which leaves the locked rows as they are. -/
theorem Locked.of_kept (h : Locked s) {db : Outbox δ κ}
    (hkept : ∀ id r, s.locked id = true → s.db.rows.find id = some r →
      db.rows.find id = some r) : Locked { s with db := db } := by
  refine ⟨fun i batch hi row hrow => ?_, h.distinct, h.disjoint⟩
  obtain ⟨r, hr, hpending⟩ := h.pending i batch hi row hrow
  have hlocked : s.locked row.id = true :=
    locked_eq_true_iff.2 ⟨batch, List.mem_of_getElem? hi, row, hrow, rfl⟩
  exact ⟨r, hkept row.id r hlocked hr, hpending⟩

/-- **The invariant**, step by step. -/
theorem Locked.step (h : Locked s) (e : RelayEvent δ κ ρ τ) : Locked (step R s e) := by
  cases e with
  | fetch now held => exact h.fetch now fun _ hlocked => by rw [skipped, hlocked, Bool.true_or]
  | finish i p =>
    simp only [RelaySystem.step]
    split
    · rename_i batch hbatch
      exact h.finish p hbatch _ _
    · exact h
  | enqueue id data dueAt => exact h.of_kept fun _ _ _ hr => find_enqueue hr _
  | rejoin joined => exact h.of_kept fun _ _ _ hr => hr

theorem Settled.refl (s : RelaySystem δ κ ρ) : Settled s s :=
  fun _ _ hr _ => ⟨hr, [], (List.append_nil _).symm, fun _ hrow => absurd hrow (List.not_mem_nil)⟩

theorem Settled.trans {s'' : RelaySystem δ κ ρ} (h : Settled s s') (h' : Settled s' s'') :
    Settled s s'' := by
  intro id r hr hstatus
  obtain ⟨hr', later, hlater, hnone⟩ := h id r hr hstatus
  obtain ⟨hr'', later', hlater', hnone'⟩ := h' id r hr' hstatus
  refine ⟨hr'', later ++ later', ?_, fun row hrow => ?_⟩
  · rw [hlater', hlater, List.append_assoc]
  · rcases List.mem_append.1 hrow with hrow | hrow
    · exact hnone row hrow
    · exact hnone' row hrow

/-- A step neither changes nor processes a row that is not pending. -/
theorem Locked.settled (h : Locked s) (e : RelayEvent δ κ ρ τ) : Settled s (RelaySystem.step R s e) := by
  intro id r hr hstatus
  have hnone : ∀ row ∈ ([] : List (FetchedRow ρ)), row.id ≠ id := fun row hrow => by cases hrow
  cases e with
  | fetch now held => exact ⟨hr, [], (List.append_nil _).symm, hnone⟩
  | finish i p =>
    simp only [RelaySystem.step]
    split
    · rename_i batch hbatch
      have hother : ∀ row ∈ batch, row.id ≠ id := by
        rintro row hrow rfl
        obtain ⟨r', hr', hpending⟩ := h.pending i batch hbatch row hrow
        obtain rfl : r = r' := Option.some.inj (hr.symm.trans hr')
        exact hstatus hpending
      refine ⟨(find_finish hother).trans hr, p.processedRows batch,
        AbstractOutboxRelay.finish_world, fun row hrow => ?_⟩
      exact hother row (p.mem_of_mem_processedRows hrow)
    · exact ⟨hr, [], (List.append_nil _).symm, hnone⟩
  | enqueue id' data dueAt =>
    exact ⟨find_enqueue hr _, [], (List.append_nil _).symm, hnone⟩
  | rejoin joined => exact ⟨hr, [], (List.append_nil _).symm, hnone⟩

/-- Every state that is reached is locked as it should be. -/
theorem locked_run (db : Outbox δ κ) (es : List (RelayEvent δ κ ρ τ)) :
    Locked (Runs.run (RelaySystem.step R) (initial db) es) :=
  Runs.run_invariant (fun _ e hs => hs.step e) (Locked.initial db) es

/-- **A row that is not pending any more is left alone for ever.** -/
theorem settled_run (h : Locked s) (es : List (RelayEvent δ κ ρ τ)) :
    Settled s (Runs.run (RelaySystem.step R) s es) :=
  have htriv : Runs.Meets (RelaySystem.step R) (fun _ _ => True) s es :=
    Runs.meets_of_forall (fun _ _ => trivial) s es
  Runs.run_related Settled.refl (fun _ _ _ hab hbc => hab.trans hbc)
    (fun _ e hs _ => ⟨hs.step e, hs.settled e⟩) h htriv

end RelaySystem

/-! ### Batches -/

section Batches

open AbstractOutboxRelay

variable {δ κ ρ τ : Type} {R : AbstractOutboxRelay δ κ ρ} {p : Pattern ρ τ} {now : Time}
  {locked : Uuid → Bool} {processed : List (FetchedRow ρ)} {db : Outbox δ κ}

/-- Tasks are run for rows whose processing and whose marking have succeeded. -/
theorem postCommit_relay {task : τ} (h : task ∈ (R.relay p.env now locked processed db).postCommit) :
    (R.relay p.env now locked processed db).committed = true ∧
      ∃ row ∈ R.fetchBatch now locked db, p.attempt row = .ok (some task) ∧
        ∃ r, (R.relay p.env now locked processed db).db.rows.find row.id = some r ∧
          r.status = R.sentStatus := by
  unfold relay at h ⊢
  by_cases hcommits : Commits p (R.fetchBatch now locked db)
  · rw [finish_of_commits hcommits] at h ⊢
    obtain ⟨row, hrow, htask⟩ := List.mem_flatMap.1 h
    have hattempt : p.attempt row = .ok (some task) := by
      unfold Pattern.tasks at htask
      split at htask
      · rename_i task' hattempt
        rw [hattempt, Option.mem_toList.1 htask]
      · cases htask
    obtain ⟨r, hr, -⟩ := mem_fetchBatch hrow
    refine ⟨rfl, row, hrow, hattempt, R.markedRow p row r, ?_, ?_⟩
    · rw [find_foldl_of_mem (R.nodup_fetchBatch now locked db) hrow, hr, Option.map_some]
    · simp only [markedRow, hattempt, sentRow]
  · rw [finish_of_not_commits hcommits] at h
    cases h

/-- How the rows of a committed batch end. -/
theorem marked_relay (h : (R.relay p.env now locked processed db).committed = true)
    {row : FetchedRow ρ} (hrow : row ∈ R.fetchBatch now locked db) :
    ∃ r r', db.rows.find row.id = some r ∧
      (R.relay p.env now locked processed db).db.rows.find row.id = some r' ∧
      (r'.status = R.sentStatus ∧ r'.attempts = r.attempts ∨
        r'.status ≠ R.sentStatus ∧ r'.attempts = r.attempts + 1) ∧
      (r'.status = R.failedStatus ↔ r'.attempts = R.maxAttempts) := by
  have hcommits := finish_committed_iff.1 h
  obtain ⟨r, hr, hdue, hattempts⟩ := mem_fetchBatch hrow
  obtain ⟨hends, hfinal⟩ := markedRow_spec (p := p) hattempts hdue.2.1
  refine ⟨r, R.markedRow p row r, hr, ?_, hends, hfinal⟩
  rw [relay, finish_of_commits hcommits,
    find_foldl_of_mem (R.nodup_fetchBatch now locked db) hrow, hr, Option.map_some]

/-- **The rows of a batch do not depend on each other**, as long as those that fail can be
marked. -/
theorem isolated_relay {row : FetchedRow ρ} {e : String} (hfails : p.processRow row = .error e)
    (hmarked : p.markFailed row.id = .ok ()) {f : FetchedRow ρ → Except String (Option τ)}
    (hf : ∀ x, x ≠ row → f x = p.processRow x) :
    (R.relay (p.withProcessRow f).env now locked processed db).world =
        (R.relay p.env now locked processed db).world ∧
      (R.relay (p.withProcessRow f).env now locked processed db).committed =
        (R.relay p.env now locked processed db).committed ∧
      ∀ id, id ≠ row.id →
        (R.relay (p.withProcessRow f).env now locked processed db).db.rows.find id =
          (R.relay p.env now locked processed db).db.rows.find id := by
  have hattempt : ∀ x, x ≠ row → (p.withProcessRow f).attempt x = p.attempt x := by
    intro x hx
    simp only [Pattern.attempt, Pattern.withProcessRow, hf x hx]
  have haborts : ∀ x, (p.withProcessRow f).aborts x = p.aborts x := by
    intro x
    by_cases hx : x = row
    · -- the row itself can be marked as failed, whatever happens to it
      subst hx
      have hmarked' : (p.withProcessRow f).markFailed x.id = .ok () := hmarked
      unfold Pattern.aborts
      rw [hmarked, hmarked']
      split <;> split <;> simp_all
    · unfold Pattern.aborts
      rw [hattempt x hx]
      rfl
  have hcommits : ∀ batch, Commits (p.withProcessRow f) batch ↔ Commits p batch := by
    intro batch
    unfold Commits
    simp only [haborts]
    rfl
  refine ⟨?_, ?_, fun id hid => ?_⟩
  · rw [relay, relay, finish_world, finish_world, Pattern.processedRows_congr p haborts]
  · exact Bool.eq_iff_iff.2 ((finish_committed_iff.trans (hcommits _)).trans
      finish_committed_iff.symm)
  · by_cases hcommit : Commits p (R.fetchBatch now locked db)
    · rw [relay, relay, finish_of_commits hcommit, finish_of_commits ((hcommits _).2 hcommit)]
      by_cases hmem : ∃ x ∈ R.fetchBatch now locked db, x.id = id
      · obtain ⟨x, hx, rfl⟩ := hmem
        have hne : x ≠ row := fun hxr => hid (congrArg FetchedRow.id hxr)
        have hnodup := R.nodup_fetchBatch now locked db
        simp only [find_foldl_of_mem hnodup hx]
        congr 1
        funext r
        simp only [markedRow, hattempt x hne]
        rfl
      · have hnone : ∀ x ∈ R.fetchBatch now locked db, x.id ≠ id :=
          fun x hx hxid => hmem ⟨x, hx, hxid⟩
        simp only [find_foldl_of_notMem hnone]
    · rw [relay, relay, finish_of_not_commits hcommit,
        finish_of_not_commits fun h => hcommit ((hcommits _).1 h)]

/-- **What a relay does to a batch**, whatever fails: post-commit tasks belong to committed runs
and to rows that are marked as sent; a committed run marks every row of its batch, and the final
status goes with the last attempt; a row that fails and can be marked as failed changes nothing
for the others; a row that has reached its final status is never processed again. -/
theorem relay_batch (R : AbstractOutboxRelay δ κ ρ) (p : Pattern ρ τ) (now : Time)
    (locked : Uuid → Bool) (processed : List (FetchedRow ρ)) (db : Outbox δ κ) :
    (∀ task ∈ (R.relay p.env now locked processed db).postCommit,
      (R.relay p.env now locked processed db).committed = true ∧
        ∃ row ∈ R.fetchBatch now locked db, p.attempt row = .ok (some task) ∧
          ∃ r, (R.relay p.env now locked processed db).db.rows.find row.id = some r ∧
            r.status = R.sentStatus) ∧
    ((R.relay p.env now locked processed db).committed = true →
      ∀ row ∈ R.fetchBatch now locked db, ∃ r r', db.rows.find row.id = some r ∧
        (R.relay p.env now locked processed db).db.rows.find row.id = some r' ∧
        (r'.status = R.sentStatus ∧ r'.attempts = r.attempts ∨
          r'.status ≠ R.sentStatus ∧ r'.attempts = r.attempts + 1) ∧
        (r'.status = R.failedStatus ↔ r'.attempts = R.maxAttempts)) ∧
    (∀ row e f, p.processRow row = .error e → p.markFailed row.id = .ok () →
      (∀ x, x ≠ row → f x = p.processRow x) →
      (R.relay (p.withProcessRow f).env now locked processed db).world =
          (R.relay p.env now locked processed db).world ∧
        (R.relay (p.withProcessRow f).env now locked processed db).committed =
          (R.relay p.env now locked processed db).committed ∧
        ∀ id, id ≠ row.id →
          (R.relay (p.withProcessRow f).env now locked processed db).db.rows.find id =
            (R.relay p.env now locked processed db).db.rows.find id) ∧
    (∀ (es es' : List (RelayEvent δ κ ρ τ)) (id : Uuid) (r : OutboxRow δ),
      (Runs.run (RelaySystem.step R) (RelaySystem.initial db) es).db.rows.find id = some r →
      r.status = R.failedStatus →
      ∃ later, (Runs.run (RelaySystem.step R) (RelaySystem.initial db) (es ++ es')).processed =
          (Runs.run (RelaySystem.step R) (RelaySystem.initial db) es).processed ++ later ∧
        ∀ row ∈ later, row.id ≠ id) := by
  refine ⟨fun task htask => postCommit_relay htask, fun h row hrow => marked_relay h hrow,
    fun row e f hfails hmarked hf => isolated_relay hfails hmarked hf,
    fun es es' id r hr hstatus => ?_⟩
  have hlocked : RelaySystem.Locked (Runs.run (RelaySystem.step R) (RelaySystem.initial db) es) :=
    RelaySystem.locked_run db es
  have hsettled := RelaySystem.settled_run (R := R) hlocked es'
  rw [Runs.run_append]
  exact (hsettled id r hr (hstatus ▸ R.failed_ne_pending)).2

end Batches

/-! ### Two e-mails -/

namespace RelaySystem.Sample

open EmailRelayService (relay)

/-- An e-mail that is due. -/
def email (id : Uuid) : OutboxRow EmailData where
  id := id
  data := ⟨"a@example.org", "welcome", "\x7b\x7d", none⟩
  dueAt := 0

/-- Two of them. -/
def db : Outbox EmailData Unit where
  rows := ⟨[email 1, email 2], by decide⟩
  joined := ()

/-- The first of them, as it is fetched. -/
def first : FetchedRow EmailData := ⟨1, 0, (email 1).data⟩

/-- The first e-mail cannot be sent; `markFailed` is what marking it as failed comes to. -/
def refused (markFailed : Except String Unit) : Pattern EmailData Unit where
  processRow row := if row = first then .error "mailbox unavailable" else .ok none
  markSent _ := .ok ()
  markFailed _ := markFailed
  commit := .ok ()
  markedAt _ := 7

/-- The row of the second e-mail after a run. -/
def second (p : Pattern EmailData Unit) : Option (OutboxRow EmailData) :=
  (relay.relay p.env 0 (fun _ => false) [] db).db.rows.find 2

/-- A run commits, with the first e-mail to be tried again and the second one sent; a fifth
failure is the last. -/
theorem relay_batch_refused :
    (∃ r r', db.rows.find 1 = some r ∧
      (relay.relay (refused (.ok ())).env 0 (fun _ => false) [] db).db.rows.find 1 = some r' ∧
      (r'.status = .sent ∧ r'.attempts = r.attempts ∨
        r'.status ≠ .sent ∧ r'.attempts = r.attempts + 1) ∧
      (r'.status = .failed ↔ r'.attempts = 5)) ∧
    second ((refused (.ok ())).withProcessRow fun _ => .ok none) = second (refused (.ok ())) :=
  have hbatch := relay_batch relay (refused (.ok ())) 0 (fun _ => false) [] db
  have hmem : first ∈ relay.fetchBatch 0 (fun _ => false) db := by decide
  ⟨hbatch.2.1 (by decide) first hmem,
    (hbatch.2.2.1 first "mailbox unavailable" (fun _ => .ok none) (by decide) rfl
      (fun _ hx => (if_neg hx).symm)).2.2 2 (by decide)⟩

/-- **A row that cannot be marked as failed takes the rest of the batch along**: the second
e-mail is not even handed to `processRow`, while it is sent if the first one can be. -/
theorem not_isolated :
    (refused (.error "connection terminated")).processRow first = .error "mailbox unavailable" ∧
    (∀ x, x ≠ first → (.ok none : Except String (Option Unit)) =
      (refused (.error "connection terminated")).processRow x) ∧
    ¬ ((relay.relay ((refused (.error "connection terminated")).withProcessRow
          fun _ => .ok none).env 0 (fun _ => false) [] db).world =
        (relay.relay (refused (.error "connection terminated")).env 0
          (fun _ => false) [] db).world ∧
      second ((refused (.error "connection terminated")).withProcessRow fun _ => .ok none) =
        second (refused (.error "connection terminated"))) :=
  ⟨by decide, fun _ hx => (if_neg hx).symm, by decide⟩

end RelaySystem.Sample

end OpsHub
