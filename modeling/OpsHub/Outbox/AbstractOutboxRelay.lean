import OpsHub.Lib.Oldest
import OpsHub.Lib.Outcome
import OpsHub.Requests.Types

/-!
# Outbox relays

`AbstractOutboxRelay` of `abstract-outbox-relay.ts`: a run fetches a batch of rows under row
locks, hands them one after the other to `processRow`, marks each of them, commits, and then
runs the tasks that `processRow` has returned.

* `OutboxRow`, `Outbox`: the columns that the three outbox tables have in common, with the
  others in `data`;
* `AbstractOutboxRelay`: what a subclass provides, `fetchBatch`, `markSent`, `markFailed`
  with the subclass's own statuses, and the laws that its statuses obey;
* `Environment`: what happens outside (`processRow` and its effects) and which statements
  throw; `relay` is the run in an environment;
* `mem_fetchBatch`, `nodup_fetchBatch`: what is fetched.
-/

namespace OpsHub

/-- The values of the column `status` in the outbox tables. -/
inductive OutboxStatus
  | pending
  | sent
  | dispatched
  | delivered
  | failed
  | dead
  deriving DecidableEq, Repr

/-- A row of an outbox table.  `dueAt` is `scheduled_at` or `next_attempt_at`, `sentAt` is
`sent_at`, `dispatched_at` or `delivered_at`. -/
structure OutboxRow (δ : Type) where
  id : Uuid
  data : δ
  status : OutboxStatus := .pending
  attempts : ℕ := 0
  lastError : Option String := none
  dueAt : Time
  sentAt : Option Time := none
  deriving DecidableEq, Repr

/-- An outbox table, with the rows that `fetchBatch` joins it with. -/
structure Outbox (δ κ : Type) where
  rows : Table (@OutboxRow.id δ)
  joined : κ

/-- `TRow`: a row as `fetchBatch` selects it. -/
structure FetchedRow (ρ : Type) where
  id : Uuid
  attempts : ℕ
  data : ρ
  deriving DecidableEq, Repr

/-- What a subclass provides.  `δ` are the other columns of its table, `κ` is what the table
is joined with, `ρ` what is selected from both. -/
structure AbstractOutboxRelay (δ κ ρ : Type) where
  maxAttempts : ℕ := 5
  batchSize : ℕ := 50
  sentStatus : OutboxStatus
  failedStatus : OutboxStatus
  /-- The join; a row without a partner is not selected. -/
  join : κ → δ → Option ρ
  /-- The instant of the next attempt, from the present instant, the attempts made, whether
  they are used up, and the present value of the column. -/
  nextAttempt : Time → ℕ → Bool → Time → Time
  /-- What is stored of the text of an error. -/
  storedError : String → String
  sent_ne_pending : sentStatus ≠ .pending
  failed_ne_pending : failedStatus ≠ .pending
  sent_ne_failed : sentStatus ≠ failedStatus

/-- What happens outside the transaction, and which statements throw.  `ω` is the rest of the
world, `τ` the type of the post-commit tasks. -/
structure Environment (ρ ω τ : Type) where
  processRow : FetchedRow ρ → ω → ω × Except String (Option τ)
  markSent : Uuid → Except String Unit
  markFailed : Uuid → Except String Unit
  commit : Except String Unit
  /-- The instant at which a row is marked. -/
  markedAt : Uuid → Time

/-- What a run leaves behind. -/
structure RelayRun (δ κ ω τ : Type) where
  db : Outbox δ κ
  world : ω
  committed : Bool
  postCommit : List τ

namespace AbstractOutboxRelay

variable {δ κ ρ ω τ : Type} (R : AbstractOutboxRelay δ κ ρ)

/-! ### The statements -/

/-- The condition of `fetchBatch`; `locked` are the rows that other transactions hold. -/
def Due (now : Time) (locked : Uuid → Bool) (joined : κ) (r : OutboxRow δ) : Prop :=
  r.status = .pending ∧ r.attempts < R.maxAttempts ∧ r.dueAt ≤ now ∧ locked r.id = false ∧
    (R.join joined r.data).isSome = true

instance (now : Time) (locked : Uuid → Bool) (joined : κ) :
    DecidablePred (R.Due now locked joined) := fun r =>
  inferInstanceAs (Decidable (r.status = .pending ∧ r.attempts < R.maxAttempts ∧ r.dueAt ≤ now ∧
    locked r.id = false ∧ (R.join joined r.data).isSome = true))

/-- The columns that `fetchBatch` selects. -/
def selected (joined : κ) (r : OutboxRow δ) : Option (FetchedRow ρ) :=
  (R.join joined r.data).map fun data => ⟨r.id, r.attempts, data⟩

/-- `fetchBatch`: the rows that are due, the oldest first. -/
def fetchBatch (now : Time) (locked : Uuid → Bool) (db : Outbox δ κ) : List (FetchedRow ρ) :=
  let due := db.rows.rows.filter (fun r => decide (R.Due now locked db.joined r))
  (Oldest.first OutboxRow.dueAt R.batchSize due).filterMap (R.selected db.joined)

/-- What `markSent` writes. -/
def sentRow (now : Time) (r : OutboxRow δ) : OutboxRow δ :=
  { r with status := R.sentStatus, sentAt := some now }

/-- What `markFailed` writes; `exhausted` says that the new status is `failed`. -/
def failedRow (now : Time) (newAttempts : ℕ) (exhausted : Bool) (error : String)
    (r : OutboxRow δ) : OutboxRow δ :=
  { r with
    status := if exhausted then R.failedStatus else .pending
    attempts := newAttempts
    lastError := some (R.storedError error)
    dueAt := R.nextAttempt now newAttempts exhausted r.dueAt }

theorem id_sentRow (now : Time) (r : OutboxRow δ) : (R.sentRow now r).id = r.id := rfl

theorem id_failedRow (now : Time) (newAttempts : ℕ) (exhausted : Bool) (error : String)
    (r : OutboxRow δ) : (R.failedRow now newAttempts exhausted error r).id = r.id := rfl

/-- `markSent`. -/
def markSent (now : Time) (id : Uuid) (db : Outbox δ κ) : Outbox δ κ :=
  { db with rows := db.rows.update id (R.sentRow now) (R.id_sentRow now) }

/-- `markFailed`. -/
def markFailed (now : Time) (id : Uuid) (newAttempts : ℕ) (exhausted : Bool) (error : String)
    (db : Outbox δ κ) : Outbox δ κ :=
  { db with
    rows := db.rows.update id (R.failedRow now newAttempts exhausted error)
      (R.id_failedRow now newAttempts exhausted error) }

theorem find_markSent_self (now : Time) (id : Uuid) (db : Outbox δ κ) :
    (R.markSent now id db).rows.find id = (db.rows.find id).map (R.sentRow now) :=
  Table.find_update_self _ _ _ (R.id_sentRow now)

theorem find_markSent_ne (now : Time) {id id' : Uuid} (h : id' ≠ id) (db : Outbox δ κ) :
    (R.markSent now id db).rows.find id' = db.rows.find id' :=
  Table.find_update_ne _ h _ (R.id_sentRow now)

theorem find_markFailed_ne (now : Time) {id id' : Uuid} (h : id' ≠ id) (newAttempts : ℕ)
    (exhausted : Bool) (error : String) (db : Outbox δ κ) :
    (R.markFailed now id newAttempts exhausted error db).rows.find id' = db.rows.find id' :=
  Table.find_update_ne _ h _ (R.id_failedRow now newAttempts exhausted error)

/-! ### The loop -/

/-- The body of the loop: the transaction and the tasks collected so far, unless `markFailed`
throws. -/
def relayRow (env : Environment ρ ω τ) (row : FetchedRow ρ) (world : ω)
    (tx : Outbox δ κ × List τ) : ω × Except String (Outbox δ κ × List τ) :=
  let (world, processed) := env.processRow row world
  let attempt : Except String (Outbox δ κ × List τ) := do
    let task ← processed
    env.markSent row.id
    pure (R.markSent (env.markedAt row.id) row.id tx.1, tx.2 ++ task.toList)
  match attempt with
  | .ok tx => (world, .ok tx)
  | .error errMsg =>
    let newAttempts := row.attempts + 1
    (world, do
      env.markFailed row.id
      pure (R.markFailed (env.markedAt row.id) row.id newAttempts
        (decide (R.maxAttempts ≤ newAttempts)) errMsg tx.1, tx.2))

/-- The loop. -/
def relayBatch (env : Environment ρ ω τ) :
    List (FetchedRow ρ) → ω → Outbox δ κ × List τ → ω × Except String (Outbox δ κ × List τ)
  | [], world, tx => (world, .ok tx)
  | row :: batch, world, tx =>
    match R.relayRow env row world tx with
    | (world, .ok tx) => relayBatch env batch world tx
    | (world, .error e) => (world, .error e)

/-- The rest of a run, after `fetchBatch`: the loop, the commit, the post-commit tasks. -/
def finish (env : Environment ρ ω τ) (batch : List (FetchedRow ρ)) (world : ω) (db : Outbox δ κ) :
    RelayRun δ κ ω τ :=
  match R.relayBatch env batch world (db, []) with
  | (world, .ok (tx, postCommitTasks)) =>
    match env.commit with
    | .ok () => ⟨tx, world, true, postCommitTasks⟩
    | .error _ => ⟨db, world, false, []⟩
  | (world, .error _) => ⟨db, world, false, []⟩

/-- `relay`, without its two flags. -/
def relay (env : Environment ρ ω τ) (now : Time) (locked : Uuid → Bool) (world : ω)
    (db : Outbox δ κ) : RelayRun δ κ ω τ :=
  R.finish env (R.fetchBatch now locked db) world db

/-! ### What is fetched -/

variable {R} {now : Time} {locked : Uuid → Bool} {db : Outbox δ κ}

/-- A fetched row is one that is due. -/
theorem mem_fetchBatch {row : FetchedRow ρ} (h : row ∈ R.fetchBatch now locked db) :
    ∃ r, db.rows.find row.id = some r ∧ R.Due now locked db.joined r ∧
      row.attempts = r.attempts := by
  obtain ⟨r, hr, hsel⟩ := List.mem_filterMap.1 h
  have hdue := List.mem_filter.1 (Oldest.mem_of_mem_first hr)
  obtain ⟨data, -, rfl⟩ := Option.map_eq_some_iff.1 hsel
  exact ⟨r, Table.find_of_mem hdue.1, of_decide_eq_true hdue.2, rfl⟩

/-- The data of a fetched row are those of the row in the table. -/
theorem data_of_mem_fetchBatch {row : FetchedRow ρ} (h : row ∈ R.fetchBatch now locked db)
    {r : OutboxRow δ} (hr : db.rows.find row.id = some r) :
    R.join db.joined r.data = some row.data := by
  obtain ⟨r', hr', hsel⟩ := List.mem_filterMap.1 h
  have hmem := (List.mem_filter.1 (Oldest.mem_of_mem_first hr')).1
  obtain ⟨data, hdata, rfl⟩ := Option.map_eq_some_iff.1 hsel
  obtain rfl : r' = r := Option.some.inj ((Table.find_of_mem hmem).symm.trans hr)
  exact hdata

/-- What is selected keeps the order and the ids of the rows. -/
theorem sublist_selected (joined : κ) (rows : List (OutboxRow δ)) :
    ((rows.filterMap (R.selected joined)).map FetchedRow.id).Sublist (rows.map OutboxRow.id) := by
  induction rows with
  | nil => exact List.Sublist.slnil
  | cons r rows ih =>
    cases hsel : R.selected joined r with
    | none =>
      rw [List.filterMap_cons_none hsel, List.map_cons]
      exact ih.cons _
    | some row =>
      obtain ⟨data, -, rfl⟩ := Option.map_eq_some_iff.1 hsel
      rw [List.filterMap_cons_some hsel, List.map_cons, List.map_cons]
      exact ih.cons_cons _

/-- No row is fetched twice. -/
theorem nodup_fetchBatch (R : AbstractOutboxRelay δ κ ρ) (now : Time) (locked : Uuid → Bool)
    (db : Outbox δ κ) : ((R.fetchBatch now locked db).map FetchedRow.id).Nodup := by
  let due := db.rows.rows.filter (fun r => decide (R.Due now locked db.joined r))
  have hdue : (due.map OutboxRow.id).Nodup := db.rows.nodup.sublist (List.filter_sublist.map _)
  exact (Oldest.nodup_map_first OutboxRow.id hdue).sublist (sublist_selected _ _)

end AbstractOutboxRelay

end OpsHub
