import OpsHub.Assets.AssetService
import OpsHub.Lib.Cuts

/-!
# The events of assets

`AssetService.assign`, `unassign` and `retire` change an asset and enqueue an event for the outbox
relay.  A call may fail between any two of its statements, and at its commits.

* `AssetOperation`: a call, its tests, and the parts in which it commits;
* `perform`: what it leaves behind when it gets past `n` points;
* `Together`: the asset has changed exactly if the event is there;
* `together_iff`: a retirement is not written in the transaction of its event.
-/

namespace OpsHub

/-! ### The database -/

/-- The payloads of the events, under their types. -/
inductive AssetEvent
  | assigned (assetId employeeId : Uuid)
  | unassigned (assetId : Uuid) (previousEmployeeId : Option Uuid)
  | retired (assetId : Uuid)
  deriving DecidableEq, Repr

/-- `eventType`. -/
def AssetEvent.eventType : AssetEvent → String
  | .assigned _ _ => "asset.assigned"
  | .unassigned _ _ => "asset.unassigned"
  | .retired _ => "asset.retired"

/-- A row of `outbox_events`. -/
structure AssetEventRow where
  id : Uuid
  aggregateType : String
  aggregateId : Uuid
  event : AssetEvent
  deriving DecidableEq, Repr

/-- The tables, and the outbox. -/
structure AssetDb where
  tables : Tables
  outboxEvents : Table AssetEventRow.id

namespace OutboxService

/-- `enqueue`. -/
def enqueue (row : AssetEventRow) (db : AssetDb) : Except Failure AssetDb := do
  let outboxEvents ← Outcome.orThrow (.duplicateKey "outbox_events") (db.outboxEvents.insert row)
  pure { db with outboxEvents := outboxEvents }

end OutboxService

/-! ### The statements of the repository -/

namespace AssetDrizzleRepository

theorem id_assigned (employeeId : Uuid) (now : Time) (a : Asset) :
    ({ a with status := .assigned, assignedTo := some employeeId, updatedAt := now } : Asset).id =
      a.id := rfl

theorem id_unassigned (now : Time) (a : Asset) :
    ({ a with status := .inStock, assignedTo := none, updatedAt := now } : Asset).id = a.id := rfl

/-- The statements of `assign`. -/
def assignStatements (assetId employeeId : Uuid) (notes : Option String) (now : Time)
    (newId : Uuid) : List (Tables → Except Failure Tables) :=
  [fun tables => .ok { tables with
      assets := tables.assets.update assetId
        (fun a => { a with status := .assigned, assignedTo := some employeeId, updatedAt := now })
        (id_assigned employeeId now) },
    fun tables =>
      (Outcome.orThrow (.duplicateKey "asset_assignments")
        (tables.assetAssignments.insert (assignment assetId employeeId notes now newId))).map
      fun assetAssignments => { tables with assetAssignments := assetAssignments }]

/-- The statements of `unassign`. -/
def unassignStatements (assetId : Uuid) (now : Time) : List (Tables → Except Failure Tables) :=
  [fun tables => .ok { tables with
      assets := tables.assets.update assetId
        (fun a => { a with status := .inStock, assignedTo := none, updatedAt := now })
        (id_unassigned now) },
    fun tables => .ok { tables with
      assetAssignments := tables.assetAssignments.updateWhere
        (fun a => decide (a.assetId = assetId ∧ a.returnedAt = none))
        (fun a => { a with returnedAt := some now }) (id_returned now) }]

theorem writeAll_assignStatements (assetId employeeId : Uuid) (notes : Option String) (now : Time)
    (newId : Uuid) (tables : Tables) :
    Cuts.writeAll (assignStatements assetId employeeId notes now newId) tables =
      assign assetId employeeId notes now newId tables := by
  simp only [assignStatements, Cuts.writeAll, assign]
  cases tables.assetAssignments.insert (assignment assetId employeeId notes now newId) <;> rfl

theorem writeAll_unassignStatements (assetId : Uuid) (now : Time) (tables : Tables) :
    Cuts.writeAll (unassignStatements assetId now) tables =
      .ok (unassign assetId now tables) := rfl

end AssetDrizzleRepository

/-! ### The calls -/

/-- A call of `AssetService`. -/
inductive AssetOperation
  | assign (assetId employeeId : Uuid) (notes : Option String)
  | unassign (assetId : Uuid)
  | retire (assetId : Uuid)
  deriving DecidableEq, Repr

/-- The instant of the statements, and the ids that are drawn for the rows. -/
structure AssetCall where
  now : Time
  assignmentId : Uuid
  eventId : Uuid
  deriving DecidableEq, Repr

namespace AssetOperation

/-- The asset. -/
def assetId : AssetOperation → Uuid
  | assign assetId _ _ => assetId
  | unassign assetId => assetId
  | retire assetId => assetId

/-- The type of the event. -/
def eventType : AssetOperation → String
  | assign _ _ _ => "asset.assigned"
  | unassign _ => "asset.unassigned"
  | retire _ => "asset.retired"

/-- The tests of a call, and the payload of the event that is enqueued after them. -/
def tests (tables : Tables) : AssetOperation → Except Failure AssetEvent
  | assign assetId employeeId _ => do
    AssetService.assign tables assetId employeeId
    pure (.assigned assetId employeeId)
  | unassign assetId => do
    let asset ← AssetService.getById tables assetId
    AssetService.unassign tables assetId
    pure (.unassigned assetId asset.assignedTo)
  | retire assetId => do
    AssetService.retire tables assetId
    pure (.retired assetId)

/-- A statement on the tables. -/
def onTables (write : Tables → Except Failure Tables) (db : AssetDb) : Except Failure AssetDb :=
  (write db.tables).map fun tables => { db with tables := tables }

/-- The row of the outbox. -/
def eventRow (op : AssetOperation) (call : AssetCall) (event : AssetEvent) : AssetEventRow where
  id := call.eventId
  aggregateType := "asset"
  aggregateId := op.assetId
  event := event

/-- The parts in which a call commits. -/
def parts (op : AssetOperation) (call : AssetCall) (event : AssetEvent) :
    List (Cuts.Part AssetDb Failure) :=
  let enqueue := OutboxService.enqueue (op.eventRow call event)
  match op with
  | assign assetId employeeId notes =>
    [.transaction ((AssetDrizzleRepository.assignStatements assetId employeeId notes call.now
      call.assignmentId).map onTables ++ [enqueue])]
  | unassign assetId =>
    [.transaction ((AssetDrizzleRepository.unassignStatements assetId call.now).map onTables ++
      [enqueue])]
  | retire assetId =>
    -- the update runs on the connection itself, before the transaction
    [.statement (onTables fun tables =>
        .ok (AssetDrizzleRepository.retire assetId call.now tables)),
      .transaction [enqueue]]

/-- What a call leaves behind that gets past `n` points.  The audit entry and the last read come
after the parts, and write neither the assets nor the outbox. -/
def perform (op : AssetOperation) (call : AssetCall) (n : ℕ) (db : AssetDb) : AssetDb :=
  match op.tests db.tables with
  | .ok event => Cuts.leave n (op.parts call event) db
  | .error _ => db

/-! ### The property -/

/-- The assignment history of an asset. -/
def history (assetId : Uuid) (tables : Tables) : List AssetAssignment :=
  tables.assetAssignments.rows.filter fun a => decide (a.assetId = assetId)

/-- The row of the asset has changed, or its history. -/
def Changed (assetId : Uuid) (tables tables' : Tables) : Prop :=
  tables'.assets.find assetId ≠ tables.assets.find assetId ∨
    history assetId tables' ≠ history assetId tables

/-- There is a new row for the event of the call. -/
def Announced (op : AssetOperation) (db db' : AssetDb) : Prop :=
  ∃ row ∈ db'.outboxEvents.rows, row ∉ db.outboxEvents.rows ∧ row.aggregateId = op.assetId ∧
    row.event.eventType = op.eventType

/-- **The asset has changed exactly if its event is committed.** -/
def Together (op : AssetOperation) (call : AssetCall) (n : ℕ) (db : AssetDb) : Prop :=
  Changed op.assetId db.tables (op.perform call n db).tables ↔
    op.Announced db (op.perform call n db)

/-- A retirement that passes its tests fails before its update or not at all. -/
def RetiresWhole (op : AssetOperation) (call : AssetCall) (n : ℕ) (db : AssetDb) : Prop :=
  ∀ assetId, op = retire assetId → AssetService.retire db.tables assetId = .ok () →
    n = 0 ∨ 3 ≤ n ∧ db.outboxEvents.find call.eventId = none

variable {op : AssetOperation} {call : AssetCall} {n : ℕ} {db db' : AssetDb}
  {tables tables' : Tables} {event : AssetEvent} {assetId employeeId : Uuid}

theorem not_changed (assetId : Uuid) (tables : Tables) : ¬Changed assetId tables tables := by
  rintro (h | h) <;> exact h rfl

theorem not_announced (h : db'.outboxEvents = db.outboxEvents) : ¬op.Announced db db' := by
  rintro ⟨row, hrow, hnew, -⟩
  exact hnew (h ▸ hrow)

/-- A call that leaves no trace. -/
theorem together_of_eq (h : op.perform call n db = db) : op.Together call n db := by
  rw [Together, h]
  exact iff_of_false (not_changed _ _) (not_announced rfl)

theorem eventType_of_tests (h : op.tests tables = .ok event) :
    event.eventType = op.eventType := by
  cases op <;>
    simp only [tests, Except.bind_eq_ok_iff, Except.pure_eq_ok_iff] at h
  case assign => obtain ⟨-, -, rfl⟩ := h; rfl
  case unassign => obtain ⟨_, -, -, -, rfl⟩ := h; rfl
  case retire => obtain ⟨-, -, rfl⟩ := h; rfl

theorem enqueue_ok {row : AssetEventRow} : OutboxService.enqueue row db = .ok db' ↔
    ∃ outboxEvents, db.outboxEvents.insert row = some outboxEvents ∧
      db' = { db with outboxEvents := outboxEvents } := by
  simp only [OutboxService.enqueue, Except.bind_eq_ok_iff, Outcome.orThrow_eq_ok_iff,
    Except.pure_eq_ok_iff]
  exact exists_congr fun _ => and_congr_right fun _ => eq_comm

/-- The row of a call that has passed its tests announces it. -/
theorem announced_of_insert (h : op.tests tables = .ok event) {outboxEvents : Table AssetEventRow.id}
    (hinsert : db.outboxEvents.insert (op.eventRow call event) = some outboxEvents) :
    op.Announced db { tables := tables', outboxEvents := outboxEvents } := by
  refine ⟨op.eventRow call event, (Table.mem_insert hinsert).2 (Or.inr rfl), fun hmem => ?_, rfl,
    eventType_of_tests h⟩
  have hnone := (Table.insert_eq_some_iff.1 hinsert).1
  rw [Table.find_of_mem hmem] at hnone
  cases hnone

/-! ### The transactions -/

/-- The statements on the tables, run on the database. -/
theorem writeAll_onTables (writes : List (Tables → Except Failure Tables)) (db : AssetDb) :
    Cuts.writeAll (writes.map onTables) db =
      (Cuts.writeAll writes db.tables).map fun tables => { db with tables := tables } :=
  @Cuts.writeAll_map AssetDb Failure Tables onTables (fun tables => { db with tables := tables })
    (fun _ _ => rfl) writes db.tables

/-- What the transaction of a change and its event leads to. -/
theorem writeAll_with_event {writes : List (Tables → Except Failure Tables)} {row : AssetEventRow}
    (h : Cuts.writeAll (writes.map onTables ++ [OutboxService.enqueue row]) db = .ok db') :
    ∃ tables outboxEvents, Cuts.writeAll writes db.tables = .ok tables ∧
      db.outboxEvents.insert row = some outboxEvents ∧
      db' = { tables := tables, outboxEvents := outboxEvents } := by
  rw [Cuts.writeAll_append, writeAll_onTables] at h
  obtain ⟨db₁, hwrites, henqueue⟩ := Except.bind_eq_ok_iff.1 h
  obtain ⟨tables, htables, rfl⟩ := Except.map_eq_ok_iff.1 hwrites
  rw [Cuts.writeAll_singleton, enqueue_ok] at henqueue
  obtain ⟨outboxEvents, hinsert, rfl⟩ := henqueue
  exact ⟨tables, outboxEvents, htables, hinsert, rfl⟩

/-- **A change and its event in one transaction.** -/
theorem together_of_transaction {writes : List (Tables → Except Failure Tables)}
    (hparts : ∀ event, op.parts call event =
      [.transaction (writes.map onTables ++ [OutboxService.enqueue (op.eventRow call event)])])
    (hchanged : ∀ event, op.tests db.tables = .ok event → ∀ tables,
      Cuts.writeAll writes db.tables = .ok tables → Changed op.assetId db.tables tables) :
    op.Together call n db := by
  cases htests : op.tests db.tables with
  | error e => exact together_of_eq (by simp only [perform, htests])
  | ok event =>
    have hperform : op.perform call n db = Cuts.leave n (op.parts call event) db := by
      simp only [perform, htests]
    rw [hparts] at hperform
    rcases Cuts.leave_cons n _ [] db with hleave | ⟨db', -, hresult, hleave⟩
    · exact together_of_eq (hperform.trans hleave)
    · obtain ⟨tables, outboxEvents, hwrites, hinsert, rfl⟩ := writeAll_with_event hresult
      rw [Together, hperform, hleave]
      exact iff_of_true (hchanged event htests tables hwrites) (announced_of_insert htests hinsert)

/-! ### The operations -/

theorem find_of_getById {asset : Asset} (h : AssetService.getById tables assetId = .ok asset) :
    tables.assets.find assetId = some asset :=
  Outcome.orThrow_eq_ok_iff.1 h

theorem assign_tested (h : AssetService.assign tables assetId employeeId = .ok ()) :
    ∃ asset, tables.assets.find assetId = some asset ∧ asset.assignedTo = none := by
  simp only [AssetService.assign, Except.bind_eq_ok_iff, Outcome.require_eq_ok_iff] at h
  obtain ⟨asset, hasset, -, -, -, hnone, -⟩ := h
  exact ⟨asset, find_of_getById hasset, hnone⟩

theorem unassign_tested (h : AssetService.unassign tables assetId = .ok ()) :
    ∃ asset, tables.assets.find assetId = some asset ∧ asset.assignedTo ≠ none := by
  simp only [AssetService.unassign, Except.bind_eq_ok_iff, Outcome.require_eq_ok_iff] at h
  obtain ⟨asset, hasset, hsome⟩ := h
  exact ⟨asset, find_of_getById hasset, hsome⟩

theorem retire_tested (h : AssetService.retire tables assetId = .ok ()) :
    ∃ asset, tables.assets.find assetId = some asset ∧ asset.status ≠ .retired := by
  simp only [AssetService.retire, Except.bind_eq_ok_iff, Outcome.require_eq_ok_iff] at h
  obtain ⟨asset, hasset, -, hstatus, -⟩ := h
  exact ⟨asset, find_of_getById hasset, hstatus⟩

theorem changed_assign {notes : Option String} {now : Time} {newId : Uuid}
    (h : AssetService.assign tables assetId employeeId = .ok ())
    (hwrite : AssetDrizzleRepository.assign assetId employeeId notes now newId tables =
      .ok tables') : Changed assetId tables tables' := by
  obtain ⟨asset, hasset, hnone⟩ := assign_tested h
  simp only [AssetDrizzleRepository.assign, Except.bind_eq_ok_iff, Outcome.orThrow_eq_ok_iff,
    Except.pure_eq_ok_iff] at hwrite
  obtain ⟨assetAssignments, -, rfl⟩ := hwrite
  left
  rw [Table.find_update_self, hasset]
  intro heq
  have hassigned := congrArg Asset.assignedTo (Option.some.inj heq)
  exact Option.some_ne_none employeeId (hassigned.trans hnone)

theorem changed_unassign {now : Time} (h : AssetService.unassign tables assetId = .ok ()) :
    Changed assetId tables (AssetDrizzleRepository.unassign assetId now tables) := by
  obtain ⟨asset, hasset, hsome⟩ := unassign_tested h
  left
  rw [AssetDrizzleRepository.unassign, Table.find_update_self, hasset]
  exact fun heq => hsome (congrArg Asset.assignedTo (Option.some.inj heq)).symm

/-- The update of a retirement retires the asset, whatever follows. -/
theorem changed_retire {now : Time} (h : AssetService.retire tables assetId = .ok ()) :
    Changed assetId tables (AssetDrizzleRepository.retire assetId now tables) := by
  obtain ⟨asset, hasset, hstatus⟩ := retire_tested h
  left
  rw [AssetDrizzleRepository.retire, Table.find_update_self, hasset]
  exact fun heq => hstatus (congrArg Asset.status (Option.some.inj heq)).symm

theorem together_assign (assetId employeeId : Uuid) (notes : Option String) :
    (assign assetId employeeId notes).Together call n db := by
  refine together_of_transaction (fun _ => rfl) fun event htests tables hwrites => ?_
  simp only [tests, Except.bind_eq_ok_iff] at htests
  obtain ⟨_, hassign, -⟩ := htests
  rw [AssetDrizzleRepository.writeAll_assignStatements] at hwrites
  exact changed_assign hassign hwrites

theorem together_unassign (assetId : Uuid) : (unassign assetId).Together call n db := by
  refine together_of_transaction (fun _ => rfl) fun event htests tables hwrites => ?_
  simp only [tests, Except.bind_eq_ok_iff] at htests
  obtain ⟨_, -, _, hunassign, -⟩ := htests
  rw [AssetDrizzleRepository.writeAll_unassignStatements] at hwrites
  obtain rfl := Except.ok.inj hwrites
  exact changed_unassign hunassign

theorem tests_retire (h : AssetService.retire tables assetId = .ok ()) :
    (retire assetId).tests tables = .ok (.retired assetId) := by
  simp only [tests, h]
  rfl

/-- What a retirement leaves behind once its update has run. -/
theorem perform_retire (hn : n ≠ 0) (h : AssetService.retire db.tables assetId = .ok ()) :
    (retire assetId).perform call n db =
      Cuts.leave (n - 1)
        [.transaction [OutboxService.enqueue ((retire assetId).eventRow call (.retired assetId))]]
        { db with tables := AssetDrizzleRepository.retire assetId call.now db.tables } := by
  simp only [perform, tests_retire h]
  exact Cuts.leave_of_le (Nat.one_le_iff_ne_zero.2 hn) rfl

/-- The transaction of an event by itself. -/
theorem leave_enqueue (n : ℕ) (row : AssetEventRow) (db : AssetDb) :
    Cuts.leave n [.transaction [OutboxService.enqueue row]] db = db ∨
      ∃ outboxEvents, 2 ≤ n ∧ db.outboxEvents.insert row = some outboxEvents := by
  rcases Cuts.leave_cons n (.transaction [OutboxService.enqueue row]) [] db with
    hleave | ⟨db', hpoints, hresult, -⟩
  · exact Or.inl hleave
  · obtain ⟨outboxEvents, hinsert, -⟩ :=
      enqueue_ok.1 ((Cuts.writeAll_singleton _ db).symm.trans hresult)
    exact Or.inr ⟨outboxEvents, hpoints, hinsert⟩

theorem leave_enqueue_of_insert {row : AssetEventRow} {rows rows' : Table AssetEventRow.id}
    (tables : Tables) (hn : 2 ≤ n) (h : rows.insert row = some rows') :
    Cuts.leave n [.transaction [OutboxService.enqueue row]] ⟨tables, rows⟩ = ⟨tables, rows'⟩ := by
  have hresult : Cuts.Part.result (.transaction [OutboxService.enqueue row]) ⟨tables, rows⟩ =
      .ok ⟨tables, rows'⟩ :=
    (Cuts.writeAll_singleton _ _).trans (enqueue_ok.2 ⟨rows', h, rfl⟩)
  exact Cuts.leave_of_le hn hresult

/-- **A retirement that fails between its update and the commit of its event.** -/
theorem together_retire_iff (h : AssetService.retire db.tables assetId = .ok ()) :
    (retire assetId).Together call n db ↔
      n = 0 ∨ 3 ≤ n ∧ db.outboxEvents.find call.eventId = none := by
  by_cases hn : n = 0
  · subst hn
    refine iff_of_true (together_of_eq ?_) (Or.inl rfl)
    simp only [perform, tests_retire h]
    exact Cuts.leave_of_lt Nat.zero_lt_one
  · rw [Together, perform_retire hn h, or_iff_right hn]
    constructor
    · intro hiff
      rcases leave_enqueue (n - 1) ((retire assetId).eventRow call (.retired assetId))
        { db with tables := AssetDrizzleRepository.retire assetId call.now db.tables } with
        hleave | ⟨outboxEvents, hpoints, hinsert⟩
      · -- the asset is retired, and the transaction of its event leaves no trace
        rw [hleave] at hiff
        exact absurd (hiff.1 (changed_retire h)) (not_announced rfl)
      · exact ⟨Nat.add_le_of_le_sub (Nat.one_le_iff_ne_zero.2 hn) hpoints,
          (Table.insert_eq_some_iff.1 hinsert).1⟩
    · rintro ⟨hpoints, hnone⟩
      have hfree : db.outboxEvents.find
          ((retire assetId).eventRow call (.retired assetId)).id = none := hnone
      obtain ⟨outboxEvents, hinsert⟩ := Table.exists_insert hfree
      have hcommit : 2 ≤ n - 1 := by omega
      rw [leave_enqueue_of_insert _ hcommit hinsert]
      exact iff_of_true (changed_retire h) (announced_of_insert (tests_retire h) hinsert)

/-- **The asset and its event change together, unless a retirement fails after its update.** -/
theorem together_iff (op : AssetOperation) (call : AssetCall) (n : ℕ) (db : AssetDb) :
    op.Together call n db ↔ op.RetiresWhole call n db := by
  cases op with
  | assign assetId employeeId notes =>
    exact iff_of_true (together_assign assetId employeeId notes) fun _ heq => by cases heq
  | unassign assetId =>
    exact iff_of_true (together_unassign assetId) fun _ heq => by cases heq
  | retire assetId =>
    cases h : AssetService.retire db.tables assetId with
    | error e =>
      refine iff_of_true (together_of_eq ?_) fun assetId' heq hok => ?_
      · simp only [perform, tests, h]
        rfl
      · obtain rfl := AssetOperation.retire.inj heq
        rw [h] at hok
        cases hok
    | ok _ =>
      rw [together_retire_iff h]
      refine ⟨fun hwhole assetId' heq _ => hwhole, fun hwhole => hwhole assetId rfl h⟩

/-! ### A retirement without its event -/

/-- An asset in stock. -/
def inStock : AssetDb where
  tables := { Tables.empty with
    assets := ⟨[{ id := 1, assetTag := "LT-1", updatedAt := 0 }], List.nodup_singleton _⟩ }
  outboxEvents := Table.empty _

/-- **A process that dies between the two writes has retired the asset and told nobody.** -/
theorem not_together : ¬(retire 1).Together ⟨5, 2, 3⟩ 1 inStock := by
  rw [together_retire_iff rfl]
  simp

end AssetOperation

end OpsHub
