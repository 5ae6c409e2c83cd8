import OpsHub.Outbox.Relays

/-!
# In-app notifications

`NotificationSchedulerService.schedule`, which writes `notification_outbox`, and what
`NotificationRelayService.processRow` makes of a row of it: the preference of the recipient, the
texts of the template, and the insertion of `NotificationsService.send`.

* `Postgres.uuid`: the texts that a column of type `uuid` accepts;
* `renderNotification`: the templates;
* `NotificationsService.send`: the deduplication by `source_event_id`, and the insertion;
* `NotificationRelayService.environment`: the relay at work on a healthy database;
* `schedule_data`: the scheduler is the one that the request engine calls.
-/

namespace OpsHub

/-! ### UUIDs as text -/

namespace Postgres

/-- The value of a hexadecimal digit. -/
def hexDigit (c : Char) : Option ℕ :=
  if '0' ≤ c ∧ c ≤ '9' then some (c.toNat - '0'.toNat)
  else if 'a' ≤ c ∧ c ≤ 'f' then some (c.toNat - 'a'.toNat + 10)
  else if 'A' ≤ c ∧ c ≤ 'F' then some (c.toNat - 'A'.toNat + 10)
  else none

/-- The rest of a UUID of which `n` digits have been read; a single hyphen may follow every group
of four digits but the last. -/
def uuidDigits : List Char → (n : ℕ) → (hyphen : Bool) → (value : ℕ) → Option Uuid
  | [], n, hyphen, value => if n = 32 ∧ hyphen = false then some value else none
  | c :: cs, n, hyphen, value =>
    if c = '-' then
      if hyphen = false ∧ 0 < n ∧ n < 32 ∧ n % 4 = 0 then uuidDigits cs n true value else none
    else if n < 32 then (hexDigit c).bind fun d => uuidDigits cs (n + 1) false (value * 16 + d)
    else none

/-- The input function of the type `uuid`; braces may surround the digits. -/
def uuid (text : String) : Option Uuid :=
  match text.toList with
  | '{' :: cs => if cs.getLast? = some '}' then uuidDigits cs.dropLast 0 false 0 else none
  | cs => uuidDigits cs 0 false 0

example : uuid "\x7bA0EEBC999C0B4EF8-bb6d-6bb9bd380a11\x7d" =
    some 213916071241125512485712096724000442897 := by decide +kernel

end Postgres

/-! ### Templates -/

/-- `RenderedNotification`. -/
structure RenderedNotification where
  title : String
  body : String
  deriving DecidableEq, Repr

/-- The sentence that ends a text with a reason; an empty reason counts as none. -/
def reasonText (reason : Option String) : String :=
  match reason.filter (fun r => decide (r ≠ "")) with
  | some reason => " Reason: " ++ reason
  | none => ""

/-- A number that JSON may have lost. -/
def numberText (n : Option ℕ) : String := (n.map fun n => toString n).getD "null"

/-- `renderNotification`. -/
def renderNotification : Notification → RenderedNotification
  | .accessRequestSubmitted resourceName _ =>
    ⟨"Access request submitted",
      "Your request for access to \"" ++ resourceName ++ "\" is pending approval."⟩
  | .accessRequestApproved resourceName approverName =>
    ⟨"Access request approved ✓",
      approverName ++ " approved your request for \"" ++ resourceName ++ "\"."⟩
  | .accessRequestDenied resourceName approverName reason =>
    ⟨"Access request denied",
      approverName ++ " denied your request for \"" ++ resourceName ++ "\"." ++ reasonText reason⟩
  | .assetAssigned assetName assetTag =>
    ⟨"Asset assigned to you", assetName ++ " (" ++ assetTag ++ ") has been assigned to you."⟩
  | .assetUnassigned assetName assetTag =>
    ⟨"Asset unassigned", assetName ++ " (" ++ assetTag ++ ") has been unassigned from you."⟩
  | .employeeOffboarded employeeName =>
    ⟨"Offboarding complete",
      "The offboarding process for " ++ employeeName ++ " has been completed."⟩
  | .requestSlaBreach requestType requestId deadline =>
    ⟨"SLA breach warning",
      "Your " ++ requestType ++ " request (" ++ toString requestId ++
        ") has exceeded its SLA deadline of " ++ deadline ++ ". Please take action."⟩
  | .requestDelegationCreated delegatorName endsAt =>
    ⟨"Approval delegation received",
      delegatorName ++ " has delegated their approval authority to you until " ++ endsAt ++ "."⟩
  | .requestStepReady requestType _ completedStep nextStep totalSteps =>
    ⟨"Action required: " ++ requestType ++ " approval (step " ++ toString nextStep ++ "/" ++
        numberText totalSteps ++ ")",
      "Step " ++ toString completedStep ++
        " has been approved. Your review is now required (step " ++ toString nextStep ++ " of " ++
        numberText totalSteps ++ ")."⟩
  | .requestSubmitted requestType requestId requesterEmail =>
    ⟨"New " ++ requestType ++ " request awaiting review",
      requesterEmail ++ " submitted a " ++ requestType ++ " request (" ++ toString requestId ++
        ") that requires your approval."⟩
  | .requestApproved requestType requestId =>
    ⟨"Your " ++ requestType ++ " request was approved",
      "Your " ++ requestType ++ " request (" ++ toString requestId ++ ") has been approved."⟩
  | .requestRejected requestType requestId reason =>
    ⟨"Your " ++ requestType ++ " request was rejected",
      "Your " ++ requestType ++ " request (" ++ toString requestId ++ ") has been rejected." ++
        reasonText reason⟩

/-! ### Preferences -/

/-- A row of `notification_preferences`, with the channel that the relay asks for. -/
structure NotificationPreference where
  userId : Uuid
  type : String
  inApp : Bool
  deriving DecidableEq, Repr

/-- `NotificationPreferencesService.isInAppEnabled`: the row of the type, else the one of `*`, else
enabled. -/
def isInAppEnabled (preferences : List NotificationPreference) (userId : Uuid) (type : String) :
    Bool :=
  let rows := preferences.filter
    (fun p => decide (p.userId = userId ∧ (p.type = type ∨ p.type = "*")))
  match rows.find? (fun p => decide (p.type = type)) with
  | some specific => specific.inApp
  | none =>
    match rows.find? (fun p => decide (p.type = "*")) with
    | some wildcard => wildcard.inApp
    | none => true

/-! ### In-app notifications -/

/-- The text that a notification is deduplicated by: an idempotency key, or the id of a row. -/
inductive SourceEvent
  | key (text : String)
  | rowId (id : Uuid)
  deriving DecidableEq, Repr

/-- The UUID that the text stands for. -/
def SourceEvent.uuid : SourceEvent → Option Uuid
  | key text => Postgres.uuid text
  | rowId id => some id

/-- A row of `in_app_notifications`.  `outboxId` is not a column: it records, for the statements
about deliveries, the row of the outbox that the notification was sent for. -/
structure InAppNotification where
  id : Uuid
  recipientId : Uuid
  actorId : Option Uuid
  type : String
  title : String
  body : String
  resourceId : Option Uuid
  sourceEventId : Option Uuid
  outboxId : Uuid
  deriving DecidableEq, Repr

/-- What the relay works on besides the outbox. -/
structure NotificationWorld where
  inApp : List InAppNotification
  preferences : List NotificationPreference
  deriving DecidableEq, Repr

namespace NotificationDrizzleRepository

/-- The value of a parameter that is compared with a column of type `uuid`. -/
def uuidParameter (sourceEventId : SourceEvent) : Except String Uuid :=
  Outcome.orThrow "invalid input syntax for type uuid" sourceEventId.uuid

/-- `existsBySourceEventId`. -/
def existsBySourceEventId (rows : List InAppNotification) (sourceEventId : SourceEvent) :
    Except String Bool := do
  let id ← uuidParameter sourceEventId
  pure (rows.any fun n => decide (n.sourceEventId = some id))

/-- `defaultRandom()`: an id that no row has. -/
def newId (rows : List InAppNotification) : Uuid := (rows.map InAppNotification.id).foldr max 0 + 1

/-- `create`, with the types of the columns and the unique index on `source_event_id`. -/
def create (rows : List InAppNotification) (outboxId : Uuid) (data : NotificationOutboxRow)
    (sourceEventId : SourceEvent) : Except String InAppNotification := do
  let rendered := renderNotification data.notification
  let id ← uuidParameter sourceEventId
  Outcome.require (rendered.title.length ≤ 500) "value too long for type character varying(500)"
  Outcome.require (∀ n ∈ rows, n.sourceEventId ≠ some id)
    "duplicate key value violates unique constraint on in_app_notifications"
  pure
    { id := newId rows
      recipientId := data.recipientId
      actorId := data.actorId
      type := data.notification.type
      title := rendered.title
      body := rendered.body
      resourceId := data.resourceId
      sourceEventId := some id
      outboxId := outboxId }

end NotificationDrizzleRepository

/-- The test of `send`; an empty text counts as no source event. -/
def NotificationsService.delivered (rows : List InAppNotification) (sourceEventId : SourceEvent) :
    Except String Bool :=
  if sourceEventId = .key "" then .ok false
  else NotificationDrizzleRepository.existsBySourceEventId rows sourceEventId

/-- `NotificationsService.send`: the notification that it has inserted, if there is one. -/
def NotificationsService.send (rows : List InAppNotification) (outboxId : Uuid)
    (data : NotificationOutboxRow) (sourceEventId : SourceEvent) :
    Except String (Option InAppNotification) := do
  let delivered ← NotificationsService.delivered rows sourceEventId
  if delivered then pure none
  else
    let notification ← NotificationDrizzleRepository.create rows outboxId data sourceEventId
    pure (some notification)

/-! ### The relay -/

namespace NotificationRelayService

/-- `row.idempotencyKey ?? row.id`. -/
def sourceEvent (row : FetchedRow NotificationOutboxRow) : SourceEvent :=
  match row.data.idempotencyKey with
  | some key => .key key
  | none => .rowId row.id

/-- `processRow`; the post-commit task is the notification that it announces. -/
def processRow (row : FetchedRow NotificationOutboxRow) (world : NotificationWorld) :
    NotificationWorld × Except String (Option InAppNotification) :=
  if isInAppEnabled world.preferences row.data.recipientId row.data.notification.type then
    match NotificationsService.send world.inApp row.id row.data (sourceEvent row) with
    | .ok (some notification) =>
      ({ world with inApp := world.inApp ++ [notification] }, .ok (some notification))
    | .ok none => (world, .ok none)
    | .error e => (world, .error e)
  else (world, .ok none)

/-- The relay at work on a healthy database. -/
def environment (now : Time) :
    Environment NotificationOutboxRow NotificationWorld InAppNotification where
  processRow := processRow
  markSent _ := .ok ()
  markFailed _ := .ok ()
  commit := .ok ()
  markedAt _ := now

end NotificationRelayService

/-! ### The scheduler -/

namespace NotificationSchedulerService

/-- `schedule`, with the length of the column; a row whose id or whose key is taken is not
inserted. -/
def schedule (db : Outbox NotificationOutboxRow Unit) (input : NotificationOutboxRow) (newId : Uuid)
    (now : Time) : Except Failure (Outbox NotificationOutboxRow Unit) := do
  Outcome.require (∀ key ∈ input.idempotencyKey, key.length ≤ 255)
    (.error "value too long for type character varying(255)")
  if input.idempotencyKey ≠ none ∧
      ∃ r ∈ db.rows.rows, r.data.idempotencyKey = input.idempotencyKey then pure db
  else
    pure { db with
      rows := (db.rows.insert { id := newId, data := input, dueAt := now }).getD db.rows }

/-- **The scheduler of the request engine.**  What the engine's transactions do to the rows that
they schedule is what the scheduler does to the table. -/
theorem schedule_data {db db' : Outbox NotificationOutboxRow Unit} {input : NotificationOutboxRow}
    {newId : Uuid} {now : Time} (h : schedule db input newId now = .ok db')
    (hfresh : db.rows.find newId = none) :
    db'.rows.rows.map OutboxRow.data = OpsHub.schedule (db.rows.rows.map OutboxRow.data) input := by
  simp only [schedule, Except.bind_eq_ok_iff, Outcome.require_eq_ok_iff] at h
  obtain ⟨-, -, h⟩ := h
  obtain ⟨rows, hinsert⟩ := Table.exists_insert (t := db.rows)
    (r := { id := newId, data := input, dueAt := now }) hfresh
  rw [hinsert, Option.getD_some] at h
  have hrows := (Table.insert_eq_some_iff.1 hinsert).2
  cases hkey : input.idempotencyKey with
  | none =>
    rw [if_neg (by simp [hkey]), Except.pure_eq_ok_iff] at h
    rw [← h, hrows, List.map_append, OpsHub.schedule, hkey]
    rfl
  | some key =>
    rw [OpsHub.schedule, hkey]
    by_cases htaken : ∃ r ∈ db.rows.rows, r.data.idempotencyKey = some key
    · rw [if_pos ⟨by simp [hkey], by rwa [hkey]⟩, Except.pure_eq_ok_iff] at h
      have hany : (db.rows.rows.map OutboxRow.data).any
          (fun r => decide (r.idempotencyKey = some key)) = true := by
        simpa [List.any_eq_true] using htaken
      rw [← h]
      simp only [hany, if_true]
    · rw [if_neg (by rw [hkey]; exact fun hboth => htaken hboth.2), Except.pure_eq_ok_iff] at h
      have hnone : (db.rows.rows.map OutboxRow.data).any
          (fun r => decide (r.idempotencyKey = some key)) = false := by
        simpa [List.any_eq_false] using htaken
      rw [← h, hrows, List.map_append]
      simp only [hnone, Bool.false_eq_true, if_false]
      rfl

end NotificationSchedulerService

end OpsHub
