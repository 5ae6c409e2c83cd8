import Mathlib.Data.List.Sort
import OpsHub.Requests.Concurrent

/-!
# The SLA report

`SlaBreachCron` marks open requests whose deadline has passed, a hundred at a time, and
`ReportsService.getRequestSlaCompliance` counts a decided request as within its SLA if it has no
mark.

* `findBreached`, `mark`: the query of a tick and its transactions, one for each row;
* `State`, `step`: ticks and calls of the engine, statement by statement;
* `Exact`: a decided request has a mark exactly if it was decided after its deadline;
* `getRequestSlaCompliance`; `ReportExact`: it counts the requests that were decided in time;
* `Timely`: the condition on a step;
* `always_exact_iff`: the marks and the report are exact throughout exactly the timely runs;
* `not_exact`: a late decision that comes before the next tick.
-/

namespace OpsHub

variable {π σ : Type}

/-! ### The cron -/

/-- A row that a tick has selected. -/
structure BreachedRow where
  id : Uuid
  type : String
  requesterId : Uuid
  slaDeadline : Time
  deriving DecidableEq, Repr

namespace SlaBreachCron

/-- The row that a tick selects of an open request without a mark whose deadline has passed. -/
def breachedRow (now : Time) (r : RequestItem π) : Option BreachedRow :=
  if r.status.Open ∧ r.slaBreachedAt = none then
    (r.slaDeadline.filter fun d => decide (d ≤ now)).map fun d =>
      ⟨r.id, r.type, r.requesterId, d⟩
  else none

/-- The query of a tick, with the order in which the database returns its rows. -/
def findBreached (now : Time) (place : Uuid → ℕ) (db : Db π σ) : List BreachedRow :=
  ((db.requestItems.rows.filterMap (breachedRow now)).insertionSort
    (fun a b => place a.id ≤ place b.id)).take 100

/-- The notification of a breach. -/
def breachNotification (toISOString : Time → String) (row : BreachedRow) :
    NotificationOutboxRow where
  recipientId := row.requesterId
  actorId := none
  notification := .requestSlaBreach row.type row.id (toISOString row.slaDeadline)
  resourceId := some row.id
  idempotencyKey := some ("sla_breach:" ++ toString row.id)

/-- The transaction for a row; it finds the request by its id alone. -/
def mark (toISOString : Time → String) (now : Time) (row : BreachedRow) (db : Db π σ) : Db π σ :=
  RequestEngine.notify
    { db with
      requestItems := db.requestItems.update row.id (fun r => { r with slaBreachedAt := some now })
        fun _ => rfl }
    (some (breachNotification toISOString row))

end SlaBreachCron

/-! ### The report -/

/-- `SlaComplianceRow`; the rate is in tenths of a percent. -/
structure SlaComplianceRow where
  type : String
  totalWithSla : ℕ
  resolved : ℕ
  withinSla : ℕ
  breached : ℕ
  complianceRatePct : Option ℕ
  deriving DecidableEq, Repr

/-- The parameters of a report. -/
structure ReportParams where
  start : Time
  stop : Time
  type : Option String := none
  deriving DecidableEq, Repr

/-- The request is approved or rejected. -/
def RequestItem.Resolved (r : RequestItem π) : Prop := r.status = .approved ∨ r.status = .rejected

instance (r : RequestItem π) : Decidable r.Resolved := inferInstanceAs (Decidable (_ ∨ _))

namespace ReportsService

/-- The requests with an SLA that a report is about; an empty type is none. -/
def conditions (params : ReportParams) (r : RequestItem π) : Bool :=
  decide (params.start ≤ r.submittedAt ∧ r.submittedAt ≤ params.stop) && r.slaHours.isSome &&
    (params.type.filter fun t => decide (t ≠ "")).all fun t => decide (r.type = t)

/-- The row of a group of requests. -/
def complianceRow (type : String) (group : List (RequestItem π)) : SlaComplianceRow :=
  let resolved := group.countP fun r => decide r.Resolved
  let withinSla := group.countP fun r => decide (r.Resolved ∧ r.slaBreachedAt = none)
  { type := type
    totalWithSla := group.length
    resolved := resolved
    withinSla := withinSla
    breached := group.countP fun r => r.slaBreachedAt.isSome
    complianceRatePct :=
      if resolved = 0 then none else some ((2000 * withinSla + resolved) / (2 * resolved)) }

/-- The requests of one type in a report. -/
def group (params : ReportParams) (db : Db π σ) (type : String) : List (RequestItem π) :=
  db.requestItems.rows.filter fun r => conditions params r && decide (r.type = type)

/-- `ReportsService.getRequestSlaCompliance`. -/
def getRequestSlaCompliance (params : ReportParams) (db : Db π σ) : List SlaComplianceRow :=
  ((((db.requestItems.rows.filter (conditions params)).map RequestItem.type).eraseDups).insertionSort
    (· ≤ ·)).map fun type => complianceRow type (group params db type)

end ReportsService

/-! ### Runs -/

namespace SlaBreach

open RequestEngine SlaBreachCron ReportsService Runs

/-- A tick that has selected its rows, with those that it has yet to mark. -/
structure Tick where
  now : Time
  rows : List BreachedRow
  deriving DecidableEq, Repr

/-- The engine, and the ticks under way. -/
structure State (π σ : Type) where
  engine : Concurrent.State π σ
  ticks : List Tick

/-- No request, no call in flight and no tick under way. -/
def State.initial (subscriptions : List WebhookSubscription) (tables : TxTables σ) : State π σ :=
  ⟨Concurrent.State.initial subscriptions tables, []⟩

/-- What can happen. -/
inductive Event (π : Type)
  | engine (e : Concurrent.Event π)
  | tick (now : Time) (place : Uuid → ℕ)
  /-- The `i`-th tick comes to its next row; its transaction may fail. -/
  | mark (i : ℕ) (ok : Bool)

/-- The state after one event. -/
def step (registry : RequestRegistry π σ) (toISOString : Time → String) (s : State π σ) :
    Event π → State π σ
  | .engine e => { s with engine := Concurrent.step registry s.engine e }
  | .tick now place => { s with ticks := s.ticks ++ [⟨now, findBreached now place s.engine.db⟩] }
  | .mark i ok =>
    match s.ticks[i]? with
    | some ⟨now, row :: rows⟩ =>
      { engine :=
          if ok then { s.engine with db := SlaBreachCron.mark toISOString now row s.engine.db }
          else s.engine
        ticks := s.ticks.set i ⟨now, rows⟩ }
    | _ => s

/-- The request was decided by the deadline. -/
def DecidedBy (d : Time) (r : RequestItem π) : Prop := ∃ t ∈ r.resolvedAt, t ≤ d

instance (d : Time) (r : RequestItem π) : Decidable (DecidedBy d r) :=
  inferInstanceAs (Decidable (∃ t ∈ r.resolvedAt, t ≤ d))

/-- A decided request with a deadline has no mark exactly if it was decided by its deadline. -/
def Exact (r : RequestItem π) : Prop :=
  r.Resolved → ∀ d ∈ r.slaDeadline, (r.slaBreachedAt = none ↔ DecidedBy d r)

instance (r : RequestItem π) : Decidable (Exact r) :=
  inferInstanceAs (Decidable (_ → ∀ d ∈ r.slaDeadline, (_ ↔ _)))

/-- A decided request was decided in time, if it has a deadline. -/
def InTime (r : RequestItem π) : Prop := r.Resolved ∧ ∀ d ∈ r.slaDeadline, DecidedBy d r

instance (r : RequestItem π) : Decidable (InTime r) :=
  inferInstanceAs (Decidable (_ ∧ ∀ d ∈ r.slaDeadline, _))

/-- Every report counts, for every type, the requests that were decided in time. -/
def ReportExact (db : Db π σ) : Prop :=
  ∀ params, ∀ row ∈ getRequestSlaCompliance params db,
    row.withinSla = (group params db row.type).countP fun r => decide (InTime r)

/-- The marks and the reports are exact. -/
structure SlaExact (s : State π σ) : Prop where
  marks : ∀ r ∈ s.engine.db.requestItems.rows, Exact r
  report : ReportExact s.engine.db

/-! ### The condition -/

/-- Whether the transaction of a call on this copy decides the request. -/
def decides (registry : RequestRegistry π σ) (request : RequestItem π) :
    Concurrent.Operation → Bool
  | .approve _ _ => (registry request.type).any fun typeDef => isFinalStep typeDef request.currentStep
  | .reject _ _ => true
  | .cancel _ => false
  | .expire => false

/-- The request that an event decides, and when. -/
def State.deciding (registry : RequestRegistry π σ) (s : State π σ) : Event π → Option (Uuid × Time)
  | .engine (.commit i now env) =>
    match s.engine.calls[i]? with
    | some ⟨operation, .checked request delegation _⟩ =>
      match operation.tx registry request delegation now env s.engine.db with
      | .ok _ => if decides registry request operation then some (request.id, now) else none
      | .error _ => none
    | _ => none
  | _ => none

/-- The request that an event marks. -/
def State.marking (s : State π σ) : Event π → Option Uuid
  | .mark i true => (s.ticks[i]?).bind fun tick => tick.rows.head?.map BreachedRow.id
  | _ => none

/-- A decision after the deadline finds the mark of a tick, and one by the deadline does not; and
no tick marks a request that has been decided by its deadline. -/
structure Timely (registry : RequestRegistry π σ) (s : State π σ) (e : Event π) : Prop where
  decision : ∀ x ∈ s.deciding registry e, ∀ r ∈ s.engine.db.requestItems.find x.1,
    ∀ d ∈ r.slaDeadline, (r.slaBreachedAt = none ↔ x.2 ≤ d)
  mark : ∀ id ∈ s.marking e, ∀ r ∈ s.engine.db.requestItems.find id,
    r.Resolved → ∀ d ∈ r.slaDeadline, ¬ DecidedBy d r

instance (registry : RequestRegistry π σ) (s : State π σ) (e : Event π) :
    Decidable (Timely registry s e) :=
  decidable_of_iff
    ((∀ x ∈ s.deciding registry e, ∀ r ∈ s.engine.db.requestItems.find x.1,
        ∀ d ∈ r.slaDeadline, (r.slaBreachedAt = none ↔ x.2 ≤ d)) ∧
      ∀ id ∈ s.marking e, ∀ r ∈ s.engine.db.requestItems.find id,
        r.Resolved → ∀ d ∈ r.slaDeadline, ¬ DecidedBy d r)
    ⟨fun h => ⟨h.1, h.2⟩, fun h => ⟨h.decision, h.mark⟩⟩

/-! ### What a step can do -/

/-- What a step can do to the requests: it decides `deciding`, or it marks `marking`. -/
inductive Moves (deciding : Option (Uuid × Time)) (marking : Option Uuid)
    (t t' : Table (@RequestItem.id π)) : Prop
  | quiet (h : t' = t) (hdeciding : deciding = none) (hmarking : marking = none)
  | submitted {row : RequestItem π} (h : t.insert row = some t') (hopen : ¬ row.Resolved)
      (hunmarked : row.slaBreachedAt = none) (hdeciding : deciding = none)
      (hmarking : marking = none)
  | decided {id : Uuid} {now : Time} {f : RequestItem π → RequestItem π} (hf : ∀ r, (f r).id = r.id)
      (h : t' = t.update id f hf)
      (hkept : ∀ r, (f r).slaDeadline = r.slaDeadline ∧ (f r).slaBreachedAt = r.slaBreachedAt)
      (hresolved : ∀ r, (f r).Resolved ∧ (f r).resolvedAt = some now)
      (hdeciding : deciding = some (id, now)) (hmarking : marking = none)
  | moved {id : Uuid} {f : RequestItem π → RequestItem π} (hf : ∀ r, (f r).id = r.id)
      (h : t' = t.update id f hf)
      (hkept : ∀ r, (f r).slaDeadline = r.slaDeadline ∧ (f r).slaBreachedAt = r.slaBreachedAt)
      (hopen : ∀ r, ¬ (f r).Resolved) (hdeciding : deciding = none) (hmarking : marking = none)
  | marked {id : Uuid} {now : Time}
      (h : t' = t.update id (fun r => { r with slaBreachedAt := some now }) fun _ => rfl)
      (hdeciding : deciding = none) (hmarking : marking = some id)

section Steps

variable {registry : RequestRegistry π σ} {toISOString : Time → String} {s : State π σ}
  {e : Event π} {deciding : Option (Uuid × Time)} {marking : Option Uuid}
  {t t' : Table (@RequestItem.id π)} {request row r : RequestItem π}
  {operation : Concurrent.Operation} {delegation : Option ApprovalDelegation} {now : Time}
  {env : HookEnv} {db db' : Db π σ}

/-- A committed transaction updates the request, and leaves deadline and mark as they are. -/
theorem moves_of_tx (h : operation.tx registry request delegation now env db = .ok (db', row)) :
    Moves (if decides registry request operation then some (request.id, now) else none) none
      db.requestItems db'.requestItems := by
  cases operation with
  | approve note actor =>
    obtain ⟨typeDef, hdef, ⟨hfinal, hc⟩ | ⟨hfinal, nextAssigneeId, hc⟩⟩ := approveTx_ok h
    · exact .decided _ hc.requestItems (fun _ => ⟨rfl, rfl⟩) (fun _ => ⟨Or.inl rfl, rfl⟩)
        (by simp [decides, hdef, hfinal, finalApproval]) rfl
    · exact .moved _ hc.requestItems (fun _ => ⟨rfl, rfl⟩)
        (fun _ => by simp [RequestItem.Resolved, stepApproval]) (by simp [decides, hdef, hfinal]) rfl
  | reject note actor =>
    obtain ⟨typeDef, -, hrun⟩ := rejectTx_eq_ok_iff.1 h
    exact .decided _ (Transition.run_ok hrun).requestItems (fun _ => ⟨rfl, rfl⟩)
      (fun _ => ⟨Or.inr rfl, rfl⟩) (by simp [decides, rejection]) rfl
  | cancel actor =>
    obtain ⟨typeDef, -, hrun⟩ := cancelTx_eq_ok_iff.1 h
    exact .moved _ (Transition.run_ok hrun).requestItems (fun _ => ⟨rfl, rfl⟩)
      (fun _ => by simp [RequestItem.Resolved, cancellation]) (by simp [decides]) rfl
  | expire =>
    obtain ⟨typeDef, -, hrun⟩ := expireTx_eq_ok_iff.1 h
    exact .moved _ (Transition.run_ok hrun).requestItems (fun _ => ⟨rfl, rfl⟩)
      (fun _ => by simp [RequestItem.Resolved, expiration]) (by simp [decides]) rfl

/-- A step of the engine. -/
theorem moves_engine (registry : RequestRegistry π σ) (toISOString : Time → String)
    (s : State π σ) (e : Concurrent.Event π) :
    Moves (s.deciding registry (.engine e)) none s.engine.db.requestItems
      (step registry toISOString s (.engine e)).engine.db.requestItems := by
  cases e with
  | submit type payload actor opts now newId env =>
    rcases Concurrent.step_cases registry s.engine
        (.submit type payload actor opts now newId env) with ⟨hdb, -⟩ |
      ⟨⟨_, _, _, _, _, _, _, _, -, hs⟩, -⟩ | ⟨_, _, _, _, _, _, _, heq, -⟩
    · exact .quiet (congrArg Db.requestItems hdb) rfl rfl
    · obtain ⟨typeDef, -, hrow⟩ := hs.row_eq
      refine .submitted hs.requestItems ?_ ?_ rfl rfl
      · rw [hrow]
        rintro (hr | hr) <;> cases hr
      · rw [hrow]
        rfl
    · cases heq
  | read requestId operation =>
    refine .quiet ?_ rfl rfl
    simp only [step, Concurrent.step]
    split <;> rfl
  | check i view =>
    refine .quiet ?_ rfl rfl
    simp only [step, Concurrent.step]
    split
    · split <;> rfl
    · rfl
  | commit i now env =>
    simp only [State.deciding, step, Concurrent.step]
    cases s.engine.calls[i]? with
    | none => exact .quiet rfl rfl rfl
    | some call =>
      obtain ⟨operation, phase⟩ := call
      cases phase with
      | read request => exact .quiet rfl rfl rfl
      | finished => exact .quiet rfl rfl rfl
      | checked request delegation view =>
        dsimp only
        cases htx : operation.tx registry request delegation now env s.engine.db with
        | error failure => exact .quiet rfl rfl rfl
        | ok res => exact moves_of_tx htx

/-- **What a step can do.** -/
theorem moves_step (registry : RequestRegistry π σ) (toISOString : Time → String) (s : State π σ)
    (e : Event π) : Moves (s.deciding registry e) (s.marking e) s.engine.db.requestItems
      (step registry toISOString s e).engine.db.requestItems := by
  cases e with
  | engine e => exact moves_engine registry toISOString s e
  | tick now place => exact .quiet rfl rfl rfl
  | mark i ok =>
    simp only [step]
    cases htick : s.ticks[i]? with
    | none => exact .quiet rfl rfl (by cases ok <;> simp [State.marking, htick])
    | some tick =>
      obtain ⟨now, rows⟩ := tick
      cases rows with
      | nil => exact .quiet rfl rfl (by cases ok <;> simp [State.marking, htick])
      | cons row rows =>
        cases ok with
        | false => exact .quiet rfl rfl rfl
        | true =>
          have hmarking : s.marking (.mark i true) = some row.id := by simp [State.marking, htick]
          exact @Moves.marked _ _ _ _ _ row.id now (by simp [SlaBreachCron.mark]) rfl hmarking

/-- The marks after a step. -/
theorem Moves.exact_iff (h : Moves deciding marking t t') (ht : ∀ r ∈ t.rows, Exact r) :
    (∀ r ∈ t'.rows, Exact r) ↔
      (∀ x ∈ deciding, ∀ r ∈ t.find x.1, ∀ d ∈ r.slaDeadline, (r.slaBreachedAt = none ↔ x.2 ≤ d)) ∧
        ∀ id ∈ marking, ∀ r ∈ t.find id, r.Resolved → ∀ d ∈ r.slaDeadline, ¬ DecidedBy d r := by
  cases h with
  | quiet h hdeciding hmarking =>
    subst h hdeciding hmarking
    exact iff_of_true ht ⟨nofun, nofun⟩
  | submitted h hopen hunmarked hdeciding hmarking =>
    subst hdeciding hmarking
    refine iff_of_true (Table.forall_mem_insert h ht fun hresolved => ?_) ⟨nofun, nofun⟩
    exact absurd hresolved hopen
  | decided hf h hkept hresolved hdeciding hmarking =>
    subst h hdeciding hmarking
    rw [Table.forall_mem_update_iff ht]
    refine Iff.trans ?_ (and_iff_left nofun).symm
    simp only [Option.mem_some_iff, forall_eq']
    refine forall₂_congr fun r _ => ?_
    simp [Exact, DecidedBy, hkept r, hresolved r]
  | moved hf h hkept hopen hdeciding hmarking =>
    subst h hdeciding hmarking
    rw [Table.forall_mem_update_iff ht]
    exact iff_of_true (fun r _ hresolved => absurd hresolved (hopen r)) ⟨nofun, nofun⟩
  | marked h hdeciding hmarking =>
    subst h hdeciding hmarking
    rw [Table.forall_mem_update_iff ht]
    refine Iff.trans ?_ (and_iff_right nofun).symm
    simp only [Option.mem_some_iff, forall_eq']
    refine forall₂_congr fun r _ => ?_
    simp [Exact, RequestItem.Resolved, DecidedBy]

/-! ### What ticks have seen -/

/-- Marks are on requests with a deadline, and so are the rows that a tick has selected. -/
structure Seen (s : State π σ) : Prop where
  marked : ∀ r ∈ s.engine.db.requestItems.rows, r.slaBreachedAt ≠ none → r.slaDeadline ≠ none
  selected : ∀ tick ∈ s.ticks, ∀ row ∈ tick.rows,
    ∃ r, s.engine.db.requestItems.find row.id = some r ∧ r.slaDeadline ≠ none

/-- A request keeps its deadline. -/
theorem Moves.find (h : Moves deciding marking t t') {id : Uuid} (hr : t.find id = some r) :
    ∃ r', t'.find id = some r' ∧ r'.slaDeadline = r.slaDeadline := by
  have hupdate {k : Uuid} {f : RequestItem π → RequestItem π} (hf : ∀ r, (f r).id = r.id)
      (hkept : ∀ r, (f r).slaDeadline = r.slaDeadline) :
      ∃ r', (t.update k f hf).find id = some r' ∧ r'.slaDeadline = r.slaDeadline := by
    by_cases hk : id = k
    · subst hk
      exact ⟨f r, by rw [Table.find_update_self, hr]; rfl, hkept r⟩
    · exact ⟨r, by rw [Table.find_update_ne t hk, hr], rfl⟩
  cases h with
  | quiet h => exact ⟨r, h ▸ hr, rfl⟩
  | submitted h => exact ⟨r, Table.find_insert_of_find h hr, rfl⟩
  | decided hf h hkept => exact h ▸ hupdate hf fun r => (hkept r).1
  | moved hf h hkept => exact h ▸ hupdate hf fun r => (hkept r).1
  | marked h => exact h ▸ hupdate _ fun _ => rfl

/-- Only requests with a deadline get a mark. -/
theorem Moves.marked_of_deadline (h : Moves deciding marking t t')
    (ht : ∀ r ∈ t.rows, r.slaBreachedAt ≠ none → r.slaDeadline ≠ none)
    (hmark : ∀ id ∈ marking, ∀ r ∈ t.find id, r.slaDeadline ≠ none) :
    ∀ r ∈ t'.rows, r.slaBreachedAt ≠ none → r.slaDeadline ≠ none := by
  have hupdate {k : Uuid} {f : RequestItem π → RequestItem π} {hf : ∀ r, (f r).id = r.id}
      (hkept : ∀ r, (f r).slaDeadline = r.slaDeadline ∧ (f r).slaBreachedAt = r.slaBreachedAt) :
      ∀ r ∈ (t.update k f hf).rows, r.slaBreachedAt ≠ none → r.slaDeadline ≠ none := by
    refine (Table.forall_mem_update_iff ht).2 fun r hr => ?_
    rw [(hkept r).1, (hkept r).2]
    exact ht r (Table.mem_of_find hr)
  cases h with
  | quiet h => exact h ▸ ht
  | submitted h hopen hunmarked =>
    intro r hr hne
    rcases (Table.mem_insert h).1 hr with hr | rfl
    · exact ht r hr hne
    · exact absurd hunmarked hne
  | decided hf h hkept => exact h ▸ hupdate hkept
  | moved hf h hkept => exact h ▸ hupdate hkept
  | marked h _ hmarking =>
    rw [h]
    exact (Table.forall_mem_update_iff ht).2 fun r hr _ => hmark _ hmarking r hr

theorem mem_findBreached {place : Uuid → ℕ} {b : BreachedRow} (h : b ∈ findBreached now place db) :
    ∃ r, db.requestItems.find b.id = some r ∧ r.slaDeadline ≠ none := by
  have hmem := (List.mem_insertionSort _).1 (List.mem_of_mem_take h)
  obtain ⟨r, hr, hrow⟩ := List.mem_filterMap.1 hmem
  simp only [breachedRow] at hrow
  split at hrow
  · obtain ⟨d, hd, rfl⟩ := Option.map_eq_some_iff.1 hrow
    refine ⟨r, Table.find_of_mem hr, fun hnone => ?_⟩
    rw [hnone] at hd
    cases hd
  · cases hrow

theorem seen_step (h : Seen s) : Seen (step registry toISOString s e) := by
  have hmoves := moves_step registry toISOString s e
  refine ⟨hmoves.marked_of_deadline h.marked fun id hid r hr => ?_, fun tick htick row hrow => ?_⟩
  · -- the row that is marked has been selected
    cases e with
    | engine e => cases hid
    | tick now place => cases hid
    | mark i ok =>
      cases ok with
      | false => cases hid
      | true =>
        obtain ⟨tick, htick, hhead⟩ := Option.bind_eq_some_iff.1 hid
        obtain ⟨row, hrow, rfl⟩ := Option.map_eq_some_iff.1 hhead
        obtain ⟨r', hr', hne⟩ :=
          h.selected tick (List.mem_of_getElem? htick) row (List.mem_of_head? hrow)
        rw [← Option.some.inj (hr'.symm.trans hr)]
        exact hne
  · have hold : (∃ tick ∈ s.ticks, row ∈ tick.rows) ∨
        ∃ r, s.engine.db.requestItems.find row.id = some r ∧ r.slaDeadline ≠ none := by
      cases e with
      | engine e => exact Or.inl ⟨tick, htick, hrow⟩
      | tick now place =>
        rcases List.mem_append.1 htick with htick | htick
        · exact Or.inl ⟨tick, htick, hrow⟩
        · rw [List.mem_singleton.1 htick] at hrow
          exact Or.inr (mem_findBreached hrow)
      | mark i ok =>
        simp only [step] at htick
        split at htick
        · rename_i now first rows hget
          rcases List.mem_or_eq_of_mem_set htick with htick | rfl
          · exact Or.inl ⟨tick, htick, hrow⟩
          · exact Or.inl ⟨_, List.mem_of_getElem? hget, List.mem_cons_of_mem first hrow⟩
        · exact Or.inl ⟨tick, htick, hrow⟩
    obtain ⟨r, hr, hne⟩ : ∃ r, s.engine.db.requestItems.find row.id = some r ∧
        r.slaDeadline ≠ none := by
      rcases hold with ⟨tick, htick, hrow⟩ | hfound
      · exact h.selected tick htick row hrow
      · exact hfound
    obtain ⟨r', hr', hdeadline⟩ := hmoves.find hr
    exact ⟨r', hr', hdeadline ▸ hne⟩

/-! ### The report -/

/-- **With exact marks the report is exact.** -/
theorem reportExact_of_marks (hmarks : ∀ r ∈ db.requestItems.rows, Exact r)
    (hmarked : ∀ r ∈ db.requestItems.rows, r.slaBreachedAt ≠ none → r.slaDeadline ≠ none) :
    ReportExact db := by
  intro params row hrow
  obtain ⟨type, -, rfl⟩ := List.mem_map.1 hrow
  refine List.countP_congr fun r hr => ?_
  have hrow := List.mem_of_mem_filter hr
  rw [decide_eq_true_iff, decide_eq_true_iff]
  refine and_congr_right fun hresolved => ?_
  cases hdeadline : r.slaDeadline with
  | none =>
    have hunmarked : r.slaBreachedAt = none := by
      by_contra hne
      exact hmarked r hrow hne hdeadline
    exact iff_of_true hunmarked nofun
  | some d => simpa using hmarks r hrow hresolved d hdeadline

theorem slaExact_step_iff (hseen : Seen s) (hs : SlaExact s) :
    SlaExact (step registry toISOString s e) ↔ Timely registry s e := by
  have hiff := (moves_step registry toISOString s e).exact_iff hs.marks
  constructor
  · intro h
    obtain ⟨hdecision, hmark⟩ := hiff.1 h.marks
    exact ⟨hdecision, hmark⟩
  · intro h
    have hmarks := hiff.2 ⟨h.decision, h.mark⟩
    exact ⟨hmarks, reportExact_of_marks hmarks (seen_step hseen).marked⟩

end Steps

/-- **The SLA report.**  In every state of a run the marks of the decided requests, and with them
the reports, are exact, if and only if every step is timely. -/
theorem always_exact_iff (registry : RequestRegistry π σ) (toISOString : Time → String)
    (subscriptions : List WebhookSubscription) (tables : TxTables σ) (es : List (Event π)) :
    (∀ fs, fs <+: es →
        SlaExact (run (step registry toISOString) (State.initial subscriptions tables) fs)) ↔
      Meets (step registry toISOString) (Timely registry) (State.initial subscriptions tables)
        es := by
  have hseen : Seen (State.initial subscriptions tables : State π σ) :=
    ⟨fun _ hr => absurd hr List.not_mem_nil, fun _ htick => absurd htick List.not_mem_nil⟩
  have hexact : SlaExact (State.initial subscriptions tables : State π σ) := by
    have hrows : ∀ r ∈ (State.initial subscriptions tables : State π σ).engine.db.requestItems.rows,
        Exact r := fun _ hr => absurd hr List.not_mem_nil
    exact ⟨hrows, reportExact_of_marks hrows hseen.marked⟩
  exact @always_iff_meets_of _ _ (step registry toISOString) (Timely registry) (fun _ => True) Seen
    SlaExact (fun _ _ _ hseen hs => slaExact_step_iff hseen hs)
    (fun _ _ _ hseen _ _ => seen_step hseen) _ _ (fun _ _ => trivial) hseen hexact

/-! ### Late decisions -/

namespace Sample

/-- A type with an SLA of an hour. -/
def typeDef : RequestTypeDef Unit Unit where
  type := "leave_request"
  requiredApprovalPermission := "workforce.leave.review"
  slaHours := some 1
  onApprove := fun _ _ _ => Hook.skip

def registry : RequestRegistry Unit Unit := fun type =>
  if type = "leave_request" then some typeDef else none

/-- User 2 may do everything. -/
def view (now : Time) : AuthzView where
  check user _ := decide (user = 2)
  delegations := []
  now := now

/-- User 1 requests leave at 0. -/
def submission : List (Event Unit) :=
  [.engine (.submit "leave_request" () ⟨1, "user1@example.com"⟩ {} 0 5 ⟨0, 0⟩)]

/-- User 2 approves. -/
def approval (now : Time) : List (Event Unit) :=
  [.engine (.read 5 (.approve none ⟨2, "user2@example.com"⟩)), .engine (.check 0 (view now)),
    .engine (.commit 0 now ⟨now, 0⟩)]

/-- A tick of the cron. -/
def ticked (now : Time) : List (Event Unit) := [.tick now id, .mark 0 true]

/-- The approval comes five minutes after the deadline and before a tick. -/
def late : List (Event Unit) := submission ++ approval 3900000 ++ ticked 4000000

/-- The state after a run. -/
def after (es : List (Event Unit)) : State Unit Unit :=
  run (step registry toString) (State.initial [] ⟨[], ()⟩) es

/-- The late approval is without a mark, and the report counts it. -/
theorem not_exact :
    ¬ SlaExact (after late) ∧ (getRequestSlaCompliance ⟨0, 100, none⟩ (after late).engine.db).map
      (fun row => (row.resolved, row.withinSla, row.complianceRatePct)) = [(1, 1, some 1000)] := by
  refine ⟨fun h => ?_, by decide +kernel⟩
  have hmarks : ¬ ∀ r ∈ (after late).engine.db.requestItems.rows, Exact r := by decide +kernel
  exact hmarks h.marks

/-- A tick after the deadline, and then the approval. -/
def orderly : List (Event Unit) := submission ++ ticked 3700000 ++ approval 3900000

example : Meets (step registry toString) (Timely registry) (State.initial [] ⟨[], ()⟩) orderly := by
  decide +kernel

end Sample

end SlaBreach

end OpsHub
