import OpsHub.Domain.Tables
import OpsHub.Lib.GroupBy
import OpsHub.Requests.SlaBreach

/-!
# The reports on requests

`ReportsService` groups the requests of a period by type and status, by type, and by day.

* `getRequestSummary`, `getRequestCycleTime`, `getRequestQueueDepth`, `getRequestThroughput`: the
  queries, beside `getRequestSlaCompliance`;
* `Answered`: an approved or rejected request has a time of resolution; `answered_step`: calls and
  ticks, statement by statement, keep that;
* `Reconciled`: the reports of one period count the same requests;
* `reports_reconcile`: so they do in every state of a run, for every order of texts, whatever the
  database takes for a day and for a median.
-/

namespace OpsHub

variable {π σ : Type}

/-! ### The queries -/

/-- The order of texts in the database. -/
structure Collation where
  le : String → String → Prop
  decidable : DecidableRel le
  total : ∀ a b, le a b ∨ le b a
  trans : ∀ a b c, le a b → le b c → le a c
  antisymm : ∀ a b, le a b → le b a → a = b

/-- The order of the code points is one. -/
instance : Inhabited Collation :=
  ⟨⟨(· ≤ ·), inferInstance, String.le_total, fun _ _ _ => String.le_trans,
    fun _ _ => String.le_antisymm⟩⟩

instance (c : Collation) : DecidableRel c.le := c.decidable

instance (c : Collation) : Std.Total c.le := ⟨c.total⟩

instance (c : Collation) : IsTrans String c.le := ⟨c.trans⟩

/-- The place of a value in `request_status`. -/
def RequestStatus.place : RequestStatus → ℕ
  | .pending => 0
  | .inReview => 1
  | .approved => 2
  | .rejected => 3
  | .cancelled => 4
  | .expired => 5

/-- `ORDER BY type, status`. -/
def Collation.leStatus (c : Collation) (a b : String × RequestStatus) : Prop :=
  (a.1 ≠ b.1 ∧ c.le a.1 b.1) ∨ a.1 = b.1 ∧ a.2.place ≤ b.2.place

instance (c : Collation) : DecidableRel c.leStatus := fun a b =>
  inferInstanceAs (Decidable ((a.1 ≠ b.1 ∧ c.le a.1 b.1) ∨ a.1 = b.1 ∧ a.2.place ≤ b.2.place))

theorem Collation.leStatus_total (c : Collation) (a b : String × RequestStatus) :
    c.leStatus a b ∨ c.leStatus b a := by
  by_cases h : a.1 = b.1
  · rcases Nat.le_total a.2.place b.2.place with hp | hp
    · exact Or.inl (Or.inr ⟨h, hp⟩)
    · exact Or.inr (Or.inr ⟨h.symm, hp⟩)
  · rcases c.total a.1 b.1 with hle | hle
    · exact Or.inl (Or.inl ⟨h, hle⟩)
    · exact Or.inr (Or.inl ⟨Ne.symm h, hle⟩)

theorem Collation.leStatus_trans (c : Collation) {a b d : String × RequestStatus}
    (h : c.leStatus a b) (h' : c.leStatus b d) : c.leStatus a d := by
  rcases h with ⟨hne, hle⟩ | ⟨heq, hp⟩ <;> rcases h' with ⟨hne', hle'⟩ | ⟨heq', hp'⟩
  · -- equal ends would make all three texts equal
    refine Or.inl ⟨fun had => hne (c.antisymm _ _ hle ?_), c.trans _ _ _ hle hle'⟩
    rw [had]
    exact hle'
  · exact Or.inl ⟨heq' ▸ hne, heq' ▸ hle⟩
  · exact Or.inl ⟨heq ▸ hne', heq ▸ hle'⟩
  · exact Or.inr ⟨heq.trans heq', hp.trans hp'⟩

instance (c : Collation) : Std.Total c.leStatus := ⟨c.leStatus_total⟩

instance (c : Collation) : IsTrans (String × RequestStatus) c.leStatus :=
  ⟨fun _ _ _ h h' => c.leStatus_trans h h'⟩

structure RequestSummaryRow where
  type : String
  status : RequestStatus
  count : ℕ
  deriving DecidableEq, Repr

/-- The aggregates of the database over times, in milliseconds, from submission to resolution. -/
structure HourStatistics where
  Number : Type
  avgHours : List ℤ → Number
  p50Hours : List ℤ → Number
  p90Hours : List ℤ → Number

structure CycleTimeRow (stats : HourStatistics) where
  type : String
  total : ℕ
  avgHours : stats.Number
  p50Hours : stats.Number
  p90Hours : stats.Number

structure QueueDepthRow where
  type : String
  pending : ℕ
  inReview : ℕ
  atRisk : ℕ
  total : ℕ
  deriving DecidableEq, Repr

structure ThroughputPoint where
  day : Date
  submitted : ℕ
  resolved : ℕ
  deriving DecidableEq, Repr

namespace ReportsService

/-- The requests of a period; an empty type is none. -/
def inPeriod (params : ReportParams) (r : RequestItem π) : Bool :=
  decide (params.start ≤ r.submittedAt ∧ r.submittedAt ≤ params.stop) &&
    (params.type.filter fun t => decide (t ≠ "")).all fun t => decide (r.type = t)

/-- `getRequestSummary`. -/
def getRequestSummary (c : Collation) (params : ReportParams) (db : Db π σ) :
    List RequestSummaryRow :=
  GroupBy.query c.leStatus (fun r : RequestItem π => (r.type, r.status))
    (fun k rows => ⟨k.1, k.2, rows.length⟩) (db.requestItems.rows.filter (inPeriod params))

/-- The time from submission to resolution. -/
def cycleTime (r : RequestItem π) : Option ℤ :=
  r.resolvedAt.map fun resolvedAt => (resolvedAt : ℤ) - r.submittedAt

/-- The row of the cycle times of one type. -/
def cycleTimeRow (stats : HourStatistics) (type : String) (rows : List (RequestItem π)) :
    CycleTimeRow stats :=
  let times := rows.filterMap cycleTime
  { type := type
    total := rows.length
    avgHours := stats.avgHours times
    p50Hours := stats.p50Hours times
    p90Hours := stats.p90Hours times }

/-- `getRequestCycleTime`. -/
def getRequestCycleTime (c : Collation) (stats : HourStatistics) (params : ReportParams)
    (db : Db π σ) : List (CycleTimeRow stats) :=
  GroupBy.query c.le RequestItem.type (cycleTimeRow stats)
    (db.requestItems.rows.filter fun r =>
      inPeriod params r && r.resolvedAt.isSome && decide r.Resolved)

/-- The row of the requests of one type that wait. -/
def queueDepthRow (now : Time) (type : String) (rows : List (RequestItem π)) : QueueDepthRow where
  type := type
  pending := rows.countP fun r => decide (r.status = .pending)
  inReview := rows.countP fun r => decide (r.status = .inReview)
  atRisk := rows.countP fun r => r.slaDeadline.any (fun d => decide (d < now)) &&
    r.slaBreachedAt.isNone && decide r.status.Open
  total := rows.countP fun r => decide r.status.Open

/-- `getRequestQueueDepth`. -/
def getRequestQueueDepth (c : Collation) (now : Time) (db : Db π σ) : List QueueDepthRow :=
  GroupBy.query c.le RequestItem.type (queueDepthRow now)
    (db.requestItems.rows.filter fun r => decide r.status.Open)

/-- The requests submitted on one day. -/
def throughputPoint (day : Date) (rows : List (RequestItem π)) : ThroughputPoint where
  day := day
  submitted := rows.length
  resolved := rows.countP fun r => decide (r.Resolved ∨ r.status = .cancelled)

/-- `getRequestThroughput`; the days are those of the session's time zone. -/
def getRequestThroughput (day : Time → Date) (params : ReportParams) (db : Db π σ) :
    List ThroughputPoint :=
  GroupBy.query (· ≤ ·) (fun r : RequestItem π => day r.submittedAt) throughputPoint
    (db.requestItems.rows.filter (inPeriod params))

/-! ### What the rows count -/

/-- What the rows of a summary with a property count. -/
def counted (summary : List RequestSummaryRow) (q : String × RequestStatus → Bool) : ℕ :=
  GroupBy.total (fun row : RequestSummaryRow => (row.type, row.status)) RequestSummaryRow.count q
    summary

section Counts

variable {c : Collation} {stats : HourStatistics} {day : Time → Date} {now : Time}
  {params : ReportParams} {db : Db π σ}

/-- **The rows of a summary** with a property count the requests with it. -/
theorem counted_summary (q : String × RequestStatus → Bool) :
    counted (getRequestSummary c params db) q =
      db.requestItems.rows.countP fun r => q (r.type, r.status) && inPeriod params r := by
  have hlabel : ∀ (k : String × RequestStatus) (rows : List (RequestItem π)),
      ((⟨k.1, k.2, rows.length⟩ : RequestSummaryRow).type,
        (⟨k.1, k.2, rows.length⟩ : RequestSummaryRow).status) = k := fun _ _ => rfl
  have hnumber : ∀ (k : String × RequestStatus) (rows : List (RequestItem π)),
      (⟨k.1, k.2, rows.length⟩ : RequestSummaryRow).count = rows.countP fun _ => true :=
    fun _ rows => (congrFun List.countP_true rows).symm
  unfold counted getRequestSummary
  rw [GroupBy.total_query hlabel hnumber, List.countP_filter]
  simp only [Bool.and_true]

/-- So do the rows with the cycle times of one type. -/
theorem total_cycleTime (type : String) :
    GroupBy.total CycleTimeRow.type CycleTimeRow.total (fun t => decide (t = type))
        (getRequestCycleTime c stats params db) =
      db.requestItems.rows.countP fun r => decide (r.type = type) &&
        (inPeriod params r && r.resolvedAt.isSome && decide r.Resolved) := by
  have hlabel : ∀ (type : String) (rows : List (RequestItem π)),
      (cycleTimeRow stats type rows).type = type := fun _ _ => rfl
  have hnumber : ∀ (type : String) (rows : List (RequestItem π)),
      (cycleTimeRow stats type rows).total = rows.countP fun _ => true :=
    fun _ rows => (congrFun List.countP_true rows).symm
  unfold getRequestCycleTime
  rw [GroupBy.total_query hlabel hnumber, List.countP_filter]
  simp only [Bool.and_true]

/-- A number of the queue depth, for one type. -/
theorem total_queueDepth {number : QueueDepthRow → ℕ} {p : RequestItem π → Bool}
    (hnumber : ∀ type rows, number (queueDepthRow now type rows) = rows.countP p) (type : String) :
    GroupBy.total QueueDepthRow.type number (fun t => decide (t = type))
        (getRequestQueueDepth c now db) =
      db.requestItems.rows.countP fun r =>
        decide (r.type = type) && p r && decide r.status.Open := by
  have hlabel : ∀ (type : String) (rows : List (RequestItem π)),
      (queueDepthRow now type rows).type = type := fun _ _ => rfl
  unfold getRequestQueueDepth
  rw [GroupBy.total_query hlabel hnumber, List.countP_filter]

/-- A number of the throughput, over all days. -/
theorem total_throughput {number : ThroughputPoint → ℕ} {p : RequestItem π → Bool}
    (hnumber : ∀ date rows, number (throughputPoint date rows) = rows.countP p) :
    GroupBy.total ThroughputPoint.day number (fun _ => true) (getRequestThroughput day params db) =
      db.requestItems.rows.countP fun r => p r && inPeriod params r := by
  have hlabel : ∀ (date : Date) (rows : List (RequestItem π)),
      (throughputPoint date rows).day = date := fun _ _ => rfl
  unfold getRequestThroughput
  rw [GroupBy.total_query hlabel hnumber, List.countP_filter]
  simp only [Bool.true_and]

end Counts

/-! ### Every request of a period once -/

/-- The reports of one period count the same requests. -/
structure Reconciled (c : Collation) (stats : HourStatistics) (day : Time → Date) (now : Time)
    (params : ReportParams) (db : Db π σ) : Prop where
  /-- The summary has each type and status once, in order. -/
  ordered : (getRequestSummary c params db).Pairwise fun a b =>
    c.leStatus (a.type, a.status) (b.type, b.status) ∧ (a.type, a.status) ≠ (b.type, b.status)
  summary : counted (getRequestSummary c params db) (fun _ => true) =
    db.requestItems.rows.countP (inPeriod params)
  /-- The cycle times are those of the approved and the rejected requests. -/
  cycleTime : ∀ type,
    GroupBy.total CycleTimeRow.type CycleTimeRow.total (fun t => decide (t = type))
        (getRequestCycleTime c stats params db) =
      counted (getRequestSummary c params db) fun k =>
        decide (k.1 = type ∧ (k.2 = .approved ∨ k.2 = .rejected))
  submitted : GroupBy.total ThroughputPoint.day ThroughputPoint.submitted (fun _ => true)
      (getRequestThroughput day params db) =
    counted (getRequestSummary c params db) fun _ => true
  resolved : GroupBy.total ThroughputPoint.day ThroughputPoint.resolved (fun _ => true)
      (getRequestThroughput day params db) =
    counted (getRequestSummary c params db) fun k =>
      decide (k.2 = .approved ∨ k.2 = .rejected ∨ k.2 = .cancelled)
  /-- What waits, in a period that leaves no request out. -/
  queueDepth : (∀ r ∈ db.requestItems.rows, inPeriod params r = true) → ∀ type,
    GroupBy.total QueueDepthRow.type QueueDepthRow.total (fun t => decide (t = type))
        (getRequestQueueDepth c now db) =
      counted (getRequestSummary c params db) fun k => decide (k.1 = type ∧ k.2.Open)
  waiting : ∀ row ∈ getRequestQueueDepth c now db,
    0 < row.total ∧ row.total = row.pending + row.inReview ∧ row.atRisk ≤ row.total
  sla : ∀ row ∈ getRequestSlaCompliance params db,
    row.totalWithSla ≤ counted (getRequestSummary c params db) (fun k => decide (k.1 = row.type)) ∧
      row.resolved ≤ counted (getRequestSummary c params db) (fun k =>
        decide (k.1 = row.type ∧ (k.2 = .approved ∨ k.2 = .rejected)))
  rates : ∀ row ∈ getRequestSlaCompliance params db,
    row.withinSla ≤ row.resolved ∧ row.resolved ≤ row.withinSla + row.breached ∧
      ∀ rate ∈ row.complianceRatePct, rate ≤ 1000

/-- An approved or rejected request has a time of resolution. -/
def Answered (db : Db π σ) : Prop :=
  ∀ r ∈ db.requestItems.rows, r.Resolved → r.resolvedAt.isSome = true

section Reconcile

variable {c : Collation} {stats : HourStatistics} {day : Time → Date} {now : Time}
  {params : ReportParams} {db : Db π σ}

theorem ordered_summary : (getRequestSummary c params db).Pairwise fun a b =>
    c.leStatus (a.type, a.status) (b.type, b.status) ∧
      (a.type, a.status) ≠ (b.type, b.status) := by
  unfold getRequestSummary GroupBy.query
  rw [List.pairwise_map]
  exact GroupBy.pairwise_keys

/-- The rows of the queue depth. -/
theorem waiting_queueDepth : ∀ row ∈ getRequestQueueDepth c now db,
    0 < row.total ∧ row.total = row.pending + row.inReview ∧ row.atRisk ≤ row.total := by
  intro row hrow
  obtain ⟨type, htype, rfl⟩ := List.mem_map.1 hrow
  refine ⟨?_, ?_, List.countP_mono_left fun r _ hr => ?_⟩
  · -- a type is there because of a request that waits
    obtain ⟨r, hr, hk⟩ := GroupBy.mem_keys.1 htype
    refine List.countP_pos_iff.2 ⟨r, List.mem_filter.2 ⟨hr, decide_eq_true hk⟩, ?_⟩
    exact (List.mem_filter.1 hr).2
  · simp only [queueDepthRow, RequestStatus.Open]
    induction GroupBy.group RequestItem.type _ type with
    | nil => rfl
    | cons r rows ih =>
      simp only [List.countP_cons, ih]
      cases r.status <;> simp <;> omega
  · exact (Bool.and_eq_true_iff.1 hr).2

/-- A request with an SLA is one of its period. -/
theorem inPeriod_of_conditions {r : RequestItem π} (h : conditions params r = true) :
    inPeriod params r = true := by
  simp only [conditions, inPeriod, Bool.and_eq_true] at *
  exact ⟨h.1.1, h.2⟩

theorem sla_le_summary : ∀ row ∈ getRequestSlaCompliance params db,
    row.totalWithSla ≤ counted (getRequestSummary c params db) (fun k => decide (k.1 = row.type)) ∧
      row.resolved ≤ counted (getRequestSummary c params db) (fun k =>
        decide (k.1 = row.type ∧ (k.2 = .approved ∨ k.2 = .rejected))) := by
  intro row hrow
  obtain ⟨type, -, rfl⟩ := List.mem_map.1 hrow
  rw [counted_summary, counted_summary]
  constructor
  · show (group params db type).length ≤ _
    rw [group, ← List.countP_eq_length_filter]
    refine List.countP_mono_left fun r _ hr => ?_
    rw [Bool.and_eq_true_iff] at hr
    exact Bool.and_eq_true_iff.2 ⟨hr.2, inPeriod_of_conditions hr.1⟩
  · show (group params db type).countP _ ≤ _
    rw [group, List.countP_filter]
    refine List.countP_mono_left fun r _ hr => ?_
    simp only [Bool.and_eq_true, decide_eq_true_eq] at *
    exact ⟨⟨hr.2.2, hr.1⟩, inPeriod_of_conditions hr.2.1⟩

/-- The numbers of one row of the SLA report. -/
theorem sla_rates : ∀ row ∈ getRequestSlaCompliance params db,
    row.withinSla ≤ row.resolved ∧ row.resolved ≤ row.withinSla + row.breached ∧
      ∀ rate ∈ row.complianceRatePct, rate ≤ 1000 := by
  intro row hrow
  obtain ⟨type, -, rfl⟩ := List.mem_map.1 hrow
  have hwithin : (complianceRow type (group params db type)).withinSla ≤
      (complianceRow type (group params db type)).resolved := by
    refine List.countP_mono_left fun r _ hr => ?_
    exact decide_eq_true (of_decide_eq_true hr).1
  refine ⟨hwithin, ?_, fun rate hrate => ?_⟩
  · simp only [complianceRow, Bool.decide_and]
    induction group params db type with
    | nil => exact Nat.le_refl 0
    | cons r rows ih =>
      simp only [List.countP_cons]
      by_cases hr : r.Resolved <;> cases r.slaBreachedAt <;> simp [hr] <;> omega
  · -- half of a tenth is rounded up, and there is none above the whole
    simp only [complianceRow] at hwithin hrate
    split at hrate
    · cases hrate
    · rename_i hne
      cases hrate
      refine Nat.lt_succ_iff.1 ((Nat.div_lt_iff_lt_mul ?_).2 ?_) <;> omega

/-- **The reports of a database** in which the decided requests have times. -/
theorem reconciled_of_answered (hanswered : Answered db) :
    Reconciled c stats day now params db where
  ordered := ordered_summary
  summary := by simp only [counted_summary, Bool.true_and]
  cycleTime type := by
    rw [total_cycleTime, counted_summary]
    refine List.countP_congr fun r hr => ?_
    simp only [Bool.and_eq_true, decide_eq_true_eq]
    constructor
    · rintro ⟨htype, ⟨hperiod, -⟩, hresolved⟩
      exact ⟨⟨htype, hresolved⟩, hperiod⟩
    · rintro ⟨⟨htype, hresolved⟩, hperiod⟩
      exact ⟨htype, ⟨hperiod, hanswered r hr hresolved⟩, hresolved⟩
  submitted := by
    have hnumber : ∀ date (rows : List (RequestItem π)),
        (throughputPoint date rows).submitted = rows.countP fun _ => true :=
      fun _ rows => (congrFun List.countP_true rows).symm
    rw [total_throughput hnumber, counted_summary]
  resolved := by
    rw [total_throughput (fun _ _ => rfl), counted_summary]
    refine List.countP_congr fun r _ => ?_
    simp only [RequestItem.Resolved, or_assoc]
  queueDepth hall type := by
    rw [total_queueDepth (fun _ _ => rfl), counted_summary]
    refine List.countP_congr fun r hr => ?_
    simp [hall r hr]
  waiting := waiting_queueDepth
  sla := sla_le_summary
  rates := sla_rates

end Reconcile

/-! ### Runs -/

section Runs

variable {registry : RequestRegistry π σ} {toISOString : Time → String}

/-- Calls and ticks leave no decided request without a time. -/
theorem answered_step (s : SlaBreach.State π σ) (e : SlaBreach.Event π)
    (h : Answered s.engine.db) : Answered (SlaBreach.step registry toISOString s e).engine.db := by
  unfold Answered at *
  cases SlaBreach.moves_step registry toISOString s e with
  | quiet heq => rwa [heq]
  | submitted hins hopen =>
    exact Table.forall_mem_insert hins h fun hresolved => absurd hresolved hopen
  | decided hf heq _ hresolved =>
    rw [heq, Table.forall_mem_update_iff h]
    intro r _ _
    rw [(hresolved r).2]
    rfl
  | moved hf heq _ hopen =>
    rw [heq, Table.forall_mem_update_iff h]
    exact fun r _ hresolved => absurd hresolved (hopen r)
  | marked heq =>
    rw [heq, Table.forall_mem_update_iff h]
    exact fun r hr hresolved => h r (Table.mem_of_find hr) hresolved

/-- **The reports.**  In every state of a run, whatever calls and ticks are under way, the reports
of a period count the same requests. -/
theorem reports_reconcile (registry : RequestRegistry π σ) (toISOString : Time → String)
    (subscriptions : List WebhookSubscription) (tables : TxTables σ)
    (es : List (SlaBreach.Event π)) (c : Collation) (stats : HourStatistics) (day : Time → Date)
    (now : Time) (params : ReportParams) :
    Reconciled c stats day now params
      (Runs.run (SlaBreach.step registry toISOString)
        (SlaBreach.State.initial subscriptions tables) es).engine.db := by
  have hinitial : Answered (SlaBreach.State.initial subscriptions tables :
      SlaBreach.State π σ).engine.db := fun _ hr => absurd hr List.not_mem_nil
  have hrun := @Runs.run_invariant _ _ (SlaBreach.step registry toISOString)
    (fun s => Answered s.engine.db) answered_step _ hinitial es
  exact reconciled_of_answered hrun

end Runs

end ReportsService

end OpsHub
