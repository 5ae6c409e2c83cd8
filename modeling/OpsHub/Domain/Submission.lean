import OpsHub.Access.ConcurrentGrants
import OpsHub.Domain.ServicesInStep

/-!
# Submissions and their failure points

Filing an access request, a leave or an overtime entry is three commits.  This module looks at what
a call leaves behind when it stops between two of them.

* `SubmissionCall`: a call of one of the three services; `submitLinked_cases`: what it leaves;
* `Filed`, `Untouched`: everything is there, or nothing is;
* `Whole`: an accepted submission stops before its first commit, or not before the third;
* `allOrNothing_iff`: that is what it takes, for one call on any database;
* `always_paired_iff`: and for the pending rows and the requests of a whole run;
* `not_allOrNothing`: the two cut points.
-/

namespace OpsHub

namespace InStep

open RequestEngine

/-! ### Calls -/

/-- What is submitted. -/
inductive Submission
  | access (input : AccessRequestService.SubmitInput)
  | leave (input : WorkforceService.CreateLeaveInput)
  | overtime (input : WorkforceService.CreateOvertimeInput)
  deriving DecidableEq, Repr

/-- A call of a service; the identifiers of the row and of the request are generated by it. -/
structure SubmissionCall where
  submission : Submission
  actor : Actor
  now : Time
  rowId : Uuid
  engineId : Uuid
  env : HookEnv

namespace SubmissionCall

/-- The database after the call, of whose commits only so many take place. -/
def perform (c : SubmissionCall) (commits : ℕ) : Db Payload Tables → Db Payload Tables :=
  match c.submission with
  | .access input =>
    AccessRequestService.submit input c.actor c.now c.rowId c.engineId c.env commits
  | .leave input =>
    WorkforceService.createLeave input c.actor c.now c.rowId c.engineId c.env commits
  | .overtime input =>
    WorkforceService.createOvertime input c.actor c.now c.rowId c.engineId c.env commits

/-- The row that the call is about. -/
def ref (c : SubmissionCall) : DomainRef :=
  match c.submission with
  | .access _ => .access c.rowId
  | .leave _ => .leave c.rowId
  | .overtime _ => .overtime c.rowId

/-- The checks before the first commit. -/
def Accepted (c : SubmissionCall) (tables : Tables) : Prop :=
  match c.submission with
  | .access _ => tables.accessRequests.find c.rowId = none
  | .leave input =>
    input.startDate ≤ input.endDate ∧
      WorkforceService.hasOverlappingLeave tables c.actor.sub input.startDate input.endDate = false ∧
      tables.leaveRequests.find c.rowId = none
  | .overtime _ => tables.overtimeEntries.find c.rowId = none

instance (c : SubmissionCall) (tables : Tables) : Decidable (c.Accepted tables) := by
  unfold Accepted
  cases c.submission <;> exact inferInstance

end SubmissionCall

/-! ### The property -/

/-- The row, its request and the link from one to the other are there. -/
structure Filed (d : DomainRef) (q : Uuid) (db : Db Payload Tables) : Prop where
  row : db.domain.row d = some ⟨.pending, some q⟩
  request : ∃ r, db.requestItems.find q = some r ∧ r.payload.ref = some d ∧ r.status = .pending

/-- Neither a row nor a request has been written. -/
structure Untouched (db db' : Db Payload Tables) : Prop where
  domain : db'.domain = db.domain
  requestItems : db'.requestItems = db.requestItems

/-- A submission has left everything or nothing. -/
def AllOrNothing (d : DomainRef) (q : Uuid) (db db' : Db Payload Tables) : Prop :=
  Filed d q db' ∨ Untouched db db'

/-- Every pending row has its request, and every request about a row is the one that the row
points to. -/
structure Paired (db : Db Payload Tables) : Prop where
  request : ∀ d row, db.domain.row d = some row → row.status = .pending →
    ∃ q, row.link = some q ∧ ∃ r, db.requestItems.find q = some r ∧ r.payload.ref = some d
  row : ∀ r ∈ db.requestItems.rows, ∀ d, r.payload.ref = some d →
    ∃ row, db.domain.row d = some row ∧ row.link = some r.id

/-- The condition: an accepted submission stops before its first commit, or has a free identifier
for its request and does not stop before the third. -/
def Whole (db : Db Payload Tables) (c : SubmissionCall) (commits : ℕ) : Prop :=
  c.Accepted db.domain → commits = 0 ∨ db.requestItems.find c.engineId = none ∧ 3 ≤ commits

instance (db : Db Payload Tables) (c : SubmissionCall) (commits : ℕ) :
    Decidable (Whole db c commits) :=
  inferInstanceAs (Decidable (_ → _))

/-! ### What a call leaves behind -/

section Cases

variable {db db' : Db Payload Tables} {d₀ : DomainRef} {payload : Payload} {actor : Actor}
  {opts : SubmitRequestOptions} {now expiresAt : Time} {engineId : Uuid} {env : HookEnv}

/-- The engine takes a submission exactly if the identifier is free. -/
theorem submit_isOk_iff : (∃ res, RequestEngine.submit moduleRegistry payload.type payload actor opts
    now engineId env db = .ok res) ↔ db.requestItems.find engineId = none := by
  constructor
  · rintro ⟨⟨db', item⟩, hok⟩
    have hs := submit_ok hok
    obtain ⟨typeDef, -, rfl⟩ := hs.row_eq
    exact (Table.insert_eq_some_iff.1 hs.requestItems).1
  · intro hfree
    have hdef := moduleRegistry_type payload
    obtain ⟨items, hitems⟩ := Table.exists_insert
      (r := submittedItem payload.typeDef payload.type payload actor opts now engineId) hfree
    simp only [RequestEngine.submit, Except.bind_eq_ok_iff, RequestRegistry.get_eq_ok_iff,
      Outcome.orThrow_eq_ok_iff]
    refine ⟨_, payload.typeDef, hdef, db.toTxTables, ?_, items, hitems, rfl⟩
    rw [onSubmit_eq_none hdef]
    rfl

/-- What a call leaves behind, and when: nothing; a row without a request; a row and a request that
the row does not point to; or all of it. -/
inductive Leftover (accepted : Prop) (commits : ℕ) (d₀ : DomainRef) (q : Uuid)
    (db db' : Db Payload Tables) : Prop
  | nothing (hwhole : accepted → commits = 0) (heq : db' = db)
  | row (haccepted : accepted) (hcommits : commits ≠ 0)
      (hcut : ¬ (db.requestItems.find q = none ∧ 3 ≤ commits))
      (hcreated : RowCreated d₀ db.domain db'.domain)
  | filed (hcommits : db.requestItems.find q = none ∧ 3 ≤ commits) (hfresh : db.domain.row d₀ = none)
      (hlinked : db'.domain.row d₀ = some ⟨.pending, some q⟩)
      (hother : ∀ d, d ≠ d₀ → db'.domain.row d = db.domain.row d)
      (item : RequestItem Payload) (hid : item.id = q) (href : item.payload.ref = some d₀)
      (hstatus : item.status = .pending)
      (hitems : db.requestItems.insert item = some db'.requestItems)

/-- **What filing a row leaves behind.** -/
theorem submitLinked_cases {create : Tables → Except Failure Tables}
    {backlink : Uuid → Tables → Tables} (commits : ℕ) (href : payload.ref = some d₀)
    (hcreate : ∀ tables tables', create tables = .ok tables' → RowCreated d₀ tables tables')
    (hlink : ∀ q tables, RowUpdated d₀ (setLink q) tables (backlink q tables)) :
    Leftover (∃ tables, create db.domain = .ok tables) commits d₀ engineId db
      (submitLinked create payload backlink actor expiresAt now engineId env commits db) := by
  unfold submitLinked
  split
  · rename_i failure herror
    refine .nothing (fun ⟨tables, hok⟩ => ?_) rfl
    rw [herror] at hok
    cases hok
  · rename_i tables hok
    have hc := hcreate _ _ hok
    split
    · rename_i hzero
      exact .nothing (fun _ => hzero) rfl
    · rename_i hzero
      dsimp only
      split
      · rename_i failure herror
        refine .row ⟨tables, hok⟩ hzero (fun ⟨hfree, _⟩ => ?_) hc
        have hdone : ∃ res, RequestEngine.submit moduleRegistry payload.type payload actor
            { expiresAt := some expiresAt } now engineId env { db with domain := tables } = .ok res :=
          submit_isOk_iff.2 hfree
        obtain ⟨res, hres⟩ := hdone
        rw [herror] at hres
        cases hres
      · rename_i db' item hsubmit
        have hs := submit_ok hsubmit
        have hdomain : db'.domain = tables :=
          hs.domain fun typeDef hdef => onSubmit_eq_none hdef
        obtain ⟨typeDef, -, hitem⟩ := hs.row_eq
        have hid : item.id = engineId := by rw [hitem, submittedItem]
        split
        · rename_i hone
          exact .row ⟨tables, hok⟩ hzero (fun h => by omega) hc
        · split
          · rename_i htwo
            exact .row ⟨tables, hok⟩ hzero (fun h => by omega) (hdomain ▸ hc)
          · obtain ⟨hself, hother⟩ := hlink item.id db'.domain
            rw [hdomain, hc.created, Option.map_some, hid] at hself
            refine .filed ⟨?_, by omega⟩ hc.fresh ?_ (fun d hd => ?_) item hid ?_ ?_ hs.requestItems
            · exact hid ▸ (Table.insert_eq_some_iff.1 hs.requestItems).1
            · rw [hdomain, hid]
              exact hself
            · rw [hother d hd, hdomain, hc.other d hd]
            · rw [hitem]
              exact href
            · rw [hitem, submittedItem]

variable {accepted : Prop} {commits : ℕ} {q : Uuid}

theorem Leftover.congr {accepted' : Prop} (h : Leftover accepted commits d₀ q db db')
    (hiff : accepted ↔ accepted') : Leftover accepted' commits d₀ q db db' :=
  propext hiff ▸ h

/-- A row that has come into being without a link is neither everything nor nothing. -/
theorem Leftover.clear_iff (h : Leftover accepted commits d₀ q db db') :
    AllOrNothing d₀ q db db' ↔
      (accepted → commits = 0 ∨ db.requestItems.find q = none ∧ 3 ≤ commits) := by
  cases h with
  | nothing hwhole heq =>
    subst heq
    exact iff_of_true (Or.inr ⟨rfl, rfl⟩) fun h => Or.inl (hwhole h)
  | row haccepted hcommits hcut hcreated =>
    refine iff_of_false ?_ fun h => (h haccepted).elim hcommits hcut
    rintro (hfiled | huntouched)
    · have hrow := hfiled.row
      rw [hcreated.created] at hrow
      cases hrow
    · have hrow := hcreated.created
      rw [huntouched.domain, hcreated.fresh] at hrow
      cases hrow
  | filed hcommits hfresh hlinked hother item hid href hstatus hitems =>
    refine iff_of_true (Or.inl ⟨hlinked, item, ?_, href, hstatus⟩) fun _ => Or.inr hcommits
    exact hid ▸ Table.find_insert_self hitems

theorem Leftover.paired_iff (h : Leftover accepted commits d₀ q db db') (hpaired : Paired db) :
    Paired db' ↔ (accepted → commits = 0 ∨ db.requestItems.find q = none ∧ 3 ≤ commits) := by
  cases h with
  | nothing hwhole heq =>
    subst heq
    exact iff_of_true hpaired fun h => Or.inl (hwhole h)
  | row haccepted hcommits hcut hcreated =>
    refine iff_of_false (fun h => ?_) fun h => (h haccepted).elim hcommits hcut
    obtain ⟨q', hlink, -⟩ := h.request d₀ _ hcreated.created rfl
    cases hlink
  | filed hcommits hfresh hlinked hother item hid href hstatus hitems =>
    refine iff_of_true ⟨fun d row hrow hpending => ?_, fun r hr d hd => ?_⟩ fun _ => Or.inr hcommits
    · by_cases hne : d = d₀
      · subst hne
        obtain rfl := Option.some.inj (hlinked.symm.trans hrow)
        exact ⟨q, rfl, item, hid ▸ Table.find_insert_self hitems, href⟩
      · rw [hother d hne] at hrow
        obtain ⟨q', hlink, r, hr, hd⟩ := hpaired.request d row hrow hpending
        exact ⟨q', hlink, r, Table.find_insert_of_find hitems hr, hd⟩
    · rcases (Table.mem_insert hitems).1 hr with hr | rfl
      · obtain ⟨row, hrow, hlink⟩ := hpaired.row r hr d hd
        have hne : d ≠ d₀ := by
          rintro rfl
          rw [hfresh] at hrow
          cases hrow
        exact ⟨row, (hother d hne).trans hrow, hlink⟩
      · obtain rfl := Option.some.inj (href.symm.trans hd)
        exact ⟨_, hlinked, by rw [hid]⟩

end Cases

/-! ### The three services -/

section Services

variable {tables : Tables} {userId rowId : Uuid}

theorem createAccess_isOk_iff {input : AccessRequestService.SubmitInput} {now : Time} :
    (∃ tables', AccessRequestService.create input userId rowId now tables = .ok tables') ↔
      tables.accessRequests.find rowId = none := by
  simp only [AccessRequestService.create, Except.exists_bind_eq_ok_iff, Outcome.orThrow_eq_ok_iff,
    Except.pure_eq_ok_iff, exists_eq', and_true]
  exact Table.exists_insert_iff

theorem createLeave_isOk_iff {input : WorkforceService.CreateLeaveInput} :
    (∃ tables', WorkforceService.createLeaveRow input userId rowId tables = .ok tables') ↔
      input.startDate ≤ input.endDate ∧
        WorkforceService.hasOverlappingLeave tables userId input.startDate input.endDate = false ∧
        tables.leaveRequests.find rowId = none := by
  simp only [WorkforceService.createLeaveRow, Except.exists_bind_eq_ok_iff,
    Outcome.require_eq_ok_iff, Outcome.orThrow_eq_ok_iff, Except.pure_eq_ok_iff, exists_eq',
    and_true, exists_const]
  exact and_congr_right fun _ => and_congr_right fun _ => Table.exists_insert_iff

theorem createOvertime_isOk_iff {input : WorkforceService.CreateOvertimeInput} :
    (∃ tables', WorkforceService.createOvertimeRow input userId rowId tables = .ok tables') ↔
      tables.overtimeEntries.find rowId = none := by
  simp only [WorkforceService.createOvertimeRow, Except.exists_bind_eq_ok_iff,
    Outcome.orThrow_eq_ok_iff, Except.pure_eq_ok_iff, exists_eq', and_true]
  exact Table.exists_insert_iff

end Services

namespace SubmissionCall

/-- **What a call leaves behind.** -/
theorem leftover (c : SubmissionCall) (commits : ℕ) (db : Db Payload Tables) :
    Leftover (c.Accepted db.domain) commits c.ref c.engineId db (c.perform commits db) := by
  obtain ⟨submission, actor, now, rowId, engineId, env⟩ := c
  cases submission with
  | access input =>
    have href : (AccessRequestService.enginePayload input actor.sub rowId).ref =
        some (.access rowId) := rfl
    exact (submitLinked_cases commits href (fun _ _ => rowCreated_access)
      (rowUpdated_backlink rowId)).congr createAccess_isOk_iff
  | leave input =>
    have href : (WorkforceService.leavePayload input actor.sub rowId).ref =
        some (.leave rowId) := rfl
    exact (submitLinked_cases commits href (fun _ _ => rowCreated_leave)
      (rowUpdated_setLeaveRequestId rowId)).congr createLeave_isOk_iff
  | overtime input =>
    have href : (WorkforceService.overtimePayload input actor.sub rowId).ref =
        some (.overtime rowId) := rfl
    exact (submitLinked_cases commits href (fun _ _ => rowCreated_overtime)
      (rowUpdated_setOvertimeRequestId rowId)).congr createOvertime_isOk_iff

/-- **All or nothing.**  A submission leaves the row, its request and the link, or none of them,
exactly if it is refused before its first commit, stops before it, or is not stopped before the
third one; and exactly then does it keep pending rows and requests paired. -/
theorem allOrNothing_iff (c : SubmissionCall) (commits : ℕ) (db : Db Payload Tables) :
    (AllOrNothing c.ref c.engineId db (c.perform commits db) ↔ Whole db c commits) ∧
      (Paired db → (Paired (c.perform commits db) ↔ Whole db c commits)) :=
  ⟨(c.leftover commits db).clear_iff, fun h => (c.leftover commits db).paired_iff h⟩

/-- The rows and requests of a whole run of submissions, each with its number of commits. -/
theorem always_paired_iff {db : Db Payload Tables} (h : Paired db)
    (calls : List (SubmissionCall × ℕ)) :
    (∀ done, done <+: calls → Paired (Runs.run (fun db c => c.1.perform c.2 db) db done)) ↔
      Runs.Meets (fun db c => c.1.perform c.2 db) (fun db c => Whole db c.1 c.2) db calls :=
  Runs.always_iff_meets (fun db c hdb => (c.1.leftover c.2 db).paired_iff hdb) h

/-! ### Cut points -/

namespace Sample

/-- User 1 requests leave. -/
def call : SubmissionCall where
  submission := .leave { leaveType := .annual, startDate := 100, endDate := 104 }
  actor := ⟨1, "user1@example.com"⟩
  now := 0
  rowId := 50
  engineId := 6
  env := ⟨0, 0⟩

/-- Nothing has been submitted yet. -/
def empty : Db Payload Tables := Db.initial [] ⟨[], Tables.empty⟩

theorem paired_empty : Paired empty := by
  constructor
  · rintro d row hrow
    cases d <;> cases hrow
  · intro r hr
    cases hr

theorem allOrNothing_complete :
    AllOrNothing call.ref call.engineId empty (call.perform 3 empty) ∧
      Paired (call.perform 3 empty) :=
  ⟨(allOrNothing_iff call 3 empty).1.2 (by decide),
    ((allOrNothing_iff call 3 empty).2 paired_empty).2 (by decide)⟩

/-- After the first commit there is a pending leave without a request, and after the second one the
leave does not point to its request; neither is everything or nothing. -/
theorem not_allOrNothing :
    ((call.perform 1 empty).domain.row call.ref = some ⟨.pending, none⟩ ∧
      (call.perform 1 empty).requestItems.rows = [] ∧
      ¬ AllOrNothing call.ref call.engineId empty (call.perform 1 empty)) ∧
    ((call.perform 2 empty).domain.row call.ref = some ⟨.pending, none⟩ ∧
      ((call.perform 2 empty).requestItems.find call.engineId).isSome = true ∧
      ¬ AllOrNothing call.ref call.engineId empty (call.perform 2 empty)) := by
  refine ⟨⟨rfl, rfl, fun h => ?_⟩, rfl, rfl, fun h => ?_⟩
  · exact absurd ((call.leftover 1 empty).clear_iff.1 h) (by decide)
  · exact absurd ((call.leftover 2 empty).clear_iff.1 h) (by decide)

end Sample

end SubmissionCall

end InStep

end OpsHub
