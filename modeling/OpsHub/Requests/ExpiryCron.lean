import Mathlib.Data.List.Sort
import OpsHub.Domain.TypeDefs
import OpsHub.Lib.Runs
import OpsHub.Requests.Chain

/-!
# The expiry cron of the worker

`RequestExpiryCron.tick` and `RequestEngine.findExpired`, in a process with any set of registered
type definitions, and in the one that is built from `WorkerModule`.

* `findExpired`: a batch of overdue requests, in whatever order the database returns them;
* `tick`: each of them is expired, or its failure is logged;
* `TickKept`: all requests of the batch are expired with their hooks, and an overdue request is
  passed over only for a full batch of others that are;
* `tickKept_modules`: a process that registers the type definitions keeps that;
* `worker_kept_iff`: the worker, which registers none, keeps it only while nothing is overdue.
-/

namespace OpsHub

/-! ### The registry of a process -/

namespace RequestRegistry

variable {π σ : Type}

/-- `RequestRegistry.register`: the first definition of a type stays. -/
def register (registry : RequestRegistry π σ) (typeDef : RequestTypeDef π σ) :
    RequestRegistry π σ := fun type =>
  match registry type with
  | some typeDef => some typeDef
  | none => if typeDef.type = type then some typeDef else none

/-- The registry of a process, after the `onModuleInit` of its type definitions. -/
def registered (typeDefs : List (RequestTypeDef π σ)) : RequestRegistry π σ :=
  typeDefs.foldl register (fun _ => none)

/-- The first definition of a type is found. -/
theorem foldl_register (typeDefs : List (RequestTypeDef π σ)) (registry : RequestRegistry π σ)
    (type : String) :
    typeDefs.foldl register registry type =
      (registry type).or (typeDefs.find? (fun typeDef => decide (typeDef.type = type))) := by
  induction typeDefs generalizing registry with
  | nil => simp
  | cons typeDef typeDefs ih =>
    rw [List.foldl_cons, ih, register, List.find?_cons]
    cases registry type with
    | some other => rfl
    | none => by_cases htype : typeDef.type = type <;> simp [htype]

end RequestRegistry

/-- The API process registers the definitions of the domain modules. -/
theorem registered_typeDefs : RequestRegistry.registered typeDefs = moduleRegistry := by
  funext type
  exact RequestRegistry.foldl_register typeDefs _ type

/-- The type definitions among the providers of `WorkerModule` and of `PlatformModule`, the only
module of the repository that it imports. -/
def workerTypeDefs : List (RequestTypeDef Payload Tables) := []

/-- The registry of the worker. -/
def workerRegistry : RequestRegistry Payload Tables := .registered workerTypeDefs

/-- A transition commits if its request is there and its hook succeeds. -/
theorem Transition.exists_run {π σ : Type} {t : Transition π σ} {env : HookEnv} {db : Db π σ}
    {r : RequestItem π} {tables : TxTables σ} (hr : db.requestItems.find t.requestId = some r)
    (hhook : t.hook env db.toTxTables = .ok tables) : ∃ res, t.run env db = .ok res := by
  have hrow : (db.requestItems.update t.requestId t.update t.update_id).find t.requestId =
      some (t.update r) := by
    rw [Table.find_update_self, hr]
    rfl
  unfold Transition.run
  dsimp only
  rw [hrow, hhook]
  exact ⟨_, rfl⟩

namespace RequestExpiryCron

/-- The argument of `findExpired`. -/
def batchSize : ℕ := 100

/-! ### One tick -/

section Tick

variable {π σ : Type}

/-- The condition of `findExpired`. -/
def overdue (dbNow : Time) (r : RequestItem π) : Bool :=
  decide r.status.Open && r.expiresAt.any (fun t => decide (t < dbNow))

/-- A tick of the cron: the clock of the database, the order in which it returns rows without an
`ORDER BY`, and for each request the time and the environment of its expiry. -/
structure Tick where
  dbNow : Time
  place : Uuid → ℕ
  now : Uuid → Time
  env : Uuid → HookEnv

/-- `RequestEngine.findExpired`. -/
def findExpired (t : Tick) (limit : ℕ) (db : Db π σ) : List Uuid :=
  (((db.requestItems.rows.filter (overdue t.dbNow)).map RequestItem.id).insertionSort
    (fun a b => t.place a ≤ t.place b)).take limit

/-- `RequestExpiryCron.tick`; an expiry that throws leaves the database as it is. -/
def tick (registry : RequestRegistry π σ) (t : Tick) (db : Db π σ) : Db π σ :=
  (findExpired t batchSize db).foldl (fun db id =>
    Outcome.commit db (RequestEngine.expire registry id (t.now id) (t.env id) db)) db

/-- An expiry turns an open request into an expired one and runs the hook of its type. -/
def Expires (registry : RequestRegistry π σ) (t : Tick) (id : Uuid) (db db' : Db π σ) : Prop :=
  ∃ request typeDef row, db.requestItems.find id = some request ∧ request.status.Open ∧
    registry request.type = some typeDef ∧
    (RequestEngine.expiration typeDef request (t.now id)).run (t.env id) db = .ok (db', row)

/-- One after the other, all of the requests are expired. -/
def AllExpire (registry : RequestRegistry π σ) (t : Tick) : List Uuid → Db π σ → Prop
  | [], _ => True
  | id :: ids, db => ∃ db', Expires registry t id db db' ∧ AllExpire registry t ids db'

/-- A request is expired. -/
def Expired (id : Uuid) (db : Db π σ) : Prop :=
  ∃ r, db.requestItems.find id = some r ∧ r.status = .expired

/-- What a tick promises: the batch is expired, and a request that is overdue and not expired has
been passed over for a full batch of requests that are. -/
structure TickKept (registry : RequestRegistry π σ) (t : Tick) (db : Db π σ) : Prop where
  batch : AllExpire registry t (findExpired t batchSize db) db
  passed : ∀ r ∈ db.requestItems.rows, overdue t.dbNow r = true →
    ¬ Expired r.id (tick registry t db) →
      (findExpired t batchSize db).length = batchSize ∧
        ∀ id ∈ findExpired t batchSize db, Expired id (tick registry t db)

/-! ### The batch -/

variable {registry : RequestRegistry π σ} {t : Tick} {limit : ℕ} {db db' : Db π σ} {id : Uuid}

theorem mem_findExpired (h : id ∈ findExpired t limit db) :
    ∃ r, db.requestItems.find id = some r ∧ r.status.Open := by
  have hmem := (List.mem_insertionSort _).1 (List.mem_of_mem_take h)
  obtain ⟨r, hr, rfl⟩ := List.mem_map.1 hmem
  obtain ⟨hrow, hoverdue⟩ := List.mem_filter.1 hr
  rw [overdue, Bool.and_eq_true, decide_eq_true_iff] at hoverdue
  exact ⟨r, Table.find_of_mem hrow, hoverdue.1⟩

theorem nodup_findExpired : (findExpired t limit db).Nodup := by
  have hsub : ((db.requestItems.rows.filter (overdue t.dbNow)).map RequestItem.id).Sublist
      (db.requestItems.rows.map RequestItem.id) := List.filter_sublist.map _
  exact ((List.perm_insertionSort _ _).nodup_iff.2 (hsub.nodup db.requestItems.nodup)).sublist
    (List.take_sublist _ _)

/-- An overdue request that is not in the batch has been left out for want of room. -/
theorem length_findExpired {r : RequestItem π} (hr : r ∈ db.requestItems.rows)
    (hoverdue : overdue t.dbNow r = true) (hout : r.id ∉ findExpired t limit db) :
    (findExpired t limit db).length = limit := by
  have hmem : r.id ∈ ((db.requestItems.rows.filter (overdue t.dbNow)).map
      RequestItem.id).insertionSort (fun a b => t.place a ≤ t.place b) :=
    (List.mem_insertionSort _).2 (List.mem_map_of_mem (List.mem_filter.2 ⟨hr, hoverdue⟩))
  rw [findExpired, List.length_take]
  refine Nat.min_eq_left (Nat.le_of_not_lt fun hlt => hout ?_)
  rw [findExpired, List.take_of_length_le (Nat.le_of_lt hlt)]
  exact hmem

theorem findExpired_eq_nil_iff : findExpired t batchSize db = [] ↔
    ∀ r ∈ db.requestItems.rows, overdue t.dbNow r = false := by
  constructor
  · intro hnil r hr
    by_contra hoverdue
    have hout : r.id ∉ findExpired t batchSize db := hnil ▸ List.not_mem_nil
    have hlength := length_findExpired hr (Bool.not_eq_false _ ▸ hoverdue) hout
    rw [hnil] at hlength
    exact absurd hlength (by decide)
  · intro h
    rw [findExpired, List.filter_eq_nil_iff.2 fun r hr => Bool.eq_false_iff.1 (h r hr)]
    rfl

/-! ### Expiries -/

/-- Such an expiry is what `expire` does. -/
theorem Expires.expire (h : Expires registry t id db db') :
    RequestEngine.expire registry id (t.now id) (t.env id) db = .ok db' := by
  obtain ⟨request, typeDef, row, hreq, hopen, hdef, hrun⟩ := h
  have htx := RequestEngine.expireTx_eq_ok_iff.2 ⟨typeDef, hdef, hrun⟩
  simp only [RequestEngine.expire, Except.bind_eq_ok_iff, RequestEngine.getOrFail_eq_ok_iff]
  refine ⟨request, hreq, ?_⟩
  rw [if_pos hopen]
  simp only [Except.bind_eq_ok_iff]
  exact ⟨(db', row), htx, rfl⟩

/-- The request is expired afterwards, and the others are as before. -/
theorem Expires.find (h : Expires registry t id db db') :
    Expired id db' ∧ ∀ id', id' ≠ id → db'.requestItems.find id' = db.requestItems.find id' := by
  obtain ⟨request, typeDef, row, hreq, hopen, hdef, hrun⟩ := h
  have hc := Transition.run_ok hrun
  have hid : request.id = id := Table.key_of_find hreq
  have hself := hc.find_self
  obtain ⟨old, -, hrow⟩ := hc.returned
  refine ⟨⟨row, hid ▸ hself, ?_⟩, fun id' hne => hc.find_ne fun heq => hne (heq.trans hid)⟩
  rw [hrow]
  rfl

theorem Expires.mono (h : Expires registry t id db db') {id' : Uuid} (hexpired : Expired id' db) :
    Expired id' db' := by
  obtain ⟨hself, hother⟩ := h.find
  by_cases hid : id' = id
  · exact hid ▸ hself
  · obtain ⟨r, hr, hstatus⟩ := hexpired
    exact ⟨r, (hother id' hid).trans hr, hstatus⟩

/-- **After a batch** of expiries all of it is expired. -/
theorem AllExpire.expired {ids : List Uuid} (h : AllExpire registry t ids db) :
    ∀ id, id ∈ ids ∨ Expired id db → Expired id (ids.foldl (fun db id =>
      Outcome.commit db (RequestEngine.expire registry id (t.now id) (t.env id) db)) db) := by
  induction ids generalizing db with
  | nil => exact fun id hid => hid.resolve_left List.not_mem_nil
  | cons id ids ih =>
    intro id' hid'
    obtain ⟨db', hexpires, hrest⟩ := h
    rw [List.foldl_cons, hexpires.expire, Outcome.commit_ok]
    refine ih hrest id' ?_
    rcases hid' with hid' | hexpired
    · rcases List.mem_cons.1 hid' with rfl | hid'
      · exact Or.inr hexpires.find.1
      · exact Or.inl hid'
    · exact Or.inr (hexpires.mono hexpired)

/-- It is enough that the batch is expired. -/
theorem tickKept_iff :
    TickKept registry t db ↔ AllExpire registry t (findExpired t batchSize db) db := by
  refine ⟨TickKept.batch, fun hbatch => ⟨hbatch, fun r hr hoverdue hopen => ?_⟩⟩
  have hexpired := fun id hid => hbatch.expired id (Or.inl hid)
  exact ⟨length_findExpired hr hoverdue fun hmem => hopen (hexpired r.id hmem), hexpired⟩

end Tick

/-! ### A process with the type definitions -/

section Modules

variable {t : Tick} {id : Uuid} {db : Db Payload Tables}

/-- The requests have the types of their payloads, as `submit` makes them. -/
def Typed (db : Db Payload Tables) : Prop := ∀ r ∈ db.requestItems.rows, r.type = r.payload.type

/-- No hook of an expiry throws. -/
theorem onExpire_isOk (payload : Payload) (requestId : Uuid) (env : HookEnv)
    (tables : TxTables Tables) :
    ∃ tables', Hook.orSkip (payload.typeDef.onExpire.map fun hook => hook payload requestId)
      env tables = .ok tables' := by
  cases payload <;> exact ⟨_, rfl⟩

/-- An open request can be expired. -/
theorem exists_expires {r : RequestItem Payload} (htyped : Typed db)
    (hr : db.requestItems.find id = some r) (hopen : r.status.Open) :
    ∃ db', Expires moduleRegistry t id db db' ∧ Typed db' := by
  have htype := htyped r (Table.mem_of_find hr)
  have hdef : moduleRegistry r.type = some r.payload.typeDef := by
    rw [htype]
    exact moduleRegistry_type r.payload
  have hid : r.id = id := Table.key_of_find hr
  obtain ⟨tables, htables⟩ := onExpire_isOk r.payload r.id (t.env id) db.toTxTables
  obtain ⟨⟨db', row⟩, hrun⟩ := Transition.exists_run
    (t := RequestEngine.expiration r.payload.typeDef r (t.now id)) (hid.symm ▸ hr) htables
  refine ⟨db', ⟨r, _, row, hr, hopen, hdef, hrun⟩, fun r' hr' => ?_⟩
  have hcommitted := Transition.run_ok hrun
  obtain ⟨old, hold, -, htype', -, hpayload⟩ :=
    RequestEngine.TransitionOf.mem_committed (.expiration hdef (t.now id)) hcommitted hr'
  rw [htype', hpayload]
  exact htyped old hold

theorem allExpire_of_open {ids : List Uuid} (hnodup : ids.Nodup)
    (hopen : ∀ id ∈ ids, ∃ r, db.requestItems.find id = some r ∧ r.status.Open)
    (htyped : Typed db) : AllExpire moduleRegistry t ids db := by
  induction ids generalizing db with
  | nil => trivial
  | cons id ids ih =>
    obtain ⟨hnew, hnodup⟩ := List.nodup_cons.1 hnodup
    obtain ⟨r, hr, hstatus⟩ := hopen id List.mem_cons_self
    obtain ⟨db', hexpires, htyped'⟩ := exists_expires htyped hr hstatus
    refine ⟨db', hexpires, ih hnodup (fun id' hid' => ?_) htyped'⟩
    have hne : id' ≠ id := fun heq => hnew (heq ▸ hid')
    rw [hexpires.find.2 id' hne]
    exact hopen id' (List.mem_cons_of_mem id hid')

/-- **A process that registers the type definitions** keeps what a tick promises. -/
theorem tickKept_modules (t : Tick) (htyped : Typed db) :
    TickKept (RequestRegistry.registered typeDefs) t db := by
  rw [registered_typeDefs, tickKept_iff]
  exact allExpire_of_open nodup_findExpired (fun id hid => mem_findExpired hid) htyped

end Modules

/-! ### The worker -/

section Worker

variable {t : Tick} {db : Db Payload Tables}

/-- The worker can expire nothing. -/
theorem allExpire_worker_iff {ids : List Uuid} : AllExpire workerRegistry t ids db ↔ ids = [] := by
  cases ids with
  | nil => exact iff_of_true trivial rfl
  | cons id ids =>
    refine iff_of_false ?_ (List.cons_ne_nil id ids)
    rintro ⟨db', ⟨request, typeDef, row, -, -, hdef, -⟩, -⟩
    cases hdef

/-- An expiry in the worker changes nothing. -/
theorem commit_expire_worker (id : Uuid) (now : Time) (env : HookEnv) (db : Db Payload Tables) :
    Outcome.commit db (RequestEngine.expire workerRegistry id now env db) = db := by
  refine @Outcome.commit_induction _ _ (fun db' => db' = db) _ _ rfl fun db' hok => ?_
  rcases RequestEngine.expire_ok hok with rfl | ⟨request, row, -, -, htx⟩
  · rfl
  · obtain ⟨typeDef, hdef, -⟩ := RequestEngine.expireTx_eq_ok_iff.1 htx
    cases hdef

/-- **A tick of the worker** changes nothing. -/
theorem tick_worker (t : Tick) (db : Db Payload Tables) : tick workerRegistry t db = db := by
  unfold tick
  induction findExpired t batchSize db with
  | nil => rfl
  | cons id ids ih => rw [List.foldl_cons, commit_expire_worker, ih]

/-- A tick, or what the other processes make of the database in between. -/
inductive Event
  | tick (t : Tick)
  | elsewhere (db : Db Payload Tables)

/-- The database after an event. -/
def step (registry : RequestRegistry Payload Tables) (db : Db Payload Tables) :
    Event → Db Payload Tables
  | .tick t => tick registry t db
  | .elsewhere db => db

/-- An event keeps what a tick promises. -/
def Kept (registry : RequestRegistry Payload Tables) (db : Db Payload Tables) : Event → Prop
  | .tick t => TickKept registry t db
  | .elsewhere _ => True

/-- No request is overdue at a tick. -/
def NothingOverdue (db : Db Payload Tables) : Event → Prop
  | .tick t => ∀ r ∈ db.requestItems.rows, overdue t.dbNow r = false
  | .elsewhere _ => True

instance (db : Db Payload Tables) : ∀ e, Decidable (NothingOverdue db e)
  | .tick _ => inferInstanceAs (Decidable (∀ r ∈ db.requestItems.rows, _))
  | .elsewhere _ => isTrue trivial

/-- **The worker**, over any number of ticks and on any requests, keeps what a tick promises
exactly while no open request is past its deadline. -/
theorem worker_kept_iff (db : Db Payload Tables) (es : List Event) :
    Runs.Meets (step workerRegistry) (Kept workerRegistry) db es ↔
      Runs.Meets (step workerRegistry) NothingOverdue db es := by
  refine Runs.meets_congr fun db e => ?_
  cases e with
  | tick t => exact tickKept_iff.trans (allExpire_worker_iff.trans findExpired_eq_nil_iff)
  | elsewhere db' => exact Iff.rfl

end Worker

/-! ### A request that is never expired -/

namespace Sample

/-- A leave request of user 1, to be reviewed within three days. -/
def request : RequestItem Payload :=
  RequestEngine.submittedItem leaveRequestTypeDef "leave_request"
    (.leaveRequest
      { leaveRequestId := 50
        employeeId := 1
        leaveType := .annual
        startDate := 100
        endDate := 104
        reason := none })
    ⟨1, "user1@example.com"⟩ { expiresAt := some (72 * msPerHour) } 0 6

/-- It is the only request. -/
def db : Db Payload Tables :=
  let initial : Db Payload Tables := Db.initial [] ⟨[], Tables.empty⟩
  { initial with requestItems := ⟨[request], by decide⟩ }

/-- A tick right after the deadline. -/
def late : Tick where
  dbNow := 72 * msPerHour + 1
  place := id
  now _ := 72 * msPerHour + 2
  env _ := ⟨72 * msPerHour + 2, 0⟩

/-- The worker does not expire the request, at this tick or at any later one. -/
theorem not_kept : ¬ Runs.Meets (step workerRegistry) (Kept workerRegistry) db [.tick late] ∧
    ∀ n, (Runs.run (step workerRegistry) db (List.replicate n (.tick late))).requestItems.find 6 =
      some request := by
  constructor
  · rintro ⟨hkept, -⟩
    have hnil := findExpired_eq_nil_iff.1 (allExpire_worker_iff.1 (tickKept_iff.1 hkept))
    exact absurd (hnil request List.mem_cons_self) (by decide)
  · intro n
    have hrun : Runs.run (step workerRegistry) db (List.replicate n (.tick late)) = db := by
      induction n with
      | zero => rfl
      | succ n ih =>
        rw [List.replicate_succ, Runs.run_cons, step, tick_worker]
        exact ih
    rw [hrun]
    rfl

end Sample

end RequestExpiryCron

end OpsHub
