import OpsHub.Requests.Engine

/-!
# What a committed decision does

`Transition.Committed` lists the effect of a committed transaction on every table of
the engine (`Transition.run_ok`).  `TransitionOf registry request t` says that `t` is one
of the five transitions that the copy `request` allows; the transactions of the four
operations run such a transition and no other (`approveTx_ok`, `rejectTx_ok`,
`cancelTx_ok`, `expireTx_ok`).  Every invariant of the engine is derived from these.
-/

namespace OpsHub

variable {π σ : Type}

/-! ### One transaction -/

/-- The effect of the transaction of `t`, which returned `row`. -/
structure Transition.Committed (t : Transition π σ) (env : HookEnv) (db db' : Db π σ)
    (row : RequestItem π) : Prop where
  returned : ∃ old, db.requestItems.find t.requestId = some old ∧ row = t.update old
  hook : ∃ tables, t.hook env db.toTxTables = .ok tables ∧ db'.domain = tables.domain
  requestItems : db'.requestItems = db.requestItems.update t.requestId t.update t.update_id
  requestApprovals : db'.requestApprovals = db.requestApprovals ++ t.approval.toList
  outboxEvents : ∃ event : OutboxEvent, event.aggregateId = t.requestId ∧
    event.payload = t.event ∧ db'.outboxEvents = db.outboxEvents ++ [event]
  webhookSubscriptions : db'.webhookSubscriptions = db.webhookSubscriptions
  onApproveCalls :
    db'.onApproveCalls = db.onApproveCalls ++ if t.approves then [t.requestId] else []

/-- A scheduled notification changes the notification outbox only. -/
@[simp] theorem RequestEngine.notify_fields (db : Db π σ) (n : Option NotificationOutboxRow) :
    (notify db n).domain = db.domain ∧ (notify db n).requestItems = db.requestItems ∧
      (notify db n).requestApprovals = db.requestApprovals ∧
      (notify db n).outboxEvents = db.outboxEvents ∧
      (notify db n).webhookSubscriptions = db.webhookSubscriptions ∧
      (notify db n).onApproveCalls = db.onApproveCalls := by
  cases n <;> simp [notify]

/-- **What a committed transaction did.** -/
theorem Transition.run_ok {t : Transition π σ} {env : HookEnv} {db db' : Db π σ}
    {row : RequestItem π} (h : t.run env db = .ok (db', row)) : t.Committed env db db' row := by
  simp only [Transition.run, Except.bind_eq_ok_iff, Outcome.orThrow_eq_ok_iff,
    Except.pure_eq_ok_iff, Prod.mk.injEq] at h
  obtain ⟨row', hrow, tables, hhook, rfl, rfl⟩ := h
  rw [Table.find_update_self] at hrow
  obtain ⟨old, hold, rfl⟩ := Option.map_eq_some_iff.1 hrow
  have hfields := RequestEngine.notify_fields
    { db with
      toTxTables := tables
      requestItems := db.requestItems.update t.requestId t.update t.update_id
      requestApprovals := db.requestApprovals ++ t.approval.toList
      onApproveCalls := db.onApproveCalls ++ if t.approves then [t.requestId] else [] }
    t.notification
  obtain ⟨hdomain, hitems, happrovals, houtbox, hsubs, hcalls⟩ := hfields
  constructor
  · exact ⟨old, hold, rfl⟩
  · exact ⟨tables, hhook, hdomain⟩
  · exact hitems
  · exact happrovals
  · refine ⟨_, ?_, ?_, congrArg (· ++ _) houtbox⟩ <;> rfl
  · exact hsubs
  · exact hcalls

namespace Transition.Committed

variable {t : Transition π σ} {env : HookEnv} {db db' : Db π σ} {row : RequestItem π}

/-- The row of the request after the commit. -/
theorem find_self (h : t.Committed env db db' row) :
    db'.requestItems.find t.requestId = some row := by
  obtain ⟨old, hold, rfl⟩ := h.returned
  rw [h.requestItems, Table.find_update_self, hold, Option.map_some]

/-- Every other request is left alone. -/
theorem find_ne (h : t.Committed env db db' row) {id : Uuid} (hid : id ≠ t.requestId) :
    db'.requestItems.find id = db.requestItems.find id := by
  rw [h.requestItems, Table.find_update_ne _ hid]

/-- The number of `onApprove` calls of a request after the commit. -/
theorem count_onApproveCalls (h : t.Committed env db db' row) (id : Uuid) :
    db'.onApproveCalls.count id =
      db.onApproveCalls.count id + if t.approves ∧ t.requestId = id then 1 else 0 := by
  rw [h.onApproveCalls, List.count_append]
  by_cases ha : t.approves = true
  · simp [ha, List.count_singleton]
  · simp [ha]

end Transition.Committed

/-! ### The transitions of a copy -/

namespace RequestEngine

/-- The transitions that an operation may run which has read the request as `request`. -/
inductive TransitionOf (registry : RequestRegistry π σ) (request : RequestItem π) :
    Transition π σ → Prop
  | finalApproval {typeDef : RequestTypeDef π σ} (hdef : registry request.type = some typeDef)
      (hfinal : isFinalStep typeDef request.currentStep = true)
      (delegation : Option ApprovalDelegation) (note : Option String) (actor : Actor) (now : Time) :
      TransitionOf registry request (finalApproval typeDef request delegation note actor now)
  | stepApproval {typeDef : RequestTypeDef π σ} (hdef : registry request.type = some typeDef)
      (hfinal : isFinalStep typeDef request.currentStep = false)
      (delegation : Option ApprovalDelegation) (note : Option String) (actor : Actor) (now : Time)
      (nextAssigneeId : Option Uuid) :
      TransitionOf registry request
        (stepApproval typeDef request delegation note actor now nextAssigneeId)
  | rejection {typeDef : RequestTypeDef π σ} (hdef : registry request.type = some typeDef)
      (delegation : Option ApprovalDelegation) (note : Option String) (actor : Actor) (now : Time) :
      TransitionOf registry request (rejection typeDef request delegation note actor now)
  | cancellation {typeDef : RequestTypeDef π σ} (hdef : registry request.type = some typeDef)
      (actor : Actor) (now : Time) :
      TransitionOf registry request (cancellation typeDef request actor now)
  | expiration {typeDef : RequestTypeDef π σ} (hdef : registry request.type = some typeDef)
      (now : Time) : TransitionOf registry request (expiration typeDef request now)

namespace TransitionOf

variable {registry : RequestRegistry π σ} {request : RequestItem π} {t : Transition π σ}

/-- A transition is about the request that was read. -/
theorem requestId_eq (h : TransitionOf registry request t) : t.requestId = request.id := by
  cases h <;> rfl

/-- `onApprove` is called exactly by the transitions to `approved`. -/
theorem approves_iff (h : TransitionOf registry request t) (r : RequestItem π) :
    t.approves = true ↔ (t.update r).status = .approved := by
  cases h <;> simp [RequestEngine.finalApproval, RequestEngine.stepApproval,
    RequestEngine.rejection, RequestEngine.cancellation, RequestEngine.expiration]

/-- The columns written once, when the request is submitted. -/
theorem update_fixed (h : TransitionOf registry request t) (r : RequestItem π) :
    (t.update r).type = r.type ∧ (t.update r).requesterId = r.requesterId ∧
      (t.update r).payload = r.payload ∧ (t.update r).totalSteps = r.totalSteps := by
  cases h <;> exact ⟨rfl, rfl, rfl, rfl⟩

section Stored

variable {env : HookEnv} {db db' : Db π σ} {row r : RequestItem π} {q : Uuid}

/-- The row of a stored request after a transition of the request as it is stored. -/
theorem row_eq (h : TransitionOf registry request t)
    (hreq : db.requestItems.find request.id = some request) (hc : t.Committed env db db' row) :
    row = t.update request := by
  obtain ⟨old, hold, rfl⟩ := hc.returned
  rw [h.requestId_eq, hreq] at hold
  rw [Option.some.inj hold]

/-- Looking up a request after such a transition. -/
theorem find_committed (h : TransitionOf registry request t)
    (hreq : db.requestItems.find request.id = some request) (hc : t.Committed env db db' row)
    (hr : db.requestItems.find q = some r) :
    db'.requestItems.find q = some (if q = request.id then t.update request else r) := by
  by_cases hq : q = request.id
  · have hself := hc.find_self
    rw [h.requestId_eq, h.row_eq hreq hc] at hself
    rw [if_pos hq, hq, hself]
  · have hne : q ≠ t.requestId := by
      rw [h.requestId_eq]
      exact hq
    rw [if_neg hq, hc.find_ne hne, hr]

/-- The rows after such a transition: that of the request, and the others as they were. -/
theorem rows_committed (h : TransitionOf registry request t)
    (hreq : db.requestItems.find request.id = some request) (hc : t.Committed env db db' row)
    (hr : r ∈ db'.requestItems.rows) :
    r = t.update request ∨ r ∈ db.requestItems.rows ∧ r.id ≠ request.id := by
  rw [hc.requestItems] at hr
  rcases Table.mem_update hr with ⟨old, hold, rfl⟩ | ⟨hr, hne⟩
  · rw [h.requestId_eq, hreq] at hold
    exact Or.inl (congrArg t.update (Option.some.inj hold).symm)
  · rw [h.requestId_eq] at hne
    exact Or.inr ⟨hr, hne⟩

/-- Every request after a transition was there before, with the columns that never change. -/
theorem mem_committed (h : TransitionOf registry request t) (hc : t.Committed env db db' row)
    (hr : r ∈ db'.requestItems.rows) :
    ∃ old ∈ db.requestItems.rows, r.id = old.id ∧ r.type = old.type ∧
      r.requesterId = old.requesterId ∧ r.payload = old.payload := by
  rw [hc.requestItems] at hr
  rcases Table.mem_update hr with ⟨old, hold, rfl⟩ | ⟨hr, -⟩
  · obtain ⟨htype, hrequester, hpayload, -⟩ := h.update_fixed old
    exact ⟨old, Table.mem_of_find hold, t.update_id old, htype, hrequester, hpayload⟩
  · exact ⟨r, hr, rfl, rfl, rfl, rfl⟩

/-- Every request before a transition is there after it, with these columns. -/
theorem find_kept (h : TransitionOf registry request t) (hc : t.Committed env db db' row)
    (hr : db.requestItems.find q = some r) :
    ∃ r', db'.requestItems.find q = some r' ∧ r'.type = r.type ∧
      r'.requesterId = r.requesterId ∧ r'.payload = r.payload := by
  by_cases hq : q = t.requestId
  · obtain ⟨old, hold, hrow⟩ := hc.returned
    rw [hq, hold] at hr
    obtain rfl : old = r := Option.some.inj hr
    obtain ⟨htype, hrequester, hpayload, -⟩ := h.update_fixed old
    rw [← hrow] at htype hrequester hpayload
    exact ⟨row, hq ▸ hc.find_self, htype, hrequester, hpayload⟩
  · exact ⟨r, (hc.find_ne hq).trans hr, rfl, rfl, rfl⟩

end Stored

end TransitionOf

variable {registry : RequestRegistry π σ} {view : AuthzView} {request row : RequestItem π}
  {delegation : Option ApprovalDelegation} {note : Option String} {actor : Actor} {now : Time}
  {env : HookEnv} {db db' : Db π σ} {requestId : Uuid}

theorem rejectTx_eq_ok_iff :
    rejectTx registry request delegation note actor now env db = .ok (db', row) ↔
      ∃ typeDef, registry request.type = some typeDef ∧
        (rejection typeDef request delegation note actor now).run env db = .ok (db', row) := by
  simp only [rejectTx, Except.bind_eq_ok_iff, RequestRegistry.get_eq_ok_iff]

theorem cancelTx_eq_ok_iff :
    cancelTx registry request actor now env db = .ok (db', row) ↔
      ∃ typeDef, registry request.type = some typeDef ∧
        (cancellation typeDef request actor now).run env db = .ok (db', row) := by
  simp only [cancelTx, Except.bind_eq_ok_iff, RequestRegistry.get_eq_ok_iff]

theorem expireTx_eq_ok_iff :
    expireTx registry request now env db = .ok (db', row) ↔
      ∃ typeDef, registry request.type = some typeDef ∧
        (expiration typeDef request now).run env db = .ok (db', row) := by
  simp only [expireTx, Except.bind_eq_ok_iff, RequestRegistry.get_eq_ok_iff]

/-- A committed `approve` is a final approval at the last step, a step approval before. -/
theorem approveTx_ok (h : approveTx registry request delegation note actor now env db =
      .ok (db', row)) :
    ∃ typeDef, registry request.type = some typeDef ∧
      ((isFinalStep typeDef request.currentStep = true ∧
          (finalApproval typeDef request delegation note actor now).Committed env db db' row) ∨
        (isFinalStep typeDef request.currentStep = false ∧ ∃ nextAssigneeId,
          (stepApproval typeDef request delegation note actor now nextAssigneeId).Committed
            env db db' row)) := by
  simp only [approveTx, Except.bind_eq_ok_iff, RequestRegistry.get_eq_ok_iff] at h
  obtain ⟨typeDef, hdef, h⟩ := h
  refine ⟨typeDef, hdef, ?_⟩
  by_cases hfinal : isFinalStep typeDef request.currentStep = true
  · rw [if_pos hfinal] at h
    exact Or.inl ⟨hfinal, Transition.run_ok h⟩
  · rw [if_neg hfinal] at h
    obtain ⟨nextAssigneeId, -, h⟩ := Except.bind_eq_ok_iff.1 h
    exact Or.inr ⟨Bool.eq_false_iff.2 hfinal, nextAssigneeId, Transition.run_ok h⟩

/-- A transition of the copy has been committed. -/
def Decided (registry : RequestRegistry π σ) (request : RequestItem π) (env : HookEnv)
    (db db' : Db π σ) (row : RequestItem π) : Prop :=
  ∃ t, TransitionOf registry request t ∧ t.Committed env db db' row

theorem approveTx_decided
    (h : approveTx registry request delegation note actor now env db = .ok (db', row)) :
    Decided registry request env db db' row := by
  obtain ⟨typeDef, hdef, ⟨hfinal, hc⟩ | ⟨hfinal, nextAssigneeId, hc⟩⟩ := approveTx_ok h
  · exact ⟨_, .finalApproval hdef hfinal _ _ _ _, hc⟩
  · exact ⟨_, .stepApproval hdef hfinal _ _ _ _ _, hc⟩

theorem rejectTx_decided
    (h : rejectTx registry request delegation note actor now env db = .ok (db', row)) :
    Decided registry request env db db' row := by
  obtain ⟨typeDef, hdef, hrun⟩ := rejectTx_eq_ok_iff.1 h
  exact ⟨_, .rejection hdef _ _ _ _, Transition.run_ok hrun⟩

theorem cancelTx_decided (h : cancelTx registry request actor now env db = .ok (db', row)) :
    Decided registry request env db db' row := by
  obtain ⟨typeDef, hdef, hrun⟩ := cancelTx_eq_ok_iff.1 h
  exact ⟨_, .cancellation hdef _ _, Transition.run_ok hrun⟩

theorem expireTx_decided (h : expireTx registry request now env db = .ok (db', row)) :
    Decided registry request env db db' row := by
  obtain ⟨typeDef, hdef, hrun⟩ := expireTx_eq_ok_iff.1 h
  exact ⟨_, .expiration hdef _, Transition.run_ok hrun⟩

/-! ### Submission -/

/-- The effect of a committed `submit`. -/
structure Submitted (registry : RequestRegistry π σ) (type : String) (payload : π) (actor : Actor)
    (opts : SubmitRequestOptions) (now : Time) (newId : Uuid) (env : HookEnv) (db db' : Db π σ)
    (row : RequestItem π) : Prop where
  row_eq : ∃ typeDef, registry type = some typeDef ∧
    row = submittedItem typeDef type payload actor opts now newId
  requestItems : db.requestItems.insert row = some db'.requestItems
  requestApprovals : db'.requestApprovals = db.requestApprovals
  onApproveCalls : db'.onApproveCalls = db.onApproveCalls
  domain : (∀ typeDef, registry type = some typeDef → typeDef.onSubmit = none) →
    db'.domain = db.domain

/-- **What a committed `submit` did.** -/
theorem submit_ok {type : String} {payload : π} {opts : SubmitRequestOptions} {newId : Uuid}
    (h : submit registry type payload actor opts now newId env db = .ok (db', row)) :
    Submitted registry type payload actor opts now newId env db db' row := by
  simp only [submit, Except.bind_eq_ok_iff, RequestRegistry.get_eq_ok_iff,
    Outcome.orThrow_eq_ok_iff, Except.pure_eq_ok_iff, Prod.mk.injEq] at h
  obtain ⟨typeDef, hdef, tables, hhook, requestItems, hins, rfl, rfl⟩ := h
  constructor
  · exact ⟨typeDef, hdef, rfl⟩
  · rw [hins]
    simp [fanout, enqueue]
  · simp [fanout, enqueue]
  · simp [fanout, enqueue]
  · intro hskip
    rw [hskip typeDef hdef] at hhook
    obtain rfl : db.toTxTables = tables := Except.ok.inj hhook
    simp [fanout, enqueue]

/-! ### The checks -/

theorem getOrFail_eq_ok_iff :
    getOrFail db requestId = .ok request ↔ db.requestItems.find requestId = some request :=
  Outcome.orThrow_eq_ok_iff

/-- The checks of `approve` and `reject`, as conditions on the copy. -/
theorem reviewCheck_eq_ok_iff {verb : String} :
    reviewCheck registry view verb request actor = .ok delegation ↔
      request.status.Open ∧ (∃ typeDef, registry request.type = some typeDef ∧
        ¬ (typeDef.allowSelfApproval = false ∧
          request.requesterId = sodSubject (view.activeDelegation actor.sub) actor) ∧
        Permitted view actor (requiredPermission typeDef request.currentStep)) ∧
      delegation = view.activeDelegation actor.sub := by
  simp only [reviewCheck, assertApprovable, Except.bind_eq_ok_iff, Outcome.require_eq_ok_iff,
    RequestRegistry.get_eq_ok_iff, Except.pure_eq_ok_iff]
  constructor
  · rintro ⟨-, hopen, typeDef, hdef, -, hsod, -, hperm, rfl⟩
    exact ⟨hopen, ⟨typeDef, hdef, hsod, hperm⟩, rfl⟩
  · rintro ⟨hopen, ⟨typeDef, hdef, hsod, hperm⟩, rfl⟩
    exact ⟨(), hopen, typeDef, hdef, (), hsod, (), hperm, rfl⟩

theorem cancelCheck_eq_ok_iff {u : Unit} :
    cancelCheck registry view request actor = .ok u ↔
      (request.requesterId = actor.sub ∨ view.check actor.sub "rbac.manage" = true) ∧
        request.status.Open ∧ ∃ typeDef, registry request.type = some typeDef := by
  simp only [cancelCheck, Except.bind_eq_ok_iff, Outcome.require_eq_ok_iff,
    RequestRegistry.get_eq_ok_iff, Except.pure_eq_ok_iff]
  constructor
  · rintro ⟨-, hactor, -, hopen, typeDef, hdef, -⟩
    exact ⟨hactor, hopen, typeDef, hdef⟩
  · rintro ⟨hactor, hopen, typeDef, hdef⟩
    exact ⟨(), hactor, (), hopen, typeDef, hdef, trivial⟩

end RequestEngine

end OpsHub
