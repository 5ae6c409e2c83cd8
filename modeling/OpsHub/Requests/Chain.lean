import OpsHub.Lib.Runs
import OpsHub.Requests.Segregation
import Mathlib.Data.List.Range

/-!
# The sequential approval chain

The engine with atomic calls: a run is a list of `submit`, `approve`, `reject`, `cancel`
and `expire` calls, each of which commits or leaves the database as it was.

* `step_cases`: an event does nothing, submits a request, or commits one transition of
  an open request;
* `Progress`: the inductive invariant of a request whose type has the steps `1, …, n`,
  tying its status, step, decisions, hook calls and resolution time together;
* `run_sequential`: it holds in every reachable database, and no event changes the row
  of a request that is no longer open.
-/

namespace OpsHub

variable {π σ : Type}

namespace RequestEngine

/-! ### Runs of atomic calls -/

/-- An atomic call, with what it draws from its environment. -/
inductive Event (π : Type)
  | submit (type : String) (payload : π) (actor : Actor) (opts : SubmitRequestOptions)
      (now : Time) (newId : Uuid) (env : HookEnv)
  | approve (view : AuthzView) (requestId : Uuid) (note : Option String) (actor : Actor)
      (now : Time) (env : HookEnv)
  | reject (view : AuthzView) (requestId : Uuid) (note : Option String) (actor : Actor)
      (now : Time) (env : HookEnv)
  | cancel (view : AuthzView) (requestId : Uuid) (actor : Actor) (now : Time) (env : HookEnv)
  | expire (requestId : Uuid) (now : Time) (env : HookEnv)

/-- The database after a call; a call that throws leaves it as it was. -/
def step (registry : RequestRegistry π σ) (db : Db π σ) : Event π → Db π σ
  | .submit type payload actor opts now newId env => Outcome.commit db
      ((submit registry type payload actor opts now newId env db).map Prod.fst)
  | .approve view requestId note actor now env => Outcome.commit db
      ((approve registry view requestId note actor now env db).map Prod.fst)
  | .reject view requestId note actor now env => Outcome.commit db
      ((reject registry view requestId note actor now env db).map Prod.fst)
  | .cancel view requestId actor now env => Outcome.commit db
      ((cancel registry view requestId actor now env db).map Prod.fst)
  | .expire requestId now env => Outcome.commit db (expire registry requestId now env db)

/-! ### The invariant -/

/-- The step numbers of the type are exactly `1, …, n`. -/
def IsChain (typeDef : RequestTypeDef π σ) (n : ℕ) : Prop :=
  match typeDef.approvalSteps with
  | none => n = 1
  | some steps => 1 ≤ n ∧ (steps.map ApprovalStepDef.step).Perm (List.range' 1 n)

/-- The decisions recorded for a request: step and verdict, oldest first. -/
def decisionsOf (db : Db π σ) (id : Uuid) : List (ℕ × Decision) :=
  (db.requestApprovals.filter (fun a => decide (a.requestId = id))).map
    (fun a => (a.step, a.decision))

/-- One approval for each of the steps `1, …, k`. -/
def approvedSteps (k : ℕ) : List (ℕ × Decision) :=
  (List.range' 1 k).map (fun step => (step, Decision.approved))

/-- The decisions that the row of a request stands for. -/
def expectedDecisions (r : RequestItem π) : List (ℕ × Decision) :=
  match r.status with
  | .approved => approvedSteps r.currentStep
  | .rejected => approvedSteps (r.currentStep - 1) ++ [(r.currentStep, .rejected)]
  | _ => approvedSteps (r.currentStep - 1)

/-- The state of a request in a chain of `n` steps. -/
structure Progress (n : ℕ) (db : Db π σ) (r : RequestItem π) : Prop where
  totalSteps : r.totalSteps = n
  one_le : 1 ≤ r.currentStep
  le_length : r.currentStep ≤ n
  pending : r.status = .pending → r.currentStep = 1
  inReview : r.status = .inReview → 1 < r.currentStep
  approved : r.status = .approved → r.currentStep = n
  decisions : decisionsOf db r.id = expectedDecisions r
  onApproveCalls : db.onApproveCalls.count r.id = if r.status = .approved then 1 else 0
  resolvedAt : r.resolvedAt = none ↔ r.status.Open

/-- Decisions and hook calls belong to requests that exist. -/
structure Recorded (db : Db π σ) : Prop where
  approvals : ∀ a ∈ db.requestApprovals, ∃ r, db.requestItems.find a.requestId = some r
  calls : ∀ id ∈ db.onApproveCalls, ∃ r, db.requestItems.find id = some r

/-- The invariant of the sequential engine. -/
def SequentialInvariant (registry : RequestRegistry π σ) (db : Db π σ) : Prop :=
  Recorded db ∧ ∀ r ∈ db.requestItems.rows, ∀ typeDef n, registry r.type = some typeDef →
    IsChain typeDef n → Progress n db r

/-! ### Chains -/

theorem approvedSteps_of_pos {k : ℕ} (h : 1 ≤ k) :
    approvedSteps k = approvedSteps (k - 1) ++ [(k, .approved)] := by
  obtain ⟨m, rfl⟩ := Nat.exists_eq_add_of_le h
  have hrange : List.range' 1 (1 + m) = List.range' 1 m ++ [1 + m] := by
    rw [Nat.add_comm 1 m, List.range'_1_concat, Nat.add_comm 1 m]
  simp [approvedSteps, hrange]

section Chains

variable {registry : RequestRegistry π σ} {typeDef : RequestTypeDef π σ} {n : ℕ}

theorem IsChain.one_le (h : IsChain typeDef n) : 1 ≤ n := by
  unfold IsChain at h
  split at h
  · omega
  · exact h.1

/-- The last step of a chain is its `n`-th. -/
theorem IsChain.isFinalStep_iff (h : IsChain typeDef n) {k : ℕ} (hk : 1 ≤ k) :
    isFinalStep typeDef k = true ↔ n ≤ k := by
  unfold IsChain at h
  unfold isFinalStep
  cases hsteps : typeDef.approvalSteps with
  | none =>
    simp only [hsteps] at h
    simp only [true_iff]
    omega
  | some steps =>
    simp only [hsteps] at h
    obtain ⟨hn, hperm⟩ := h
    simp only [List.all_eq_true, decide_eq_true_eq]
    constructor
    · intro hall
      have hmem : n ∈ steps.map ApprovalStepDef.step := by
        rw [hperm.mem_iff, List.mem_range'_1]
        omega
      obtain ⟨s, hs, rfl⟩ := List.mem_map.1 hmem
      exact hall s hs
    · intro hle s hs
      have hmem : s.step ∈ List.range' 1 n :=
        hperm.mem_iff.1 (List.mem_map.2 ⟨s, hs, rfl⟩)
      rw [List.mem_range'_1] at hmem
      omega

/-- A new request of a chain is given its length. -/
theorem IsChain.submittedItem_totalSteps (h : IsChain typeDef n) (type : String) (payload : π)
    (actor : Actor) (opts : SubmitRequestOptions) (now : Time) (newId : Uuid) :
    (submittedItem typeDef type payload actor opts now newId).totalSteps = n := by
  unfold IsChain at h
  unfold submittedItem
  cases hsteps : typeDef.approvalSteps with
  | none =>
    simp only [hsteps] at h
    simp [h]
  | some steps =>
    simp only [hsteps] at h
    have hlen := h.2.length_eq
    rw [List.length_map, List.length_range'] at hlen
    simp [hlen]

end Chains

/-! ### What one event can do -/

section Steps

variable {registry : RequestRegistry π σ} {view : AuthzView} {requestId : Uuid}
  {note : Option String} {actor : Actor} {now : Time} {env : HookEnv} {db db' : Db π σ}
  {request row : RequestItem π} {t : Transition π σ} {n : ℕ}

theorem cancel_eq_ok_iff :
    cancel registry view requestId actor now env db = .ok (db', row) ↔
      ∃ request, db.requestItems.find requestId = some request ∧
        cancelCheck registry view request actor = .ok () ∧
        cancelTx registry request actor now env db = .ok (db', row) := by
  simp only [cancel, Except.bind_eq_ok_iff, getOrFail_eq_ok_iff]
  constructor
  · rintro ⟨request, hreq, u, hc, htx⟩
    exact ⟨request, hreq, hc, htx⟩
  · rintro ⟨request, hreq, hc, htx⟩
    exact ⟨request, hreq, (), hc, htx⟩

/-- `expire` does nothing to a request that is not open. -/
theorem expire_ok (h : expire registry requestId now env db = .ok db') :
    db' = db ∨ ∃ request row, db.requestItems.find requestId = some request ∧
      request.status.Open ∧ expireTx registry request now env db = .ok (db', row) := by
  simp only [expire, Except.bind_eq_ok_iff, getOrFail_eq_ok_iff] at h
  obtain ⟨request, hreq, h⟩ := h
  by_cases hopen : request.status.Open
  · rw [if_pos hopen] at h
    simp only [Except.bind_eq_ok_iff, Except.pure_eq_ok_iff] at h
    obtain ⟨⟨db'', row⟩, htx, rfl⟩ := h
    exact Or.inr ⟨request, row, hreq, hopen, htx⟩
  · rw [if_neg hopen, Except.pure_eq_ok_iff] at h
    exact Or.inl h.symm

/-- A decision on an open request as it is stored has been committed. -/
def DecidedOpen (registry : RequestRegistry π σ) (db db' : Db π σ) : Prop :=
  ∃ request env row, db.requestItems.find request.id = some request ∧ request.status.Open ∧
    Decided registry request env db db' row

theorem decidedOpen_of_find (hreq : db.requestItems.find requestId = some request)
    (hopen : request.status.Open) (h : Decided registry request env db db' row) :
    DecidedOpen registry db db' := by
  have hid : request.id = requestId := Table.key_of_find hreq
  exact ⟨request, env, row, hid ▸ hreq, hopen, h⟩

/-- **What an atomic call can do**: nothing, a submission, or a decision on an open
request. -/
theorem step_cases (registry : RequestRegistry π σ) (db : Db π σ) (e : Event π) :
    step registry db e = db ∨
      (∃ type payload actor opts now newId env row,
        Submitted registry type payload actor opts now newId env db (step registry db e) row) ∨
      DecidedOpen registry db (step registry db e) := by
  cases e with
  | submit type payload actor opts now newId env =>
    cases h : submit registry type payload actor opts now newId env db with
    | error _ => exact Or.inl (by simp [step, h, Except.map])
    | ok res =>
      simp only [step, h, Except.map, Outcome.commit_ok]
      exact Or.inr (Or.inl ⟨type, payload, actor, opts, now, newId, env, res.2, submit_ok h⟩)
  | approve view requestId note actor now env =>
    cases h : approve registry view requestId note actor now env db with
    | error _ => exact Or.inl (by simp [step, h, Except.map])
    | ok res =>
      simp only [step, h, Except.map, Outcome.commit_ok]
      obtain ⟨request, delegation, hreq, hc, htx⟩ := approve_eq_ok_iff.1 h
      have hopen := (reviewCheck_eq_ok_iff.1 hc).1
      exact Or.inr (Or.inr (decidedOpen_of_find hreq hopen (approveTx_decided htx)))
  | reject view requestId note actor now env =>
    cases h : reject registry view requestId note actor now env db with
    | error _ => exact Or.inl (by simp [step, h, Except.map])
    | ok res =>
      simp only [step, h, Except.map, Outcome.commit_ok]
      obtain ⟨request, delegation, hreq, hc, htx⟩ := reject_eq_ok_iff.1 h
      have hopen := (reviewCheck_eq_ok_iff.1 hc).1
      exact Or.inr (Or.inr (decidedOpen_of_find hreq hopen (rejectTx_decided htx)))
  | cancel view requestId actor now env =>
    cases h : cancel registry view requestId actor now env db with
    | error _ => exact Or.inl (by simp [step, h, Except.map])
    | ok res =>
      simp only [step, h, Except.map, Outcome.commit_ok]
      obtain ⟨request, hreq, hc, htx⟩ := cancel_eq_ok_iff.1 h
      have hopen := (cancelCheck_eq_ok_iff.1 hc).2.1
      exact Or.inr (Or.inr (decidedOpen_of_find hreq hopen (cancelTx_decided htx)))
  | expire requestId now env =>
    cases h : expire registry requestId now env db with
    | error _ => exact Or.inl (by simp [step, h])
    | ok db' =>
      simp only [step, h, Outcome.commit_ok]
      obtain rfl | ⟨request, row, hreq, hopen, htx⟩ := expire_ok h
      · exact Or.inl rfl
      · exact Or.inr (Or.inr (decidedOpen_of_find hreq hopen (expireTx_decided htx)))

/-! ### Decisions after a commit -/

/-- A transition records a decision on its own request. -/
theorem TransitionOf.approval_requestId (h : TransitionOf registry request t) :
    ∀ a ∈ t.approval, a.requestId = t.requestId := by
  cases h <;> simp [RequestEngine.finalApproval, RequestEngine.stepApproval,
    RequestEngine.rejection, RequestEngine.cancellation, RequestEngine.expiration, approvalRow]

theorem decisionsOf_self (h : TransitionOf registry request t) (hc : t.Committed env db db' row) :
    decisionsOf db' t.requestId =
      decisionsOf db t.requestId ++ t.approval.toList.map (fun a => (a.step, a.decision)) := by
  have hid := h.approval_requestId
  unfold decisionsOf
  rw [hc.requestApprovals, List.filter_append, List.map_append]
  cases ha : t.approval with
  | none => rfl
  | some a => simp [hid a ha]

theorem decisionsOf_ne (h : TransitionOf registry request t) (hc : t.Committed env db db' row)
    {id : Uuid} (hne : id ≠ t.requestId) : decisionsOf db' id = decisionsOf db id := by
  have hid := h.approval_requestId
  unfold decisionsOf
  rw [hc.requestApprovals, List.filter_append]
  cases ha : t.approval with
  | none => simp
  | some a => simp [hid a ha, Ne.symm hne]

/-- A request without rows of its own has no decisions. -/
theorem Recorded.decisionsOf_eq_nil (h : Recorded db) {id : Uuid}
    (hid : db.requestItems.find id = none) : decisionsOf db id = [] := by
  have hnone : db.requestApprovals.filter (fun a => decide (a.requestId = id)) = [] := by
    rw [List.filter_eq_nil_iff]
    intro a ha heq
    obtain ⟨r, hr⟩ := h.approvals a ha
    rw [of_decide_eq_true heq, hid] at hr
    cases hr
  simp [decisionsOf, hnone]

theorem Recorded.count_eq_zero (h : Recorded db) {id : Uuid}
    (hid : db.requestItems.find id = none) : db.onApproveCalls.count id = 0 := by
  rw [List.count_eq_zero]
  intro hmem
  obtain ⟨r, hr⟩ := h.calls id hmem
  rw [hid] at hr
  cases hr

/-- Progress depends on the decisions and hook calls of the request itself only. -/
theorem Progress.congr (h : Progress n db row) (hdec : decisionsOf db' row.id = decisionsOf db row.id)
    (hcalls : db'.onApproveCalls.count row.id = db.onApproveCalls.count row.id) :
    Progress n db' row :=
  { h with
    decisions := hdec.trans h.decisions
    onApproveCalls := hcalls.trans h.onApproveCalls }

/-- A request that ends without an approval stays at its step. -/
theorem Progress.ended {row' : RequestItem π} (h : Progress n db row)
    (htotal : row'.totalSteps = row.totalSteps) (hstep : row'.currentStep = row.currentStep)
    (hclosed : ¬ row'.status.Open) (hnot : row'.status ≠ .approved) (hresolved : row'.resolvedAt ≠ none)
    (hdec : decisionsOf db' row'.id = expectedDecisions row')
    (hcalls : db'.onApproveCalls.count row'.id = 0) : Progress n db' row' where
  totalSteps := htotal.trans h.totalSteps
  one_le := hstep ▸ h.one_le
  le_length := hstep ▸ h.le_length
  pending heq := absurd (Or.inl heq) hclosed
  inReview heq := absurd (Or.inr heq) hclosed
  approved heq := absurd heq hnot
  decisions := hdec
  onApproveCalls := by rw [hcalls, if_neg hnot]
  resolvedAt := ⟨fun hnone => absurd hnone hresolved, fun hopen => absurd hopen hclosed⟩

/-! ### One event preserves the invariant -/

/-- An open request stands for the approvals of the steps below its own. -/
theorem expectedDecisions_of_open (hopen : request.status.Open) :
    expectedDecisions request = approvedSteps (request.currentStep - 1) := by
  rcases hopen with h | h <;> simp [expectedDecisions, h]

/-- A decision on an open request carries its progress on. -/
theorem Progress.decided {typeDef : RequestTypeDef π σ} (hdef : registry request.type = some typeDef)
    (hchain : IsChain typeDef n) (hreq : db.requestItems.find request.id = some request)
    (hopen : request.status.Open) (h : Progress n db request) (ht : TransitionOf registry request t)
    (hc : t.Committed env db db' row) : Progress n db' row := by
  have hone := h.one_le
  have hle := h.le_length
  have hdec := decisionsOf_self ht hc
  have hcount := hc.count_onApproveCalls request.id
  have hnotApproved : request.status ≠ .approved := by
    rintro heq
    rw [heq] at hopen
    exact RequestStatus.not_open_approved hopen
  rw [ht.requestId_eq, h.decisions, expectedDecisions_of_open hopen] at hdec
  rw [h.onApproveCalls, if_neg hnotApproved] at hcount
  obtain rfl := ht.row_eq hreq hc
  have hlast := approvedSteps_of_pos hone
  -- a decision of an open request is made for the current step, in a chain of `n`
  cases ht with
  | finalApproval hdef' hfinal delegation note actor now =>
    obtain rfl := Option.some.inj (hdef.symm.trans hdef')
    have hend : request.currentStep = n := by
      have := (hchain.isFinalStep_iff hone).1 hfinal
      omega
    constructor <;> try simp [finalApproval]
    · exact h.totalSteps
    · exact hone
    · exact hle
    · exact hend
    · rw [hdec]
      simp [finalApproval, approvalRow, expectedDecisions, hlast]
    · rw [hcount]
      simp [finalApproval]
  | stepApproval hdef' hfinal delegation note actor now nextAssigneeId =>
    obtain rfl := Option.some.inj (hdef.symm.trans hdef')
    have hlt : request.currentStep < n := by
      have hnot := mt (hchain.isFinalStep_iff hone).2 (by simp [hfinal])
      omega
    constructor <;> try simp [stepApproval]
    · exact h.totalSteps
    · exact hlt
    · exact hone
    · rw [hdec]
      simp [stepApproval, approvalRow, expectedDecisions, hlast]
    · rw [hcount]
      simp [stepApproval]
  | rejection hdef' delegation note actor now =>
    refine h.ended rfl rfl RequestStatus.not_open_rejected ?_ ?_ (hdec.trans ?_) (hcount.trans ?_)
    · exact RequestStatus.noConfusion
    · exact Option.some_ne_none now
    · simp [rejection, approvalRow, expectedDecisions]
    · simp [rejection]
  | cancellation hdef' actor now =>
    refine h.ended rfl rfl RequestStatus.not_open_cancelled ?_ ?_ (hdec.trans ?_) (hcount.trans ?_)
    · exact RequestStatus.noConfusion
    · exact Option.some_ne_none now
    · simp [cancellation, expectedDecisions]
    · simp [cancellation]
  | expiration hdef' now =>
    refine h.ended rfl rfl RequestStatus.not_open_expired ?_ ?_ (hdec.trans ?_) (hcount.trans ?_)
    · exact RequestStatus.noConfusion
    · exact Option.some_ne_none now
    · simp [expiration, expectedDecisions]
    · simp [expiration]

/-- A new request is at the start of its chain. -/
theorem Progress.submitted {typeDef : RequestTypeDef π σ} {type : String} {payload : π}
    {opts : SubmitRequestOptions} {newId : Uuid} (hchain : IsChain typeDef n)
    (hdec : decisionsOf db newId = []) (hcalls : db.onApproveCalls.count newId = 0) :
    Progress n db (submittedItem typeDef type payload actor opts now newId) where
  totalSteps := hchain.submittedItem_totalSteps type payload actor opts now newId
  one_le := le_refl 1
  le_length := hchain.one_le
  pending _ := rfl
  inReview h := by cases h
  approved h := by cases h
  decisions := hdec
  onApproveCalls := hcalls
  resolvedAt := by simp [submittedItem]

theorem recorded_initial (subscriptions : List WebhookSubscription) (tables : TxTables σ) :
    Recorded (Db.initial subscriptions tables : Db π σ) :=
  ⟨by simp [Db.initial], by simp [Db.initial]⟩

theorem Recorded.submitted {type : String} {payload : π} {opts : SubmitRequestOptions}
    {newId : Uuid} (h : Recorded db)
    (hs : Submitted registry type payload actor opts now newId env db db' row) : Recorded db' := by
  have hkeep : ∀ id, (∃ r, db.requestItems.find id = some r) →
      ∃ r, db'.requestItems.find id = some r :=
    fun id ⟨r, hr⟩ => ⟨r, Table.find_insert_of_find hs.requestItems hr⟩
  constructor
  · intro a ha
    rw [hs.requestApprovals] at ha
    exact hkeep _ (h.approvals a ha)
  · intro id hid
    rw [hs.onApproveCalls] at hid
    exact hkeep _ (h.calls id hid)

theorem Recorded.decided (h : Recorded db) (ht : TransitionOf registry request t)
    (hc : t.Committed env db db' row) : Recorded db' := by
  have hkeep : ∀ id, (∃ r, db.requestItems.find id = some r) →
      ∃ r, db'.requestItems.find id = some r := by
    rintro id ⟨r, hr⟩
    obtain ⟨r', hr', -⟩ := ht.find_kept hc hr
    exact ⟨r', hr'⟩
  have hself : ∃ r, db'.requestItems.find t.requestId = some r := ⟨row, hc.find_self⟩
  constructor
  · intro a ha
    rw [hc.requestApprovals, List.mem_append, Option.mem_toList] at ha
    rcases ha with ha | ha
    · exact hkeep _ (h.approvals a ha)
    · rw [ht.approval_requestId a ha]
      exact hself
  · intro id hid
    rw [hc.onApproveCalls, List.mem_append] at hid
    rcases hid with hid | hid
    · exact hkeep _ (h.calls id hid)
    · by_cases happ : t.approves = true
      · rw [if_pos happ, List.mem_singleton] at hid
        rw [hid]
        exact hself
      · rw [if_neg happ] at hid
        cases hid

/-- A submission keeps the invariant. -/
theorem SequentialInvariant.submitted {type : String} {payload : π} {opts : SubmitRequestOptions}
    {newId : Uuid} (h : SequentialInvariant registry db)
    (hs : Submitted registry type payload actor opts now newId env db db' row) :
    SequentialInvariant registry db' := by
  obtain ⟨hrec, hprog⟩ := h
  have hdecs : ∀ id, decisionsOf db' id = decisionsOf db id := by
    intro id
    rw [decisionsOf, hs.requestApprovals, decisionsOf]
  refine ⟨hrec.submitted hs, ?_⟩
  intro r hr typeDef n hdef hchain
  rcases (Table.mem_insert hs.requestItems).1 hr with hr | rfl
  · exact (hprog r hr typeDef n hdef hchain).congr (hdecs r.id) (by rw [hs.onApproveCalls])
  · -- the row is new, so nothing has been recorded under its id
    obtain ⟨typeDef', hdef', rfl⟩ := hs.row_eq
    have hfresh := (Table.insert_eq_some_iff.1 hs.requestItems).1
    obtain rfl : typeDef' = typeDef := Option.some.inj (hdef'.symm.trans hdef)
    refine Progress.submitted hchain ((hdecs _).trans (hrec.decisionsOf_eq_nil hfresh)) ?_
    rw [hs.onApproveCalls]
    exact hrec.count_eq_zero hfresh

/-- A decision on an open request keeps the invariant. -/
theorem SequentialInvariant.decided (h : SequentialInvariant registry db)
    (hd : DecidedOpen registry db db') : SequentialInvariant registry db' := by
  obtain ⟨hrec, hprog⟩ := h
  obtain ⟨request, env, row, hreq, hopen, t, ht, hc⟩ := hd
  refine ⟨hrec.decided ht hc, ?_⟩
  intro r hr typeDef n hdef hchain
  rcases ht.rows_committed hreq hc hr with rfl | ⟨hr, hne⟩
  · rw [(ht.update_fixed request).1] at hdef
    rw [← ht.row_eq hreq hc]
    exact (hprog request (Table.mem_of_find hreq) typeDef n hdef hchain).decided hdef hchain hreq
      hopen ht hc
  · rw [← ht.requestId_eq] at hne
    have hcount := hc.count_onApproveCalls r.id
    rw [if_neg (by simp [Ne.symm hne]), Nat.add_zero] at hcount
    exact (hprog r hr typeDef n hdef hchain).congr (decisionsOf_ne ht hc hne) hcount

/-- **The step lemma.** -/
theorem step_sequentialInvariant (registry : RequestRegistry π σ) (db : Db π σ) (e : Event π)
    (h : SequentialInvariant registry db) : SequentialInvariant registry (step registry db e) := by
  rcases step_cases registry db e with heq | ⟨_, _, _, _, _, _, _, _, hs⟩ | hd
  · rw [heq]
    exact h
  · exact h.submitted hs
  · exact h.decided hd

/-- **The run lemma.** -/
theorem run_sequentialInvariant (registry : RequestRegistry π σ)
    (subscriptions : List WebhookSubscription) (tables : TxTables σ) (es : List (Event π)) :
    SequentialInvariant registry (Runs.run (step registry) (Db.initial subscriptions tables) es) :=
  Runs.run_invariant (step_sequentialInvariant registry)
    ⟨recorded_initial subscriptions tables, by simp [Db.initial]⟩ es

/-- No event touches a request that is no longer open. -/
theorem mem_step_of_settled (registry : RequestRegistry π σ) (db : Db π σ) (e : Event π)
    {r : RequestItem π} (hr : r ∈ db.requestItems.rows) (hsettled : ¬ r.status.Open) :
    r ∈ (step registry db e).requestItems.rows := by
  rcases step_cases registry db e with heq | ⟨_, _, _, _, _, _, _, _, hs⟩ | hd
  · rw [heq]
    exact hr
  · exact (Table.mem_insert hs.requestItems).2 (Or.inl hr)
  · obtain ⟨request, env, row, hreq, hopen, t, ht, hc⟩ := hd
    have hne : r.id ≠ t.requestId := by
      intro heq
      rw [ht.requestId_eq] at heq
      rw [Table.mem_rows_iff_find, heq, hreq] at hr
      exact hsettled (Option.some.inj hr ▸ hopen)
    rw [Table.mem_rows_iff_find, hc.find_ne hne]
    exact Table.find_of_mem hr

end Steps

/-! ### The state of every request -/

/-- What the status of a request says about its history, in a chain of `n` steps. -/
structure SequentialState (n : ℕ) (db : Db π σ) (r : RequestItem π) : Prop where
  totalSteps : r.totalSteps = n
  pending : r.status = .pending → r.currentStep = 1 ∧ decisionsOf db r.id = []
  inReview : r.status = .inReview → 1 < r.currentStep ∧ r.currentStep ≤ n ∧
    decisionsOf db r.id = approvedSteps (r.currentStep - 1)
  approved : r.status = .approved →
    decisionsOf db r.id = approvedSteps n ∧ db.onApproveCalls.count r.id = 1
  rejected : r.status = .rejected →
    decisionsOf db r.id = approvedSteps (r.currentStep - 1) ++ [(r.currentStep, .rejected)] ∧
      db.onApproveCalls.count r.id = 0
  withdrawn : r.status = .cancelled ∨ r.status = .expired →
    decisionsOf db r.id = approvedSteps (r.currentStep - 1)
  resolvedAt : r.resolvedAt = none ↔ r.status.Open

theorem Progress.sequentialState {n : ℕ} {db : Db π σ} {r : RequestItem π} (h : Progress n db r) :
    SequentialState n db r := by
  have hdec := h.decisions
  constructor
  · exact h.totalSteps
  · intro hs
    have hstep := h.pending hs
    refine ⟨hstep, ?_⟩
    rw [hdec, expectedDecisions_of_open (Or.inl hs), hstep]
    rfl
  · intro hs
    refine ⟨h.inReview hs, h.le_length, ?_⟩
    rw [hdec, expectedDecisions_of_open (Or.inr hs)]
  · intro hs
    refine ⟨?_, by rw [h.onApproveCalls, if_pos hs]⟩
    rw [hdec, ← h.approved hs]
    simp [expectedDecisions, hs]
  · intro hs
    refine ⟨?_, by rw [h.onApproveCalls, hs, if_neg (by decide)]⟩
    rw [hdec]
    simp [expectedDecisions, hs]
  · rintro (hs | hs) <;> simp [hdec, expectedDecisions, hs]
  · exact h.resolvedAt

/-- **The sequential state machine.**  In every database that atomic calls lead to, every
request of a type with the steps `1, …, n` is in its state of the chain, and no further
call changes the row of a request that is no longer open. -/
theorem run_sequential (registry : RequestRegistry π σ) (subscriptions : List WebhookSubscription)
    (tables : TxTables σ) (es : List (Event π)) :
    let db := Runs.run (step registry) (Db.initial subscriptions tables) es
    (∀ r ∈ db.requestItems.rows, ∀ typeDef n, registry r.type = some typeDef →
      IsChain typeDef n → SequentialState n db r) ∧
    ∀ (e : Event π), ∀ r ∈ db.requestItems.rows, ¬ r.status.Open →
      r ∈ (step registry db e).requestItems.rows := by
  intro db
  constructor
  · intro r hr typeDef n hdef hchain
    have hinv := run_sequentialInvariant registry subscriptions tables es
    exact (hinv.2 r hr typeDef n hdef hchain).sequentialState
  · exact fun e r hr hsettled => mem_step_of_settled registry db e hr hsettled

/-! ### A chain of two steps -/

namespace TwoSteps

def typeDef : RequestTypeDef Unit Unit where
  type := "access_request"
  requiredApprovalPermission := "access_request.approve"
  approvalSteps := some
    [{ step := 1, requiredPermission := "access_request.approve" },
      { step := 2, requiredPermission := "access_request.security_approve" }]
  onApprove := fun _ _ _ => Hook.skip

def registry : RequestRegistry Unit Unit := fun _ => some typeDef

def view : AuthzView where
  check _ _ := true
  delegations := []
  now := 0

/-- A submission and the approvals of two others. -/
def events : List (Event Unit) :=
  [.submit "access_request" () ⟨1, "user1@example.com"⟩ {} 0 5 ⟨0, 0⟩,
    .approve view 5 none ⟨2, "user2@example.com"⟩ 10 ⟨10, 0⟩,
    .approve view 5 none ⟨3, "user3@example.com"⟩ 20 ⟨20, 0⟩]

/-- The database after them. -/
def db : Db Unit Unit := Runs.run (step registry) (Db.initial [] ⟨[], ()⟩) events

end TwoSteps

/-- The request of the run is approved, with one approval for each step and one call of
`onApprove`, and a further rejection leaves its row alone. -/
theorem run_sequential_twoSteps :
    ∃ r ∈ TwoSteps.db.requestItems.rows, r.status = .approved ∧
      SequentialState 2 TwoSteps.db r ∧
      r ∈ (step TwoSteps.registry TwoSteps.db (.reject TwoSteps.view 5 none
        ⟨2, "user2@example.com"⟩ 30 ⟨30, 0⟩)).requestItems.rows := by
  have hrun := run_sequential TwoSteps.registry [] ⟨[], ()⟩ TwoSteps.events
  have hchain : IsChain TwoSteps.typeDef 2 := ⟨by decide, List.Perm.refl _⟩
  refine ⟨_, List.mem_singleton.2 rfl, rfl, ?_, ?_⟩
  · exact hrun.1 _ (List.mem_singleton.2 rfl) TwoSteps.typeDef 2 rfl hchain
  · exact hrun.2 _ _ (List.mem_singleton.2 rfl) RequestStatus.not_open_approved

end RequestEngine

end OpsHub
