import OpsHub.Requests.Chain

/-!
# The stored length of an approval chain

`submit` stores the number of steps of a request as `totalSteps`.  Whether an approval is
the last one is not read from there: `approve` asks the type definition that is deployed
when the decision is made.  A run here is a list of atomic calls, each with the type
definitions of its own deployment.

* `KeepsLength`: a request is not past its stored length, and `onApprove` has been called
  for it, once, exactly if it has as many approvals as that length;
* `Counted`: what holds whatever is deployed: an open request stands one step above its
  approvals, and its hook has not been called;
* `Agrees`: the definition of a committed call goes with the stored length;
* `always_keepsLength_iff`: the length is kept in all states of a run exactly if every call
  agrees.
-/

namespace OpsHub

variable {π σ : Type}

namespace RequestEngine

/-! ### Calls under changing definitions -/

/-- An atomic call, with the type definitions deployed when it is made. -/
structure DeployedCall (π σ : Type) where
  registry : RequestRegistry π σ
  event : Event π

/-- The database after a call. -/
def stepDeployed (db : Db π σ) (c : DeployedCall π σ) : Db π σ := step c.registry db c.event

/-- The number of decisions `approved` recorded for a request. -/
def approvedCount (db : Db π σ) (id : Uuid) : ℕ :=
  db.requestApprovals.countP (fun a => decide (a.requestId = id ∧ a.decision = .approved))

/-- A request within its stored length, whose hook goes with its approvals. -/
structure KeepsLength (db : Db π σ) (r : RequestItem π) : Prop where
  step_le : r.currentStep ≤ r.totalSteps
  fires : db.onApproveCalls.count r.id = if approvedCount db r.id = r.totalSteps then 1 else 0

/-- Every request keeps its length. -/
def LengthKept (db : Db π σ) : Prop := ∀ r ∈ db.requestItems.rows, KeepsLength db r

/-- The stored lengths of `db` are still there in `db'`. -/
def TotalStepsKept (db db' : Db π σ) : Prop :=
  ∀ r ∈ db.requestItems.rows, ∃ r' ∈ db'.requestItems.rows, r'.id = r.id ∧
    r'.totalSteps = r.totalSteps

/-- The last step of the definition is the stored length of the request that waits on it. -/
def LastStepAgrees (registry : RequestRegistry π σ) (db : Db π σ) (requestId : Uuid) : Prop :=
  ∀ request typeDef, db.requestItems.find requestId = some request →
    registry request.type = some typeDef →
    (isFinalStep typeDef request.currentStep = true ↔ request.currentStep = request.totalSteps)

/-- A call whose definition goes with the stored lengths: a submission that commits has at
least one step, and an approval that commits is the last one by the definition exactly if it
is by the request. -/
def Agrees (db : Db π σ) (c : DeployedCall π σ) : Prop :=
  match c.event with
  | .submit type payload actor opts now newId env =>
    (∃ res, submit c.registry type payload actor opts now newId env db = .ok res) →
      ∀ typeDef steps, c.registry type = some typeDef → typeDef.approvalSteps = some steps →
        steps ≠ []
  | .approve view requestId note actor now env =>
    (∃ res, approve c.registry view requestId note actor now env db = .ok res) →
      LastStepAgrees c.registry db requestId
  | _ => True

/-- The approvals of an open request, whatever is deployed. -/
structure Counted (db : Db π σ) : Prop where
  recorded : Recorded db
  approvals : ∀ r ∈ db.requestItems.rows, r.status.Open →
    approvedCount db r.id + 1 = r.currentStep ∧ db.onApproveCalls.count r.id = 0

section Steps

variable {registry : RequestRegistry π σ} {requestId : Uuid} {actor : Actor} {now : Time}
  {env : HookEnv} {db db' : Db π σ} {request row r : RequestItem π} {t : Transition π σ}
  {type : String} {payload : π} {opts : SubmitRequestOptions} {newId : Uuid}
  {delegation : Option ApprovalDelegation} {note : Option String}
  {typeDef : RequestTypeDef π σ}

/-! ### The approvals after a commit -/

theorem approvedCount_committed (hc : t.Committed env db db' row) (id : Uuid) :
    approvedCount db' id = approvedCount db id +
      t.approval.toList.countP (fun a => decide (a.requestId = id ∧ a.decision = .approved)) := by
  unfold approvedCount
  rw [hc.requestApprovals, List.countP_append]

/-- A decision counts for its own request only. -/
theorem approvedCount_ne (ht : TransitionOf registry request t)
    (hc : t.Committed env db db' row) {id : Uuid} (hne : id ≠ request.id) :
    approvedCount db' id = approvedCount db id := by
  have hid := ht.approval_requestId
  rw [ht.requestId_eq] at hid
  rw [approvedCount_committed hc]
  cases ha : t.approval with
  | none => rfl
  | some a => simp [hid a ha, Ne.symm hne]

theorem count_onApproveCalls_ne (ht : TransitionOf registry request t)
    (hc : t.Committed env db db' row) {id : Uuid} (hne : id ≠ request.id) :
    db'.onApproveCalls.count id = db.onApproveCalls.count id := by
  rw [hc.count_onApproveCalls, if_neg, Nat.add_zero]
  rintro ⟨-, heq⟩
  exact hne (heq.symm.trans ht.requestId_eq)

/-- A request without a row has no approvals. -/
theorem Recorded.approvedCount_eq_zero (h : Recorded db) {id : Uuid}
    (hid : db.requestItems.find id = none) : approvedCount db id = 0 := by
  refine List.countP_eq_zero.2 fun a ha hcond => ?_
  obtain ⟨r, hr⟩ := h.approvals a ha
  rw [(of_decide_eq_true hcond).1, hid] at hr
  cases hr

/-- Keeping the length depends on the approvals and hook calls of the request only. -/
theorem KeepsLength.congr (h : KeepsLength db r)
    (happ : approvedCount db' r.id = approvedCount db r.id)
    (hcalls : db'.onApproveCalls.count r.id = db.onApproveCalls.count r.id) :
    KeepsLength db' r where
  step_le := h.step_le
  fires := by rw [hcalls, happ, h.fires]

/-! ### What holds whatever is deployed -/

theorem Counted.submitted (h : Counted db)
    (hs : Submitted registry type payload actor opts now newId env db db' row) : Counted db' := by
  have happ : ∀ id, approvedCount db' id = approvedCount db id := by
    intro id
    rw [approvedCount, hs.requestApprovals, approvedCount]
  refine ⟨h.recorded.submitted hs, ?_⟩
  rw [hs.onApproveCalls]
  refine Table.forall_mem_insert hs.requestItems (fun r hr hopen => ?_) fun _ => ?_
  · rw [happ]
    exact h.approvals r hr hopen
  · -- nothing has been recorded under the id of a new row
    obtain ⟨typeDef, -, rfl⟩ := hs.row_eq
    have hfresh := (Table.insert_eq_some_iff.1 hs.requestItems).1
    rw [happ, h.recorded.approvedCount_eq_zero hfresh]
    exact ⟨rfl, h.recorded.count_eq_zero hfresh⟩

/-- A decision that leaves its request open is an approval of one more step. -/
theorem Counted.decided (h : Counted db) (hreq : db.requestItems.find request.id = some request)
    (hopen : request.status.Open) (ht : TransitionOf registry request t)
    (hc : t.Committed env db db' row) : Counted db' := by
  refine ⟨h.recorded.decided ht hc, ?_⟩
  obtain ⟨hstep, hcalls⟩ := h.approvals request (Table.mem_of_find hreq) hopen
  have happ := approvedCount_committed hc request.id
  have hcount := hc.count_onApproveCalls request.id
  intro r hr hropen
  rcases ht.rows_committed hreq hc hr with rfl | ⟨hr, hne⟩
  · rw [t.update_id, happ, hcount, hcalls]
    cases ht with
    | finalApproval => exact absurd hropen RequestStatus.not_open_approved
    | stepApproval =>
      refine ⟨?_, by simp [stepApproval]⟩
      simp [stepApproval, approvalRow, hstep]
    | rejection => exact absurd hropen RequestStatus.not_open_rejected
    | cancellation => exact absurd hropen RequestStatus.not_open_cancelled
    | expiration => exact absurd hropen RequestStatus.not_open_expired
  · rw [approvedCount_ne ht hc hne, count_onApproveCalls_ne ht hc hne]
    exact h.approvals r hr hropen

theorem step_counted (registry : RequestRegistry π σ) (db : Db π σ) (e : Event π)
    (h : Counted db) : Counted (step registry db e) := by
  rcases step_cases registry db e with heq | ⟨_, _, _, _, _, _, _, _, hs⟩ | hd
  · rw [heq]
    exact h
  · exact h.submitted hs
  · obtain ⟨request, env, row, hreq, hopen, t, ht, hc⟩ := hd
    exact h.decided hreq hopen ht hc

theorem counted_initial (subscriptions : List WebhookSubscription) (tables : TxTables σ) :
    Counted (Db.initial subscriptions tables : Db π σ) :=
  ⟨recorded_initial subscriptions tables, by simp [Db.initial]⟩

theorem totalStepsKept_refl (db : Db π σ) : TotalStepsKept db db :=
  fun r hr => ⟨r, hr, rfl, rfl⟩

theorem TotalStepsKept.trans {db'' : Db π σ} (h : TotalStepsKept db db')
    (h' : TotalStepsKept db' db'') : TotalStepsKept db db'' := by
  intro r hr
  obtain ⟨r', hr', hid, htotal⟩ := h r hr
  obtain ⟨r'', hr'', hid', htotal'⟩ := h' r' hr'
  exact ⟨r'', hr'', hid'.trans hid, htotal'.trans htotal⟩

/-- No call writes a stored length. -/
theorem step_totalStepsKept (registry : RequestRegistry π σ) (db : Db π σ) (e : Event π) :
    TotalStepsKept db (step registry db e) := by
  rcases step_cases registry db e with heq | ⟨_, _, _, _, _, _, _, _, hs⟩ | hd
  · rw [heq]
    exact totalStepsKept_refl db
  · exact fun r hr => ⟨r, (Table.mem_insert hs.requestItems).2 (Or.inl hr), rfl, rfl⟩
  · obtain ⟨request, env, row, hreq, hopen, t, ht, hc⟩ := hd
    intro r hr
    have hr' := ht.find_committed hreq hc (Table.find_of_mem hr)
    refine ⟨_, Table.mem_of_find hr', Table.key_of_find hr', ?_⟩
    by_cases hid : r.id = request.id
    · obtain rfl : r = request :=
        Option.some.inj ((Table.find_of_mem hr).symm.trans (hid ▸ hreq))
      rw [if_pos rfl]
      exact (ht.update_fixed r).2.2.2
    · rw [if_neg hid]

/-! ### When a call keeps the length -/

/-- A new request keeps its length exactly if it has a step. -/
theorem lengthKept_submitted_iff (hcounted : Counted db) (h : LengthKept db)
    (hs : Submitted registry type payload actor opts now newId env db db' row) :
    LengthKept db' ↔ row.totalSteps ≠ 0 := by
  have happ : ∀ id, approvedCount db' id = approvedCount db id := by
    intro id
    rw [approvedCount, hs.requestApprovals, approvedCount]
  have hfresh := (Table.insert_eq_some_iff.1 hs.requestItems).1
  have hone : row.currentStep = 1 := by
    obtain ⟨typeDef, -, rfl⟩ := hs.row_eq
    rfl
  constructor
  · intro hkept hzero
    have hle := (hkept row ((Table.mem_insert hs.requestItems).2 (Or.inr rfl))).step_le
    omega
  · intro hpos
    refine Table.forall_mem_insert hs.requestItems (fun r hr => ?_) ⟨by omega, ?_⟩
    · exact (h r hr).congr (happ r.id) (by rw [hs.onApproveCalls])
    · rw [hs.onApproveCalls, hcounted.recorded.count_eq_zero hfresh, happ,
        hcounted.recorded.approvedCount_eq_zero hfresh, if_neg (Ne.symm hpos)]

/-- A decision concerns its own request. -/
theorem lengthKept_decided_iff (h : LengthKept db)
    (hreq : db.requestItems.find request.id = some request) (ht : TransitionOf registry request t)
    (hc : t.Committed env db db' row) : LengthKept db' ↔ KeepsLength db' (t.update request) := by
  constructor
  · intro hkept
    have hself := ht.find_committed hreq hc hreq
    rw [if_pos rfl] at hself
    exact hkept _ (Table.mem_of_find hself)
  · intro hself r hr
    rcases ht.rows_committed hreq hc hr with rfl | ⟨hr, hne⟩
    · exact hself
    · exact (h r hr).congr (approvedCount_ne ht hc hne) (count_onApproveCalls_ne ht hc hne)

/-- The last approval keeps the length exactly if the request stands at its end. -/
theorem keepsLength_finalApproval_iff (hcounted : approvedCount db request.id + 1 =
      request.currentStep ∧ db.onApproveCalls.count request.id = 0) (h : KeepsLength db request)
    (hc : (finalApproval typeDef request delegation note actor now).Committed env db db' row) :
    KeepsLength db' ((finalApproval typeDef request delegation note actor now).update request) ↔
      request.currentStep = request.totalSteps := by
  have happ : approvedCount db' request.id = request.currentStep := by
    rw [approvedCount_committed hc, ← hcounted.1]
    simp [finalApproval, approvalRow]
  have hcount : db'.onApproveCalls.count request.id = 1 := by
    rw [hc.count_onApproveCalls, hcounted.2]
    simp [finalApproval]
  constructor
  · intro hkeeps
    have hfires : db'.onApproveCalls.count request.id =
      if approvedCount db' request.id = request.totalSteps then 1 else 0 := hkeeps.fires
    rw [hcount, happ] at hfires
    by_contra hne
    rw [if_neg hne] at hfires
    cases hfires
  · intro heq
    refine ⟨h.step_le, hcount.trans ?_⟩
    show 1 = if approvedCount db' request.id = request.totalSteps then 1 else 0
    rw [happ, if_pos heq]

/-- An earlier approval keeps it exactly if the request does not stand there. -/
theorem keepsLength_stepApproval_iff (hcounted : approvedCount db request.id + 1 =
      request.currentStep ∧ db.onApproveCalls.count request.id = 0) (h : KeepsLength db request)
    {nextAssigneeId : Option Uuid}
    (hc : (stepApproval typeDef request delegation note actor now nextAssigneeId).Committed
      env db db' row) :
    KeepsLength db'
        ((stepApproval typeDef request delegation note actor now nextAssigneeId).update request) ↔
      request.currentStep ≠ request.totalSteps := by
  have happ : approvedCount db' request.id = request.currentStep := by
    rw [approvedCount_committed hc, ← hcounted.1]
    simp [stepApproval, approvalRow]
  have hcount : db'.onApproveCalls.count request.id = 0 := by
    rw [hc.count_onApproveCalls, hcounted.2]
    simp [stepApproval]
  have hle := h.step_le
  constructor
  · intro hkeeps
    have hnext : request.currentStep + 1 ≤ request.totalSteps := hkeeps.step_le
    omega
  · intro hne
    have hnext : request.currentStep + 1 ≤ request.totalSteps := by omega
    refine ⟨hnext, hcount.trans ?_⟩
    show 0 = if approvedCount db' request.id = request.totalSteps then 1 else 0
    rw [happ, if_neg hne]

/-- A decision that approves nothing keeps it. -/
theorem keepsLength_of_not_approval (h : KeepsLength db request)
    (ht : TransitionOf registry request t) (hc : t.Committed env db db' row)
    (hstep : (t.update request).currentStep = request.currentStep)
    (hnone : ∀ a ∈ t.approval, a.decision ≠ .approved) (happroves : t.approves = false) :
    KeepsLength db' (t.update request) := by
  have happ : approvedCount db' request.id = approvedCount db request.id := by
    rw [approvedCount_committed hc]
    cases ha : t.approval with
    | none => rfl
    | some a => simp [hnone a ha]
  have hcount : db'.onApproveCalls.count request.id = db.onApproveCalls.count request.id := by
    rw [hc.count_onApproveCalls, happroves]
    simp
  obtain ⟨-, -, -, htotal⟩ := ht.update_fixed request
  refine ⟨by rw [hstep, htotal]; exact h.step_le, ?_⟩
  rw [t.update_id, htotal, hcount, happ]
  exact h.fires

/-- The calls that approve nothing keep all lengths. -/
theorem lengthKept_of_not_approval (h : LengthKept db)
    (hreq : db.requestItems.find requestId = some request) (ht : TransitionOf registry request t)
    (hc : t.Committed env db db' row)
    (hstep : (t.update request).currentStep = request.currentStep)
    (hnone : ∀ a ∈ t.approval, a.decision ≠ .approved) (happroves : t.approves = false) :
    LengthKept db' := by
  have hself : db.requestItems.find request.id = some request :=
    Table.find_of_mem (Table.mem_of_find hreq)
  refine (lengthKept_decided_iff h hself ht hc).2 ?_
  exact keepsLength_of_not_approval (h request (Table.mem_of_find hreq)) ht hc hstep hnone happroves

/-- **An approval** keeps all lengths exactly if its definition goes with the request. -/
theorem lengthKept_approve_iff {view : AuthzView} (hcounted : Counted db) (h : LengthKept db)
    (happrove : approve registry view requestId note actor now env db = .ok (db', row)) :
    LengthKept db' ↔ LastStepAgrees registry db requestId := by
  obtain ⟨request, delegation, hreq, hcheck, htx⟩ := approve_eq_ok_iff.1 happrove
  have hmem := Table.mem_of_find hreq
  have hself := Table.find_of_mem hmem
  have hkeeps := h request hmem
  have hat := hcounted.approvals request hmem (reviewCheck_eq_ok_iff.1 hcheck).1
  have hagrees : ∀ {typeDef : RequestTypeDef π σ}, registry request.type = some typeDef →
      (LastStepAgrees registry db requestId ↔
        (isFinalStep typeDef request.currentStep = true ↔
          request.currentStep = request.totalSteps)) := by
    intro typeDef hdef
    refine ⟨fun hall => hall request typeDef hreq hdef, fun hiff request' typeDef' hreq' hdef' => ?_⟩
    obtain rfl : request = request' := Option.some.inj (hreq.symm.trans hreq')
    obtain rfl : typeDef = typeDef' := Option.some.inj (hdef.symm.trans hdef')
    exact hiff
  obtain ⟨typeDef, hdef, ⟨hfinal, hc⟩ | ⟨hfinal, nextAssigneeId, hc⟩⟩ := approveTx_ok htx
  · rw [lengthKept_decided_iff h hself (.finalApproval hdef hfinal _ _ _ _) hc,
      keepsLength_finalApproval_iff hat hkeeps hc, hagrees hdef, hfinal]
    simp
  · rw [lengthKept_decided_iff h hself (.stepApproval hdef hfinal _ _ _ _ _) hc,
      keepsLength_stepApproval_iff hat hkeeps hc, hagrees hdef, hfinal]
    simp

/-- **The step lemma.** -/
theorem stepDeployed_lengthKept_iff (db : Db π σ) (c : DeployedCall π σ) (hcounted : Counted db)
    (h : LengthKept db) : LengthKept (stepDeployed db c) ↔ Agrees db c := by
  obtain ⟨registry, e⟩ := c
  cases e with
  | submit type payload actor opts now newId env =>
    cases hres : submit registry type payload actor opts now newId env db with
    | error _ => simp [stepDeployed, step, Agrees, hres, Except.map, h]
    | ok res =>
      have hs := submit_ok hres
      simp only [stepDeployed, step, hres, Except.map, Outcome.commit_ok, Agrees]
      rw [lengthKept_submitted_iff hcounted h hs]
      obtain ⟨typeDef, hdef, hrow⟩ := hs.row_eq
      rw [hrow]
      constructor
      · rintro hpos - typeDef' steps hdef' hsteps rfl
        obtain rfl : typeDef = typeDef' := Option.some.inj (hdef.symm.trans hdef')
        exact hpos (by simp [submittedItem, hsteps])
      · intro hall
        have hsome := hall ⟨res, rfl⟩ typeDef
        cases hsteps : typeDef.approvalSteps with
        | none => simp [submittedItem, hsteps]
        | some steps => simpa [submittedItem, hsteps] using hsome steps hdef hsteps
  | approve view requestId note actor now env =>
    cases hres : approve registry view requestId note actor now env db with
    | error _ => simp [stepDeployed, step, Agrees, hres, Except.map, h]
    | ok res =>
      simp only [stepDeployed, step, hres, Except.map, Outcome.commit_ok, Agrees]
      rw [lengthKept_approve_iff hcounted h hres]
      exact ⟨fun hagrees _ => hagrees, fun himp => himp ⟨res, rfl⟩⟩
  | reject view requestId note actor now env =>
    refine iff_of_true (Outcome.commit_induction h fun db' hres => ?_) trivial
    obtain ⟨⟨db'', row⟩, hreject, rfl⟩ := Except.map_eq_ok_iff.1 hres
    obtain ⟨request, delegation, hreq, -, htx⟩ := reject_eq_ok_iff.1 hreject
    obtain ⟨typeDef, hdef, hrun⟩ := rejectTx_eq_ok_iff.1 htx
    exact lengthKept_of_not_approval h hreq (.rejection hdef _ _ _ _) (Transition.run_ok hrun) rfl
      (by simp [rejection, approvalRow]) rfl
  | cancel view requestId actor now env =>
    refine iff_of_true (Outcome.commit_induction h fun db' hres => ?_) trivial
    obtain ⟨⟨db'', row⟩, hcancel, rfl⟩ := Except.map_eq_ok_iff.1 hres
    obtain ⟨request, hreq, -, htx⟩ := cancel_eq_ok_iff.1 hcancel
    obtain ⟨typeDef, hdef, hrun⟩ := cancelTx_eq_ok_iff.1 htx
    exact lengthKept_of_not_approval h hreq (.cancellation hdef _ _) (Transition.run_ok hrun) rfl
      (by simp [cancellation]) rfl
  | expire requestId now env =>
    refine iff_of_true (Outcome.commit_induction h fun db' hres => ?_) trivial
    obtain rfl | ⟨request, row, hreq, -, htx⟩ := expire_ok hres
    · exact h
    · obtain ⟨typeDef, hdef, hrun⟩ := expireTx_eq_ok_iff.1 htx
      exact lengthKept_of_not_approval h hreq (.expiration hdef _) (Transition.run_ok hrun) rfl
        (by simp [expiration]) rfl

end Steps

/-! ### Runs -/

/-- **The stored length.**  In a run of calls under any deployments all requests keep their
length in all states passed exactly if every call agrees with the stored lengths; the lengths
themselves are never changed. -/
theorem always_keepsLength_iff (subscriptions : List WebhookSubscription) (tables : TxTables σ)
    (cs : List (DeployedCall π σ)) :
    ((∀ fs, fs <+: cs →
        LengthKept (Runs.run stepDeployed (Db.initial subscriptions tables) fs)) ∧
      ∀ fs gs, fs <+: gs → gs <+: cs →
        TotalStepsKept (Runs.run stepDeployed (Db.initial subscriptions tables) fs)
          (Runs.run stepDeployed (Db.initial subscriptions tables) gs)) ↔
      Runs.Meets stepDeployed Agrees (Db.initial subscriptions tables) cs := by
  have hstored : ∀ fs gs, fs <+: gs → gs <+: cs →
      TotalStepsKept (Runs.run stepDeployed (Db.initial subscriptions tables : Db π σ) fs)
        (Runs.run stepDeployed (Db.initial subscriptions tables) gs) := by
    rintro fs gs ⟨es, rfl⟩ -
    rw [Runs.run_append]
    exact @Runs.run_related _ _ stepDeployed (fun _ _ => True) (fun _ => True) TotalStepsKept
      totalStepsKept_refl (fun _ _ _ hab hbc => hab.trans hbc)
      (fun db c _ _ => ⟨trivial, step_totalStepsKept c.registry db c.event⟩) _ es trivial
      (Runs.meets_of_forall (fun _ _ => trivial) _ es)
  rw [and_iff_left hstored]
  exact @Runs.always_iff_meets_of _ _ stepDeployed Agrees (fun _ => True) Counted LengthKept
    (fun db c _ hcounted h => stepDeployed_lengthKept_iff db c hcounted h)
    (fun db c _ hcounted _ _ => step_counted c.registry db c.event hcounted) _ cs
    (fun _ _ => trivial) (counted_initial subscriptions tables) (by simp [LengthKept, Db.initial])

/-! ### A deployment between two decisions -/

namespace Redeployed

/-- The registry of a deployment whose one type has steps with these numbers. -/
def registry (steps : List ℕ) : RequestRegistry Unit Unit := fun _ => some
  { type := "access_request"
    requiredApprovalPermission := "access_request.approve"
    approvalSteps := some
      (steps.map fun step => { step := step, requiredPermission := "access_request.approve" })
    onApprove := fun _ _ _ => Hook.skip }

def submission (steps : List ℕ) : DeployedCall Unit Unit :=
  ⟨registry steps, .submit "access_request" () ⟨1, "user1@example.com"⟩ {} 0 5 ⟨0, 0⟩⟩

/-- The approval of another user. -/
def approval (steps : List ℕ) : DeployedCall Unit Unit :=
  ⟨registry steps, .approve TwoSteps.view 5 none ⟨2, "user2@example.com"⟩ 10 ⟨10, 0⟩⟩

/-- The database after these calls. -/
def after (cs : List (DeployedCall Unit Unit)) : Db Unit Unit :=
  Runs.run stepDeployed (Db.initial [] ⟨[], ()⟩) cs

end Redeployed

/-- Three requests that do not keep their length: one submitted with two steps and decided
under a definition with one; one with an empty list of steps; and one with the steps 1 and 3,
which waits on a third step after two approvals. -/
theorem keepsLength_fails :
    ¬ LengthKept (Redeployed.after [Redeployed.submission [1, 2], Redeployed.approval [1]]) ∧
      ¬ LengthKept (Redeployed.after [Redeployed.submission []]) ∧
      ¬ LengthKept (Redeployed.after [Redeployed.submission [1, 3], Redeployed.approval [1, 3],
        Redeployed.approval [1, 3]]) := by
  refine ⟨fun h => ?_, fun h => ?_, fun h => ?_⟩
  · -- `onApprove` has been called after one approval of two
    exact absurd (h _ (List.mem_singleton.2 rfl)).fires (by decide)
  · exact absurd (h _ (List.mem_singleton.2 rfl)).step_le (by decide)
  · exact absurd (h _ (List.mem_singleton.2 rfl)).step_le (by decide)

end RequestEngine

end OpsHub
