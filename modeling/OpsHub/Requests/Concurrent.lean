import OpsHub.Requests.Chain

/-!
# Concurrent calls of the engine

Any number of `approve`, `reject`, `cancel` and `expire` calls in flight.  Each call
takes three steps, in any order with the steps of the others: it reads the request,
checks the copy, and commits its transaction.  `submit` reads no request, so it is one
step.  `reviews` records, for the statements only, what the check of each committed
decision has seen.

* `step_cases`: a step is quiet, a submission, or the commit of a transition of the
  copy that the call has read;
* `CommitsOnOpen`: at its commit, the request of the call is still open;
* `run_settled`: under this condition a settled request keeps its row, and `onApprove`
  is committed at most once for each request.
-/

namespace OpsHub

variable {π σ : Type}

namespace Concurrent

open RequestEngine

/-! ### Calls in flight -/

/-- The operations on an existing request. -/
inductive Operation
  | approve (note : Option String) (actor : Actor)
  | reject (note : Option String) (actor : Actor)
  | cancel (actor : Actor)
  | expire
  deriving DecidableEq, Repr

namespace Operation

/-- The checks of an operation on its copy of the request: the delegation to act under
if the call goes on to its transaction, nothing if it ends there. -/
def check (registry : RequestRegistry π σ) (view : AuthzView) (request : RequestItem π) :
    Operation → Option (Option ApprovalDelegation)
  | .approve _ actor => (reviewCheck registry view "approve" request actor).toOption
  | .reject _ actor => (reviewCheck registry view "reject" request actor).toOption
  | .cancel actor => (cancelCheck registry view request actor).toOption.map (fun _ => none)
  | .expire => if request.status.Open then some none else none

/-- The transaction of an operation. -/
def tx (registry : RequestRegistry π σ) (request : RequestItem π)
    (delegation : Option ApprovalDelegation) (now : Time) (env : HookEnv) (db : Db π σ) :
    Operation → Except Failure (Db π σ × RequestItem π)
  | .approve note actor => approveTx registry request delegation note actor now env db
  | .reject note actor => rejectTx registry request delegation note actor now env db
  | .cancel actor => cancelTx registry request actor now env db
  | .expire => expireTx registry request now env db

/-- The decision that the transaction records. -/
def decision (request : RequestItem π) (delegation : Option ApprovalDelegation) (now : Time) :
    Operation → Option RequestApproval
  | .approve note actor => some (approvalRow request delegation .approved note actor now)
  | .reject note actor => some (approvalRow request delegation .rejected note actor now)
  | .cancel _ => none
  | .expire => none

end Operation

/-- How far a call has come. -/
inductive Phase (π : Type)
  | read (request : RequestItem π)
  | checked (request : RequestItem π) (delegation : Option ApprovalDelegation) (view : AuthzView)
  | finished

/-- A call in flight. -/
structure Call (π : Type) where
  operation : Operation
  phase : Phase π

/-- The copy of the request that a call still works with. -/
def Call.copy (call : Call π) : Option (RequestItem π) :=
  match call.phase with
  | .read request => some request
  | .checked request _ _ => some request
  | .finished => none

/-- A committed decision, with the copy it was taken on and what the check has seen. -/
structure Review (π : Type) where
  request : RequestItem π
  view : AuthzView
  approval : RequestApproval

/-- The database, the calls in flight and the decisions so far. -/
structure State (π σ : Type) where
  db : Db π σ
  calls : List (Call π)
  reviews : List (Review π)

/-- The copies that calls in flight work with. -/
def State.copies (s : State π σ) : List (RequestItem π) := s.calls.filterMap Call.copy

/-- A database without requests, and no call in flight. -/
def State.initial (subscriptions : List WebhookSubscription) (tables : TxTables σ) : State π σ :=
  ⟨Db.initial subscriptions tables, [], []⟩

/-- One step of one call. -/
inductive Event (π : Type)
  | submit (type : String) (payload : π) (actor : Actor) (opts : SubmitRequestOptions)
      (now : Time) (newId : Uuid) (env : HookEnv)
  | read (requestId : Uuid) (operation : Operation)
  | check (i : ℕ) (view : AuthzView)
  | commit (i : ℕ) (now : Time) (env : HookEnv)

/-- End the `i`-th call. -/
def State.finish (s : State π σ) (i : ℕ) (operation : Operation) : State π σ :=
  { s with calls := s.calls.set i ⟨operation, .finished⟩ }

/-- The state after one step; a step that is not due leaves the state as it is. -/
def step (registry : RequestRegistry π σ) (s : State π σ) : Event π → State π σ
  | .submit type payload actor opts now newId env =>
    { s with
      db := Outcome.commit s.db
        ((submit registry type payload actor opts now newId env s.db).map Prod.fst) }
  | .read requestId operation =>
    match s.db.requestItems.find requestId with
    | some request => { s with calls := s.calls ++ [⟨operation, .read request⟩] }
    | none => s
  | .check i view =>
    match s.calls[i]? with
    | some ⟨operation, .read request⟩ =>
      match operation.check registry view request with
      | some delegation =>
        { s with calls := s.calls.set i ⟨operation, .checked request delegation view⟩ }
      | none => s.finish i operation
    | _ => s
  | .commit i now env =>
    match s.calls[i]? with
    | some ⟨operation, .checked request delegation view⟩ =>
      match operation.tx registry request delegation now env s.db with
      | .ok (db, _) =>
        { s.finish i operation with
          db := db
          reviews := s.reviews ++
            ((operation.decision request delegation now).map (Review.mk request view)).toList }
      | .error _ => s.finish i operation
    | _ => s

/-! ### What one step can do -/

section Steps

variable {registry : RequestRegistry π σ} {s : State π σ} {request row : RequestItem π}
  {operation : Operation} {delegation : Option ApprovalDelegation} {view : AuthzView}
  {now : Time} {env : HookEnv} {db db' : Db π σ} {t : Transition π σ} {i : ℕ}

/-- **A committed transaction** runs a transition of the copy, which records the decision
of the operation. -/
theorem Operation.tx_ok
    (h : operation.tx registry request delegation now env db = .ok (db', row)) :
    ∃ t, TransitionOf registry request t ∧ t.Committed env db db' row ∧
      t.approval = operation.decision request delegation now := by
  cases operation with
  | approve note actor =>
    obtain ⟨typeDef, hdef, ⟨hfinal, hc⟩ | ⟨hfinal, nextAssigneeId, hc⟩⟩ := approveTx_ok h
    · exact ⟨_, .finalApproval hdef hfinal _ _ _ _, hc, rfl⟩
    · exact ⟨_, .stepApproval hdef hfinal _ _ _ _ _, hc, rfl⟩
  | reject note actor =>
    obtain ⟨typeDef, hdef, hrun⟩ := rejectTx_eq_ok_iff.1 h
    exact ⟨_, .rejection hdef _ _ _ _, Transition.run_ok hrun, rfl⟩
  | cancel actor =>
    obtain ⟨typeDef, hdef, hrun⟩ := cancelTx_eq_ok_iff.1 h
    exact ⟨_, .cancellation hdef _ _, Transition.run_ok hrun, rfl⟩
  | expire =>
    obtain ⟨typeDef, hdef, hrun⟩ := expireTx_eq_ok_iff.1 h
    exact ⟨_, .expiration hdef _, Transition.run_ok hrun, rfl⟩

/-- A committed transaction runs a transition of the copy. -/
theorem Operation.tx_decided
    (h : operation.tx registry request delegation now env db = .ok (db', row)) :
    Decided registry request env db db' row := by
  obtain ⟨t, ht, hc, -⟩ := Operation.tx_ok h
  exact ⟨t, ht, hc⟩

theorem mem_copies : request ∈ s.copies ↔ ∃ call ∈ s.calls, call.copy = some request := by
  simp [State.copies]

/-- Changing one call adds no copy but its own. -/
theorem mem_copies_of_mem_set {call : Call π}
    (h : request ∈ ({ s with calls := s.calls.set i call } : State π σ).copies) :
    request ∈ s.copies ∨ call.copy = some request := by
  obtain ⟨call', hmem, hcopy⟩ := mem_copies.1 h
  rcases List.mem_or_eq_of_mem_set hmem with hmem | rfl
  · exact Or.inl (mem_copies.2 ⟨call', hmem, hcopy⟩)
  · exact Or.inr hcopy

theorem mem_copies_of_mem_finish (h : request ∈ (s.finish i operation).copies) :
    request ∈ s.copies := by
  rcases mem_copies_of_mem_set h with h | h
  · exact h
  · cases h

/-- The commit of the `i`-th call, which has read `request`. -/
structure Commit (registry : RequestRegistry π σ) (s s' : State π σ) (i : ℕ) (now : Time)
    (env : HookEnv) (operation : Operation) (request : RequestItem π)
    (delegation : Option ApprovalDelegation) (view : AuthzView) : Prop where
  call : s.calls[i]? = some ⟨operation, .checked request delegation view⟩
  tx : ∃ row, operation.tx registry request delegation now env s.db = .ok (s'.db, row)
  reviews : s'.reviews = s.reviews ++
    ((operation.decision request delegation now).map (Review.mk request view)).toList
  copies : ∀ r ∈ s'.copies, r ∈ s.copies

/-- **What one step can do**: nothing to the database and the reviews, a submission, or
the commit of a call. -/
theorem step_cases (registry : RequestRegistry π σ) (s : State π σ) (e : Event π) :
    ((step registry s e).db = s.db ∧ (step registry s e).reviews = s.reviews ∧
        ∀ r ∈ (step registry s e).copies, r ∈ s.copies ∨ r ∈ s.db.requestItems.rows) ∨
      ((∃ type payload actor opts now newId env row,
          e = .submit type payload actor opts now newId env ∧
          Submitted registry type payload actor opts now newId env s.db
            (step registry s e).db row) ∧
        (step registry s e).reviews = s.reviews ∧ (step registry s e).calls = s.calls) ∨
      ∃ i now env operation request delegation view, e = .commit i now env ∧
        Commit registry s (step registry s e) i now env operation request delegation view := by
  have hquiet : s.db = s.db ∧ s.reviews = s.reviews ∧
      ∀ r ∈ s.copies, r ∈ s.copies ∨ r ∈ s.db.requestItems.rows :=
    ⟨rfl, rfl, fun r hr => Or.inl hr⟩
  cases e with
  | submit type payload actor opts now newId env =>
    cases h : submit registry type payload actor opts now newId env s.db with
    | error _ =>
      refine Or.inl ?_
      simpa [step, h, Except.map] using hquiet
    | ok res =>
      refine Or.inr (Or.inl ⟨⟨type, payload, actor, opts, now, newId, env, res.2, rfl, ?_⟩, rfl, rfl⟩)
      simpa [step, h, Except.map] using submit_ok h
  | read requestId operation =>
    refine Or.inl ?_
    simp only [step]
    cases h : s.db.requestItems.find requestId with
    | none => exact hquiet
    | some request =>
      refine ⟨rfl, rfl, fun r hr => ?_⟩
      obtain ⟨call, hmem, hcopy⟩ := mem_copies.1 hr
      rcases List.mem_append.1 hmem with hmem | hmem
      · exact Or.inl (mem_copies.2 ⟨call, hmem, hcopy⟩)
      · rw [List.mem_singleton] at hmem
        subst hmem
        obtain rfl : request = r := Option.some.inj hcopy
        exact Or.inr (Table.mem_of_find h)
  | check i view =>
    refine Or.inl ?_
    simp only [step]
    split
    · rename_i operation request hcall
      have hmem : request ∈ s.copies :=
        mem_copies.2 ⟨_, List.mem_of_getElem? hcall, rfl⟩
      split
      · refine ⟨rfl, rfl, fun r hr => Or.inl ?_⟩
        rcases mem_copies_of_mem_set hr with hr | hr
        · exact hr
        · obtain rfl : request = r := Option.some.inj hr
          exact hmem
      · exact ⟨rfl, rfl, fun r hr => Or.inl (mem_copies_of_mem_finish hr)⟩
    · exact hquiet
  | commit i now env =>
    simp only [step]
    split
    · rename_i operation request delegation view hcall
      split
      · rename_i db row htx
        refine Or.inr (Or.inr ⟨i, now, env, operation, request, delegation, view, rfl, ?_⟩)
        exact ⟨hcall, ⟨row, htx⟩, rfl, fun r hr => mem_copies_of_mem_finish hr⟩
      · exact Or.inl ⟨rfl, rfl, fun r hr => Or.inl (mem_copies_of_mem_finish hr)⟩
    · exact Or.inl hquiet

/-- The copy of a call is among the copies. -/
theorem Commit.mem_copies {s' : State π σ}
    (h : Commit registry s s' i now env operation request delegation view) :
    request ∈ s.copies :=
  Concurrent.mem_copies.2 ⟨_, List.mem_of_getElem? h.call, rfl⟩

/-- **The calls after one step**: those from before, new ones, ended ones, and the one
whose check has just passed. -/
theorem step_calls (registry : RequestRegistry π σ) (s : State π σ) (e : Event π)
    {call : Call π} (h : call ∈ (step registry s e).calls) :
    call ∈ s.calls ∨ (∃ request, call.phase = .read request) ∨ call.phase = .finished ∨
      ∃ i view operation request delegation, e = .check i view ∧
        s.calls[i]? = some ⟨operation, .read request⟩ ∧
        operation.check registry view request = some delegation ∧
        call = ⟨operation, .checked request delegation view⟩ := by
  have hfinish : ∀ (i : ℕ) (operation : Operation),
      call ∈ s.calls.set i ⟨operation, .finished⟩ → call ∈ s.calls ∨ call.phase = .finished := by
    intro i operation hmem
    rcases List.mem_or_eq_of_mem_set hmem with hmem | rfl
    · exact Or.inl hmem
    · exact Or.inr rfl
  cases e with
  | submit type payload actor opts now newId env => exact Or.inl h
  | read requestId operation =>
    simp only [step] at h
    split at h
    · rename_i request _
      rcases List.mem_append.1 h with h | h
      · exact Or.inl h
      · rw [List.mem_singleton] at h
        exact Or.inr (Or.inl ⟨request, by rw [h]⟩)
    · exact Or.inl h
  | check i view =>
    simp only [step] at h
    split at h
    · rename_i operation request hcall
      split at h
      · rename_i delegation hcheck
        rcases List.mem_or_eq_of_mem_set h with h | h
        · exact Or.inl h
        · exact Or.inr (Or.inr (Or.inr
            ⟨i, view, operation, request, delegation, rfl, hcall, hcheck, h⟩))
      · exact (hfinish i operation h).imp_right fun h => Or.inr (Or.inl h)
    · exact Or.inl h
  | commit i now env =>
    simp only [step] at h
    split at h
    · rename_i operation request delegation view hcall
      split at h
      · exact (hfinish i operation h).imp_right fun h => Or.inr (Or.inl h)
      · exact (hfinish i operation h).imp_right fun h => Or.inr (Or.inl h)
    · exact Or.inl h

/-- A call that waits for its commit has passed the checks. -/
def Call.Passed (registry : RequestRegistry π σ) (call : Call π) : Prop :=
  ∀ request delegation view, call.phase = .checked request delegation view →
    call.operation.check registry view request = some delegation

/-- The calls in flight have passed the checks that they have made. -/
theorem step_passed (h : ∀ call ∈ s.calls, call.Passed registry) (e : Event π) :
    ∀ call ∈ (step registry s e).calls, call.Passed registry := by
  intro call hmem request delegation view hphase
  rcases step_calls registry s e hmem with hmem | ⟨request', hread⟩ | hfinished |
    ⟨i, view', operation, request', delegation', -, -, hcheck, rfl⟩
  · exact h call hmem request delegation view hphase
  · rw [hread] at hphase
    cases hphase
  · rw [hfinished] at hphase
    cases hphase
  · cases hphase
    exact hcheck

end Steps

/-! ### Commits on open requests -/

/-- The call that a step commits. -/
def Event.committed : Event π → Option ℕ
  | .commit i _ _ => some i
  | _ => none

/-- The copy that the `i`-th call has checked. -/
def State.checkedCopy (s : State π σ) (i : ℕ) : Option (RequestItem π) :=
  match s.calls[i]? with
  | some ⟨_, .checked request _ _⟩ => some request
  | _ => none

/-- The request of a committing call is still open in the database. -/
def CommitsOnOpen (s : State π σ) (e : Event π) : Prop :=
  ∀ i ∈ e.committed, ∀ request ∈ s.checkedCopy i,
    ∀ r ∈ s.db.requestItems.find request.id, r.status.Open

instance decidableCommitsOnOpen (s : State π σ) (e : Event π) : Decidable (CommitsOnOpen s e) :=
  inferInstanceAs (Decidable (∀ i ∈ e.committed, ∀ request ∈ s.checkedCopy i,
    ∀ r ∈ s.db.requestItems.find request.id, r.status.Open))

/-- What a settled request and the calls of `onApprove` are promised across a run. -/
structure Settled (s s' : State π σ) : Prop where
  /-- A request that is no longer open keeps its status, step and time of resolution. -/
  kept : ∀ id r, s.db.requestItems.find id = some r → ¬ r.status.Open →
    ∃ r', s'.db.requestItems.find id = some r' ∧ r'.status = r.status ∧
      r'.currentStep = r.currentStep ∧ r'.resolvedAt = r.resolvedAt
  /-- `onApprove` has been committed at most once for each request. -/
  once : ∀ id, s'.db.onApproveCalls.count id ≤ 1

/-- `onApprove` has been committed exactly for the approved requests, once for each. -/
def ApprovedOnce (db : Db π σ) : Prop :=
  ∀ id, db.onApproveCalls.count id =
    if ∃ r ∈ db.requestItems.find id, r.status = .approved then 1 else 0

section Runs

variable {registry : RequestRegistry π σ} {s : State π σ} {e : Event π}

/-- A submission settles nothing and calls no hook. -/
theorem approvedOnce_submitted {type : String} {payload : π} {actor : Actor}
    {opts : SubmitRequestOptions} {now : Time} {newId : Uuid} {env : HookEnv} {db db' : Db π σ}
    {row : RequestItem π} (h : ApprovedOnce db)
    (hs : Submitted registry type payload actor opts now newId env db db' row) :
    ApprovedOnce db' := by
  intro id
  rw [hs.onApproveCalls, h id]
  obtain ⟨typeDef, -, hrow⟩ := hs.row_eq
  by_cases hid : id = row.id
  · subst hid
    have hnone := (Table.insert_eq_some_iff.1 hs.requestItems).1
    have hpending : row.status ≠ .approved := by simp [hrow, submittedItem]
    simp [hnone, Table.find_insert_self hs.requestItems, hpending]
  · rw [Table.find_insert_ne hs.requestItems hid]

/-- A commit on an open request calls `onApprove` exactly when it approves. -/
theorem approvedOnce_committed {t : Transition π σ} {request row : RequestItem π} {env : HookEnv}
    {db db' : Db π σ} (h : ApprovedOnce db) (ht : TransitionOf registry request t)
    (hc : t.Committed env db db' row)
    (hopen : ∀ r ∈ db.requestItems.find request.id, r.status.Open) : ApprovedOnce db' := by
  intro id
  rw [hc.count_onApproveCalls, h id]
  by_cases hid : t.requestId = id
  · subst hid
    obtain ⟨old, hold, rfl⟩ := hc.returned
    have hold_open : old.status.Open := hopen old (ht.requestId_eq ▸ hold)
    have hne : old.status ≠ .approved := by
      intro heq
      rw [heq] at hold_open
      exact RequestStatus.not_open_approved hold_open
    simp [hold, hc.find_self, hne, ht.approves_iff old]
  · simp [hid, hc.find_ne (Ne.symm hid)]

/-- The condition, for a commit that takes place. -/
theorem CommitsOnOpen.of_commit {s' : State π σ} {i : ℕ} {now : Time} {env : HookEnv}
    {operation : Operation} {request : RequestItem π} {delegation : Option ApprovalDelegation}
    {view : AuthzView} (h : CommitsOnOpen s (.commit i now env : Event π))
    (hc : Commit registry s s' i now env operation request delegation view) :
    ∀ r ∈ s.db.requestItems.find request.id, r.status.Open := by
  refine h i rfl request ?_
  rw [State.checkedCopy, hc.call]
  rfl

/-- **The step lemma.** -/
theorem step_approvedOnce (h : ApprovedOnce s.db) (hok : CommitsOnOpen s e) :
    ApprovedOnce (step registry s e).db := by
  rcases step_cases registry s e with ⟨hdb, -⟩ | ⟨⟨_, _, _, _, _, _, _, _, -, hs⟩, -⟩ |
    ⟨i, now, env, operation, request, delegation, view, rfl, hc⟩
  · rw [hdb]
    exact h
  · exact approvedOnce_submitted h hs
  · obtain ⟨row, htx⟩ := hc.tx
    obtain ⟨t, ht, htc⟩ := operation.tx_decided htx
    exact approvedOnce_committed h ht htc (hok.of_commit hc)

/-- A settled request keeps its row in a step that meets the condition. -/
theorem step_keeps_settled (hok : CommitsOnOpen s e) {r : RequestItem π} {id : Uuid}
    (hr : s.db.requestItems.find id = some r) (hsettled : ¬ r.status.Open) :
    (step registry s e).db.requestItems.find id = some r := by
  rcases step_cases registry s e with ⟨hdb, -⟩ | ⟨⟨_, _, _, _, _, _, _, _, -, hs⟩, -⟩ |
    ⟨i, now, env, operation, request, delegation, view, rfl, hc⟩
  · rw [hdb]
    exact hr
  · exact Table.find_insert_of_find hs.requestItems hr
  · obtain ⟨row, htx⟩ := hc.tx
    obtain ⟨t, ht, htc⟩ := operation.tx_decided htx
    have hne : id ≠ t.requestId := by
      intro heq
      rw [heq, ht.requestId_eq] at hr
      exact hsettled (hok.of_commit hc r hr)
    rw [htc.find_ne hne]
    exact hr

/-- **The run lemma.**  In a run whose commits all find their request open, settled
requests keep their rows and `onApprove` is committed at most once for each request. -/
theorem run_settled (registry : RequestRegistry π σ) (subscriptions : List WebhookSubscription)
    (tables : TxTables σ) (es es' : List (Event π))
    (hok : Runs.Meets (step registry) CommitsOnOpen (State.initial subscriptions tables)
      (es ++ es')) :
    Settled (Runs.run (step registry) (State.initial subscriptions tables) es)
      (Runs.run (step registry) (State.initial subscriptions tables) (es ++ es')) := by
  have hinitial : ApprovedOnce (State.initial subscriptions tables : State π σ).db := by
    intro id
    simp [State.initial, Db.initial]
  constructor
  · intro id r hr hsettled
    rw [Runs.run_append]
    have hkeep := @Runs.run_induction _ _ (step registry) CommitsOnOpen
      (fun s => s.db.requestItems.find id = some r)
      (fun s e hinv hok => step_keeps_settled hok hinv hsettled) _ es' hr
      (Runs.meets_append.1 hok).2
    exact ⟨r, hkeep, rfl, rfl, rfl⟩
  · intro id
    have honce := @Runs.run_induction _ _ (step registry) CommitsOnOpen
      (fun s => ApprovedOnce s.db) (fun s e hinv hok => step_approvedOnce hinv hok) _ _ hinitial hok
    rw [honce id]
    split <;> omega

end Runs

end Concurrent

end OpsHub
