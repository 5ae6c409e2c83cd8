import OpsHub.Requests.Concurrent

/-!
# What an approval rests on

For concurrent calls of the engine, and whatever the registered types are.

* `Review.Approves`: a committed decision has approved a request, on a permission that the
  approver had, or the delegator acted for;
* `ApprovalsPermitted`: every approved request has such a decision, for a permission that its type
  requires (`step_approvalsPermitted`, `step_approvalsPermitted_submitted`);
* `Viewed`: the decisions rest on what their checks have seen.
-/

namespace OpsHub

variable {π σ : Type}

namespace Concurrent

open RequestEngine

/-- The approver, and the delegator acted for. -/
def Review.principals (review : Review π) : List Uuid :=
  review.approval.approverId :: review.approval.delegatedFromId.toList

/-- The decision has approved the request, on a permission of one of its principals. -/
structure Review.Approves (review : Review π) (id : Uuid) (permission : PermissionKey) : Prop where
  requestId : review.approval.requestId = id
  decision : review.approval.decision = .approved
  held : ∃ user ∈ review.principals, review.view.check user permission = true

/-- Every approved request has been approved on a permission that its type requires. -/
structure ApprovalsPermitted (registry : RequestRegistry π σ) (s : State π σ) : Prop where
  passed : ∀ call ∈ s.calls, call.Passed registry
  copies : ∀ c ∈ s.copies, ∃ r, s.db.requestItems.find c.id = some r ∧ r.type = c.type
  approved : ∀ r ∈ s.db.requestItems.rows, r.status = .approved → ∀ typeDef ∈ registry r.type,
    ∃ review ∈ s.reviews, ∃ k, review.Approves r.id (requiredPermission typeDef k)

/-- The checks of the calls and of the decisions have seen views with the property `P`. -/
structure Viewed (P : AuthzView → Prop) (s : State π σ) : Prop where
  calls : ∀ call ∈ s.calls, ∀ request delegation view,
    call.phase = .checked request delegation view → P view
  reviews : ∀ review ∈ s.reviews, P review.view

section Steps

variable {registry : RequestRegistry π σ} {s s' : State π σ} {request row : RequestItem π}
  {operation : Operation} {delegation : Option ApprovalDelegation} {view : AuthzView}
  {now : Time} {env : HookEnv} {t : Transition π σ} {i : ℕ} {P : AuthzView → Prop}

/-! ### Decisions -/

/-- Who passes the checks of `approve` has the permission, or the delegator does. -/
theorem exists_principal {note : Option String} {actor : Actor}
    (hcheck : reviewCheck registry view "approve" request actor = .ok delegation) :
    ∃ typeDef, registry request.type = some typeDef ∧
      (Review.mk request view (approvalRow request delegation .approved note actor now)).Approves
        request.id (requiredPermission typeDef request.currentStep) := by
  obtain ⟨-, ⟨typeDef, hdef, -, hpermitted⟩, rfl⟩ := reviewCheck_eq_ok_iff.1 hcheck
  refine ⟨typeDef, hdef, rfl, rfl, ?_⟩
  rcases hpermitted with hactor | ⟨d, hd, hdelegator⟩
  · exact ⟨actor.sub, List.mem_cons_self, hactor⟩
  · refine ⟨d.fromUserId, ?_, hdelegator⟩
    simp [Review.principals, approvalRow, hd]

/-- A commit that approves its request adds the decision. -/
theorem approves_commit (hpassed : ∀ call ∈ s.calls, call.Passed registry)
    (hc : Commit registry s s' i now env operation request delegation view)
    (ht : TransitionOf registry request t)
    (happroval : t.approval = operation.decision request delegation now)
    (happroves : t.approves = true) :
    ∃ review ∈ s'.reviews, ∃ typeDef, registry request.type = some typeDef ∧
      review.Approves request.id (requiredPermission typeDef request.currentStep) := by
  have hcheck := hpassed _ (List.mem_of_getElem? hc.call) request delegation view rfl
  cases ht with
  | finalApproval hdef hfinal delegation' note actor now' =>
    -- of the four operations, only `approve` records an approval
    cases operation with
    | approve note actor =>
      refine ⟨⟨request, view, approvalRow request delegation .approved note actor now⟩, ?_,
        exists_principal (Except.toOption_eq_some_iff.1 hcheck)⟩
      rw [hc.reviews]
      exact List.mem_append_right _ (List.mem_singleton_self _)
    | reject note actor => cases congrArg (Option.map RequestApproval.decision) happroval
    | cancel actor => cases happroval
    | expire => cases happroval
  | _ => cases happroves

/-- The copies keep the types of the stored requests across a commit. -/
theorem copies_commit
    (hcopies : ∀ c ∈ s.copies, ∃ r, s.db.requestItems.find c.id = some r ∧ r.type = c.type)
    (hc : Commit registry s s' i now env operation request delegation view)
    (ht : TransitionOf registry request t) (htc : t.Committed env s.db s'.db row) :
    ∀ c ∈ s'.copies, ∃ r, s'.db.requestItems.find c.id = some r ∧ r.type = c.type := by
  intro c hmem
  obtain ⟨r, hr, htype⟩ := hcopies c (hc.copies c hmem)
  obtain ⟨r', hr', htype', -⟩ := ht.find_kept htc hr
  exact ⟨r', hr', htype'.trans htype⟩

/-- A submission adds a pending request. -/
theorem ApprovalsPermitted.submitted {type : String} {payload : π} {actor : Actor}
    {opts : SubmitRequestOptions} {newId : Uuid} (h : ApprovalsPermitted registry s)
    (hs : Submitted registry type payload actor opts now newId env s.db s'.db row)
    (hcalls : s'.calls = s.calls) (hreviews : s'.reviews = s.reviews) :
    ApprovalsPermitted registry s' := by
  constructor
  · rw [hcalls]
    exact h.passed
  · intro c hc
    rw [State.copies, hcalls] at hc
    obtain ⟨r, hr, htype⟩ := h.copies c hc
    exact ⟨r, Table.find_insert_of_find hs.requestItems hr, htype⟩
  · intro r hr happroved
    rw [hreviews]
    rcases (Table.mem_insert hs.requestItems).1 hr with hr | rfl
    · exact h.approved r hr happroved
    · obtain ⟨typeDef, -, rfl⟩ := hs.row_eq
      cases happroved

/-- A commit that leaves its request approved has approved it. -/
theorem ApprovalsPermitted.committed (h : ApprovalsPermitted registry s)
    (hpassed : ∀ call ∈ s'.calls, call.Passed registry)
    (hc : Commit registry s s' i now env operation request delegation view) :
    ApprovalsPermitted registry s' := by
  obtain ⟨row, htx⟩ := hc.tx
  obtain ⟨t, ht, htc, happroval⟩ := operation.tx_ok htx
  refine ⟨hpassed, copies_commit h.copies hc ht htc, fun r hr happroved typeDef hdef => ?_⟩
  have hkept : ∀ review ∈ s.reviews, review ∈ s'.reviews := by
    intro review hreview
    rw [hc.reviews]
    exact List.mem_append_left _ hreview
  rw [htc.requestItems] at hr
  rcases Table.mem_update hr with ⟨old, hold, rfl⟩ | ⟨hr, -⟩
  · obtain ⟨review, hreview, typeDef', hdef', happroves⟩ :=
      approves_commit h.passed hc ht happroval ((ht.approves_iff old).2 happroved)
    -- the copy has the type of the stored request
    obtain ⟨stored, hstored, htype⟩ := h.copies request hc.mem_copies
    rw [ht.requestId_eq, hstored] at hold
    obtain rfl := Option.some.inj hold
    rw [(ht.update_fixed stored).1, htype] at hdef
    obtain rfl : typeDef = typeDef' := Option.some.inj (hdef.symm.trans hdef')
    have hid : (t.update stored).id = request.id := by rw [t.update_id, Table.key_of_find hstored]
    exact ⟨review, hreview, request.currentStep, hid ▸ happroves⟩
  · obtain ⟨review, hreview, k, happroves⟩ := h.approved r hr happroved typeDef hdef
    exact ⟨review, hkept review hreview, k, happroves⟩

/-- **The step lemma.** -/
theorem step_approvalsPermitted (h : ApprovalsPermitted registry s) (e : Event π) :
    ApprovalsPermitted registry (step registry s e) := by
  have hpassed := step_passed h.passed e
  rcases step_cases registry s e with ⟨hdb, hreviews, hcopies⟩ |
    ⟨⟨_, _, _, _, _, _, _, _, -, hs⟩, hreviews, hcalls⟩ |
    ⟨i, now, env, operation, request, delegation, view, rfl, hc⟩
  · refine ⟨hpassed, fun c hmem => ?_, ?_⟩
    · rw [hdb]
      rcases hcopies c hmem with hmem | hmem
      · exact h.copies c hmem
      · exact ⟨c, Table.find_of_mem hmem, rfl⟩
    · rw [hdb, hreviews]
      exact h.approved
  · exact h.submitted hs hcalls hreviews
  · exact h.committed hpassed hc

theorem approvalsPermitted_initial (registry : RequestRegistry π σ)
    (subscriptions : List WebhookSubscription) (tables : TxTables σ) :
    ApprovalsPermitted registry (State.initial subscriptions tables) where
  passed _ hcall := absurd hcall List.not_mem_nil
  copies _ hc := absurd hc List.not_mem_nil
  approved _ hr := absurd hr List.not_mem_nil

/-! ### Views -/

/-- What holds of the views that the checks of the events see holds of those behind decisions. -/
theorem step_viewed (h : Viewed P s) {e : Event π} (he : ∀ i view, e = .check i view → P view) :
    Viewed P (step registry s e) := by
  constructor
  · intro call hcall request delegation view hphase
    rcases step_calls registry s e hcall with hcall | ⟨_, hread⟩ | hfinished |
      ⟨i, view', _, _, _, hcheck, -, -, rfl⟩
    · exact h.calls call hcall request delegation view hphase
    · rw [hread] at hphase
      cases hphase
    · rw [hfinished] at hphase
      cases hphase
    · cases hphase
      exact he i view hcheck
  · rcases step_cases registry s e with ⟨-, hreviews, -⟩ | ⟨-, hreviews, -⟩ |
      ⟨i, now, env, operation, request, delegation, view, rfl, hc⟩
    · rw [hreviews]
      exact h.reviews
    · rw [hreviews]
      exact h.reviews
    · intro review hreview
      rw [hc.reviews] at hreview
      rcases List.mem_append.1 hreview with hreview | hreview
      · exact h.reviews review hreview
      · obtain ⟨approval, -, rfl⟩ := Option.map_eq_some_iff.1 (Option.mem_toList.1 hreview)
        exact h.calls _ (List.mem_of_getElem? hc.call) request delegation view rfl

end Steps

end Concurrent

end OpsHub
