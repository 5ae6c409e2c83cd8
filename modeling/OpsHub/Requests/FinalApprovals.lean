import OpsHub.Requests.Concurrent

/-!
# Final approvals

What calls in flight know about the requests that they have read, and which event approves one for
good.

* `find_step`: stored requests keep their types and payloads;
* `Copied`: the copies in flight have those of the stored requests;
* `State.approving`: the copy that an event approves for good;
* `onApproveCalls_step`: `onApprove` is called then, and only then;
* `approving_stored`: the request is stored, as the copy says.
-/

namespace OpsHub

variable {π σ : Type}

namespace Concurrent

open RequestEngine

/-- The copies in flight have the types and the payloads of the stored requests. -/
def Copied (s : State π σ) : Prop :=
  ∀ c ∈ s.copies, ∃ r, s.db.requestItems.find c.id = some r ∧ r.type = c.type ∧
    r.payload = c.payload

/-- The copy that an event approves for good. -/
def State.approving (registry : RequestRegistry π σ) (s : State π σ) :
    Event π → Option (RequestItem π)
  | .commit i now env =>
    match s.calls[i]? with
    | some ⟨.approve note actor, .checked request delegation _⟩ =>
      match approveTx registry request delegation note actor now env s.db with
      | .ok _ =>
        if (registry request.type).any fun typeDef => isFinalStep typeDef request.currentStep then
          some request
        else none
      | .error _ => none
    | _ => none
  | _ => none

variable {registry : RequestRegistry π σ} {s : State π σ} {e : Event π} {request r : RequestItem π}

theorem copied_initial (subscriptions : List WebhookSubscription) (tables : TxTables σ) :
    Copied (State.initial subscriptions tables : State π σ) := fun _ hc => by cases hc

/-- Stored requests keep their types and payloads. -/
theorem find_step (registry : RequestRegistry π σ) (e : Event π) {id : Uuid}
    (hr : s.db.requestItems.find id = some r) :
    ∃ r', (step registry s e).db.requestItems.find id = some r' ∧ r'.type = r.type ∧
      r'.payload = r.payload := by
  rcases step_cases registry s e with ⟨hdb, -⟩ |
    ⟨⟨type, payload, actor, opts, now, newId, env, row, -, hs⟩, -⟩ |
    ⟨i, now, env, operation, request, delegation, view, -, hcommit⟩
  · exact ⟨r, hdb ▸ hr, rfl, rfl⟩
  · exact ⟨r, Table.find_insert_of_find hs.requestItems hr, rfl, rfl⟩
  · obtain ⟨row, htx⟩ := hcommit.tx
    obtain ⟨t, ht, htc, -⟩ := Operation.tx_ok htx
    obtain ⟨r', hr', htype, -, hpayload⟩ := ht.find_kept htc hr
    exact ⟨r', hr', htype, hpayload⟩

/-- A copy is an old one, or the copy of a stored request. -/
theorem mem_copies_step (registry : RequestRegistry π σ) (e : Event π) {c : RequestItem π}
    (hc : c ∈ (step registry s e).copies) : c ∈ s.copies ∨ c ∈ s.db.requestItems.rows := by
  rcases step_cases registry s e with ⟨-, -, hcopies⟩ | ⟨-, -, hcalls⟩ |
    ⟨i, now, env, operation, request, delegation, view, -, hcommit⟩
  · exact hcopies c hc
  · rw [State.copies, hcalls] at hc
    exact Or.inl hc
  · exact Or.inl (hcommit.copies c hc)

/-- **The copies** stay those of the stored requests. -/
theorem copied_step (registry : RequestRegistry π σ) (h : Copied s) (e : Event π) :
    Copied (step registry s e) := by
  intro c hc
  have hbefore : ∃ r, s.db.requestItems.find c.id = some r ∧ r.type = c.type ∧
      r.payload = c.payload := by
    rcases mem_copies_step registry e hc with hc | hc
    · exact h c hc
    · exact ⟨c, Table.find_of_mem hc, rfl, rfl⟩
  obtain ⟨r, hr, htype, hpayload⟩ := hbefore
  obtain ⟨r', hr', htype', hpayload'⟩ := find_step registry e hr
  exact ⟨r', hr', htype'.trans htype, hpayload'.trans hpayload⟩

/-- What a commit does that approves nothing for good. -/
theorem onApproveCalls_tx {operation : Operation} {delegation : Option ApprovalDelegation}
    {now : Time} {env : HookEnv} {db db' : Db π σ} {row : RequestItem π}
    (h : operation.tx registry request delegation now env db = .ok (db', row)) :
    db'.onApproveCalls = db.onApproveCalls ++
      match operation with
      | .approve _ _ =>
        if (registry request.type).any fun typeDef => isFinalStep typeDef request.currentStep then
          [request.id]
        else []
      | _ => [] := by
  cases operation with
  | approve note actor =>
    obtain ⟨typeDef, hdef, ⟨hfinal, hc⟩ | ⟨hfinal, nextAssigneeId, hc⟩⟩ := approveTx_ok h
    · rw [hc.onApproveCalls]
      simp [hdef, hfinal, finalApproval]
    · rw [hc.onApproveCalls]
      simp [hdef, hfinal, stepApproval]
  | reject note actor =>
    obtain ⟨typeDef, -, hrun⟩ := rejectTx_eq_ok_iff.1 h
    exact (Transition.run_ok hrun).onApproveCalls
  | cancel actor =>
    obtain ⟨typeDef, -, hrun⟩ := cancelTx_eq_ok_iff.1 h
    exact (Transition.run_ok hrun).onApproveCalls
  | expire =>
    obtain ⟨typeDef, -, hrun⟩ := expireTx_eq_ok_iff.1 h
    exact (Transition.run_ok hrun).onApproveCalls

/-- **`onApprove` is called** by the events that approve a request for good, and only by them. -/
theorem onApproveCalls_step (registry : RequestRegistry π σ) (s : State π σ) (e : Event π) :
    (step registry s e).db.onApproveCalls =
      s.db.onApproveCalls ++ (s.approving registry e).toList.map RequestItem.id := by
  cases e with
  | submit type payload actor opts now newId env =>
    simp only [step, State.approving, Option.toList_none, List.map_nil, List.append_nil]
    cases h : submit registry type payload actor opts now newId env s.db with
    | error _ => rfl
    | ok res => exact (submit_ok h).onApproveCalls
  | read requestId operation =>
    simp only [step, State.approving, Option.toList_none, List.map_nil, List.append_nil]
    split <;> rfl
  | check i view =>
    simp only [step, State.approving, Option.toList_none, List.map_nil, List.append_nil]
    split
    · split <;> rfl
    · rfl
  | commit i now env =>
    simp only [step, State.approving]
    cases s.calls[i]? with
    | none => simp
    | some call =>
      obtain ⟨operation, phase⟩ := call
      cases phase with
      | read request => cases operation <;> simp
      | finished => cases operation <;> simp
      | checked request delegation view =>
        dsimp only
        cases htx : operation.tx registry request delegation now env s.db with
        | error failure => cases operation <;> simp_all [State.finish, Operation.tx]
        | ok res =>
          have hcalls := onApproveCalls_tx htx
          cases operation with
          | approve note actor =>
            replace htx : approveTx registry request delegation note actor now env s.db = .ok res :=
              htx
            simp only [htx, hcalls]
            split <;> rfl
          | _ => simpa using hcalls

/-- What is approved for good is the copy of a call in flight. -/
theorem mem_copies_of_approving (h : s.approving registry e = some request) :
    request ∈ s.copies := by
  cases e with
  | commit i now env =>
    simp only [State.approving] at h
    split at h
    · rename_i note actor request' delegation view hcall
      split at h
      · obtain rfl := Option.some.inj (Option.ite_none_right_eq_some.1 h).2
        exact mem_copies.2 ⟨_, List.mem_of_getElem? hcall, rfl⟩
      · cases h
    · cases h
  | _ => cases h

/-- **The request is stored**, as the copy says. -/
theorem approving_stored (hcopied : Copied s) (h : s.approving registry e = some request) :
    ∃ r, (step registry s e).db.requestItems.find request.id = some r ∧ r.type = request.type ∧
      r.payload = request.payload := by
  obtain ⟨r, hr, htype, hpayload⟩ := hcopied request (mem_copies_of_approving h)
  obtain ⟨r', hr', htype', hpayload'⟩ := find_step registry e hr
  exact ⟨r', hr', htype'.trans htype, hpayload'.trans hpayload⟩

end Concurrent

end OpsHub
