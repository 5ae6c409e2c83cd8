import Mathlib.Data.List.Forall2
import OpsHub.Requests.Concurrent
import OpsHub.Requests.Segregation

/-!
# The authority behind a decision

`approve` and `reject` accept the actor's own permission or that of the delegator, and record the
delegator whenever there is one.

* `State`, `step`: the calls of the engine, interleaved with changes to who holds which
  permission; `audits` records, for the statements only, who held what at each decision;
* `Named`: every row of `request_approvals` names, as the authority for the decision, a user who
  held the permission of the step at that time;
* `Current`: what the check has seen is still so at the commit;
* `Inherited`: nobody who holds the permission decides under the delegation of somebody who does
  not;
* `always_named_iff`: with current checks, the rows name the authority throughout exactly the runs
  in which the permission is inherited;
* `not_named`: a reviewer on whom another employee has laid a delegation.
-/

namespace OpsHub

variable {π σ : Type}

/-- The user on whose authority a decision rests, by its row. -/
def RequestApproval.authority (row : RequestApproval) : Uuid :=
  row.delegatedFromId.getD row.approverId

namespace ApprovalAudit

open RequestEngine Runs

/-- Who holds which permission. -/
abbrev Holders := Uuid → PermissionKey → Bool

/-- A decision on a copy of a request, and who held what when it was committed. -/
structure Audit (π : Type) where
  request : RequestItem π
  approval : RequestApproval
  holds : Holders

/-- The engine, the permissions, and the decisions so far. -/
structure State (π σ : Type) where
  engine : Concurrent.State π σ
  holds : Holders
  audits : List (Audit π)

/-- No request, and no call in flight. -/
def State.initial (subscriptions : List WebhookSubscription) (tables : TxTables σ)
    (holds : Holders) : State π σ :=
  ⟨Concurrent.State.initial subscriptions tables, holds, []⟩

/-- What can happen. -/
inductive Event (π : Type)
  | engine (e : Concurrent.Event π)
  | authorize (holds : Holders)

/-- The state after one event. -/
def step (registry : RequestRegistry π σ) (s : State π σ) : Event π → State π σ
  | .engine e =>
    { s with
      engine := Concurrent.step registry s.engine e
      audits := s.audits ++
        ((Concurrent.step registry s.engine e).reviews.drop s.engine.reviews.length).map
          fun review => ⟨review.request, review.approval, s.holds⟩ }
  | .authorize holds => { s with holds := holds }

/-- The row is that of the audited decision, and the authority that it names held the permission of
its step. -/
def Attested (registry : RequestRegistry π σ) (row : RequestApproval) (audit : Audit π) : Prop :=
  audit.approval = row ∧ row.requestId = audit.request.id ∧ row.step = audit.request.currentStep ∧
    ∀ typeDef ∈ registry audit.request.type,
      audit.holds row.authority (requiredPermission typeDef row.step) = true

/-- Every row names the authority behind it. -/
def Named (registry : RequestRegistry π σ) (s : State π σ) : Prop :=
  List.Forall₂ (Attested registry) s.engine.db.requestApprovals s.audits

instance (registry : RequestRegistry π σ) (row : RequestApproval) (audit : Audit π) :
    Decidable (Attested registry row audit) :=
  inferInstanceAs (Decidable (audit.approval = row ∧ row.requestId = audit.request.id ∧
    row.step = audit.request.currentStep ∧ ∀ typeDef ∈ registry audit.request.type,
      audit.holds row.authority (requiredPermission typeDef row.step) = true))

instance (registry : RequestRegistry π σ) (s : State π σ) : Decidable (Named registry s) :=
  inferInstanceAs (Decidable (List.Forall₂ _ _ _))

/-! ### The decision that an event commits -/

/-- The user who calls `approve` or `reject`. -/
def reviewer : Concurrent.Operation → Option Actor
  | .approve _ actor => some actor
  | .reject _ actor => some actor
  | .cancel _ => none
  | .expire => none

/-- A decision that is about to be committed. -/
structure Pending (π : Type) where
  actor : Actor
  request : RequestItem π
  delegation : Option ApprovalDelegation
  view : AuthzView

/-- The decision that an event commits. -/
def State.pending (registry : RequestRegistry π σ) (s : State π σ) : Event π → Option (Pending π)
  | .engine (.commit i now env) =>
    match s.engine.calls[i]? with
    | some ⟨operation, .checked request delegation view⟩ =>
      match operation.tx registry request delegation now env s.engine.db with
      | .ok _ => (reviewer operation).map fun actor => ⟨actor, request, delegation, view⟩
      | .error _ => none
    | _ => none
  | _ => none

/-- The permission that the request waits for. -/
def Pending.permission (registry : RequestRegistry π σ) (p : Pending π) : Option PermissionKey :=
  (registry p.request.type).map fun typeDef => requiredPermission typeDef p.request.currentStep

/-- The actor, and the delegator that has been found. -/
def Pending.principals (p : Pending π) : List Uuid :=
  p.actor.sub :: (p.delegation.map ApprovalDelegation.fromUserId).toList

/-- What the check has seen of the permissions is still so when the decision is committed. -/
def Current (registry : RequestRegistry π σ) (s : State π σ) (e : Event π) : Prop :=
  ∀ p ∈ s.pending registry e, ∀ key ∈ p.permission registry, ∀ user ∈ p.principals,
    p.view.check user key = s.holds user key

/-- An actor who holds the permission does not decide under the delegation of somebody who does
not. -/
def Inherited (registry : RequestRegistry π σ) (s : State π σ) (e : Event π) : Prop :=
  ∀ p ∈ s.pending registry e, ∀ key ∈ p.permission registry, ∀ d ∈ p.delegation,
    p.view.check p.actor.sub key = true → p.view.check d.fromUserId key = true

instance (registry : RequestRegistry π σ) (s : State π σ) (e : Event π) :
    Decidable (Current registry s e) :=
  inferInstanceAs (Decidable (∀ p ∈ s.pending registry e, ∀ key ∈ p.permission registry,
    ∀ user ∈ p.principals, p.view.check user key = s.holds user key))

instance (registry : RequestRegistry π σ) (s : State π σ) (e : Event π) :
    Decidable (Inherited registry s e) :=
  inferInstanceAs (Decidable (∀ p ∈ s.pending registry e, ∀ key ∈ p.permission registry,
    ∀ d ∈ p.delegation,
      p.view.check p.actor.sub key = true → p.view.check d.fromUserId key = true))

section Steps

variable {registry : RequestRegistry π σ} {s : State π σ} {e : Event π} {p : Pending π}

/-- An event that commits no decision leaves rows and audits as they are. -/
theorem step_of_none (h : s.pending registry e = none) :
    (step registry s e).engine.db.requestApprovals = s.engine.db.requestApprovals ∧
      (step registry s e).audits = s.audits := by
  have hkept (hreviews : ∀ e', e = .engine e' →
      (Concurrent.step registry s.engine e').reviews = s.engine.reviews) :
      (step registry s e).audits = s.audits := by
    cases e with
    | engine e' => simp [step, hreviews e' rfl]
    | authorize holds => rfl
  cases e with
  | authorize holds => exact ⟨rfl, rfl⟩
  | engine e' =>
    rcases Concurrent.step_cases registry s.engine e' with ⟨hdb, hreviews, -⟩ |
      ⟨⟨_, _, _, _, _, _, _, _, -, hs⟩, hreviews, -⟩ |
      ⟨i, now, env, operation, request, delegation, view, rfl, hc⟩
    · exact ⟨congrArg Db.requestApprovals hdb, hkept fun _ heq => by cases heq; exact hreviews⟩
    · exact ⟨hs.requestApprovals, hkept fun _ heq => by cases heq; exact hreviews⟩
    · obtain ⟨row, htx⟩ := hc.tx
      have hnone : reviewer operation = none := by
        simpa [State.pending, hc.call, htx] using h
      have hdecision : operation.decision request delegation now = none := by
        cases operation <;> first | rfl | cases hnone
      obtain ⟨t, -, hcommitted, hdecided⟩ := operation.tx_ok htx
      refine ⟨?_, hkept fun _ heq => ?_⟩
      · have happrovals := hcommitted.requestApprovals
        rw [hdecided, hdecision] at happrovals
        exact happrovals.trans (List.append_nil _)
      · cases heq
        rw [hc.reviews, hdecision]
        exact List.append_nil _

/-- The row of a pending decision. -/
structure Pending.Row (p : Pending π) (row : RequestApproval) : Prop where
  requestId : row.requestId = p.request.id
  step : row.step = p.request.currentStep
  authority : row.authority =
    (p.delegation.map ApprovalDelegation.fromUserId).getD p.actor.sub

/-- An event that commits a decision adds its row and its audit; the decision has passed the
check. -/
theorem step_of_some (hpassed : ∀ call ∈ s.engine.calls, call.Passed registry)
    (h : s.pending registry e = some p) :
    ∃ row, p.Row row ∧
      (step registry s e).engine.db.requestApprovals = s.engine.db.requestApprovals ++ [row] ∧
      (step registry s e).audits = s.audits ++ [⟨p.request, row, s.holds⟩] ∧
      p.delegation = p.view.activeDelegation p.actor.sub ∧
      ∀ key ∈ p.permission registry, Permitted p.view p.actor key := by
  cases e with
  | authorize holds => cases h
  | engine e' =>
    cases e' with
    | submit type payload actor opts now newId env => cases h
    | read requestId operation => cases h
    | check i view => cases h
    | commit i now env =>
      simp only [State.pending] at h
      split at h
      · rename_i operation request delegation view hcall
        split at h
        · rename_i next htx
          obtain ⟨actor, hreviewer, rfl⟩ := Option.map_eq_some_iff.1 h
          obtain ⟨t, -, hcommitted, hdecided⟩ := operation.tx_ok htx
          have hcheck := hpassed _ (List.mem_of_getElem? hcall) _ _ _ rfl
          -- both operations record the same row and have made the same check
          obtain ⟨verb, decision, note, hreview, hdecision⟩ :
              ∃ verb decision note,
                reviewCheck registry view verb request actor = .ok delegation ∧
                operation.decision request delegation now =
                  some (approvalRow request delegation decision note actor now) := by
            cases operation with
            | approve note actor' =>
              cases hreviewer
              exact ⟨_, _, note, Except.toOption_eq_some_iff.1 hcheck, rfl⟩
            | reject note actor' =>
              cases hreviewer
              exact ⟨_, _, note, Except.toOption_eq_some_iff.1 hcheck, rfl⟩
            | cancel actor' => cases hreviewer
            | expire => cases hreviewer
          obtain ⟨-, ⟨typeDef, hdef, -, hpermitted⟩, hdelegation⟩ := reviewCheck_eq_ok_iff.1 hreview
          refine ⟨approvalRow request delegation decision note actor now, ⟨rfl, rfl, rfl⟩, ?_, ?_,
            hdelegation, fun key hkey => ?_⟩
          · have happrovals := hcommitted.requestApprovals
            rw [hdecided, hdecision] at happrovals
            simpa [step, Concurrent.step, hcall, htx] using happrovals
          · simp [step, Concurrent.step, hcall, htx, hdecision]
          · obtain ⟨typeDef', hdef', rfl⟩ := Option.map_eq_some_iff.1 hkey
            obtain rfl : typeDef = typeDef' := Option.some.inj (hdef.symm.trans hdef')
            exact hpermitted
        · cases h
      · cases h

/-- The calls in flight have passed the checks that they have made. -/
theorem step_passed (h : ∀ call ∈ s.engine.calls, call.Passed registry) :
    ∀ call ∈ (step registry s e).engine.calls, call.Passed registry := by
  cases e with
  | engine e' => exact Concurrent.step_passed h e'
  | authorize holds => exact h

theorem Pending.Row.attested_iff {row : RequestApproval} (hrow : p.Row row) (holds : Holders) :
    Attested registry row ⟨p.request, row, holds⟩ ↔
      ∀ key ∈ p.permission registry,
        holds ((p.delegation.map ApprovalDelegation.fromUserId).getD p.actor.sub) key = true := by
  simp only [Attested, hrow.requestId, hrow.step, hrow.authority, Pending.permission, true_and]
  constructor
  · intro h key hkey
    obtain ⟨typeDef, hdef, rfl⟩ := Option.map_eq_some_iff.1 hkey
    exact h typeDef hdef
  · intro h typeDef hdef
    exact h _ (Option.map_eq_some_iff.2 ⟨typeDef, hdef, rfl⟩)

/-- **The step lemma.**  A decision whose check is current names its authority exactly if the
permission is inherited. -/
theorem named_step_iff (hpassed : ∀ call ∈ s.engine.calls, call.Passed registry)
    (hcurrent : Current registry s e) (hs : Named registry s) :
    Named registry (step registry s e) ↔ Inherited registry s e := by
  cases hpending : s.pending registry e with
  | none =>
    obtain ⟨happrovals, haudits⟩ := step_of_none hpending
    refine iff_of_true ?_ fun p hp => ?_
    · rw [Named, happrovals, haudits]
      exact hs
    · rw [hpending] at hp
      cases hp
  | some p =>
    obtain ⟨row, hrow, happrovals, haudits, hdelegation, hpermitted⟩ :=
      step_of_some hpassed hpending
    have hnamed : Named registry (step registry s e) ↔
        Attested registry row ⟨p.request, row, s.holds⟩ := by
      rw [Named, happrovals, haudits]
      constructor
      · intro h
        have hlast := List.forall₂_reverse_iff.2 h
        rw [List.reverse_append, List.reverse_append] at hlast
        exact (List.forall₂_cons.1 hlast).1
      · intro h
        exact List.rel_append hs (.cons h .nil)
    rw [hnamed, hrow.attested_iff]
    have hsee := hcurrent p hpending
    constructor
    · intro h q hq key hkey d hd _
      obtain rfl : p = q := Option.some.inj (hpending.symm.trans hq)
      have hdelegator : d.fromUserId ∈ p.principals := by
        simp [Pending.principals, Option.mem_def.1 hd]
      rw [hsee key hkey _ hdelegator]
      simpa [Option.mem_def.1 hd] using h key hkey
    · intro h key hkey
      cases hd : p.delegation with
      | none =>
        rcases hpermitted key hkey with hown | ⟨d, hsome, -⟩
        · rw [← hown]
          exact (hsee key hkey _ List.mem_cons_self).symm
        · rw [← hdelegation, hd] at hsome
          cases hsome
      | some d =>
        have hdelegator : d.fromUserId ∈ p.principals := by simp [Pending.principals, hd]
        refine (hsee key hkey _ hdelegator).symm.trans ?_
        rcases hpermitted key hkey with hown | ⟨d', hsome, hholds⟩
        · exact h p hpending key hkey d hd hown
        · rw [← hdelegation, hd] at hsome
          cases hsome
          exact hholds

end Steps

/-- **Whose authority the rows name.**  In a run whose decisions rest on checks that are still
current at the commit, every row names a user who held the permission, in every state passed,
exactly if no actor who holds the permission decides under the delegation of somebody who does
not. -/
theorem always_named_iff (registry : RequestRegistry π σ)
    (subscriptions : List WebhookSubscription) (tables : TxTables σ) (holds : Holders)
    {es : List (Event π)}
    (h : Meets (step registry) (Current registry) (State.initial subscriptions tables holds) es) :
    (∀ fs, fs <+: es →
        Named registry (run (step registry) (State.initial subscriptions tables holds) fs)) ↔
      Meets (step registry) (Inherited registry) (State.initial subscriptions tables holds) es :=
  @always_iff_meets_within _ _ (step registry) (Inherited registry) (Current registry)
    (fun s => ∀ call ∈ s.engine.calls, call.Passed registry) (Named registry)
    (fun _ _ hcurrent hpassed hs => named_step_iff hpassed hcurrent hs)
    (fun _ _ _ hpassed _ _ => step_passed hpassed) _ _ h
    (fun _ hcall => absurd hcall List.not_mem_nil) .nil

namespace Sample

/-- User 1 requests leave, and user 3 approves under a delegation by user 2.  The users listed
first hold the permission at the check, those listed second at the commit. -/
def approval (atCheck atCommit : List Uuid) : List (Event Unit) :=
  [.engine (.submit "leave_request" () ⟨1, "user1@example.com"⟩ {} 0 5 ⟨0, 0⟩),
    .authorize (holders atCheck),
    .engine (.read 5 (.approve none ⟨3, "user3@example.com"⟩)),
    .engine (.check 0 ⟨holders atCheck, [⟨7, 2, 3, 0, 100, none⟩], 10⟩),
    .authorize (holders atCommit),
    .engine (.commit 0 20 ⟨20, 0⟩)]
where
  holders (users : List Uuid) : Holders := fun user permission =>
    decide (user ∈ users ∧ permission = "workforce.leave.review")

/-- The start. -/
def start : State Unit Unit := State.initial [] ⟨[], ()⟩ fun _ _ => false

/-- The state after a run. -/
def after (es : List (Event Unit)) : State Unit Unit :=
  run (step SelfApproval.registry) start es

/-- User 3 may review leave, and user 2 may not; or user 2 has lost the permission before the
commit.  The row names user 2. -/
theorem not_named :
    (Meets (step SelfApproval.registry) (Current SelfApproval.registry) start (approval [3] [3]) ∧
      ¬ Named SelfApproval.registry (after (approval [3] [3]))) ∧
    ¬ Named SelfApproval.registry (after (approval [2] [])) := by
  decide +kernel

/-- User 2 may review leave, and user 3 decides in the place of user 2. -/
theorem named_inherited :
    (after (approval [2] [2])).engine.db.requestApprovals.length = 1 ∧
      ∀ fs, fs <+: approval [2] [2] → Named SelfApproval.registry (after fs) := by
  refine ⟨by decide +kernel, ?_⟩
  exact (always_named_iff SelfApproval.registry [] ⟨[], ()⟩ _ (by decide +kernel)).2
    (by decide +kernel)

end Sample

end ApprovalAudit

end OpsHub
