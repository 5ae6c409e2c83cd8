import OpsHub.Identity.Sessions
import OpsHub.Lib.Purge
import OpsHub.Requests.Delegates

/-!
# The purge of expired delegations

`DelegationExpiryCron.tick` and `DelegationService`, whose revocation selects the row in one
statement and deletes it by its id in a later one.

* `InFlight`, `step`: the table and the revocations in flight, with ticks at any time;
* `Related`: a table with the rows that the ticks have removed, and one in which there are no ticks;
* `Unnoticed`: the rows that are missing ended long ago, only their revocations are answered in
  another way, and the engine decides as it does without the cron, in corresponding orders of the
  rows;
* `purge_unnoticed`: no run of the cron is noticed by an engine whose clock is less than the
  retention behind;
* `taken_back`: a delegation disappears through its author, or after the retention.
-/

namespace OpsHub

namespace DelegationExpiryCron

/-- `DELEGATION_RETENTION_DAYS`. -/
def retentionDays : ℕ := 7

/-- The cutoff of a tick. -/
def cutoff (now : Time) : Time := now - retentionDays * msPerDay

/-- `tick`. -/
def tick (now : Time) (delegations : DelegationTable) : DelegationTable :=
  DelegationService.deleteExpiredBefore (cutoff now) delegations

end DelegationExpiryCron

namespace DelegationService

/-- A revocation that has passed its checks. -/
structure Revocation where
  id : Uuid
  actorId : Uuid
  deriving DecidableEq, Repr

/-- The checks of `revoke` on the row that it has selected. -/
def revokeCheck (id actorId : Uuid) (delegations : DelegationTable) : Except Failure Revocation := do
  let row ← Outcome.orThrow (.notFound "DELEGATION_NOT_FOUND" "Delegation not found")
    (delegations.find id)
  Outcome.require (row.fromUserId = actorId)
    (.preconditionFailed "DELEGATION_NOT_OWNER"
      "Only the delegating user can revoke this delegation")
  pure ⟨id, actorId⟩

/-- The deletion of `revoke`. -/
def deleteById (id : Uuid) (delegations : DelegationTable) : DelegationTable :=
  delegations.deleteWhere (fun d => decide (d.id = id))

/-- Without anything in between, this is the whole call. -/
theorem revoke_eq (id actorId : Uuid) (delegations : DelegationTable) :
    revoke id actorId delegations =
      (revokeCheck id actorId delegations).map fun r => deleteById r.id delegations := by
  unfold revoke revokeCheck
  cases delegations.find id with
  | none => rfl
  | some row =>
    simp only [Outcome.orThrow, bind, Except.bind, Outcome.require]
    split <;> rfl

theorem revokeCheck_eq_ok_iff {id actorId : Uuid} {delegations : DelegationTable} {r : Revocation} :
    revokeCheck id actorId delegations = .ok r ↔
      (∃ d, delegations.find id = some d ∧ d.fromUserId = actorId) ∧ r = ⟨id, actorId⟩ := by
  simp only [revokeCheck, Except.bind_eq_ok_iff, Outcome.orThrow_eq_ok_iff,
    Outcome.require_eq_ok_iff, Except.pure_eq_ok_iff]
  constructor
  · rintro ⟨d, hd, -, howner, rfl⟩
    exact ⟨⟨d, hd, howner⟩, rfl⟩
  · rintro ⟨⟨d, hd, howner⟩, rfl⟩
    exact ⟨d, hd, (), howner, rfl⟩

/-! ### The machine -/

/-- The table, and the revocations that have passed their checks. -/
structure InFlight where
  delegations : DelegationTable := Table.empty _
  revoking : List (Option Revocation) := []

/-- What can happen: a statement of a call, or a tick of the cron. -/
inductive Statement
  | create (input : CreateDelegationInput) (newId : Uuid)
  | select (id actorId : Uuid)
  | delete (i : ℕ)
  | tick (now : Time)
  deriving DecidableEq, Repr

namespace InFlight

/-- The state after a statement. -/
def step (s : InFlight) : Statement → InFlight
  | .create input newId =>
    { s with delegations := Outcome.commit s.delegations (create input newId s.delegations) }
  | .select id actorId =>
    { s with revoking := s.revoking ++ [(revokeCheck id actorId s.delegations).toOption] }
  | .delete i =>
    match Pool.running s.revoking i with
    | some r => { delegations := deleteById r.id s.delegations, revoking := s.revoking.set i none }
    | none => s
  | .tick now => { s with delegations := DelegationExpiryCron.tick now s.delegations }

/-- A new delegation has an id of its own: no row has it, nor does a revocation in flight. -/
def Fresh (s : InFlight) : Statement → Prop
  | .create _ newId => s.delegations.find newId = none ∧
      ∀ i, ∀ r ∈ Pool.running s.revoking i, r.id ≠ newId
  | _ => True

/-- A tick. -/
def isTick : Statement → Bool
  | .tick _ => true
  | _ => false

/-- The same statements without the cron. -/
def withoutCron (es : List Statement) : List Statement := es.filter (fun e => !isTick e)

/-- A delegation that a tick of the run may have removed. -/
def Expired (es : List Statement) (d : ApprovalDelegation) : Prop :=
  ∃ now, .tick now ∈ es ∧ d.endsAt ≤ DelegationExpiryCron.cutoff now

/-- The state of a run, and that of the run without the cron: the second may have more rows, and
more revocations, of rows that the first has not any more. -/
structure Related (es : List Statement) (s p : InFlight) : Prop where
  rows : Table.Purged (Expired es) s.delegations p.delegations
  length : s.revoking.length = p.revoking.length
  revoking : ∀ i, Pool.running s.revoking i = Pool.running p.revoking i ∨
    Pool.running s.revoking i = none ∧
      ∀ r ∈ Pool.running p.revoking i, ∀ d ∈ s.delegations.rows, d.id ≠ r.id

variable {es : List Statement} {s p : InFlight} {e : Statement}

/-! ### What a statement does -/

theorem related_tick (h : Related es s p) {now : Time} (hmem : .tick now ∈ es) :
    Related es (s.step (.tick now)) p := by
  refine ⟨h.rows.deleteWhere_left fun d hd => ⟨now, hmem, of_decide_eq_true hd⟩, h.length,
    fun i => (h.revoking i).imp_right fun hi => ⟨hi.1, fun r hr d hd => ?_⟩⟩
  exact hi.2 r hr d (Table.mem_deleteWhere.1 hd).1

/-- The row of a new delegation. -/
def newRow (input : CreateDelegationInput) (newId : Uuid) : ApprovalDelegation :=
  ⟨newId, input.fromUserId, input.toUserId, input.startsAt, input.endsAt, input.reason⟩

/-- A creation that the table takes. -/
theorem create_eq_ok_iff {input : CreateDelegationInput} {newId : Uuid} {t t' : DelegationTable} :
    create input newId t = .ok t' ↔
      (input.fromUserId ≠ input.toUserId ∧ input.startsAt < input.endsAt) ∧
        t.insert (newRow input newId) = some t' := by
  simp only [create, Except.bind_eq_ok_iff, Outcome.require_eq_ok_iff, Outcome.orThrow_eq_ok_iff]
  constructor
  · rintro ⟨-, hself, -, hwindow, hins⟩
    exact ⟨⟨hself, hwindow⟩, hins⟩
  · rintro ⟨⟨hself, hwindow⟩, hins⟩
    exact ⟨(), hself, (), hwindow, hins⟩

/-- The rows after a creation. -/
theorem mem_create {input : CreateDelegationInput} {newId : Uuid} {t : DelegationTable}
    {d : ApprovalDelegation} (hd : d ∈ (Outcome.commit t (create input newId t)).rows) :
    d ∈ t.rows ∨ d.id = newId := by
  revert hd
  refine Outcome.commit_induction (P := fun t' : DelegationTable => d ∈ t'.rows →
    d ∈ t.rows ∨ d.id = newId) Or.inl fun t' hc hd => ?_
  rcases (Table.mem_insert (create_eq_ok_iff.1 hc).2).1 hd with hd | rfl
  · exact Or.inl hd
  · exact Or.inr rfl

/-- What is in a table stays in it when a delegation is created. -/
theorem mem_create_of_mem {input : CreateDelegationInput} {newId : Uuid} {t : DelegationTable}
    {d : ApprovalDelegation} (hd : d ∈ t.rows) :
    d ∈ (Outcome.commit t (create input newId t)).rows :=
  Outcome.commit_induction (P := fun t' : DelegationTable => d ∈ t'.rows) hd fun _ hc =>
    (Table.mem_insert (create_eq_ok_iff.1 hc).2).2 (Or.inl hd)

theorem related_create (h : Related es s p) {input : CreateDelegationInput} {newId : Uuid}
    (hfresh : Fresh p (.create input newId)) :
    Related es (s.step (.create input newId)) (p.step (.create input newId)) := by
  refine ⟨?_, h.length, fun i => (h.revoking i).imp_right fun hi => ⟨hi.1, fun r hr d hd => ?_⟩⟩
  · by_cases hvalid : input.fromUserId ≠ input.toUserId ∧ input.startsAt < input.endsAt
    · obtain ⟨p', hp'⟩ := Table.exists_insert (r := newRow input newId) hfresh.1
      obtain ⟨s', hs', hpurged⟩ := h.rows.insert hp'
      simp only [step, create_eq_ok_iff.2 ⟨hvalid, hp'⟩, create_eq_ok_iff.2 ⟨hvalid, hs'⟩,
        Outcome.commit_ok]
      exact hpurged
    · -- both calls are refused
      have hrefused : ∀ t, Outcome.commit t (create input newId t) = t := by
        intro t
        cases hc : create input newId t with
        | error _ => rfl
        | ok t' => exact absurd (create_eq_ok_iff.1 hc).1 hvalid
      simp only [step, hrefused]
      exact h.rows
  · rcases mem_create hd with hd | rfl
    · exact hi.2 r hr d hd
    · exact (hfresh.2 i r hr).symm

theorem related_select (h : Related es s p) (id actorId : Uuid) :
    Related es (s.step (.select id actorId)) (p.step (.select id actorId)) := by
  refine ⟨h.rows, ?_, fun i => ?_⟩
  · simp only [step, List.length_append, h.length, List.length_singleton]
  · simp only [step, Pool.running_append, h.length]
    by_cases hi : i = p.revoking.length
    · rw [if_pos hi, if_pos hi]
      cases hs : s.delegations.find id with
      | some d =>
        have hp := h.rows.find_of_find hs
        exact Or.inl (by simp only [revokeCheck, hs, hp])
      | none =>
        refine Or.inr ⟨by simp [revokeCheck, hs, Outcome.orThrow, bind, Except.bind,
          Except.toOption], fun r hr d hd => ?_⟩
        obtain ⟨-, rfl⟩ := revokeCheck_eq_ok_iff.1 (Except.toOption_eq_some_iff.1 hr)
        exact Table.find_eq_none_iff.1 hs d hd
    · rw [if_neg hi, if_neg hi]
      exact h.revoking i

theorem related_delete (h : Related es s p) (i : ℕ) :
    Related es (s.step (.delete i)) (p.step (.delete i)) := by
  cases hp : Pool.running p.revoking i with
  | none =>
    have hs : Pool.running s.revoking i = none := by
      rcases h.revoking i with heq | heq
      · exact heq.trans hp
      · exact heq.1
    simp only [step, hp, hs]
    exact h
  | some r =>
    -- the revocation has ended in both runs
    have hended : ∀ (t : DelegationTable) (calls : List (Option Revocation)),
        (∀ d ∈ t.rows, d ∈ s.delegations.rows) →
        (∀ j, Pool.running calls j = if j = i then none else Pool.running s.revoking j) → ∀ j,
        Pool.running calls j = Pool.running (p.revoking.set i none) j ∨
          Pool.running calls j = none ∧
            ∀ r ∈ Pool.running (p.revoking.set i none) j, ∀ d ∈ t.rows, d.id ≠ r.id := by
      intro t calls ht hcalls j
      rw [Pool.running_set_none, hcalls]
      by_cases hj : j = i
      · exact Or.inl (by rw [if_pos hj, if_pos hj])
      · rw [if_neg hj, if_neg hj]
        exact (h.revoking j).imp_right fun hr => ⟨hr.1, fun r hr' d hd => hr.2 r hr' d (ht d hd)⟩
    rcases h.revoking i with heq | ⟨hs, hgone⟩
    · have hs := heq.trans hp
      simp only [step, hp, hs]
      refine ⟨h.rows.deleteWhere _, by simp [h.length],
        hended _ _ (fun d hd => ?_) (Pool.running_set_none _ _)⟩
      exact (Table.mem_deleteWhere.1 hd).1
    · simp only [step, hp, hs]
      refine ⟨h.rows.deleteWhere_right fun d hd => ?_, by simp [h.length],
        hended _ _ (fun d hd => hd) fun j => ?_⟩
      · exact decide_eq_false (hgone r hp d hd)
      · by_cases hj : j = i
        · rw [if_pos hj, hj, hs]
        · rw [if_neg hj]

/-! ### Runs -/

/-- Two processes whose ids are fresh, one of them without the cron. -/
theorem related_run (hfresh : Runs.Meets step Fresh {} (withoutCron es)) :
    Related es (Runs.run step {} es) (Runs.run step {} (withoutCron es)) := by
  have hdom : ∀ e ∈ es, e ∈ es := fun _ he => he
  refine Runs.run_quiet (fun s p e h hmem hquiet => ?_)
    (fun s p e h hmem hquiet hok => ?_) ⟨Table.Purged.refl _ _, rfl, fun _ => Or.inl rfl⟩
    hdom hfresh
  · cases e with
    | tick now => exact related_tick h hmem
    | create input newId => cases hquiet
    | select id actorId => cases hquiet
    | delete i => cases hquiet
  · cases e with
    | tick now => cases hquiet
    | create input newId => exact related_create h hok
    | select id actorId => exact related_select h id actorId
    | delete i => exact related_delete h i

/-- The engine decides the same at `now`: whatever order the rows of `t` are returned in, those of
`t'` may be returned in one that leads to the same answer. -/
def SameDecisions (now : Time) (t t' : DelegationTable) : Prop :=
  ∀ {π σ : Type} (registry : RequestRegistry π σ) (check : Uuid → PermissionKey → Bool)
    (verb : String) (request : RequestItem π) (actor : Actor) (rows : List ApprovalDelegation),
    rows.Perm t.rows → ∃ rows', List.Perm rows' t'.rows ∧
      RequestEngine.reviewCheck registry ⟨check, rows', now⟩ verb request actor =
        RequestEngine.reviewCheck registry ⟨check, rows, now⟩ verb request actor

/-- The cron is not noticed: the rows that it has removed ended before a cutoff, revocations of all
others are answered as without it (of these, `DELEGATION_NOT_FOUND`), and at no instant from the
cutoffs on is there a difference in who acts for whom, nor in a decision. -/
structure Unnoticed (es : List Statement) (s p : InFlight) : Prop where
  kept : s.delegations.rows.Sublist p.delegations.rows
  expired : ∀ d ∈ p.delegations.rows, d ∉ s.delegations.rows → Expired es d
  answers : ∀ id actorId, revokeCheck id actorId s.delegations = revokeCheck id actorId p.delegations ∨
    revokeCheck id actorId s.delegations =
        .error (.notFound "DELEGATION_NOT_FOUND" "Delegation not found") ∧
      ∃ d, p.delegations.find id = some d ∧ d ∉ s.delegations.rows
  active : ∀ now actorId, (∀ t, .tick t ∈ es → DelegationExpiryCron.cutoff t ≤ now) →
    activeTo s.delegations.rows now actorId = activeTo p.delegations.rows now actorId
  decisions : ∀ now, (∀ t, .tick t ∈ es → DelegationExpiryCron.cutoff t ≤ now) →
    SameDecisions now s.delegations p.delegations ∧ SameDecisions now p.delegations s.delegations

/-- The checks look at the active delegation only. -/
theorem reviewCheck_congr {π σ : Type} {registry : RequestRegistry π σ} {verb : String}
    {request : RequestItem π} {actor : Actor} {check : Uuid → PermissionKey → Bool} {now : Time}
    {rows rows' : List ApprovalDelegation}
    (h : activeTo rows' now actor.sub = activeTo rows now actor.sub) :
    RequestEngine.reviewCheck registry ⟨check, rows', now⟩ verb request actor =
      RequestEngine.reviewCheck registry ⟨check, rows, now⟩ verb request actor := by
  have hactive : AuthzView.activeDelegation ⟨check, rows', now⟩ actor.sub =
      AuthzView.activeDelegation ⟨check, rows, now⟩ actor.sub := by
    simp only [AuthzView.activeDelegation, findActiveDelegationTo_eq, h]
  have hpermitted : ∀ permission (e : Failure),
      Outcome.require (RequestEngine.Permitted ⟨check, rows', now⟩ actor permission) e =
        Outcome.require (RequestEngine.Permitted ⟨check, rows, now⟩ actor permission) e :=
    fun permission e => Outcome.require_congr (by simp only [RequestEngine.Permitted, hactive]) e
  simp only [RequestEngine.reviewCheck, hactive, hpermitted]

theorem sameDecisions {now : Time} {t t' : DelegationTable}
    (h : ∀ actorId, activeTo t.rows now actorId = activeTo t'.rows now actorId) :
    SameDecisions now t t' := by
  intro π σ registry check verb request actor rows hrows
  obtain ⟨rows', hrows', hsame⟩ := Table.exists_order (h actor.sub) hrows
  exact ⟨rows', hrows', reviewCheck_congr hsame⟩

/-- A revocation notices at most that its delegation has been removed. -/
theorem Related.answers (h : Related es s p) (id actorId : Uuid) :
    revokeCheck id actorId s.delegations = revokeCheck id actorId p.delegations ∨
      revokeCheck id actorId s.delegations =
          .error (.notFound "DELEGATION_NOT_FOUND" "Delegation not found") ∧
        ∃ d, p.delegations.find id = some d ∧ d ∉ s.delegations.rows := by
  cases hs : s.delegations.find id with
  | some d =>
    have hp := h.rows.find_of_find hs
    exact Or.inl (by simp only [revokeCheck, hs, hp])
  | none =>
    cases hp : p.delegations.find id with
    | none => exact Or.inl (by simp only [revokeCheck, hs, hp])
    | some d =>
      obtain ⟨hd, hid⟩ := Table.find_eq_some_iff.1 hp
      have hgone : d ∉ s.delegations.rows := fun hmem => Table.find_eq_none_iff.1 hs d hmem hid
      refine Or.inr ⟨?_, d, rfl, hgone⟩
      rw [revokeCheck, hs]
      rfl

/-- **The cron is not noticed.**  In every order of the statements of all calls, with ticks at any
time, the rows that are missing ended before a cutoff, revocations of all others are answered as
without the cron, and whoever looks at a clock that shows no less than the cutoffs finds the same
active delegations and decides alike. -/
theorem purge_unnoticed (es : List Statement)
    (hfresh : Runs.Meets step Fresh {} (withoutCron es)) :
    Unnoticed es (Runs.run step {} es) (Runs.run step {} (withoutCron es)) := by
  have hrelated := related_run hfresh
  -- what has been removed is not active any more
  have hactive : ∀ now actorId,
      (∀ t, .tick t ∈ es → DelegationExpiryCron.cutoff t ≤ now) →
      activeTo (Runs.run step {} es).delegations.rows now actorId =
        activeTo (Runs.run step {} (withoutCron es)).delegations.rows now actorId := by
    refine fun now actorId hnow => hrelated.rows.filter_eq fun d hd => decide_eq_false ?_
    rintro ⟨-, -, hend⟩
    obtain ⟨t, ht, hle⟩ := hd
    exact absurd hend (Nat.not_lt.2 (Nat.le_trans hle (hnow t ht)))
  refine ⟨hrelated.rows.sublist, fun d hd hnot => ?_, hrelated.answers, hactive,
    fun now hnow => ⟨?_, ?_⟩⟩
  · exact (hrelated.rows.dead d hd).resolve_left hnot
  · exact sameDecisions fun actorId => hactive now actorId hnow
  · exact sameDecisions fun actorId => (hactive now actorId hnow).symm

/-- Not an empty promise: a tick removes a delegation that ended, and another one goes on. -/
theorem purge_unnoticed_two :
    Unnoticed [.create ⟨1, 2, 0, 5, none⟩ 10, .create ⟨3, 2, 0, 9 * msPerDay, none⟩ 11,
        .tick (8 * msPerDay)]
      (Runs.run step {} [.create ⟨1, 2, 0, 5, none⟩ 10, .create ⟨3, 2, 0, 9 * msPerDay, none⟩ 11,
        .tick (8 * msPerDay)])
      (Runs.run step {} (withoutCron [.create ⟨1, 2, 0, 5, none⟩ 10,
        .create ⟨3, 2, 0, 9 * msPerDay, none⟩ 11, .tick (8 * msPerDay)])) :=
  purge_unnoticed _ ⟨⟨rfl, fun _ _ h => by cases h⟩, ⟨rfl, fun _ _ h => by cases h⟩, trivial⟩

/-! ### Who takes a delegation back -/

/-- A revocation in flight is that of the author of its row, and one of `es` has begun it. -/
structure Owned (es : List Statement) (s : InFlight) : Prop where
  author : ∀ i, ∀ r ∈ Pool.running s.revoking i, ∀ d ∈ s.delegations.rows, d.id = r.id →
    d.fromUserId = r.actorId
  begun : ∀ i, ∀ r ∈ Pool.running s.revoking i, .select r.id r.actorId ∈ es

theorem owned_init (es : List Statement) : Owned es {} where
  author _ _ hr := by cases hr
  begun _ _ hr := by cases hr

theorem owned_step (h : Owned es s) (hfresh : Fresh s e) (hmem : e ∈ es) : Owned es (s.step e) := by
  cases e with
  | create input newId =>
    refine ⟨fun i r hr d hd hid => ?_, h.begun⟩
    rcases mem_create hd with hd | hnew
    · exact h.author i r hr d hd hid
    · exact absurd (hid.symm.trans hnew) (hfresh.2 i r hr)
  | select id actorId =>
    have hcases : ∀ i, ∀ r ∈ Pool.running (s.step (.select id actorId)).revoking i,
        r ∈ Pool.running s.revoking i ∨ revokeCheck id actorId s.delegations = .ok r := by
      intro i r hr
      simp only [step, Pool.running_append] at hr
      by_cases hi : i = s.revoking.length
      · rw [if_pos hi] at hr
        exact Or.inr (Except.toOption_eq_some_iff.1 hr)
      · rw [if_neg hi] at hr
        exact Or.inl hr
    refine ⟨fun i r hr d hd hid => ?_, fun i r hr => ?_⟩
    · rcases hcases i r hr with hr | hr
      · exact h.author i r hr d hd hid
      · obtain ⟨⟨d', hd', howner⟩, rfl⟩ := revokeCheck_eq_ok_iff.1 hr
        have hsame : s.delegations.find id = some d := Table.find_eq_some_iff.2 ⟨hd, hid⟩
        obtain rfl : d' = d := Option.some.inj (hd'.symm.trans hsame)
        exact howner
    · rcases hcases i r hr with hr | hr
      · exact h.begun i r hr
      · obtain ⟨-, rfl⟩ := revokeCheck_eq_ok_iff.1 hr
        exact hmem
  | delete i =>
    simp only [step]
    cases hrun : Pool.running s.revoking i with
    | none => exact h
    | some r =>
      have hcases : ∀ j, ∀ r' ∈ Pool.running (s.revoking.set i none) j,
          r' ∈ Pool.running s.revoking j := by
        intro j r' hr'
        rw [Pool.running_set_none] at hr'
        by_cases hj : j = i
        · rw [if_pos hj] at hr'
          cases hr'
        · rw [if_neg hj] at hr'
          exact hr'
      exact ⟨fun j r' hr' d hd => h.author j r' (hcases j r' hr') d (Table.mem_deleteWhere.1 hd).1,
        fun j r' hr' => h.begun j r' (hcases j r' hr')⟩
  | tick now => exact ⟨fun i r hr d hd => h.author i r hr d (Table.mem_deleteWhere.1 hd).1, h.begun⟩

/-- A row stays, unless its author has asked for its deletion, or a tick comes after its end. -/
theorem mem_step (h : Owned es s) {d : ApprovalDelegation} (hd : d ∈ s.delegations.rows) :
    d ∈ (s.step e).delegations.rows ∨ .select d.id d.fromUserId ∈ es ∨
      ∃ now, e = .tick now ∧ d.endsAt ≤ DelegationExpiryCron.cutoff now := by
  cases e with
  | create input newId => exact Or.inl (mem_create_of_mem hd)
  | select id actorId => exact Or.inl hd
  | delete i =>
    simp only [step]
    cases hrun : Pool.running s.revoking i with
    | none => exact Or.inl hd
    | some r =>
      by_cases hid : d.id = r.id
      · refine Or.inr (Or.inl ?_)
        rw [hid, h.author i r hrun d hd hid]
        exact h.begun i r hrun
      · exact Or.inl (Table.mem_deleteWhere.2 ⟨hd, decide_eq_false hid⟩)
  | tick now =>
    by_cases hend : d.endsAt ≤ DelegationExpiryCron.cutoff now
    · exact Or.inr (Or.inr ⟨now, rfl, hend⟩)
    · exact Or.inl (Table.mem_deleteWhere.2 ⟨hd, decide_eq_false hend⟩)

/-- **Who takes a delegation back.**  A delegation that is there after `es` and not after `es ++ fs`
has been revoked by its author, or a tick of `fs` came a retention after its end. -/
theorem taken_back (es fs : List Statement) (hfresh : Runs.Meets step Fresh {} (es ++ fs))
    (d : ApprovalDelegation) (hd : d ∈ (Runs.run step {} es).delegations.rows)
    (hgone : d ∉ (Runs.run step {} (es ++ fs)).delegations.rows) :
    .select d.id d.fromUserId ∈ es ++ fs ∨
      ∃ now, .tick now ∈ fs ∧ d.endsAt ≤ DelegationExpiryCron.cutoff now := by
  obtain ⟨hes, hfs⟩ := Runs.meets_append.1 hfresh
  have howned : Owned (es ++ fs) (Runs.run step {} es) :=
    Runs.run_induction (fun s e h he => owned_step h he.1 he.2)
      (owned_init _)
      (Runs.meets_and.2 ⟨hes, Runs.meets_of_mem (fun e he => List.mem_append_left fs he) _⟩)
  rw [Runs.run_append] at hgone
  -- what holds of the row from there on
  let here := fun s : InFlight => Owned (es ++ fs) s ∧ (d ∈ s.delegations.rows ∨
    .select d.id d.fromUserId ∈ es ++ fs ∨
      ∃ now, .tick now ∈ fs ∧ d.endsAt ≤ DelegationExpiryCron.cutoff now)
  have hkeep : ∀ s e, here s → Fresh s e ∧ e ∈ fs → here (step s e) := by
    rintro s e ⟨hs, hin | hout⟩ ⟨he, hmem⟩
    · refine ⟨owned_step hs he (List.mem_append_right es hmem), ?_⟩
      rcases mem_step (e := e) hs hin with hin | hasked | ⟨now, rfl, hend⟩
      · exact Or.inl hin
      · exact Or.inr (Or.inl hasked)
      · exact Or.inr (Or.inr ⟨now, hmem, hend⟩)
    · exact ⟨owned_step hs he (List.mem_append_right es hmem), Or.inr hout⟩
  have hrest : here (Runs.run step (Runs.run step {} es) fs) :=
    Runs.run_induction hkeep ⟨howned, Or.inl hd⟩
      (Runs.meets_and.2 ⟨hfs, Runs.meets_of_mem (fun e he => he) _⟩)
  exact hrest.2.resolve_left hgone

/-- Employee 1 delegates to employee 2 and takes it back, while 2 cannot. -/
theorem taken_back_author :
    .select 10 1 ∈ ([.create ⟨1, 2, 0, 5, none⟩ 10] ++ [.select 10 2, .select 10 1, .delete 1] :
        List Statement) ∨
      ∃ now, .tick now ∈ ([.select 10 2, .select 10 1, .delete 1] : List Statement) ∧
        5 ≤ DelegationExpiryCron.cutoff now :=
  taken_back [.create ⟨1, 2, 0, 5, none⟩ 10] [.select 10 2, .select 10 1, .delete 1]
    ⟨⟨rfl, fun _ _ h => by cases h⟩, trivial, trivial, trivial, trivial⟩ ⟨10, 1, 2, 0, 5, none⟩
    (List.mem_singleton.2 rfl) (by decide)

end InFlight

end DelegationService

end OpsHub
