import OpsHub.Domain.Hooks
import OpsHub.Requests.Concurrent

/-!
# Grants of concurrently reviewed access requests

The grants that the engine creates for an access request are bounded by the calls of
`onApprove` for the engine requests about it (`GrantsBounded`), whatever the order of
the steps.  With one engine request for the access request, and commits on open
requests only, there is at most one such grant (`concurrent_decisions`).  Two reviewers
who race at the last step create two (`not_settled_of_race`).
-/

namespace OpsHub

/-- The access request that a payload is about. -/
def Payload.accessRequestId : Payload → Option Uuid
  | .accessRequest payload => some payload.accessRequestId
  | _ => none

/-- The number of grants of an access request. -/
def Tables.grantsFor (tables : Tables) (accessRequestId : Uuid) : ℕ :=
  tables.accessGrants.rows.countP (fun g => decide (g.requestId = accessRequestId))

/-! ### What the hooks do to the grants -/

section Hooks

variable {request : RequestItem Payload} {t : Transition Payload Tables} {env : HookEnv}
  {tables tables' : TxTables Tables} {a : Uuid}

/-- Revoking grants does not change how many a request has. -/
theorem grantsFor_offboard (employeeId : Uuid) (now : Time) (tables : Tables) :
    (OffboardingTypeDef.offboard employeeId now tables).grantsFor a = tables.grantsFor a := by
  simp only [Tables.grantsFor, OffboardingTypeDef.offboard, Table.updateWhere, List.countP_map]
  congr 1
  funext g
  simp only [Function.comp_apply]
  split <;> rfl

/-- A hook creates at most one grant: as `onApprove`, for the access request of its payload. -/
theorem grantsFor_hookEffect {payload : Payload} {approves : Bool} {tables tables' : Tables}
    (h : HookEffect env tables payload approves tables') :
    tables'.grantsFor a ≤ tables.grantsFor a +
      if approves = true ∧ payload.accessRequestId = some a then 1 else 0 := by
  cases h with
  | accessApproved p approverId accessGrants hinsert =>
    have hcount := Table.countP_insert (fun g => decide (g.requestId = a)) hinsert
    have hgrant : (AccessRequestTypeDef.grant p env).requestId = p.accessRequestId := rfl
    rw [hgrant] at hcount
    simpa [Tables.grantsFor, Payload.accessRequestId] using hcount.le
  | offboarded p =>
    rw [grantsFor_offboard]
    exact Nat.le_add_right _ _
  | _ => exact Nat.le_add_right _ _

/-- The grants of an access request across a committed transition. -/
theorem grantsFor_transition (ht : RequestEngine.TransitionOf moduleRegistry request t)
    (h : t.hook env tables = .ok tables') :
    tables'.domain.grantsFor a ≤ tables.domain.grantsFor a +
      if t.approves = true ∧ request.payload.accessRequestId = some a then 1 else 0 :=
  grantsFor_hookEffect (hookEffect_of_transition ht h)

end Hooks

/-- No registered type has an `onSubmit` hook. -/
theorem onSubmit_eq_none {type : String} {typeDef : RequestTypeDef Payload Tables}
    (h : moduleRegistry type = some typeDef) : typeDef.onSubmit = none := by
  rcases mem_typeDefs.1 (moduleRegistry_eq_some h).1 with rfl | rfl | rfl | rfl | rfl | rfl <;> rfl

namespace Concurrent

open RequestEngine

/-! ### Grants across the steps of concurrent calls -/

/-- The stored request `id` is about the access request `a`. -/
def about (db : Db Payload Tables) (a id : Uuid) : Bool :=
  (db.requestItems.find id).any (fun r => decide (r.payload.accessRequestId = some a))

theorem about_eq_true_iff {db : Db Payload Tables} {a id : Uuid} :
    about db a id = true ↔
      ∃ r, db.requestItems.find id = some r ∧ r.payload.accessRequestId = some a := by
  simp [about, Option.any_eq_true]

/-- The grants of `a` are bounded by the calls of `onApprove` for requests about it, and
the copies in flight have the payloads of the stored requests. -/
structure GrantsBounded (a : Uuid) (n : ℕ) (s : State Payload Tables) : Prop where
  recorded : Recorded s.db
  copies : ∀ c ∈ s.copies, ∃ r, s.db.requestItems.find c.id = some r ∧ r.payload = c.payload
  bounded : s.db.domain.grantsFor a ≤ n + s.db.onApproveCalls.countP (about s.db a)

section Steps

variable {a : Uuid} {n : ℕ} {s s' : State Payload Tables} {db db' : Db Payload Tables}
  {request row : RequestItem Payload} {t : Transition Payload Tables} {env : HookEnv}

/-- A committed transition changes no payload. -/
theorem about_committed (ht : TransitionOf moduleRegistry request t)
    (hc : t.Committed env db db' row) (id : Uuid) : about db' a id = about db a id := by
  by_cases hid : id = t.requestId
  · obtain ⟨old, hold, hrow⟩ := hc.returned
    have hpayload : row.payload = old.payload := hrow ▸ (ht.update_fixed old).2.2.1
    simp [about, hid, hc.find_self, hold, hpayload]
  · simp [about, hc.find_ne hid]

theorem GrantsBounded.submitted {type : String} {payload : Payload} {actor : Actor}
    {opts : SubmitRequestOptions} {now : Time} {newId : Uuid} (h : GrantsBounded a n s)
    (hs : Submitted moduleRegistry type payload actor opts now newId env s.db s'.db row)
    (hcalls : s'.calls = s.calls) : GrantsBounded a n s' := by
  have hcopies : s'.copies = s.copies := by rw [State.copies, hcalls, State.copies]
  constructor
  · exact h.recorded.submitted hs
  · intro c hc
    rw [hcopies] at hc
    obtain ⟨r, hr, hpayload⟩ := h.copies c hc
    exact ⟨r, Table.find_insert_of_find hs.requestItems hr, hpayload⟩
  · have hcount : s.db.onApproveCalls.countP (about s'.db a) =
        s.db.onApproveCalls.countP (about s.db a) := by
      refine List.countP_congr fun id hid => ?_
      obtain ⟨r, hr⟩ := h.recorded.calls id hid
      rw [about, about, hr, Table.find_insert_of_find hs.requestItems hr]
    rw [hs.domain fun typeDef hdef => onSubmit_eq_none hdef, hs.onApproveCalls, hcount]
    exact h.bounded

theorem GrantsBounded.committed (h : GrantsBounded a n s)
    (hcopies : ∀ c ∈ s'.copies, c ∈ s.copies) (hrequest : request ∈ s.copies)
    (ht : TransitionOf moduleRegistry request t) (hc : t.Committed env s.db s'.db row) :
    GrantsBounded a n s' := by
  constructor
  · exact h.recorded.decided ht hc
  · intro c hmem
    obtain ⟨r, hr, hpayload⟩ := h.copies c (hcopies c hmem)
    obtain ⟨r', hr', -, -, hpayload'⟩ := ht.find_kept hc hr
    exact ⟨r', hr', hpayload'.trans hpayload⟩
  · obtain ⟨tables, hhook, hdomain⟩ := hc.hook
    have hgrants := grantsFor_transition (a := a) ht hhook
    have hbounded := h.bounded
    -- the call of the hook is counted exactly when its request is about `a`
    have hcalls : s'.db.onApproveCalls.countP (about s'.db a) =
        s.db.onApproveCalls.countP (about s.db a) +
          if t.approves = true ∧ request.payload.accessRequestId = some a then 1 else 0 := by
      have habout : about s.db a = about s'.db a :=
        funext fun id => (about_committed ht hc id).symm
      rw [hc.onApproveCalls, List.countP_append, ← habout]
      by_cases happ : t.approves = true
      · obtain ⟨r, hr, hpayload⟩ := h.copies request hrequest
        simp [happ, ht.requestId_eq, about, hr, hpayload]
      · simp [happ]
    rw [hdomain, hcalls]
    omega

/-- **The step lemma.** -/
theorem step_grantsBounded (s : State Payload Tables) (e : Event Payload)
    (h : GrantsBounded a n s) : GrantsBounded a n (step moduleRegistry s e) := by
  rcases step_cases moduleRegistry s e with ⟨hdb, -, hcopies⟩ |
    ⟨⟨_, _, _, _, _, _, _, _, -, hs⟩, -, hcalls⟩ |
    ⟨i, now, env, operation, request, delegation, view, rfl, hc⟩
  · constructor
    · rw [hdb]
      exact h.recorded
    · intro c hc
      rw [hdb]
      rcases hcopies c hc with hc | hc
      · exact h.copies c hc
      · exact ⟨c, Table.find_of_mem hc, rfl⟩
    · rw [hdb]
      exact h.bounded
  · exact h.submitted hs hcalls
  · obtain ⟨row, htx⟩ := hc.tx
    obtain ⟨t, ht, htc⟩ := operation.tx_decided htx
    exact h.committed hc.copies hc.mem_copies ht htc

end Steps

/-- **Concurrent decisions.**  Whatever the registered types are: in a run whose commits
all find their request open, a settled request keeps its status, step and resolution
time, and `onApprove` is committed at most once for it.  With the types of the modules,
such a run creates at most one grant for an access request that one engine request is
about. -/
theorem concurrent_decisions (subscriptions : List WebhookSubscription) :
    (∀ (π σ : Type) (registry : RequestRegistry π σ) (tables : TxTables σ)
        (es es' : List (Event π)),
      Runs.Meets (step registry) CommitsOnOpen (State.initial subscriptions tables) (es ++ es') →
      Settled (Runs.run (step registry) (State.initial subscriptions tables) es)
        (Runs.run (step registry) (State.initial subscriptions tables) (es ++ es'))) ∧
    ∀ (tables : TxTables Tables) (es : List (Event Payload)) (a : Uuid),
      Runs.Meets (step moduleRegistry) CommitsOnOpen (State.initial subscriptions tables) es →
      let s := Runs.run (step moduleRegistry) (State.initial subscriptions tables) es
      (∀ r ∈ s.db.requestItems.rows, ∀ r' ∈ s.db.requestItems.rows,
        r.payload.accessRequestId = some a → r'.payload.accessRequestId = some a → r = r') →
      s.db.domain.grantsFor a ≤ tables.domain.grantsFor a + 1 := by
  constructor
  · intro π σ registry tables es es' hok
    exact run_settled registry subscriptions tables es es' hok
  · intro tables es a hok s hunique
    have hinitial : GrantsBounded a (tables.domain.grantsFor a)
        (State.initial subscriptions tables) := by
      refine ⟨recorded_initial subscriptions tables, ?_, ?_⟩
      · simp [State.initial, State.copies]
      · simp [State.initial, Db.initial]
    have hbounded := (Runs.run_invariant step_grantsBounded hinitial es).bounded
    have honce : ∀ id, s.db.onApproveCalls.count id ≤ 1 := by
      have hsettled := run_settled moduleRegistry subscriptions tables [] es hok
      exact hsettled.once
    refine hbounded.trans (Nat.add_le_add_left ?_ _)
    by_cases hex : ∃ r ∈ s.db.requestItems.rows, r.payload.accessRequestId = some a
    · -- every call that counts is for the one request about `a`
      obtain ⟨r, hr, hra⟩ := hex
      refine le_trans (List.countP_mono_left fun id _ habout => ?_) (honce r.id)
      obtain ⟨r', hr', hr'a⟩ := about_eq_true_iff.1 habout
      have heq := hunique r hr r' (Table.mem_of_find hr') hra hr'a
      rw [heq, beq_iff_eq]
      exact (Table.key_of_find hr').symm
    · have hzero : s.db.onApproveCalls.countP (about s.db a) = 0 := by
        rw [List.countP_eq_zero]
        intro id _ habout
        obtain ⟨r', hr', hr'a⟩ := about_eq_true_iff.1 habout
        exact hex ⟨r', Table.mem_of_find hr', hr'a⟩
      exact hzero.le.trans (Nat.zero_le 1)

/-! ### A race at the last step -/

namespace Race

def payload : Payload := .accessRequest
  { accessRequestId := 40, requesterId := 1, accessType := .vpn, target := "vpn-gw"
    justification := "on-call access", durationHours := 8 }

/-- Users 2, 3 and 4 hold every permission. -/
def view : AuthzView where
  check user _ := decide (user = 2 ∨ user = 3 ∨ user = 4)
  delegations := []
  now := 0

def start : State Payload Tables := State.initial [] ⟨[], Tables.empty⟩

/-- The request of user 1 passes its first step. -/
def firstStep : List (Event Payload) :=
  [.submit "access_request" payload ⟨1, "user1@example.com"⟩ {} 0 5 ⟨0, 90⟩,
    .read 5 (.approve none ⟨2, "user2@example.com"⟩),
    .check 0 view,
    .commit 0 10 ⟨10, 91⟩]

/-- Users 3 and 4 read the request at its last step. -/
def reads : List (Event Payload) :=
  [.read 5 (.approve none ⟨3, "user3@example.com"⟩),
    .read 5 (.approve none ⟨4, "user4@example.com"⟩),
    .check 1 view,
    .check 2 view]

/-- The run after the first commit of the two. -/
def es : List (Event Payload) := firstStep ++ reads ++ [.commit 1 20 ⟨20, 92⟩]

/-- The commit of the other. -/
def es' : List (Event Payload) := [.commit 2 21 ⟨21, 93⟩]

/-- User 4 comes after the commit of user 3. -/
def late : List (Event Payload) :=
  [.read 5 (.approve none ⟨4, "user4@example.com"⟩), .check 2 view, .commit 2 21 ⟨21, 93⟩]

/-- A run in which nobody races. -/
def orderly : List (Event Payload) :=
  firstStep ++ [.read 5 (.approve none ⟨3, "user3@example.com"⟩), .check 1 view,
    .commit 1 20 ⟨20, 92⟩]

end Race

/-- Two reviewers who have both read the request at its last step approve it twice:
`onApprove` is committed twice, which makes two grants. -/
theorem not_settled_of_race :
    ¬ (∀ es es' : List (Event Payload),
      Settled (Runs.run (step moduleRegistry) Race.start es)
        (Runs.run (step moduleRegistry) Race.start (es ++ es'))) ∧
    (Runs.run (step moduleRegistry) Race.start (Race.es ++ Race.es')).db.domain.grantsFor 40 = 2 := by
  have hcalls : (Runs.run (step moduleRegistry) Race.start
      (Race.es ++ Race.es')).db.onApproveCalls.count 5 = 2 := by decide
  constructor
  · intro h
    have honce := (h Race.es Race.es').once 5
    rw [hcalls] at honce
    omega
  · decide

/-- The guarantees for a run in which the second reviewer comes too late. -/
theorem concurrent_decisions_orderly :
    Settled (Runs.run (step moduleRegistry) Race.start Race.orderly)
        (Runs.run (step moduleRegistry) Race.start (Race.orderly ++ Race.late)) ∧
      (Runs.run (step moduleRegistry) Race.start (Race.orderly ++ Race.late)).db.domain.grantsFor 40
        ≤ 0 + 1 := by
  have hok : Runs.Meets (step moduleRegistry) CommitsOnOpen Race.start
      (Race.orderly ++ Race.late) := by decide
  refine ⟨(concurrent_decisions []).1 _ _ moduleRegistry ⟨[], Tables.empty⟩ Race.orderly Race.late hok,
    (concurrent_decisions []).2 ⟨[], Tables.empty⟩ (Race.orderly ++ Race.late) 40 hok ?_⟩
  decide

end Concurrent

end OpsHub
