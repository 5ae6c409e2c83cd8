import OpsHub.Outbox.Deliveries

/-!
# The backoff of the webhook relay

A delivery whose POSTs all fail, in passes that commit.

* `Failing`: the condition on the steps;
* `BacksOff`: what the schedule says about the POSTs of a delivery;
* `BacksOff.change`: a POST that fails continues the schedule;
* `backs_off`: at most five POSTs, each after the delay that its predecessor has set, and the
  final status after the fifth of them.
-/

namespace OpsHub

namespace Deliveries

open WebhookRelayService (relay retryDelaysSeconds delaySeconds)

/-- The step does not reset the delivery, and a pass that has fetched it commits after its POST
has failed. -/
def Failing (id : Uuid) (s : Deliveries) : DeliveryEvent → Prop
  | .finish i p _ => ∀ pass, s.passes[i]? = some pass → ∀ row ∈ pass.batch, row.id = id →
      AbstractOutboxRelay.Commits p pass.batch ∧ ∃ e, p.processRow row = .error e
  | .retryDelivery deliveryId _ => deliveryId ≠ id
  | _ => True

/-- The next attempt after the POST number `k`, counted from 0: the one that the next POST has
found, or the one that is stored. -/
def nextAttempt (posts : List Post) (r : OutboxRow DeliveryData) (k : ℕ) : Option Time :=
  match posts[k + 1]? with
  | some post => post.nextAttemptAt
  | none => some r.dueAt

/-- **The schedule** of a delivery with the stored row `r`: a POST is not made before its time, a
failure moves the next attempt by the delay of its number at least, and the attempts count the
POSTs, the fifth of which is the last. -/
structure BacksOff (posts : List Post) (r : OutboxRow DeliveryData) : Prop where
  counted : r.attempts = posts.length
  atMost : posts.length ≤ 5
  inTime : ∀ post ∈ posts, ∃ t ∈ post.nextAttemptAt, t ≤ post.postedAt
  delayed : ∀ k delay, retryDelaysSeconds[k]? = some delay → ∀ post, posts[k]? = some post →
    ∃ t ∈ nextAttempt posts r k, post.endedAt + delay * 1000 ≤ t
  status : r.status = if posts.length < 5 then .pending else .failed

/-- A delivery that has been inserted backs off; before that it has no POSTs. -/
def Scheduled (id : Uuid) (s : Deliveries) : Prop :=
  match s.db.rows.find id with
  | some r => BacksOff (s.postsOf id) r
  | none => s.postsOf id = []

/-! ### The delays -/

theorem delaySeconds_succ {k delay : ℕ} (h : retryDelaysSeconds[k]? = some delay) :
    delaySeconds (k + 1) = delay := by
  have hlt : k < retryDelaysSeconds.length := (List.getElem?_eq_some_iff.1 h).1
  have hmin : min (k + 1 - 1) (retryDelaysSeconds.length - 1) = k := by omega
  rw [delaySeconds, hmin, h, Option.getD_some]

theorem pairwise_retryDelaysSeconds : retryDelaysSeconds.Pairwise (· ≤ ·) := by decide

/-- A further POST leaves the earlier ones where they are, and finds what was stored. -/
theorem nextAttempt_append {posts : List Post} {post : Post} {r r' : OutboxRow DeliveryData}
    (hpost : post.nextAttemptAt = some r.dueAt) {k : ℕ} (hk : k < posts.length) :
    nextAttempt (posts ++ [post]) r' k = nextAttempt posts r k := by
  unfold nextAttempt
  by_cases hnext : k + 1 < posts.length
  · rw [List.getElem?_append_left hnext, List.getElem?_eq_getElem hnext]
  · have hlast : k + 1 = posts.length := by omega
    rw [List.getElem?_append_right (Nat.le_of_not_lt hnext),
      List.getElem?_eq_none (Nat.le_of_not_lt hnext), hlast, Nat.sub_self,
      List.getElem?_singleton, if_pos rfl]
    exact hpost

theorem nextAttempt_last (posts : List Post) (post : Post) (r : OutboxRow DeliveryData) :
    nextAttempt (posts ++ [post]) r posts.length = some r.dueAt := by
  have hnone : (posts ++ [post])[posts.length + 1]? = none :=
    List.getElem?_eq_none (by rw [List.length_append, List.length_singleton])
  simp only [nextAttempt, hnone]

/-! ### One more failure -/

section Failure

variable {s : Deliveries} {posts : List Post} {r : OutboxRow DeliveryData}
  {p : Pattern DeliveryRow Empty} {row : FetchedRow DeliveryRow} {e : String}

/-- How a row is marked whose POST has failed. -/
theorem markedRow_of_error (herror : p.processRow row = .error e) (r : OutboxRow DeliveryData) :
    relay.markedRow p row r = relay.failedRow (p.markedAt row.id) (row.attempts + 1)
      (decide (5 ≤ row.attempts + 1)) e r := by
  have hattempt : p.attempt row = .error e := by
    simp only [Pattern.attempt, herror, bind, Except.bind]
  simp only [AbstractOutboxRelay.markedRow, hattempt]
  rfl

/-- The next attempt after a failure that is not the last. -/
theorem dueAt_failedRow {k delay : ℕ} (hdelay : retryDelaysSeconds[k]? = some delay) (now : Time)
    (e : String) (r : OutboxRow DeliveryData) :
    (relay.failedRow now (k + 1) (decide (5 ≤ k + 1)) e r).dueAt = now + delay * 1000 := by
  have hlt : k < 4 := (List.getElem?_eq_some_iff.1 hdelay).1
  have hmore : ¬5 ≤ k + 1 := by omega
  rw [decide_eq_false hmore, ← delaySeconds_succ hdelay]
  rfl

/-- **A POST that fails continues the schedule.** -/
theorem BacksOff.failed {t : Time} (h : BacksOff posts r) (hr : s.db.rows.find row.id = some r)
    (hfetched : Fetched t row r) (herror : p.processRow row = .error e)
    (elapsed : Uuid → Elapsed) :
    BacksOff (posts ++ [s.postOf t elapsed row]) (relay.markedRow (p.timed t elapsed) row r) := by
  have hpost : (s.postOf t elapsed row).nextAttemptAt = some r.dueAt := by
    simp only [postOf, hr, Option.map_some]
  have htimed : (p.timed t elapsed).processRow row = .error e := herror
  have hattempts : row.attempts = posts.length := hfetched.attempts.trans h.counted
  have hlt : posts.length < 5 := h.counted ▸ hfetched.unspent
  rw [markedRow_of_error htimed, hattempts]
  constructor
  · rw [List.length_append, List.length_singleton]
    rfl
  · rw [List.length_append, List.length_singleton]
    exact hlt
  · refine Pool.forall_mem_add h.inTime ⟨r.dueAt, hpost, ?_⟩
    exact hfetched.due.trans (Nat.le_add_right t _)
  · intro k delay hdelay q hq
    rcases Pool.get_append_cases hq with ⟨rfl, rfl⟩ | hq
    · -- the new POST, whose failure is marked after it has ended
      refine ⟨_, nextAttempt_last posts _ _, ?_⟩
      rw [dueAt_failedRow hdelay]
      exact Nat.add_le_add_right (Nat.le_add_right _ _) _
    · have hk : k < posts.length := (List.getElem?_eq_some_iff.1 hq).1
      rw [nextAttempt_append hpost hk]
      exact h.delayed k delay hdelay q hq
  · rw [List.length_append, List.length_singleton]
    by_cases hlast : 5 ≤ posts.length + 1
    · rw [decide_eq_true hlast, if_neg (Nat.not_lt_of_le hlast)]
      rfl
    · rw [decide_eq_false hlast, if_pos (Nat.lt_of_not_le hlast)]
      rfl

/-- A delivery without POSTs. -/
theorem BacksOff.created (hpending : r.status = .pending) (hattempts : r.attempts = 0) :
    BacksOff [] r where
  counted := hattempts
  atMost := Nat.zero_le 5
  inTime := fun _ hpost => by cases hpost
  delayed := fun _ _ _ _ hpost => by cases hpost
  status := hpending

end Failure

/-! ### Runs -/

variable {s : Deliveries} {id : Uuid}

/-- **The schedule**, step by step. -/
theorem Scheduled.step (hs : Scheduled id s) (h : Held s) {e : DeliveryEvent}
    (hfailing : Failing id s e) : Scheduled id (step s e) := by
  unfold Scheduled at hs ⊢
  cases change_of_step h e id with
  | kept hrow hposts =>
    rw [hrow, hposts]
    exact hs
  | created hnone hpending hattempts hrow hposts =>
    rw [hnone] at hs
    rw [hrow, hposts]
    simp only at hs ⊢
    rw [hs]
    exact BacksOff.created hpending hattempts
  | retried => exact absurd rfl hfailing
  | marked hpass hmem hid hr hfetched hrow hposts =>
    obtain ⟨-, e, herror⟩ := hfailing _ hpass _ hmem hid
    subst hid
    rw [hr] at hs
    rw [hrow, hposts]
    exact BacksOff.failed hs hr hfetched herror _
  | rolledBack hpass hmem hid _ _ hcommits =>
    exact absurd (hfailing _ hpass _ hmem hid).1 hcommits

/-- The delivery has failed for good, and `posts` are its POSTs. -/
def Closed (id : Uuid) (r : OutboxRow DeliveryData) (posts : List Post) (s : Deliveries) : Prop :=
  s.db.rows.find id = some r ∧ s.postsOf id = posts

/-- Nothing but a retry changes a delivery that has failed. -/
theorem Closed.step {r : OutboxRow DeliveryData} {posts : List Post} (hs : Closed id r posts s)
    (hfailed : r.status = .failed) (h : Held s) {e : DeliveryEvent} (hfailing : Failing id s e) :
    Closed id r posts (step s e) := by
  obtain ⟨hr, rfl⟩ := hs
  have hclosed : ∀ t row, ¬Fetched t row r := by
    intro t row hfetched
    rw [hfetched.pending] at hfailed
    cases hfailed
  obtain ⟨hposts, hrow | ⟨now, rfl, -⟩⟩ := (change_of_step h e id).kept_or_retried hr hclosed
  · exact ⟨hrow, hposts⟩
  · exact absurd rfl hfailing

theorem scheduled_after {subscriptions : List WebhookTarget} {es : List DeliveryEvent}
    (hfailing : Runs.Meets step (Failing id) (initial subscriptions) es) :
    Scheduled id (after subscriptions es) := by
  have hinitial : Scheduled id (initial subscriptions) := rfl
  exact Runs.run_induction_within (fun _ e h => h.step e) (fun _ _ h hs he => hs.step h he)
    (Held.initial subscriptions) hinitial hfailing

theorem Closed.run {r : OutboxRow DeliveryData} {posts : List Post} (hs : Closed id r posts s)
    (hfailed : r.status = .failed) (h : Held s) {es : List DeliveryEvent}
    (hfailing : Runs.Meets Deliveries.step (Failing id) s es) :
    Closed id r posts (Runs.run Deliveries.step s es) :=
  Runs.run_induction_within (fun _ e h => h.step e) (fun _ _ h hs he => hs.step hfailed h he) h hs
    hfailing

/-- **The backoff**, in every run in which the passes that have fetched a delivery fail to POST it
and commit: it keeps to the schedule, whose delays do not decrease; a pass that has fetched it is
about to make one of its five POSTs, not before its time; and after the fifth the delivery has
failed, and stays so without another POST. -/
theorem backs_off (subscriptions : List WebhookTarget) (es : List DeliveryEvent) (id : Uuid)
    (r : OutboxRow DeliveryData)
    (hfailing : Runs.Meets step (Failing id) (initial subscriptions) es)
    (hr : (after subscriptions es).db.rows.find id = some r) :
    retryDelaysSeconds.Pairwise (· ≤ ·) ∧
      BacksOff ((after subscriptions es).postsOf id) r ∧
      (∀ pass ∈ (after subscriptions es).passes, ∀ row ∈ pass.batch, row.id = id →
        ((after subscriptions es).postsOf id).length < 5 ∧ r.dueAt ≤ pass.fetchedAt) ∧
      (((after subscriptions es).postsOf id).length = 5 → r.status = .failed ∧
        ∀ es', Runs.Meets step (Failing id) (after subscriptions es) es' →
          (after subscriptions (es ++ es')).db.rows.find id = some r ∧
            (after subscriptions (es ++ es')).postsOf id =
              (after subscriptions es).postsOf id) := by
  have h := held_after subscriptions es
  have hbacksOff : BacksOff ((after subscriptions es).postsOf id) r := by
    have hscheduled := scheduled_after hfailing
    rw [Scheduled, hr] at hscheduled
    exact hscheduled
  refine ⟨pairwise_retryDelaysSeconds, hbacksOff, ?_, fun hfive => ?_⟩
  · rintro pass hpass row hrow rfl
    obtain ⟨r', hr', hfetched⟩ := h.fetched pass hpass row hrow
    obtain rfl := Option.some.inj (hr.symm.trans hr')
    exact ⟨hbacksOff.counted ▸ hfetched.unspent, hfetched.due⟩
  · have hfailed : r.status = .failed := by
      rw [hbacksOff.status, hfive]
      rfl
    refine ⟨hfailed, fun es' hes' => ?_⟩
    have hclosed : Closed id r ((after subscriptions es).postsOf id) (after subscriptions es) :=
      ⟨hr, rfl⟩
    rw [after, Runs.run_append]
    exact hclosed.run hfailed h hes'

namespace Sample

theorem failing_unavailable (s : Deliveries) (i : ℕ) (elapsed : Uuid → Elapsed) :
    Failing 1 s (.finish i unavailable elapsed) :=
  fun _ _ _ _ _ => ⟨⟨fun _ _ => rfl, rfl⟩, _, rfl⟩

theorem meets_history : Runs.Meets step (Failing 1) (initial [target]) history :=
  ⟨trivial, trivial, failing_unavailable _ _ _, trivial, failing_unavailable _ _ _, trivial,
    failing_unavailable _ _ _, trivial, failing_unavailable _ _ _, trivial,
    failing_unavailable _ _ _, trivial⟩

/-- The delivery that fails five times has its five POSTs, each after the delay of the last. -/
theorem backs_off_delivery :
    retryDelaysSeconds.Pairwise (· ≤ ·) ∧
      BacksOff ((after [target] history).postsOf 1) delivery ∧
      (∀ pass ∈ (after [target] history).passes, ∀ row ∈ pass.batch, row.id = 1 →
        ((after [target] history).postsOf 1).length < 5 ∧ delivery.dueAt ≤ pass.fetchedAt) ∧
      (((after [target] history).postsOf 1).length = 5 → delivery.status = .failed ∧
        ∀ es', Runs.Meets step (Failing 1) (after [target] history) es' →
          (after [target] (history ++ es')).db.rows.find 1 = some delivery ∧
            (after [target] (history ++ es')).postsOf 1 = (after [target] history).postsOf 1) :=
  backs_off [target] history 1 delivery meets_history (by decide +kernel)

end Sample

end Deliveries

end OpsHub
