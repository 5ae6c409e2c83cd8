import OpsHub.Lib.Potential
import OpsHub.Outbox.Relays

/-!
# No row waits for ever

How many runs of a relay can pass over a row that is due.  The rows that stand before it have
attempts left, and every run that commits without it takes a full batch of them and one attempt
from each.

* `Patient`: a failed attempt does not put a row forward; the three relays are patient;
* `Waiting`: the runs of several processes, with those that have passed over a row;
* `backlog`: the attempts left to the rows that stand before it, `weight_foldl` what a batch takes
  from them;
* `Standing`: the invariant, `passed_fetch` why a run passes over a row;
* `Standing.pay`: what one step takes from the backlog, `not_starved` the bound for a run.
-/

namespace OpsHub

/-! ### The relays -/

/-- A failed attempt does not put a row forward. -/
def AbstractOutboxRelay.Patient {δ κ ρ : Type} (R : AbstractOutboxRelay δ κ ρ) : Prop :=
  ∀ now newAttempts dueAt, dueAt ≤ now → dueAt ≤ R.nextAttempt now newAttempts false dueAt

theorem WebhookRelayService.patient : relay.Patient := fun now newAttempts _ hdue =>
  Nat.le_trans hdue (Nat.le_add_right now (delaySeconds newAttempts * 1000))

theorem NotificationRelayService.patient : relay.Patient := fun _ _ _ _ => Nat.le_refl _

theorem EmailRelayService.patient : relay.Patient := fun _ _ _ _ => Nat.le_refl _

/-! ### The system -/

/-- The runs of the relay, and for each of those under way whether it has passed over the row. -/
structure Waiting (δ κ ρ : Type) where
  system : RelaySystem δ κ ρ
  passed : List Bool

namespace Waiting

variable {δ κ ρ τ : Type} (R : AbstractOutboxRelay δ κ ρ) (id : Uuid)

/-- A run that begins passes over the row: it is due and not held, and does not fit into the
batch. -/
def passesOver (now : Time) (held : Uuid → Bool) (s : RelaySystem δ κ ρ) : Bool :=
  (s.db.rows.find id).any (fun r => decide (R.Due now (s.skipped held) s.db.joined r)) &&
    (R.fetchBatch now (s.skipped held) s.db).all fun row => decide (row.id ≠ id)

/-- The next state. -/
def step (w : Waiting δ κ ρ) (e : RelayEvent δ κ ρ τ) : Waiting δ κ ρ where
  system := w.system.step R e
  passed :=
    match e with
    | .fetch now held => w.passed ++ [passesOver R id now held w.system]
    | .finish i _ => w.passed.set i false
    | .enqueue _ _ _ | .rejoin _ => w.passed

/-- A run that has passed over the row commits. -/
def overtakes (w : Waiting δ κ ρ) : RelayEvent δ κ ρ τ → Bool
  | .finish i p =>
    match w.system.batches[i]? with
    | some batch =>
      decide (w.passed[i]? = some true) &&
        (R.finish p.env batch w.system.processed w.system.db).committed
    | none => false
  | _ => false

/-- The number of runs that pass over the row and commit. -/
def overtaken (w : Waiting δ κ ρ) (es : List (RelayEvent δ κ ρ τ)) : ℕ :=
  Runs.total (step R id) (fun w e => if overtakes R w e then 1 else 0) w es

/-- From now on the row waits. -/
def start (s : RelaySystem δ κ ρ) : Waiting δ κ ρ := ⟨s, s.batches.map fun _ => false⟩

/-- The attempts left to a row that stands before one that is due at `t`. -/
def weight (t : Time) (x : OutboxRow δ) : ℕ :=
  if x.id ≠ id ∧ x.status = .pending ∧ x.dueAt ≤ t then R.maxAttempts - x.attempts else 0

/-- The attempts left to the rows that stand before it. -/
def backlog (t : Time) (db : Outbox δ κ) : ℕ := db.rows.weight (weight R id t)

/-- A row is inserted before it. -/
def arrives (t : Time) : RelayEvent δ κ ρ τ → Bool
  | .enqueue _ _ dueAt => decide (dueAt ≤ t)
  | _ => false

/-- The rows are marked after they have become due. -/
def Timely (s : RelaySystem δ κ ρ) : RelayEvent δ κ ρ τ → Prop
  | .finish i p => ∀ batch ∈ s.batches[i]?, ∀ row ∈ batch, ∀ x ∈ s.db.rows.find row.id,
      x.dueAt ≤ p.markedAt row.id
  | _ => True

/-- The row is not fetched. -/
def Unfetched (s : RelaySystem δ κ ρ) : RelayEvent δ κ ρ τ → Prop
  | .fetch now held => ∀ row ∈ R.fetchBatch now (s.skipped held) s.db, row.id ≠ id
  | _ => True

instance (s : RelaySystem δ κ ρ) : (e : RelayEvent δ κ ρ τ) → Decidable (Timely s e)
  | .finish i p => inferInstanceAs (Decidable (∀ batch ∈ s.batches[i]?, ∀ row ∈ batch,
      ∀ x ∈ s.db.rows.find row.id, x.dueAt ≤ p.markedAt row.id))
  | .fetch _ _ | .enqueue _ _ _ | .rejoin _ => isTrue trivial

instance (s : RelaySystem δ κ ρ) : (e : RelayEvent δ κ ρ τ) → Decidable (Unfetched R id s e)
  | .fetch now held =>
    inferInstanceAs (Decidable (∀ row ∈ R.fetchBatch now (s.skipped held) s.db, row.id ≠ id))
  | .finish _ _ | .enqueue _ _ _ | .rejoin _ => isTrue trivial

/-! ### What a batch takes -/

variable {R id} {t : Time} {db : Outbox δ κ} {p : Pattern ρ τ} {batch : List (FetchedRow ρ)}

/-- A row of a batch is as it has been fetched. -/
structure Fresh (R : AbstractOutboxRelay δ κ ρ) (row : FetchedRow ρ) (x : OutboxRow δ) :
    Prop where
  pending : x.status = .pending
  attempts : row.attempts = x.attempts
  unspent : x.attempts < R.maxAttempts

/-- A row that is marked has an attempt less, if any counts. -/
theorem weight_markedRow (hR : R.Patient) {row : FetchedRow ρ} {x : OutboxRow δ}
    (hfresh : Fresh R row x) (htimely : x.dueAt ≤ p.markedAt row.id) :
    weight R id t (R.markedRow p row x) + (if 0 < weight R id t x then 1 else 0) ≤
      weight R id t x := by
  have hunspent := hfresh.unspent
  have hzero : ∀ y : OutboxRow δ, y.status ≠ .pending → weight R id t y = 0 :=
    fun y hy => if_neg fun h => hy h.2.1
  unfold AbstractOutboxRelay.markedRow
  split
  · rw [hzero _ R.sent_ne_pending]
    split <;> omega
  · rename_i errMsg _
    by_cases hexhausted : R.maxAttempts ≤ row.attempts + 1
    · rw [hzero _ (by
        simp only [AbstractOutboxRelay.failedRow, hexhausted, decide_true, if_true]
        exact R.failed_ne_pending)]
      split <;> omega
    · -- the row is tried again, and not before it would have been
      have hlater := hR (p.markedAt row.id) (row.attempts + 1) x.dueAt htimely
      have hattempts := hfresh.attempts
      have hfailed : decide (R.maxAttempts ≤ row.attempts + 1) = false := decide_eq_false hexhausted
      rw [hfailed]
      by_cases hbefore : x.id ≠ id ∧
          R.nextAttempt (p.markedAt row.id) (row.attempts + 1) false x.dueAt ≤ t
      · have hnow : weight R id t x = R.maxAttempts - x.attempts :=
          if_pos ⟨hbefore.1, hfresh.pending, hlater.trans hbefore.2⟩
        have hthen : weight R id t
            (R.failedRow (p.markedAt row.id) (row.attempts + 1) false errMsg x) =
              R.maxAttempts - (row.attempts + 1) := if_pos ⟨hbefore.1, rfl, hbefore.2⟩
        rw [hthen, hnow]
        split <;> omega
      · have hthen : weight R id t
            (R.failedRow (p.markedAt row.id) (row.attempts + 1) false errMsg x) = 0 :=
          if_neg fun h => hbefore ⟨h.1, h.2.2⟩
        rw [hthen]
        split <;> omega

/-- **A batch** takes an attempt from each of its rows that counts. -/
theorem weight_foldl (hR : R.Patient) (hnodup : (batch.map FetchedRow.id).Nodup)
    (hfresh : ∀ row ∈ batch, ∃ x, db.rows.find row.id = some x ∧ Fresh R row x ∧
      x.dueAt ≤ p.markedAt row.id) :
    backlog R id t (batch.foldl (R.markRow p) db) +
        batch.countP (fun row => (db.rows.find row.id).any fun x => decide (0 < weight R id t x)) ≤
      backlog R id t db := by
  induction batch generalizing db with
  | nil => exact Nat.le_refl _
  | cons row batch ih =>
    rw [List.map_cons, List.nodup_cons] at hnodup
    obtain ⟨x, hx, hrow, htimely⟩ := hfresh row List.mem_cons_self
    have hother : ∀ y ∈ batch, (R.markRow p db row).rows.find y.id = db.rows.find y.id := by
      intro y hy
      refine Table.find_update_ne _ (fun heq => hnodup.1 ?_) _ (R.markedRow_id p row)
      exact List.mem_map.2 ⟨y, hy, heq⟩
    have hrest := @ih (R.markRow p db row) hnodup.2 fun y hy => by
      rw [hother y hy]
      exact hfresh y (List.mem_cons_of_mem _ hy)
    have hcount : batch.countP (fun y => ((R.markRow p db row).rows.find y.id).any
          fun x => decide (0 < weight R id t x)) =
        batch.countP (fun y => (db.rows.find y.id).any fun x => decide (0 < weight R id t x)) :=
      List.countP_congr fun y hy => by rw [hother y hy]
    have hmarked : backlog R id t (R.markRow p db row) + weight R id t x =
        backlog R id t db + weight R id t (R.markedRow p row x) :=
      Table.weight_update hx (R.markedRow_id p row)
    have hpaid : weight R id t (R.markedRow p row x) +
        (if 0 < weight R id t x then 1 else 0) ≤ weight R id t x :=
      weight_markedRow hR hrow htimely
    rw [List.foldl_cons, List.countP_cons, hx]
    rw [hcount] at hrest
    simp only [Option.any_some, decide_eq_true_eq]
    omega

/-! ### Why a run passes over a row -/

/-- A run that passes over a row takes a full batch of rows that are due no later. -/
theorem passed_fetch {now : Time} {held : Uuid → Bool} {s : RelaySystem δ κ ρ} {r : OutboxRow δ}
    (hr : s.db.rows.find id = some r) (h : passesOver R id now held s = true) :
    (R.fetchBatch now (s.skipped held) s.db).length = R.batchSize ∧
      ∀ row ∈ R.fetchBatch now (s.skipped held) s.db, ∀ x, s.db.rows.find row.id = some x →
        x.dueAt ≤ r.dueAt := by
  unfold passesOver at h
  rw [hr, Option.any_some, Bool.and_eq_true, decide_eq_true_eq, List.all_eq_true] at h
  obtain ⟨hdue, hout⟩ := h
  have hmem : r ∈ s.db.rows.rows.filter fun x => decide (R.Due now (s.skipped held) s.db.joined x) :=
    List.mem_filter.2 ⟨Table.mem_of_find hr, decide_eq_true hdue⟩
  have hselected : ∀ x ∈ Oldest.first OutboxRow.dueAt R.batchSize (s.db.rows.rows.filter
      fun x => decide (R.Due now (s.skipped held) s.db.joined x)),
      (R.selected s.db.joined x).isSome = true := by
    intro x hx
    have hx := of_decide_eq_true (List.mem_filter.1 (Oldest.mem_of_mem_first hx)).2
    rw [AbstractOutboxRelay.selected, Option.isSome_map]
    exact hx.2.2.2.2
  rcases Oldest.mem_first_or OutboxRow.dueAt R.batchSize hmem with hfirst | ⟨hfull, holder⟩
  · -- it would be in the batch
    obtain ⟨row, hrow⟩ := Option.isSome_iff_exists.1 (hselected r hfirst)
    have hbatch : row ∈ R.fetchBatch now (s.skipped held) s.db := List.mem_filterMap.2 ⟨r, hfirst, hrow⟩
    obtain ⟨data, -, rfl⟩ := Option.map_eq_some_iff.1 hrow
    exact absurd (Table.key_of_find hr) (of_decide_eq_true (hout _ hbatch))
  · refine ⟨?_, fun row hrow x hx => ?_⟩
    · exact (List.filterMap_length_eq_length.2 hselected).trans hfull
    · obtain ⟨y, hy, hsel⟩ := List.mem_filterMap.1 hrow
      obtain ⟨data, -, rfl⟩ := Option.map_eq_some_iff.1 hsel
      have hfind := Table.find_of_mem (List.mem_filter.1 (Oldest.mem_of_mem_first hy)).1
      obtain rfl : y = x := Option.some.inj (hfind.symm.trans hx)
      exact holder y hy

/-! ### The invariant -/

/-- The batches under way are as they have been fetched. -/
structure AllFresh (R : AbstractOutboxRelay δ κ ρ) (s : RelaySystem δ κ ρ) : Prop where
  locked : s.Locked
  fresh : ∀ (i : ℕ) (batch : List (FetchedRow ρ)), s.batches[i]? = some batch →
    ∀ row ∈ batch, ∃ x, s.db.rows.find row.id = some x ∧ Fresh R row x

/-- What holds while the row waits. -/
structure Standing (R : AbstractOutboxRelay δ κ ρ) (r : OutboxRow δ) (w : Waiting δ κ ρ) :
    Prop where
  fresh : AllFresh R w.system
  passed : ∀ (i : ℕ) (batch : List (FetchedRow ρ)), w.system.batches[i]? = some batch →
    w.passed[i]? = some true → batch.length = R.batchSize ∧
      ∀ row ∈ batch, ∀ x, w.system.db.rows.find row.id = some x → x.dueAt ≤ r.dueAt
  length : w.passed.length = w.system.batches.length
  out : ∀ (i : ℕ) (batch : List (FetchedRow ρ)), w.system.batches[i]? = some batch →
    ∀ row ∈ batch, row.id ≠ r.id
  stored : w.system.db.rows.find r.id = some r

/-- A run that ends leaves the rows of the other batches as they are. -/
theorem find_other {s : RelaySystem δ κ ρ} (h : s.Locked) {i j : ℕ}
    {batch other : List (FetchedRow ρ)} (hi : s.batches[i]? = some batch)
    (hj : s.batches[j]? = some other) (hij : i ≠ j) {row : FetchedRow ρ} (hrow : row ∈ other) :
    (R.finish p.env batch s.processed s.db).db.rows.find row.id = s.db.rows.find row.id :=
  RelaySystem.find_finish fun x hx => h.disjoint i j batch other hi hj hij x hx row hrow

theorem AllFresh.step {s : RelaySystem δ κ ρ} (h : AllFresh R s) (e : RelayEvent δ κ ρ τ) :
    AllFresh R (s.step R e) := by
  refine ⟨h.locked.step e, ?_⟩
  cases e with
  | fetch now held =>
    intro i batch hi row hrow
    rcases Pool.get_append_cases hi with ⟨-, rfl⟩ | hi
    · obtain ⟨x, hx, hdue, hattempts⟩ := AbstractOutboxRelay.mem_fetchBatch hrow
      exact ⟨x, hx, hdue.1, hattempts, hdue.2.1⟩
    · exact h.fresh i batch hi row hrow
  | finish i p =>
    simp only [RelaySystem.step]
    split
    · rename_i batch hbatch
      intro j other hj row hrow
      rcases Pool.get_set_cases hj with ⟨-, rfl⟩ | ⟨hij, hj⟩
      · cases hrow
      · rw [find_other h.locked hbatch hj hij.symm hrow]
        exact h.fresh j other hj row hrow
    · exact h.fresh
  | enqueue id data dueAt =>
    intro i batch hi row hrow
    obtain ⟨x, hx, hfresh⟩ := h.fresh i batch hi row hrow
    exact ⟨x, RelaySystem.find_enqueue hx _, hfresh⟩
  | rejoin joined => exact h.fresh

section Steps

variable {r : OutboxRow δ} {w : Waiting δ κ ρ}

/-- A run begins, and does not take the row. -/
theorem Standing.fetch (h : Standing R r w) {now : Time} {held : Uuid → Bool}
    (hunfetched : ∀ row ∈ R.fetchBatch now (w.system.skipped held) w.system.db, row.id ≠ r.id) :
    Standing R r (step R r.id w (.fetch now held : RelayEvent δ κ ρ τ)) := by
  refine ⟨h.fresh.step (.fetch now held : RelayEvent δ κ ρ τ), fun i batch hi hpassed => ?_, ?_,
    fun i batch hi => ?_, h.stored⟩
  · -- the new batch and the new mark have the same place
    rcases Pool.get_append_cases hi with ⟨hlast, rfl⟩ | hi
    · rcases Pool.get_append_cases hpassed with ⟨-, hover⟩ | hpassed
      · exact passed_fetch h.stored hover.symm
      · have hlt := (List.getElem?_eq_some_iff.1 hpassed).1
        rw [h.length, hlast] at hlt
        exact absurd hlt (Nat.lt_irrefl _)
    · rcases Pool.get_append_cases hpassed with ⟨hlast, -⟩ | hpassed
      · have hlt := (List.getElem?_eq_some_iff.1 hi).1
        rw [hlast, h.length] at hlt
        exact absurd hlt (Nat.lt_irrefl _)
      · exact h.passed i batch hi hpassed
  · show (w.passed ++ [_]).length = (w.system.batches ++ [_]).length
    rw [List.length_append, List.length_append, h.length]
    rfl
  · rcases Pool.get_append_cases hi with ⟨-, rfl⟩ | hi
    · exact hunfetched
    · exact h.out i batch hi

/-- A run ends. -/
theorem Standing.finish (h : Standing R r w) (i : ℕ) (p : Pattern ρ τ) :
    Standing R r (step R r.id w (.finish i p)) := by
  have hfresh := h.fresh.step (.finish i p)
  cases hbatch : w.system.batches[i]? with
  | none =>
    have hsame : w.system.step R (.finish i p) = w.system := by
      simp only [RelaySystem.step, hbatch]
    refine ⟨hfresh, fun j other hj hpassed => ?_, ?_, fun j other hj => ?_, ?_⟩
    all_goals simp only [Waiting.step, hsame] at *
    · rcases Pool.get_set_cases hpassed with ⟨-, hfalse⟩ | ⟨-, hpassed⟩
      · cases hfalse
      · exact h.passed j other hj hpassed
    · rw [List.length_set, h.length]
    · exact h.out j other hj
    · exact h.stored
  | some batch =>
    have hnext : w.system.step R (.finish i p) =
        { db := (R.finish p.env batch w.system.processed w.system.db).db
          processed := (R.finish p.env batch w.system.processed w.system.db).world
          batches := w.system.batches.set i [] } := by
      simp only [RelaySystem.step, hbatch]
    refine ⟨hfresh, fun j other hj hpassed => ?_, ?_, fun j other hj => ?_, ?_⟩
    all_goals simp only [Waiting.step, hnext] at *
    · rcases Pool.get_set_cases hpassed with ⟨-, hfalse⟩ | ⟨hij, hpassed⟩
      · cases hfalse
      · rcases Pool.get_set_cases hj with ⟨hji, -⟩ | ⟨-, hj⟩
        · exact absurd hji hij
        · obtain ⟨hlength, hdue⟩ := h.passed j other hj hpassed
          refine ⟨hlength, fun row hrow x hx => hdue row hrow x ?_⟩
          rwa [find_other h.fresh.locked hbatch hj hij.symm hrow] at hx
    · rw [List.length_set, List.length_set, h.length]
    · rcases Pool.get_set_cases hj with ⟨-, rfl⟩ | ⟨-, hj⟩
      · exact fun row hrow => by cases hrow
      · exact h.out j other hj
    · rw [RelaySystem.find_finish (h.out i batch hbatch)]
      exact h.stored

/-- **The invariant** is kept as long as the row is not fetched. -/
theorem Standing.step (h : Standing R r w) (e : RelayEvent δ κ ρ τ)
    (hunfetched : Unfetched R r.id w.system e) : Standing R r (step R r.id w e) := by
  have hfresh := h.fresh.step e
  cases e with
  | fetch now held => exact h.fetch hunfetched
  | finish i p => exact h.finish i p
  | enqueue id data dueAt =>
    refine ⟨hfresh, fun i batch hi hpassed => ?_, h.length, h.out,
      RelaySystem.find_enqueue h.stored _⟩
    obtain ⟨hlength, hdue⟩ := h.passed i batch hi hpassed
    refine ⟨hlength, fun row hrow x hx => hdue row hrow x ?_⟩
    obtain ⟨y, hy, -⟩ := h.fresh.fresh i batch hi row hrow
    have hnew : (RelaySystem.enqueue w.system.db
        { id := id, data := data, dueAt := dueAt }).rows.find row.id = some y :=
      RelaySystem.find_enqueue hy _
    rw [hy]
    exact hnew.symm.trans hx
  | rejoin joined => exact ⟨hfresh, h.passed, h.length, h.out, h.stored⟩

end Steps

/-- At the beginning nothing has passed over the row, and no run has it. -/
theorem standing_start {s : RelaySystem δ κ ρ} (hfresh : AllFresh R s) {r : OutboxRow δ}
    (hr : r ∈ s.db.rows.rows) (hfree : s.locked r.id = false) : Standing R r (start s) := by
  refine ⟨hfresh, fun i batch hi hpassed => ?_, List.length_map _,
    fun i batch hi row hrow hid => ?_, Table.find_of_mem hr⟩
  · have hfalse : s.batches[i]?.map (fun _ => false) = some true := by
      rw [← List.getElem?_map]
      exact hpassed
    obtain ⟨-, -, hfalse⟩ := Option.map_eq_some_iff.1 hfalse
    cases hfalse
  · have hlocked : s.locked r.id = true :=
      RelaySystem.locked_eq_true_iff.2 ⟨batch, List.mem_of_getElem? hi, row, hrow, hid⟩
    rw [hfree] at hlocked
    cases hlocked

/-! ### The bound -/

/-- A batch that has passed over the row takes as many attempts as it has rows. -/
theorem Standing.countP_batch {r : OutboxRow δ} {w : Waiting δ κ ρ} (h : Standing R r w) {i : ℕ}
    (hbatch : w.system.batches[i]? = some batch) (hpassed : w.passed[i]? = some true) :
    batch.countP (fun row => (w.system.db.rows.find row.id).any
      fun x => decide (0 < weight R r.id r.dueAt x)) = R.batchSize := by
  obtain ⟨hlength, hdue⟩ := h.passed i batch hbatch hpassed
  rw [← hlength, List.countP_eq_length]
  intro row hrow
  obtain ⟨x, hx, hfresh⟩ := h.fresh.fresh i batch hbatch row hrow
  have hid : x.id ≠ r.id := by
    rw [show x.id = row.id from Table.key_of_find hx]
    exact h.out i batch hbatch row hrow
  have hweight : weight R r.id r.dueAt x = R.maxAttempts - x.attempts :=
    if_pos ⟨hid, hfresh.pending, hdue row hrow x hx⟩
  have hunspent := hfresh.unspent
  rw [hx, Option.any_some, decide_eq_true_eq, hweight]
  omega

/-- A run that ends: if it has passed over the row and commits, its batch pays. -/
theorem Standing.pay_finish (hR : R.Patient) {r : OutboxRow δ} {w : Waiting δ κ ρ}
    (h : Standing R r w) (i : ℕ) (htimely : Timely w.system (.finish i p)) :
    backlog R r.id r.dueAt (Waiting.step R r.id w (.finish i p)).system.db +
        R.batchSize * (if overtakes R w (.finish i p) then 1 else 0) ≤
      backlog R r.id r.dueAt w.system.db := by
  cases hbatch : w.system.batches[i]? with
  | none =>
    simp only [Waiting.step, RelaySystem.step, overtakes, hbatch]
    exact Nat.le_refl _
  | some batch =>
    simp only [Waiting.step, RelaySystem.step, overtakes, hbatch]
    by_cases hcommits : AbstractOutboxRelay.Commits p batch
    · have htaken : backlog R r.id r.dueAt (batch.foldl (R.markRow p) w.system.db) +
          batch.countP (fun row => (w.system.db.rows.find row.id).any
            fun x => decide (0 < weight R r.id r.dueAt x)) ≤
            backlog R r.id r.dueAt w.system.db := by
        refine weight_foldl hR (h.fresh.locked.distinct i batch hbatch) fun row hrow => ?_
        obtain ⟨x, hx, hfresh⟩ := h.fresh.fresh i batch hbatch row hrow
        exact ⟨x, hx, hfresh, htimely batch hbatch row hrow x hx⟩
      rw [AbstractOutboxRelay.finish_of_commits hcommits]
      by_cases hpassed : w.passed[i]? = some true
      · rw [h.countP_batch hbatch hpassed] at htaken
        simp only [hpassed, decide_true, Bool.and_true, if_true]
        omega
      · simp only [hpassed, decide_false, Bool.false_and, Bool.false_eq_true, if_false]
        omega
    · -- a run that is rolled back takes nothing, and is not counted
      rw [AbstractOutboxRelay.finish_of_not_commits hcommits]
      simp

/-- An insertion adds a row with all its attempts, if it stands before the row. -/
theorem backlog_enqueue (t : Time) (db : Outbox δ κ) (newId : Uuid) (data : δ) (dueAt : Time) :
    backlog R id t (RelaySystem.enqueue db { id := newId, data := data, dueAt := dueAt }) ≤
      backlog R id t db + R.maxAttempts * (if dueAt ≤ t then 1 else 0) := by
  unfold RelaySystem.enqueue
  split
  · rename_i rows hinsert
    have hweight : backlog R id t { db with rows := rows } =
        backlog R id t db + weight R id t { id := newId, data := data, dueAt := dueAt } :=
      Table.weight_insert hinsert
    rw [hweight]
    unfold weight
    by_cases hbefore : dueAt ≤ t
    · rw [if_pos hbefore, Nat.mul_one]
      split <;> omega
    · simp [hbefore]
  · exact Nat.le_add_right _ _

/-- **One step**: what overtakes is paid from the backlog, which insertions refill. -/
theorem Standing.pay (hR : R.Patient) {r : OutboxRow δ} {w : Waiting δ κ ρ} (h : Standing R r w)
    (e : RelayEvent δ κ ρ τ) (htimely : Timely w.system e) :
    backlog R r.id r.dueAt (Waiting.step R r.id w e).system.db +
        R.batchSize * (if overtakes R w e then 1 else 0) ≤
      backlog R r.id r.dueAt w.system.db +
        R.maxAttempts * (if arrives r.dueAt e then 1 else 0) := by
  cases e with
  | fetch now held => exact Nat.le_refl _
  | finish i p => exact (h.pay_finish hR i htimely).trans (Nat.le_add_right _ _)
  | enqueue id data dueAt =>
    simpa [Waiting.step, RelaySystem.step, overtakes, arrives] using
      backlog_enqueue r.dueAt w.system.db id data dueAt
  | rejoin joined => exact Nat.le_refl _

/-- Conditions on the runs of the relay. -/
theorem meets_system {ok : RelaySystem δ κ ρ → RelayEvent δ κ ρ τ → Prop} {w : Waiting δ κ ρ}
    {es : List (RelayEvent δ κ ρ τ)} :
    Runs.Meets (step R id) (fun w e => ok w.system e) w es ↔
      Runs.Meets (RelaySystem.step R) ok w.system es := by
  induction es generalizing w with
  | nil => exact Iff.rfl
  | cons e es ih => exact and_congr Iff.rfl ih

/-- **No row waits for ever.**  In any run of any number of processes, as long as a row is not
fetched, the runs that begin when it is due and not held, do not take it and commit are no more
than pay for the attempts left to the rows that stand before it, those that are inserted meanwhile
included; each such run takes a full batch of them. -/
theorem not_starved (hR : R.Patient) (db : Outbox δ κ) (gs es : List (RelayEvent δ κ ρ τ))
    {r : OutboxRow δ}
    (hr : r ∈ (Runs.run (RelaySystem.step R) (RelaySystem.initial db) gs).db.rows.rows)
    (hfree : (Runs.run (RelaySystem.step R) (RelaySystem.initial db) gs).locked r.id = false)
    (htimely : Runs.Meets (RelaySystem.step R) Timely
      (Runs.run (RelaySystem.step R) (RelaySystem.initial db) gs) es)
    (hwaits : Runs.Meets (RelaySystem.step R) (Unfetched R r.id)
      (Runs.run (RelaySystem.step R) (RelaySystem.initial db) gs) es) :
    R.batchSize * overtaken R r.id
        (start (Runs.run (RelaySystem.step R) (RelaySystem.initial db) gs)) es ≤
      backlog R r.id r.dueAt (Runs.run (RelaySystem.step R) (RelaySystem.initial db) gs).db +
        R.maxAttempts * es.countP (arrives r.dueAt) := by
  have hinitial : AllFresh R (RelaySystem.initial db : RelaySystem δ κ ρ) :=
    ⟨RelaySystem.Locked.initial db, fun i batch hi => by cases hi⟩
  have hstep : ∀ (s : RelaySystem δ κ ρ) (e : RelayEvent δ κ ρ τ), AllFresh R s →
      AllFresh R (s.step R e) := fun s e hs => hs.step e
  have hfresh := Runs.run_invariant hstep hinitial gs
  revert hr hfree htimely hwaits hfresh
  generalize Runs.run (RelaySystem.step R) (RelaySystem.initial db) gs = s
  intro hr hfree htimely hwaits hfresh
  have hok : Runs.Meets (step R r.id) (fun w e => Timely w.system e ∧ Unfetched R r.id w.system e)
      (start s) es :=
    Runs.meets_and.2 ⟨meets_system.2 htimely, meets_system.2 hwaits⟩
  have hpay : ∀ (w : Waiting δ κ ρ) (e : RelayEvent δ κ ρ τ), Standing R r w →
      Timely w.system e ∧ Unfetched R r.id w.system e →
      backlog R r.id r.dueAt (step R r.id w e).system.db +
          R.batchSize * (if overtakes R w e then 1 else 0) ≤
        backlog R r.id r.dueAt w.system.db +
          R.maxAttempts * (if arrives r.dueAt e then 1 else 0) :=
    fun w e hw hok => hw.pay hR e hok.1
  have hpaid := @Runs.potential_add_total_le _ _ (step R r.id) (Standing R r)
    (fun w e => Timely w.system e ∧ Unfetched R r.id w.system e)
    (fun w => backlog R r.id r.dueAt w.system.db)
    (fun w e => R.batchSize * (if overtakes R w e then 1 else 0))
    (fun _ e => R.maxAttempts * (if arrives r.dueAt e then 1 else 0))
    (fun w e hw hok => hw.step e hok.2) hpay (start s) es (standing_start hfresh hr hfree) hok
  rw [Runs.total_mul, Runs.total_mul, Runs.total_count] at hpaid
  exact (Nat.le_add_left _ _).trans hpaid

end Waiting

namespace Waiting.Sample

/-- The e-mail relay with batches of one row. -/
def relay : AbstractOutboxRelay EmailData Unit EmailData :=
  { EmailRelayService.relay with batchSize := 1 }

/-- An e-mail. -/
def email (id : Uuid) (dueAt : Time) : OutboxRow EmailData where
  id := id
  data := ⟨"a@example.org", "welcome", "\x7b\x7d", none⟩
  dueAt := dueAt

/-- Two of them. -/
def db : Outbox EmailData Unit where
  rows := ⟨[email 1 3, email 2 5], by decide⟩
  joined := ()

/-- The first e-mail cannot be sent. -/
def refused : Pattern EmailData Unit where
  processRow _ := .error "mailbox unavailable"
  markSent _ := .ok ()
  markFailed _ := .ok ()
  commit := .ok ()
  markedAt _ := 11

/-- A run that takes the first e-mail only. -/
def events : List (RelayEvent EmailData Unit EmailData Unit) :=
  [.fetch 10 fun _ => false, .finish 0 refused]

/-- The second e-mail waits for the first one, which has five attempts. -/
theorem not_starved_second :
    overtaken relay 2 (start (RelaySystem.initial db)) events = 1 ∧
      1 * overtaken relay 2 (start (RelaySystem.initial db)) events ≤
        backlog relay 2 5 db + 5 * events.countP (arrives 5) :=
  ⟨by decide, @not_starved _ _ _ _ relay (fun _ _ _ _ => Nat.le_refl _) db [] events (email 2 5)
    (List.mem_cons_of_mem _ List.mem_cons_self) (by decide) (by decide) (by decide)⟩

end Waiting.Sample

end OpsHub
