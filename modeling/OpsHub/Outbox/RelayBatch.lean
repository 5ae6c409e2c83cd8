import OpsHub.Outbox.AbstractOutboxRelay

/-!
# What a relay does to a batch

A `Pattern` says for each row of a batch what `processRow` returns or throws, and which of the
statements that mark the row throw.  In a pattern a run has a closed form:

* `processedRows`: the rows handed to `processRow`, all of the batch unless a run is given up
  because `markFailed` has thrown (`aborts`);
* `markRow`: how a row is marked, `find_marked` the batch as a whole;
* `relayBatch_committed`, `relayBatch_aborted`: the loop;
* `finish_of_commits`, `finish_of_not_commits`: a whole run, which takes effect as a whole or
  not at all.
-/

namespace OpsHub

/-- What happens to the rows of a batch, and whether the transaction can commit. -/
structure Pattern (ρ τ : Type) where
  processRow : FetchedRow ρ → Except String (Option τ)
  markSent : Uuid → Except String Unit
  markFailed : Uuid → Except String Unit
  commit : Except String Unit
  markedAt : Uuid → Time

namespace Pattern

variable {ρ τ : Type} (p : Pattern ρ τ)

/-- The environment that records the rows handed to `processRow`. -/
def env : Environment ρ (List (FetchedRow ρ)) τ where
  processRow row processed := (processed ++ [row], p.processRow row)
  markSent := p.markSent
  markFailed := p.markFailed
  commit := p.commit
  markedAt := p.markedAt

/-- The two steps that may fail: processing a row and marking it as sent. -/
def attempt (row : FetchedRow ρ) : Except String (Option τ) := do
  let task ← p.processRow row
  p.markSent row.id
  pure task

/-- The post-commit tasks of a row. -/
def tasks (row : FetchedRow ρ) : List τ :=
  match p.attempt row with
  | .ok task => task.toList
  | .error _ => []

/-- A row that makes the whole run fail. -/
def aborts (row : FetchedRow ρ) : Bool :=
  match p.attempt row, p.markFailed row.id with
  | .error _, .error _ => true
  | _, _ => false

/-- The pattern with other outcomes of `processRow`. -/
def withProcessRow (f : FetchedRow ρ → Except String (Option τ)) : Pattern ρ τ :=
  { p with processRow := f }

/-- The rows handed to `processRow`. -/
def processedRows : List (FetchedRow ρ) → List (FetchedRow ρ)
  | [] => []
  | row :: batch => if p.aborts row then [row] else row :: processedRows batch

theorem processedRows_of_not_aborts {batch : List (FetchedRow ρ)}
    (h : ∀ row ∈ batch, p.aborts row = false) : p.processedRows batch = batch := by
  induction batch with
  | nil => rfl
  | cons row batch ih =>
    have hrow : p.aborts row = false := h row List.mem_cons_self
    have hrest : p.processedRows batch = batch := ih fun x hx => h x (List.mem_cons_of_mem _ hx)
    simp [processedRows, hrow, hrest]

theorem processedRows_congr {p' : Pattern ρ τ} (h : ∀ row, p'.aborts row = p.aborts row)
    (batch : List (FetchedRow ρ)) : p'.processedRows batch = p.processedRows batch := by
  induction batch with
  | nil => rfl
  | cons row batch ih => simp only [processedRows, h row, ih]

theorem mem_of_mem_processedRows {batch : List (FetchedRow ρ)} {row : FetchedRow ρ}
    (h : row ∈ p.processedRows batch) : row ∈ batch := by
  induction batch with
  | nil => exact h
  | cons x batch ih =>
    unfold processedRows at h
    split at h
    · rw [List.mem_singleton] at h
      exact h ▸ List.mem_cons_self
    · rcases List.mem_cons.1 h with rfl | h
      · exact List.mem_cons_self
      · exact List.mem_cons_of_mem _ (ih h)

end Pattern

namespace AbstractOutboxRelay

variable {δ κ ρ τ : Type} (R : AbstractOutboxRelay δ κ ρ) (p : Pattern ρ τ)

/-- What is written into a fetched row. -/
def markedRow (row : FetchedRow ρ) (r : OutboxRow δ) : OutboxRow δ :=
  match p.attempt row with
  | .ok _ => R.sentRow (p.markedAt row.id) r
  | .error errMsg =>
    R.failedRow (p.markedAt row.id) (row.attempts + 1)
      (decide (R.maxAttempts ≤ row.attempts + 1)) errMsg r

/-- Marking a row does not change its id. -/
theorem markedRow_id (row : FetchedRow ρ) (r : OutboxRow δ) : (R.markedRow p row r).id = r.id := by
  unfold markedRow
  split <;> rfl

/-- How a fetched row is marked. -/
def markRow (db : Outbox δ κ) (row : FetchedRow ρ) : Outbox δ κ :=
  { db with rows := db.rows.update row.id (R.markedRow p row) (R.markedRow_id p row) }

/-! ### The loop in a pattern -/

variable {R p}

theorem markRow_of_ok {row : FetchedRow ρ} {task : Option τ} (h : p.attempt row = .ok task)
    (db : Outbox δ κ) : R.markRow p db row = R.markSent (p.markedAt row.id) row.id db := by
  have hrow : R.markedRow p row = R.sentRow (p.markedAt row.id) := by
    funext r
    simp only [markedRow, h]
  simp only [markRow, markSent, hrow]

theorem markRow_of_error {row : FetchedRow ρ} {errMsg : String}
    (h : p.attempt row = .error errMsg) (db : Outbox δ κ) :
    R.markRow p db row = R.markFailed (p.markedAt row.id) row.id (row.attempts + 1)
      (decide (R.maxAttempts ≤ row.attempts + 1)) errMsg db := by
  have hrow : R.markedRow p row = R.failedRow (p.markedAt row.id) (row.attempts + 1)
      (decide (R.maxAttempts ≤ row.attempts + 1)) errMsg := by
    funext r
    simp only [markedRow, h]
  simp only [markRow, markFailed, hrow]

/-- A row whose two steps succeed. -/
theorem relayRow_of_ok {row : FetchedRow ρ} {task : Option τ} (h : p.attempt row = .ok task)
    (processed : List (FetchedRow ρ)) (tx : Outbox δ κ × List τ) :
    R.relayRow p.env row processed tx =
      (processed ++ [row], .ok (R.markRow p tx.1 row, tx.2 ++ task.toList)) := by
  rw [markRow_of_ok h]
  simp only [Pattern.attempt, Except.bind_eq_ok_iff, Except.pure_eq_ok_iff] at h
  obtain ⟨task', hprocess, u, hsent, rfl⟩ := h
  simp [relayRow, Pattern.env, hprocess, hsent, bind, Except.bind, pure, Except.pure]

/-- A row one of whose two steps fails. -/
theorem relayRow_of_error {row : FetchedRow ρ} {errMsg : String}
    (h : p.attempt row = .error errMsg) (processed : List (FetchedRow ρ))
    (tx : Outbox δ κ × List τ) :
    R.relayRow p.env row processed tx =
      (processed ++ [row], (p.markFailed row.id).map fun _ => (R.markRow p tx.1 row, tx.2)) := by
  rw [markRow_of_error h]
  cases hprocess : p.processRow row with
  | error e =>
    obtain rfl : e = errMsg := by simpa [Pattern.attempt, hprocess, bind, Except.bind] using h
    simp only [relayRow, Pattern.env, hprocess, bind, Except.bind, pure, Except.pure, Except.map]
  | ok task =>
    cases hsent : p.markSent row.id with
    | ok u => simp [Pattern.attempt, hprocess, hsent, bind, Except.bind, pure, Except.pure] at h
    | error e =>
      obtain rfl : e = errMsg := by
        simpa [Pattern.attempt, hprocess, hsent, bind, Except.bind] using h
      simp only [relayRow, Pattern.env, hprocess, hsent, bind, Except.bind, pure, Except.pure,
        Except.map]

theorem relayRow_of_not_aborts {row : FetchedRow ρ} (processed : List (FetchedRow ρ))
    (tx : Outbox δ κ × List τ) (h : p.aborts row = false) :
    R.relayRow p.env row processed tx =
      (processed ++ [row], .ok (R.markRow p tx.1 row, tx.2 ++ p.tasks row)) := by
  cases hattempt : p.attempt row with
  | ok task =>
    rw [relayRow_of_ok hattempt]
    simp only [Pattern.tasks, hattempt]
  | error errMsg =>
    rw [relayRow_of_error hattempt]
    cases hfailed : p.markFailed row.id with
    | ok u => simp [Pattern.tasks, hattempt, Except.map]
    | error e => simp [Pattern.aborts, hattempt, hfailed] at h

theorem relayRow_of_aborts {row : FetchedRow ρ} (processed : List (FetchedRow ρ))
    (tx : Outbox δ κ × List τ) (h : p.aborts row = true) :
    ∃ e, R.relayRow p.env row processed tx = (processed ++ [row], .error e) := by
  cases hattempt : p.attempt row with
  | ok task => simp [Pattern.aborts, hattempt] at h
  | error errMsg =>
    cases hfailed : p.markFailed row.id with
    | ok u => simp [Pattern.aborts, hattempt, hfailed] at h
    | error e =>
      refine ⟨e, ?_⟩
      rw [relayRow_of_error hattempt, hfailed]
      rfl

/-- The loop when every row can be marked. -/
theorem relayBatch_committed {batch : List (FetchedRow ρ)}
    (h : ∀ row ∈ batch, p.aborts row = false) (processed : List (FetchedRow ρ))
    (tx : Outbox δ κ × List τ) :
    R.relayBatch p.env batch processed tx =
      (processed ++ batch, .ok (batch.foldl (R.markRow p) tx.1, tx.2 ++ batch.flatMap p.tasks)) := by
  induction batch generalizing processed tx with
  | nil => simp [relayBatch]
  | cons row batch ih =>
    rw [relayBatch, relayRow_of_not_aborts processed tx (h row List.mem_cons_self)]
    simp only
    rw [ih fun x hx => h x (List.mem_cons_of_mem _ hx)]
    simp

/-- The loop when a row cannot be marked. -/
theorem relayBatch_aborted {batch : List (FetchedRow ρ)} (h : ∃ row ∈ batch, p.aborts row = true)
    (processed : List (FetchedRow ρ)) (tx : Outbox δ κ × List τ) :
    ∃ e, R.relayBatch p.env batch processed tx =
      (processed ++ p.processedRows batch, .error e) := by
  induction batch generalizing processed tx with
  | nil => simp at h
  | cons row batch ih =>
    by_cases hrow : p.aborts row = true
    · obtain ⟨e, he⟩ := relayRow_of_aborts (R := R) processed tx hrow
      refine ⟨e, ?_⟩
      rw [relayBatch, he]
      simp [Pattern.processedRows, hrow]
    · have hrest : ∃ x ∈ batch, p.aborts x = true := by
        obtain ⟨x, hx, hxa⟩ := h
        rcases List.mem_cons.1 hx with rfl | hx
        · exact absurd hxa hrow
        · exact ⟨x, hx, hxa⟩
      have hrow' : p.aborts row = false := Bool.eq_false_iff.2 hrow
      obtain ⟨e, he⟩ := ih hrest (processed ++ [row]) (R.markRow p tx.1 row, tx.2 ++ p.tasks row)
      refine ⟨e, ?_⟩
      rw [relayBatch, relayRow_of_not_aborts processed tx hrow']
      simp only
      rw [he]
      simp [Pattern.processedRows, hrow']

/-! ### Whole runs -/

variable {batch : List (FetchedRow ρ)} {processed : List (FetchedRow ρ)} {db : Outbox δ κ}

/-- No row of the batch makes the run fail, and the transaction commits. -/
def Commits (p : Pattern ρ τ) (batch : List (FetchedRow ρ)) : Prop :=
  (∀ row ∈ batch, p.aborts row = false) ∧ p.commit = .ok ()

/-- A run that commits. -/
theorem finish_of_commits (h : Commits p batch) :
    R.finish p.env batch processed db =
      ⟨batch.foldl (R.markRow p) db, processed ++ batch, true, batch.flatMap p.tasks⟩ := by
  have hcommit : p.env.commit = .ok () := h.2
  simp only [finish, relayBatch_committed h.1, hcommit, List.nil_append]

/-- A run that does not commit. -/
theorem finish_of_not_commits (h : ¬ Commits p batch) :
    R.finish p.env batch processed db = ⟨db, processed ++ p.processedRows batch, false, []⟩ := by
  by_cases hmarks : ∀ row ∈ batch, p.aborts row = false
  · have hcommit : ∃ e, p.env.commit = .error e := by
      cases hcommit : p.commit with
      | ok u => exact absurd ⟨hmarks, hcommit⟩ h
      | error e => exact ⟨e, hcommit⟩
    obtain ⟨e, he⟩ := hcommit
    simp only [finish, relayBatch_committed hmarks, he, p.processedRows_of_not_aborts hmarks]
  · have haborts : ∃ row ∈ batch, p.aborts row = true := by
      push Not at hmarks
      obtain ⟨row, hrow, habort⟩ := hmarks
      exact ⟨row, hrow, by simpa using habort⟩
    obtain ⟨e, he⟩ := relayBatch_aborted (R := R) haborts processed (db, [])
    simp only [finish, he]

/-- A run commits exactly when every row can be marked and the transaction can commit. -/
theorem finish_committed_iff :
    (R.finish p.env batch processed db).committed = true ↔ Commits p batch := by
  by_cases h : Commits p batch
  · simp [finish_of_commits h, h]
  · simp [finish_of_not_commits h, h]

/-- The rows handed to `processRow`. -/
theorem finish_world :
    (R.finish p.env batch processed db).world = processed ++ p.processedRows batch := by
  by_cases h : Commits p batch
  · rw [finish_of_commits h, p.processedRows_of_not_aborts h.1]
  · rw [finish_of_not_commits h]

/-! ### The rows after a run -/

/-- A row that is not in the batch stays as it is. -/
theorem find_foldl_of_notMem {id : Uuid} (h : ∀ row ∈ batch, row.id ≠ id) :
    (batch.foldl (R.markRow p) db).rows.find id = db.rows.find id := by
  induction batch generalizing db with
  | nil => rfl
  | cons row batch ih =>
    rw [List.foldl_cons, ih fun x hx => h x (List.mem_cons_of_mem _ hx)]
    exact Table.find_update_ne _ (h row List.mem_cons_self).symm _ (R.markedRow_id p row)

/-- A row of the batch is marked once. -/
theorem find_foldl_of_mem (hnodup : (batch.map FetchedRow.id).Nodup) {row : FetchedRow ρ}
    (h : row ∈ batch) :
    (batch.foldl (R.markRow p) db).rows.find row.id =
      (db.rows.find row.id).map (R.markedRow p row) := by
  induction batch generalizing db with
  | nil => cases h
  | cons x batch ih =>
    rw [List.map_cons, List.nodup_cons] at hnodup
    rw [List.foldl_cons]
    rcases List.mem_cons.1 h with rfl | hmem
    · have hrest : ∀ y ∈ batch, y.id ≠ row.id := fun y hy hid =>
        hnodup.1 (hid ▸ List.mem_map.2 ⟨y, hy, rfl⟩)
      rw [find_foldl_of_notMem hrest]
      exact Table.find_update_self _ _ _ (R.markedRow_id p row)
    · have hne : row.id ≠ x.id := fun hid => hnodup.1 (hid ▸ List.mem_map.2 ⟨row, hmem, rfl⟩)
      rw [ih hnodup.2 hmem]
      congr 1
      exact Table.find_update_ne _ hne _ (R.markedRow_id p x)

/-- A row is marked as sent, with its attempts as they were, or it has one attempt more; the
attempts used up and the final status go together. -/
theorem markedRow_spec {row : FetchedRow ρ} {r : OutboxRow δ} (hattempts : row.attempts = r.attempts)
    (hlt : r.attempts < R.maxAttempts) :
    ((R.markedRow p row r).status = R.sentStatus ∧ (R.markedRow p row r).attempts = r.attempts ∨
      (R.markedRow p row r).status ≠ R.sentStatus ∧
        (R.markedRow p row r).attempts = r.attempts + 1) ∧
    ((R.markedRow p row r).status = R.failedStatus ↔
      (R.markedRow p row r).attempts = R.maxAttempts) := by
  unfold markedRow
  split
  · refine ⟨Or.inl ⟨rfl, rfl⟩, ⟨fun h => absurd h R.sent_ne_failed, fun h => ?_⟩⟩
    exact absurd h (Nat.ne_of_lt hlt)
  · simp only [failedRow, hattempts]
    by_cases hmax : R.maxAttempts ≤ r.attempts + 1
    · have hreached : r.attempts + 1 = R.maxAttempts := by omega
      rw [decide_eq_true hmax, if_pos rfl]
      exact ⟨Or.inr ⟨R.sent_ne_failed.symm, trivial⟩, iff_of_true rfl hreached⟩
    · have hbelow : r.attempts + 1 ≠ R.maxAttempts := by omega
      rw [decide_eq_false hmax, if_neg Bool.false_ne_true]
      exact ⟨Or.inr ⟨R.sent_ne_pending.symm, trivial⟩, iff_of_false R.failed_ne_pending.symm hbelow⟩

end AbstractOutboxRelay

end OpsHub
