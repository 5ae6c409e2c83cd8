import OpsHub.Audit.AuditLogs
import OpsHub.Domain.Ownership

/-!
# The life of timesheets

`WorkforceService.submitTimesheet` and `reviewTimesheet`, each of which tests a copy of the row and
updates the row by its id in a later statement; a review writes its audit entry after that.

* `TimesheetCall`, `step`: the statements of any calls in any order; a call may end at any of them;
* `Columns`: approver and time of submission go with the status;
* `Accounted`: approvers have been let through by the guard, what a timesheet says about the work
  stays as it was created, and every audit entry tells of a status that was committed;
* `timesheets_accounted`: so it is in every run;
* `always_approved_iff`: an approval is final exactly if no call with another outcome writes to a
  timesheet that has been approved since the call has read it.
-/

namespace OpsHub

namespace WorkforceService

/-! ### The calls -/

/-- `submitTimesheet`, up to its update, with the copy that it has tested. -/
def submitCheck (timesheets : Table Timesheet.id) (id : Uuid) : Except Failure Timesheet := do
  let t ← getTimesheet timesheets id
  Outcome.require (t.status = .draft ∨ t.status = .rejected)
    (.preconditionFailed "TIMESHEET_NOT_EDITABLE"
      "Only draft or rejected timesheets can be submitted")
  pure t

/-- `reviewTimesheet`, up to its update, with the copy that it has tested. -/
def timesheetReviewCheck (timesheets : Table Timesheet.id) (id : Uuid) :
    Except Failure Timesheet := do
  let t ← getTimesheet timesheets id
  Outcome.require (t.status = .submitted)
    (.preconditionFailed "TIMESHEET_NOT_EDITABLE" "Only submitted timesheets can be reviewed")
  pure t

/-- The guard of `submitTimesheet`. -/
theorem submitCheck_eq_ok_iff {timesheets : Table Timesheet.id} {id : Uuid} {t : Timesheet} :
    submitCheck timesheets id = .ok t ↔
      timesheets.find id = some t ∧ (t.status = .draft ∨ t.status = .rejected) :=
  Outcome.orThrow_require_eq_ok_iff

/-- The guard of `reviewTimesheet`. -/
theorem timesheetReviewCheck_eq_ok_iff {timesheets : Table Timesheet.id} {id : Uuid}
    {t : Timesheet} :
    timesheetReviewCheck timesheets id = .ok t ↔
      timesheets.find id = some t ∧ t.status = .submitted :=
  Outcome.orThrow_require_eq_ok_iff

/-- Without anything in between, the check and the update are the whole call. -/
theorem submitTimesheet_eq (id : Uuid) (now : Time) (timesheets : Table Timesheet.id) :
    submitTimesheet id now timesheets =
      (submitCheck timesheets id).map fun _ =>
        setTimesheetStatus id .submitted none now timesheets :=
  Except.bind_bind_pure

theorem reviewTimesheet_eq (id : Uuid) (approve : Bool) (actor : Actor) (now : Time)
    (timesheets : Table Timesheet.id) :
    reviewTimesheet id approve actor now timesheets =
      (timesheetReviewCheck timesheets id).map fun _ =>
        setTimesheetStatus id (if approve then .approved else .rejected)
          (if approve then some actor.sub else none) now timesheets :=
  Except.bind_bind_pure

/-- The audit entry of `reviewTimesheet`. -/
def reviewEntry (id : Uuid) (approve : Bool) (actor : Actor) : CreateAuditLogInput ℕ where
  actorId := some actor.sub
  actorEmail := some actor.email
  action := if approve then "timesheet.approved" else "timesheet.rejected"
  resourceType := "timesheet"
  resourceId := some (toString id)

/-- A call that has passed its check, with the copy that it has tested; a review writes twice. -/
inductive TimesheetCall
  | submit (id : Uuid) (t : Timesheet)
  | review (id : Uuid) (approve : Bool) (actor : Actor) (t : Timesheet)
  | reviewed (id : Uuid) (approve : Bool) (actor : Actor)
  deriving DecidableEq, Repr

/-- The arguments of `setTimesheetStatus`. -/
structure TimesheetUpdate where
  id : Uuid
  status : TimesheetStatus
  approvedBy : Option Uuid
  deriving DecidableEq, Repr

/-- The update that a call makes next. -/
def TimesheetCall.update : TimesheetCall → Option TimesheetUpdate
  | .submit id _ => some ⟨id, .submitted, none⟩
  | .review id approve actor _ =>
    some ⟨id, if approve then .approved else .rejected, if approve then some actor.sub else none⟩
  | .reviewed _ _ _ => none

/-- What a call does after its update. -/
def TimesheetCall.next : TimesheetCall → Option TimesheetCall
  | .review id approve actor _ => some (.reviewed id approve actor)
  | _ => none

/-- The copy that a call has tested. -/
def TimesheetCall.read : TimesheetCall → Option Timesheet
  | .submit _ t => some t
  | .review _ _ _ t => some t
  | .reviewed _ _ _ => none

/-- What a call has read when it passed its check: its timesheet, which was not approved. -/
def TimesheetCall.Guarded (call : TimesheetCall) : Prop :=
  ∀ u, call.update = some u → ∃ t, call.read = some t ∧ t.id = u.id ∧ t.status ≠ .approved

/-! ### The machine -/

/-- The timesheets, the audit log, and the calls in flight. -/
structure TimesheetState where
  timesheets : Table Timesheet.id := Table.empty _
  log : AuditLogs ℕ := Table.empty _
  calls : List (Option TimesheetCall) := []

/-- A statement of a call; `view` is what `PolicyGuard` learns. -/
inductive TimesheetEvent
  | create (input : CreateTimesheetInput) (actor : Actor) (now : Time) (newId : Uuid)
  | submit (id : Uuid)
  | review (id : Uuid) (approve : Bool) (actor : Actor) (view : AuthzView)
  | write (i : ℕ) (now : Time)
  | record (i : ℕ) (now : Time) (newId : Uuid) (ok : Bool)
  /-- A call ends with a failure. -/
  | fail (i : ℕ)

namespace TimesheetState

/-- A call goes on when its checks have passed. -/
def begin (s : TimesheetState) (checks : Except Failure Timesheet)
    (call : Timesheet → TimesheetCall) : TimesheetState :=
  { s with calls := s.calls ++ [checks.toOption.map call] }

/-- The update of a call. -/
def write (s : TimesheetState) (i : ℕ) (now : Time) : TimesheetState :=
  match Pool.running s.calls i with
  | some call =>
    match call.update with
    | some u =>
      { s with
        timesheets := setTimesheetStatus u.id u.status u.approvedBy now s.timesheets
        calls := s.calls.set i call.next }
    | none => s
  | none => s

/-- The audit entry of a review. -/
def record (s : TimesheetState) (i : ℕ) (now : Time) (newId : Uuid) (ok : Bool) : TimesheetState :=
  match Pool.running s.calls i with
  | some (.reviewed id approve actor) =>
    { s with
      log := AuditService.record (reviewEntry id approve actor) now newId ok s.log
      calls := s.calls.set i none }
  | _ => s

/-- The state after a statement. -/
def step (s : TimesheetState) : TimesheetEvent → TimesheetState
  | .create input actor now newId =>
    { s with
      timesheets := Outcome.commit s.timesheets
        (createTimesheet input actor now newId s.timesheets) }
  | .submit id => s.begin (submitCheck s.timesheets id) (.submit id)
  | .review id approve actor view =>
    s.begin
      (do
        PolicyGuard.canActivate view (some "workforce.approve") actor
        timesheetReviewCheck s.timesheets id)
      (.review id approve actor)
  | .write i now => s.write i now
  | .record i now newId ok => s.record i now newId ok
  | .fail i => { s with calls := s.calls.set i none }

/-! ### The properties -/

/-- Approver and time of submission go with the status. -/
def Columns (s : TimesheetState) : Prop :=
  ∀ t ∈ s.timesheets.rows, (t.approvedBy ≠ none ↔ t.status = .approved) ∧
    (t.submittedAt = none ↔ t.status = .draft)

/-- What a timesheet says about the work. -/
def content (t : Timesheet) : Uuid × Uuid × Date × ℕ × Option String :=
  (t.id, t.employeeId, t.workDate, t.minutesWorked, t.note)

/-- A decision is there. -/
def Shows (s : TimesheetState) (id : Uuid) (approve : Bool) (actor : Actor) : Prop :=
  ∃ t ∈ s.timesheets.rows, t.id = id ∧ t.status = (if approve then .approved else .rejected) ∧
    t.approvedBy = if approve then some actor.sub else none

variable {s s' s'' : TimesheetState} {e : TimesheetEvent} {es : List TimesheetEvent}
  {t : Timesheet}

/-! ### What a statement does -/

/-- The row that `createTimesheet` inserts. -/
def newTimesheet (input : CreateTimesheetInput) (actor : Actor) (now : Time) (newId : Uuid) :
    Timesheet where
  id := newId
  employeeId := actor.sub
  workDate := input.workDate
  minutesWorked := input.minutesWorked
  note := input.note
  updatedAt := now

/-- **What a statement does to the timesheets**: nothing, an insertion, or the update of a call. -/
theorem step_cases (s : TimesheetState) (e : TimesheetEvent) :
    ((s.step e).timesheets = s.timesheets ∧ ∀ i now, e = .write i now →
        ∀ call u, Pool.running s.calls i = some call → call.update ≠ some u) ∨
      (∃ input actor now newId, e = .create input actor now newId ∧
        s.timesheets.insert (newTimesheet input actor now newId) = some (s.step e).timesheets) ∨
      ∃ i now call u, e = .write i now ∧ Pool.running s.calls i = some call ∧
        call.update = some u ∧ (s.step e).calls = s.calls.set i call.next ∧
        (s.step e).timesheets = setTimesheetStatus u.id u.status u.approvedBy now s.timesheets := by
  cases e with
  | create input actor now newId =>
    simp only [step, createTimesheet]
    cases hins : s.timesheets.insert (newTimesheet input actor now newId) with
    | none => exact Or.inl ⟨by rw [newTimesheet] at hins; rw [hins]; rfl, by simp⟩
    | some timesheets =>
      refine Or.inr (Or.inl ⟨input, actor, now, newId, rfl, ?_⟩)
      rw [hins]
      rw [newTimesheet] at hins
      rw [hins]
      rfl
  | submit id => exact Or.inl ⟨rfl, by simp⟩
  | review id approve actor view => exact Or.inl ⟨rfl, by simp⟩
  | write i now =>
    simp only [step, write]
    cases hrun : Pool.running s.calls i with
    | none =>
      refine Or.inl ⟨rfl, ?_⟩
      rintro j now' heq call u hcall
      cases heq
      rw [hrun] at hcall
      cases hcall
    | some call =>
      cases hu : call.update with
      | none =>
        refine Or.inl ⟨by simp only [hu], ?_⟩
        rintro j now' heq call' u hcall
        cases heq
        obtain rfl : call = call' := Option.some.inj (hrun.symm.trans hcall)
        rw [hu]
        exact (Option.some_ne_none u).symm
      | some u =>
        refine Or.inr (Or.inr ⟨i, now, call, u, rfl, hrun, hu, ?_, ?_⟩)
        · simp only [hu]
        · simp only [hu]
  | record i now newId ok =>
    refine Or.inl ⟨?_, by simp⟩
    simp only [step, record]
    split <;> rfl
  | fail i => exact Or.inl ⟨rfl, by simp⟩

/-- What the guard and the check have let through. -/
def LetThrough (es : List TimesheetEvent) (id : Uuid) (approve : Bool) (actor : Actor) : Prop :=
  ∃ view, .review id approve actor view ∈ es ∧ view.check actor.sub "workforce.approve" = true

/-- A call in flight has been let through, and what it reviews has been submitted. -/
def CallKept (es : List TimesheetEvent) (s : TimesheetState) : TimesheetCall → Prop
  | .submit _ _ => True
  | .review id approve actor _ => LetThrough es id approve actor ∧
      ∃ t ∈ s.timesheets.rows, t.id = id ∧ t.status ≠ .draft
  | .reviewed _ _ _ => True

/-- The invariant; the statements of the run are among `es`. -/
structure Kept (es : List TimesheetEvent) (s : TimesheetState) : Prop where
  columns : Columns s
  calls : ∀ call, some call ∈ s.calls → CallKept es s call
  approvers : ∀ t ∈ s.timesheets.rows, ∀ user ∈ t.approvedBy,
    ∃ email, LetThrough es t.id true ⟨user, email⟩

/-- What is no draft any more never is one again. -/
theorem status_update_ne_draft {call : TimesheetCall} {u : TimesheetUpdate}
    (h : call.update = some u) : u.status ≠ .draft ∧ (u.approvedBy ≠ none ↔ u.status = .approved) := by
  cases call with
  | submit id t =>
    obtain rfl := Option.some.inj h
    simp
  | review id approve actor t =>
    obtain rfl := Option.some.inj h
    cases approve <;> simp
  | reviewed id approve actor => cases h

section Updates

variable {id : Uuid} {status : TimesheetStatus} {approvedBy : Option Uuid} {now : Time}
  {timesheets : Table Timesheet.id} {t : Timesheet}

/-- A row after an update. -/
theorem mem_setTimesheetStatus
    (h : t ∈ (setTimesheetStatus id status approvedBy now timesheets).rows) :
    (∃ old ∈ timesheets.rows, old.id = id ∧ t.id = id ∧ t.status = status ∧
      t.approvedBy = (if status = .approved then approvedBy else none) ∧
      t.submittedAt = if status = .submitted then some now else old.submittedAt) ∨
        t ∈ timesheets.rows ∧ t.id ≠ id := by
  rcases Table.mem_update h with ⟨old, hold, rfl⟩ | h
  · have hid := Table.key_of_find hold
    exact Or.inl ⟨old, Table.mem_of_find hold, hid, hid, rfl, rfl, rfl⟩
  · exact Or.inr h

/-- What becomes of a row in an update. -/
theorem exists_setTimesheetStatus (id : Uuid) (status : TimesheetStatus) (now : ℕ)
    (approvedBy : Option Uuid) (h : t ∈ timesheets.rows) :
    ∃ t' ∈ (setTimesheetStatus id status approvedBy now timesheets).rows, content t' = content t ∧
      (if t.id = id then t'.status = status ∧
        t'.approvedBy = (if status = .approved then approvedBy else none) else t' = t) := by
  refine ⟨_, Table.mem_update_of_mem h, ?_⟩
  by_cases hid : t.id = id
  · simp [hid, content]
  · simp [hid]

end Updates

/-- Rows stay, and keep what they say; a status that is not a draft stays one. -/
theorem exists_step (h : t ∈ s.timesheets.rows) (e : TimesheetEvent) :
    ∃ t' ∈ (s.step e).timesheets.rows, content t' = content t ∧
      (t.status ≠ .draft → t'.status ≠ .draft) := by
  rcases step_cases s e with ⟨heq, -⟩ | ⟨input, actor, now, newId, -, hins⟩ |
    ⟨i, now, call, u, -, -, hu, -, heq⟩
  · exact ⟨t, heq ▸ h, rfl, id⟩
  · exact ⟨t, (Table.mem_insert hins).2 (Or.inl h), rfl, id⟩
  · obtain ⟨t', ht', hcontent, hstatus⟩ := exists_setTimesheetStatus u.id u.status now
      u.approvedBy h
    refine ⟨t', heq ▸ ht', hcontent, fun hdraft => ?_⟩
    split at hstatus
    · rw [hstatus.1]
      exact (status_update_ne_draft hu).1
    · rwa [hstatus]

/-- A call in flight was there before, has just been let through, or has just made its update. -/
theorem mem_calls_step {call : TimesheetCall} (h : some call ∈ (s.step e).calls) :
    some call ∈ s.calls ∨
      (∃ id t, call = .submit id t ∧ t.id = id ∧ (t.status = .draft ∨ t.status = .rejected)) ∨
      (∃ id approve actor view t, call = .review id approve actor t ∧
        e = .review id approve actor view ∧ view.check actor.sub "workforce.approve" = true ∧
        t ∈ s.timesheets.rows ∧ t.id = id ∧ t.status = .submitted) ∨
      ∃ id approve actor t i now, call = .reviewed id approve actor ∧ e = .write i now ∧
        Pool.running s.calls i = some (.review id approve actor t) := by
  cases e with
  | create input actor now newId => exact Or.inl h
  | submit id =>
    rcases List.mem_append.1 h with h | h
    · exact Or.inl h
    · obtain ⟨t, hcheck, rfl⟩ := Option.map_eq_some_iff.1 (List.mem_singleton.1 h).symm
      obtain ⟨ht, hstatus⟩ := submitCheck_eq_ok_iff.1 (Except.toOption_eq_some_iff.1 hcheck)
      exact Or.inr (Or.inl ⟨id, t, rfl, Table.key_of_find ht, hstatus⟩)
  | review id approve actor view =>
    rcases List.mem_append.1 h with h | h
    · exact Or.inl h
    · obtain ⟨t, hchecks, rfl⟩ := Option.map_eq_some_iff.1 (List.mem_singleton.1 h).symm
      have hok := Except.toOption_eq_some_iff.1 hchecks
      simp only [PolicyGuard.canActivate, Except.bind_eq_ok_iff, Outcome.require_eq_ok_iff,
        timesheetReviewCheck_eq_ok_iff] at hok
      obtain ⟨-, hcheck, ht, hstatus⟩ := hok
      exact Or.inr (Or.inr (Or.inl ⟨id, approve, actor, view, t, rfl, rfl, hcheck,
        Table.mem_of_find ht, Table.key_of_find ht, hstatus⟩))
  | write i now =>
    simp only [step, write] at h
    split at h
    · rename_i call' hrun
      split at h
      · rcases List.mem_or_eq_of_mem_set h with h | hnext
        · exact Or.inl h
        · cases call' with
          | submit id t => cases hnext
          | review id approve actor t =>
            obtain rfl := Option.some.inj hnext
            exact Or.inr (Or.inr (Or.inr ⟨id, approve, actor, t, i, now, rfl, rfl, hrun⟩))
          | reviewed id approve actor => cases hnext
      · exact Or.inl h
    · exact Or.inl h
  | record i now newId ok =>
    simp only [step, record] at h
    split at h
    · rcases List.mem_or_eq_of_mem_set h with h | hnone
      · exact Or.inl h
      · cases hnone
    · exact Or.inl h
  | fail i =>
    rcases List.mem_or_eq_of_mem_set h with h | hnone
    · exact Or.inl h
    · cases hnone

/-- An audit entry was there before, or is that of a review that has made its update. -/
theorem mem_log_step {r : AuditLog ℕ} (h : r ∈ (s.step e).log.rows) :
    r ∈ s.log.rows ∨ ∃ id approve actor now newId, some (.reviewed id approve actor) ∈ s.calls ∧
      r = AuditDrizzleRepository.newLog (reviewEntry id approve actor) now newId := by
  cases e with
  | create input actor now newId => exact Or.inl h
  | submit id => exact Or.inl h
  | review id approve actor view => exact Or.inl h
  | write i now =>
    simp only [step, write] at h
    split at h
    · split at h <;> exact Or.inl h
    · exact Or.inl h
  | record i now newId ok =>
    simp only [step, record] at h
    split at h
    · rename_i id approve actor hrun
      rcases AuditService.mem_record h with h | rfl
      · exact Or.inl h
      · exact Or.inr ⟨id, approve, actor, now, newId, Pool.mem_of_running hrun, rfl⟩
    · exact Or.inl h
  | fail i => exact Or.inl h

/-- **The step lemma.** -/
theorem kept_step (h : Kept es s) (hmem : e ∈ es) : Kept es (s.step e) := by
  refine ⟨?_, fun call hcall => ?_, ?_⟩
  · -- the columns
    rcases step_cases s e with ⟨heq, -⟩ | ⟨input, actor, now, newId, -, hins⟩ |
      ⟨i, now, call, u, -, hrun, hu, -, heq⟩
    · unfold Columns
      rw [heq]
      exact h.columns
    · refine Table.forall_mem_insert hins h.columns ?_
      simp [newTimesheet]
    · unfold Columns
      rw [heq]
      intro t ht
      obtain ⟨hdraft, happroved⟩ := status_update_ne_draft hu
      rcases mem_setTimesheetStatus ht with ⟨old, hold, hid, -, hstatus, hby, hat⟩ | ⟨ht, -⟩
      · rw [hstatus, hby, hat]
        refine ⟨?_, iff_of_false ?_ hdraft⟩
        · by_cases hs : u.status = .approved
          · rw [if_pos hs]
            exact happroved
          · rw [if_neg hs]
            exact iff_of_false (fun hne => hne rfl) hs
        · cases call with
          | submit id t =>
            obtain rfl := Option.some.inj hu
            simp
          | review id approve actor t =>
            obtain rfl := Option.some.inj hu
            have hne : (if approve then TimesheetStatus.approved else .rejected) ≠ .submitted := by
              cases approve <;> simp
            rw [if_neg hne, (h.columns old hold).2]
            -- what is reviewed has been submitted
            obtain ⟨-, t', ht', hid', hdraft'⟩ := h.calls _ (Pool.mem_of_running hrun)
            rwa [s.timesheets.eq_of_key_eq hold ht' (hid.trans hid'.symm)]
          | reviewed id approve actor => cases hu
      · exact h.columns t ht
  · -- the calls
    have hkeep : ∀ id, (∃ t ∈ s.timesheets.rows, t.id = id ∧ t.status ≠ .draft) →
        ∃ t ∈ (s.step e).timesheets.rows, t.id = id ∧ t.status ≠ .draft := by
      rintro id ⟨t, ht, rfl, hdraft⟩
      obtain ⟨t', ht', hcontent, hstatus⟩ := exists_step ht e
      exact ⟨t', ht', congrArg Prod.fst hcontent, hstatus hdraft⟩
    rcases mem_calls_step hcall with hold | ⟨id, t, rfl, -⟩ |
      ⟨id, approve, actor, view, t, rfl, rfl, hcheck, ht, hid, hstatus⟩ |
      ⟨id, approve, actor, t, i, now, rfl, rfl, -⟩
    · have hcalls := h.calls call hold
      cases call with
      | submit id t => trivial
      | review id approve actor t => exact ⟨hcalls.1, hkeep id hcalls.2⟩
      | reviewed id approve actor => trivial
    · trivial
    · refine ⟨⟨view, hmem, hcheck⟩, hkeep id ⟨t, ht, hid, ?_⟩⟩
      rw [hstatus]
      exact TimesheetStatus.noConfusion
    · trivial
  · -- the approvers
    rcases step_cases s e with ⟨heq, -⟩ | ⟨input, actor, now, newId, -, hins⟩ |
      ⟨i, now, call, u, -, hrun, hu, -, heq⟩
    · rw [heq]
      exact h.approvers
    · refine Table.forall_mem_insert hins h.approvers ?_
      intro user huser
      cases huser
    · rw [heq]
      intro t ht user huser
      rcases mem_setTimesheetStatus ht with ⟨old, -, -, hid, -, hby, -⟩ | ⟨ht, -⟩
      · rw [hby] at huser
        cases call with
        | submit id t =>
          obtain rfl := Option.some.inj hu
          cases huser
        | review id approve actor t =>
          obtain rfl := Option.some.inj hu
          cases approve with
          | false => cases huser
          | true =>
            obtain rfl : actor.sub = user := Option.some.inj huser
            rw [hid]
            exact ⟨actor.email, (h.calls _ (Pool.mem_of_running hrun)).1⟩
        | reviewed id approve actor => cases hu
      · exact h.approvers t ht user huser

/-! ### Runs -/

theorem kept_init (es : List TimesheetEvent) : Kept es {} where
  columns t ht := by cases ht
  calls call hcall := by cases hcall
  approvers t ht := by cases ht

theorem kept_run (es : List TimesheetEvent) : Kept es (Runs.run step {} es) :=
  have hmem : Runs.Meets step (fun _ e => e ∈ es) {} es := Runs.meets_of_mem (fun _ he => he) _
  Runs.run_induction (fun _ _ h he => kept_step h he) (kept_init es) hmem

/-- A decision was there in some state of the run. -/
def Shown (es : List TimesheetEvent) (id : Uuid) (approve : Bool) (actor : Actor) : Prop :=
  ∃ fs, fs <+: es ∧ Shows (Runs.run step {} fs) id approve actor

/-- An audit entry tells of a decision that was there. -/
def Told (es : List TimesheetEvent) (r : AuditLog ℕ) : Prop :=
  ∃ id approve actor, Shown es id approve actor ∧
    r = AuditDrizzleRepository.newLog (reviewEntry id approve actor) r.occurredAt r.id

/-- A call that has made its update has shown its decision, and so have the entries of the log. -/
theorem told_run (es : List TimesheetEvent) :
    (∀ id approve actor, some (.reviewed id approve actor) ∈ (Runs.run step {} es).calls →
        Shown es id approve actor) ∧
      ∀ r ∈ (Runs.run step {} es).log.rows, Told es r := by
  induction es using List.reverseRecOn with
  | nil =>
    constructor
    · intro id approve actor h
      cases h
    · intro r hr
      cases hr
  | append_singleton es e ih =>
    obtain ⟨ihcalls, ihlog⟩ := ih
    have hlater : ∀ id approve actor, Shown es id approve actor →
        Shown (es ++ [e]) id approve actor := by
      rintro id approve actor ⟨fs, hfs, hshows⟩
      exact ⟨fs, hfs.trans (List.prefix_append es [e]), hshows⟩
    have hrun : Runs.run step {} (es ++ [e]) = (Runs.run step {} es).step e := by
      rw [Runs.run_append]
      rfl
    have hkept := kept_run es
    rw [hrun]
    generalize Runs.run step {} es = s at *
    refine ⟨fun id approve actor hcall => ?_, fun r hr => ?_⟩
    · rcases mem_calls_step hcall with hold | ⟨id', t, heq, -⟩ |
        ⟨id', approve', actor', view, t, heq, -⟩ |
        ⟨id', approve', actor', t, i, now, heq, rfl, hreview⟩
      · exact hlater id approve actor (ihcalls id approve actor hold)
      · cases heq
      · cases heq
      · cases heq
        -- the update shows the decision
        refine ⟨es ++ [.write i now], List.prefix_refl _, ?_⟩
        rw [hrun]
        obtain ⟨-, t, ht, rfl, -⟩ := hkept.calls _ (Pool.mem_of_running hreview)
        obtain ⟨t', ht', hcontent, hset⟩ := exists_setTimesheetStatus t.id
          (if approve then .approved else .rejected) now
          (if approve then some actor.sub else none) ht
        rw [if_pos rfl] at hset
        refine ⟨t', ?_, congrArg Prod.fst hcontent, hset.1, hset.2.trans ?_⟩
        · simp only [step, write, hreview, TimesheetCall.update]
          exact ht'
        · cases approve <;> rfl
    · rcases mem_log_step hr with hold | ⟨id, approve, actor, now, newId, hcall, rfl⟩
      · obtain ⟨id, approve, actor, hshown, heq⟩ := ihlog r hold
        exact ⟨id, approve, actor, hlater id approve actor hshown, heq⟩
      · exact ⟨id, approve, actor, hlater id approve actor (ihcalls id approve actor hcall), rfl⟩

/-- Approvers are known, have held the permission, and have asked for it; what a timesheet says stays
as it was; and every audit entry tells of a decision that was there. -/
structure Accounted (es : List TimesheetEvent) (s : TimesheetState) : Prop where
  columns : Columns s
  approvers : ∀ t ∈ s.timesheets.rows, ∀ user ∈ t.approvedBy,
    ∃ email, LetThrough es t.id true ⟨user, email⟩
  content : ∀ fs, fs <+: es → ∀ t ∈ (Runs.run step {} fs).timesheets.rows,
    ∃ t' ∈ s.timesheets.rows, content t' = content t
  audited : ∀ r ∈ s.log.rows, Told es r

/-- **The timesheets are accounted for**, in every order of the statements of all calls, and
whichever of them fail. -/
theorem timesheets_accounted (es : List TimesheetEvent) :
    Accounted es (Runs.run step {} es) := by
  have hkept := kept_run es
  refine ⟨hkept.columns, hkept.approvers, ?_, (told_run es).2⟩
  rintro fs ⟨gs, rfl⟩ t ht
  rw [Runs.run_append]
  have hkeep : ∀ (s : TimesheetState) e, (∃ t' ∈ s.timesheets.rows, content t' = content t) →
      ∃ t' ∈ (s.step e).timesheets.rows, content t' = content t := by
    rintro s e ⟨t', ht', hcontent⟩
    obtain ⟨t'', ht'', hsame, -⟩ := exists_step ht' e
    exact ⟨t'', ht'', hsame.trans hcontent⟩
  exact Runs.run_invariant hkeep ⟨t, ht, rfl⟩ gs

/-! ### The finality of approvals -/

/-- What is approved in `s` is approved in `s'`, by the same user. -/
def ApprovedKept (s s' : TimesheetState) : Prop :=
  ∀ t ∈ s.timesheets.rows, t.status = .approved → ∃ t' ∈ s'.timesheets.rows, t'.id = t.id ∧
    t'.status = .approved ∧ t'.approvedBy = t.approvedBy

/-- The timesheet of a call has been approved since the call has read it. -/
def Overtaken (s : TimesheetState) (call : TimesheetCall) : Prop :=
  ∃ read, call.read = some read ∧ read.status ≠ .approved ∧
    ∃ t, s.timesheets.find read.id = some t ∧ t.status = .approved

/-- A call whose timesheet has been approved since it has read it does not write, unless it writes
the same approval. -/
def NotOvertaken (s : TimesheetState) : TimesheetEvent → Prop
  | .write i _ => ∀ call u, Pool.running s.calls i = some call → call.update = some u →
      s.Overtaken call → ∀ t, s.timesheets.find u.id = some t →
        u.status = .approved ∧ u.approvedBy = t.approvedBy
  | _ => True

theorem approvedKept_refl (s : TimesheetState) : ApprovedKept s s :=
  fun t ht hstatus => ⟨t, ht, rfl, hstatus, rfl⟩

theorem ApprovedKept.trans (h : ApprovedKept s s') (h' : ApprovedKept s' s'') :
    ApprovedKept s s'' := by
  intro t ht hstatus
  obtain ⟨t', ht', hid, hstatus', hby⟩ := h t ht hstatus
  obtain ⟨t'', ht'', hid', hstatus'', hby'⟩ := h' t' ht' hstatus'
  exact ⟨t'', ht'', hid'.trans hid, hstatus'', hby'.trans hby⟩

/-- **The guards.**  The calls in flight have passed their checks. -/
theorem guarded_step (s : TimesheetState) (e : TimesheetEvent)
    (h : ∀ call, some call ∈ s.calls → call.Guarded) :
    ∀ call, some call ∈ (s.step e).calls → call.Guarded := by
  intro call hcall u hu
  rcases mem_calls_step hcall with hold | ⟨id, t, rfl, hid, hstatus⟩ |
    ⟨id, approve, actor, view, t, rfl, -, -, -, hid, hstatus⟩ |
    ⟨id, approve, actor, t, i, now, rfl, -, -⟩
  · exact h call hold u hu
  · obtain rfl := Option.some.inj hu
    refine ⟨t, rfl, hid, ?_⟩
    rcases hstatus with hstatus | hstatus
    · simp [hstatus]
    · simp [hstatus]
  · obtain rfl := Option.some.inj hu
    exact ⟨t, rfl, hid, by simp [hstatus]⟩
  · cases hu

/-- While the row is as the call has read it, the call is not overtaken. -/
theorem not_overtaken_of_find {call : TimesheetCall} (hread : call.read = some t)
    (h : s.timesheets.find t.id = some t) : ¬ s.Overtaken call := by
  rintro ⟨read, hcall, hstatus, t', ht', happroved⟩
  obtain rfl := Option.some.inj (hread.symm.trans hcall)
  obtain rfl := Option.some.inj (h.symm.trans ht')
  exact hstatus happroved

/-- An update keeps the approvals exactly if it repeats the one that it finds. -/
theorem approvedKept_update_iff {u : TimesheetUpdate} {now : Time}
    (h : s'.timesheets = setTimesheetStatus u.id u.status u.approvedBy now s.timesheets) :
    ApprovedKept s s' ↔ ∀ t, s.timesheets.find u.id = some t → t.status = .approved →
      u.status = .approved ∧ u.approvedBy = t.approvedBy := by
  constructor
  · intro hkept t ht hstatus
    obtain ⟨t', ht', hid, hstatus', hby⟩ := hkept t (Table.mem_of_find ht) hstatus
    rw [h] at ht'
    rcases mem_setTimesheetStatus ht' with ⟨-, -, -, -, hset, hsetBy, -⟩ | ⟨-, hne⟩
    · have happroved : u.status = .approved := hset.symm.trans hstatus'
      rw [if_pos happroved] at hsetBy
      exact ⟨happroved, hsetBy.symm.trans hby⟩
    · exact absurd (hid.trans (Table.key_of_find ht)) hne
  · intro hagrees t ht hstatus
    obtain ⟨t', ht', hcontent, hset⟩ := exists_setTimesheetStatus u.id u.status now
      u.approvedBy ht
    refine ⟨t', h ▸ ht', congrArg Prod.fst hcontent, ?_⟩
    by_cases hid : t.id = u.id
    · have hfind : s.timesheets.find u.id = some t := Table.find_eq_some_iff.2 ⟨ht, hid⟩
      obtain ⟨happroved, hby⟩ := hagrees t hfind hstatus
      rw [if_pos hid, if_pos happroved] at hset
      exact ⟨hset.1.trans happroved, hset.2.trans hby⟩
    · rw [if_neg hid] at hset
      rw [hset]
      exact ⟨hstatus, rfl⟩

/-- **The step lemma.**  A statement keeps the approvals exactly if its call has not been
overtaken. -/
theorem approvedKept_step_iff (s : TimesheetState) (e : TimesheetEvent)
    (h : ∀ call, some call ∈ s.calls → call.Guarded) :
    ApprovedKept s (s.step e) ↔ s.NotOvertaken e := by
  rcases step_cases s e with ⟨heq, hnone⟩ | ⟨input, actor, now, newId, rfl, hins⟩ |
    ⟨i, now, call, u, rfl, hrun, hu, -, heq⟩
  · refine iff_of_true (fun t ht hstatus => ⟨t, heq.symm ▸ ht, rfl, hstatus, rfl⟩) ?_
    cases e with
    | write i now =>
      intro call u hrun hu
      exact absurd hu (hnone i now rfl call u hrun)
    | create input actor now newId => trivial
    | submit id => trivial
    | review id approve actor view => trivial
    | record i now newId ok => trivial
    | fail i => trivial
  · refine iff_of_true (fun t ht hstatus => ⟨t, ?_, rfl, hstatus, rfl⟩) trivial
    exact (Table.mem_insert hins).2 (Or.inl ht)
  · obtain ⟨read, hread, hid, hopen⟩ := h call (Pool.mem_of_running hrun) u hu
    rw [approvedKept_update_iff heq]
    constructor
    · rintro hagrees call' u' hrun' hu' ⟨read', hread', -, t', ht', happroved⟩ t ht
      obtain rfl := Option.some.inj (hrun.symm.trans hrun')
      obtain rfl := Option.some.inj (hu.symm.trans hu')
      obtain rfl := Option.some.inj (hread.symm.trans hread')
      rw [hid, ht] at ht'
      obtain rfl := Option.some.inj ht'
      exact hagrees t ht happroved
    · intro hnot t ht happroved
      -- the row that the call has read was not approved
      exact hnot call u hrun hu ⟨read, hread, hopen, t, hid ▸ ht, happroved⟩ t ht

/-- **Approvals are final** in a run exactly if no call whose timesheet has been approved since it
has read it writes something else. -/
theorem always_approved_iff (es : List TimesheetEvent) :
    (∀ fs gs, fs <+: gs → gs <+: es →
      ApprovedKept (Runs.run step {} fs) (Runs.run step {} gs)) ↔
        Runs.Meets step NotOvertaken {} es := by
  have hinit : ∀ call, some call ∈ ({} : TimesheetState).calls → call.Guarded := by
    intro call hcall
    cases hcall
  have hguarded : ∀ fs, fs <+: es → ∀ call, some call ∈ (Runs.run step {} fs).calls →
      call.Guarded := fun fs _ => Runs.run_invariant guarded_step hinit fs
  refine Iff.trans (and_iff_right hguarded).symm ?_
  exact @Runs.always_related_iff_meets _ _ step NotOvertaken
    (fun s => ∀ call, some call ∈ s.calls → call.Guarded) ApprovedKept approvedKept_refl
    (fun _ _ _ => ApprovedKept.trans)
    (fun s e h => (and_iff_right (guarded_step s e h)).trans (approvedKept_step_iff s e h)) _ es hinit

/-! ### Two submissions of one timesheet -/

namespace Resubmission

/-- Whoever has the permission to review. -/
def view : AuthzView where
  check user permission := decide (user = 2 ∧ permission = "workforce.approve")
  delegations := []
  now := 0

/-- Two submissions have read the draft when the first of them is approved. -/
def events : List TimesheetEvent :=
  [.create ⟨20000, 480, none⟩ ⟨1, "user1@example.com"⟩ 0 10, .submit 10, .submit 10, .write 0 1,
    .review 10 true ⟨2, "user2@example.com"⟩ view, .write 2 2]

end Resubmission

/-- The other one takes the approval back. -/
theorem not_approvedKept :
    ¬ ApprovedKept (Runs.run step {} Resubmission.events)
      (Runs.run step {} (Resubmission.events ++ [.write 1 3])) := by
  intro h
  obtain ⟨t', ht', -, hstatus, -⟩ := h _ (List.mem_singleton.2 rfl) (by decide)
  obtain rfl := List.mem_singleton.1 ht'
  exact absurd hstatus (by decide)

end TimesheetState

end WorkforceService

end OpsHub
