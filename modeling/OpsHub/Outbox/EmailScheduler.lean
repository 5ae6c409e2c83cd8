import OpsHub.Lib.OnConflict
import OpsHub.Outbox.Relays

/-!
# Scheduling emails

`EmailSchedulerService.schedule` inserts a row into `email_outbox` inside the transaction of its
caller; a second row with the same idempotency key is to be left out by the conflict clause.
Any number of transactions are open at a time.

* `EmailOutbox.indexes`: the unique index on the keys, which is partial;
* `scheduleEmail`: the statement, for a conflict clause; the email scheduler and the notification
  scheduler have different ones;
* `EmailSystem`, `step`: the transactions; a statement that fails aborts its transaction, and
  one that conflicts with a row not committed yet has to wait;
* `run_idempotent`: with the clause of the notification scheduler every run is idempotent;
* `idempotent_iff`: with the clause of the email scheduler exactly the runs without a call are.
-/

namespace OpsHub

/-! ### The statement -/

/-- The columns of a row of `email_outbox` that `schedule` sets; the others have their
defaults. -/
structure EmailRow where
  data : EmailData
  scheduledAt : Time
  deriving DecidableEq, Repr

/-- A call of `schedule`. -/
structure EmailCall where
  data : EmailData
  scheduledAt : Option Time := none
  deriving DecidableEq, Repr

namespace EmailCall

/-- The values fit their columns. -/
def Fits (call : EmailCall) : Prop :=
  call.data.to.length ≤ 320 ∧ call.data.template.length ≤ 100 ∧
    ∀ key ∈ call.data.idempotencyKey, key.length ≤ 255

instance : DecidablePred Fits := fun call =>
  inferInstanceAs (Decidable (call.data.to.length ≤ 320 ∧ call.data.template.length ≤ 100 ∧
    ∀ key ∈ call.data.idempotencyKey, key.length ≤ 255))

/-- The row that the call inserts. -/
def row (call : EmailCall) (now : Time) : EmailRow := ⟨call.data, call.scheduledAt.getD now⟩

end EmailCall

/-- The unique index of `email_outbox` besides that on the ids, which the database draws. -/
def EmailOutbox.indexes : List (UniqueIndex EmailRow String) :=
  [{ columns := ["idempotency_key"]
     predicate := some "idempotency_key IS NOT NULL"
     entry := fun r => r.data.idempotencyKey }]

/-- `.onConflictDoNothing({ target: emailOutbox.idempotencyKey })`. -/
def EmailSchedulerService.conflictClause : Option ConflictTarget :=
  some { columns := ["idempotency_key"], predicate := none }

/-- `.onConflictDoNothing()`. -/
def NotificationSchedulerService.conflictClause : Option ConflictTarget := none

/-- The insertion of `schedule`, among the rows that its transaction sees: the rows it adds. -/
def scheduleEmail (clause : Option ConflictTarget) (visible : List EmailRow) (call : EmailCall)
    (now : Time) : Except Failure (List EmailRow) := do
  Outcome.require (UniqueIndex.Accepted EmailOutbox.indexes clause)
    (.error "there is no unique or exclusion constraint matching the ON CONFLICT specification")
  Outcome.require call.Fits (.error "value too long for type character varying")
  match UniqueIndex.insertDoNothing EmailOutbox.indexes clause visible (call.row now) with
  | .ok rows => pure rows
  | .error _ => throw (.duplicateKey "email_outbox")

/-! ### Transactions -/

/-- An open transaction: the rows it has inserted, and the calls made in it. -/
structure EmailTx where
  rows : List EmailRow := []
  calls : List EmailCall := []
  aborted : Bool := false
  deriving DecidableEq, Repr

/-- The committed rows, the calls of committed transactions, the transactions (`none` once they
have ended), and what calls have raised. -/
structure EmailSystem where
  rows : List EmailRow := []
  calls : List EmailCall := []
  txs : List (Option EmailTx) := []
  errors : List Failure := []

/-- What can happen. -/
inductive EmailEvent
  | begin
  | schedule (i : ℕ) (call : EmailCall) (now : Time)
  | commit (i : ℕ)
  | rollback (i : ℕ)

namespace EmailSystem

/-- The rows of a transaction that are not committed. -/
def pendingRows : Option EmailTx → List EmailRow
  | some tx => tx.rows
  | none => []

/-- The rows of all open transactions. -/
def uncommitted (txs : List (Option EmailTx)) : List EmailRow := txs.flatMap pendingRows

/-- The call has to wait for another transaction. -/
def Waits (clause : Option ConflictTarget) (s : EmailSystem) (i : ℕ) (call : EmailCall)
    (now : Time) : Prop :=
  UniqueIndex.Accepted EmailOutbox.indexes clause ∧ call.Fits ∧
    UniqueIndex.Conflicts EmailOutbox.indexes (uncommitted (s.txs.set i none)) (call.row now)

instance (clause : Option ConflictTarget) (s : EmailSystem) (i : ℕ) (call : EmailCall)
    (now : Time) : Decidable (s.Waits clause i call now) :=
  inferInstanceAs (Decidable (UniqueIndex.Accepted EmailOutbox.indexes clause ∧ call.Fits ∧
    UniqueIndex.Conflicts EmailOutbox.indexes (uncommitted (s.txs.set i none)) (call.row now)))

/-- A call that raises an error aborts its transaction. -/
def abort (s : EmailSystem) (i : ℕ) (e : Failure) : EmailSystem :=
  { s with txs := s.txs.set i (some { aborted := true }), errors := s.errors ++ [e] }

/-- A call in the open transaction `i`.  A call that has to wait is made again later; of two
transactions that wait for each other, one is rolled back. -/
def scheduleIn (clause : Option ConflictTarget) (s : EmailSystem) (i : ℕ) (tx : EmailTx)
    (call : EmailCall) (now : Time) : EmailSystem :=
  if tx.aborted then
    s.abort i (.error ("current transaction is aborted, commands ignored until end of " ++
      "transaction block"))
  else if s.Waits clause i call now then s
  else
    match scheduleEmail clause (s.rows ++ tx.rows) call now with
    | .ok rows =>
      { s with
        txs := s.txs.set i (some { tx with rows := tx.rows ++ rows, calls := tx.calls ++ [call] }) }
    | .error e => s.abort i e

/-- The end of transaction `i`; an aborted one cannot be committed. -/
def commitTx (s : EmailSystem) (i : ℕ) (tx : EmailTx) : EmailSystem :=
  if tx.aborted then { s with txs := s.txs.set i none }
  else
    { s with rows := s.rows ++ tx.rows, calls := s.calls ++ tx.calls, txs := s.txs.set i none }

/-- Transaction `i`, if it is open. -/
def tx? (s : EmailSystem) (i : ℕ) : Option EmailTx := s.txs[i]?.join

/-- The state after an event. -/
def step (clause : Option ConflictTarget) (s : EmailSystem) : EmailEvent → EmailSystem
  | .begin => { s with txs := s.txs ++ [some {}] }
  | .schedule i call now =>
    match s.tx? i with
    | some tx => s.scheduleIn clause i tx call now
    | none => s
  | .commit i =>
    match s.tx? i with
    | some tx => s.commitTx i tx
    | none => s
  | .rollback i => { s with txs := s.txs.set i none }

/-! ### The property -/

/-- The row has this key, or none. -/
def rowHas (key : Option String) (r : EmailRow) : Bool := decide (r.data.idempotencyKey = key)

/-- The call has this key, or none. -/
def callHas (key : Option String) (c : EmailCall) : Bool := decide (c.data.idempotencyKey = key)

/-- No call has raised an error or aborted its transaction.  There is one row for every key used
in a committed transaction, and one for every call without a key. -/
structure Idempotent (s : EmailSystem) : Prop where
  noError : s.errors = []
  noAbort : ∀ tx, some tx ∈ s.txs → tx.aborted = false
  keyed : ∀ key, s.rows.countP (rowHas (some key)) =
    if s.calls.any (callHas (some key)) then 1 else 0
  unkeyed : s.rows.countP (rowHas none) = s.calls.countP (callHas none)

/-- The event is a call in an open transaction. -/
def IsCall (s : EmailSystem) : EmailEvent → Prop
  | .schedule i _ _ => (s.tx? i).isSome = true
  | _ => False

/-- The call fits the columns. -/
def CallFits (_ : EmailSystem) : EmailEvent → Prop
  | .schedule _ call _ => call.Fits
  | _ => True

variable {clause : Option ConflictTarget} {s : EmailSystem} {e : EmailEvent} {i : ℕ} {tx : EmailTx}
  {call : EmailCall} {now : Time} {es : List EmailEvent}

/-! ### Conflicts -/

theorem conflicts_iff {rows : List EmailRow} {r : EmailRow} :
    UniqueIndex.Conflicts EmailOutbox.indexes rows r ↔
      r.data.idempotencyKey ≠ none ∧ ∃ x ∈ rows, x.data.idempotencyKey = r.data.idempotencyKey := by
  simp only [UniqueIndex.Conflicts, EmailOutbox.indexes, List.mem_singleton, exists_eq_left,
    UniqueIndex.Clash]
  constructor
  · rintro ⟨x, hx, hne, heq⟩
    exact ⟨heq ▸ hne, x, hx, heq⟩
  · rintro ⟨hne, x, hx, heq⟩
    exact ⟨x, hx, heq.symm ▸ hne, heq⟩

/-- The index is partial, and the clause of the email scheduler does not give its predicate. -/
theorem not_accepted :
    ¬ UniqueIndex.Accepted EmailOutbox.indexes EmailSchedulerService.conflictClause := by decide

/-- **The email scheduler**: the statement is refused in every transaction, with and without a
key. -/
theorem scheduleEmail_refused (visible : List EmailRow) (call : EmailCall) (now : Time) :
    ∃ e, scheduleEmail EmailSchedulerService.conflictClause visible call now = .error e := by
  rw [scheduleEmail, Outcome.require, if_neg not_accepted]
  exact ⟨_, rfl⟩

/-- **The notification scheduler's clause**: the statement adds the row, unless its key is
taken. -/
theorem scheduleEmail_none (visible : List EmailRow) (hfits : call.Fits) (now : Time) :
    scheduleEmail NotificationSchedulerService.conflictClause visible call now =
      .ok (if UniqueIndex.Conflicts EmailOutbox.indexes visible (call.row now) then []
        else [call.row now]) := by
  have haccepted : UniqueIndex.Accepted EmailOutbox.indexes
      NotificationSchedulerService.conflictClause := Or.inl rfl
  rw [scheduleEmail, Outcome.require, if_pos haccepted, Outcome.require, if_pos hfits,
    NotificationSchedulerService.conflictClause, UniqueIndex.insertDoNothing_none]
  rfl

/-! ### The clause without a target -/

@[simp] theorem pendingRows_some (tx : EmailTx) : pendingRows (some tx) = tx.rows := rfl

@[simp] theorem pendingRows_none : pendingRows none = [] := rfl

/-- The rows that no transaction has committed change by those of the replaced one. -/
theorem countP_uncommitted_set (p : EmailRow → Bool) {txs : List (Option EmailTx)}
    {a : Option EmailTx} (h : txs[i]? = some a) (b : Option EmailTx) :
    (uncommitted (txs.set i b)).countP p + (pendingRows a).countP p =
      (uncommitted txs).countP p + (pendingRows b).countP p := by
  simp only [uncommitted]
  induction txs generalizing i with
  | nil => simp at h
  | cons y ys ih =>
    cases i with
    | zero =>
      obtain rfl : y = a := by simpa using h
      simp only [List.set_cons_zero, List.flatMap_cons, List.countP_append]
      omega
    | succ i =>
      have hys := ih (by simpa using h)
      simp only [List.set_cons_succ, List.flatMap_cons, List.countP_append]
      omega

/-- `rows` are those that `calls` were to add, among the rows `seen`. -/
structure Matches (seen rows : List EmailRow) (calls : List EmailCall) : Prop where
  taken : ∀ c ∈ calls, c.data.idempotencyKey ≠ none →
    ∃ r ∈ seen, r.data.idempotencyKey = c.data.idempotencyKey
  used : ∀ r ∈ rows, ∃ c ∈ calls, c.data.idempotencyKey = r.data.idempotencyKey
  unkeyed : rows.countP (rowHas none) = calls.countP (callHas none)

/-- The invariant. -/
structure Sound (s : EmailSystem) : Prop where
  noError : s.errors = []
  noAbort : ∀ tx, some tx ∈ s.txs → tx.aborted = false
  once : ∀ key, (s.rows ++ uncommitted s.txs).countP (rowHas (some key)) ≤ 1
  committed : Matches s.rows s.rows s.calls
  inTx : ∀ tx, some tx ∈ s.txs → Matches (s.rows ++ tx.rows) tx.rows tx.calls

theorem Matches.nil (seen : List EmailRow) : Matches seen [] [] where
  taken _ hc := absurd hc List.not_mem_nil
  used _ hr := absurd hr List.not_mem_nil
  unkeyed := rfl

theorem Matches.mono {seen seen' rows : List EmailRow} {calls : List EmailCall}
    (h : Matches seen rows calls) (hsub : seen ⊆ seen') : Matches seen' rows calls where
  taken c hc hne := by
    obtain ⟨r, hr, hkey⟩ := h.taken c hc hne
    exact ⟨r, hsub hr, hkey⟩
  used := h.used
  unkeyed := h.unkeyed

theorem Matches.append {seen rows rows' : List EmailRow} {calls calls' : List EmailCall}
    (h : Matches seen rows calls) (h' : Matches seen rows' calls') :
    Matches seen (rows ++ rows') (calls ++ calls') where
  taken c hc hne := (List.mem_append.1 hc).elim (fun hc => h.taken c hc hne)
    fun hc => h'.taken c hc hne
  used r hr := by
    rcases List.mem_append.1 hr with hr | hr
    · obtain ⟨c, hc, hkey⟩ := h.used r hr
      exact ⟨c, List.mem_append_left _ hc, hkey⟩
    · obtain ⟨c, hc, hkey⟩ := h'.used r hr
      exact ⟨c, List.mem_append_right _ hc, hkey⟩
  unkeyed := by rw [List.countP_append, List.countP_append, h.unkeyed, h'.unkeyed]

/-- One call and the row it adds. -/
theorem Matches.added (seen : List EmailRow) (call : EmailCall) (now : Time) :
    Matches (seen ++ [call.row now]) [call.row now] [call] where
  taken c hc _ := by
    rw [List.mem_singleton.1 hc]
    exact ⟨_, List.mem_append_right _ List.mem_cons_self, rfl⟩
  used r hr := by
    rw [List.mem_singleton.1 hr]
    exact ⟨call, List.mem_cons_self, rfl⟩
  unkeyed := rfl

/-- A call that finds its key adds no row. -/
theorem Matches.found {seen : List EmailRow}
    (h : UniqueIndex.Conflicts EmailOutbox.indexes seen (call.row now)) :
    Matches seen [] [call] := by
  obtain ⟨hne, r, hr, hkey⟩ := conflicts_iff.1 h
  refine ⟨fun c hc _ => ?_, fun _ hr => absurd hr List.not_mem_nil, ?_⟩
  · rw [List.mem_singleton.1 hc]
    exact ⟨r, hr, hkey⟩
  · have hkeyed : callHas none call = false := decide_eq_false hne
    rw [List.countP_cons, hkeyed]
    rfl

theorem tx?_eq_some : s.tx? i = some tx ↔ s.txs[i]? = some (some tx) := by
  rw [tx?, Option.join_eq_some_iff]

theorem mem_of_tx? (h : s.tx? i = some tx) : some tx ∈ s.txs :=
  List.mem_of_getElem? (tx?_eq_some.1 h)

theorem sound_init : Sound {} where
  noError := rfl
  noAbort _ h := absurd h List.not_mem_nil
  once _ := Nat.zero_le 1
  committed := Matches.nil []
  inTx _ h := absurd h List.not_mem_nil

theorem Sound.begin (h : Sound s) : Sound { s with txs := s.txs ++ [some {}] } where
  noError := h.noError
  noAbort tx htx := by
    rcases List.mem_append.1 htx with htx | htx
    · exact h.noAbort tx htx
    · rw [Option.some.inj (List.mem_singleton.1 htx)]
  once key := by
    have huncommitted : uncommitted (s.txs ++ [some ({} : EmailTx)]) = uncommitted s.txs := by
      simp [uncommitted]
    show (s.rows ++ uncommitted (s.txs ++ [some ({} : EmailTx)])).countP _ ≤ 1
    rw [huncommitted]
    exact h.once key
  committed := h.committed
  inTx tx htx := by
    rcases List.mem_append.1 htx with htx | htx
    · exact h.inTx tx htx
    · rw [Option.some.inj (List.mem_singleton.1 htx)]
      exact Matches.nil _

/-- The transactions that stay after one has ended. -/
theorem mem_of_mem_set_none {txs : List (Option EmailTx)} (h : some tx ∈ txs.set i none) :
    some tx ∈ txs := (List.mem_or_eq_of_mem_set h).resolve_right (Option.some_ne_none tx)

theorem Sound.rollback (h : Sound s) (i : ℕ) : Sound { s with txs := s.txs.set i none } where
  noError := h.noError
  noAbort tx htx := h.noAbort tx (mem_of_mem_set_none htx)
  once key := by
    have honce := h.once key
    show (s.rows ++ uncommitted (s.txs.set i none)).countP _ ≤ 1
    rw [List.countP_append] at honce ⊢
    cases hi : s.txs[i]? with
    | none => rwa [List.set_eq_of_length_le (List.getElem?_eq_none_iff.1 hi)]
    | some a =>
      have hcount := countP_uncommitted_set (rowHas (some key)) hi none
      rw [pendingRows_none, List.countP_nil] at hcount
      omega
  committed := h.committed
  inTx tx htx := h.inTx tx (mem_of_mem_set_none htx)

theorem Sound.commit (h : Sound s) (htx : s.tx? i = some tx) : Sound (s.commitTx i tx) := by
  have hmem := mem_of_tx? htx
  rw [commitTx, if_neg (Bool.eq_false_iff.1 (h.noAbort tx hmem))]
  refine ⟨h.noError, fun tx' htx' => h.noAbort tx' (mem_of_mem_set_none htx'), fun key => ?_, ?_,
    fun tx' htx' => ?_⟩
  · have honce := h.once key
    have hcount := countP_uncommitted_set (rowHas (some key)) (tx?_eq_some.1 htx) none
    simp only [pendingRows_some, pendingRows_none, List.countP_nil, List.countP_append]
      at honce hcount ⊢
    omega
  · exact (h.committed.mono (List.subset_append_left _ _)).append (h.inTx tx hmem)
  · refine (h.inTx tx' (mem_of_mem_set_none htx')).mono ?_
    rw [List.append_assoc]
    exact List.append_subset.2 ⟨List.subset_append_left _ _,
      List.Subset.trans (List.subset_append_right _ _) (List.subset_append_right _ _)⟩

/-- A call whose key is nowhere among the rows `rows` adds the first row with the key. -/
theorem countP_of_not_conflicts {rows : List EmailRow}
    (h : ¬ UniqueIndex.Conflicts EmailOutbox.indexes rows (call.row now)) (key : String)
    (hkey : rowHas (some key) (call.row now) = true) : rows.countP (rowHas (some key)) = 0 := by
  rw [List.countP_eq_zero]
  intro r hr hrow
  refine h (conflicts_iff.2 ⟨?_, r, hr, (of_decide_eq_true hrow).trans (of_decide_eq_true hkey).symm⟩)
  rw [of_decide_eq_true hkey]
  exact Option.some_ne_none key

/-- The transaction after a call that has not failed. -/
theorem Sound.called (h : Sound s) (htx : s.tx? i = some tx) {rows : List EmailRow}
    (hmatch : Matches (s.rows ++ (tx.rows ++ rows)) rows [call])
    (honce : ∀ key, (s.rows ++ uncommitted s.txs ++ rows).countP (rowHas (some key)) ≤ 1) :
    Sound { s with
      txs := s.txs.set i (some { tx with rows := tx.rows ++ rows, calls := tx.calls ++ [call] }) } where
  noError := h.noError
  noAbort tx' htx' := by
    rcases List.mem_or_eq_of_mem_set htx' with htx' | heq
    · exact h.noAbort tx' htx'
    · rw [Option.some.inj heq]
      exact h.noAbort tx (mem_of_tx? htx)
  once key := by
    have hbefore := honce key
    have hcount := countP_uncommitted_set (rowHas (some key)) (tx?_eq_some.1 htx)
      (some { tx with rows := tx.rows ++ rows, calls := tx.calls ++ [call] })
    simp only [pendingRows_some, List.countP_append] at hbefore hcount ⊢
    omega
  committed := h.committed
  inTx tx' htx' := by
    rcases List.mem_or_eq_of_mem_set htx' with htx' | heq
    · exact h.inTx tx' htx'
    · rw [Option.some.inj heq]
      refine ((h.inTx tx (mem_of_tx? htx)).mono ?_).append hmatch
      rw [← List.append_assoc]
      exact List.subset_append_left _ _

theorem Sound.schedule (h : Sound s) (htx : s.tx? i = some tx) (hfits : call.Fits) (now : Time) :
    Sound (s.scheduleIn NotificationSchedulerService.conflictClause i tx call now) := by
  rw [scheduleIn, if_neg (Bool.eq_false_iff.1 (h.noAbort tx (mem_of_tx? htx)))]
  by_cases hwaits : s.Waits NotificationSchedulerService.conflictClause i call now
  · rwa [if_pos hwaits]
  rw [if_neg hwaits, scheduleEmail_none _ hfits]
  have hothers : ¬ UniqueIndex.Conflicts EmailOutbox.indexes (uncommitted (s.txs.set i none))
      (call.row now) := fun hconflict => hwaits ⟨Or.inl rfl, hfits, hconflict⟩
  by_cases hvisible : UniqueIndex.Conflicts EmailOutbox.indexes (s.rows ++ tx.rows) (call.row now)
  · rw [if_pos hvisible]
    refine h.called htx ?_ fun key => ?_
    · rw [List.append_nil]
      exact Matches.found hvisible
    · rw [List.append_nil]
      exact h.once key
  · rw [if_neg hvisible]
    refine h.called htx ?_ fun key => ?_
    · rw [← List.append_assoc]
      exact Matches.added _ call now
    · rw [List.countP_append, List.countP_singleton]
      by_cases hkey : rowHas (some key) (call.row now) = true
      · have hseen := countP_of_not_conflicts hvisible key hkey
        have hpending := countP_of_not_conflicts hothers key hkey
        have hcount := countP_uncommitted_set (rowHas (some key)) (tx?_eq_some.1 htx) none
        rw [if_pos hkey]
        simp only [pendingRows_some, pendingRows_none, List.countP_nil, List.countP_append]
          at hseen hpending hcount ⊢
        omega
      · rw [if_neg hkey]
        exact h.once key

theorem Sound.step (h : Sound s) (hfits : CallFits s e) :
    Sound (step NotificationSchedulerService.conflictClause s e) := by
  cases e with
  | begin => exact h.begin
  | schedule i call now =>
    simp only [EmailSystem.step]
    split
    · rename_i htx
      exact h.schedule htx hfits now
    · exact h
  | commit i =>
    simp only [EmailSystem.step]
    split
    · rename_i htx
      exact h.commit htx
    · exact h
  | rollback i => exact h.rollback i

theorem Sound.idempotent (h : Sound s) : s.Idempotent where
  noError := h.noError
  noAbort := h.noAbort
  keyed key := by
    have honce := h.once key
    rw [List.countP_append] at honce
    split
    · rename_i hused
      obtain ⟨c, hc, hkey⟩ := List.any_eq_true.1 hused
      have hkey := of_decide_eq_true hkey
      obtain ⟨r, hr, hrow⟩ := h.committed.taken c hc (hkey ▸ Option.some_ne_none key)
      have hpos : 0 < s.rows.countP (rowHas (some key)) :=
        List.countP_pos_iff.2 ⟨r, hr, decide_eq_true (hrow.trans hkey)⟩
      omega
    · rename_i hunused
      rw [List.countP_eq_zero]
      intro r hr hrow
      obtain ⟨c, hc, hkey⟩ := h.committed.used r hr
      exact hunused (List.any_eq_true.2
        ⟨c, hc, decide_eq_true (hkey.trans (of_decide_eq_true hrow))⟩)
  unkeyed := h.committed.unkeyed

/-- **A clause without a target**: every run of calls that fit the columns is idempotent. -/
theorem run_idempotent (es : List EmailEvent)
    (hfits : Runs.Meets (step NotificationSchedulerService.conflictClause) CallFits {} es) :
    (Runs.run (step NotificationSchedulerService.conflictClause) {} es).Idempotent :=
  (Runs.run_induction (fun _ _ h hfits => h.step hfits) sound_init hfits).idempotent

/-! ### The clause of the email scheduler -/

/-- What calls have raised stays. -/
theorem errors_kept (clause : Option ConflictTarget) (s : EmailSystem) (e : EmailEvent) :
    s.errors <+: (step clause s e).errors := by
  cases e with
  | begin => exact List.prefix_rfl
  | schedule i call now =>
    simp only [step]
    split
    · rw [scheduleIn]
      split
      · exact List.prefix_append _ _
      · split
        · exact List.prefix_rfl
        · split
          · exact List.prefix_rfl
          · exact List.prefix_append _ _
    · exact List.prefix_rfl
  | commit i =>
    simp only [step]
    split
    · rw [commitTx]
      split <;> exact List.prefix_rfl
    · exact List.prefix_rfl
  | rollback i => exact List.prefix_rfl

/-- Every call in an open transaction raises an error. -/
theorem errors_of_isCall (hcall : s.IsCall e) :
    (step EmailSchedulerService.conflictClause s e).errors ≠ [] := by
  cases e with
  | schedule i call now =>
    obtain ⟨tx, htx⟩ := Option.isSome_iff_exists.1 hcall
    have hwaits : ¬ s.Waits EmailSchedulerService.conflictClause i call now :=
      fun h => not_accepted h.1
    obtain ⟨e, he⟩ := scheduleEmail_refused (s.rows ++ tx.rows) call now
    simp only [step, htx, scheduleIn, if_neg hwaits, he, abort]
    split <;> exact List.append_ne_nil_of_right_ne_nil _ (List.cons_ne_nil _ _)
  | begin => exact hcall.elim
  | commit i => exact hcall.elim
  | rollback i => exact hcall.elim

theorem errors_kept_run (s : EmailSystem) (es : List EmailEvent) :
    s.errors <+: (Runs.run (step EmailSchedulerService.conflictClause) s es).errors := by
  induction es generalizing s with
  | nil => exact List.prefix_rfl
  | cons e es ih => exact (errors_kept _ s e).trans (ih _)

/-- A run that has raised no error has not made a call. -/
theorem meets_of_errors (h : (Runs.run (step EmailSchedulerService.conflictClause) s es).errors = []) :
    Runs.Meets (step EmailSchedulerService.conflictClause) (fun s e => ¬ s.IsCall e) s es := by
  induction es generalizing s with
  | nil => trivial
  | cons e es ih =>
    refine ⟨fun hcall => errors_of_isCall hcall ?_, ih h⟩
    have hkept := errors_kept_run (step EmailSchedulerService.conflictClause s e) es
    rw [← Runs.run_cons, h] at hkept
    exact List.prefix_nil.1 hkept

/-- Nothing has been called. -/
structure Uncalled (s : EmailSystem) : Prop where
  rows : s.rows = []
  calls : s.calls = []
  errors : s.errors = []
  txs : ∀ tx, some tx ∈ s.txs → tx = {}

theorem Uncalled.step (h : Uncalled s) (hcall : ¬ s.IsCall e) : Uncalled (step clause s e) := by
  cases e with
  | begin =>
    refine ⟨h.rows, h.calls, h.errors, fun tx htx => ?_⟩
    rcases List.mem_append.1 htx with htx | htx
    · exact h.txs tx htx
    · exact Option.some.inj (List.mem_singleton.1 htx)
  | schedule i call now =>
    simp only [EmailSystem.step, Option.not_isSome_iff_eq_none.1 hcall]
    exact h
  | commit i =>
    simp only [EmailSystem.step]
    split
    · rename_i tx htx
      obtain rfl := h.txs tx (mem_of_tx? htx)
      refine ⟨?_, ?_, h.errors, fun tx' htx' => h.txs tx' (mem_of_mem_set_none htx')⟩
      · exact (List.append_nil _).trans h.rows
      · exact (List.append_nil _).trans h.calls
    · exact h
  | rollback i =>
    exact ⟨h.rows, h.calls, h.errors, fun tx htx => h.txs tx (mem_of_mem_set_none htx)⟩

theorem Uncalled.idempotent (h : Uncalled s) : s.Idempotent where
  noError := h.errors
  noAbort tx htx := by rw [h.txs tx htx]
  keyed key := by
    rw [h.rows, h.calls]
    rfl
  unkeyed := by
    rw [h.rows, h.calls]
    rfl

/-- **Exactly when email scheduling is idempotent**: in the runs without a call.  A call with a
key and a call without one abort their transaction alike. -/
theorem idempotent_iff (es : List EmailEvent) :
    (Runs.run (step EmailSchedulerService.conflictClause) {} es).Idempotent ↔
      Runs.Meets (step EmailSchedulerService.conflictClause) (fun s e => ¬ s.IsCall e) {} es := by
  constructor
  · exact fun h => meets_of_errors h.noError
  · intro h
    have hinit : Uncalled {} := ⟨rfl, rfl, rfl, fun _ h => absurd h List.not_mem_nil⟩
    have hstep : ∀ s e, Uncalled s → ¬ s.IsCall e →
        Uncalled (step EmailSchedulerService.conflictClause s e) := fun _ _ h hcall => h.step hcall
    exact (Runs.run_induction hstep hinit h).idempotent

/-- One call of one transaction, without a key. -/
theorem not_idempotent_single :
    ¬ (Runs.run (step EmailSchedulerService.conflictClause) {}
      [.begin, .schedule 0 ⟨⟨"ann@example.com", "asset.assigned", "\x7b\x7d", none⟩, none⟩ 0,
        .commit 0]).Idempotent := by
  intro h
  have herrors := h.noError
  contradiction

end EmailSystem

end OpsHub
