import OpsHub.Lib.Json
import OpsHub.Lib.Pool
import OpsHub.Lib.Purge
import OpsHub.Identity.Sessions
import OpsHub.RateLimit.RateLimitGuard

/-!
# The audit log

`AuditService` and `AuditDrizzleRepository`, and the purge of `AuditCleanupService` in any number of
processes, each of which skips a tick while its last deletion is out.

* `parseInt`, `retentionDays`, `cutoff`: the retention, which need not be a number;
* `AuditState`, `step`: records, ticks, and deletions that end well or not;
* `Guarded`: `isRunning` says whether a deletion of the process is out, and no process has two;
* `Retained`: the log is the one that is never purged, except for what is older than a cutoff;
* `log_retained`: that is so in every run.
-/

namespace OpsHub

/-! ### The table -/

/-- A row of `audit_logs`; the numbers of JSON are those of any type. -/
structure AuditLog (ν : Type) where
  id : Uuid
  actorId : Option Uuid
  actorEmail : Option String
  action : String
  resourceType : String
  resourceId : Option String
  changes : Option (Json ν)
  metadata : List (String × Json ν)
  occurredAt : Time

/-- `CreateAuditLogInput`, without the id. -/
structure CreateAuditLogInput (ν : Type) where
  actorId : Option Uuid := none
  actorEmail : Option String := none
  action : String
  resourceType : String
  resourceId : Option String := none
  changes : Option (Json ν) := none
  metadata : Option (List (String × Json ν)) := none

/-- `AuditFilters`. -/
structure AuditFilters where
  actorId : Option Uuid := none
  resourceType : Option String := none
  resourceId : Option String := none
  action : Option String := none
  deriving DecidableEq, Repr

/-- `audit_logs`. -/
abbrev AuditLogs (ν : Type) := Table (fun r : AuditLog ν => r.id)

section Service

variable {ν : Type}

namespace AuditDrizzleRepository

/-- The row that `create` inserts; the database has the clock. -/
def newLog (input : CreateAuditLogInput ν) (now : Time) (newId : Uuid) : AuditLog ν where
  id := newId
  actorId := input.actorId
  actorEmail := input.actorEmail
  action := input.action
  resourceType := input.resourceType
  resourceId := input.resourceId
  changes := input.changes
  metadata := input.metadata.getD []
  occurredAt := now

/-- The texts fit into their columns. -/
def Fits (input : CreateAuditLogInput ν) : Prop :=
  input.actorEmail.all (fun text => decide (text.length ≤ 255)) = true ∧
    input.action.length ≤ 100 ∧ input.resourceType.length ≤ 60 ∧
    input.resourceId.all (fun text => decide (text.length ≤ 64)) = true

instance (input : CreateAuditLogInput ν) : Decidable (Fits input) :=
  inferInstanceAs (Decidable (_ ∧ _))

/-- `create`. -/
def create (input : CreateAuditLogInput ν) (now : Time) (newId : Uuid) (log : AuditLogs ν) :
    Except Failure (AuditLogs ν) := do
  Outcome.require (Fits input) (.error "value too long for type character varying")
  Outcome.orThrow (.duplicateKey "audit_logs") (log.insert (newLog input now newId))

/-- A filter that is left out, or empty, is none. -/
def textMatches (filter : Option String) (text : Option String) : Bool :=
  filter.all (fun f => decide (f = "") || decide (text = some f))

/-- The condition of `list`. -/
def logMatches (filters : AuditFilters) (r : AuditLog ν) : Bool :=
  filters.actorId.all (fun id => decide (r.actorId = some id)) &&
    textMatches filters.resourceType (some r.resourceType) &&
    textMatches filters.resourceId r.resourceId && textMatches filters.action (some r.action)

/-- `deleteOlderThan`. -/
def deleteOlderThan (before : ℤ) (log : AuditLogs ν) : AuditLogs ν :=
  log.deleteWhere (fun r => decide ((r.occurredAt : ℤ) < before))

end AuditDrizzleRepository

/-- `AuditService.record`: a failure, of the database or of the values, is logged and forgotten. -/
def AuditService.record (input : CreateAuditLogInput ν) (now : Time) (newId : Uuid) (ok : Bool)
    (log : AuditLogs ν) : AuditLogs ν :=
  if ok then Outcome.commit log (AuditDrizzleRepository.create input now newId log) else log

theorem AuditService.mem_record {input : CreateAuditLogInput ν} {now : Time} {newId : Uuid}
    {ok : Bool} {log : AuditLogs ν} {r : AuditLog ν}
    (h : r ∈ (AuditService.record input now newId ok log).rows) :
    r ∈ log.rows ∨ r = AuditDrizzleRepository.newLog input now newId := by
  unfold AuditService.record at h
  cases ok with
  | false => exact Or.inl h
  | true =>
    revert h
    refine Outcome.commit_induction (P := fun log' : AuditLogs ν => r ∈ log'.rows → _)
      Or.inl fun log' hcreate h => ?_
    simp only [AuditDrizzleRepository.create, Except.bind_eq_ok_iff,
      Outcome.orThrow_eq_ok_iff] at hcreate
    obtain ⟨-, -, hins⟩ := hcreate
    exact (Table.mem_insert hins).1 h

/-! ### The retention -/

/-- `parseInt(text, 10)`; `none` is `NaN`. -/
def parseInt (text : String) : Option ℤ :=
  let leading (cs : List Char) : Option ℕ :=
    match cs.takeWhile Char.isDigit with
    | [] => none
    | digits => some (Nat.ofDigitChars 10 digits 0)
  match text.toList.dropWhile jsWhiteSpace with
  | '-' :: cs => (leading cs).map (fun n => -(n : ℤ))
  | '+' :: cs => (leading cs).map (fun n => (n : ℤ))
  | cs => (leading cs).map (fun n => (n : ℤ))

namespace AuditCleanupService

/-- `retentionDays`, from `AUDIT_RETENTION_DAYS`. -/
def retentionDays (env : Option String) : Option ℤ := parseInt (env.getD "730")

/-- The cutoff of a tick: the instants of a `Date` are bounded, and an invalid one cannot be sent to
the database. -/
def cutoff (retention : Option ℤ) (now : Time) : Option ℤ :=
  (retention.map fun days => (now : ℤ) - days * msPerDay).filter
    fun before => decide (before.natAbs ≤ 8640000000000000)

/-! ### The machine -/

/-- The log, the flags `isRunning` of the processes, and the deletions that are out, each with its
process and its cutoff. -/
structure AuditState (ν : Type) where
  log : AuditLogs ν := Table.empty _
  isRunning : ℕ → Bool := fun _ => false
  deletions : List (Option (ℕ × Option ℤ)) := []

/-- What can happen. -/
inductive AuditEvent (ν : Type)
  | record (input : CreateAuditLogInput ν) (now : Time) (newId : Uuid) (ok : Bool)
  | tick (process : ℕ) (now : Time)
  /-- A deletion returns, or throws; the block `finally` follows either way. -/
  | finish (i : ℕ) (ok : Bool)

namespace AuditState

/-- `purgeExpiredRecords`, up to the deletion. -/
def tick (retention : Option ℤ) (process : ℕ) (now : Time) (s : AuditState ν) : AuditState ν :=
  if s.isRunning process then s
  else
    { s with
      isRunning := Function.update s.isRunning process true
      deletions := s.deletions ++ [some (process, cutoff retention now)] }

/-- What the deletion does; one without a valid cutoff throws. -/
def delete (before : Option ℤ) (ok : Bool) (log : AuditLogs ν) : AuditLogs ν :=
  match before with
  | some before => if ok then AuditDrizzleRepository.deleteOlderThan before log else log
  | none => log

/-- `purgeExpiredRecords`, from the deletion on. -/
def finish (i : ℕ) (ok : Bool) (s : AuditState ν) : AuditState ν :=
  match Pool.running s.deletions i with
  | some (process, before) =>
    { log := delete before ok s.log
      isRunning := Function.update s.isRunning process false
      deletions := s.deletions.set i none }
  | none => s

/-- The state after an event. -/
def step (retention : Option ℤ) (s : AuditState ν) : AuditEvent ν → AuditState ν
  | .record input now newId ok => { s with log := AuditService.record input now newId ok s.log }
  | .tick process now => s.tick retention process now
  | .finish i ok => s.finish i ok

variable {retention : Option ℤ} {es : List (AuditEvent ν)} {s p : AuditState ν} {e : AuditEvent ν}

/-- A new entry has an id of its own. -/
def Fresh (s : AuditState ν) : AuditEvent ν → Prop
  | .record _ _ newId _ => s.log.find newId = none
  | _ => True

/-- An event of the purge. -/
def isPurge : AuditEvent ν → Bool
  | .record _ _ _ _ => false
  | _ => true

/-- The records alone. -/
def records (es : List (AuditEvent ν)) : List (AuditEvent ν) := es.filter (fun e => !isPurge e)

/-! ### The guard -/

/-- The flag of a process is set exactly while a deletion of the process is out, and no process has
two of them. -/
structure Guarded (s : AuditState ν) : Prop where
  running : ∀ process, s.isRunning process = true ↔
    ∃ i before, Pool.running s.deletions i = some (process, before)
  single : ∀ i j process before before', Pool.running s.deletions i = some (process, before) →
    Pool.running s.deletions j = some (process, before') → i = j

theorem guarded_init : Guarded ({} : AuditState ν) where
  running process := iff_of_false Bool.false_ne_true (by rintro ⟨i, before, h⟩; cases h)
  single i j process before before' h := by cases h

theorem Guarded.tick (h : Guarded s) (retention : Option ℤ) (process : ℕ) (now : Time) :
    Guarded (s.tick retention process now) := by
  unfold AuditState.tick
  by_cases hrun : s.isRunning process = true
  · rw [if_pos hrun]
    exact h
  · rw [if_neg hrun]
    have hnone : ∀ i before, Pool.running s.deletions i ≠ some (process, before) :=
      fun i before hi => hrun ((h.running process).2 ⟨i, before, hi⟩)
    refine ⟨fun process' => ?_, fun i j process' before before' hi hj => ?_⟩
    · simp only [Pool.running_append]
      by_cases hp : process' = process
      · subst hp
        rw [Function.update_self]
        exact iff_of_true rfl ⟨s.deletions.length, cutoff retention now, if_pos rfl⟩
      · rw [Function.update_of_ne hp, h.running process']
        constructor
        · rintro ⟨i, before, hi⟩
          exact ⟨i, before, by rw [if_neg (Nat.ne_of_lt (Pool.running_lt hi)), hi]⟩
        · rintro ⟨i, before, hi⟩
          split at hi
          · exact absurd (congrArg Prod.fst (Option.some.inj hi)).symm hp
          · exact ⟨i, before, hi⟩
    · rw [Pool.running_append] at hi hj
      split at hi
      · rename_i hilast
        obtain ⟨rfl, -⟩ := Prod.mk.inj (Option.some.inj hi)
        split at hj
        · rename_i hjlast
          rw [hilast, hjlast]
        · exact absurd hj (hnone j before')
      · split at hj
        · obtain ⟨rfl, -⟩ := Prod.mk.inj (Option.some.inj hj)
          exact absurd hi (hnone i before)
        · exact h.single i j process' before before' hi hj

theorem Guarded.finish (h : Guarded s) (i : ℕ) (ok : Bool) : Guarded (s.finish i ok) := by
  unfold AuditState.finish
  cases hi : Pool.running s.deletions i with
  | none => exact h
  | some deletion =>
    obtain ⟨process, before⟩ := deletion
    refine ⟨fun process' => ?_, fun j k process' b b' hj hk => ?_⟩
    · simp only [Pool.running_set_none]
      by_cases hp : process' = process
      · subst hp
        rw [Function.update_self]
        refine iff_of_false Bool.false_ne_true ?_
        rintro ⟨j, before', hj⟩
        by_cases hji : j = i
        · rw [if_pos hji] at hj
          cases hj
        · rw [if_neg hji] at hj
          exact hji (h.single j i process' before' before hj hi)
      · rw [Function.update_of_ne hp, h.running process']
        constructor
        · rintro ⟨j, before', hj⟩
          refine ⟨j, before', ?_⟩
          rw [if_neg, hj]
          rintro rfl
          rw [hi] at hj
          exact hp (congrArg Prod.fst (Option.some.inj hj)).symm
        · rintro ⟨j, before', hj⟩
          split at hj
          · cases hj
          · exact ⟨j, before', hj⟩
    · rw [Pool.running_set_none] at hj hk
      split at hj
      · cases hj
      · split at hk
        · cases hk
        · exact h.single j k process' b b' hj hk

theorem guarded_step (retention : Option ℤ) (s : AuditState ν) (e : AuditEvent ν)
    (h : Guarded s) : Guarded (step retention s e) := by
  cases e with
  | record input now newId ok => exact ⟨h.running, h.single⟩
  | tick process now => exact h.tick retention process now
  | finish i ok => exact h.finish i ok

/-! ### What is lost -/

/-- An entry that a tick of the run may have had deleted. -/
def Expired (retention : Option ℤ) (es : List (AuditEvent ν)) (r : AuditLog ν) : Prop :=
  ∃ process now before, AuditEvent.tick process now ∈ es ∧ cutoff retention now = some before ∧
    (r.occurredAt : ℤ) < before

/-- The state of a run, and that of its records alone. -/
structure Related (retention : Option ℤ) (es : List (AuditEvent ν)) (s p : AuditState ν) : Prop where
  log : Table.Purged (Expired retention es) s.log p.log
  deletions : ∀ i process before, Pool.running s.deletions i = some (process, some before) →
    ∃ now, AuditEvent.tick process now ∈ es ∧ cutoff retention now = some before

theorem Related.tick (h : Related retention es s p) {process : ℕ} {now : Time}
    (hmem : AuditEvent.tick process now ∈ es) :
    Related retention es (s.tick retention process now) p := by
  unfold AuditState.tick
  by_cases hrun : s.isRunning process = true
  · rw [if_pos hrun]
    exact h
  · rw [if_neg hrun]
    refine ⟨h.log, fun i process' before hi => ?_⟩
    rw [Pool.running_append] at hi
    split at hi
    · obtain ⟨rfl, hbefore⟩ := Prod.mk.inj (Option.some.inj hi)
      exact ⟨now, hmem, hbefore⟩
    · exact h.deletions i process' before hi

theorem Related.finish (h : Related retention es s p) (i : ℕ) (ok : Bool) :
    Related retention es (s.finish i ok) p := by
  unfold AuditState.finish
  cases hi : Pool.running s.deletions i with
  | none => exact h
  | some deletion =>
    obtain ⟨process, before⟩ := deletion
    refine ⟨?_, fun j process' before' hj => ?_⟩
    · unfold delete
      cases before with
      | none => exact h.log
      | some before =>
        cases ok with
        | false => exact h.log
        | true =>
          obtain ⟨now, htick, hcutoff⟩ := h.deletions i process before hi
          exact h.log.deleteWhere_left fun r hr =>
            ⟨process, now, before, htick, hcutoff, of_decide_eq_true hr⟩
    · rw [Pool.running_set_none] at hj
      split at hj
      · cases hj
      · exact h.deletions j process' before' hj

/-- A record has the same fate with the purge and without it. -/
theorem related_record (h : Related retention es s p) {input : CreateAuditLogInput ν} {now : Time}
    {newId : Uuid} {ok : Bool} (hfresh : p.log.find newId = none) :
    Related retention es (step retention s (.record input now newId ok))
      (step retention p (.record input now newId ok)) := by
  refine ⟨?_, h.deletions⟩
  simp only [step, AuditService.record]
  cases ok with
  | false => exact h.log
  | true =>
    by_cases hfits : AuditDrizzleRepository.Fits input
    · obtain ⟨p', hp'⟩ := Table.exists_insert
        (r := AuditDrizzleRepository.newLog input now newId) hfresh
      obtain ⟨s', hs', hpurged⟩ := h.log.insert hp'
      simp only [if_true, AuditDrizzleRepository.create, Outcome.require, if_pos hfits, hp', hs']
      exact hpurged
    · simp only [if_true, AuditDrizzleRepository.create, Outcome.require, if_neg hfits]
      exact h.log

/-! ### Runs -/

/-- The log is the one that is never purged, except for entries that are older than a cutoff; a query
for entries that are not older than the cutoffs has the same answer; and the guard works. -/
structure Retained (retention : Option ℤ) (es : List (AuditEvent ν)) (s p : AuditState ν) :
    Prop where
  kept : s.log.rows.Sublist p.log.rows
  expired : ∀ r ∈ p.log.rows, r ∉ s.log.rows → Expired retention es r
  queries : ∀ (filters : AuditFilters) (since : ℤ),
    (∀ process now before, AuditEvent.tick process now ∈ es →
      cutoff retention now = some before → before ≤ since) →
    (s.log.rows.filter fun r => AuditDrizzleRepository.logMatches filters r &&
        decide (since ≤ (r.occurredAt : ℤ))) =
      p.log.rows.filter fun r => AuditDrizzleRepository.logMatches filters r &&
        decide (since ≤ (r.occurredAt : ℤ))
  guarded : Guarded s

/-- **The log is retained.**  In every order of records, ticks of any processes and ends of their
deletions, nothing is lost but what is older than a cutoff. -/
theorem log_retained (retention : Option ℤ) (es : List (AuditEvent ν))
    (hfresh : Runs.Meets (step retention) Fresh {} (records es)) :
    Retained retention es (Runs.run (step retention) {} es)
      (Runs.run (step retention) {} (records es)) := by
  have hrelated : Related retention es (Runs.run (step retention) {} es)
      (Runs.run (step retention) {} (records es)) := by
    have hdom : ∀ e ∈ es, e ∈ es := fun _ he => he
    refine Runs.run_quiet (fun s p e h hmem hpurge => ?_)
      (fun s p e h hmem hpurge hok => ?_)
      ⟨Table.Purged.refl _ _, fun i process before hi => by cases hi⟩ hdom hfresh
    · cases e with
      | record input now newId ok => cases hpurge
      | tick process now => exact h.tick hmem
      | finish i ok => exact h.finish i ok
    · cases e with
      | record input now newId ok => exact related_record h hok
      | tick process now => cases hpurge
      | finish i ok => cases hpurge
  refine ⟨hrelated.log.sublist, fun r hr hnot => (hrelated.log.dead r hr).resolve_left hnot,
    fun filters since hsince => hrelated.log.filter_eq fun r hr => ?_,
    Runs.run_invariant (guarded_step retention) guarded_init es⟩
  obtain ⟨process, now, before, htick, hcutoff, hlt⟩ := hr
  have hle := hsince process now before htick hcutoff
  rw [decide_eq_false (by omega), Bool.and_false]

/-- Not an empty promise: an entry of 800 days is deleted while one of a day stays. -/
theorem log_retained_deleted :
    Retained (some 730) [.record { action := "a", resourceType := "b" } 0 1 true,
        .record { action := "a", resourceType := "b" } (799 * msPerDay) 2 true,
        .tick 0 (800 * msPerDay), .finish 0 true]
      (Runs.run (step (ν := ℕ) (some 730)) {} [.record { action := "a", resourceType := "b" } 0 1 true,
        .record { action := "a", resourceType := "b" } (799 * msPerDay) 2 true,
        .tick 0 (800 * msPerDay), .finish 0 true])
      (Runs.run (step (some 730)) {} (records [
        .record { action := "a", resourceType := "b" } 0 1 true,
        .record { action := "a", resourceType := "b" } (799 * msPerDay) 2 true,
        .tick 0 (800 * msPerDay), .finish 0 true])) :=
  log_retained (some 730) _ ⟨rfl, rfl, trivial⟩

example : retentionDays (some " 90 days") = some 90 := by decide

example : retentionDays (some "unlimited") = none := by decide

end AuditState

end AuditCleanupService

end Service

end OpsHub
