import OpsHub.Access.Administration
import OpsHub.Lib.Timeline

/-!
# Coherence of the permission cache

`AuthzService.resolve` reads the cache, reads the database and writes the cache in three steps;
`invalidate` ends every change of a user's assignments.  This module watches the machine of
`Administration`: it records the tables of all states, when the last change of each user's
assignments has returned, from which state each entry of the cache comes, and what the checks
have answered.

* `Watch`, `Watch.step`: the machine with this record;
* `Fresh`: an answer is as if computed from assignments not older than the last change that had
  returned when the check started, at an instant not before the start, and from lists of
  permissions that lag by the time to live at most;
* `Orderly`: the condition on a step;
* `Coherent`: the invariant;
* `run_fresh`: all answers are fresh in runs that are orderly;
* `not_fresh`: the four ways in which an answer can be stale.
-/

namespace OpsHub

namespace CacheCoherence

open Authz Administration

/-! ### The record -/

/-- The time to live of an entry, in milliseconds. -/
def ttl : ℕ := AuthzService.cacheTtlSeconds * 1000

/-- What is recorded of a call: the settled states and the instant when it started, the state
from which it has read the permissions of a user, and the state after its last statement on
assignments. -/
structure Note where
  since : Uuid → ℕ
  start : Time
  read : ℕ
  point : ℕ

/-- What `resolve` has returned to a check: `since` is the state in which the last change of the
user's assignments had its effect, of those that had returned when the check started. -/
structure Answer where
  userId : Uuid
  since : ℕ
  start : Time
  effective : EffectivePermissions
  index : ℕ
  time : Time

/-- The machine and the record. -/
structure Watch where
  state : State
  timeline : Timeline Tables
  /-- The state after the last change of a user's assignments that has returned. -/
  settled : Uuid → ℕ
  /-- The state from which the entry of a user has been computed. -/
  origins : Uuid → ℕ
  notes : ℕ → Note
  answers : List Answer

/-- Nothing has been called yet, and the cache is empty. -/
def Watch.initial (tables : Tables) (now : Time) : Watch where
  state := State.initial tables now
  timeline := Timeline.start now tables
  settled := fun _ => 0
  origins := fun _ => 0
  notes := fun _ => ⟨fun _ => 0, now, 0, 0⟩
  answers := []

namespace Watch

/-- The position of the next state. -/
def next (w : Watch) : ℕ := w.timeline.index + 1

/-- What the cache answers. -/
def cached (w : Watch) (userId : Uuid) : Option EffectivePermissions :=
  w.state.store.permissions.get w.state.now userId

/-- The statement that is executed, with the note of its call. -/
def executing (w : Watch) : Event → Option (Note × Statement)
  | .advance i _ =>
    match w.state.calls[i]? with
    | some (.authz (statement :: _)) => some (w.notes i, statement)
    | _ => none
  | _ => none

/-- Those who hold the role that is deleted. -/
def losing (w : Watch) : Event → List Uuid
  | .advance i _ =>
    match w.state.calls[i]? with
    | some (.deleteRole roleId) =>
      (w.state.store.tables.userRoleAssignments.rows.filter
        (fun a => decide (a.roleId = roleId))).map UserRoleAssignment.userId
    | _ => []
  | _ => []

/-- The settled states after an event: `invalidate` is the last step of a change of assignments,
and a deletion of a role returns at once. -/
def settledAfter (w : Watch) (e : Event) (userId : Uuid) : ℕ :=
  match w.executing e with
  | some (note, .invalidate userId') =>
    if userId = userId' then max (w.settled userId) note.point else w.settled userId
  | _ => if userId ∈ w.losing e then w.next else w.settled userId

def originsAfter (w : Watch) (e : Event) (userId : Uuid) : ℕ :=
  match w.executing e with
  | some (note, .setJson userId' _ _) => if userId = userId' then note.read else w.origins userId
  | _ => w.origins userId

/-- The note of a call after a statement. -/
def noteAfter (w : Watch) (note : Note) : Statement → Note
  | .select _ _ => { note with read := w.next }
  | .findEquivalent _ => { note with point := w.next }
  | .insert _ => { note with point := w.next }
  | .revoke _ => { note with point := w.next }
  | .listForUser _ _ _ => { note with point := w.next }
  | _ => note

def notesAfter (w : Watch) : Event → ℕ → Note
  | .begin _, j => if j = w.state.calls.length then ⟨w.settled, w.state.now, 0, 0⟩ else w.notes j
  | .advance i newId, j =>
    match w.executing (.advance i newId) with
    | some (note, statement) => if j = i then w.noteAfter note statement else w.notes j
    | none => w.notes j
  | .tick _, j => w.notes j

/-- What a check answers with an event. -/
def answer (w : Watch) (e : Event) : Option Answer :=
  match w.executing e with
  | some (note, .getJson userId .check) => (w.cached userId).map fun effective =>
    ⟨userId, note.since userId, note.start, effective, w.next, w.state.now⟩
  | some (note, .setJson userId effective .check) =>
    some ⟨userId, note.since userId, note.start, effective, w.next, w.state.now⟩
  | _ => none

/-- The watched machine after an event. -/
def step (catalog : List PermissionKey) (w : Watch) (e : Event) : Watch where
  state := Administration.step catalog w.state e
  timeline := w.timeline.record (Administration.step catalog w.state e).now
    (Administration.step catalog w.state e).store.tables
  settled := w.settledAfter e
  origins := w.originsAfter e
  notes := w.notesAfter e
  answers := w.answers ++ (w.answer e).toList

end Watch

/-! ### The guarantee -/

/-- What a user holds by the assignments of one state and the roles of another. -/
def effectiveOf (assignments roles : Tables) (now : Time) (userId : Uuid) : EffectivePermissions :=
  AuthzService.effective { assignments with rolePermissions := roles.rolePermissions } now userId

/-- The answer is as if computed from the assignments of a state at or after the last change that
had returned when the check started, and from lists of permissions that were current within the
time to live, at an instant during the check. -/
def Fresh (timeline : Timeline Tables) (a : Answer) : Prop :=
  ∃ j ≤ a.index, ∃ k ≤ a.index, ∃ assignments ∈ timeline.get j, ∃ roles ∈ timeline.get k,
    ∃ now, a.since ≤ j ∧ a.start ≤ roles.1 + ttl ∧ a.start ≤ now ∧ now ≤ a.time ∧
      a.effective = effectiveOf assignments.2 roles.2 now a.userId

/-! ### The condition -/

namespace Watch

/-- The user whose entry is written, with the state from which it has been computed. -/
def filling (w : Watch) (e : Event) : Option (Uuid × ℕ) :=
  match w.executing e with
  | some (note, .setJson userId _ _) => some (userId, note.read)
  | _ => none

/-- The user for whom a check finds an entry, with the start of the check. -/
def serving (w : Watch) (e : Event) : Option (Uuid × Time) :=
  match w.executing e with
  | some (note, .getJson userId .check) =>
    (w.cached userId).map fun _ => (userId, note.start)
  | _ => none

end Watch

/-- The condition on a step. -/
structure Orderly (w : Watch) (e : Event) : Prop where
  /-- What is written to the cache has been read after the last change that has returned. -/
  fill : ∀ entry ∈ w.filling e, w.settled entry.1 ≤ entry.2
  /-- Nobody who loses a role by its deletion has an entry. -/
  delete : ∀ userId ∈ w.losing e, w.cached userId = none
  /-- No assignment has expired between the computation of an entry and the start of the check. -/
  unexpired : ∀ served ∈ w.serving e, ∀ origin ∈ w.timeline.get (w.origins served.1),
    ∀ a ∈ origin.2.userRoleAssignments.rows, a.userId = served.1 →
      AuthzService.Unexpired origin.1 a → AuthzService.Unexpired served.2 a
  /-- The entry is not older than the time to live, or the lists have not been edited since. -/
  current : ∀ served ∈ w.serving e, ∀ origin ∈ w.timeline.get (w.origins served.1),
    served.2 ≤ origin.1 + ttl ∨
      origin.2.rolePermissions = w.state.store.tables.rolePermissions

instance (w : Watch) (e : Event) : Decidable (Orderly w e) :=
  decidable_of_iff
    ((∀ entry ∈ w.filling e, w.settled entry.1 ≤ entry.2) ∧
      (∀ userId ∈ w.losing e, w.cached userId = none) ∧
      (∀ served ∈ w.serving e, ∀ origin ∈ w.timeline.get (w.origins served.1),
        ∀ a ∈ origin.2.userRoleAssignments.rows, a.userId = served.1 →
          AuthzService.Unexpired origin.1 a → AuthzService.Unexpired served.2 a) ∧
      ∀ served ∈ w.serving e, ∀ origin ∈ w.timeline.get (w.origins served.1),
        served.2 ≤ origin.1 + ttl ∨
          origin.2.rolePermissions = w.state.store.tables.rolePermissions)
    ⟨fun h => ⟨h.1, h.2.1, h.2.2.1, h.2.2.2⟩,
      fun h => ⟨h.fill, h.delete, h.unexpired, h.current⟩⟩

/-! ### The statements of `resolve` -/

/-- The statement is one of `resolve`. -/
def Resolves : Statement → Prop
  | .getJson _ _ => True
  | .select _ _ => True
  | .setJson _ _ _ => True
  | _ => False

section Resolves

variable {now : Time} {newId : Uuid} {store : Store} {statement : Statement}
  {rest next : List Statement}

/-- What follows when `resolve` has returned. -/
theorem not_resolves_resume {caller : Caller} {effective : EffectivePermissions}
    (h : caller.resume effective = .ok next) : ∀ x ∈ next, ¬ Resolves x := by
  cases caller with
  | check =>
    obtain rfl := Except.ok.inj h
    exact List.forall_mem_nil _
  | assignRole command actor role =>
    obtain ⟨-, input, -, rfl⟩ := resume_assignRole_ok h
    intro x hx
    simp only [settle, List.mem_cons, List.not_mem_nil, or_false] at hx
    rcases hx with rfl | rfl | rfl <;> exact id

theorem not_resolves_reconcile (tables : Tables) (userId : Uuid) (roleKeys : List String)
    (actor : Uuid) : ∀ x ∈ reconcile tables userId roleKeys actor, ¬ Resolves x := by
  intro x hx
  simp only [reconcile, settle, List.mem_append, List.mem_map, List.mem_cons, List.not_mem_nil,
    or_false] at hx
  rcases hx with (⟨roleId, _, rfl⟩ | ⟨a, _, rfl⟩) | rfl | rfl <;> exact id

/-- The three steps of `resolve` follow one another, and no other statement leads to them. -/
theorem exec_resolves (hexec : (exec now newId store statement).2 = .ok next) :
    (∀ x ∈ next, ¬ Resolves x) ∨
      (∃ userId caller, statement = .getJson userId caller ∧ next = [.select userId caller]) ∨
      ∃ userId caller, statement = .select userId caller ∧
        next = [.setJson userId (AuthzService.effective store.tables now userId) caller] := by
  cases statement with
  | getJson userId caller =>
    simp only [exec] at hexec
    split at hexec
    · exact Or.inl (not_resolves_resume hexec)
    · obtain rfl := Except.ok.inj hexec
      exact Or.inr (Or.inl ⟨userId, caller, rfl, rfl⟩)
  | select userId caller =>
    obtain rfl := Except.ok.inj hexec
    exact Or.inr (Or.inr ⟨userId, caller, rfl, rfl⟩)
  | setJson userId effective caller => exact Or.inl (not_resolves_resume hexec)
  | listForUser userId roleKeys actor =>
    obtain rfl := Except.ok.inj hexec
    exact Or.inl (not_resolves_reconcile _ _ _ _)
  | findEquivalent input =>
    simp only [exec] at hexec
    split at hexec
    · obtain rfl := Except.ok.inj hexec
      exact Or.inl (List.forall_mem_nil _)
    · obtain rfl := Except.ok.inj hexec
      exact Or.inl (List.forall_mem_singleton.2 id)
  | insert input =>
    simp only [exec] at hexec
    split at hexec
    · obtain rfl := Except.ok.inj hexec
      exact Or.inl (List.forall_mem_nil _)
    · cases hexec
  | selectKeys userId =>
    obtain rfl := Except.ok.inj hexec
    exact Or.inl (List.forall_mem_singleton.2 id)
  | revoke id =>
    obtain rfl := Except.ok.inj hexec
    exact Or.inl (List.forall_mem_nil _)
  | updateRoles userId keys =>
    obtain rfl := Except.ok.inj hexec
    exact Or.inl (List.forall_mem_nil _)
  | invalidate userId =>
    obtain rfl := Except.ok.inj hexec
    exact Or.inl (List.forall_mem_nil _)

/-- What a call has left after a statement, if it was to resolve at most with this one. -/
theorem advance_resolves (hrest : ∀ x ∈ rest, ¬ Resolves x) :
    (∀ x ∈ (Authz.advance now newId store (statement :: rest)).2, ¬ Resolves x) ∨
      (∃ userId caller, statement = .getJson userId caller ∧
        (Authz.advance now newId store (statement :: rest)).2 = .select userId caller :: rest) ∨
      ∃ userId caller, statement = .select userId caller ∧
        (Authz.advance now newId store (statement :: rest)).2 =
          .setJson userId (AuthzService.effective store.tables now userId) caller :: rest := by
  rw [Authz.advance]
  split
  · rename_i store' next hexec
    have hnext : (exec now newId store statement).2 = .ok next := by rw [hexec]
    rcases exec_resolves hnext with hnone | ⟨userId, caller, hget, rfl⟩ | ⟨userId, caller, hselect, rfl⟩
    · refine Or.inl fun x hx => ?_
      rcases List.mem_append.1 hx with hx | hx
      · exact hnone x hx
      · exact hrest x hx
    · exact Or.inr (Or.inl ⟨userId, caller, hget, rfl⟩)
    · exact Or.inr (Or.inr ⟨userId, caller, hselect, rfl⟩)
  · exact Or.inl (List.forall_mem_nil _)

/-- How a call begins. -/
theorem begin_resolves {catalog : List PermissionKey} {operation : Operation} {call : Call}
    {tables : Tables} (hbegin : operation.begin catalog tables = .ok call) :
    (∃ userId caller, call.statements = [.getJson userId caller]) ∨
      ∀ x ∈ call.statements, ¬ Resolves x := by
  have hbegins := begins_of_begin hbegin
  generalize call.statements = statements at hbegins
  cases hbegins with
  | check userId => exact Or.inl ⟨userId, .check, rfl⟩
  | assignRole hrole => exact Or.inl ⟨_, _, rfl⟩
  | revokeAssignment hfind =>
    refine Or.inr fun x hx => ?_
    simp only [settle, List.mem_cons, List.not_mem_nil, or_false] at hx
    rcases hx with rfl | rfl | rfl <;> exact id
  | syncUserRolesByKeys userId roleKeys actor => exact Or.inr (List.forall_mem_singleton.2 id)
  | role => exact Or.inr (List.forall_mem_nil _)

end Resolves

/-! ### The invariant -/

/-- What a note says about a call. -/
structure NoteCoherent (timeline : Timeline Tables) (settled : Uuid → ℕ) (now : Time) (note : Note)
    (statements : List Statement) : Prop where
  start : note.start ≤ now
  since : ∀ userId, note.since userId ≤ settled userId
  point : note.point ≤ timeline.index
  /-- Only the next statement of a call can be one of `resolve`. -/
  tail : ∀ x ∈ statements.tail, ¬ Resolves x
  /-- What is to be written has been read after the call started. -/
  fill : ∀ (userId : Uuid) (effective : EffectivePermissions) (caller : Caller),
    .setJson userId effective caller ∈ statements →
    Timeline.Computed AuthzService.effective timeline note.read userId effective ∧
      (∀ origin ∈ timeline.get note.read, note.start ≤ origin.1) ∧
      ∀ userId', note.since userId' ≤ note.read

/-- **The invariant.** -/
structure Coherent (w : Watch) : Prop where
  instants : ∀ j, ∀ x ∈ w.timeline.get j, x.1 ≤ w.state.now
  settled : ∀ userId, w.settled userId ≤ w.timeline.index
  /-- An entry is not older than the last change that has returned. -/
  cached : ∀ userId, ∀ effective ∈ w.cached userId, w.settled userId ≤ w.origins userId ∧
    Timeline.Computed AuthzService.effective w.timeline (w.origins userId) userId effective
  calls : ∀ i, ∀ call ∈ w.state.calls[i]?,
    NoteCoherent w.timeline w.settled w.state.now (w.notes i) call.statements
  answers : ∀ a ∈ w.answers, Fresh w.timeline a

section Invariant

variable {catalog : List PermissionKey} {w : Watch} {e : Event} {timeline : Timeline Tables}
  {settled settled' : Uuid → ℕ} {now now' : Time} {note : Note} {statements : List Statement}
  {tables : Tables} {userId : Uuid} {effective : EffectivePermissions}

/-- A call that waits. -/
theorem NoteCoherent.record (h : NoteCoherent timeline settled now note statements)
    (hnow : now ≤ now') (hsettled : ∀ userId, settled userId ≤ settled' userId) :
    NoteCoherent (timeline.record now' tables) settled' now' note statements := by
  refine ⟨h.start.trans hnow, fun userId => (h.since userId).trans (hsettled userId), ?_, h.tail,
    fun userId effective caller hmem => ?_⟩
  · rw [Timeline.index_record]
    exact h.point.trans (Nat.le_succ _)
  · obtain ⟨hcomputed, hstart, hsince⟩ := h.fill userId effective caller hmem
    refine ⟨hcomputed.record, fun origin horigin => ?_, hsince⟩
    obtain ⟨instant, tables', hget, -⟩ := hcomputed
    obtain rfl := Option.some.inj ((Timeline.get_record hget).symm.trans horigin)
    exact hstart _ hget

/-- A call in which nothing is left to resolve. -/
theorem NoteCoherent.of_not_resolves (h : NoteCoherent timeline settled now note statements)
    {statements' : List Statement} (hnone : ∀ x ∈ statements', ¬ Resolves x) :
    NoteCoherent timeline settled now note statements' :=
  ⟨h.start, h.since, h.point, fun x hx => hnone x (List.mem_of_mem_tail hx),
    fun _ _ _ hmem => absurd trivial (hnone _ hmem)⟩

/-- Recorded answers stay fresh. -/
theorem Fresh.record {a : Answer} (h : Fresh timeline a) : Fresh (timeline.record now tables) a := by
  obtain ⟨j, hj, k, hk, assignments, hassignments, roles, hroles, hrest⟩ := h
  exact ⟨j, hj, k, hk, assignments, Timeline.get_record hassignments, roles,
    Timeline.get_record hroles, hrest⟩

theorem effectiveOf_eq {assignments roles : Tables}
    (h : assignments.rolePermissions = roles.rolePermissions) (now : Time) (userId : Uuid) :
    effectiveOf assignments roles now userId = AuthzService.effective assignments now userId := by
  rw [effectiveOf, ← h]

/-- A user holds the same at two instants between which no assignment of theirs expires. -/
theorem effective_eq_of_unexpired (hnow : now ≤ now')
    (h : ∀ a ∈ tables.userRoleAssignments.rows, a.userId = userId →
      AuthzService.Unexpired now a → AuthzService.Unexpired now' a) :
    AuthzService.effective tables now' userId = AuthzService.effective tables now userId := by
  have hassignments : AuthzService.assignments tables now' userId =
      AuthzService.assignments tables now userId := by
    refine List.filter_congr fun a ha => decide_eq_decide.2 (and_congr_right fun huser => ?_)
    constructor
    · intro hlate expiresAt hexpiry
      exact Nat.lt_of_le_of_lt hnow (hlate expiresAt hexpiry)
    · exact h a ha huser
  rw [AuthzService.effective, AuthzService.effective, AuthzService.joined, AuthzService.joined,
    hassignments]

/-! ### What an event does to the record -/

/-- The executed statement is the next one of the call. -/
theorem executing_eq_some {statement : Statement}
    (h : w.executing e = some (note, statement)) : ∃ i newId rest, e = .advance i newId ∧
      w.state.calls[i]? = some (.authz (statement :: rest)) ∧ note = w.notes i := by
  cases e with
  | advance i newId =>
    simp only [Watch.executing] at h
    split at h
    · rename_i statement' rest hcall
      obtain ⟨rfl, rfl⟩ := Prod.mk.inj (Option.some.inj h)
      exact ⟨i, newId, rest, rfl, hcall, rfl⟩
    · cases h
  | begin operation => cases h
  | tick duration => cases h

theorem executing_statement {i : ℕ} {statement : Statement} {rest : List Statement}
    (hcall : w.state.calls[i]? = some (.authz (statement :: rest))) (newId : Uuid) :
    w.executing (.advance i newId) = some (w.notes i, statement) := by
  simp only [Watch.executing, hcall]

/-- A call without statements executes none. -/
theorem executing_eq_none {i : ℕ} {call : Call} (hcall : w.state.calls[i]? = some call)
    (hnil : call.statements = []) (newId : Uuid) : w.executing (.advance i newId) = none := by
  simp only [Watch.executing, hcall]
  split
  · rename_i statement rest hsome
    obtain rfl := Option.some.inj hsome
    cases hnil
  · rfl

theorem settledAfter_eq (hinvalidate : ∀ note, w.executing e ≠ some (note, .invalidate userId))
    (hlosing : userId ∉ w.losing e) : w.settledAfter e userId = w.settled userId := by
  unfold Watch.settledAfter
  split
  · rename_i note userId' hexecuting
    refine if_neg ?_
    rintro rfl
    exact hinvalidate note hexecuting
  · exact if_neg hlosing

theorem settled_le_settledAfter (h : Coherent w) (e : Event) (userId : Uuid) :
    w.settled userId ≤ w.settledAfter e userId := by
  unfold Watch.settledAfter
  split
  · split
    · exact le_max_left _ _
    · exact Nat.le_refl _
  · split
    · exact (h.settled userId).trans (Nat.le_succ _)
    · exact Nat.le_refl _

theorem settledAfter_le (h : Coherent w) (e : Event) (userId : Uuid) :
    w.settledAfter e userId ≤ w.next := by
  have hold : w.settled userId ≤ w.next := (h.settled userId).trans (Nat.le_succ _)
  unfold Watch.settledAfter
  split
  · rename_i note userId' hexecuting
    obtain ⟨i, newId, rest, rfl, hcall, rfl⟩ := executing_eq_some hexecuting
    split
    · exact max_le hold ((h.calls i _ hcall).point.trans (Nat.le_succ _))
    · exact hold
  · split
    · exact Nat.le_refl _
    · exact hold

/-- What the cache answers after an event: what is written, or what it answered before. -/
theorem cached_step {s' : State} (hstep : Step catalog w.state e s')
    (hget : s'.store.permissions.get s'.now userId = some effective) :
    (∃ note caller, w.executing e = some (note, .setJson userId effective caller)) ∨
      (w.cached userId = some effective ∧
        (∀ note, w.executing e ≠ some (note, .invalidate userId)) ∧
        w.originsAfter e userId = w.origins userId) := by
  have hquiet : w.executing e = none → s'.store.permissions = w.state.store.permissions →
      w.cached userId = some effective ∧
        (∀ note, w.executing e ≠ some (note, .invalidate userId)) ∧
        w.originsAfter e userId = w.origins userId := by
    intro hexecuting hpermissions
    refine ⟨?_, fun note => by simp [hexecuting], by simp [Watch.originsAfter, hexecuting]⟩
    rw [hpermissions] at hget
    exact TtlCache.get_of_le hstep.now_le hget
  cases hstep with
  | refused hbegin => exact Or.inr (hquiet rfl rfl)
  | absent hcall => exact Or.inr (hquiet (by simp only [Watch.executing, hcall]) rfl)
  | begin hbegin => exact Or.inr (hquiet rfl rfl)
  | createRole hcall hok => exact Or.inr (hquiet (executing_eq_none hcall rfl _) rfl)
  | setRolePermissions hcall hok => exact Or.inr (hquiet (executing_eq_none hcall rfl _) rfl)
  | deleteRole hcall => exact Or.inr (hquiet (executing_eq_none hcall rfl _) rfl)
  | finish hcall hcallQuiet hended =>
    exact Or.inr (hquiet (executing_eq_none hcall hcallQuiet.statements_eq _) rfl)
  | tick duration => exact Or.inr (hquiet rfl rfl)
  | @statement i newId statement rest hcall =>
    have hexecuting := executing_statement hcall newId
    rw [hexecuting]
    rcases (authzFrame w.state.now newId w.state.store statement).permissions userId effective hget
      with hold | hentry
    · cases statement with
      | setJson userId' effective' caller =>
        by_cases huser : userId = userId'
        · -- the entry is replaced by what is written
          subst huser
          obtain rfl : effective = effective' := TtlCache.get_set_self hget
          exact Or.inl ⟨w.notes i, caller, rfl⟩
        · refine Or.inr ⟨hold, fun note => by simp, ?_⟩
          simp [Watch.originsAfter, hexecuting, huser]
      | invalidate userId' =>
        refine Or.inr ⟨hold, fun note hnote => ?_, by simp [Watch.originsAfter, hexecuting]⟩
        obtain ⟨-, hstatement⟩ := Prod.mk.inj (Option.some.inj hnote)
        obtain rfl : userId' = userId := Statement.invalidate.inj hstatement
        have hnone : (w.state.store.permissions.del userId').get w.state.now userId' =
            some effective := hget
        rw [TtlCache.get_del_self] at hnone
        cases hnone
      | _ => exact Or.inr ⟨hold, fun note => by simp, by simp [Watch.originsAfter, hexecuting]⟩
    · cases statement with
      | setJson userId' effective' caller =>
        obtain ⟨rfl, rfl⟩ := Prod.mk.inj (Option.some.inj hentry)
        exact Or.inl ⟨w.notes i, caller, rfl⟩
      | _ => cases hentry

/-- The note of a call after one of its statements. -/
theorem noteCoherent_executed (h : Coherent w) {i : ℕ} {newId : Uuid} {statement : Statement}
    {rest : List Statement} (hcall : w.state.calls[i]? = some (.authz (statement :: rest))) :
    NoteCoherent
      (w.timeline.record w.state.now
        (exec w.state.now newId w.state.store statement).1.tables)
      (w.settledAfter (.advance i newId)) w.state.now (w.noteAfter (w.notes i) statement)
      (Authz.advance w.state.now newId w.state.store (statement :: rest)).2 := by
  have hold := h.calls i _ hcall
  have htail : ∀ x ∈ rest, ¬ Resolves x := hold.tail
  have hshape := @advance_resolves w.state.now newId w.state.store statement rest htail
  have hsettled := settled_le_settledAfter h (.advance i newId)
  have hkept : (w.noteAfter (w.notes i) statement).start = (w.notes i).start ∧
      (w.noteAfter (w.notes i) statement).since = (w.notes i).since ∧
      (w.noteAfter (w.notes i) statement).point ≤ w.next := by
    have hpoint : (w.notes i).point ≤ w.next := hold.point.trans (Nat.le_succ _)
    cases statement <;>
      first | exact ⟨rfl, rfl, hpoint⟩ | exact ⟨rfl, rfl, Nat.le_refl _⟩
  obtain ⟨hstart, hsince, hpoint⟩ := hkept
  refine ⟨hstart ▸ hold.start, fun userId => ?_, ?_, ?_, ?_⟩
  · rw [hsince]
    exact (hold.since userId).trans (hsettled userId)
  · rw [Timeline.index_record]
    exact hpoint
  · -- only the first of the new statements can be one of `resolve`
    rcases hshape with hnone | ⟨_, _, -, hnew⟩ | ⟨_, _, -, hnew⟩
    · exact fun x hx => hnone x (List.mem_of_mem_tail hx)
    · rw [hnew]
      exact htail
    · rw [hnew]
      exact htail
  · intro userId effective caller hmem
    rcases hshape with hnone | ⟨_, _, -, hnew⟩ | ⟨userId', caller', rfl, hnew⟩
    · exact absurd trivial (hnone _ hmem)
    · rw [hnew] at hmem
      rcases List.mem_cons.1 hmem with heq | hrest
      · cases heq
      · exact absurd trivial (htail _ hrest)
    · -- the permissions have just been read
      rw [hnew] at hmem
      rcases List.mem_cons.1 hmem with heq | hrest
      · obtain ⟨rfl, rfl, rfl⟩ := Statement.setJson.inj heq
        refine ⟨⟨w.state.now, _, Timeline.get_record_latest, rfl⟩, fun origin horigin => ?_,
          fun userId' => ?_⟩
        · obtain rfl := Option.some.inj (Timeline.get_record_latest.symm.trans horigin)
          exact hold.start
        · exact ((hold.since userId').trans (h.settled userId')).trans (Nat.le_succ _)
      · exact absurd trivial (htail _ hrest)

/-- The notes of the calls after an event. -/
theorem calls_step (h : Coherent w) {s' : State} (hstep : Step catalog w.state e s') (i : ℕ)
    (call : Call) (hi : s'.calls[i]? = some call) :
    NoteCoherent (w.timeline.record s'.now s'.store.tables) (w.settledAfter e) s'.now
      (w.notesAfter e i) call.statements := by
  have hwaits : ∀ j call, w.state.calls[j]? = some call →
      NoteCoherent (w.timeline.record s'.now s'.store.tables) (w.settledAfter e) s'.now (w.notes j)
        call.statements := fun j call hj =>
    (h.calls j call hj).record hstep.now_le (settled_le_settledAfter h e)
  have hbegin : ∀ operation j call, w.state.calls[j]? = some call →
      w.notesAfter (.begin operation) j = w.notes j := by
    intro operation j call hj
    have hlt := (List.getElem?_eq_some_iff.1 hj).1
    exact if_neg (Nat.ne_of_lt hlt)
  -- a call without statements ends
  have hends : ∀ j newId call call', w.state.calls[j]? = some call → call.statements = [] →
      call'.statements = [] → e = .advance j newId → ∀ call'',
      (w.state.calls.set j call')[i]? = some call'' →
      NoteCoherent (w.timeline.record s'.now s'.store.tables) (w.settledAfter e) s'.now
        (w.notesAfter e i) call''.statements := by
    rintro j newId call call' hj hnil hended rfl call'' hcall''
    have hnotes : w.notesAfter (.advance j newId) i = w.notes i := by
      simp only [Watch.notesAfter, executing_eq_none hj hnil newId]
    rw [hnotes]
    rcases Pool.get_set_cases hcall'' with ⟨rfl, rfl⟩ | ⟨-, hold⟩
    · rw [hended]
      exact (hwaits i call hj).of_not_resolves (List.forall_mem_nil _)
    · exact hwaits i _ hold
  cases hstep with
  | refused hrefused =>
    rw [hbegin _ i call hi]
    exact hwaits i call hi
  | @absent j newId hcall =>
    have hnotes : w.notesAfter (.advance j newId) i = w.notes i := by
      simp only [Watch.notesAfter, Watch.executing, hcall]
    rw [hnotes]
    exact hwaits i call hi
  | @begin operation call' hcall =>
    rcases Pool.get_append_cases hi with ⟨rfl, rfl⟩ | hold
    · -- the note of the new call is what the watch knows at its start
      have hnote : w.notesAfter (.begin operation) w.state.calls.length =
          ⟨w.settled, w.state.now, 0, 0⟩ := if_pos rfl
      rw [hnote]
      have hsettled := settled_le_settledAfter h (.begin operation)
      rcases begin_resolves hcall with ⟨userId, caller, hstatements⟩ | hnone
      · rw [hstatements]
        exact ⟨Nat.le_refl _, hsettled, Nat.zero_le _, List.forall_mem_nil _,
          fun _ _ _ hmem => (nomatch List.mem_singleton.1 hmem)⟩
      · exact ⟨Nat.le_refl _, hsettled, Nat.zero_le _, fun x hx => hnone x (List.mem_of_mem_tail hx),
          fun _ _ _ hmem => absurd trivial (hnone _ hmem)⟩
    · rw [hbegin _ i call hold]
      exact hwaits i call hold
  | createRole hcall hok => exact hends _ _ _ .finished hcall rfl rfl rfl call hi
  | setRolePermissions hcall hok =>
    exact hends _ _ _ .finished hcall rfl rfl rfl call hi
  | deleteRole hcall => exact hends _ _ _ .finished hcall rfl rfl rfl call hi
  | finish hcall hquiet hended =>
    exact hends _ _ _ _ hcall hquiet.statements_eq hended.statements_eq rfl call hi
  | tick duration => exact hwaits i call hi
  | @statement j newId statement rest hcall =>
    have hexecuting := executing_statement hcall newId
    rcases Pool.get_set_cases hi with ⟨rfl, rfl⟩ | ⟨hne, hold⟩
    · have hnote : w.notesAfter (.advance i newId) i = w.noteAfter (w.notes i) statement := by
        simp only [Watch.notesAfter, hexecuting, if_true]
      rw [hnote]
      exact noteCoherent_executed h hcall
    · have hnote : w.notesAfter (.advance j newId) i = w.notes i := by
        simp only [Watch.notesAfter, hexecuting, if_neg hne]
      rw [hnote]
      exact hwaits i call hold

/-- **What a check answers is fresh.** -/
theorem fresh_answer (h : Coherent w) (hok : Orderly w e) {a : Answer} (ha : w.answer e = some a) :
    Fresh (w.step catalog e).timeline a := by
  unfold Watch.answer at ha
  split at ha
  · -- the check finds an entry
    rename_i note userId hexecuting
    obtain ⟨i, newId, rest, rfl, hcall, rfl⟩ := executing_eq_some hexecuting
    obtain ⟨effective, hcached, rfl⟩ := Option.map_eq_some_iff.1 ha
    obtain ⟨horigin, instant, tables, hget, hcomputed⟩ := h.cached userId effective hcached
    have hnote := h.calls i _ hcall
    have hserving : w.serving (.advance i newId) = some (userId, (w.notes i).start) := by
      simp only [Watch.serving, hexecuting, hcached, Option.map_some]
    have hinstant : instant ≤ w.state.now := h.instants _ _ hget
    have hindex : w.origins userId ≤ w.next :=
      (Timeline.le_index (by rw [hget]; exact Option.some_ne_none _)).trans (Nat.le_succ _)
    have hstate := step_statement catalog hcall newId
    have hlists : (Administration.step catalog w.state (.advance i newId)).store.tables.rolePermissions =
        w.state.store.tables.rolePermissions := by
      have hframe := congrArg Tables.rolePermissions
        (authzFrame w.state.now newId w.state.store (.getJson userId .check)).tables
      rw [hstate]
      exact hframe
    have hnow : (Administration.step catalog w.state (.advance i newId)).now = w.state.now := by
      rw [hstate]
      rfl
    -- at the start of the check, or when the entry was computed if that was later
    have heffective : ∃ now, (w.notes i).start ≤ now ∧ now ≤ w.state.now ∧
        effective = AuthzService.effective tables now userId := by
      by_cases hlate : (w.notes i).start ≤ instant
      · exact ⟨instant, hlate, hinstant, hcomputed⟩
      · refine ⟨(w.notes i).start, Nat.le_refl _, hnote.start, ?_⟩
        rw [hcomputed]
        exact (effective_eq_of_unexpired (Nat.le_of_not_le hlate)
          (hok.unexpired _ hserving _ hget)).symm
    obtain ⟨now, hstart, hend, heffective⟩ := heffective
    -- the list of permissions of that time is young enough, or it is still the current one
    rcases hok.current _ hserving _ hget with hyoung | hunedited
    · refine ⟨w.origins userId, hindex, w.origins userId, hindex, _, Timeline.get_record hget, _,
        Timeline.get_record hget, now, (hnote.since userId).trans horigin, hyoung, hstart, hend, ?_⟩
      exact heffective.trans (effectiveOf_eq rfl now userId).symm
    · refine ⟨w.origins userId, hindex, w.next, Nat.le_refl _, _, Timeline.get_record hget, _,
        Timeline.get_record_latest, now, (hnote.since userId).trans horigin, ?_, hstart, hend, ?_⟩
      · rw [hnow]
        exact hnote.start.trans (Nat.le_add_right _ _)
      · rw [effectiveOf_eq (hunedited.trans hlists.symm)]
        exact heffective
  · -- the check has computed the permissions itself
    rename_i note userId effective hexecuting
    obtain ⟨i, newId, rest, rfl, hcall, rfl⟩ := executing_eq_some hexecuting
    obtain rfl := Option.some.inj ha
    obtain ⟨⟨instant, tables, hget, hcomputed⟩, hstart, hsince⟩ :=
      (h.calls i _ hcall).fill userId effective .check List.mem_cons_self
    have hindex : (w.notes i).read ≤ w.next :=
      (Timeline.le_index (by rw [hget]; exact Option.some_ne_none _)).trans (Nat.le_succ _)
    refine ⟨_, hindex, _, hindex, _, Timeline.get_record hget, _, Timeline.get_record hget, instant,
      hsince userId, ?_, hstart _ hget, h.instants _ _ hget, ?_⟩
    · exact (hstart _ hget).trans (Nat.le_add_right _ _)
    · exact hcomputed.trans (effectiveOf_eq rfl instant userId).symm
  · cases ha

/-- **The step lemma.** -/
theorem coherent_step (h : Coherent w) (hok : Orderly w e) : Coherent (w.step catalog e) := by
  have hstep := step_cases catalog w.state e
  constructor
  · intro j x hx
    rcases Timeline.get_record_cases hx with hold | ⟨-, rfl⟩
    · exact (h.instants j x hold).trans hstep.now_le
    · exact Nat.le_refl _
  · intro userId
    show w.settledAfter e userId ≤ (w.timeline.record _ _).index
    rw [Timeline.index_record]
    exact settledAfter_le h e userId
  · intro userId effective hget
    show w.settledAfter e userId ≤ w.originsAfter e userId ∧
      Timeline.Computed AuthzService.effective (w.timeline.record _ _) (w.originsAfter e userId)
        userId effective
    rcases cached_step hstep hget with ⟨note, caller, hexecuting⟩ | ⟨hold, hinvalidate, horigin⟩
    · -- the entry has just been written
      have hfill : w.settled userId ≤ note.read :=
        hok.fill (userId, note.read) (by simp only [Watch.filling, hexecuting, Option.mem_def])
      have horigin : w.originsAfter e userId = note.read := by
        simp only [Watch.originsAfter, hexecuting, if_true]
      have hsettled : w.settledAfter e userId = w.settled userId := by
        refine settledAfter_eq (fun note' hnote' => ?_) fun hlosing => ?_
        · rw [hexecuting] at hnote'
          cases hnote'
        · obtain ⟨i, newId, rest, rfl, hcall, -⟩ := executing_eq_some hexecuting
          simp only [Watch.losing, hcall, List.not_mem_nil] at hlosing
      obtain ⟨i, newId, rest, rfl, hcall, rfl⟩ := executing_eq_some hexecuting
      rw [hsettled, horigin]
      exact ⟨hfill, ((h.calls i _ hcall).fill userId effective caller List.mem_cons_self).1.record⟩
    · obtain ⟨hsettled, hcomputed⟩ := h.cached userId effective hold
      have hlosing : userId ∉ w.losing e := by
        -- a role is deleted only when its holders have no entry
        intro hlosing
        rw [hok.delete userId hlosing] at hold
        cases hold
      rw [settledAfter_eq hinvalidate hlosing, horigin]
      exact ⟨hsettled, hcomputed.record⟩
  · exact calls_step h hstep
  · intro a ha
    rcases List.mem_append.1 ha with hold | hnew
    · exact (h.answers a hold).record
    · exact fresh_answer h hok (Option.mem_toList.1 hnew)

end Invariant

theorem coherent_initial (tables : Tables) (now : Time) : Coherent (Watch.initial tables now) := by
  constructor
  · intro j x hx
    have hlatest : x = (now, tables) := by
      cases j with
      | zero => exact (Option.some.inj hx).symm
      | succ j => cases hx
    rw [hlatest]
    exact Nat.le_refl _
  · exact fun _ => Nat.le_refl _
  · exact fun _ _ hget => (nomatch hget)
  · exact fun _ _ hcall => (nomatch hcall)
  · exact List.forall_mem_nil _

/-- **Permission checks are fresh** in every run in which nothing is written to the cache that has
been read before the last change of the user's assignments, no role is deleted whose holders have
entries, and no entry is served that has lost an assignment by expiry or is older than the time
to live. -/
theorem run_fresh (catalog : List PermissionKey) (tables : Tables) (now : Time) (es : List Event)
    (hok : Runs.Meets (Watch.step catalog) Orderly (Watch.initial tables now) es) :
    ∀ a ∈ (Runs.run (Watch.step catalog) (Watch.initial tables now) es).answers,
      Fresh (Runs.run (Watch.step catalog) (Watch.initial tables now) es).timeline a :=
  (Runs.run_induction (fun _ _ h hok => coherent_step h hok) (coherent_initial tables now)
    hok).answers

/-! ### Stale answers -/

namespace Sample

/-- The permissions there are. -/
def catalog : List PermissionKey := ["*", "asset.read", "asset.write"]

/-- Employee 2 may do everything; employee 1 holds a role until the instant 1000, employee 3
holds it for ever. -/
def tables : Tables :=
  { Tables.empty with
    roles := [⟨5, "viewer", "Viewer", false, 0⟩, ⟨6, "admin", "Administrator", true, 0⟩]
    rolePermissions := [⟨5, "asset.read"⟩, ⟨6, "*"⟩]
    userRoleAssignments := ⟨[⟨7, 1, 5, .global, none, 2, some 1000⟩, ⟨8, 2, 6, .global, none, 2, none⟩,
      ⟨9, 3, 5, .global, none, 2, none⟩], by decide⟩ }

/-- The state after the events. -/
def after (es : List Event) : Watch := Runs.run (Watch.step catalog) (Watch.initial tables 0) es

/-- So many statements of the `i`-th call. -/
def advances (i n : ℕ) : List Event := List.replicate n (.advance i 0)

/-- A check that reads the database before, and writes the cache after, a revocation. -/
def overtaken : List Event :=
  [.begin (.check 3)] ++ advances 0 2 ++ [.begin (.revokeAssignment 9 2)] ++ advances 1 4 ++
    advances 0 1 ++ [.begin (.check 3)] ++ advances 2 1

/-- The role of a user with an entry in the cache is deleted. -/
def deleted : List Event :=
  [.begin (.check 3)] ++ advances 0 3 ++ [.begin (.deleteRole 5 2)] ++ advances 1 1 ++
    [.begin (.check 3)] ++ advances 2 1

/-- An assignment expires while its entry is in the cache. -/
def expired : List Event :=
  [.begin (.check 1)] ++ advances 0 3 ++ [.tick 2000, .begin (.check 1)] ++ advances 1 1

/-- A check that writes the cache long after it has read the database; the role has been edited
in between. -/
def slow : List Event :=
  [.begin (.check 3)] ++ advances 0 2 ++ [.begin (.setRolePermissions 5 ["asset.write"] 2)] ++
    advances 1 1 ++ [.tick 200000] ++ advances 0 1 ++ [.tick 200000, .begin (.check 3)] ++ advances 2 1

/-- A check, a revocation, a check that finds no entry, and one that finds its entry. -/
def orderly : List Event :=
  [.begin (.check 3)] ++ advances 0 3 ++ [.begin (.revokeAssignment 9 2)] ++ advances 1 4 ++
    [.begin (.check 3)] ++ advances 2 3 ++ [.begin (.check 3)] ++ advances 3 1

/-- All answers of a run are fresh. -/
def AllFresh (es : List Event) : Prop := ∀ a ∈ (after es).answers, Fresh (after es).timeline a

/-- `Fresh`, for an answer that is given at the instant when the check starts. -/
def FreshAt (timeline : Timeline Tables) (a : Answer) : Prop :=
  ∃ j ∈ List.range (a.index + 1), ∃ k ∈ List.range (a.index + 1),
    ∃ assignments ∈ timeline.get j, ∃ roles ∈ timeline.get k,
      a.since ≤ j ∧ a.start ≤ roles.1 + ttl ∧
        a.effective = effectiveOf assignments.2 roles.2 a.start a.userId

instance (timeline : Timeline Tables) (a : Answer) : Decidable (FreshAt timeline a) :=
  inferInstanceAs (Decidable (∃ j ∈ List.range (a.index + 1), _))

theorem freshAt_of_fresh {timeline : Timeline Tables} {a : Answer} (htime : a.time ≤ a.start)
    (h : Fresh timeline a) : FreshAt timeline a := by
  obtain ⟨j, hj, k, hk, assignments, hassignments, roles, hroles, now, hsince, hlists, hstart, hend,
    heffective⟩ := h
  obtain rfl : now = a.start := Nat.le_antisymm (hend.trans htime) hstart
  exact ⟨j, List.mem_range.2 (Nat.lt_succ_of_le hj), k, List.mem_range.2 (Nat.lt_succ_of_le hk),
    assignments, hassignments, roles, hroles, hsince, hlists, heffective⟩

/-- The last answer of the run is given at the instant when its check starts, and is stale. -/
def EndsStale (es : List Event) : Prop :=
  ∃ a ∈ (after es).answers.getLast?, a.time ≤ a.start ∧ ¬ FreshAt (after es).timeline a

instance (es : List Event) : Decidable (EndsStale es) :=
  inferInstanceAs (Decidable (∃ a ∈ (after es).answers.getLast?, _))

theorem EndsStale.not_allFresh {es : List Event} (h : EndsStale es) : ¬ AllFresh es := by
  intro hfresh
  obtain ⟨a, ha, htime, hnot⟩ := h
  exact hnot (freshAt_of_fresh htime (hfresh a (List.mem_of_getLast? ha)))

end Sample

open Sample in
/-- The guarantee for a run with a revocation. -/
theorem run_fresh_orderly : (after orderly).answers.length = 3 ∧ AllFresh orderly := by
  refine ⟨by decide +kernel, ?_⟩
  refine run_fresh catalog tables 0 orderly ?_
  decide +kernel

open Sample in
/-- An entry outlives a revocation that overtakes its computation, the deletion of the role and
the expiry of the assignment; and it can show a list of permissions that has been edited longer
than the time to live ago. -/
theorem not_fresh :
    ¬ AllFresh overtaken ∧ ¬ AllFresh deleted ∧ ¬ AllFresh expired ∧ ¬ AllFresh slow := by
  refine ⟨?_, ?_, ?_, ?_⟩
  · have hstale : EndsStale overtaken := by decide +kernel
    exact hstale.not_allFresh
  · have hstale : EndsStale deleted := by decide +kernel
    exact hstale.not_allFresh
  · have hstale : EndsStale expired := by decide +kernel
    exact hstale.not_allFresh
  · have hstale : EndsStale slow := by decide +kernel
    exact hstale.not_allFresh

end CacheCoherence

end OpsHub
