import OpsHub.Identity.Offboarding

/-!
# What an offboarding cuts off

Access tokens that were minted before an offboarding of their employee are not accepted
afterwards, and those minted for an employee who is back are not rejected for it.  This
takes a key that outlasts the tokens, that stays as long as they do, and that is gone when
the employee is back (`run_cutOff`).  `OffboardingTypeDef.onApprove` sets no key, the key of
`updateStatus` lasts for a day, a change to `active` deletes it at once, a change to
`on_leave` leaves it, and a change to `offboarded` that stops behind its row is not made up
for by another one (`not_cutOff`).
-/

namespace OpsHub

namespace Offboarding

/-- **The guarantee** of an offboarding. -/
structure CutOff (s : State) : Prop where
  /-- Tokens minted before an offboarding of their employee are not accepted. -/
  rejected : ∀ t ∈ s.cut, ¬ Sessions.Accepted s.sessions t.token
  /-- Tokens minted for an employee who is not offboarded, and not since, are not rejected on
  account of the employee. -/
  admitted : ∀ t ∈ s.sessions.issued, t ∉ s.cut → t.status ≠ some .offboarded →
    s.sessions.denylist.get s.now (.employee t.token.sub) = none

/-! ### The condition -/

/-- The token has expired, or is denied until it expires. -/
def State.Covers (s : State) (token : AccessToken) : Prop :=
  token.exp * 1000 ≤ s.now ∨ token.exp * 1000 ≤ s.denied token.sub

instance (s : State) (token : AccessToken) : Decidable (s.Covers token) :=
  inferInstanceAs (Decidable (_ ∨ _))

/-- The employee whose access tokens a call of `updateStatus` is still to deny. -/
def Change.toDeny : Change → Option Uuid
  | .revokeAll id => some id
  | .setKey id => some id
  | _ => none

/-- A change of the employee to `offboarded` has been stored, and the key is still to be set;
if the call has stopped there, it never will be. -/
def State.Undenied (s : State) (id : Uuid) : Prop := ∃ change ∈ s.changes, change.toDeny = some id

instance (s : State) (id : Uuid) : Decidable (s.Undenied id) :=
  inferInstanceAs (Decidable (∃ change ∈ s.changes, change.toDeny = some id))

/-- The condition on a statement of `updateStatus`. -/
def Change.Severs (s : State) : Change → Prop
  /- The employee is not put on leave while the key of an offboarding is there. -/
  | .store id .onLeave => s.tables.employeeStatus id = some .offboarded → s.denied id ≤ s.now
  /- The key outlasts the tokens, and the employee has not been brought back meanwhile. -/
  | .setKey id =>
    s.tables.employeeStatus id = some .offboarded ∧
      ∀ t ∈ s.cut, t.token.sub = id → t.token.exp * 1000 ≤ s.now + secPerDay * 1000
  /- The key has outlasted the tokens. -/
  | .delKey id => ∀ t ∈ s.cut, t.token.sub = id → t.token.exp * 1000 ≤ s.now
  | _ => True

instance (s : State) : DecidablePred (Change.Severs s) := fun change =>
  match change with
  | .store id .onLeave =>
    inferInstanceAs (Decidable (s.tables.employeeStatus id = some .offboarded → s.denied id ≤ s.now))
  | .store _ .active => isTrue trivial
  | .store _ .offboarded => isTrue trivial
  | .revokeAll _ => isTrue trivial
  | .setKey id =>
    inferInstanceAs (Decidable (s.tables.employeeStatus id = some .offboarded ∧
      ∀ t ∈ s.cut, t.token.sub = id → t.token.exp * 1000 ≤ s.now + secPerDay * 1000))
  | .delKey id =>
    inferInstanceAs (Decidable (∀ t ∈ s.cut, t.token.sub = id → t.token.exp * 1000 ≤ s.now))
  | .finished => isTrue trivial

/-- The condition on a step. -/
def Severs (s : State) : Event → Prop
  /- Nothing is minted for an employee whose key a change to `active` is still to delete. -/
  | .session e => ∀ id ∈ mintingFor s.sessions e, Change.delKey id ∉ s.changes
  | .updateStatus _ _ => True
  | .advance i => ∀ change ∈ s.changes[i]?, change.Severs s
  /- The access tokens of the employee are covered by something else. -/
  | .onApprove payload => ∀ t ∈ s.sessions.issued, t.token.sub = payload.employeeId → s.Covers t.token

instance (s : State) (e : Event) : Decidable (Severs s e) :=
  match e with
  | .session e =>
    inferInstanceAs (Decidable (∀ id ∈ mintingFor s.sessions e, Change.delKey id ∉ s.changes))
  | .updateStatus _ _ => isTrue trivial
  | .advance i => inferInstanceAs (Decidable (∀ change ∈ s.changes[i]?, change.Severs s))
  | .onApprove payload =>
    inferInstanceAs (Decidable
      (∀ t ∈ s.sessions.issued, t.token.sub = payload.employeeId → s.Covers t.token))

/-! ### The invariant -/

/-- Keys last for at most a day, those who have been cut off are covered by them or are about
to be, and keys stand in nobody else's way. -/
structure Severed (s : State) : Prop where
  day : ∀ id, s.denied id ≤ s.now + secPerDay * 1000
  cut : ∀ t ∈ s.cut, s.Covers t.token ∨ s.Undenied t.token.sub
  key : ∀ id, s.tables.employeeStatus id ≠ some .offboarded →
    s.denied id ≤ s.now ∨ Change.delKey id ∈ s.changes
  fresh : ∀ t ∈ s.sessions.issued, t ∉ s.cut → t.status ≠ some .offboarded →
    s.denied t.token.sub ≤ s.now
  back : ∀ t ∈ s.sessions.issued, t ∉ s.cut → t.status ≠ some .offboarded →
    s.tables.employeeStatus t.token.sub ≠ some .offboarded

section Steps

variable {config : AuthConfig} {s s' : State} {e : Event} {i : ℕ} {id : Uuid}
  {change change' : Change}

theorem mem_cutOff {t : Issued} :
    t ∈ (s.cutOff id).cut ↔ t ∈ s.cut ∨ (t ∈ s.sessions.issued ∧ t.token.sub = id) := by
  simp [State.cutOff]

theorem mem_cutBy_of_mem {status : EmployeeStatus} {t : Issued} (h : t ∈ s.cut) :
    t ∈ s.cutBy id status := by
  cases status with
  | offboarded => exact mem_cutOff.2 (Or.inl h)
  | active => exact h
  | onLeave => exact h

theorem Undenied.begin (h : s.Undenied id) (change : Change) :
    State.Undenied { s with changes := s.changes ++ [change] } id := by
  obtain ⟨standing, hmem, hid⟩ := h
  exact ⟨standing, List.mem_append_left _ hmem, hid⟩

/-- Until the key is set, a call that goes on is still to deny the same employee. -/
theorem Undenied.goOn (h : s.Undenied id) (hcall : s.changes[i]? = some change)
    (hnext : change.toDeny = some id → change'.toDeny = some id) :
    (s.goOn i change').Undenied id := by
  obtain ⟨standing, hmem, hid⟩ := h
  by_cases hself : standing = change
  · exact ⟨change', Pool.mem_set_self hcall _, hnext (hself ▸ hid)⟩
  · exact ⟨standing, Pool.mem_set_of_mem hcall hmem hself, hid⟩

/-- A step of the sessions. -/
theorem Severed.session (h : Severed s) {sessions : Sessions.State} {e : Sessions.Event}
    (hframe : SessionFrame s.sessions sessions e)
    (hmint : ∀ id ∈ mintingFor s.sessions e, Change.delKey id ∉ s.changes) :
    Severed { s with sessions := sessions } := by
  have hnow : s.now ≤ sessions.now := hframe.now
  have hdenied : ∀ id, sessions.denylist.deadline (.employee id) = s.denied id := hframe.denied
  have hstatus : ∀ id, sessions.tables.employeeStatus id = s.tables.employeeStatus id := by
    intro id
    rw [hframe.tables]
    rfl
  constructor
  · intro id
    show sessions.denylist.deadline (.employee id) ≤ sessions.now + secPerDay * 1000
    rw [hdenied]
    exact Nat.le_trans (h.day id) (Nat.add_le_add_right hnow _)
  · intro t ht
    refine (h.cut t ht).imp_left fun hcovers => ?_
    show t.token.exp * 1000 ≤ sessions.now ∨
      t.token.exp * 1000 ≤ sessions.denylist.deadline (.employee t.token.sub)
    rw [hdenied]
    exact hcovers.imp_left fun hexpired => Nat.le_trans hexpired hnow
  · intro id hback
    show sessions.denylist.deadline (.employee id) ≤ sessions.now ∨ _
    rw [hdenied]
    exact (h.key id (hstatus id ▸ hback)).imp_left fun hgone => Nat.le_trans hgone hnow
  · intro t ht huncut hback
    show sessions.denylist.deadline (.employee t.token.sub) ≤ sessions.now
    rw [hdenied]
    refine Nat.le_trans ?_ hnow
    rcases hframe.issued t ht with hold | ⟨hstatus, hnew⟩
    · exact h.fresh t hold huncut hback
    · rw [hstatus] at hback
      exact (h.key _ hback).resolve_right (hmint _ hnew)
  · intro t ht huncut hback
    show sessions.tables.employeeStatus t.token.sub ≠ some .offboarded
    rw [hstatus]
    rcases hframe.issued t ht with hold | ⟨hnow, -⟩
    · exact h.back t hold huncut hback
    · exact hnow ▸ hback

theorem Severed.begin (h : Severed s) (change : Change) :
    Severed { s with changes := s.changes ++ [change] } :=
  ⟨h.day, fun t ht => (h.cut t ht).imp_right fun hopen => Undenied.begin hopen change,
    fun id hback => (h.key id hback).imp_right (List.mem_append_left _), h.fresh, h.back⟩

/-- A call goes on that was not to delete a key. -/
theorem Severed.goOn (h : Severed s) (hcall : s.changes[i]? = some change)
    (hkeep : ∀ id, Change.delKey id ≠ change)
    (hnext : ∀ id, change.toDeny = some id → change'.toDeny = some id) :
    Severed (s.goOn i change') :=
  ⟨h.day, fun t ht => (h.cut t ht).imp_right fun hopen => Undenied.goOn hopen hcall (hnext _),
    fun id hback => (h.key id hback).imp_right fun hdel =>
      Pool.mem_set_of_mem hcall hdel (hkeep id), h.fresh, h.back⟩

/-- The tables change, and nobody's status. -/
theorem Severed.withTables (h : Severed s) {tables : Tables}
    (hstatus : ∀ id, tables.employeeStatus id = s.tables.employeeStatus id) :
    Severed (s.withTables tables) :=
  ⟨h.day, h.cut, fun id hback => h.key id (hstatus id ▸ hback), h.fresh,
    fun t ht huncut hback hoff => h.back t ht huncut hback ((hstatus t.token.sub).symm.trans hoff)⟩

/-- Whoever is not offboarded after the row of an employee has been updated has no key, or it
is about to be deleted. -/
theorem Severed.key_store (h : Severed s) {status : EmployeeStatus}
    (hcall : s.changes[i]? = some (.store id status))
    (hleave : (Change.store id status).Severs s) {id' : Uuid}
    (hback : (storeStatus id status s.now s.tables).employeeStatus id' ≠ some .offboarded) :
    s.denied id' ≤ s.now ∨
      Change.delKey id' ∈ s.changes.set i (EmployeeService.afterStore id status) := by
  have hold : s.tables.employeeStatus id' ≠ some .offboarded → s.denied id' ≤ s.now ∨
      Change.delKey id' ∈ s.changes.set i (EmployeeService.afterStore id status) := fun hold =>
    (h.key id' hold).imp_right fun hdel => Pool.mem_set_of_mem hcall hdel (by rintro ⟨⟩)
  by_cases hid : id' = id
  · subst hid
    by_cases hoff : s.tables.employeeStatus id' = some .offboarded
    · -- the employee leaves the status: the key is to be deleted, or has run out
      rw [employeeStatus_storeStatus_self, hoff] at hback
      cases status with
      | active => exact Or.inr (Pool.mem_set_self hcall _)
      | onLeave => exact Or.inl (hleave hoff)
      | offboarded => exact absurd rfl hback
    · exact hold hoff
  · rw [employeeStatus_storeStatus_ne hid] at hback
    exact hold hback

/-- The row of an employee is updated. -/
theorem Severed.store (h : Severed s) {status : EmployeeStatus}
    (hcall : s.changes[i]? = some (.store id status))
    (hleave : (Change.store id status).Severs s) :
    Severed (((s.withTables (storeStatus id status s.now s.tables)).stored id status).goOn i
      (EmployeeService.afterStore id status)) := by
  constructor
  · exact h.day
  · intro t ht
    have hold : t ∈ s.cut → s.Covers t.token ∨
        (s.goOn i (EmployeeService.afterStore id status)).Undenied t.token.sub := fun ht =>
      (h.cut t ht).imp_right fun hopen => Undenied.goOn hopen hcall (by rintro ⟨⟩)
    cases status with
    | offboarded =>
      rcases mem_cutOff.1 ht with ht | ⟨-, hid⟩
      · exact hold ht
      · -- the call is still to set the key
        exact Or.inr ⟨.revokeAll id, Pool.mem_set_self hcall _, congrArg some hid.symm⟩
    | active => exact hold ht
    | onLeave => exact hold ht
  · exact fun id' hback => h.key_store hcall hleave hback
  · exact fun t ht huncut hback => h.fresh t ht (fun hcut => huncut (mem_cutBy_of_mem hcut)) hback
  · intro t ht huncut hback
    show (storeStatus id status s.now s.tables).employeeStatus t.token.sub ≠ some .offboarded
    by_cases hid : t.token.sub = id
    · rw [hid, employeeStatus_storeStatus_self]
      intro hoff
      obtain ⟨-, -, rfl⟩ := Option.map_eq_some_iff.1 hoff
      exact huncut (mem_cutOff.2 (Or.inr ⟨ht, hid⟩))
    · rw [employeeStatus_storeStatus_ne hid]
      exact h.back t ht (fun hcut => huncut (mem_cutBy_of_mem hcut)) hback

/-- The key of an employee is set. -/
theorem Severed.setKey (h : Severed s) (hcall : s.changes[i]? = some (.setKey id))
    (hsevers : (Change.setKey id).Severs s) :
    Severed ((s.withDenylist (s.sessions.denylist.set (.employee id) ()
      (s.now + secPerDay * 1000))).goOn i .finished) := by
  obtain ⟨hoff, houtlast⟩ := hsevers
  have hself : (s.sessions.denylist.set (.employee id) () (s.now + secPerDay * 1000)).deadline
      (.employee id) = s.now + secPerDay * 1000 := TtlCache.deadline_set_self _ _ _ _
  have hother : ∀ id', id' ≠ id →
      (s.sessions.denylist.set (.employee id) () (s.now + secPerDay * 1000)).deadline
        (.employee id') = s.denied id' := fun id' hne =>
    TtlCache.deadline_set_ne _ (fun heq => hne (RevocationKey.employee.inj heq)) _ _
  constructor
  · intro id'
    show (s.sessions.denylist.set _ () _).deadline (.employee id') ≤ s.now + secPerDay * 1000
    by_cases hid : id' = id
    · exact Nat.le_of_eq (by rw [hid, hself])
    · rw [hother id' hid]
      exact h.day id'
  · intro t ht
    by_cases hid : t.token.sub = id
    · refine Or.inl (Or.inr ?_)
      show t.token.exp * 1000 ≤ (s.sessions.denylist.set _ () _).deadline (.employee t.token.sub)
      rw [hid, hself]
      exact houtlast t ht hid
    · refine (h.cut t ht).imp (fun hcovers => ?_) fun hopen => Undenied.goOn hopen hcall ?_
      · show _ ∨ t.token.exp * 1000 ≤ (s.sessions.denylist.set _ () _).deadline
          (.employee t.token.sub)
        rw [hother _ hid]
        exact hcovers
      · exact fun hself => absurd (Option.some.inj hself).symm hid
  · intro id' hback
    have hid : id' ≠ id := by
      rintro rfl
      exact hback hoff
    show (s.sessions.denylist.set _ () _).deadline (.employee id') ≤ s.now ∨ _
    rw [hother id' hid]
    exact (h.key id' hback).imp_right fun hdel => Pool.mem_set_of_mem hcall hdel (by rintro ⟨⟩)
  · intro t ht huncut hback
    have hid : t.token.sub ≠ id := fun hid => h.back t ht huncut hback (hid ▸ hoff)
    show (s.sessions.denylist.set _ () _).deadline (.employee t.token.sub) ≤ s.now
    rw [hother _ hid]
    exact h.fresh t ht huncut hback
  · exact h.back

/-- The key of an employee is deleted. -/
theorem Severed.delKey (h : Severed s) (hcall : s.changes[i]? = some (.delKey id))
    (houtlasted : (Change.delKey id).Severs s) :
    Severed ((s.withDenylist (s.sessions.denylist.del (.employee id))).goOn i .finished) := by
  have hself : (s.sessions.denylist.del (.employee id)).deadline (.employee id) = 0 :=
    TtlCache.deadline_del_self _ _
  have hother : ∀ id', id' ≠ id →
      (s.sessions.denylist.del (.employee id)).deadline (.employee id') = s.denied id' :=
    fun id' hne => TtlCache.deadline_del_ne _ fun heq => hne (RevocationKey.employee.inj heq)
  constructor
  · intro id'
    show (s.sessions.denylist.del _).deadline (.employee id') ≤ s.now + secPerDay * 1000
    by_cases hid : id' = id
    · rw [hid, hself]
      exact Nat.zero_le _
    · rw [hother id' hid]
      exact h.day id'
  · intro t ht
    by_cases hid : t.token.sub = id
    · exact Or.inl (Or.inl (houtlasted t ht hid))
    · refine (h.cut t ht).imp (fun hcovers => ?_) fun hopen =>
        Undenied.goOn hopen hcall (by rintro ⟨⟩)
      show _ ∨ t.token.exp * 1000 ≤ (s.sessions.denylist.del _).deadline (.employee t.token.sub)
      rw [hother _ hid]
      exact hcovers
  · intro id' hback
    show (s.sessions.denylist.del _).deadline (.employee id') ≤ s.now ∨ _
    by_cases hid : id' = id
    · rw [hid, hself]
      exact Or.inl (Nat.zero_le _)
    · rw [hother id' hid]
      refine (h.key id' hback).imp_right fun hdel => Pool.mem_set_of_mem hcall hdel ?_
      exact fun heq => hid (Change.delKey.inj heq)
  · intro t ht huncut hback
    show (s.sessions.denylist.del _).deadline (.employee t.token.sub) ≤ s.now
    by_cases hid : t.token.sub = id
    · rw [hid, hself]
      exact Nat.zero_le _
    · rw [hother _ hid]
      exact h.fresh t ht huncut hback
  · exact h.back

/-- An offboarding is approved while the access tokens are covered by something else. -/
theorem Severed.onApprove (h : Severed s)
    (hcovers : ∀ t ∈ s.sessions.issued, t.token.sub = id → s.Covers t.token) :
    Severed ((s.withTables (OffboardingTypeDef.offboard id s.now s.tables)).cutOff id) := by
  constructor
  · exact h.day
  · intro t ht
    rcases mem_cutOff.1 ht with ht | ⟨ht, hid⟩
    · exact h.cut t ht
    · exact Or.inl (hcovers t ht hid)
  · exact fun id' hback => h.key id' fun hoff => hback (offboarded_of_offboarded hoff)
  · exact fun t ht huncut hback =>
      h.fresh t ht (fun hcut => huncut (mem_cutOff.2 (Or.inl hcut))) hback
  · intro t ht huncut hback
    have hid : t.token.sub ≠ id := fun hid => huncut (mem_cutOff.2 (Or.inr ⟨ht, hid⟩))
    show (OffboardingTypeDef.offboard id s.now s.tables).employeeStatus t.token.sub ≠ _
    rw [employeeStatus_offboard, employeeStatus_storeStatus_ne hid]
    exact h.back t ht (fun hcut => huncut (mem_cutOff.2 (Or.inl hcut))) hback

/-- **The step lemma.** -/
theorem severed_step (h : Severed s) (hok : Severs s e) (hstep : Step config s e s') :
    Severed s' := by
  cases hstep with
  | idle => exact h
  | session hsession => exact h.session (sessionFrame hsession) hok
  | updateStatus hfind hother => exact h.begin _
  | store hcall => exact h.store hcall (hok _ hcall)
  | @revokeAll i id hcall =>
    have hon : Severed (s.goOn i (.setKey id)) :=
      h.goOn hcall (by rintro id' ⟨⟩) fun id' hid => hid
    exact hon.withTables fun id' => rfl
  | setKey hcall => exact h.setKey hcall (hok _ hcall)
  | delKey hcall => exact h.delKey hcall (hok _ hcall)
  | onApprove payload => exact h.onApprove hok

end Steps

/-- **An offboarding cuts off access** in every run in which keys outlast the access tokens
of their employees and are gone when these are back, as long as no change to `offboarded`
stands behind its row. -/
theorem run_cutOff (config : AuthConfig) (tables : Tables) (now : ℕ) (es : List Event)
    (hok : Runs.Meets (step config) Severs (State.initial tables now) es)
    (hdenied : ∀ t ∈ (Runs.run (step config) (State.initial tables now) es).cut,
      ¬ (Runs.run (step config) (State.initial tables now) es).Undenied t.token.sub) :
    CutOff (Runs.run (step config) (State.initial tables now) es) := by
  have hinitial : Severed (State.initial tables now) := by
    refine ⟨fun id => Nat.zero_le _, fun t ht => ?_, fun id _ => Or.inl (Nat.zero_le _),
      fun t ht => ?_, fun t ht => ?_⟩
    · cases ht
    · cases ht
    · cases ht
  have hrun := @Runs.run_induction _ _ (step config) Severs Severed
    (fun s e h hok => severed_step h hok (step_cases config s e)) _ es hinitial hok
  constructor
  · intro t ht haccepted
    obtain ⟨hexp, -, hemployee⟩ := Sessions.accepted_iff.1 haccepted
    rcases (hrun.cut t ht).resolve_right (hdenied t ht) with hexpired | hkey
    · exact absurd hexp (Nat.not_lt.2 hexpired)
    · exact absurd (Nat.lt_of_lt_of_le hexp hkey) (Nat.not_lt.2 hemployee)
  · intro t ht huncut hback
    exact TtlCache.get_eq_none_iff.2 (hrun.fresh t ht huncut hback)

/-! ### What an offboarding leaves open -/

namespace Sample

open Sessions.Sample (config)

/-- The start of the sample runs. -/
def start : State := State.initial Sessions.Sample.tables 0

/-- The employee logs in: session 10. -/
def login : List Event := Sessions.Sample.login.map Event.session

/-- The offboarding of the employee is approved. -/
def approved : List Event := login ++ [.onApprove ⟨1, "user1@example.com", none⟩]

/-- The employee is offboarded by `updateStatus`. -/
def offboarded : List Event :=
  login ++ [.updateStatus 1 .offboarded, .advance 0, .advance 0, .advance 0]

/-- The employee is offboarded by an `updateStatus` that stops behind its row, and by
another one, which finds nothing to do. -/
def stopped : List Event :=
  login ++ [.updateStatus 1 .offboarded, .advance 0, .updateStatus 1 .offboarded, .advance 1]

/-- And brought back. -/
def reactivate : List Event := [.updateStatus 1 .active, .advance 1, .advance 1]

/-- And put on leave. -/
def putOnLeave : List Event := [.updateStatus 1 .onLeave, .advance 1]

/-- And logs in again: session 11. -/
def loginAgain : List Event := [.session (.login 1 101), .session (.advance 1 11 "token-b")]

/-- Access tokens for two days. -/
def longConfig : AuthConfig := { config with accessExpiry := 172800 }

/-- The employee comes back when the access token has expired. -/
def orderly : List Event :=
  offboarded ++ [.session (.tick 900000)] ++ reactivate ++ loginAgain

end Sample

open Sample in
/-- The access token of session 10 outlives an approved offboarding, a key of one day, the
employee's return, and a change that stops before the key is set; after a change to
`on_leave`, the access token of session 11 is rejected. -/
theorem not_cutOff :
    ¬ (∀ es, CutOff (Runs.run (step Sessions.Sample.config) start es)) ∧
    ¬ CutOff (Runs.run (step longConfig) start (offboarded ++ [.session (.tick 86400000)])) ∧
    ¬ CutOff (Runs.run (step Sessions.Sample.config) start (offboarded ++ reactivate)) ∧
    ¬ CutOff (Runs.run (step Sessions.Sample.config) start
      (offboarded ++ putOnLeave ++ loginAgain)) ∧
    ¬ CutOff (Runs.run (step Sessions.Sample.config) start stopped) := by
  refine ⟨fun h => ?_, fun h => ?_, fun h => ?_, fun h => ?_, fun h => ?_⟩
  · exact (h approved).rejected ⟨⟨10, 1, 0, 900⟩, 100, some .active⟩ (by decide) (by decide)
  · exact h.rejected ⟨⟨10, 1, 0, 172800⟩, 100, some .active⟩ (by decide) (by decide)
  · exact h.rejected ⟨⟨10, 1, 0, 900⟩, 100, some .active⟩ (by decide) (by decide)
  · have hadmitted := h.admitted ⟨⟨11, 1, 0, 900⟩, 101, some .onLeave⟩ (by decide) (by decide)
      (by decide)
    revert hadmitted
    decide
  · exact h.rejected ⟨⟨10, 1, 0, 900⟩, 100, some .active⟩ (by decide) (by decide)

/-- The guarantee for an employee who comes back when the access token has expired: the old
token is cut off, and the new one is accepted. -/
theorem run_cutOff_orderly :
    CutOff (Runs.run (step Sessions.Sample.config) Sample.start Sample.orderly) ∧
      (Runs.run (step Sessions.Sample.config) Sample.start Sample.orderly).cut =
        [⟨⟨10, 1, 0, 900⟩, 100, some .active⟩] ∧
      Sessions.Accepted (Runs.run (step Sessions.Sample.config) Sample.start
        Sample.orderly).sessions ⟨11, 1, 900, 1800⟩ := by
  refine ⟨run_cutOff Sessions.Sample.config Sessions.Sample.tables 0 Sample.orderly ?_ ?_, ?_, ?_⟩
  · decide
  · decide
  · decide
  · decide

end Offboarding

end OpsHub
