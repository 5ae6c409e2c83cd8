import OpsHub.Domain.TypeDefs
import OpsHub.Identity.Sessions

/-!
# Offboarding

The two ways in which an employee leaves: `EmployeeService.updateStatus`, as the sequence of
its statements, and the transaction of `OffboardingTypeDef.onApprove`, together with the
logins, refreshes and logouts of `Sessions`.

* `Change`: the statement that an `updateStatus` makes next;
* `step`: one statement of one call, an approved offboarding, or one step of the sessions;
* `Step`, `step_cases`: everything that a step can do;
* `SessionFrame`: what a step of the sessions leaves alone.

`cut` records, for the statements only, the access tokens that had been minted when the
status of their employee became `offboarded`.
-/

namespace OpsHub

/-- Seconds of a day, `SEC_PER_DAY`. -/
def secPerDay : ℕ := 86400

namespace Offboarding

/-! ### Calls -/

/-- The next statement of an `updateStatus`. -/
inductive Change
  /-- `employeeRepo.updateStatus`. -/
  | store (id : Uuid) (status : EmployeeStatus)
  /-- For `offboarded`: `revokeAllForEmployee`. -/
  | revokeAll (id : Uuid)
  /-- Then: the key of the employee is set. -/
  | setKey (id : Uuid)
  /-- For `active`: the key of the employee is deleted. -/
  | delKey (id : Uuid)
  | finished
  deriving DecidableEq, Repr

/-- The sessions, the calls of `updateStatus` in flight, and the access tokens that an
offboarding was to cut off. -/
structure State where
  sessions : Sessions.State
  changes : List Change
  cut : List Issued

/-- No session has been opened, and no status changed yet. -/
def State.initial (tables : Tables) (now : ℕ) : State where
  sessions := Sessions.State.initial tables now
  changes := []
  cut := []

/-- The tables. -/
def State.tables (s : State) : Tables := s.sessions.tables

/-- The clock. -/
def State.now (s : State) : ℕ := s.sessions.now

/-- The instant up to which the access tokens of an employee are denied. -/
def State.denied (s : State) (id : Uuid) : ℕ := s.sessions.denylist.deadline (.employee id)

/-- The state with other tables. -/
def State.withTables (s : State) (tables : Tables) : State :=
  { s with sessions := { s.sessions with tables := tables } }

/-- The state with another denylist. -/
def State.withDenylist (s : State) (denylist : TtlCache RevocationKey Unit) : State :=
  { s with sessions := { s.sessions with denylist := denylist } }

/-- The state in which the `i`-th call goes on with `change`. -/
def State.goOn (s : State) (i : ℕ) (change : Change) : State :=
  { s with changes := s.changes.set i change }

/-- The state in which the access tokens of an employee count as cut off. -/
def State.cutOff (s : State) (id : Uuid) : State :=
  { s with cut := s.cut ++ s.sessions.issued.filter (fun t => decide (t.token.sub = id)) }

/-- What counts as cut off once a status has been stored. -/
def State.cutBy (s : State) (id : Uuid) : EmployeeStatus → List Issued
  | .offboarded => (s.cutOff id).cut
  | .active => s.cut
  | .onLeave => s.cut

/-- The state after a status has been stored. -/
def State.stored (s : State) (id : Uuid) (status : EmployeeStatus) : State :=
  { s with cut := s.cutBy id status }

/-! ### The statements -/

namespace EmployeeService

/-- The beginning of `updateStatus`; it returns at once if the employee has the status. -/
def updateStatus (employees : Table Employee.id) (id : Uuid) (status : EmployeeStatus) :
    Except Failure (Option Change) := do
  let employee ← Outcome.orThrow (.notFound "EMPLOYEE_NOT_FOUND" "Employee not found")
    (employees.find id)
  if employee.status = status then pure none else pure (some (.store id status))

/-- `updateStatus` after the row has been updated. -/
def afterStore (id : Uuid) : EmployeeStatus → Change
  | .offboarded => .revokeAll id
  | .active => .delKey id
  | .onLeave => .finished

end EmployeeService

/-- `updateStatus` of the repository. -/
def storeStatus (id : Uuid) (status : EmployeeStatus) (now : Time) (tables : Tables) : Tables :=
  { tables with
    employees := tables.employees.update id
      (fun e => { e with status := status, updatedAt := now }) (fun _ => rfl) }

/-- `revokeAllForEmployee`, on all tables. -/
def revokeAll (id : Uuid) (tables : Tables) : Tables :=
  { tables with
    refreshTokens := RefreshTokenDrizzleRepository.revokeAllForEmployee id tables.refreshTokens }

/-- The next statement of the `i`-th call. -/
def advance (s : State) (i : ℕ) : State :=
  match s.changes[i]? with
  | some (.store id status) =>
    ((s.withTables (storeStatus id status s.now s.tables)).stored id status).goOn i
      (EmployeeService.afterStore id status)
  | some (.revokeAll id) => (s.withTables (revokeAll id s.tables)).goOn i (.setKey id)
  | some (.setKey id) =>
    (s.withDenylist (s.sessions.denylist.set (.employee id) () (s.now + secPerDay * 1000))).goOn
      i .finished
  | some (.delKey id) => (s.withDenylist (s.sessions.denylist.del (.employee id))).goOn i .finished
  | some .finished => s
  | none => s

/-- What can happen. -/
inductive Event
  | session (e : Sessions.Event)
  | updateStatus (id : Uuid) (status : EmployeeStatus)
  | advance (i : ℕ)
  | onApprove (payload : OffboardingPayload)
  deriving DecidableEq, Repr

/-- The state after one event; a call that throws or returns at once leaves no trace. -/
def step (config : AuthConfig) (s : State) : Event → State
  | .session e => { s with sessions := Sessions.step config s.sessions e }
  | .updateStatus id status =>
    match EmployeeService.updateStatus s.tables.employees id status with
    | .ok (some change) => { s with changes := s.changes ++ [change] }
    | .ok none => s
    | .error _ => s
  | .advance i => advance s i
  | .onApprove payload =>
    (s.withTables (OffboardingTypeDef.offboard payload.employeeId s.now s.tables)).cutOff
      payload.employeeId

/-! ### What one step can do -/

/-- The effects of a step, each with what has been checked on the way. -/
inductive Step (config : AuthConfig) (s : State) : Event → State → Prop
  | idle (e : Event) : Step config s e s
  | session {e : Sessions.Event} {sessions : Sessions.State}
      (h : Sessions.Step config s.sessions e sessions) :
      Step config s (.session e) { s with sessions := sessions }
  | updateStatus {id : Uuid} {status : EmployeeStatus} {employee : Employee}
      (hfind : s.tables.employees.find id = some employee) (hother : employee.status ≠ status) :
      Step config s (.updateStatus id status) { s with changes := s.changes ++ [.store id status] }
  | store {i : ℕ} {id : Uuid} {status : EmployeeStatus}
      (hcall : s.changes[i]? = some (.store id status)) :
      Step config s (.advance i)
        (((s.withTables (storeStatus id status s.now s.tables)).stored id status).goOn i
          (EmployeeService.afterStore id status))
  | revokeAll {i : ℕ} {id : Uuid} (hcall : s.changes[i]? = some (.revokeAll id)) :
      Step config s (.advance i)
        ((s.withTables (Offboarding.revokeAll id s.tables)).goOn i (.setKey id))
  | setKey {i : ℕ} {id : Uuid} (hcall : s.changes[i]? = some (.setKey id)) :
      Step config s (.advance i)
        ((s.withDenylist
          (s.sessions.denylist.set (.employee id) () (s.now + secPerDay * 1000))).goOn
            i .finished)
  | delKey {i : ℕ} {id : Uuid} (hcall : s.changes[i]? = some (.delKey id)) :
      Step config s (.advance i)
        ((s.withDenylist (s.sessions.denylist.del (.employee id))).goOn i .finished)
  | onApprove (payload : OffboardingPayload) :
      Step config s (.onApprove payload)
        ((s.withTables (OffboardingTypeDef.offboard payload.employeeId s.now s.tables)).cutOff
          payload.employeeId)

/-- **Every step is one of these.** -/
theorem step_cases (config : AuthConfig) (s : State) (e : Event) :
    Step config s e (step config s e) := by
  cases e with
  | session e => exact .session (Sessions.step_cases config s.sessions e)
  | updateStatus id status =>
    simp only [step]
    split
    · rename_i change hupdate
      simp only [EmployeeService.updateStatus, Except.bind_eq_ok_iff,
        Outcome.orThrow_eq_ok_iff] at hupdate
      obtain ⟨employee, hfind, hchange⟩ := hupdate
      by_cases hstatus : employee.status = status
      · rw [if_pos hstatus, Except.pure_eq_ok_iff] at hchange
        cases hchange
      · rw [if_neg hstatus, Except.pure_eq_ok_iff] at hchange
        obtain rfl := Option.some.inj hchange
        exact .updateStatus hfind hstatus
    · exact .idle _
    · exact .idle _
  | advance i =>
    simp only [step, advance]
    split
    · rename_i id status hcall
      exact .store hcall
    · rename_i id hcall
      exact .revokeAll hcall
    · rename_i id hcall
      exact .setKey hcall
    · rename_i id hcall
      exact .delKey hcall
    · exact .idle _
    · exact .idle _
  | onApprove payload => exact .onApprove payload

/-! ### Statuses -/

section Statuses

variable {id id' : Uuid} {status : EmployeeStatus} {now : Time} {tables : Tables}

theorem employeeStatus_storeStatus_self :
    (storeStatus id status now tables).employeeStatus id =
      (tables.employeeStatus id).map (fun _ => status) := by
  simp only [Tables.employeeStatus, storeStatus, Table.find_update_self, Option.map_map]
  rfl

theorem employeeStatus_storeStatus_ne (h : id' ≠ id) :
    (storeStatus id status now tables).employeeStatus id' = tables.employeeStatus id' := by
  simp only [Tables.employeeStatus, storeStatus]
  rw [Table.find_update_ne _ h]

/-- As far as statuses go, an approved offboarding is a change to `offboarded`. -/
theorem employeeStatus_offboard :
    (OffboardingTypeDef.offboard id now tables).employeeStatus id' =
      (storeStatus id .offboarded now tables).employeeStatus id' := rfl

theorem mem_employeeStatus_offboard_self
    (h : status ∈ (OffboardingTypeDef.offboard id now tables).employeeStatus id) :
    status = .offboarded := by
  rw [employeeStatus_offboard, employeeStatus_storeStatus_self] at h
  obtain ⟨old, -, rfl⟩ := Option.map_eq_some_iff.1 h
  rfl

/-- A status after an approved offboarding was there before, or is `offboarded`. -/
theorem mem_employeeStatus_offboard
    (h : status ∈ (OffboardingTypeDef.offboard id now tables).employeeStatus id') :
    status ∈ tables.employeeStatus id' ∨ status = .offboarded := by
  by_cases hid : id' = id
  · subst hid
    exact Or.inr (mem_employeeStatus_offboard_self h)
  · rw [employeeStatus_offboard, employeeStatus_storeStatus_ne hid] at h
    exact Or.inl h

/-- An approved offboarding brings nobody back. -/
theorem offboarded_of_offboarded (h : tables.employeeStatus id' = some .offboarded) :
    (OffboardingTypeDef.offboard id now tables).employeeStatus id' = some .offboarded := by
  rw [employeeStatus_offboard]
  by_cases hid : id' = id
  · subst hid
    rw [employeeStatus_storeStatus_self, h]
    rfl
  · rw [employeeStatus_storeStatus_ne hid, h]

end Statuses

/-! ### What a step of the sessions leaves alone -/

section Frame

open RefreshTokenDrizzleRepository

/-- The employee for whom a call is about to mint. -/
def mintsFor : Sessions.Phase → Option Uuid
  | .mint employee _ _ => some employee.id
  | _ => none

/-- The employee for whom a step of the sessions is about to mint. -/
def mintingFor (s : Sessions.State) : Sessions.Event → Option Uuid
  | .advance i _ _ => s.calls[i]?.bind mintsFor
  | _ => none

/-- A call may go on to mint for the employee: one is about to, or the employee is not
offboarded. -/
def Mintable (s : Sessions.State) (id : Uuid) : Prop :=
  (∃ call ∈ s.calls, mintsFor call = some id) ∨
    ∃ status ∈ s.tables.employeeStatus id, status ≠ .offboarded

/-- A step of the sessions writes refresh tokens and session keys only, and what becomes
live is minted for one employee. -/
structure SessionFrame (s s' : Sessions.State) (e : Sessions.Event) : Prop where
  tables : s'.tables = { s.tables with refreshTokens := s'.tables.refreshTokens }
  now : s.now ≤ s'.now
  denied : ∀ id, s'.denylist.deadline (.employee id) = s.denylist.deadline (.employee id)
  issued : ∀ t ∈ s'.issued, t ∈ s.issued ∨
    (t.status = s.tables.employeeStatus t.token.sub ∧ mintingFor s e = some t.token.sub)
  live : ∀ row ∈ s'.tokens.rows, row.revoked = false →
    row ∈ s.tokens.rows ∨ mintingFor s e = some row.employeeId
  calls : ∀ call ∈ s'.calls, ∀ id ∈ mintsFor call, Mintable s id

variable {config : AuthConfig} {s s' : Sessions.State} {e : Sessions.Event} {i : ℕ}
  {tokens : Table RefreshToken.id} {p : RefreshToken → Bool} {row : RefreshToken}
  {phase : Sessions.Phase}

theorem mintable_of_mem {call : Sessions.Phase} (hcall : call ∈ s.calls) :
    ∀ id ∈ mintsFor call, Mintable s id := fun _ hid => Or.inl ⟨call, hcall, hid⟩

theorem mintable_of_minting {id : Uuid} (h : mintingFor s e = some id) : Mintable s id := by
  cases e with
  | advance i sessionId raw =>
    obtain ⟨call, hcall, hid⟩ := Option.bind_eq_some_iff.1 h
    exact Or.inl ⟨call, List.mem_of_getElem? hcall, hid⟩
  | _ => cases h

theorem mintable_begin (hnew : ∀ id ∈ mintsFor phase, Mintable s id) :
    ∀ call ∈ (s.begin phase).calls, ∀ id ∈ mintsFor call, Mintable s id :=
  Pool.forall_mem_add (fun _ hcall => mintable_of_mem hcall) hnew

theorem mintable_goOn (hnew : ∀ id ∈ mintsFor phase, Mintable s id) :
    ∀ call ∈ (s.goOn i phase).calls, ∀ id ∈ mintsFor call, Mintable s id :=
  Pool.forall_mem_set (fun _ hcall => mintable_of_mem hcall) hnew

/-- Whoever has been found and is not offboarded may be minted for. -/
theorem mintable_of_find {id : Uuid} {employee : Employee} {familyId : Uuid}
    {presented : Option (String × Uuid)} (hfind : s.tables.employees.find id = some employee)
    (hactive : employee.status ≠ .offboarded) :
    ∀ id' ∈ mintsFor (.mint employee familyId presented), Mintable s id' := by
  intro id' hid
  obtain rfl := Option.some.inj hid
  refine Or.inr ⟨employee.status, ?_, hactive⟩
  rw [Table.key_of_find hfind, Tables.employeeStatus, hfind]
  rfl

/-- A row that a revocation leaves live is an old one. -/
theorem mem_of_live_revokeWhere (h : row ∈ (revokeWhere p tokens).rows)
    (hlive : row.revoked = false) : row ∈ tokens.rows :=
  (Table.mem_updateWhere_open (o := fun t => t.revoked = false) (by intro r; rfl) (by simp) h
    hlive).1

/-- Most statements write nothing here. -/
theorem SessionFrame.quiet (htables : s'.tables = s.tables) (hnow : s.now ≤ s'.now)
    (hdenylist : s'.denylist = s.denylist) (hissued : s'.issued = s.issued)
    (hcalls : ∀ call ∈ s'.calls, ∀ id ∈ mintsFor call, Mintable s id) : SessionFrame s s' e where
  tables := by rw [htables]
  now := hnow
  denied id := by rw [hdenylist]
  issued t ht := Or.inl (hissued ▸ ht)
  live row hrow _ := by
    rw [Sessions.State.tokens, htables] at hrow
    exact Or.inl hrow
  calls := hcalls

/-- The revocations. -/
theorem SessionFrame.revoke (p : RefreshToken → Bool)
    (htables : s'.tables = { s.tables with refreshTokens := revokeWhere p s.tokens })
    (hnow : s'.now = s.now) (hdenylist : s'.denylist = s.denylist)
    (hissued : s'.issued = s.issued)
    (hcalls : ∀ call ∈ s'.calls, ∀ id ∈ mintsFor call, Mintable s id) : SessionFrame s s' e where
  tables := by rw [htables]
  now := Nat.le_of_eq hnow.symm
  denied id := by rw [hdenylist]
  issued t ht := Or.inl (hissued ▸ ht)
  live row hrow hlive := by
    rw [Sessions.State.tokens, htables] at hrow
    exact Or.inl (mem_of_live_revokeWhere hrow hlive)
  calls := hcalls

/-- **The frame of the sessions.** -/
theorem sessionFrame (h : Sessions.Step config s e s') : SessionFrame s s' e := by
  -- a phase that does not mint
  have hnone : ∀ {phase}, mintsFor phase = none → ∀ id ∈ mintsFor phase, Mintable s id := by
    intro phase hphase id hid
    rw [hphase] at hid
    cases hid
  cases h with
  | idle => exact .quiet rfl (Nat.le_refl _) rfl rfl fun _ => mintable_of_mem
  | login hnew hfind hactive =>
    exact .quiet rfl (Nat.le_refl _) rfl rfl (mintable_begin (mintable_of_find hfind hactive))
  | theft hfind hrevoked =>
    exact .quiet rfl (Nat.le_refl _) rfl rfl (mintable_begin (hnone rfl))
  | refresh hfind hlive =>
    exact .quiet rfl (Nat.le_refl _) rfl rfl (mintable_begin (hnone rfl))
  | logout hfind hlive =>
    exact .quiet rfl (Nat.le_refl _) rfl rfl (mintable_begin (hnone rfl))
  | revokeFamily hcall sessionId raw =>
    exact .revoke _ rfl rfl rfl rfl (mintable_goOn (hnone rfl))
  | rotate hcall sessionId raw => exact .revoke _ rfl rfl rfl rfl (mintable_goOn (hnone rfl))
  | reload hcall hfind hactive sessionId raw =>
    exact .quiet rfl (Nat.le_refl _) rfl rfl (mintable_goOn (mintable_of_find hfind hactive))
  | @mint i employee familyId presented sessionId raw tokens hcall hcreate =>
    have hmint : mintingFor s (.advance i sessionId raw) = some employee.id := by
      rw [mintingFor, hcall]
      rfl
    refine ⟨rfl, Nat.le_refl _, fun id => rfl, fun t ht => ?_, fun row hrow _ => ?_,
      mintable_goOn (hnone rfl)⟩
    · rcases List.mem_append.1 ht with ht | ht
      · exact Or.inl ht
      · rw [List.mem_singleton.1 ht]
        exact Or.inr ⟨rfl, hmint⟩
    · rcases (Table.mem_insert (Sessions.create_eq_some_iff.1 hcreate).2).1 hrow with hrow | rfl
      · exact Or.inl hrow
      · exact Or.inr hmint
  | abortReload hcall sessionId raw =>
    exact .quiet rfl (Nat.le_refl _) rfl rfl (mintable_goOn (hnone rfl))
  | abortMint hcall sessionId raw =>
    exact .quiet rfl (Nat.le_refl _) rfl rfl (mintable_goOn (hnone rfl))
  | revoke hcall sessionId raw => exact .revoke _ rfl rfl rfl rfl (mintable_goOn (hnone rfl))
  | @deny i id accessTokenExp hcall sessionId raw =>
    -- a session key, which is not the key of an employee
    refine ⟨rfl, Nat.le_refl _, fun id' => ?_, fun t ht => Or.inl ht, fun row hrow _ => Or.inl hrow,
      mintable_goOn (hnone rfl)⟩
    have hne : RevocationKey.employee id' ≠ .session id := fun h => by cases h
    exact TtlCache.deadline_set_ne _ hne _ _
  | tick milliseconds =>
    exact .quiet rfl (Nat.le_add_right _ _) rfl rfl fun _ => mintable_of_mem

end Frame

end Offboarding

end OpsHub
