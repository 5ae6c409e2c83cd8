import OpsHub.License.LicenseService
import OpsHub.Lib.Pool
import OpsHub.Lib.Runs

/-!
# The seats of a license

The calls of `LicenseService` in any interleaving of their statements.  A call tests what it has
read, and writes in a later statement.

* `LicenseState`, `step`: the machine;
* `SeatsKept`: no license has more active seats than its limit, no employee has two of them, and
  every active seat is one of a stored license;
* `SeatSafe`, `Careful`: what a write needs of the tables as they are at that moment;
* `always_seatsKept_iff`: the seats are kept all along a run exactly if every step is careful;
* `not_seatsKept`: two calls race for one seat, for one employee, and with a deletion, and an
  update lowers the limit.
-/

namespace OpsHub

open LicenseDrizzleRepository (findById findActiveAssignment countActiveSeats)

/-! ### The machine -/

/-- The tables, and the calls in flight. -/
structure LicenseState where
  tables : LicenseTables
  calls : List LicenseCall := []

/-- A call comes in, or one in flight makes its next statement. -/
inductive LicenseEvent
  | create (input : CreateLicenseInput)
  | update (id : Uuid) (input : UpdateLicenseInput)
  | delete (id : Uuid)
  | assign (licenseId employeeId : Uuid) (notes : Option String)
  | revoke (assignmentId : Uuid)
  | advance (i : ℕ) (now : Time) (newId : Uuid)

namespace LicenseState

/-- A call comes in. -/
def add (s : LicenseState) (call : LicenseCall) : LicenseState :=
  { s with calls := s.calls ++ [call] }

/-- The state after a step. -/
def step (s : LicenseState) : LicenseEvent → LicenseState
  | .create input => s.add (.create input)
  | .update id input => s.add (.update id input)
  | .delete id => s.add (.delete id)
  | .assign licenseId employeeId notes => s.add (.assign licenseId employeeId notes)
  | .revoke assignmentId => s.add (.revoke assignmentId)
  | .advance i now newId =>
    match s.calls[i]? with
    | some call =>
      { tables := (call.advance now newId s.tables).1
        calls := s.calls.set i (call.advance now newId s.tables).2 }
    | none => s

end LicenseState

/-! ### The property -/

/-- The number of active seats of an employee for a license. -/
def seatsOf (tables : LicenseTables) (licenseId employeeId : Uuid) : ℕ :=
  tables.licenseAssignments.rows.countP
    (fun a => decide (a.licenseId = licenseId ∧ a.employeeId = employeeId ∧ a.revokedAt = none))

/-- What holds of the seats. -/
structure SeatsKept (tables : LicenseTables) : Prop where
  capacity : ∀ l ∈ tables.softwareLicenses.rows, ∀ n ∈ l.seatCount,
    countActiveSeats tables l.id ≤ n
  single : ∀ licenseId employeeId, seatsOf tables licenseId employeeId ≤ 1
  stored : ∀ a ∈ tables.licenseAssignments.rows, a.revokedAt = none →
    ∃ l, findById tables a.licenseId = some l

/-! ### The condition -/

/-- What the next statement of a call needs of the tables. -/
def SeatSafe (newId : Uuid) (tables : LicenseTables) : LicenseCall → Prop
  | .updateFound id input => ∀ n ∈ input.seatCount.join, countActiveSeats tables id ≤ n
  | .deleteUnused id => countActiveSeats tables id = 0
  | .assignSeat licenseId employeeId _ =>
    -- an insertion under an id that is taken stores nothing
    tables.licenseAssignments.find newId = none →
      findActiveAssignment tables licenseId employeeId = none ∧
      ∃ l ∈ findById tables licenseId, ∀ n ∈ l.seatCount, countActiveSeats tables licenseId < n
  | _ => True

instance (newId : Uuid) (tables : LicenseTables) :
    (call : LicenseCall) → Decidable (SeatSafe newId tables call)
  | .updateFound id input =>
    inferInstanceAs (Decidable (∀ n ∈ input.seatCount.join, countActiveSeats tables id ≤ n))
  | .deleteUnused id => inferInstanceAs (Decidable (countActiveSeats tables id = 0))
  | .assignSeat licenseId employeeId _ => inferInstanceAs (Decidable
      (tables.licenseAssignments.find newId = none →
        findActiveAssignment tables licenseId employeeId = none ∧
        ∃ l ∈ findById tables licenseId, ∀ n ∈ l.seatCount,
          countActiveSeats tables licenseId < n))
  | .create _ | .update _ _ | .delete _ | .deleteFound _ | .assign _ _ _ | .assignFound _ _ _ _
  | .assignLimited _ _ _ _ | .revoke _ | .done _ => isTrue trivial

namespace LicenseState

/-- The call that makes a statement in a step, and the id that it would give to a new row. -/
def advancing (s : LicenseState) : LicenseEvent → Option (LicenseCall × Uuid)
  | .advance i _ newId => s.calls[i]?.map fun call => (call, newId)
  | _ => none

/-- The condition on a step. -/
def Careful (s : LicenseState) (e : LicenseEvent) : Prop :=
  ∀ x ∈ s.advancing e, SeatSafe x.2 s.tables x.1

instance (s : LicenseState) (e : LicenseEvent) : Decidable (s.Careful e) :=
  inferInstanceAs (Decidable (∀ x ∈ s.advancing e, SeatSafe x.2 s.tables x.1))

end LicenseState

/-! ### What the statements do to the seats -/

section Writes

variable {tables tables' : LicenseTables} {id licenseId employeeId newId assignmentId : Uuid}
  {notes : Option String} {now : Time} {input : UpdateLicenseInput} {call : LicenseCall}

/-- An employee has no seat exactly if the lookup finds none. -/
theorem seatsOf_eq_zero_iff :
    seatsOf tables licenseId employeeId = 0 ↔
      findActiveAssignment tables licenseId employeeId = none := by
  rw [seatsOf, findActiveAssignment, List.countP_eq_zero, List.find?_eq_none]

/-- A license has no active seat exactly if no assignment is an active seat of it. -/
theorem countActiveSeats_eq_zero_iff :
    countActiveSeats tables id = 0 ↔
      ∀ a ∈ tables.licenseAssignments.rows, a.revokedAt = none → a.licenseId ≠ id := by
  simp only [countActiveSeats, List.countP_eq_zero, decide_eq_true_eq]
  exact forall₂_congr fun a _ => ⟨fun h hactive hid => h ⟨hid, hactive⟩,
    fun h hboth => h hboth.2 hboth.1⟩

/-- What is not stored has no active seat. -/
theorem SeatsKept.countActiveSeats_eq_zero (h : SeatsKept tables) (hnone : findById tables id = none) :
    countActiveSeats tables id = 0 := by
  refine countActiveSeats_eq_zero_iff.2 fun a ha hactive hid => ?_
  obtain ⟨l, hl⟩ := h.stored a ha hactive
  rw [hid, hnone] at hl
  cases hl

/-- **A new license** has no seat yet. -/
theorem SeatsKept.create {input : CreateLicenseInput} (h : SeatsKept tables)
    (hcreate : LicenseDrizzleRepository.create input now newId tables = .ok tables') :
    SeatsKept tables' := by
  simp only [LicenseDrizzleRepository.create, Except.bind_eq_ok_iff, Outcome.orThrow_eq_ok_iff,
    Except.pure_eq_ok_iff] at hcreate
  obtain ⟨softwareLicenses, hinsert, rfl⟩ := hcreate
  refine ⟨fun l hl n hn => ?_, h.single, fun a ha hactive => ?_⟩
  · rcases (Table.mem_insert hinsert).1 hl with hl | rfl
    · exact h.capacity l hl n hn
    · have hzero : countActiveSeats tables newId = 0 :=
        h.countActiveSeats_eq_zero (Table.insert_eq_some_iff.1 hinsert).1
      exact hzero ▸ Nat.zero_le n
  · obtain ⟨l, hl⟩ := h.stored a ha hactive
    exact ⟨l, Table.find_insert_of_find hinsert hl⟩

/-- An update keeps every license stored, and patches the one that it is about. -/
theorem findById_update (id' : Uuid) :
    findById (LicenseDrizzleRepository.update id input now tables) id' =
      (findById tables id').map
        (if id' = id then LicenseDrizzleRepository.patch input now else fun l => l) := by
  by_cases hid : id' = id
  · subst hid
    rw [if_pos rfl]
    exact Table.find_update_self tables.softwareLicenses id'
      (LicenseDrizzleRepository.patch input now) fun _ => rfl
  · rw [if_neg hid, Option.map_id']
    exact Table.find_update_ne tables.softwareLicenses hid
      (LicenseDrizzleRepository.patch input now) fun _ => rfl

/-- **An update** keeps the seats exactly if it does not set the limit below their number. -/
theorem SeatsKept.update_iff (h : SeatsKept tables) :
    SeatsKept (LicenseDrizzleRepository.update id input now tables) ↔
      ∀ n ∈ input.seatCount.join, countActiveSeats tables id ≤ n := by
  constructor
  · intro h' n hn
    cases hfind : findById tables id with
    | none => exact h.countActiveSeats_eq_zero hfind ▸ Nat.zero_le n
    | some l =>
      -- the updated license has the new limit
      have hid : l.id = id := Table.key_of_find hfind
      have hmem : LicenseDrizzleRepository.patch input now l ∈
          (LicenseDrizzleRepository.update id input now tables).softwareLicenses.rows := by
        refine Table.mem_of_find ((findById_update id).trans ?_)
        rw [if_pos rfl, hfind, Option.map_some]
      have hcount : input.seatCount.getD l.seatCount = some n := by
        cases hseat : input.seatCount with
        | none => rw [hseat] at hn; cases hn
        | some seatCount => rw [hseat] at hn; exact hn
      have hle := h'.capacity _ hmem n hcount
      rwa [show (LicenseDrizzleRepository.patch input now l).id = id from hid] at hle
  · intro hsafe
    refine ⟨fun l hl n hn => ?_, h.single, fun a ha hactive => ?_⟩
    · dsimp only [LicenseDrizzleRepository.update] at hl
      rcases Table.mem_update hl with ⟨l, hfind, rfl⟩ | ⟨hl, -⟩
      · have hid : l.id = id := Table.key_of_find hfind
        show countActiveSeats tables l.id ≤ n
        have hn : input.seatCount.getD l.seatCount = some n := hn
        cases hseat : input.seatCount with
        | none =>
          rw [hseat] at hn
          exact h.capacity l (Table.mem_of_find hfind) n hn
        | some seatCount =>
          rw [hseat] at hn
          rw [hid]
          refine hsafe n ?_
          rw [hseat]
          exact hn
      · exact h.capacity l hl n hn
    · obtain ⟨l, hl⟩ := h.stored a ha hactive
      exact ⟨_, (findById_update a.licenseId).trans (congrArg _ hl)⟩

/-- **A deletion** keeps the seats exactly if the license has no active one. -/
theorem SeatsKept.delete_iff (h : SeatsKept tables) :
    SeatsKept (LicenseDrizzleRepository.delete id tables) ↔ countActiveSeats tables id = 0 := by
  rw [countActiveSeats_eq_zero_iff]
  constructor
  · intro h' a ha hactive hid
    obtain ⟨l, hl⟩ := h'.stored a ha hactive
    have hgone := (Table.mem_deleteWhere.1 (Table.mem_of_find hl)).2
    exact of_decide_eq_false hgone ((Table.key_of_find hl).trans hid)
  · intro hnone
    refine ⟨fun l hl n hn => ?_, h.single, fun a ha hactive => ?_⟩
    · exact h.capacity l (Table.mem_deleteWhere.1 hl).1 n hn
    · obtain ⟨l, hl⟩ := h.stored a ha hactive
      have hkey : l.id = a.licenseId := Table.key_of_find hl
      have hother : ¬ l.id = id := fun hid => hnone a ha hactive (hkey.symm.trans hid)
      exact ⟨l, Table.find_eq_some_iff.2
        ⟨Table.mem_deleteWhere.2 ⟨Table.mem_of_find hl, decide_eq_false hother⟩, hkey⟩⟩

/-- A seat can be stored exactly if its id is free. -/
theorem exists_assign_iff :
    (∃ tables', LicenseDrizzleRepository.assign licenseId employeeId notes now newId tables =
      .ok tables') ↔ tables.licenseAssignments.find newId = none := by
  refine Iff.trans ?_ (Table.exists_insert_iff
    (r := LicenseDrizzleRepository.assignment licenseId employeeId notes now newId))
  simp only [LicenseDrizzleRepository.assign, Except.bind_eq_ok_iff, Outcome.orThrow_eq_ok_iff,
    Except.pure_eq_ok_iff]
  constructor
  · rintro ⟨-, t, hinsert, -⟩
    exact ⟨t, hinsert⟩
  · rintro ⟨t, hinsert⟩
    exact ⟨_, t, hinsert, rfl⟩

/-- A new seat counts for its license. -/
theorem countActiveSeats_assign {licenseAssignments : Table LicenseAssignment.id}
    (hinsert : tables.licenseAssignments.insert (LicenseDrizzleRepository.assignment licenseId
      employeeId notes now newId) = some licenseAssignments) (id : Uuid) :
    countActiveSeats { tables with licenseAssignments := licenseAssignments } id =
      countActiveSeats tables id + if id = licenseId then 1 else 0 := by
  refine (Table.countP_insert _ hinsert).trans (congrArg _ ?_)
  simp [LicenseDrizzleRepository.assignment, eq_comm (a := licenseId) (b := id)]

/-- **A new seat** keeps the seats exactly if the license is stored and has a seat left, and the
employee has none. -/
theorem SeatsKept.assign_iff (h : SeatsKept tables)
    (hassign : LicenseDrizzleRepository.assign licenseId employeeId notes now newId tables =
      .ok tables') :
    SeatsKept tables' ↔ findActiveAssignment tables licenseId employeeId = none ∧
      ∃ l ∈ findById tables licenseId, ∀ n ∈ l.seatCount, countActiveSeats tables licenseId < n := by
  simp only [LicenseDrizzleRepository.assign, Except.bind_eq_ok_iff, Outcome.orThrow_eq_ok_iff,
    Except.pure_eq_ok_iff] at hassign
  obtain ⟨licenseAssignments, hinsert, rfl⟩ := hassign
  have hcount := countActiveSeats_assign hinsert
  have hseats : ∀ id eid, seatsOf { tables with licenseAssignments := licenseAssignments } id eid =
      seatsOf tables id eid + if id = licenseId ∧ eid = employeeId then 1 else 0 := by
    intro id eid
    refine (Table.countP_insert _ hinsert).trans (congrArg _ ?_)
    simp [LicenseDrizzleRepository.assignment, eq_comm (a := licenseId) (b := id),
      eq_comm (a := employeeId) (b := eid)]
  rw [← seatsOf_eq_zero_iff]
  constructor
  · intro h'
    have hone := h'.single licenseId employeeId
    rw [hseats, if_pos ⟨rfl, rfl⟩] at hone
    obtain ⟨l, hl⟩ := h'.stored _ ((Table.mem_insert hinsert).2 (Or.inr rfl)) rfl
    refine ⟨Nat.le_zero.1 (Nat.le_of_succ_le_succ hone), l, hl, fun n hn => ?_⟩
    have hle := h'.capacity l (Table.mem_of_find hl) n hn
    have hkey : l.id = licenseId := Table.key_of_find hl
    rwa [hcount, if_pos hkey, hkey] at hle
  · rintro ⟨hzero, l, hl, hleft⟩
    refine ⟨fun l' hl' n hn => ?_, fun id eid => ?_, fun a ha hactive => ?_⟩
    · rw [hcount]
      by_cases hid : l'.id = licenseId
      · obtain rfl : l' = l := by
          have hl' := Table.find_of_mem hl'
          rw [hid] at hl'
          exact Option.some.inj (hl'.symm.trans hl)
        rw [if_pos hid, hid]
        exact hleft n hn
      · rw [if_neg hid]
        exact h.capacity l' hl' n hn
    · rw [hseats]
      split
      · rename_i heq
        obtain ⟨rfl, rfl⟩ := heq
        exact Nat.succ_le_succ (Nat.le_of_eq hzero)
      · exact h.single id eid
    · rcases (Table.mem_insert hinsert).1 ha with ha | rfl
      · exact h.stored a ha hactive
      · exact ⟨l, hl⟩

/-- A revocation makes no seat active. -/
theorem countP_revoke_le {p : LicenseAssignment → Bool} (hp : ∀ a, p a = true → a.revokedAt = none) :
    (LicenseDrizzleRepository.revoke assignmentId now tables).licenseAssignments.rows.countP p ≤
      tables.licenseAssignments.rows.countP p := by
  dsimp only [LicenseDrizzleRepository.revoke, Table.update, Table.updateWhere]
  rw [List.countP_map]
  refine List.countP_mono_left fun a _ ha => ?_
  simp only [Function.comp_apply] at ha
  split at ha
  · exact absurd (hp _ ha) (by simp)
  · exact ha

/-- **A revocation**. -/
theorem SeatsKept.revoke (h : SeatsKept tables) :
    SeatsKept (LicenseDrizzleRepository.revoke assignmentId now tables) := by
  refine ⟨fun l hl n hn => ?_, fun licenseId employeeId => ?_, fun a ha hactive => ?_⟩
  · refine Nat.le_trans (countP_revoke_le fun a ha => ?_) (h.capacity l hl n hn)
    exact (of_decide_eq_true ha).2
  · refine Nat.le_trans (countP_revoke_le fun a ha => ?_) (h.single licenseId employeeId)
    exact (of_decide_eq_true ha).2.2
  · dsimp only [LicenseDrizzleRepository.revoke] at ha
    rcases Table.mem_update ha with ⟨a, -, rfl⟩ | ⟨ha, -⟩
    · cases hactive
    · exact h.stored a ha hactive

/-- **The statement lemma**: the next statement of a call keeps the seats exactly if it is safe. -/
theorem SeatsKept.advance_iff (h : SeatsKept tables) :
    SeatsKept (call.advance now newId tables).1 ↔ SeatSafe newId tables call := by
  cases call with
  | updateFound id input => exact h.update_iff
  | deleteUnused id => exact h.delete_iff
  | create input =>
    refine iff_of_true ?_ trivial
    dsimp only [LicenseCall.advance]
    cases hcreate : LicenseDrizzleRepository.create input now newId tables with
    | error e => exact h
    | ok tables' => exact h.create hcreate
  | assignSeat licenseId employeeId notes =>
    dsimp only [LicenseCall.advance, SeatSafe]
    cases hassign : LicenseDrizzleRepository.assign licenseId employeeId notes now newId tables with
    | error e =>
      refine iff_of_true h fun hfree => ?_
      obtain ⟨tables', hok⟩ := exists_assign_iff.2 hfree
      rw [hassign] at hok
      cases hok
    | ok tables' =>
      have hfree : tables.licenseAssignments.find newId = none :=
        exists_assign_iff.1 ⟨tables', hassign⟩
      exact (h.assign_iff hassign).trans ⟨fun hsafe _ => hsafe, fun hsafe => hsafe hfree⟩
  | revoke assignmentId => exact iff_of_true h.revoke trivial
  | update id input => exact iff_of_true h trivial
  | delete id => exact iff_of_true h trivial
  | deleteFound id => exact iff_of_true h trivial
  | assign licenseId employeeId notes => exact iff_of_true h trivial
  | assignFound license licenseId employeeId notes => exact iff_of_true h trivial
  | assignLimited seatCount licenseId employeeId notes => exact iff_of_true h trivial
  | done result => exact iff_of_true h trivial

end Writes

/-! ### Runs -/

namespace LicenseState

/-- **The step lemma.** -/
theorem step_seatsKept_iff (s : LicenseState) (e : LicenseEvent) (h : SeatsKept s.tables) :
    SeatsKept (s.step e).tables ↔ s.Careful e := by
  cases e with
  | advance i now newId =>
    cases hcall : s.calls[i]? with
    | none => simp [step, Careful, advancing, hcall, h]
    | some call => simpa [step, Careful, advancing, hcall] using h.advance_iff
  | create input => simpa [step, add, Careful, advancing] using h
  | update id input => simpa [step, add, Careful, advancing] using h
  | delete id => simpa [step, add, Careful, advancing] using h
  | assign licenseId employeeId notes => simpa [step, add, Careful, advancing] using h
  | revoke assignmentId => simpa [step, add, Careful, advancing] using h

/-- **The seats.**  The seats are kept in every state of a run exactly if every statement of the
run is safe when it is made. -/
theorem always_seatsKept_iff (tables : LicenseTables) (h : SeatsKept tables)
    (es : List LicenseEvent) :
    (∀ fs, fs <+: es → SeatsKept (Runs.run step ⟨tables, []⟩ fs).tables) ↔
      Runs.Meets step Careful ⟨tables, []⟩ es :=
  Runs.always_iff_meets step_seatsKept_iff h

namespace Sample

/-- The state after a run from empty tables. -/
def after (es : List LicenseEvent) : LicenseState := Runs.run step ⟨LicenseTables.empty, []⟩ es

/-- A license with so many seats. -/
def input (seatCount : ℕ) : CreateLicenseInput :=
  { name := "Editor", vendor := "Vendor", licenseType := .perSeat, seatCount := some seatCount }

/-- License 10 with so many seats is bought. -/
def bought (seatCount : ℕ) : List LicenseEvent := [.create (input seatCount), .advance 0 1 10]

/-- The queries of the `i`th call, which is an assignment. -/
def queries (i : ℕ) : List LicenseEvent := [.advance i 2 0, .advance i 2 0, .advance i 2 0]

/-- Two calls give the one seat to two employees. -/
def overbooked : List LicenseEvent :=
  bought 1 ++ [.assign 10 1 none, .assign 10 2 none] ++ queries 1 ++ queries 2 ++
    [.advance 1 3 20, .advance 2 3 21]

/-- Two calls give an employee two seats. -/
def twice : List LicenseEvent :=
  bought 5 ++ [.assign 10 1 none, .assign 10 1 none] ++ queries 1 ++ queries 2 ++
    [.advance 1 3 20, .advance 2 3 21]

/-- The license is deleted between the tests and the insertion of an assignment. -/
def orphaned : List LicenseEvent :=
  bought 5 ++ [.assign 10 1 none, .delete 10] ++ queries 1 ++
    [.advance 2 3 0, .advance 2 3 0, .advance 2 3 0, .advance 1 4 20]

/-- Two seats are given one after the other. -/
def seated : List LicenseEvent :=
  bought 2 ++ [.assign 10 1 none] ++ queries 1 ++ [.advance 1 3 20, .assign 10 2 none] ++
    queries 2 ++ [.advance 2 4 21]

/-- The limit is lowered below the seats that are given. -/
def lowered : List LicenseEvent :=
  seated ++ [.update 10 { seatCount := some (some 1) }, .advance 3 5 0, .advance 3 5 0]

/-- A seat is revoked before the limit is lowered. -/
def orderly : List LicenseEvent :=
  seated ++ [.revoke 20, .advance 3 5 0, .update 10 { seatCount := some (some 1) },
    .advance 4 6 0, .advance 4 6 0]

theorem seatsKept_empty : SeatsKept LicenseTables.empty :=
  ⟨fun _ hl => absurd hl List.not_mem_nil, fun _ _ => Nat.zero_le 1,
    fun _ ha => absurd ha List.not_mem_nil⟩

/-- Each of the four runs ends with the seats not kept. -/
theorem not_seatsKept :
    SeatsKept LicenseTables.empty ∧ ¬ SeatsKept (after overbooked).tables ∧
      ¬ SeatsKept (after twice).tables ∧ ¬ SeatsKept (after orphaned).tables ∧
      ¬ SeatsKept (after lowered).tables := by
  refine ⟨seatsKept_empty, fun h => ?_, fun h => ?_, fun h => ?_, fun h => ?_⟩
  · exact absurd (h.capacity (LicenseDrizzleRepository.license (input 1) 1 10) (by decide) 1 rfl)
      (by decide)
  · exact absurd (h.single 10 1) (by decide)
  · obtain ⟨l, hl⟩ := h.stored ⟨20, 10, 1, 4, none, none⟩ (by decide) rfl
    have hgone : findById (after orphaned).tables 10 = none := by decide
    rw [hgone] at hl
    cases hl
  · exact absurd (h.capacity (LicenseDrizzleRepository.patch { seatCount := some (some 1) } 5
      (LicenseDrizzleRepository.license (input 2) 1 10)) (by decide) 1 rfl) (by decide)

/-- In the orderly run every statement is safe. -/
theorem always_seatsKept_orderly :
    Runs.Meets step Careful ⟨LicenseTables.empty, []⟩ orderly ∧
      ∀ fs, fs <+: orderly → SeatsKept (after fs).tables := by
  have horderly : Runs.Meets step Careful ⟨LicenseTables.empty, []⟩ orderly := by decide
  exact ⟨horderly, (always_seatsKept_iff LicenseTables.empty seatsKept_empty orderly).2 horderly⟩

end Sample

end LicenseState

end OpsHub
