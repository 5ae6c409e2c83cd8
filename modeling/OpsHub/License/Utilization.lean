import Mathlib.Data.List.Dedup
import Mathlib.Data.List.Perm.Basic
import OpsHub.Lib.GroupBy
import OpsHub.License.Seats

/-!
# The utilization of the licenses

`getUtilization` counts the seats of all licenses in one query, a left join whose rows are grouped
by license, where the service counts those of one license at a time.

* `leftJoin`, `usedSeats`, `getUtilization`: the query and the figures that are made of it;
* `usedSeats_group`: the group of a license has the seats that `countActiveSeats` counts;
* `getUtilization_perm`: the answer, license by license;
* `sum_countActiveSeats`: the seats of the stored licenses, all together;
* `utilization_exact`: each license stands in the answer once, with its own seats, and they add up
  to the active seats of stored licenses;
* `InBounds`, `inBounds_iff`: no license is reported with more seats used than it has;
* `HasRoom`, `Roomy`: what a statement needs for that, `always_inBounds_iff` for a whole run;
* `always_reported`: the report at any moment of a careful run.
-/

namespace OpsHub

open LicenseDrizzleRepository (findById countActiveSeats)

/-! ### The query -/

/-- `LicenseUtilization`. -/
structure LicenseUtilization where
  licenseId : Uuid
  name : String
  vendor : String
  seatCount : Option ℕ
  usedSeats : ℕ
  availableSeats : Option ℤ
  utilizationPct : Option ℕ
  monthlySpendCents : Option ℕ
  deriving DecidableEq, Repr

/-- `Math.round((used / seatCount) * 100)`, in floating-point numbers. -/
structure Percentage where
  round : ℕ → ℕ → ℕ
  le_hundred : ∀ used seatCount, 0 < seatCount → used ≤ seatCount → round used seatCount ≤ 100

/-- The columns of `GROUP BY`. -/
abbrev LicenseKey : Type := Uuid × String × String × Option ℕ × Option ℕ

namespace LicenseDrizzleRepository

/-- The columns of `GROUP BY`. -/
def groupKey (l : SoftwareLicense) : LicenseKey :=
  (l.id, l.name, l.vendor, l.seatCount, l.costPerSeatCents)

/-- The rows of the join for one license. -/
def joinedTo (assignments : List LicenseAssignment) (l : SoftwareLicense) :
    List (SoftwareLicense × Option LicenseAssignment) :=
  match assignments.filter (fun a => decide (l.id = a.licenseId)) with
  | [] => [(l, none)]
  | found => found.map fun a => (l, some a)

/-- The rows of the left join. -/
def leftJoin (tables : LicenseTables) : List (SoftwareLicense × Option LicenseAssignment) :=
  tables.softwareLicenses.rows.flatMap (joinedTo tables.licenseAssignments.rows)

/-- `count(id) filter (where revoked_at is null)`; the id of an absent assignment is null. -/
def usedSeats (rows : List (SoftwareLicense × Option LicenseAssignment)) : ℕ :=
  rows.countP fun (_, a) => a.any fun a => decide (a.revokedAt = none)

/-- The figures of a license. -/
def utilization (percentage : Percentage) : LicenseKey → ℕ → LicenseUtilization
  | (licenseId, name, vendor, seatCount, costPerSeatCents), used =>
    { licenseId := licenseId
      name := name
      vendor := vendor
      seatCount := seatCount
      usedSeats := used
      availableSeats := seatCount.map fun n : ℕ => (n : ℤ) - used
      utilizationPct := seatCount.bind fun n =>
        if n > 0 then some (percentage.round used n) else none
      monthlySpendCents := costPerSeatCents.map fun cost => used * cost }

/-- `getUtilization`, with the groups in one of the orders in which they may come. -/
def getUtilization (percentage : Percentage) (tables : LicenseTables) : List LicenseUtilization :=
  ((leftJoin tables).map fun row => groupKey row.1).dedup.map fun key =>
    utilization percentage key
      (usedSeats (GroupBy.group (fun row => groupKey row.1) (leftJoin tables) key))

end LicenseDrizzleRepository

open LicenseDrizzleRepository

/-! ### The groups -/

section Groups

variable {tables : LicenseTables} {assignments : List LicenseAssignment} {l : SoftwareLicense}

theorem fst_of_mem_joinedTo {row : SoftwareLicense × Option LicenseAssignment}
    (h : row ∈ joinedTo assignments l) : row.1 = l := by
  unfold joinedTo at h
  split at h
  · rw [List.mem_singleton] at h
    rw [h]
  · obtain ⟨a, -, rfl⟩ := List.mem_map.1 h
    rfl

/-- Every license is joined to something. -/
theorem joinedTo_ne_nil : joinedTo assignments l ≠ [] := by
  unfold joinedTo
  split
  · simp
  · rename_i hfound
    simpa using hfound

/-- The seats of a license, counted in its part of the join. -/
theorem usedSeats_joinedTo :
    usedSeats (joinedTo assignments l) =
      assignments.countP fun a => decide (a.licenseId = l.id ∧ a.revokedAt = none) := by
  have hsplit : (assignments.countP fun a => decide (a.licenseId = l.id ∧ a.revokedAt = none)) =
      (assignments.filter fun a => decide (l.id = a.licenseId)).countP
        fun a => decide (a.revokedAt = none) := by
    rw [List.countP_filter]
    refine List.countP_congr fun a _ => ?_
    simp only [decide_eq_true_eq, Bool.and_eq_true]
    exact ⟨fun h => ⟨h.2, h.1.symm⟩, fun h => ⟨h.2.symm, h.1⟩⟩
  rw [hsplit]
  unfold joinedTo usedSeats
  split
  · rename_i hnone
    rw [hnone]
    rfl
  · rw [List.countP_map]
    rfl

/-- The part of a license in the join of several. -/
theorem filter_flatMap_joinedTo {ls : List SoftwareLicense}
    (hnodup : (ls.map SoftwareLicense.id).Nodup) (hl : l ∈ ls) :
    (ls.flatMap (joinedTo assignments)).filter (fun row => decide (groupKey row.1 = groupKey l)) =
      joinedTo assignments l := by
  have hid : ∀ {x y : SoftwareLicense}, groupKey x = groupKey y → x.id = y.id :=
    fun h => congrArg Prod.fst h
  induction ls with
  | nil => cases hl
  | cons x ls ih =>
    rw [List.map_cons, List.nodup_cons] at hnodup
    rw [List.flatMap_cons, List.filter_append]
    by_cases hx : x = l
    · -- no other license has its id
      subst hx
      have hall : (joinedTo assignments x).filter
          (fun row => decide (groupKey row.1 = groupKey x)) = joinedTo assignments x :=
        List.filter_eq_self.2 fun row hrow => by simp [fst_of_mem_joinedTo hrow]
      have hnone : (ls.flatMap (joinedTo assignments)).filter
          (fun row => decide (groupKey row.1 = groupKey x)) = [] := by
        refine List.filter_eq_nil_iff.2 fun row hrow hkey => hnodup.1 ?_
        obtain ⟨y, hy, hrow⟩ := List.mem_flatMap.1 hrow
        have hkey := hid (of_decide_eq_true hkey)
        rw [fst_of_mem_joinedTo hrow] at hkey
        exact List.mem_map.2 ⟨y, hy, hkey⟩
      rw [hall, hnone, List.append_nil]
    · have hmem : l ∈ ls := (List.mem_cons.1 hl).resolve_left fun h => hx h.symm
      have hnone : (joinedTo assignments x).filter
          (fun row => decide (groupKey row.1 = groupKey l)) = [] := by
        refine List.filter_eq_nil_iff.2 fun row hrow hkey => hnodup.1 ?_
        have hkey := hid (of_decide_eq_true hkey)
        rw [fst_of_mem_joinedTo hrow] at hkey
        exact List.mem_map.2 ⟨l, hmem, hkey.symm⟩
      rw [hnone, List.nil_append]
      exact ih hnodup.2 hmem

/-- **The group** of a license has its active seats. -/
theorem usedSeats_group (hl : l ∈ tables.softwareLicenses.rows) :
    usedSeats (GroupBy.group (fun row => groupKey row.1) (leftJoin tables) (groupKey l)) =
      countActiveSeats tables l.id := by
  have hgroup : GroupBy.group (fun row => groupKey row.1) (leftJoin tables) (groupKey l) =
      joinedTo tables.licenseAssignments.rows l :=
    filter_flatMap_joinedTo tables.softwareLicenses.nodup hl
  rw [hgroup, usedSeats_joinedTo]
  rfl

/-- The keys are those of the licenses. -/
theorem keys_perm (tables : LicenseTables) :
    ((leftJoin tables).map fun row => groupKey row.1).dedup.Perm
      (tables.softwareLicenses.rows.map groupKey) := by
  have hnodup : (tables.softwareLicenses.rows.map groupKey).Nodup := by
    refine List.Nodup.of_map Prod.fst ?_
    rw [List.map_map]
    exact tables.softwareLicenses.nodup
  refine (List.perm_ext_iff_of_nodup (List.nodup_dedup _) hnodup).2 fun key => ?_
  rw [List.mem_dedup, List.mem_map, List.mem_map]
  constructor
  · rintro ⟨row, hrow, rfl⟩
    obtain ⟨l, hl, hrow⟩ := List.mem_flatMap.1 hrow
    exact ⟨l, hl, by rw [fst_of_mem_joinedTo hrow]⟩
  · rintro ⟨l, hl, rfl⟩
    obtain ⟨row, hrow⟩ := List.exists_mem_of_ne_nil _
      (@joinedTo_ne_nil tables.licenseAssignments.rows l)
    exact ⟨row, List.mem_flatMap.2 ⟨l, hl, hrow⟩, by rw [fst_of_mem_joinedTo hrow]⟩

/-- **The answer**, license by license. -/
theorem getUtilization_perm (percentage : Percentage) (tables : LicenseTables) :
    (getUtilization percentage tables).Perm (tables.softwareLicenses.rows.map fun l =>
      utilization percentage (groupKey l) (countActiveSeats tables l.id)) := by
  refine ((keys_perm tables).map _).trans (List.Perm.of_eq ?_)
  rw [List.map_map]
  refine List.map_congr_left fun l hl => ?_
  rw [Function.comp_apply, usedSeats_group hl]

end Groups

/-! ### The answer as a whole -/

section Answer

variable {percentage : Percentage} {tables : LicenseTables}

/-- The active seats of the stored licenses. -/
theorem sum_countActiveSeats (tables : LicenseTables) :
    (tables.softwareLicenses.rows.map fun l => countActiveSeats tables l.id).sum =
      tables.licenseAssignments.rows.countP fun a =>
        decide (a.revokedAt = none) && (findById tables a.licenseId).isSome := by
  have hkeys : ∀ a ∈ tables.licenseAssignments.rows.filter
      (fun a => (findById tables a.licenseId).isSome),
      a.licenseId ∈ tables.softwareLicenses.rows.map SoftwareLicense.id := by
    intro a ha
    obtain ⟨l, hl⟩ := Option.isSome_iff_exists.1 (List.mem_filter.1 ha).2
    exact List.mem_map.2 ⟨l, Table.mem_of_find hl, Table.key_of_find hl⟩
  have hgroup : ∀ l ∈ tables.softwareLicenses.rows, countActiveSeats tables l.id =
      (GroupBy.group LicenseAssignment.licenseId (tables.licenseAssignments.rows.filter
        fun a => (findById tables a.licenseId).isSome) l.id).countP
          fun a => decide (a.revokedAt = none) := by
    intro l hl
    rw [GroupBy.group, List.countP_filter, List.countP_filter]
    refine List.countP_congr fun a _ => ?_
    simp only [decide_eq_true_eq, Bool.and_eq_true]
    constructor
    · rintro ⟨hid, hactive⟩
      have hfind : findById tables a.licenseId = some l := hid ▸ Table.find_of_mem hl
      exact ⟨⟨hactive, hid⟩, hfind ▸ rfl⟩
    · rintro ⟨⟨hactive, hid⟩, -⟩
      exact ⟨hid, hactive⟩
  have hsum := GroupBy.sum_countP_group (fun a => decide (a.revokedAt = none))
    tables.softwareLicenses.nodup hkeys
  rw [List.map_map, List.countP_filter] at hsum
  rw [List.map_congr_left hgroup]
  exact hsum

/-- A line of the answer is about a stored license. -/
theorem mem_getUtilization {u : LicenseUtilization} :
    u ∈ getUtilization percentage tables ↔ ∃ l ∈ tables.softwareLicenses.rows,
      utilization percentage (groupKey l) (countActiveSeats tables l.id) = u := by
  rw [(getUtilization_perm percentage tables).mem_iff, List.mem_map]

/-- The seats in the answer. -/
theorem sum_usedSeats (percentage : Percentage) (tables : LicenseTables) :
    ((getUtilization percentage tables).map LicenseUtilization.usedSeats).sum =
      tables.licenseAssignments.rows.countP fun a =>
        decide (a.revokedAt = none) && (findById tables a.licenseId).isSome := by
  rw [← sum_countActiveSeats, ((getUtilization_perm percentage tables).map _).sum_eq, List.map_map]
  rfl

/-- **The utilization is exact.**  Each stored license stands in the answer once, with the seats
that the service counts for it, and they add up to the active seats of stored licenses. -/
theorem utilization_exact (percentage : Percentage) (tables : LicenseTables) :
    ((getUtilization percentage tables).map LicenseUtilization.licenseId).Perm
        (tables.softwareLicenses.rows.map SoftwareLicense.id) ∧
      (∀ u ∈ getUtilization percentage tables,
        u.usedSeats = countActiveSeats tables u.licenseId) ∧
      ((getUtilization percentage tables).map LicenseUtilization.usedSeats).sum =
        tables.licenseAssignments.rows.countP fun a =>
          decide (a.revokedAt = none) && (findById tables a.licenseId).isSome := by
  refine ⟨?_, fun u hu => ?_, sum_usedSeats percentage tables⟩
  · have hperm := (getUtilization_perm percentage tables).map LicenseUtilization.licenseId
    rw [List.map_map] at hperm
    exact hperm
  · obtain ⟨l, -, rfl⟩ := mem_getUtilization.1 hu
    rfl

/-- No license is reported with more seats used than it has. -/
def InBounds (percentage : Percentage) (tables : LicenseTables) : Prop :=
  ∀ u ∈ getUtilization percentage tables,
    (∀ n ∈ u.availableSeats, 0 ≤ n) ∧ ∀ p ∈ u.utilizationPct, p ≤ 100

/-- No license has more active seats than its limit. -/
def WithinLimits (tables : LicenseTables) : Prop :=
  ∀ l ∈ tables.softwareLicenses.rows, ∀ n ∈ l.seatCount, countActiveSeats tables l.id ≤ n

/-- **The bounds** are those of the limits. -/
theorem inBounds_iff : InBounds percentage tables ↔ WithinLimits tables := by
  constructor
  · intro h l hl n hn
    have havailable : (n : ℤ) - countActiveSeats tables l.id ∈
        (utilization percentage (groupKey l) (countActiveSeats tables l.id)).availableSeats :=
      Option.mem_map.2 ⟨n, hn, rfl⟩
    have hle := (h _ (mem_getUtilization.2 ⟨l, hl, rfl⟩)).1 _ havailable
    omega
  · intro h u hu
    obtain ⟨l, hl, rfl⟩ := mem_getUtilization.1 hu
    constructor
    · intro available havailable
      obtain ⟨n, hn, rfl⟩ := Option.mem_map.1 havailable
      have hle := h l hl n hn
      omega
    · intro pct hpct
      obtain ⟨n, hn, hpct⟩ := Option.mem_bind_iff.1 hpct
      split at hpct
      · rename_i hpos
        obtain rfl := Option.mem_some_iff.1 hpct
        exact percentage.le_hundred _ n hpos (h l hl n hn)
      · cases hpct

/-- Where the seats are kept, every active seat is in the answer. -/
theorem SeatsKept.sum_usedSeats (h : SeatsKept tables) :
    ((getUtilization percentage tables).map LicenseUtilization.usedSeats).sum =
      tables.licenseAssignments.rows.countP fun a => decide (a.revokedAt = none) := by
  rw [OpsHub.sum_usedSeats]
  refine List.countP_congr fun a ha => ?_
  simp only [Bool.and_eq_true, decide_eq_true_eq, Option.isSome_iff_exists]
  exact ⟨fun hboth => hboth.1, fun hactive => ⟨hactive, h.stored a ha hactive⟩⟩

end Answer

/-! ### What a statement needs -/

/-- What the next statement of a call needs for the limits. -/
def HasRoom (newId : Uuid) (tables : LicenseTables) : LicenseCall → Prop
  | .create input =>
    -- a new license may have the id of one that has been deleted
    tables.softwareLicenses.find newId = none →
      ∀ n ∈ input.seatCount, countActiveSeats tables newId ≤ n
  | .updateFound id input =>
    ∀ _ ∈ findById tables id, ∀ n ∈ input.seatCount.join, countActiveSeats tables id ≤ n
  | .assignSeat licenseId _ _ =>
    tables.licenseAssignments.find newId = none →
      ∀ l ∈ findById tables licenseId, ∀ n ∈ l.seatCount, countActiveSeats tables licenseId < n
  | _ => True

instance (newId : Uuid) (tables : LicenseTables) :
    (call : LicenseCall) → Decidable (HasRoom newId tables call)
  | .create input => inferInstanceAs (Decidable (tables.softwareLicenses.find newId = none →
      ∀ n ∈ input.seatCount, countActiveSeats tables newId ≤ n))
  | .updateFound id input => inferInstanceAs (Decidable
      (∀ _ ∈ findById tables id, ∀ n ∈ input.seatCount.join, countActiveSeats tables id ≤ n))
  | .assignSeat licenseId _ _ => inferInstanceAs (Decidable
      (tables.licenseAssignments.find newId = none →
        ∀ l ∈ findById tables licenseId, ∀ n ∈ l.seatCount,
          countActiveSeats tables licenseId < n))
  | .update _ _ | .delete _ | .deleteFound _ | .deleteUnused _ | .assign _ _ _
  | .assignFound _ _ _ _ | .assignLimited _ _ _ _ | .revoke _ | .done _ => isTrue trivial

section Writes

variable {tables tables' : LicenseTables} {id licenseId employeeId newId : Uuid}
  {notes : Option String} {now : Time} {call : LicenseCall}

/-- A license can be stored exactly if its id is free. -/
theorem exists_create_iff {input : CreateLicenseInput} :
    (∃ tables', LicenseDrizzleRepository.create input now newId tables = .ok tables') ↔
      tables.softwareLicenses.find newId = none := by
  refine Iff.trans ?_ (Table.exists_insert_iff
    (r := LicenseDrizzleRepository.license input now newId))
  simp only [LicenseDrizzleRepository.create, Except.bind_eq_ok_iff, Outcome.orThrow_eq_ok_iff,
    Except.pure_eq_ok_iff]
  constructor
  · rintro ⟨-, t, hinsert, -⟩
    exact ⟨t, hinsert⟩
  · rintro ⟨t, hinsert⟩
    exact ⟨_, t, hinsert, rfl⟩

/-- **A new license** has the active seats of its id. -/
theorem WithinLimits.create_iff {input : CreateLicenseInput} (h : WithinLimits tables)
    (hcreate : LicenseDrizzleRepository.create input now newId tables = .ok tables') :
    WithinLimits tables' ↔ ∀ n ∈ input.seatCount, countActiveSeats tables newId ≤ n := by
  simp only [LicenseDrizzleRepository.create, Except.bind_eq_ok_iff, Outcome.orThrow_eq_ok_iff,
    Except.pure_eq_ok_iff] at hcreate
  obtain ⟨softwareLicenses, hinsert, rfl⟩ := hcreate
  constructor
  · exact fun h' => h' _ ((Table.mem_insert hinsert).2 (Or.inr rfl))
  · exact fun hroom => Table.forall_mem_insert hinsert h hroom

/-- **An update** of the limit. -/
theorem WithinLimits.update_iff {input : UpdateLicenseInput} (h : WithinLimits tables) :
    WithinLimits (LicenseDrizzleRepository.update id input now tables) ↔
      ∀ _ ∈ findById tables id, ∀ n ∈ input.seatCount.join, countActiveSeats tables id ≤ n := by
  have hupdate := @Table.forall_mem_update_iff _ _ _ _ tables.softwareLicenses id
    (LicenseDrizzleRepository.patch input now) (fun _ => rfl)
    (fun l => ∀ n ∈ l.seatCount, countActiveSeats tables l.id ≤ n) h
  refine hupdate.trans (forall₂_congr fun l hl => ?_)
  have hid : l.id = id := Table.key_of_find hl
  show (∀ n ∈ input.seatCount.getD l.seatCount, countActiveSeats tables l.id ≤ n) ↔ _
  cases input.seatCount with
  | none => exact iff_of_true (h l (Table.mem_of_find hl)) fun n hn => by cases hn
  | some seatCount => rw [hid]; rfl

/-- **A new seat** of a stored license needs one that is left. -/
theorem WithinLimits.assign_iff (h : WithinLimits tables)
    (hassign : LicenseDrizzleRepository.assign licenseId employeeId notes now newId tables =
      .ok tables') :
    WithinLimits tables' ↔
      ∀ l ∈ findById tables licenseId, ∀ n ∈ l.seatCount,
        countActiveSeats tables licenseId < n := by
  simp only [LicenseDrizzleRepository.assign, Except.bind_eq_ok_iff, Outcome.orThrow_eq_ok_iff,
    Except.pure_eq_ok_iff] at hassign
  obtain ⟨licenseAssignments, hinsert, rfl⟩ := hassign
  have hcount := countActiveSeats_assign hinsert
  constructor
  · intro h' l hl n hn
    have hkey : l.id = licenseId := Table.key_of_find hl
    have hle := h' l (Table.mem_of_find hl) n hn
    rwa [hcount, if_pos hkey, hkey] at hle
  · intro hroom l hl n hn
    rw [hcount]
    by_cases hid : l.id = licenseId
    · rw [if_pos hid, hid]
      exact hroom l (hid ▸ Table.find_of_mem hl) n hn
    · rw [if_neg hid]
      exact h l hl n hn

/-- **The statement lemma**: the next statement of a call keeps the limits exactly if it has
room. -/
theorem WithinLimits.advance_iff (h : WithinLimits tables) :
    WithinLimits (call.advance now newId tables).1 ↔ HasRoom newId tables call := by
  cases call with
  | create input =>
    dsimp only [LicenseCall.advance, HasRoom]
    cases hcreate : LicenseDrizzleRepository.create input now newId tables with
    | error e =>
      refine iff_of_true h fun hfree => ?_
      obtain ⟨tables', hok⟩ := exists_create_iff.2 hfree
      rw [hcreate] at hok
      cases hok
    | ok tables' =>
      have hfree : tables.softwareLicenses.find newId = none :=
        exists_create_iff.1 ⟨tables', hcreate⟩
      exact (h.create_iff hcreate).trans ⟨fun hroom _ => hroom, fun hroom => hroom hfree⟩
  | updateFound id input => exact h.update_iff
  | assignSeat licenseId employeeId notes =>
    dsimp only [LicenseCall.advance, HasRoom]
    cases hassign : LicenseDrizzleRepository.assign licenseId employeeId notes now newId tables with
    | error e =>
      refine iff_of_true h fun hfree => ?_
      obtain ⟨tables', hok⟩ := exists_assign_iff.2 hfree
      rw [hassign] at hok
      cases hok
    | ok tables' =>
      have hfree : tables.licenseAssignments.find newId = none :=
        exists_assign_iff.1 ⟨tables', hassign⟩
      exact (h.assign_iff hassign).trans ⟨fun hroom _ => hroom, fun hroom => hroom hfree⟩
  | deleteUnused id =>
    exact iff_of_true (fun l hl => h l (Table.mem_deleteWhere.1 hl).1) trivial
  | revoke assignmentId =>
    refine iff_of_true (fun l hl n hn => Nat.le_trans (countP_revoke_le fun a ha => ?_)
      (h l hl n hn)) trivial
    exact (of_decide_eq_true ha).2
  | update id input => exact iff_of_true h trivial
  | delete id => exact iff_of_true h trivial
  | deleteFound id => exact iff_of_true h trivial
  | assign licenseId employeeId notes => exact iff_of_true h trivial
  | assignFound license licenseId employeeId notes => exact iff_of_true h trivial
  | assignLimited seatCount licenseId employeeId notes => exact iff_of_true h trivial
  | done result => exact iff_of_true h trivial

end Writes

/-! ### Runs -/

namespace LicenseState

/-- The condition on a step. -/
def Roomy (s : LicenseState) (e : LicenseEvent) : Prop :=
  ∀ x ∈ s.advancing e, HasRoom x.2 s.tables x.1

instance (s : LicenseState) (e : LicenseEvent) : Decidable (s.Roomy e) :=
  inferInstanceAs (Decidable (∀ x ∈ s.advancing e, HasRoom x.2 s.tables x.1))

/-- **The step lemma.** -/
theorem step_inBounds_iff (percentage : Percentage) (s : LicenseState) (e : LicenseEvent)
    (h : InBounds percentage s.tables) : InBounds percentage (s.step e).tables ↔ s.Roomy e := by
  rw [inBounds_iff] at h ⊢
  cases e with
  | advance i now newId =>
    cases hcall : s.calls[i]? with
    | none => simp [step, Roomy, advancing, hcall, h]
    | some call => simpa [step, Roomy, advancing, hcall] using h.advance_iff
  | create input => simpa [step, add, Roomy, advancing] using h
  | update id input => simpa [step, add, Roomy, advancing] using h
  | delete id => simpa [step, add, Roomy, advancing] using h
  | assign licenseId employeeId notes => simpa [step, add, Roomy, advancing] using h
  | revoke assignmentId => simpa [step, add, Roomy, advancing] using h

/-- **The bounds of the report.**  In every state of a run no license is reported with more seats
used than it has, exactly if every statement of the run has room when it is made. -/
theorem always_inBounds_iff (percentage : Percentage) (tables : LicenseTables)
    (h : InBounds percentage tables) (es : List LicenseEvent) :
    (∀ fs, fs <+: es → InBounds percentage (Runs.run step ⟨tables, []⟩ fs).tables) ↔
      Runs.Meets step Roomy ⟨tables, []⟩ es :=
  Runs.always_iff_meets (step_inBounds_iff percentage) h

/-- **The report.**  At any moment of a careful run no license is reported with more seats
used than it has, and the report has every active seat. -/
theorem always_reported (percentage : Percentage) (tables : LicenseTables) (h : SeatsKept tables)
    (es : List LicenseEvent) (hcareful : Runs.Meets step Careful ⟨tables, []⟩ es) :
    ∀ fs, fs <+: es →
      InBounds percentage (Runs.run step ⟨tables, []⟩ fs).tables ∧
      ((getUtilization percentage (Runs.run step ⟨tables, []⟩ fs).tables).map
        LicenseUtilization.usedSeats).sum =
          (Runs.run step ⟨tables, []⟩ fs).tables.licenseAssignments.rows.countP
            fun a => decide (a.revokedAt = none) := by
  intro fs hfs
  have hstep : ∀ (s : LicenseState) (e : LicenseEvent), SeatsKept s.tables → s.Careful e →
      SeatsKept (s.step e).tables := fun s e hs hok => (step_seatsKept_iff s e hs).2 hok
  have hkept : SeatsKept (Runs.run step ⟨tables, []⟩ fs).tables :=
    Runs.run_induction hstep h (hcareful.of_prefix hfs)
  exact ⟨inBounds_iff.2 hkept.capacity, hkept.sum_usedSeats⟩

namespace Sample

/-- The nearest number, and the larger one of two. -/
def percentage : Percentage where
  round used seatCount := (200 * used + seatCount) / (2 * seatCount)
  le_hundred used seatCount hpos hle :=
    Nat.le_of_lt_succ (Nat.div_lt_of_lt_mul (by omega))

/-- A license that is deleted before its seat is stored is not in the report, but two employees
with one seat are. -/
theorem always_inBounds_orphaned :
    (∀ fs, fs <+: orphaned → InBounds percentage (after fs).tables) ∧
      getUtilization percentage (after overbooked).tables =
        [⟨10, "Editor", "Vendor", some 1, 2, some (-1), some 200, none⟩] :=
  ⟨(always_inBounds_iff percentage LicenseTables.empty (fun u hu => by cases hu) orphaned).2
    (by decide), by decide⟩

/-- The report of an orderly run. -/
theorem always_reported_orderly :
    (∀ fs, fs <+: orderly →
      InBounds percentage (after fs).tables ∧
      ((getUtilization percentage (after fs).tables).map LicenseUtilization.usedSeats).sum =
        (after fs).tables.licenseAssignments.rows.countP fun a => decide (a.revokedAt = none)) ∧
      getUtilization percentage (after orderly).tables =
        [⟨10, "Editor", "Vendor", some 1, 1, some 0, some 100, none⟩] :=
  ⟨always_reported percentage LicenseTables.empty seatsKept_empty orderly (by decide), by decide⟩

end Sample

end LicenseState

end OpsHub
