import OpsHub.Ai.Boundaries
import OpsHub.Ai.ToolInputs
import OpsHub.Lib.FilterLimit
import OpsHub.Lib.Paging

/-!
# Searching employees

The schema of `search_employees` offers a text, a department, a status and a limit.  The tool asks
the database for the newest employees of the status, and looks for the text among them; it never
reads the department.

* `SearchInput`: what the schema offers, and `toInput`, the input that says so;
* `Complete`: the tool returns the newest employees among those that match all filters, as many as
  are asked for;
* `Served`: what the employees and the limit have to be like;
* `complete_search_iff`: the search is complete exactly then;
* `not_complete_search`: an employee is missed behind a newer one, and one of another department is
  found.
-/

namespace OpsHub

namespace AiService

/-- A runtime whose `Number` leaves numbers as they are. -/
structure NumericRuntime extends ToolRuntime where
  number_num : ∀ n, number (.num n) = .ok n

/-- What the schema of `search_employees` offers. -/
structure SearchInput where
  query : Option String := none
  department : Option String := none
  status : Option EmployeeStatus := none
  limit : Option ℚ := none

namespace SearchInput

/-- The label of a status in the schema. -/
def label : EmployeeStatus → String
  | .active => "active"
  | .onLeave => "on_leave"
  | .offboarded => "offboarded"

/-- The object that is given to the tool. -/
def toInput (s : SearchInput) : ToolInput :=
  s.query.toList.map (fun query => ("query", .str query)) ++
    s.department.toList.map (fun department => ("department", .str department)) ++
    s.status.toList.map (fun status => ("status", .str (label status))) ++
    s.limit.toList.map (fun limit => ("limit", .num (.finite limit)))

/-- The limit, 10 where there is none. -/
def number (s : SearchInput) : ℚ := s.limit.getD 10

/-- `min(limit, 20)` as a number of employees. -/
def size (s : SearchInput) : ℕ :=
  if s.number < 0 then 0 else if s.number < 20 then s.number.floor.toNat else 20

def hasStatus (s : SearchInput) (e : EmployeeProfile) : Bool :=
  s.status.all (fun status => decide (e.status = status))

/-- As in the list of employees, an empty text counts as no department. -/
def inDepartment (s : SearchInput) (e : EmployeeProfile) : Bool :=
  (s.department.filter (fun department => decide (department ≠ ""))).all
    (fun department => decide (e.department = some department))

/-- The name or the address contains the text, whatever the case. -/
def matchesText (runtime : ToolRuntime) (s : SearchInput) (e : EmployeeProfile) : Bool :=
  matchesQuery runtime (s.query.map runtime.toLowerCase) e

/-- The employee matches the filters on the text and on the department. -/
def matchesRest (runtime : ToolRuntime) (s : SearchInput) (e : EmployeeProfile) : Bool :=
  s.matchesText runtime e && s.inDepartment e

/-- The employees of the status, newest first. -/
def newest (s : SearchInput) (employees : List EmployeeProfile) : List EmployeeProfile :=
  orderByDesc EmployeeProfile.createdAt (employees.filter s.hasStatus)

end SearchInput

open SearchInput FilterLimit

/-- The tool returns the first `min(limit, 20)` employees, newest first, of those that match all the
filters. -/
def Complete (runtime : ToolRuntime) (db : AiDatabase) (s : SearchInput) : Prop :=
  ∃ found, toolSearchEmployees runtime s.toInput db =
      .ok (.employees found.length (found.map employeeItem)) ∧
    IsFirst (fun a b : EmployeeProfile => b.createdAt ≤ a.createdAt) s.size
      (db.employees.rows.filter fun e => s.hasStatus e && s.matchesRest runtime e) found

/-- The limit is no fraction below 20; of the newest employees, as many as are asked for, those that
match the text are in the department; and either all of them match the text, or no later employee
matches the filters.  Below 0 there is no limit, and nobody may match the text. -/
structure Served (runtime : ToolRuntime) (employees : List EmployeeProfile) (s : SearchInput) :
    Prop where
  whole : ¬ s.number < 0 → s.number < 20 → s.number.den = 1
  unlimited : s.number < 0 → ∀ e ∈ s.newest employees, s.matchesText runtime e = false
  department : ∀ e ∈ (s.newest employees).take s.size, s.matchesText runtime e = true →
    s.inDepartment e = true
  room : (∀ e ∈ (s.newest employees).take s.size, s.matchesText runtime e = true) ∨
    ∀ e ∈ (s.newest employees).drop s.size, s.matchesRest runtime e = false

section Search

variable {runtime : ToolRuntime} {db : AiDatabase} {s : SearchInput}
  {employees : List EmployeeProfile}

/-! ### The input -/

theorem get_query_toInput (s : SearchInput) : s.toInput.get "query" = s.query.map .str := by
  rcases s with ⟨_ | query, _ | department, _ | status, _ | limit⟩ <;> rfl

theorem lookup_status_toInput (s : SearchInput) :
    (s.toInput.lookup "status").filter truthy = s.status.map fun status => .str (label status) := by
  rcases s with ⟨_ | query, _ | department, _ | status, _ | limit⟩ <;>
    first | rfl | (cases status <;> rfl)

theorem get_limit_toInput (s : SearchInput) :
    (s.toInput.get "limit").getD (.num (.finite 10)) = .num (.finite s.number) := by
  rcases s with ⟨_ | query, _ | department, _ | status, _ | limit⟩ <;> rfl

theorem optionalLabel_label (runtime : ToolRuntime) (status : Option EmployeeStatus) :
    optionalLabel runtime "employee_status" employeeStatuses
      (status.map fun status => .str (label status)) = .ok status := by
  rcases status with _ | _ | _ | _ <;> rfl

theorem queryParam_map (runtime : ToolRuntime) (query : Option String) :
    queryParam runtime (query.map .str) = .ok (query.map runtime.toLowerCase) := by
  cases query <;> rfl

/-- **What the tool does** with an input of the schema. -/
theorem toolSearchEmployees_toInput (runtime : NumericRuntime) (db : AiDatabase) (s : SearchInput) :
    toolSearchEmployees runtime.toToolRuntime s.toInput db =
      (runtime.limitClause (JsNumber.minTwenty (.finite s.number))).map fun limit =>
        let found := searched runtime.toToolRuntime s.status limit
          (s.query.map runtime.toLowerCase) db.employees.rows
        .employees found.length (found.map employeeItem) := by
  have hlimit : limitOf runtime.toToolRuntime s.toInput =
      .ok (JsNumber.minTwenty (.finite s.number)) := by
    rw [limitOf, get_limit_toInput, runtime.number_num]
    rfl
  rw [toolSearchEmployees_eq, hlimit, lookup_status_toInput, optionalLabel_label,
    get_query_toInput, queryParam_map]
  simp only [bind, Except.bind]
  cases runtime.limitClause (JsNumber.minTwenty (.finite s.number)) <;> rfl

/-! ### The limit -/

theorem limitClause_of_neg (h : s.number < 0) :
    runtime.limitClause (JsNumber.minTwenty (.finite s.number)) = .ok none := by
  have hsmall : s.number < 20 := by
    refine Rat.not_le.1 fun hlarge => ?_
    exact Rat.not_lt.2 (Rat.le_trans (by decide) hlarge) h
  rw [JsNumber.minTwenty, if_pos hsmall, ToolRuntime.limitClause, if_pos h]

theorem limitClause_of_whole (hnonneg : ¬ s.number < 0)
    (hwhole : s.number < 20 → s.number.den = 1) :
    runtime.limitClause (JsNumber.minTwenty (.finite s.number)) = .ok (some s.size) := by
  by_cases hsmall : s.number < 20
  · rw [JsNumber.minTwenty, if_pos hsmall, ToolRuntime.limitClause, if_neg hnonneg,
      if_pos (hwhole hsmall), size, if_neg hnonneg, if_pos hsmall, Rat.floor,
      if_pos (hwhole hsmall)]
  · rw [JsNumber.minTwenty, if_neg hsmall, size, if_neg hnonneg, if_neg hsmall]
    rfl

theorem limitClause_of_fraction (hnonneg : ¬ s.number < 0) (hsmall : s.number < 20)
    (hden : s.number.den ≠ 1) {limit : Option ℕ} :
    runtime.limitClause (JsNumber.minTwenty (.finite s.number)) ≠ .ok limit := by
  rw [JsNumber.minTwenty, if_pos hsmall, ToolRuntime.limitClause, if_neg hnonneg, if_neg hden]
  exact fun h => by cases h

theorem size_of_neg (h : s.number < 0) : s.size = 0 := if_pos h

/-! ### The result -/

theorem newest_perm (s : SearchInput) (employees : List EmployeeProfile) :
    (s.newest employees).Perm (employees.filter s.hasStatus) :=
  List.perm_insertionSort _ _

theorem pairwise_newest (s : SearchInput) (employees : List EmployeeProfile) :
    (s.newest employees).Pairwise fun a b => b.createdAt ≤ a.createdAt :=
  (Paging.Sorter.insertion (fun a b : EmployeeProfile => b.createdAt ≤ a.createdAt)
    (fun a b => Nat.le_total b.createdAt a.createdAt)
    fun _ _ _ hab hbc => Nat.le_trans hbc hab).sorted _

theorem filter_matches (runtime : ToolRuntime) (s : SearchInput)
    (employees : List EmployeeProfile) :
    employees.filter (fun e => s.hasStatus e && s.matchesRest runtime e) =
      (employees.filter s.hasStatus).filter (s.matchesRest runtime) := by
  rw [List.filter_filter]
  exact List.filter_congr fun e _ => Bool.and_comm _ _

theorem searched_eq (runtime : ToolRuntime) (s : SearchInput) (limit : Option ℕ)
    (employees : List EmployeeProfile) :
    searched runtime s.status limit (s.query.map runtime.toLowerCase) employees =
      (limitRows limit (s.newest employees)).filter (s.matchesText runtime) := rfl

/-- Nobody is found who is not in the table. -/
theorem mem_of_mem_searched {limit : Option ℕ} {e : EmployeeProfile}
    (h : e ∈ (limitRows limit (s.newest employees)).filter (s.matchesText runtime)) :
    e ∈ employees := by
  have hpage := List.mem_of_mem_filter h
  have hnewest : e ∈ s.newest employees := by
    cases limit with
    | none => exact hpage
    | some n => exact List.mem_of_mem_take hpage
  exact List.mem_of_mem_filter ((newest_perm s employees).mem_iff.1 hnewest)

/-- Where the limit is taken, the result is judged by the rows. -/
theorem complete_iff_isFirst {runtime : NumericRuntime} {limit : Option ℕ}
    (hlimit : runtime.limitClause (JsNumber.minTwenty (.finite s.number)) = .ok limit) :
    Complete runtime.toToolRuntime db s ↔
      IsFirst (fun a b : EmployeeProfile => b.createdAt ≤ a.createdAt) s.size
        ((db.employees.rows.filter s.hasStatus).filter (s.matchesRest runtime.toToolRuntime))
        ((limitRows limit (s.newest db.employees.rows)).filter
          (s.matchesText runtime.toToolRuntime)) := by
  unfold Complete
  simp only [toolSearchEmployees_toInput, hlimit, filter_matches, searched_eq]
  constructor
  · rintro ⟨found, heq, hfirst⟩
    injection heq with hresult
    injection hresult with hlength hitems
    have hmem : ∀ e ∈ found, e ∈ db.employees.rows := by
      obtain ⟨all, hperm, -, rfl⟩ := hfirst
      intro e he
      exact List.mem_of_mem_filter (List.mem_of_mem_filter
        (hperm.mem_iff.1 (List.mem_of_mem_take he)))
    have hfound := db.employees.eq_of_map_eq
      (fun e e' hitem => congrArg EmployeeItem.id hitem)
      (fun e he => mem_of_mem_searched he) hmem hitems
    rw [hfound]
    exact hfirst
  · intro hfirst
    exact ⟨_, rfl, hfirst⟩

/-- **Searching employees**: the search is complete exactly if the limit is taken, and the page that
it cuts out holds whoever is searched. -/
theorem complete_search_iff (runtime : NumericRuntime) (db : AiDatabase) (s : SearchInput) :
    Complete runtime.toToolRuntime db s ↔
      Served runtime.toToolRuntime db.employees.rows s := by
  have hperm := newest_perm s db.employees.rows
  have hsorted := pairwise_newest s db.employees.rows
  by_cases hneg : s.number < 0
  · -- all employees of the status are searched, and none may be found
    have hsize := size_of_neg hneg
    rw [complete_iff_isFirst (limitClause_of_neg hneg), hsize,
      isFirst_zero_iff (hperm.filter _) (hsorted.filter _), limitRows, List.filter_eq_nil_iff]
    constructor
    · intro hnone
      refine ⟨fun hnonneg => absurd hneg hnonneg, fun _ e he => ?_, ?_, .inl ?_⟩
      · exact Bool.eq_false_iff.2 (hnone e he)
      · rw [hsize, List.take_zero]
        exact List.forall_mem_nil _
      · rw [hsize, List.take_zero]
        exact List.forall_mem_nil _
    · intro hserved e he
      exact Bool.eq_false_iff.1 (hserved.unlimited hneg e he)
  · by_cases hwhole : s.number < 20 → s.number.den = 1
    · rw [complete_iff_isFirst (limitClause_of_whole hneg hwhole), limitRows,
        isFirst_filter_take_iff hperm hsorted fun e he => (Bool.and_eq_true _ _ ▸ he).1]
      constructor
      · rintro ⟨hmatch, hroom⟩
        refine ⟨fun _ => hwhole, fun h => absurd h hneg, fun e he htext => ?_, hroom⟩
        exact (Bool.and_eq_true _ _ ▸ hmatch e he htext).2
      · intro hserved
        refine ⟨fun e he htext => ?_, hserved.room⟩
        rw [matchesRest, htext, hserved.department e he htext]
        rfl
    · have hfails : ¬ Complete runtime.toToolRuntime db s := by
        rintro ⟨found, heq, -⟩
        obtain ⟨hsmall, hden⟩ := Classical.not_imp.1 hwhole
        rw [toolSearchEmployees_toInput, Except.map_eq_ok_iff] at heq
        obtain ⟨limit, hlimit, -⟩ := heq
        exact limitClause_of_fraction hneg hsmall hden hlimit
      exact iff_of_false hfails fun hserved => hwhole (hserved.whole hneg)

end Search

namespace SearchInput.Sample

/-- Numbers are left as they are. -/
def runtime : NumericRuntime := ⟨AiService.Sample.runtime, fun _ => rfl⟩

def ann : EmployeeProfile :=
  { id := 1, entraOid := none, displayName := "ann", email := "ann@example.com", roles := [],
    updatedAt := 0, department := some "HR", jobTitle := none, createdAt := 0 }

def bob : EmployeeProfile :=
  { id := 2, entraOid := none, displayName := "bob", email := "bob@example.com", roles := [],
    updatedAt := 1, department := some "IT", jobTitle := none, createdAt := 1 }

/-- Bob has come after Ann. -/
def staff : AiDatabase := { noRows with employees := ⟨[ann, bob], by decide⟩ }

/-- One employee whose name or address contains `ann`. -/
def byName : SearchInput := { query := some "ann", limit := some 1 }

/-- The employees of the department of Ann. -/
def byDepartment : SearchInput := { department := some "HR" }

/-- Ann is missed for the sake of Bob, and Bob is found in the department of Ann. -/
theorem not_complete_search :
    ¬ Complete runtime.toToolRuntime staff byName ∧
    ¬ Complete runtime.toToolRuntime staff byDepartment := by
  constructor
  · rintro ⟨found, heq, hfirst⟩
    have hnobody :
        counted (toolSearchEmployees runtime.toToolRuntime byName.toInput staff) = 0 := by
      decide +kernel
    rw [heq] at hnobody
    rcases hfirst.mem_or (x := ann) (by decide +kernel) with hann | ⟨hfull, -⟩
    · rw [List.eq_nil_of_length_eq_zero hnobody] at hann
      cases hann
    · have hsize : byName.size = 1 := by decide +kernel
      rw [hsize] at hfull
      exact absurd (hfull.symm.trans hnobody) Nat.one_ne_zero
  · rintro ⟨found, heq, all, hperm, -, rfl⟩
    have hboth :
        counted (toolSearchEmployees runtime.toToolRuntime byDepartment.toInput staff) = 2 := by
      decide +kernel
    have hone : all.length = 1 := hperm.length_eq.trans (by decide +kernel)
    have hle := List.length_take_le' byDepartment.size all
    rw [heq] at hboth
    rw [show (all.take byDepartment.size).length = 2 from hboth, hone] at hle
    omega

end SearchInput.Sample

end AiService

end OpsHub
