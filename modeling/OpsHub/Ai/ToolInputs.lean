import OpsHub.Ai.AiService

/-!
# What the tools take

The input of a tool is what the language model has written.  A tool and its statements reject some
of it.

* `LimitAccepted`, `LabelAccepted`, `Accepts`: the inputs that are taken;
* `runTool_isOk_iff`: on a database that answers, a tool is fulfilled exactly on these;
* `toolSearchEmployees_eq`: `toolSearchEmployees` as the reading of its input and the search.
-/

namespace OpsHub

namespace AiService

/-! ### Reading the input -/

section Inputs

variable (runtime : ToolRuntime)

/-- The limit is left out or taken: `Number` does not throw, and what it makes of a limit is no
fraction between 0 and 20. -/
def LimitAccepted (input : ToolInput) : Prop :=
  ∃ n, runtime.number ((input.get "limit").getD (.num (.finite 10))) = .ok n ∧
    ∀ q, n = .finite q → ¬ q < 0 → q < 20 → q.den = 1

/-- The value is a label of an enumeration. -/
def LabelAccepted {α : Type} (labels : List (String × α)) (value : Json JsNumber) : Prop :=
  ∃ label ∈ labels, label.1 = runtime.paramText value

/-- The input is one that the tool and its statements take. -/
def Accepts (input : ToolInput) : Tool → Prop
  | .getPendingRequests => LimitAccepted runtime input
  | .getComplianceFindings => LimitAccepted runtime input ∧
    LabelAccepted runtime findingStatuses ((input.get "status").getD (.str "open"))
  | .getActiveAccessGrants => ∀ value, input.get "employeeId" = some value →
    ∃ id, runtime.parseUuid (runtime.paramText value) = some id
  | .searchEmployees => LimitAccepted runtime input ∧
    (∀ value, (input.lookup "status").filter truthy = some value →
      LabelAccepted runtime employeeStatuses value) ∧
    ∀ value, input.get "query" = some value → ∃ query, value = .str query
  | .getMyRequests => LimitAccepted runtime input ∧
    ∀ value, (input.lookup "status").filter truthy = some value →
      LabelAccepted runtime requestStatuses value

/-- A filter on a column of an enumeration, if there is one. -/
def optionalLabel {α : Type} (typeName : String) (labels : List (String × α)) :
    Option (Json JsNumber) → Except Failure (Option α)
  | none => .ok none
  | some value => (runtime.enumParam typeName labels value).map some

/-- `(input.query as string | undefined)?.toLowerCase()`. -/
def queryParam : Option (Json JsNumber) → Except Failure (Option String)
  | none => .ok none
  | some (.str query) => .ok (some (runtime.toLowerCase query))
  | some _ => .error (.error "input.query?.toLowerCase is not a function")

/-- An employee whose name or address contains the query; the empty query counts as none. -/
def matchesQuery (query : Option String) (e : EmployeeProfile) : Bool :=
  (query.filter (fun query => decide (query ≠ ""))).all fun query =>
    decide (query.toList <:+: (runtime.toLowerCase e.displayName).toList) ||
      decide (query.toList <:+: (runtime.toLowerCase e.email).toList)

/-- The columns that `toolSearchEmployees` selects. -/
def employeeItem (e : EmployeeProfile) : EmployeeItem :=
  ⟨e.id, e.displayName, e.email, e.department, e.jobTitle, e.status⟩

/-- The rows that `toolSearchEmployees` returns: a page of the employees with the status, and those
on it that match the query. -/
def searched (status : Option EmployeeStatus) (limit : Option ℕ) (query : Option String)
    (employees : List EmployeeProfile) : List EmployeeProfile :=
  (limitRows limit (orderByDesc EmployeeProfile.createdAt
    (employees.filter (fun e => status.all (fun status => decide (e.status = status)))))).filter
      (matchesQuery runtime query)

end Inputs

section Tools

variable {runtime : ToolRuntime} {actorId : Uuid} {c : ToolCall} {input : ToolInput}
  {db : AiDatabase}

/-- The filter on the text, as the tool writes it. -/
theorem filter_matchesQuery (query : Option String) (rows : List EmployeeProfile) :
    rows.filter (matchesQuery runtime query) =
      match query.filter (fun query => decide (query ≠ "")) with
      | none => rows
      | some query => rows.filter fun e =>
        decide (query.toList <:+: (runtime.toLowerCase e.displayName).toList) ||
          decide (query.toList <:+: (runtime.toLowerCase e.email).toList) := by
  unfold matchesQuery
  cases query.filter (fun query => decide (query ≠ "")) with
  | none => simp
  | some query => rfl

/-- **What `toolSearchEmployees` does**: it reads its input, and searches a page. -/
theorem toolSearchEmployees_eq : toolSearchEmployees runtime input db = (do
    let limit ← limitOf runtime input
    let status ← optionalLabel runtime "employee_status" employeeStatuses
      ((input.lookup "status").filter truthy)
    let limit ← runtime.limitClause limit
    let query ← queryParam runtime (input.get "query")
    let found := searched runtime status limit query db.employees.rows
    pure (.employees found.length (found.map employeeItem))) := by
  simp only [searched, filter_matchesQuery]
  unfold toolSearchEmployees
  cases (input.lookup "status").filter truthy with
  | none =>
    cases input.get "query" with
    | none => rfl
    | some value => cases value <;> rfl
  | some value =>
    cases input.get "query" with
    | none => rfl
    | some value => cases value <;> rfl

theorem toolGetMyRequests_eq : toolGetMyRequests runtime input actorId db = (do
    let limit ← limitOf runtime input
    let status ← optionalLabel runtime "request_status" requestStatuses
      ((input.lookup "status").filter truthy)
    let limit ← runtime.limitClause limit
    let (rows, total) := RequestEngine.list { requesterId := some actorId, status := status }
      (some actorId) limit 0 db.requestItems db.requestApprovals
    pure (.myRequests total (rows.map fun (r, _) =>
      ⟨r.id, r.type, r.status, r.priority, r.submittedAt, r.resolvedAt⟩))) := by
  unfold toolGetMyRequests
  cases (input.lookup "status").filter truthy <;> rfl

/-! ### Which inputs are taken -/

/-- A limit that is accepted becomes the limit of a statement. -/
theorem limitAccepted_iff : LimitAccepted runtime input ↔
    ∃ limit, limitOf runtime input = .ok limit ∧ ∃ n, runtime.limitClause limit = .ok n := by
  simp only [LimitAccepted, limitOf, Except.map_eq_ok_iff]
  constructor
  · rintro ⟨n, hn, hinteger⟩
    refine ⟨n.minTwenty, ⟨n, hn, rfl⟩, ?_⟩
    cases n with
    | nan => exact ⟨none, rfl⟩
    | infinity negative => cases negative <;> exact ⟨_, rfl⟩
    | finite q =>
      by_cases hlarge : q < 20
      · by_cases hnegative : q < 0
        · exact ⟨none, by simp [JsNumber.minTwenty, ToolRuntime.limitClause, hlarge, hnegative]⟩
        · have hden := hinteger q rfl hnegative hlarge
          refine ⟨some q.num.toNat, ?_⟩
          simp [JsNumber.minTwenty, ToolRuntime.limitClause, hlarge, hnegative, hden]
      · refine ⟨some 20, ?_⟩
        rw [JsNumber.minTwenty, if_neg hlarge]
        rfl
  · rintro ⟨limit, ⟨n, hn, rfl⟩, l, hl⟩
    refine ⟨n, hn, ?_⟩
    rintro q rfl hnonneg hsmall
    rw [JsNumber.minTwenty, if_pos hsmall, ToolRuntime.limitClause, if_neg hnonneg] at hl
    by_contra hden
    rw [if_neg hden] at hl
    cases hl

theorem labelAccepted_iff {α : Type} {typeName : String} {labels : List (String × α)}
    {value : Json JsNumber} : LabelAccepted runtime labels value ↔
      ∃ a, runtime.enumParam typeName labels value = .ok a := by
  simp only [LabelAccepted, ToolRuntime.enumParam, Outcome.orThrow_eq_ok_iff]
  rw [← Option.isSome_iff_exists, List.lookup_isSome_iff]
  refine exists_congr fun label => and_congr_right fun _ => ?_
  rw [beq_iff_eq, eq_comm]

/-- An optional label. -/
theorem optionalLabel_isOk_iff {α : Type} {typeName : String} {labels : List (String × α)}
    {value : Option (Json JsNumber)} :
    (∃ a, optionalLabel runtime typeName labels value = .ok a) ↔
      ∀ v, value = some v → LabelAccepted runtime labels v := by
  cases value with
  | none => simp [optionalLabel]
  | some v =>
    simp only [optionalLabel, Option.some.injEq, forall_eq', Except.map_eq_ok_iff]
    rw [@labelAccepted_iff runtime α typeName]
    constructor
    · rintro ⟨_, a, ha, -⟩
      exact ⟨a, ha⟩
    · rintro ⟨a, ha⟩
      exact ⟨some a, a, ha, rfl⟩

theorem queryParam_isOk_iff {value : Option (Json JsNumber)} :
    (∃ query, queryParam runtime value = .ok query) ↔
      ∀ v, value = some v → ∃ query, v = .str query := by
  cases value with
  | none => simp [queryParam]
  | some v => cases v <;> simp [queryParam]

theorem uuidParam_isOk_iff {value : Option (Json JsNumber)} :
    (∃ id, runtime.uuidParam value = .ok id) ↔
      ∀ v, value = some v → ∃ id, runtime.parseUuid (runtime.paramText v) = some id := by
  cases value with
  | none => simp [ToolRuntime.uuidParam]
  | some v => cases h : runtime.parseUuid (runtime.paramText v) <;> simp [ToolRuntime.uuidParam, h]

/-! ### Tools on a database that answers -/

/-- The body of a tool. -/
def runTool (runtime : ToolRuntime) (actorId : Uuid) (db : AiDatabase) (c : ToolCall) :
    Tool → Except Failure ToolResult
  | .getPendingRequests => toolGetPendingRequests runtime c.input db
  | .getComplianceFindings => toolGetComplianceFindings runtime c.input db
  | .getActiveAccessGrants => toolGetActiveAccessGrants runtime c.input c.now db
  | .searchEmployees => toolSearchEmployees runtime c.input db
  | .getMyRequests => toolGetMyRequests runtime c.input actorId db

/-- A filter is read between a limit and its use. -/
theorem exists_filter_iff {α β : Type} {p r : α → Prop} {q : β → Prop} :
    (∃ limit, p limit ∧ ∃ filter, q filter ∧ r limit) ↔
      (∃ limit, p limit ∧ r limit) ∧ ∃ filter, q filter := by
  constructor
  · rintro ⟨limit, hlimit, filter, hfilter, hclause⟩
    exact ⟨⟨limit, hlimit, hclause⟩, filter, hfilter⟩
  · rintro ⟨⟨limit, hlimit, hclause⟩, filter, hfilter⟩
    exact ⟨limit, hlimit, filter, hfilter, hclause⟩

/-- **Which inputs a tool takes**, on a database that answers. -/
theorem runTool_isOk_iff {tool : Tool} :
    (∃ result, runTool runtime actorId db c tool = .ok result) ↔ Accepts runtime c.input tool := by
  cases tool with
  | getPendingRequests =>
    simp only [runTool, toolGetPendingRequests, Except.exists_bind_eq_ok_iff, Accepts, limitAccepted_iff,
      Except.pure_eq_ok_iff, exists_eq', and_true]
  | getComplianceFindings =>
    simp only [runTool, toolGetComplianceFindings, findingsQuery, Except.exists_bind_eq_ok_iff, Accepts,
      limitAccepted_iff, @labelAccepted_iff runtime _ "finding_status", Except.pure_eq_ok_iff,
      exists_eq', and_true]
    exact exists_filter_iff
  | getActiveAccessGrants =>
    simp only [runTool, toolGetActiveAccessGrants, Except.exists_bind_eq_ok_iff, Accepts,
      Except.pure_eq_ok_iff, exists_eq', and_true]
    exact uuidParam_isOk_iff
  | searchEmployees =>
    simp only [runTool, toolSearchEmployees_eq, Except.exists_bind_eq_ok_iff, Accepts, limitAccepted_iff,
      ← @optionalLabel_isOk_iff runtime _ "employee_status", Except.pure_eq_ok_iff, exists_eq',
      and_true]
    constructor
    · rintro ⟨limit, hlimit, status, hstatus, n, hclause, hquery⟩
      exact ⟨⟨limit, hlimit, n, hclause⟩, ⟨status, hstatus⟩, queryParam_isOk_iff.1 hquery⟩
    · rintro ⟨⟨limit, hlimit, n, hclause⟩, ⟨status, hstatus⟩, hquery⟩
      exact ⟨limit, hlimit, status, hstatus, n, hclause, queryParam_isOk_iff.2 hquery⟩
  | getMyRequests =>
    simp only [runTool, toolGetMyRequests_eq, Except.exists_bind_eq_ok_iff, Accepts, limitAccepted_iff,
      ← @optionalLabel_isOk_iff runtime _ "request_status", Except.pure_eq_ok_iff, exists_eq',
      and_true]
    exact exists_filter_iff

end Tools

end AiService

end OpsHub
