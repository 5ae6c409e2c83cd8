import Mathlib.Data.List.Infix
import Mathlib.Data.List.Sort
import Mathlib.Data.Rat.Defs
import OpsHub.Lib.Json
import OpsHub.Lib.Outcome
import OpsHub.Domain.TypeDefs

/-!
# The tools of the assistant

`AiService`: a language model holds a conversation on behalf of a user, and calls tools that read
the database.  What it calls, and with which input, is up to it.

* `JsNumber`, `ToolRuntime`: JavaScript numbers, and what the runtime, the driver and PostgreSQL
  make of other values;
* `executeTool` and the five tools: every tool reads its input first, and then its table;
* `chat`: at most five rounds of calls, which end when a tool is rejected.
-/

namespace OpsHub

/-! ### Tables -/

/-- `finding_status`. -/
inductive FindingStatus
  | open
  | acknowledged
  | resolved
  | riskAccepted
  deriving DecidableEq, Repr

/-- `finding_severity`. -/
inductive FindingSeverity
  | low
  | medium
  | high
  | critical
  deriving DecidableEq, Repr

/-- A row of `compliance_findings`. -/
structure ComplianceFinding where
  id : Uuid
  assetId : Option Uuid
  employeeId : Option Uuid
  softwareName : String
  severity : FindingSeverity := .medium
  status : FindingStatus := .open
  source : String
  detectedAt : Time
  deriving DecidableEq, Repr

/-- A row of `employees` with the columns of the directory. -/
structure EmployeeProfile extends Employee where
  department : Option String
  jobTitle : Option String
  createdAt : Time
  deriving DecidableEq, Repr

/-- The tables that the tools read. -/
structure AiDatabase where
  requestItems : Table (@RequestItem.id Payload)
  requestApprovals : List RequestApproval
  employees : Table (fun e : EmployeeProfile => e.id)
  complianceFindings : Table ComplianceFinding.id
  accessGrants : Table AccessGrant.id

/-! ### Statements -/

/-- `orderBy(desc(...))`. -/
def orderByDesc {ρ : Type} (column : ρ → Time) (rows : List ρ) : List ρ :=
  rows.insertionSort (fun a b => column b ≤ column a)

/-- The rows that a `LIMIT` clause leaves, if there is one. -/
def limitRows {ρ : Type} (limit : Option ℕ) (rows : List ρ) : List ρ :=
  match limit with
  | none => rows
  | some limit => rows.take limit

/-- `RequestFilters`. -/
structure RequestFilters where
  type : Option String := none
  requesterId : Option Uuid := none
  assigneeId : Option Uuid := none
  status : Option RequestStatus := none
  myQueue : Bool := false
  deriving DecidableEq, Repr

namespace RequestEngine

/-- The `WHERE` clause of `list`; an actor who is no employee has no queue. -/
def meetsFilters {π : Type} (filters : RequestFilters) (actorId : Option Uuid)
    (r : RequestItem π) : Bool :=
  filters.type.all (fun type => decide (r.type = type)) &&
    filters.requesterId.all (fun id => decide (r.requesterId = id)) &&
    filters.status.all (fun status => decide (r.status = status)) &&
    if filters.myQueue then
      decide (r.assigneeId ≠ none ∧ r.assigneeId = actorId) ||
        decide (r.assigneeId = none ∧ r.status = .pending)
    else filters.assigneeId.all (fun id => decide (r.assigneeId = some id))

/-- `list`: a page of the requests with their approvals, and how many there are. -/
def list {π : Type} (filters : RequestFilters) (actorId : Option Uuid) (limit : Option ℕ)
    (offset : ℕ) (requestItems : Table (@RequestItem.id π))
    (requestApprovals : List RequestApproval) :
    List (RequestItem π × List RequestApproval) × ℕ :=
  let found := requestItems.rows.filter (meetsFilters filters actorId)
  let rows := limitRows limit ((orderByDesc RequestItem.createdAt found).drop offset)
  let approvals := requestApprovals.insertionSort
    (fun a b => a.step < b.step ∨ a.step = b.step ∧ a.decidedAt ≤ b.decidedAt)
  (rows.map fun r => (r, approvals.filter (fun a => decide (a.requestId = r.id))), found.length)

end RequestEngine

/-! ### Values -/

/-- A JavaScript number; the finite ones are rational. -/
inductive JsNumber
  | nan
  | infinity (negative : Bool)
  | finite (q : ℚ)
  deriving DecidableEq

/-- `Math.min(n, 20)`. -/
def JsNumber.minTwenty : JsNumber → JsNumber
  | .nan => .nan
  | .infinity negative => if negative then .infinity true else .finite 20
  | .finite q => if q < 20 then .finite q else .finite 20

/-- The input of a tool: an object. -/
abbrev ToolInput := List (String × Json JsNumber)

/-- A member that is neither missing nor `null`. -/
def ToolInput.get (input : ToolInput) (key : String) : Option (Json JsNumber) :=
  match input.lookup key with
  | some .null => none
  | value => value

/-- What counts as true. -/
def truthy : Json JsNumber → Bool
  | .null => false
  | .bool b => b
  | .num n => decide (n ≠ .nan ∧ n ≠ .finite 0)
  | .str s => decide (s ≠ "")
  | .arr _ => true
  | .obj _ => true

/-- What JavaScript, the driver and PostgreSQL make of values: `Number`, which throws for some
objects; the text that is sent for a value that is no string; the reading of a `uuid`; and
`toLowerCase`. -/
structure ToolRuntime where
  number : Json JsNumber → Except Failure JsNumber
  text : Json JsNumber → String
  parseUuid : String → Option Uuid
  toLowerCase : String → String

namespace ToolRuntime

variable (runtime : ToolRuntime)

/-- The text of a parameter. -/
def paramText : Json JsNumber → String
  | .str s => s
  | value => runtime.text value

/-- A parameter that is compared with a column of an enumeration. -/
def enumParam {α : Type} (typeName : String) (labels : List (String × α)) (value : Json JsNumber) :
    Except Failure α :=
  Outcome.orThrow
    (.error ("invalid input value for enum " ++ typeName ++ ": " ++ runtime.paramText value))
    (labels.lookup (runtime.paramText value))

/-- A parameter that is compared with a `uuid` column; nothing is equal to `NULL`. -/
def uuidParam : Option (Json JsNumber) → Except Failure (Option Uuid)
  | none => .ok none
  | some value =>
    match runtime.parseUuid (runtime.paramText value) with
    | some id => .ok (some id)
    | none => .error (.error ("invalid input syntax for type uuid: " ++ runtime.paramText value))

/-- `.limit(n)`: the driver leaves out what is no number from 0 on, and PostgreSQL rejects what is
no integer. -/
def limitClause : JsNumber → Except Failure (Option ℕ)
  | .nan => .ok none
  | .infinity negative =>
    if negative then .ok none
    else .error (.error
      ("invalid input syntax for type bigint: " ++ runtime.text (.num (.infinity negative))))
  | .finite q =>
    if q < 0 then .ok none
    else if q.den = 1 then .ok (some q.num.toNat)
    else .error (.error
      ("invalid input syntax for type bigint: " ++ runtime.text (.num (.finite q))))

end ToolRuntime

/-- The labels of `finding_status`. -/
def findingStatuses : List (String × FindingStatus) :=
  [("open", .open), ("acknowledged", .acknowledged), ("resolved", .resolved),
    ("risk_accepted", .riskAccepted)]

/-- The labels of `employee_status`. -/
def employeeStatuses : List (String × EmployeeStatus) :=
  [("active", .active), ("on_leave", .onLeave), ("offboarded", .offboarded)]

/-- The labels of `request_status`. -/
def requestStatuses : List (String × RequestStatus) :=
  [RequestStatus.pending, .inReview, .approved, .rejected, .cancelled, .expired].map
    fun status => (status.name, status)

/-! ### Results -/

/-- An item of `get_pending_requests`. -/
structure PendingRequestItem where
  id : Uuid
  type : String
  requesterId : Uuid
  status : RequestStatus
  priority : RequestPriority
  submittedAt : Time
  slaDeadline : Option Time
  slaBreachedAt : Option Time
  deriving DecidableEq, Repr

/-- An item of `get_compliance_findings`. -/
structure FindingItem where
  id : Uuid
  softwareName : String
  severity : FindingSeverity
  status : FindingStatus
  source : String
  assetId : Option Uuid
  employeeId : Option Uuid
  detectedAt : Time
  deriving DecidableEq, Repr

/-- An item of `get_active_access_grants`. -/
structure GrantItem where
  id : Uuid
  accessType : AccessType
  target : String
  grantedAt : Time
  expiresAt : Time
  deriving DecidableEq, Repr

/-- An item of `search_employees`. -/
structure EmployeeItem where
  id : Uuid
  displayName : String
  email : String
  department : Option String
  jobTitle : Option String
  status : EmployeeStatus
  deriving DecidableEq, Repr

/-- An item of `get_my_requests`. -/
structure MyRequestItem where
  id : Uuid
  type : String
  status : RequestStatus
  priority : RequestPriority
  submittedAt : Time
  resolvedAt : Option Time
  deriving DecidableEq, Repr

/-- What a tool answers. -/
inductive ToolResult
  | pendingRequests (total : ℕ) (items : List PendingRequestItem)
  | findings (count : ℕ) (items : List FindingItem)
  | grants (employeeId : Option (Json JsNumber)) (activeGrantCount : ℕ) (grants : List GrantItem)
  | employees (count : ℕ) (employees : List EmployeeItem)
  | myRequests (total : ℕ) (items : List MyRequestItem)
  | error (error : String)

/-- How many rows an answer counts. -/
def ToolResult.count : ToolResult → ℕ
  | .pendingRequests total _ => total
  | .findings count _ => count
  | .grants _ activeGrantCount _ => activeGrantCount
  | .employees count _ => count
  | .myRequests total _ => total
  | .error _ => 0

/-! ### Tools -/

/-- The tools that the model is told about. -/
inductive Tool
  | getPendingRequests
  | getComplianceFindings
  | getActiveAccessGrants
  | searchEmployees
  | getMyRequests
  deriving DecidableEq, Repr

/-- The name of a tool. -/
def Tool.name : Tool → String
  | getPendingRequests => "get_pending_requests"
  | getComplianceFindings => "get_compliance_findings"
  | getActiveAccessGrants => "get_active_access_grants"
  | searchEmployees => "search_employees"
  | getMyRequests => "get_my_requests"

/-- `TOOLS`. -/
def tools : List Tool :=
  [.getPendingRequests, .getComplianceFindings, .getActiveAccessGrants, .searchEmployees,
    .getMyRequests]

/-- A call of a tool, and when it is executed. -/
structure ToolCall where
  name : String
  input : ToolInput
  now : Time

namespace AiService

variable (runtime : ToolRuntime)

/-- `Math.min(Number(input.limit ?? 10), 20)`. -/
def limitOf (input : ToolInput) : Except Failure JsNumber :=
  (runtime.number ((input.get "limit").getD (.num (.finite 10)))).map JsNumber.minTwenty

/-- `toolGetPendingRequests`; the list is made for the caller `system`. -/
def toolGetPendingRequests (input : ToolInput) (db : AiDatabase) : Except Failure ToolResult := do
  let limit ← limitOf runtime input
  let type := ((input.lookup "type").filter truthy).map runtime.paramText
  let limit ← runtime.limitClause limit
  let (rows, total) := RequestEngine.list { type := type, status := some .pending } none limit 0
    db.requestItems db.requestApprovals
  pure (.pendingRequests total (rows.map fun (r, _) =>
    ⟨r.id, r.type, r.requesterId, r.status, r.priority, r.submittedAt, r.slaDeadline,
      r.slaBreachedAt⟩))

/-- What `toolGetComplianceFindings` asks for. -/
def findingsQuery (input : ToolInput) : Except Failure (FindingStatus × Option ℕ) := do
  let limit ← limitOf runtime input
  let status ← runtime.enumParam "finding_status" findingStatuses
    ((input.get "status").getD (.str "open"))
  let limit ← runtime.limitClause limit
  pure (status, limit)

/-- `toolGetComplianceFindings`. -/
def toolGetComplianceFindings (input : ToolInput) (db : AiDatabase) :
    Except Failure ToolResult := do
  let (status, limit) ← findingsQuery runtime input
  let rows := limitRows limit (orderByDesc ComplianceFinding.detectedAt
    (db.complianceFindings.rows.filter (fun f => decide (f.status = status))))
  pure (.findings rows.length (rows.map fun f =>
    ⟨f.id, f.softwareName, f.severity, f.status, f.source, f.assetId, f.employeeId, f.detectedAt⟩))

/-- `toolGetActiveAccessGrants`. -/
def toolGetActiveAccessGrants (input : ToolInput) (now : Time) (db : AiDatabase) :
    Except Failure ToolResult := do
  let employeeId ← runtime.uuidParam (input.get "employeeId")
  let rows := limitRows (some 20) (orderByDesc AccessGrant.grantedAt
    (db.accessGrants.rows.filter (fun g => decide (some g.granteeId = employeeId ∧
      g.revokedAt = none ∧ now ≤ g.expiresAt))))
  pure (.grants (input.lookup "employeeId") rows.length (rows.map fun g =>
    ⟨g.id, g.accessType, g.target, g.grantedAt, g.expiresAt⟩))

/-- `toolSearchEmployees`; the names are searched after the page has been cut out. -/
def toolSearchEmployees (input : ToolInput) (db : AiDatabase) : Except Failure ToolResult := do
  let limit ← limitOf runtime input
  let status ← match (input.lookup "status").filter truthy with
    | none => pure none
    | some value => (runtime.enumParam "employee_status" employeeStatuses value).map some
  let limit ← runtime.limitClause limit
  let rows := limitRows limit (orderByDesc EmployeeProfile.createdAt
    (db.employees.rows.filter (fun e => status.all (fun status => decide (e.status = status)))))
  let query ← match input.get "query" with
    | none => pure none
    | some (.str query) => pure (some (runtime.toLowerCase query))
    | some _ => throw (.error "input.query?.toLowerCase is not a function")
  let includes := fun (text query : String) =>
    decide (query.toList <:+: (runtime.toLowerCase text).toList)
  let filtered := match query.filter (fun query => decide (query ≠ "")) with
    | none => rows
    | some query => rows.filter (fun e => includes e.displayName query || includes e.email query)
  pure (.employees filtered.length (filtered.map fun e =>
    ⟨e.id, e.displayName, e.email, e.department, e.jobTitle, e.status⟩))

/-- `toolGetMyRequests`. -/
def toolGetMyRequests (input : ToolInput) (actorId : Uuid) (db : AiDatabase) :
    Except Failure ToolResult := do
  let limit ← limitOf runtime input
  let status ← match (input.lookup "status").filter truthy with
    | none => pure none
    | some value => (runtime.enumParam "request_status" requestStatuses value).map some
  let limit ← runtime.limitClause limit
  let (rows, total) := RequestEngine.list { requesterId := some actorId, status := status }
    (some actorId) limit 0 db.requestItems db.requestApprovals
  pure (.myRequests total (rows.map fun (r, _) =>
    ⟨r.id, r.type, r.status, r.priority, r.submittedAt, r.resolvedAt⟩))

/-- `executeTool`; its `catch` clause does not see a tool that is rejected, since the promise of the
tool is returned without being awaited. -/
def executeTool (actorId : Uuid) (db : AiDatabase) (c : ToolCall) : Except Failure ToolResult :=
  match tools.find? (fun tool => decide (tool.name = c.name)) with
  | some .getPendingRequests => toolGetPendingRequests runtime c.input db
  | some .getComplianceFindings => toolGetComplianceFindings runtime c.input db
  | some .getActiveAccessGrants => toolGetActiveAccessGrants runtime c.input c.now db
  | some .searchEmployees => toolSearchEmployees runtime c.input db
  | some .getMyRequests => toolGetMyRequests runtime c.input actorId db
  | none => .ok (.error ("Unknown tool: " ++ c.name))

end AiService

/-! ### Conversations -/

/-- A response of the model. -/
structure ModelResponse where
  texts : List String
  stopReason : String
  toolUses : List ToolCall

/-- A message of a conversation. -/
inductive Message
  | user (content : String)
  | assistant (content : String)
  | response (response : ModelResponse)
  | toolResults (results : List ToolResult)

namespace AiService

/-- `MAX_ITERATIONS`. -/
def maxIterations : ℕ := 5

/-- The loop of `chat`; `respond` is the model, which can fail. -/
def converse (runtime : ToolRuntime) (respond : List Message → Except Failure ModelResponse)
    (actorId : Uuid) (db : AiDatabase) : ℕ → String → List Message → Except Failure String
  | 0, lastText, _ => .ok lastText
  | iterations + 1, lastText, messages => do
    let response ← respond messages
    let lastText := if response.texts = [] then lastText else "\n".intercalate response.texts
    if response.stopReason ≠ "tool_use" then pure lastText
    else do
      let results ← response.toolUses.mapM (executeTool runtime actorId db)
      converse runtime respond actorId db iterations lastText
        (messages ++ [.response response, .toolResults results])

/-- `chat`. -/
def chat (runtime : ToolRuntime) (enabled : Bool)
    (respond : List Message → Except Failure ModelResponse) (actorId : Uuid)
    (messages : List Message) (db : AiDatabase) : Except Failure String := do
  Outcome.require (enabled = true)
    (.error "AI assistant is not configured. Set ANTHROPIC_API_KEY to enable.")
  converse runtime respond actorId db maxIterations "" messages

end AiService

end OpsHub
