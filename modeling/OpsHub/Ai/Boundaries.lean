import OpsHub.Ai.AiService
import OpsHub.Requests.Delegation

/-!
# What the assistant gives away

Findings are for users with the permission `compliance.read`, and grants for the employee that they
have been made for.  The tools of the assistant read both tables by themselves.

* `Agree`: two databases that a user is not to tell apart;
* `Within`: a call that asks for no findings, and for no grants of others;
* `sameResults_iff`: the results of a list of calls are the same on all such databases exactly if
  every call is like that, whoever the user is;
* `chat_eq`: and a conversation with such calls ends with the same text;
* `not_sameResults`: the tools ask for no permission.
-/

namespace OpsHub

namespace AiService

/-- The databases differ in the findings and in the grants of others only. -/
structure Agree (actorId : Uuid) (db db' : AiDatabase) : Prop where
  requestItems : db'.requestItems = db.requestItems
  requestApprovals : db'.requestApprovals = db.requestApprovals
  employees : db'.employees = db.employees
  accessGrants : db'.accessGrants.rows.filter (fun g => decide (g.granteeId = actorId)) =
    db.accessGrants.rows.filter (fun g => decide (g.granteeId = actorId))

/-- The call does not get to findings, nor to grants of others: it is another tool, or its input is
rejected, or it asks for no rows. -/
def Within (runtime : ToolRuntime) (actorId : Uuid) (c : ToolCall) : Prop :=
  match tools.find? (fun tool => decide (tool.name = c.name)) with
  | some .getComplianceFindings => ∀ query, findingsQuery runtime c.input = .ok query →
      query.2 = some 0
  | some .getActiveAccessGrants => ∀ id,
      runtime.uuidParam (c.input.get "employeeId") = .ok (some id) → id = actorId
  | _ => True

section Calls

variable {runtime : ToolRuntime} {actorId : Uuid} {db db' : AiDatabase} {c : ToolCall}

/-! ### What a call sees -/

/-- The rows of the actor are the same. -/
theorem Agree.filter_accessGrants (h : Agree actorId db db') {p : AccessGrant → Bool}
    (hp : ∀ g, p g = true → g.granteeId = actorId) :
    db'.accessGrants.rows.filter p = db.accessGrants.rows.filter p := by
  have hown : ∀ rows : List AccessGrant, rows.filter p =
      (rows.filter (fun g => decide (g.granteeId = actorId))).filter p := by
    intro rows
    rw [List.filter_filter]
    refine List.filter_congr fun g _ => ?_
    by_cases hg : p g = true
    · simp [hg, hp g hg]
    · simp [hg]
  rw [hown, hown db.accessGrants.rows, h.accessGrants]

/-- Findings of which none are asked for are not seen. -/
theorem toolGetComplianceFindings_eq
    (h : ∀ query, findingsQuery runtime c.input = .ok query → query.2 = some 0) :
    toolGetComplianceFindings runtime c.input db' = toolGetComplianceFindings runtime c.input db := by
  unfold toolGetComplianceFindings
  cases hquery : findingsQuery runtime c.input with
  | error failure => rfl
  | ok query =>
    obtain ⟨status, limit⟩ := query
    obtain rfl : limit = some 0 := h _ hquery
    rfl

/-- Grants of the actor are the same, and `NULL` has none. -/
theorem toolGetActiveAccessGrants_eq (hagree : Agree actorId db db')
    (h : ∀ id, runtime.uuidParam (c.input.get "employeeId") = .ok (some id) → id = actorId) :
    toolGetActiveAccessGrants runtime c.input c.now db' =
      toolGetActiveAccessGrants runtime c.input c.now db := by
  unfold toolGetActiveAccessGrants
  cases hparam : runtime.uuidParam (c.input.get "employeeId") with
  | error failure => rfl
  | ok employeeId =>
    have hrows := hagree.filter_accessGrants
      (p := fun g => decide (some g.granteeId = employeeId ∧ g.revokedAt = none ∧
        c.now ≤ g.expiresAt)) fun g hg => by
          obtain ⟨hgrantee, -⟩ := of_decide_eq_true hg
          exact h g.granteeId (by rw [hparam, hgrantee])
    simp only [bind, Except.bind, hrows]

/-- A call that stays within the boundaries has the same result. -/
theorem executeTool_eq (hagree : Agree actorId db db') (h : Within runtime actorId c) :
    executeTool runtime actorId db' c = executeTool runtime actorId db c := by
  unfold Within at h
  unfold executeTool
  cases htool : tools.find? (fun tool => decide (tool.name = c.name)) with
  | none => rfl
  | some tool =>
    rw [htool] at h
    cases tool with
    | getPendingRequests =>
      simp only [toolGetPendingRequests, hagree.requestItems, hagree.requestApprovals]
    | getComplianceFindings => exact toolGetComplianceFindings_eq h
    | getActiveAccessGrants => exact toolGetActiveAccessGrants_eq hagree h
    | searchEmployees => simp only [toolSearchEmployees, hagree.employees]
    | getMyRequests =>
      simp only [toolGetMyRequests, hagree.requestItems, hagree.requestApprovals]

/-! ### Secrets that a call tells apart -/

/-- A database without rows. -/
def noRows : AiDatabase where
  requestItems := Table.empty _
  requestApprovals := []
  employees := Table.empty _
  complianceFindings := Table.empty _
  accessGrants := Table.empty _

/-- A database with one finding. -/
def oneFinding (status : FindingStatus) : AiDatabase :=
  { noRows with
    complianceFindings :=
      ⟨[⟨1, none, none, "uTorrent", .high, status, "intune", 0⟩], by simp⟩ }

/-- A database with one active grant. -/
def oneGrant (granteeId : Uuid) (expiresAt : Time) : AiDatabase :=
  { noRows with
    accessGrants := ⟨[⟨1, 2, granteeId, .vpn, "vpn", 0, expiresAt, none⟩], by simp⟩ }

theorem agree_oneFinding (actorId : Uuid) (status : FindingStatus) :
    Agree actorId noRows (oneFinding status) :=
  ⟨rfl, rfl, rfl, rfl⟩

theorem agree_oneGrant {granteeId : Uuid} (h : granteeId ≠ actorId) (expiresAt : Time) :
    Agree actorId noRows (oneGrant granteeId expiresAt) :=
  ⟨rfl, rfl, rfl, by simp [oneGrant, noRows, h]⟩

/-- How many rows the result of a call counts. -/
def counted (result : Except Failure ToolResult) : ℕ := result.toOption.elim 0 ToolResult.count

theorem counted_findings {status : FindingStatus} {limit : Option ℕ}
    (hquery : findingsQuery runtime c.input = .ok (status, limit)) (hlimit : limit ≠ some 0) :
    counted (toolGetComplianceFindings runtime c.input noRows) = 0 ∧
      counted (toolGetComplianceFindings runtime c.input (oneFinding status)) = 1 := by
  unfold toolGetComplianceFindings
  rw [hquery]
  cases limit with
  | none =>
    simp [counted, ToolResult.count, noRows, oneFinding, limitRows, orderByDesc, bind, Except.bind,
      pure, Except.pure, Except.toOption]
  | some limit =>
    obtain ⟨n, rfl⟩ := Nat.exists_eq_succ_of_ne_zero fun hzero => hlimit (congrArg some hzero)
    simp [counted, ToolResult.count, noRows, oneFinding, limitRows, orderByDesc, bind, Except.bind,
      pure, Except.pure, Except.toOption]

theorem counted_grants {id : Uuid}
    (hparam : runtime.uuidParam (c.input.get "employeeId") = .ok (some id)) :
    counted (toolGetActiveAccessGrants runtime c.input c.now noRows) = 0 ∧
      counted (toolGetActiveAccessGrants runtime c.input c.now (oneGrant id c.now)) = 1 := by
  unfold toolGetActiveAccessGrants
  rw [hparam]
  simp [counted, ToolResult.count, noRows, oneGrant, limitRows, orderByDesc, bind, Except.bind,
    pure, Except.pure, Except.toOption]

/-- Another call has different results on two databases that are not to be told apart. -/
theorem within_of_executeTool_eq (h : ∀ db db', Agree actorId db db' →
    executeTool runtime actorId db' c = executeTool runtime actorId db c) :
    Within runtime actorId c := by
  unfold Within
  cases htool : tools.find? (fun tool => decide (tool.name = c.name)) with
  | none => trivial
  | some tool =>
    cases tool with
    | getPendingRequests => trivial
    | searchEmployees => trivial
    | getMyRequests => trivial
    | getComplianceFindings =>
      rintro ⟨status, limit⟩ hquery
      by_contra hlimit
      have hsame := h noRows (oneFinding status) (agree_oneFinding actorId status)
      simp only [executeTool, htool] at hsame
      obtain ⟨hnone, hone⟩ := counted_findings hquery hlimit
      rw [hsame, hnone] at hone
      cases hone
    | getActiveAccessGrants =>
      intro id hparam
      by_contra hother
      have hsame := h noRows (oneGrant id c.now) (agree_oneGrant hother c.now)
      simp only [executeTool, htool] at hsame
      obtain ⟨hnone, hone⟩ := counted_grants hparam
      rw [hsame, hnone] at hone
      cases hone

end Calls

/-! ### Sequences of calls -/

/-- **The results of a list of calls are the same on all databases that differ in the findings and
in the grants of others only, exactly if** every call stays within the boundaries.  No permission of
the user plays a part. -/
theorem sameResults_iff (runtime : ToolRuntime) (actorId : Uuid) (calls : List ToolCall) :
    (∀ db db', Agree actorId db db' →
      calls.map (executeTool runtime actorId db') = calls.map (executeTool runtime actorId db)) ↔
    ∀ c ∈ calls, Within runtime actorId c := by
  constructor
  · intro h c hc
    refine within_of_executeTool_eq fun db db' hagree => ?_
    exact List.map_inj_left.1 (h db db' hagree) c hc
  · intro h db db' hagree
    exact List.map_congr_left fun c hc => executeTool_eq hagree (h c hc)

/-! ### Conversations -/

section Conversations

variable {runtime : ToolRuntime} {respond : List Message → Except Failure ModelResponse}
  {actorId : Uuid} {db db' : AiDatabase}

theorem mapM_executeTool_eq (hagree : Agree actorId db db') {calls : List ToolCall}
    (h : ∀ c ∈ calls, Within runtime actorId c) :
    calls.mapM (executeTool runtime actorId db') = calls.mapM (executeTool runtime actorId db) := by
  induction calls with
  | nil => rfl
  | cons c calls ih =>
    rw [List.mapM_cons, List.mapM_cons, executeTool_eq hagree (h c List.mem_cons_self),
      ih fun c' hc' => h c' (List.mem_cons_of_mem c hc')]

/-- A model that stays within the boundaries is told the same in every round, and so asks for the
same in the next one. -/
theorem converse_eq (hagree : Agree actorId db db')
    (h : ∀ messages response, respond messages = .ok response →
      ∀ c ∈ response.toolUses, Within runtime actorId c) (iterations : ℕ) (lastText : String)
    (messages : List Message) :
    converse runtime respond actorId db' iterations lastText messages =
      converse runtime respond actorId db iterations lastText messages := by
  induction iterations generalizing lastText messages with
  | zero => rfl
  | succ iterations ih =>
    unfold converse
    cases hresponse : respond messages with
    | error failure => rfl
    | ok response =>
      have hresults := mapM_executeTool_eq hagree (h messages response hresponse)
      simp only [bind, Except.bind, hresults, ih]

/-- **A conversation ends with the same text.** -/
theorem chat_eq (hagree : Agree actorId db db')
    (h : ∀ messages response, respond messages = .ok response →
      ∀ c ∈ response.toolUses, Within runtime actorId c) (enabled : Bool)
    (messages : List Message) :
    chat runtime enabled respond actorId messages db' =
      chat runtime enabled respond actorId messages db := by
  simp only [chat, converse_eq hagree h]

end Conversations

namespace Sample

/-- A runtime for inputs without odd values. -/
def runtime : ToolRuntime where
  number
    | .num n => .ok n
    | _ => .ok .nan
  text _ := ""
  parseUuid text := if text = "7" then some 7 else none
  toLowerCase := id

/-- Nobody has a permission. -/
def view : AuthzView := ⟨fun _ _ => false, [], 0⟩

/-- The open findings. -/
def openFindings : ToolCall := ⟨"get_compliance_findings", [], 0⟩

/-- The grants of employee 7. -/
def grantsOfSeven : ToolCall :=
  ⟨"get_active_access_grants", [("employeeId", .str "7")], 0⟩

/-- Employee 1, who may not read findings, is told of a finding and of a grant of employee 7. -/
theorem not_sameResults :
    ¬ (∀ (view : AuthzView) (actorId : Uuid), view.check actorId "compliance.read" = false →
      ∀ (calls : List ToolCall) (db db' : AiDatabase), Agree actorId db db' →
        calls.map (executeTool runtime actorId db') = calls.map (executeTool runtime actorId db)) ∧
    counted (executeTool runtime 1 (oneFinding .open) openFindings) = 1 ∧
    counted (executeTool runtime 1 (oneGrant 7 0) grantsOfSeven) = 1 := by
  have hfinding : counted (executeTool runtime 1 (oneFinding .open) openFindings) = 1 := by
    decide +kernel
  have hgrant : counted (executeTool runtime 1 (oneGrant 7 0) grantsOfSeven) = 1 := by
    decide +kernel
  have hnone : counted (executeTool runtime 1 noRows openFindings) = 0 := by decide +kernel
  refine ⟨fun h => ?_, hfinding, hgrant⟩
  have hsame := h view 1 rfl [openFindings] noRows (oneFinding .open) (agree_oneFinding 1 .open)
  rw [List.map_singleton, List.map_singleton, List.singleton_inj] at hsame
  rw [hsame, hnone] at hfinding
  cases hfinding

end Sample

end AiService

end OpsHub
