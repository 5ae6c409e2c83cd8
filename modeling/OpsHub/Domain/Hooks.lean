import OpsHub.Domain.TypeDefs
import OpsHub.Requests.Transitions

/-!
# What the hooks of the modules do

`HookEffect` lists what a hook that has returned has done to the tables of the modules, with the
payload that it was given, and whether it was `onApprove`.  Facts about one table under any
transition of the engine are derived from `hookEffect_of_transition` by its cases.
-/

namespace OpsHub

/-- The effect of a hook; the flag says whether it is `onApprove`. -/
inductive HookEffect (env : HookEnv) (tables : Tables) : Payload → Bool → Tables → Prop
  | nothing {payload : Payload} {approves : Bool} : HookEffect env tables payload approves tables
  | accessApproved (p : AccessRequestPayload) (approverId : Uuid)
      (accessGrants : Table AccessGrant.id)
      (hinsert : tables.accessGrants.insert (AccessRequestTypeDef.grant p env) = some accessGrants) :
      HookEffect env tables (.accessRequest p) true
        { AccessRequestTypeDef.review .approved p approverId env.now tables with
          accessGrants := accessGrants }
  | accessRejected (p : AccessRequestPayload) (approverId : Uuid) :
      HookEffect env tables (.accessRequest p) false
        (AccessRequestTypeDef.review .rejected p approverId env.now tables)
  | accessExpired (p : AccessRequestPayload) :
      HookEffect env tables (.accessRequest p) false
        (AccessRequestTypeDef.expired p env.now tables)
  | leaveApproved (p : LeaveRequestPayload) (reviewerId : Uuid) :
      HookEffect env tables (.leaveRequest p) true
        (LeaveRequestTypeDef.review .approved p reviewerId env.now tables)
  | leaveRejected (p : LeaveRequestPayload) (reviewerId : Uuid) :
      HookEffect env tables (.leaveRequest p) false
        (LeaveRequestTypeDef.review .rejected p reviewerId env.now tables)
  | leaveExpired (p : LeaveRequestPayload) :
      HookEffect env tables (.leaveRequest p) false (LeaveRequestTypeDef.expired p tables)
  | overtimeApproved (p : OvertimePayload) (reviewerId : Uuid) :
      HookEffect env tables (.overtime p) true
        (OvertimeTypeDef.review .approved p reviewerId env.now tables)
  | overtimeRejected (p : OvertimePayload) (reviewerId : Uuid) :
      HookEffect env tables (.overtime p) false
        (OvertimeTypeDef.review .rejected p reviewerId env.now tables)
  | overtimeExpired (p : OvertimePayload) :
      HookEffect env tables (.overtime p) false (OvertimeTypeDef.expired p tables)
  | offboarded (p : OffboardingPayload) :
      HookEffect env tables (.offboarding p) true
        (OffboardingTypeDef.offboard p.employeeId env.now tables)

variable {typeDef : RequestTypeDef Payload Tables} {payload : Payload} {requestId approverId : Uuid}
  {approves : Bool} {env : HookEnv} {tables tables' : TxTables Tables}

/-- The registered definitions. -/
theorem mem_typeDefs : typeDef ∈ typeDefs ↔ typeDef = accessRequestTypeDef ∨
    typeDef = leaveRequestTypeDef ∨ typeDef = overtimeTypeDef ∨ typeDef = onboardingTypeDef ∨
    typeDef = offboardingTypeDef ∨ typeDef = catalogRequestTypeDef := by
  simp only [typeDefs, List.mem_cons, List.not_mem_nil, or_false]

theorem hookEffect_skip (h : Hook.skip env tables = .ok tables') :
    HookEffect env tables.domain payload approves tables'.domain := by
  rw [← Except.ok.inj h]
  exact .nothing

theorem hookEffect_onApprove (hmem : typeDef ∈ typeDefs)
    (h : typeDef.onApprove payload requestId approverId env tables = .ok tables') :
    HookEffect env tables.domain payload true tables'.domain := by
  rcases mem_typeDefs.1 hmem with rfl | rfl | rfl | rfl | rfl | rfl
  · obtain ⟨p, accessGrants, rfl, hinsert, hdomain⟩ := AccessRequestTypeDef.onApprove_ok h
    rw [hdomain]
    exact .accessApproved p approverId accessGrants hinsert
  · obtain ⟨p, rfl, hdomain⟩ := LeaveRequestTypeDef.onApprove_ok h
    rw [hdomain]
    exact .leaveApproved p approverId
  · obtain ⟨p, rfl, hdomain⟩ := OvertimeTypeDef.onApprove_ok h
    rw [hdomain]
    exact .overtimeApproved p approverId
  · exact hookEffect_skip h
  · obtain ⟨p, rfl, hdomain⟩ := OffboardingTypeDef.onApprove_ok h
    rw [hdomain]
    exact .offboarded p
  · exact hookEffect_skip h

/-- The hook of `reject`. -/
theorem hookEffect_onReject (hmem : typeDef ∈ typeDefs)
    (h : Hook.orSkip (typeDef.onReject.map fun hook => hook payload requestId approverId)
      env tables = .ok tables') : HookEffect env tables.domain payload false tables'.domain := by
  rcases mem_typeDefs.1 hmem with rfl | rfl | rfl | rfl | rfl | rfl
  · obtain ⟨p, rfl, hdomain⟩ := AccessRequestTypeDef.onReject_ok h
    rw [hdomain]
    exact .accessRejected p approverId
  · obtain ⟨p, rfl, hdomain⟩ := LeaveRequestTypeDef.onReject_ok h
    rw [hdomain]
    exact .leaveRejected p approverId
  · obtain ⟨p, rfl, hdomain⟩ := OvertimeTypeDef.onReject_ok h
    rw [hdomain]
    exact .overtimeRejected p approverId
  all_goals exact hookEffect_skip h

/-- The hook of `expire`. -/
theorem hookEffect_onExpire (hmem : typeDef ∈ typeDefs)
    (h : Hook.orSkip (typeDef.onExpire.map fun hook => hook payload requestId)
      env tables = .ok tables') : HookEffect env tables.domain payload false tables'.domain := by
  rcases mem_typeDefs.1 hmem with rfl | rfl | rfl | rfl | rfl | rfl
  · obtain ⟨p, rfl, hdomain⟩ := AccessRequestTypeDef.onExpire_ok h
    rw [hdomain]
    exact .accessExpired p
  · obtain ⟨p, rfl, hdomain⟩ := LeaveRequestTypeDef.onExpire_ok h
    rw [hdomain]
    exact .leaveExpired p
  · obtain ⟨p, rfl, hdomain⟩ := OvertimeTypeDef.onExpire_ok h
    rw [hdomain]
    exact .overtimeExpired p
  all_goals exact hookEffect_skip h

/-- The hook of a step approval. -/
theorem hookEffect_onStepApproved (hmem : typeDef ∈ typeDefs) {step next : ℕ}
    {nextAssigneeId : Option Uuid}
    (h : Hook.orSkip (typeDef.onStepApproved.map fun hook =>
      hook payload requestId step next nextAssigneeId approverId) env tables = .ok tables') :
    HookEffect env tables.domain payload false tables'.domain := by
  rcases mem_typeDefs.1 hmem with rfl | rfl | rfl | rfl | rfl | rfl
  · have hstep : AccessRequestTypeDef.onStepApproved payload requestId step env tables =
        .ok tables' := h
    rw [AccessRequestTypeDef.onStepApproved_ok hstep]
    exact .nothing
  all_goals exact hookEffect_skip h

/-- No type has a hook of `cancel`. -/
theorem hookEffect_onCancel (hmem : typeDef ∈ typeDefs)
    (h : Hook.orSkip (typeDef.onCancel.map fun hook => hook payload requestId approverId)
      env tables = .ok tables') : HookEffect env tables.domain payload false tables'.domain := by
  rcases mem_typeDefs.1 hmem with rfl | rfl | rfl | rfl | rfl | rfl <;> exact hookEffect_skip h

/-- **What the hook of a transition does.** -/
theorem hookEffect_of_transition {request : RequestItem Payload} {t : Transition Payload Tables}
    (ht : RequestEngine.TransitionOf moduleRegistry request t)
    (h : t.hook env tables = .ok tables') :
    HookEffect env tables.domain request.payload t.approves tables'.domain := by
  cases ht with
  | finalApproval hdef => exact hookEffect_onApprove (moduleRegistry_eq_some hdef).1 h
  | stepApproval hdef => exact hookEffect_onStepApproved (moduleRegistry_eq_some hdef).1 h
  | rejection hdef => exact hookEffect_onReject (moduleRegistry_eq_some hdef).1 h
  | cancellation hdef => exact hookEffect_onCancel (moduleRegistry_eq_some hdef).1 h
  | expiration hdef => exact hookEffect_onExpire (moduleRegistry_eq_some hdef).1 h

end OpsHub
