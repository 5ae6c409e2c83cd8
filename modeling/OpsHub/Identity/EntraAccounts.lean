import Mathlib.Data.List.Induction
import OpsHub.Domain.TypeDefs
import OpsHub.Lib.Latest
import OpsHub.Lib.Pool
import OpsHub.Lib.Runs
import OpsHub.Requests.FinalApprovals

/-!
# Entra accounts after an approval

`RequestEngine.approve` calls `afterApprove` once its transaction has committed, and does not wait
for it.  The hook of an onboarding enables the Entra account of the employee, that of an
offboarding disables it: it reads the object id from the row of the employee, and patches the
account through Graph.  A patch that fails is logged, and not made again.

* `afterApprove`: the change that an approval asks for;
* `EntraState`, `step`: the engine with the hooks in flight, while anything else writes to the
  tables of the modules;
* `HooksAccounted`: the hooks are those of the final approvals, one for each; and an account is
  changed by such a hook only, at most once, as the request asks, and under an object id that the
  employee has had;
* `hooks_accounted`: so it is in every run;
* `always_in_approval_order_iff`: an account is as the latest approval wants it exactly if no
  change is made late.
-/

namespace OpsHub

/-! ### The source -/

/-- The environment of `GraphProvisioningService`. -/
structure GraphConfig where
  entraTenantId : Option String
  entraClientId : Option String
  graphClientSecret : Option String

/-- `GraphProvisioningService.isEnabled`. -/
def GraphProvisioningService.isEnabled (config : GraphConfig) : Bool :=
  decide (config.entraTenantId.getD "" ≠ "" ∧ config.entraClientId.getD "" ≠ "" ∧
    config.graphClientSecret.getD "" ≠ "")

/-- The change of an account: `enableEntraUser` or `disableEntraUser`, for an employee. -/
structure AccountChange where
  employeeId : Uuid
  accountEnabled : Bool
  deriving DecidableEq, Repr

/-- The beginning of `OnboardingTypeDef.afterApprove`. -/
def OnboardingTypeDef.afterApprove (config : GraphConfig) :
    Payload → Option AccountChange
  | .onboarding p => if GraphProvisioningService.isEnabled config then
      some ⟨p.employeeId, true⟩
    else none
  | _ => none

/-- The beginning of `OffboardingTypeDef.afterApprove`. -/
def OffboardingTypeDef.afterApprove (config : GraphConfig) :
    Payload → Option AccountChange
  | .offboarding p => if GraphProvisioningService.isEnabled config then
      some ⟨p.employeeId, false⟩
    else none
  | _ => none

/-- `afterApprove` of the definition that is registered for a type; the other ones have none. -/
def afterApprove (config : GraphConfig) (type : String) (payload : Payload) :
    Option AccountChange :=
  if type = onboardingTypeDef.type then OnboardingTypeDef.afterApprove config payload
  else if type = offboardingTypeDef.type then OffboardingTypeDef.afterApprove config payload
  else none

/-! ### The machine -/

namespace EntraState

/-- The next statement of a hook. -/
inductive HookPhase
  | lookup
  | patch (entraOid : String)
  | finished
  deriving DecidableEq, Repr

/-- A call of `afterApprove`. -/
structure HookCall where
  requestId : Uuid
  change : AccountChange
  phase : HookPhase := .lookup
  deriving DecidableEq, Repr

/-- A change that Graph has made, and the call that has asked for it. -/
structure Patch where
  call : ℕ
  entraOid : String
  accountEnabled : Bool
  deriving DecidableEq, Repr

end EntraState

open EntraState

/-- The engine, the calls of the hooks in the order of the commits, and what Graph has done. -/
structure EntraState where
  engine : Concurrent.State Payload Tables
  calls : List HookCall := []
  patches : List Patch := []

/-- What can happen; a hook whose statement does not come has been lost. -/
inductive EntraEvent
  | engine (e : Concurrent.Event Payload)
  /-- Any other transaction. -/
  | write (domain : Tables)
  | lookup (i : ℕ)
  /-- A patch, which Graph makes or does not make. -/
  | patch (i : ℕ) (made : Bool)

namespace EntraState

/-- No request, and no hook. -/
def initial (subscriptions : List WebhookSubscription) (tables : TxTables Tables) : EntraState where
  engine := Concurrent.State.initial subscriptions tables

def employees (s : EntraState) : Table Employee.id := s.engine.db.domain.employees

/-- What an empty object id or none leaves to do, and any other one. -/
def afterLookup (employees : Table Employee.id) (employeeId : Uuid) : HookPhase :=
  match (employees.find employeeId).bind Employee.entraOid with
  | some entraOid => if entraOid = "" then .finished else .patch entraOid
  | none => .finished

/-- The calls of hooks that an event of the engine makes. -/
def newCalls (config : GraphConfig) (s : EntraState) (e : Concurrent.Event Payload) :
    List HookCall :=
  ((s.engine.approving moduleRegistry e).bind fun request =>
    (afterApprove config request.type request.payload).map fun change =>
      { requestId := request.id, change := change }).toList

/-- The state after a statement. -/
def step (config : GraphConfig) (s : EntraState) : EntraEvent → EntraState
  | .engine e =>
    { s with
      engine := Concurrent.step moduleRegistry s.engine e
      calls := s.calls ++ s.newCalls config e }
  | .write domain =>
    { s with engine := { s.engine with db := { s.engine.db with domain := domain } } }
  | .lookup i =>
    match s.calls[i]? with
    | some ⟨requestId, change, .lookup⟩ =>
      { s with
        calls := s.calls.set i ⟨requestId, change, afterLookup s.employees change.employeeId⟩ }
    | _ => s
  | .patch i made =>
    match s.calls[i]? with
    | some ⟨requestId, change, .patch entraOid⟩ =>
      { s with
        calls := s.calls.set i ⟨requestId, change, .finished⟩
        patches := s.patches ++ if made then [⟨i, entraOid, change.accountEnabled⟩] else [] }
    | _ => s

/-! ### What a statement does to the hooks -/

/-- The change that a stored request asks for. -/
def wanted (config : GraphConfig) (s : EntraState) (requestId : Uuid) : Option AccountChange :=
  (s.engine.db.requestItems.find requestId).bind fun r => afterApprove config r.type r.payload

/-- A call that begins is that of a final approval. -/
theorem mem_newCalls {config : GraphConfig} {s : EntraState} {e : Concurrent.Event Payload}
    {c : HookCall} (h : c ∈ s.newCalls config e) :
    c.phase = .lookup ∧ ∃ request, s.engine.approving moduleRegistry e = some request ∧
      c.requestId = request.id ∧
      afterApprove config request.type request.payload = some c.change := by
  obtain ⟨request, happroving, hc⟩ := Option.bind_eq_some_iff.1 (Option.mem_toList.1 h)
  obtain ⟨change, hchange, rfl⟩ := Option.map_eq_some_iff.1 hc
  exact ⟨rfl, request, happroving, rfl, hchange⟩

/-- Hooks begin, one of them finds its employee, or it patches the account. -/
inductive HooksMove (config : GraphConfig) (s s' : EntraState) (e : EntraEvent) : Prop
  | begun (new : List HookCall) (hcalls : s'.calls = s.calls ++ new)
      (hnew : ∀ c ∈ new, ∃ e', e = .engine e' ∧ c ∈ s.newCalls config e')
      (hpatches : s'.patches = s.patches)
  | lookedUp (i : ℕ) (requestId : Uuid) (change : AccountChange)
      (hcall : s.calls[i]? = some ⟨requestId, change, .lookup⟩)
      (hcalls : s'.calls =
        s.calls.set i ⟨requestId, change, afterLookup s.employees change.employeeId⟩)
      (hpatches : s'.patches = s.patches)
  | patched (i : ℕ) (requestId : Uuid) (change : AccountChange) (entraOid : String) (made : Bool)
      (he : e = .patch i made) (hcall : s.calls[i]? = some ⟨requestId, change, .patch entraOid⟩)
      (hcalls : s'.calls = s.calls.set i ⟨requestId, change, .finished⟩)
      (hpatches : s'.patches =
        s.patches ++ if made then [⟨i, entraOid, change.accountEnabled⟩] else [])

section Steps

variable {config : GraphConfig} {s : EntraState} {e : EntraEvent} {c : HookCall} {i : ℕ}

theorem hooksMove_step (config : GraphConfig) (s : EntraState) (e : EntraEvent) :
    HooksMove config s (s.step config e) e := by
  have hquiet : HooksMove config s s e :=
    .begun [] (List.append_nil _).symm (fun _ hc => by cases hc) rfl
  cases e with
  | engine e => exact .begun (s.newCalls config e) rfl (fun c hc => ⟨e, rfl, hc⟩) rfl
  | write domain => exact .begun [] (List.append_nil _).symm (fun _ hc => by cases hc) rfl
  | lookup i =>
    simp only [step]
    split
    · rename_i requestId change hcall
      exact .lookedUp i requestId change hcall rfl rfl
    · exact hquiet
  | patch i made =>
    simp only [step]
    split
    · rename_i requestId change entraOid hcall
      exact .patched i requestId change entraOid made rfl hcall rfl rfl
    · exact hquiet

/-- A call keeps its place and what it is for, and does not go on after its end. -/
theorem call_step (config : GraphConfig) (e : EntraEvent) (hc : s.calls[i]? = some c) :
    ∃ c', (s.step config e).calls[i]? = some c' ∧ c'.requestId = c.requestId ∧
      c'.change = c.change ∧ (c.phase = .finished → c'.phase = .finished) := by
  have hset : ∀ j requestId change phase phase',
      s.calls[j]? = some ⟨requestId, change, phase⟩ → phase ≠ .finished →
      ∃ c', (s.calls.set j ⟨requestId, change, phase'⟩)[i]? = some c' ∧
        c'.requestId = c.requestId ∧ c'.change = c.change ∧
          (c.phase = .finished → c'.phase = .finished) := by
    intro j requestId change phase phase' hj hphase
    by_cases hij : j = i
    · subst hij
      obtain rfl := Option.some.inj (hj.symm.trans hc)
      exact ⟨_, List.getElem?_set_self (List.getElem?_eq_some_iff.1 hc).1, rfl, rfl,
        fun hend => absurd hend hphase⟩
    · exact ⟨c, (List.getElem?_set_ne hij).trans hc, rfl, rfl, id⟩
  cases hooksMove_step config s e with
  | begun new hcalls hnew hpatches =>
    refine ⟨c, ?_, rfl, rfl, id⟩
    rw [hcalls, List.getElem?_append_left (List.getElem?_eq_some_iff.1 hc).1]
    exact hc
  | lookedUp j requestId change hcall hcalls hpatches =>
    rw [hcalls]
    exact hset j requestId change _ _ hcall (by simp)
  | patched j requestId change entraOid made he hcall hcalls hpatches =>
    rw [hcalls]
    exact hset j requestId change _ _ hcall (by simp)

/-- Stored requests stay, and ask for the same. -/
theorem wanted_step (config : GraphConfig) (e : EntraEvent) {requestId : Uuid}
    {r : RequestItem Payload} (hr : s.engine.db.requestItems.find requestId = some r) :
    (∃ r', (s.step config e).engine.db.requestItems.find requestId = some r') ∧
      (s.step config e).wanted config requestId = s.wanted config requestId := by
  have hsame : ∀ s' : EntraState, s'.engine.db.requestItems = s.engine.db.requestItems →
      (∃ r', s'.engine.db.requestItems.find requestId = some r') ∧
        s'.wanted config requestId = s.wanted config requestId := by
    intro s' heq
    rw [wanted, wanted, heq]
    exact ⟨⟨r, hr⟩, rfl⟩
  cases e with
  | engine e =>
    obtain ⟨r', hr', htype, hpayload⟩ := Concurrent.find_step moduleRegistry e hr
    refine ⟨⟨r', hr'⟩, ?_⟩
    simp only [wanted, step, hr, hr', Option.bind_some, htype, hpayload]
  | write domain => exact hsame _ rfl
  | lookup i =>
    refine hsame _ ?_
    simp only [step]
    split <;> rfl
  | patch i made =>
    refine hsame _ ?_
    simp only [step]
    split <;> rfl

/-- Only the engine begins calls. -/
theorem ids_step (config : GraphConfig) (s : EntraState) (e : EntraEvent) :
    (s.step config e).calls.map HookCall.requestId = s.calls.map HookCall.requestId ++
      match e with
      | .engine e => (s.newCalls config e).map HookCall.requestId
      | _ => [] := by
  have hset : ∀ i requestId change phase phase', s.calls[i]? = some ⟨requestId, change, phase⟩ →
      (s.calls.set i ⟨requestId, change, phase'⟩).map HookCall.requestId =
        s.calls.map HookCall.requestId := by
    intro i requestId change phase phase' h
    have hid : (s.calls.map HookCall.requestId)[i]? = some requestId := by
      rw [List.getElem?_map, h]
      rfl
    obtain ⟨hlt, heq⟩ := List.getElem?_eq_some_iff.1 hid
    rw [List.map_set]
    exact (congrArg _ heq.symm).trans (List.set_getElem_self hlt)
  cases e with
  | engine e => exact List.map_append
  | write domain => exact (List.append_nil _).symm
  | lookup i =>
    rw [List.append_nil]
    simp only [step]
    split
    · rename_i requestId change hcall
      exact hset i requestId change _ _ hcall
    · rfl
  | patch i made =>
    rw [List.append_nil]
    simp only [step]
    split
    · rename_i requestId change entraOid hcall
      exact hset i requestId change _ _ hcall
    · rfl

/-- Only the engine calls `onApprove`. -/
theorem onApproveCalls_step (config : GraphConfig) (s : EntraState) (e : EntraEvent) :
    (s.step config e).engine.db.onApproveCalls = s.engine.db.onApproveCalls ++
      match e with
      | .engine e => (s.engine.approving moduleRegistry e).toList.map RequestItem.id
      | _ => [] := by
  cases e with
  | engine e => exact Concurrent.onApproveCalls_step moduleRegistry s.engine e
  | write domain => exact (List.append_nil _).symm
  | lookup i =>
    rw [List.append_nil]
    simp only [step]
    split <;> rfl
  | patch i made =>
    rw [List.append_nil]
    simp only [step]
    split <;> rfl

/-- What a final approval asks for is what its stored request asks for. -/
theorem wanted_of_approving {e : Concurrent.Event Payload} {request : RequestItem Payload}
    (hcopied : Concurrent.Copied s.engine)
    (h : s.engine.approving moduleRegistry e = some request) :
    (∃ r, (s.step config (.engine e)).engine.db.requestItems.find request.id = some r) ∧
      (s.step config (.engine e)).wanted config request.id =
        afterApprove config request.type request.payload := by
  obtain ⟨r, hr, htype, hpayload⟩ := Concurrent.approving_stored hcopied h
  refine ⟨⟨r, hr⟩, ?_⟩
  simp only [wanted, step, hr, Option.bind_some, htype, hpayload]

end Steps

/-! ### What holds in every run -/

/-- The calls are those of the final approvals so far, and ask for what the requests ask for; an
account is patched by a call that ends then. -/
structure Kept (config : GraphConfig) (s : EntraState) : Prop where
  copied : Concurrent.Copied s.engine
  stored : ∀ id ∈ s.engine.db.onApproveCalls, ∃ r, s.engine.db.requestItems.find id = some r
  ran : s.calls.map HookCall.requestId =
    s.engine.db.onApproveCalls.filter fun id => (s.wanted config id).isSome
  asked : ∀ c ∈ s.calls, s.wanted config c.requestId = some c.change
  once : (s.patches.map Patch.call).Nodup
  ended : ∀ p ∈ s.patches, ∃ c, s.calls[p.call]? = some c ∧ c.phase = .finished

section Kept

variable {config : GraphConfig} {s : EntraState} {e : EntraEvent} {c : HookCall}

theorem copied_entraStep (h : Concurrent.Copied s.engine) (e : EntraEvent) :
    Concurrent.Copied (s.step config e).engine := by
  cases e with
  | engine e => exact Concurrent.copied_step moduleRegistry h e
  | write domain => exact h
  | lookup i =>
    simp only [step]
    split <;> exact h
  | patch i made =>
    simp only [step]
    split <;> exact h

theorem stored_step (h : Kept config s) (e : EntraEvent) :
    ∀ id ∈ (s.step config e).engine.db.onApproveCalls,
      ∃ r, (s.step config e).engine.db.requestItems.find id = some r := by
  intro id hid
  rw [onApproveCalls_step] at hid
  rcases List.mem_append.1 hid with hid | hid
  · obtain ⟨r, hr⟩ := h.stored id hid
    exact (wanted_step config e hr).1
  · cases e with
    | engine e =>
      obtain ⟨request, hrequest, rfl⟩ := List.mem_map.1 hid
      exact (wanted_of_approving h.copied (Option.mem_toList.1 hrequest)).1
    | _ => cases hid

/-- The calls that begin are those of the final approvals that ask for a change. -/
theorem ran_step (h : Kept config s) (e : EntraEvent) :
    (s.step config e).calls.map HookCall.requestId =
      (s.step config e).engine.db.onApproveCalls.filter fun id =>
        ((s.step config e).wanted config id).isSome := by
  have hold : (s.engine.db.onApproveCalls.filter fun id =>
      ((s.step config e).wanted config id).isSome) = s.calls.map HookCall.requestId := by
    rw [h.ran]
    refine List.filter_congr fun id hid => ?_
    obtain ⟨r, hr⟩ := h.stored id hid
    rw [(wanted_step config e hr).2]
  rw [ids_step, onApproveCalls_step, List.filter_append, hold]
  congr 1
  cases e with
  | engine e =>
    dsimp only
    rw [newCalls]
    cases happroving : s.engine.approving moduleRegistry e with
    | none => rfl
    | some request =>
      have hwanted : (s.step config (.engine e)).wanted config request.id =
          afterApprove config request.type request.payload :=
        (wanted_of_approving h.copied happroving).2
      simp only [Option.bind_some, Option.toList_some, List.map_cons, List.map_nil]
      rw [List.filter_singleton, hwanted]
      cases afterApprove config request.type request.payload <;> rfl
  | _ => rfl

/-- What a call asks for stays what its request asks for. -/
theorem asked_step (h : Kept config s) (e : EntraEvent) :
    ∀ c ∈ (s.step config e).calls,
      (s.step config e).wanted config c.requestId = some c.change := by
  have hold : ∀ c ∈ s.calls, (s.step config e).wanted config c.requestId = some c.change := by
    intro c hc
    have hasked := h.asked c hc
    obtain ⟨r, hr, -⟩ := Option.bind_eq_some_iff.1 hasked
    rw [(wanted_step config e hr).2, hasked]
  have hset : ∀ i requestId change phase phase', s.calls[i]? = some ⟨requestId, change, phase⟩ →
      ∀ c ∈ s.calls.set i ⟨requestId, change, phase'⟩,
        (s.step config e).wanted config c.requestId = some c.change := by
    intro i requestId change phase phase' hcall c hc
    rcases List.mem_or_eq_of_mem_set hc with hc | rfl
    · exact hold c hc
    · exact hold ⟨requestId, change, phase⟩ (List.mem_of_getElem? hcall)
  intro c hc
  cases hooksMove_step config s e with
  | begun new hcalls hnew hpatches =>
    rw [hcalls] at hc
    rcases List.mem_append.1 hc with hc | hc
    · exact hold c hc
    · obtain ⟨e', rfl, hc⟩ := hnew c hc
      obtain ⟨-, request, happroving, hid, hchange⟩ := mem_newCalls hc
      rw [hid, (wanted_of_approving h.copied happroving).2, hchange]
  | lookedUp i requestId change hcall hcalls hpatches =>
    rw [hcalls] at hc
    exact hset i requestId change _ _ hcall c hc
  | patched i requestId change entraOid made he hcall hcalls hpatches =>
    rw [hcalls] at hc
    exact hset i requestId change _ _ hcall c hc

/-- A patch is made by a call that has made none before, and ends it. -/
theorem patches_step (h : Kept config s) (e : EntraEvent) :
    ((s.step config e).patches.map Patch.call).Nodup ∧
      ∀ p ∈ (s.step config e).patches,
        ∃ c, (s.step config e).calls[p.call]? = some c ∧ c.phase = .finished := by
  have hold : ∀ p ∈ s.patches,
      ∃ c, (s.step config e).calls[p.call]? = some c ∧ c.phase = .finished := by
    intro p hp
    obtain ⟨c, hc, hend⟩ := h.ended p hp
    obtain ⟨c', hc', -, -, hend'⟩ := call_step config e hc
    exact ⟨c', hc', hend' hend⟩
  cases hooksMove_step config s e with
  | begun new hcalls hnew hpatches =>
    rw [hpatches]
    exact ⟨h.once, hold⟩
  | lookedUp i requestId change hcall hcalls hpatches =>
    rw [hpatches]
    exact ⟨h.once, hold⟩
  | patched i requestId change entraOid made he hcall hcalls hpatches =>
    have hfresh : ∀ p ∈ s.patches, p.call ≠ i := by
      rintro p hp rfl
      obtain ⟨c, hc, hend⟩ := h.ended p hp
      obtain rfl := Option.some.inj (hcall.symm.trans hc)
      cases hend
    rw [hpatches]
    cases made with
    | false =>
      simp only [Bool.false_eq_true, if_false, List.append_nil]
      exact ⟨h.once, hold⟩
    | true =>
      simp only [if_true, List.map_append, List.map_cons, List.map_nil]
      refine ⟨List.nodup_append.2 ⟨h.once, List.nodup_singleton i, ?_⟩, fun p hp => ?_⟩
      · rintro j hj k hk rfl
        obtain ⟨p, hp, rfl⟩ := List.mem_map.1 hj
        exact hfresh p hp (List.mem_singleton.1 hk)
      · rcases List.mem_append.1 hp with hp | hp
        · exact hold p hp
        · rw [List.mem_singleton.1 hp, hcalls]
          exact ⟨_, List.getElem?_set_self (List.getElem?_eq_some_iff.1 hcall).1, rfl⟩

theorem kept_step (h : Kept config s) (e : EntraEvent) : Kept config (s.step config e) where
  copied := copied_entraStep h.copied e
  stored := stored_step h e
  ran := ran_step h e
  asked := asked_step h e
  once := (patches_step h e).1
  ended := (patches_step h e).2

theorem kept_initial (config : GraphConfig) (subscriptions : List WebhookSubscription)
    (tables : TxTables Tables) : Kept config (initial subscriptions tables) where
  copied := Concurrent.copied_initial subscriptions tables
  stored _ hid := by cases hid
  ran := rfl
  asked _ hc := by cases hc
  once := List.nodup_nil
  ended _ hp := by cases hp

end Kept

/-! ### The accounts -/

/-- The object id has been in the row of the employee since the hook was called. -/
def Found (config : GraphConfig) (start : EntraState) (es : List EntraEvent) (call : ℕ)
    (employeeId : Uuid) (entraOid : String) : Prop :=
  entraOid ≠ "" ∧ ∃ fs, fs <+: es ∧ call < (Runs.run (step config) start fs).calls.length ∧
    ∃ row ∈ (Runs.run (step config) start fs).employees.rows,
      row.id = employeeId ∧ row.entraOid = some entraOid

/-- The final approvals of on- and offboardings call one hook each, in their order, and nothing
else does; each hook patches one account at most, as its request asks, and under an object id that
the employee has had since. -/
structure HooksAccounted (config : GraphConfig) (start : EntraState) (es : List EntraEvent)
    (s : EntraState) : Prop where
  ran : s.calls.map HookCall.requestId =
    s.engine.db.onApproveCalls.filter fun id => (s.wanted config id).isSome
  asked : ∀ c ∈ s.calls, s.wanted config c.requestId = some c.change
  once : (s.patches.map Patch.call).Nodup
  patched : ∀ p ∈ s.patches, ∃ c, s.calls[p.call]? = some c ∧
    c.change.accountEnabled = p.accountEnabled ∧
    Found config start es p.call c.change.employeeId p.entraOid

section Run

variable {config : GraphConfig} {start : EntraState} {es : List EntraEvent} {s : EntraState}
  {call : ℕ} {employeeId : Uuid} {entraOid : String}

theorem Found.append (h : Found config start es call employeeId entraOid) (e : EntraEvent) :
    Found config start (es ++ [e]) call employeeId entraOid := by
  obtain ⟨hne, fs, hfs, hfound⟩ := h
  exact ⟨hne, fs, hfs.trans (List.prefix_append es [e]), hfound⟩

/-- What the lookup finds. -/
theorem found_of_afterLookup {i : ℕ}
    (hlt : i < (Runs.run (step config) start es).calls.length)
    (h : afterLookup (Runs.run (step config) start es).employees employeeId = .patch entraOid) :
    Found config start es i employeeId entraOid := by
  unfold afterLookup at h
  split at h
  · rename_i found hfound
    split at h
    · cases h
    · rename_i hne
      obtain ⟨row, hrow, hoid⟩ := Option.bind_eq_some_iff.1 hfound
      cases h
      exact ⟨hne, es, List.prefix_refl es, hlt, row, Table.mem_of_find hrow,
        Table.key_of_find hrow, hoid⟩
  · cases h

/-- The object ids of the calls and of the patches. -/
structure OidsFound (config : GraphConfig) (start : EntraState) (es : List EntraEvent)
    (s : EntraState) : Prop where
  calls : ∀ (i : ℕ) c entraOid, s.calls[i]? = some c → c.phase = .patch entraOid →
    Found config start es i c.change.employeeId entraOid
  patches : ∀ p ∈ s.patches, ∃ c, s.calls[p.call]? = some c ∧
    c.change.accountEnabled = p.accountEnabled ∧
    Found config start es p.call c.change.employeeId p.entraOid

/-- **The step lemma** for the object ids. -/
theorem oidsFound_step (h : OidsFound config start es (Runs.run (step config) start es))
    (e : EntraEvent) :
    OidsFound config start (es ++ [e]) ((Runs.run (step config) start es).step config e) := by
  have hold : ∀ p ∈ (Runs.run (step config) start es).patches,
      ∃ c, ((Runs.run (step config) start es).step config e).calls[p.call]? = some c ∧
        c.change.accountEnabled = p.accountEnabled ∧
        Found config start (es ++ [e]) p.call c.change.employeeId p.entraOid := by
    intro p hp
    obtain ⟨c, hc, hflag, hfound⟩ := h.patches p hp
    obtain ⟨c', hc', -, hchange, -⟩ := call_step config e hc
    rw [← hchange] at hflag hfound
    exact ⟨c', hc', hflag, hfound.append e⟩
  cases hooksMove_step config (Runs.run (step config) start es) e with
  | begun new hcalls hnew hpatches =>
    refine ⟨fun i c entraOid hc hphase => ?_, hpatches ▸ hold⟩
    rw [hcalls] at hc
    by_cases hlt : i < (Runs.run (step config) start es).calls.length
    · rw [List.getElem?_append_left hlt] at hc
      exact (h.calls i c entraOid hc hphase).append e
    · rw [List.getElem?_append_right (Nat.le_of_not_lt hlt)] at hc
      -- a call that has just begun looks its employee up first
      obtain ⟨e', -, hmem⟩ := hnew c (List.mem_of_getElem? hc)
      rw [(mem_newCalls hmem).1] at hphase
      cases hphase
  | lookedUp j requestId change hcall hcalls hpatches =>
    refine ⟨fun i c entraOid hc hphase => ?_, hpatches ▸ hold⟩
    rw [hcalls] at hc
    rcases Pool.get_set_cases hc with ⟨rfl, rfl⟩ | ⟨-, hc⟩
    · exact (found_of_afterLookup (List.getElem?_eq_some_iff.1 hcall).1 hphase).append e
    · exact (h.calls i c entraOid hc hphase).append e
  | patched j requestId change entraOid made he hcall hcalls hpatches =>
    refine ⟨fun i c entraOid hc hphase => ?_, fun p hp => ?_⟩
    · rw [hcalls] at hc
      rcases Pool.get_set_cases hc with ⟨rfl, rfl⟩ | ⟨-, hc⟩
      · cases hphase
      · exact (h.calls i c entraOid hc hphase).append e
    · rw [hpatches] at hp
      rcases List.mem_append.1 hp with hp | hp
      · exact hold p hp
      · cases made with
        | false => cases hp
        | true =>
          rw [if_pos rfl, List.mem_singleton] at hp
          subst hp
          rw [hcalls]
          exact ⟨_, List.getElem?_set_self (List.getElem?_eq_some_iff.1 hcall).1, rfl,
            (h.calls j _ entraOid hcall rfl).append _⟩

theorem oidsFound_run (config : GraphConfig) (subscriptions : List WebhookSubscription)
    (tables : TxTables Tables) (es : List EntraEvent) :
    OidsFound config (initial subscriptions tables) es
      (Runs.run (step config) (initial subscriptions tables) es) := by
  induction es using List.reverseRecOn with
  | nil =>
    refine ⟨fun _ _ _ hc => ?_, fun _ hp => ?_⟩
    · cases hc
    · cases hp
  | append_singleton es e ih =>
    rw [Runs.run_append]
    exact oidsFound_step ih e

/-- **Accounts and approvals**, in every order of the statements. -/
theorem hooks_accounted (config : GraphConfig) (subscriptions : List WebhookSubscription)
    (tables : TxTables Tables) (es : List EntraEvent) :
    HooksAccounted config (initial subscriptions tables) es
      (Runs.run (step config) (initial subscriptions tables) es) := by
  have hstep : ∀ s e, Kept config s → Kept config (step config s e) := fun _ e h => kept_step h e
  have hkept := Runs.run_invariant hstep (kept_initial config subscriptions tables) es
  exact ⟨hkept.ran, hkept.asked, hkept.once,
    (oidsFound_run config subscriptions tables es).patches⟩

end Run

/-! ### The order of the approvals -/

/-- The changes of an account, by the approvals that they come from. -/
def writes (s : EntraState) (entraOid : String) : List (ℕ × Bool) :=
  (s.patches.filter fun p => decide (p.entraOid = entraOid)).map fun p =>
    (p.call, p.accountEnabled)

/-- The flag of an account, once it has been changed. -/
def accountEnabled (s : EntraState) (entraOid : String) : Option Bool :=
  Latest.value (s.writes entraOid)

/-- Every account is as the latest approval wants it that has changed it. -/
def InApprovalOrder (s : EntraState) : Prop :=
  ∀ entraOid, Latest.LatestWins (s.writes entraOid)

/-- A change that comes after that of a later approval leaves the account as it is. -/
def NotLate (s : EntraState) : EntraEvent → Prop
  | .patch i true => ∀ c entraOid, s.calls[i]? = some c → c.phase = .patch entraOid →
      ∀ p ∈ s.patches, p.entraOid = entraOid → i < p.call →
        s.accountEnabled entraOid = some c.change.accountEnabled
  | _ => True

section Order

variable {config : GraphConfig} {s : EntraState} {e : EntraEvent}

theorem mem_writes {entraOid : String} {w : ℕ × Bool} :
    w ∈ s.writes entraOid ↔
      ∃ p ∈ s.patches, p.entraOid = entraOid ∧ (p.call, p.accountEnabled) = w := by
  simp only [writes, List.mem_map, List.mem_filter, decide_eq_true_iff, and_assoc]

theorem inApprovalOrder_congr {s' : EntraState} (h : s'.patches = s.patches) :
    InApprovalOrder s' ↔ InApprovalOrder s := by
  simp only [InApprovalOrder, writes, h]

/-- A change adds to the writes of its account. -/
theorem writes_append {s' : EntraState} {p : Patch} (h : s'.patches = s.patches ++ [p])
    (entraOid : String) : s'.writes entraOid =
      s.writes entraOid ++ if p.entraOid = entraOid then [(p.call, p.accountEnabled)] else [] := by
  rw [writes, writes, h, List.filter_append, List.map_append, List.filter_singleton]
  by_cases hoid : p.entraOid = entraOid
  · simp [hoid]
  · simp [hoid]

/-- A change of an account, of the `i`-th hook. -/
theorem inApprovalOrder_patch_iff {s' : EntraState} {i : ℕ} {entraOid : String} {flag : Bool}
    (h : InApprovalOrder s) (hfresh : ∀ p ∈ s.patches, p.call ≠ i)
    (hpatches : s'.patches = s.patches ++ [⟨i, entraOid, flag⟩]) :
    InApprovalOrder s' ↔ ∀ p ∈ s.patches, p.entraOid = entraOid → i < p.call →
      s.accountEnabled entraOid = some flag := by
  have hself : s'.writes entraOid = s.writes entraOid ++ [(i, flag)] := by
    rw [writes_append hpatches, if_pos rfl]
  have hiff : Latest.LatestWins (s'.writes entraOid) ↔
      ∀ w ∈ s.writes entraOid, i < w.1 → Latest.value (s.writes entraOid) = some flag := by
    rw [hself]
    refine Latest.latestWins_append_iff (h entraOid) fun w hw => ?_
    obtain ⟨p, hp, -, rfl⟩ := mem_writes.1 hw
    exact hfresh p hp
  constructor
  · intro hafter p hp hoid hlt
    exact hiff.1 (hafter entraOid) _ (mem_writes.2 ⟨p, hp, hoid, rfl⟩) hlt
  · intro hlate oid
    by_cases hoid : entraOid = oid
    · subst hoid
      refine hiff.2 fun w hw hlt => ?_
      obtain ⟨p, hp, hoid, rfl⟩ := mem_writes.1 hw
      exact hlate p hp hoid hlt
    · rw [writes_append hpatches, if_neg hoid, List.append_nil]
      exact h oid

/-- **The step lemma.** -/
theorem inApprovalOrder_step_iff (hkept : Kept config s) (h : InApprovalOrder s)
    (e : EntraEvent) : InApprovalOrder (s.step config e) ↔ s.NotLate e := by
  cases e with
  | engine e => exact iff_of_true h trivial
  | write domain => exact iff_of_true h trivial
  | lookup i =>
    refine iff_of_true ((inApprovalOrder_congr ?_).2 h) trivial
    simp only [step]
    split <;> rfl
  | patch i made =>
    cases made with
    | false =>
      refine iff_of_true ((inApprovalOrder_congr ?_).2 h) trivial
      simp only [step]
      split
      · exact List.append_nil _
      · rfl
    | true =>
      simp only [step]
      split
      · rename_i requestId change entraOid hcall
        have hfresh : ∀ p ∈ s.patches, p.call ≠ i := by
          rintro p hp rfl
          obtain ⟨c, hc, hend⟩ := hkept.ended p hp
          obtain rfl := Option.some.inj (hcall.symm.trans hc)
          cases hend
        refine (inApprovalOrder_patch_iff h hfresh rfl).trans ⟨fun hlate => ?_, fun hlate => ?_⟩
        · rintro c oid hc hphase
          obtain rfl := Option.some.inj (hcall.symm.trans hc)
          cases hphase
          exact hlate
        · exact hlate _ entraOid hcall rfl
      · rename_i hnone
        refine iff_of_true h ?_
        rintro ⟨requestId, change, phase⟩ entraOid hc rfl
        exact absurd hc (hnone requestId change entraOid)

/-- **The latest approval decides** about an account, in every state of a run, exactly if no change
comes after that of a later approval and says otherwise. -/
theorem always_in_approval_order_iff (config : GraphConfig)
    (subscriptions : List WebhookSubscription) (tables : TxTables Tables)
    (es : List EntraEvent) :
    (∀ fs, fs <+: es →
      InApprovalOrder (Runs.run (step config) (initial subscriptions tables) fs)) ↔
      Runs.Meets (step config) NotLate (initial subscriptions tables) es := by
  have hstep : ∀ (s : EntraState) (e : EntraEvent), True → Kept config s → InApprovalOrder s →
      (InApprovalOrder (step config s e) ↔ NotLate s e) :=
    fun _ e _ hkept h => inApprovalOrder_step_iff hkept h e
  have hkept : ∀ (s : EntraState) (e : EntraEvent), True → Kept config s → InApprovalOrder s →
      NotLate s e → Kept config (step config s e) := fun _ e _ hkept _ _ => kept_step hkept e
  exact Runs.always_iff_meets_of hstep hkept (fun _ _ => trivial)
    (kept_initial config subscriptions tables) fun _ => Latest.latestWins_nil

end Order

end EntraState

end OpsHub
