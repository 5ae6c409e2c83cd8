import OpsHub.Ai.Boundaries
import OpsHub.Ai.ToolInputs
import OpsHub.Lib.Runs

/-!
# Conversations with failing tools

`chat`, one event after another: the model replies, and the tools that it asks for are executed in
turn, each on the database as it is by then, which may fail.

* `executeTool`: what its `try` block returns is the promise of a tool, and the `catch` clause sees
  only what the block throws; `executeTool_eq`: without failures this is `AiService.executeTool`;
* `Answered`: no tool has this name, or nothing fails and the tool takes its input;
* `ChatState`, `step`: the messages of a conversation, and the calls that are still to be executed;
  `exists_run_converse`: the loop of `AiService` is such a run;
* `step_inv`: before each call of the model, every `tool_use` block has its `tool_result` block;
* `resolves_iff`: `executeTool` resolves, and no tool ends a conversation, exactly if the calls are
  answered.
-/

namespace OpsHub

namespace Conversation

open AiService Runs

/-! ### Calls of tools -/

/-- What a tool meets when it is executed: the tables, and what the database or the engine throws at
one of its statements, if anything. -/
structure ToolEnv where
  db : AiDatabase
  fault : Option Failure

section Tools

variable (runtime : ToolRuntime) (errorText : Failure → String) (actorId : Uuid)

/-- What a tool reads of its input before its first statement. -/
def readInput (input : ToolInput) : Tool → Except Failure Unit
  | .getPendingRequests | .getComplianceFindings | .searchEmployees | .getMyRequests =>
    (limitOf runtime input).map fun _ => ()
  | .getActiveAccessGrants => .ok ()

/-- How the promise of a tool ends. -/
def promise (env : ToolEnv) (c : ToolCall) (tool : Tool) : Except Failure ToolResult := do
  readInput runtime c.input tool
  match env.fault with
  | some e => throw e
  | none => runTool runtime actorId env.db c tool

/-- The tool that a call names. -/
def toolOf (c : ToolCall) : Option Tool :=
  tools.find? (fun tool => decide (tool.name = c.name))

/-- The `try` block of `executeTool`.  It throws nothing: the tools are `async` functions, whose
promises it returns without awaiting them. -/
def tryBlock (env : ToolEnv) (c : ToolCall) : Except Failure (Except Failure ToolResult) :=
  match toolOf c with
  | some tool => .ok (promise runtime actorId env c tool)
  | none => .ok (.ok (.error ("Unknown tool: " ++ c.name)))

/-- `executeTool`; `errorText` is `String(err)`. -/
def executeTool (env : ToolEnv) (c : ToolCall) : Except Failure ToolResult :=
  match tryBlock runtime actorId env c with
  | .ok returned => returned
  | .error err => .ok (.error (errorText err))

/-- No tool has the name, or nothing fails and the tool takes its input. -/
def Answered (env : ToolEnv) (c : ToolCall) : Prop :=
  ∀ tool, toolOf c = some tool → env.fault = none ∧ Accepts runtime c.input tool

end Tools

section Calls

variable {runtime : ToolRuntime} {errorText : Failure → String} {actorId : Uuid} {env : ToolEnv}
  {c : ToolCall}

/-- **Without failures**, a call ends as `AiService` says. -/
theorem executeTool_eq (h : env.fault = none) :
    executeTool runtime errorText actorId env c =
      AiService.executeTool runtime actorId env.db c := by
  simp only [executeTool, tryBlock, toolOf, AiService.executeTool]
  cases htool : tools.find? (fun tool => decide (tool.name = c.name)) with
  | none => rfl
  | some tool =>
    simp only [promise, h]
    -- what cannot be read is rejected by the tool in the same way
    cases tool with
    | getActiveAccessGrants => rfl
    | _ =>
      simp only [readInput, runTool, toolGetPendingRequests, toolGetComplianceFindings,
        findingsQuery, toolSearchEmployees, toolGetMyRequests]
      cases limitOf runtime c.input <;> rfl

/-- **Which calls are resolved.** -/
theorem executeTool_isOk_iff :
    (∃ result, executeTool runtime errorText actorId env c = .ok result) ↔
      Answered runtime env c := by
  simp only [executeTool, tryBlock, Answered]
  cases htool : toolOf c with
  | none => simp
  | some tool =>
    simp only [Option.some.injEq, forall_eq']
    cases hfault : env.fault with
    | none =>
      have heq := @executeTool_eq runtime errorText actorId env c hfault
      simp only [executeTool, tryBlock, htool] at heq
      rw [heq, ← @runTool_isOk_iff runtime actorId c env.db tool]
      simp only [AiService.executeTool]
      rw [show tools.find? (fun tool => decide (tool.name = c.name)) = some tool from htool]
      cases tool <;> simp [runTool]
    | some e =>
      -- the promise ends with the failure, or with that of reading the input
      simp only [promise, hfault, reduceCtorEq, false_and, iff_false]
      cases readInput runtime c.input tool <;> simp [bind, Except.bind, throw, throwThe,
        MonadExceptOf.throw]

end Calls

/-! ### Conversations -/

/-- A `tool_use` block. -/
structure ToolUse extends ToolCall where
  id : String

/-- A reply of the model. -/
structure Reply where
  texts : List String
  stopReason : String
  toolUses : List ToolUse

/-- `MessageRole`. -/
inductive MessageRole
  | user
  | assistant
  deriving DecidableEq, Repr

/-- A message that is sent to the model; a `tool_result` block has the id of a `tool_use` block. -/
inductive ChatMessage
  | text (role : MessageRole) (content : String)
  | reply (reply : Reply)
  | toolResults (results : List (String × ToolResult))

/-- How far a conversation has come. -/
inductive Phase
  | refused
  | asking
  | executing (pending : List ToolUse) (results : List (String × ToolResult))
  | finished
  | modelFailed (e : Failure)
  | toolRejected (e : Failure)

/-- A conversation. -/
structure ChatState where
  messages : List ChatMessage
  lastText : String
  iteration : ℕ
  phase : Phase

/-- A reply of the model, or the execution of the next tool. -/
inductive Event
  | reply (response : Except Failure Reply)
  | execute (env : ToolEnv)

namespace ChatState

/-- A conversation at its start; without an API key it ends there. -/
def start (enabled : Bool) (messages : List (MessageRole × String)) : ChatState where
  messages := messages.map fun (role, content) => .text role content
  lastText := ""
  iteration := 0
  phase := if enabled then .asking else .refused

/-- The tools that are still to be executed; when there are none, their results are sent, unless
the model has had its last turn. -/
def proceed (s : ChatState) (pending : List ToolUse) (results : List (String × ToolResult)) :
    ChatState :=
  match pending with
  | [] =>
    { s with
      messages := s.messages ++ [.toolResults results]
      phase := if s.iteration < maxIterations then .asking else .finished }
  | toolUse :: pending => { s with phase := .executing (toolUse :: pending) results }

/-- What `chat` makes of a reply. -/
def receive (s : ChatState) (reply : Reply) : ChatState :=
  let s := { s with
    iteration := s.iteration + 1
    lastText := if reply.texts = [] then s.lastText else "\n".intercalate reply.texts }
  if reply.stopReason ≠ "tool_use" then { s with phase := .finished }
  else { s with messages := s.messages ++ [ChatMessage.reply reply] }.proceed reply.toolUses []

/-- The state after one event; an event that is not due leaves the state as it is. -/
def step (runtime : ToolRuntime) (errorText : Failure → String) (actorId : Uuid) (s : ChatState) :
    Event → ChatState
  | .reply response =>
    match s.phase with
    | .asking =>
      match response with
      | .ok reply => s.receive reply
      | .error e => { s with phase := .modelFailed e }
    | _ => s
  | .execute env =>
    match s.phase with
    | .executing (toolUse :: pending) results =>
      match executeTool runtime errorText actorId env toolUse.toToolCall with
      | .ok result => s.proceed pending (results ++ [(toolUse.id, result)])
      | .error e => { s with phase := .toolRejected e }
    | _ => s

/-- The tool that an event executes. -/
def executed (s : ChatState) : Event → Option (ToolEnv × ToolCall)
  | .execute env =>
    match s.phase with
    | .executing (toolUse :: _) _ => some (env, toolUse.toToolCall)
    | _ => none
  | .reply _ => none

end ChatState

/-- One `tool_result` block for each `tool_use` block, with its id. -/
def Reply.AnsweredBy (reply : Reply) (results : List (String × ToolResult)) : Prop :=
  results.map Prod.fst = reply.toolUses.map ToolUse.id

/-- After each reply come the results of its tools. -/
def Paired (messages : List ChatMessage) : Prop :=
  ∀ before reply after, messages = before ++ .reply reply :: after →
    ∃ results rest, after = .toolResults results :: rest ∧ reply.AnsweredBy results

/-- When the model is called next, its replies have been answered; and no tool has ended the
conversation. -/
structure Uninterrupted (s : ChatState) : Prop where
  paired : s.phase = .asking → Paired s.messages
  kept : ∀ e, s.phase ≠ .toolRejected e

/-- The tool that an event executes is answered. -/
def Supplied (runtime : ToolRuntime) (s : ChatState) (e : Event) : Prop :=
  ∀ x ∈ s.executed e, Answered runtime x.1 x.2

/-! ### Tool uses and their results -/

/-- The replies so far have been answered; while tools are executed, the last one has the results
and the calls that are still to come. -/
def Inv (s : ChatState) : Prop :=
  match s.phase with
  | .executing pending results => ∃ earlier reply,
    s.messages = earlier ++ [.reply reply] ∧ Paired earlier ∧
      results.map Prod.fst ++ pending.map ToolUse.id = reply.toolUses.map ToolUse.id
  | .toolRejected _ => True
  | _ => Paired s.messages

section Steps

variable {runtime : ToolRuntime} {errorText : Failure → String} {actorId : Uuid} {s : ChatState}
  {messages earlier : List ChatMessage} {reply : Reply} {pending : List ToolUse}
  {results : List (String × ToolResult)}

/-- The answer to one more reply. -/
theorem Paired.append (h : Paired earlier) (hanswer : reply.AnsweredBy results) :
    Paired (earlier ++ [.reply reply, .toolResults results]) := by
  intro before reply' after heq
  rcases List.append_eq_append_iff.1 heq with ⟨between, rfl, hrest⟩ | ⟨between, rfl, hrest⟩
  · -- the reply is the last one
    rcases between with _ | ⟨message, between⟩
    · obtain ⟨hreply, rfl⟩ := List.cons.inj hrest
      cases hreply
      exact ⟨results, [], rfl, hanswer⟩
    · obtain ⟨-, htail⟩ := List.cons.inj hrest
      rcases between with _ | ⟨message, between⟩
      · cases (List.cons.inj htail).1
      · simp at htail
  · rcases between with _ | ⟨message, between⟩
    · obtain ⟨hreply, rfl⟩ := List.cons.inj hrest
      cases hreply
      exact ⟨results, [], rfl, hanswer⟩
    · -- it is an earlier one
      obtain ⟨rfl, rfl⟩ := List.cons.inj hrest
      obtain ⟨results', rest, rfl, hanswer'⟩ := h before reply' between rfl
      exact ⟨results', rest ++ _, rfl, hanswer'⟩

theorem paired_texts (texts : List (MessageRole × String)) :
    Paired (texts.map fun (role, content) => .text role content) := by
  intro before reply after heq
  have hmem : ChatMessage.reply reply ∈ before ++ .reply reply :: after := by simp
  rw [← heq] at hmem
  obtain ⟨text, -, htext⟩ := List.mem_map.1 hmem
  cases htext

theorem inv_start (enabled : Bool) (texts : List (MessageRole × String)) :
    Inv (.start enabled texts) := by
  cases enabled with
  | true => exact paired_texts texts
  | false => exact paired_texts texts

/-- The results are sent when they are complete. -/
theorem inv_proceed (hmessages : s.messages = earlier ++ [.reply reply]) (hpaired : Paired earlier)
    (hids : results.map Prod.fst ++ pending.map ToolUse.id = reply.toolUses.map ToolUse.id) :
    Inv (s.proceed pending results) := by
  cases pending with
  | nil =>
    have hanswer : reply.AnsweredBy results := by rw [Reply.AnsweredBy, ← hids]; simp
    have hsent : Paired (s.messages ++ [.toolResults results]) := by
      rw [hmessages, List.append_assoc]
      exact hpaired.append hanswer
    by_cases hturn : s.iteration < maxIterations
    · simp only [ChatState.proceed, Inv, hturn, if_true]
      exact hsent
    · simp only [ChatState.proceed, Inv, hturn, if_false]
      exact hsent
  | cons toolUse pending => exact ⟨earlier, reply, hmessages, hpaired, hids⟩

/-- **The step lemma.** -/
theorem step_inv (s : ChatState) (e : Event) (h : Inv s) :
    Inv (s.step runtime errorText actorId e) := by
  cases e with
  | reply response =>
    simp only [ChatState.step]
    split
    · rename_i hphase
      simp only [Inv, hphase] at h
      cases response with
      | error e => exact h
      | ok reply =>
        simp only [ChatState.receive]
        split
        · exact h
        · exact inv_proceed rfl h rfl
    · exact h
  | execute env =>
    simp only [ChatState.step]
    split
    · rename_i toolUse pending results hphase
      simp only [Inv, hphase] at h
      obtain ⟨earlier, reply, hmessages, hpaired, hids⟩ := h
      split
      · refine inv_proceed hmessages hpaired ?_
        simpa using hids
      · trivial
    · exact h

/-- A conversation goes on exactly if the tool that is executed is answered. -/
theorem step_kept_iff (e : Event) (h : ∀ failure, s.phase ≠ .toolRejected failure) :
    (∀ failure, (s.step runtime errorText actorId e).phase ≠ .toolRejected failure) ↔
      Supplied runtime s e := by
  have hproceed : ∀ (s : ChatState) pending results failure,
      (s.proceed pending results).phase ≠ .toolRejected failure := by
    intro s pending results failure
    cases pending with
    | nil =>
      simp only [ChatState.proceed]
      split <;> simp
    | cons toolUse pending => simp [ChatState.proceed]
  cases e with
  | reply response =>
    refine iff_of_true (fun failure => ?_) fun _ hx => by cases hx
    simp only [ChatState.step]
    split
    · cases response with
      | error e => simp
      | ok reply =>
        simp only [ChatState.receive]
        split
        · simp
        · exact hproceed _ _ _ failure
    · exact h failure
  | execute env =>
    simp only [ChatState.step, Supplied, ChatState.executed]
    split
    · rename_i toolUse pending results hphase
      simp only [Option.mem_def, Option.some.injEq, forall_eq']
      rw [← @executeTool_isOk_iff runtime errorText actorId]
      cases executeTool runtime errorText actorId env toolUse.toToolCall with
      | ok result => simp [hproceed]
      | error e => simp
    · exact iff_of_true h fun x hx => by cases hx

theorem Inv.paired (h : Inv s) (hphase : s.phase = .asking) : Paired s.messages := by
  simpa only [Inv, hphase] using h

theorem uninterrupted_step_iff (e : Event) (hinv : Inv s) (h : Uninterrupted s) :
    Uninterrupted (s.step runtime errorText actorId e) ↔ Supplied runtime s e := by
  rw [← step_kept_iff e h.kept]
  exact ⟨fun h => h.kept, fun hkept => ⟨(step_inv s e hinv).paired, hkept⟩⟩

end Steps

/-! ### The loop of `AiService` -/

/-- A message without the ids of its blocks. -/
def ChatMessage.erase : ChatMessage → Message
  | .text .user content => .user content
  | .text .assistant content => .assistant content
  | .reply r => .response ⟨r.texts, r.stopReason, r.toolUses.map ToolUse.toToolCall⟩
  | .toolResults results => .toolResults (results.map Prod.snd)

/-- A reply with ids for its blocks. -/
def Reply.ofResponse (ids : ToolCall → String) (response : ModelResponse) : Reply where
  texts := response.texts
  stopReason := response.stopReason
  toolUses := response.toolUses.map fun c => ⟨c, ids c⟩

/-- How `chat` ends. -/
def ChatState.outcome (s : ChatState) : Option (Except Failure String) :=
  match s.phase with
  | .refused => some (.error
    (.error "AI assistant is not configured. Set ANTHROPIC_API_KEY to enable."))
  | .finished => some (.ok s.lastText)
  | .modelFailed e => some (.error e)
  | .toolRejected e => some (.error e)
  | .asking => none
  | .executing _ _ => none

section Refinement

variable {runtime : ToolRuntime} {errorText : Failure → String} {actorId : Uuid} {s : ChatState}
  {db : AiDatabase}

theorem proceed_phase (phase : Phase) (pending : List ToolUse)
    (results : List (String × ToolResult)) :
    ({ s with phase := phase } : ChatState).proceed pending results =
      s.proceed pending results := by
  cases pending <;> rfl

/-- The tools of a reply, one after another. -/
theorem run_proceed (pending : List ToolUse) (results : List (String × ToolResult)) :
    match (pending.map ToolUse.toToolCall).mapM (AiService.executeTool runtime actorId db) with
    | .ok answers => ∃ n results', results'.map Prod.snd = results.map Prod.snd ++ answers ∧
      run (ChatState.step runtime errorText actorId) (s.proceed pending results)
        (List.replicate n (.execute ⟨db, none⟩)) = s.proceed [] results'
    | .error e => ∃ n, (run (ChatState.step runtime errorText actorId) (s.proceed pending results)
        (List.replicate n (.execute ⟨db, none⟩))).phase = .toolRejected e := by
  induction pending generalizing results with
  | nil => exact ⟨0, results, by simp, rfl⟩
  | cons toolUse pending ih =>
    have heq := @executeTool_eq runtime errorText actorId ⟨db, none⟩ toolUse.toToolCall rfl
    rw [List.map_cons, List.mapM_cons]
    cases hresult : AiService.executeTool runtime actorId db toolUse.toToolCall with
    | error e =>
      refine ⟨1, ?_⟩
      rw [hresult] at heq
      simp only [List.replicate_one, run_cons, run_nil, ChatState.proceed, ChatState.step, heq]
    | ok result =>
      rw [hresult] at heq
      have hstep : (s.proceed (toolUse :: pending) results).step runtime errorText actorId
          (.execute ⟨db, none⟩) = s.proceed pending (results ++ [(toolUse.id, result)]) := by
        simp only [ChatState.proceed, ChatState.step, heq]
        exact proceed_phase _ _ _
      specialize ih (results ++ [(toolUse.id, result)])
      cases hanswers :
          (pending.map ToolUse.toToolCall).mapM (AiService.executeTool runtime actorId db) with
      | error e =>
        rw [hanswers] at ih
        obtain ⟨n, hn⟩ := ih
        refine ⟨n + 1, ?_⟩
        rw [List.replicate_succ, run_cons, hstep, hn]
      | ok answers =>
        rw [hanswers] at ih
        obtain ⟨n, results', hresults, hn⟩ := ih
        refine ⟨n + 1, results', ?_, ?_⟩
        · rw [hresults]
          simp
        · rw [List.replicate_succ, run_cons, hstep, hn]

/-- The events of a conversation with this model, on a database that does not change or fail. -/
def Plain (respond : List Message → Except Failure ModelResponse) (ids : ToolCall → String)
    (db : AiDatabase) (e : Event) : Prop :=
  (∃ messages, e = .reply ((respond messages).map (Reply.ofResponse ids))) ∨
    e = .execute ⟨db, none⟩

theorem map_ofResponse (ids : ToolCall → String) (response : ModelResponse) :
    (Reply.ofResponse ids response).toolUses.map ToolUse.toToolCall = response.toolUses := by
  simp [Reply.ofResponse, Function.comp_def]

/-- The conversation with a reply whose tools are to be executed. -/
def ChatState.told (s : ChatState) (reply : Reply) : ChatState where
  messages := s.messages ++ [.reply reply]
  lastText := if reply.texts = [] then s.lastText else "\n".intercalate reply.texts
  iteration := s.iteration + 1
  phase := s.phase

theorem step_reply (hphase : s.phase = .asking) {reply : Reply}
    (hstop : reply.stopReason = "tool_use") :
    s.step runtime errorText actorId (.reply (.ok reply)) =
      (s.told reply).proceed reply.toolUses [] := by
  simp only [ChatState.step, hphase, ChatState.receive]
  rw [if_neg (not_not.2 hstop)]
  exact (proceed_phase .asking _ _).symm

/-- The conversation is sent to the model again, unless it has had its last turn. -/
theorem next_round {iterations : ℕ} (hturns : s.iteration + (iterations + 1) = maxIterations)
    (reply : Reply) (results : List (String × ToolResult)) :
    ((s.told reply).proceed [] results).iteration + iterations = maxIterations ∧
      ((s.told reply).proceed [] results).phase =
        if iterations = 0 then .finished else .asking := by
  have hiteration : (s.told reply).iteration = s.iteration + 1 := rfl
  refine ⟨?_, ?_⟩
  · show (s.told reply).iteration + iterations = maxIterations
    omega
  show (if (s.told reply).iteration < maxIterations then Phase.asking else .finished) = _
  by_cases hlast : iterations = 0
  · rw [if_pos hlast, if_neg (by omega)]
  · rw [if_neg hlast, if_pos (by omega)]

theorem map_erase_next_round (ids : ToolCall → String) (response : ModelResponse)
    (results : List (String × ToolResult)) :
    ((s.told (Reply.ofResponse ids response)).proceed [] results).messages.map ChatMessage.erase =
      s.messages.map ChatMessage.erase ++
        [.response response, .toolResults (results.map Prod.snd)] := by
  have hreply : (ChatMessage.reply (Reply.ofResponse ids response)).erase = .response response := by
    rw [ChatMessage.erase, map_ofResponse]
    rfl
  have hresults : (ChatMessage.toolResults results).erase = .toolResults (results.map Prod.snd) :=
    rfl
  simp [ChatState.proceed, ChatState.told, hreply, hresults]

/-- The loop, from any of its rounds on. -/
theorem exists_run_converse (respond : List Message → Except Failure ModelResponse)
    (ids : ToolCall → String) {iterations : ℕ} (hturns : s.iteration + iterations = maxIterations)
    (hphase : s.phase = if iterations = 0 then .finished else .asking) :
    ∃ es, (∀ e ∈ es, Plain respond ids db e) ∧
      (run (ChatState.step runtime errorText actorId) s es).outcome =
        some (converse runtime respond actorId db iterations s.lastText
          (s.messages.map ChatMessage.erase)) := by
  induction iterations generalizing s with
  | zero => exact ⟨[], by simp, by simp [ChatState.outcome, hphase, converse]⟩
  | succ iterations ih =>
    rw [if_neg (Nat.succ_ne_zero _)] at hphase
    have hplain : Plain respond ids db
        (.reply ((respond (s.messages.map ChatMessage.erase)).map (Reply.ofResponse ids))) :=
      Or.inl ⟨_, rfl⟩
    unfold converse
    cases hresponse : respond (s.messages.map ChatMessage.erase) with
    | error e =>
      rw [hresponse] at hplain
      refine ⟨[.reply (.error e)], by simpa [Except.map] using hplain, ?_⟩
      simp [ChatState.step, hphase, ChatState.outcome, bind, Except.bind]
    | ok response =>
      rw [hresponse] at hplain
      replace hplain : Plain respond ids db (.reply (.ok (Reply.ofResponse ids response))) := hplain
      by_cases hstop : response.stopReason = "tool_use"
      · have hexecute : ∀ n, ∀ e ∈ List.replicate n (Event.execute ⟨db, none⟩),
            Plain respond ids db e := fun n e he => Or.inr (List.eq_of_mem_replicate he)
        have hrun := @run_proceed runtime errorText actorId (s.told (Reply.ofResponse ids response))
          db (Reply.ofResponse ids response).toolUses []
        rw [map_ofResponse] at hrun
        cases hanswers : response.toolUses.mapM (AiService.executeTool runtime actorId db) with
        | error e =>
          rw [hanswers] at hrun
          obtain ⟨n, hn⟩ := hrun
          refine ⟨_ :: _, List.forall_mem_cons.2 ⟨hplain, hexecute n⟩, ?_⟩
          rw [run_cons, step_reply hphase hstop, ChatState.outcome, hn]
          simp [bind, Except.bind, hstop, hanswers]
        | ok answers =>
          rw [hanswers] at hrun
          obtain ⟨n, results, hresults, hn⟩ := hrun
          -- the next round begins
          obtain ⟨hturns', hphase'⟩ := next_round hturns (Reply.ofResponse ids response) results
          obtain ⟨es, hes, hend⟩ := ih hturns' hphase'
          refine ⟨.reply (.ok (Reply.ofResponse ids response)) ::
            (List.replicate n (.execute ⟨db, none⟩) ++ es),
            List.forall_mem_cons.2 ⟨hplain, ?_⟩, ?_⟩
          · exact List.forall_mem_append.2 ⟨hexecute n, hes⟩
          · rw [run_cons, step_reply hphase hstop, run_append, hn, hend]
            rw [map_erase_next_round, hresults]
            simp only [bind, Except.bind, hstop, hanswers]
            rfl
      · refine ⟨[.reply (.ok (Reply.ofResponse ids response))], by simpa using hplain, ?_⟩
        simp [ChatState.step, hphase, ChatState.receive, Reply.ofResponse, ChatState.outcome, hstop,
          bind, Except.bind, pure, Except.pure]

/-- **`AiService.chat` is a run**, on a database that does not change or fail. -/
theorem exists_run_chat (runtime : ToolRuntime) (errorText : Failure → String) (actorId : Uuid)
    (db : AiDatabase) (respond : List Message → Except Failure ModelResponse)
    (ids : ToolCall → String) (enabled : Bool) (texts : List (MessageRole × String)) :
    ∃ es, (∀ e ∈ es, Plain respond ids db e) ∧
      (run (ChatState.step runtime errorText actorId) (.start enabled texts) es).outcome =
        some (AiService.chat runtime enabled respond actorId
          ((ChatState.start enabled texts).messages.map ChatMessage.erase) db) := by
  cases enabled with
  | false => exact ⟨[], by simp, rfl⟩
  | true =>
    have hturns : (ChatState.start true texts).iteration + maxIterations = maxIterations :=
      Nat.zero_add _
    exact exists_run_converse respond ids hturns rfl

end Refinement

/-- **When tools fail.**  A call is resolved exactly if it is answered; and in a conversation all
`tool_use` blocks have their results before the model is called next, and no tool ends it, exactly
if the calls that are executed are answered. -/
theorem resolves_iff (runtime : ToolRuntime) (errorText : Failure → String) (actorId : Uuid) :
    (∀ env c, (∃ result, executeTool runtime errorText actorId env c = .ok result) ↔
      Answered runtime env c) ∧
    ∀ (enabled : Bool) (texts : List (MessageRole × String)) (es : List Event),
      (∀ fs, fs <+: es →
        Uninterrupted (run (ChatState.step runtime errorText actorId) (.start enabled texts) fs)) ↔
      Meets (ChatState.step runtime errorText actorId) (Supplied runtime) (.start enabled texts)
        es := by
  refine ⟨fun env c => executeTool_isOk_iff, fun enabled texts es => ?_⟩
  have hstart : Uninterrupted (.start enabled texts) := by
    refine ⟨(inv_start enabled texts).paired, fun e => ?_⟩
    cases enabled <;> simp [ChatState.start]
  exact @always_iff_meets_of _ _ _ (Supplied runtime) (fun _ => True) Inv Uninterrupted
    (fun s e _ => uninterrupted_step_iff e) (fun s e _ hinv _ _ => step_inv s e hinv) _ es
    (fun _ _ => trivial) (inv_start enabled texts) hstart

namespace Sample

/-- The database goes away. -/
def outage : ToolEnv := ⟨noRows, some (.error "Connection terminated unexpectedly")⟩

/-- The model searches for an employee. -/
def search : ToolUse := ⟨⟨"search_employees", [("query", .str "ann")], 0⟩, "toolu_1"⟩

/-- The model asks for the grants of somebody whose name it takes for an id. -/
def grants : ToolCall := ⟨"get_active_access_grants", [("employeeId", .str "ann")], 0⟩

/-- A question, the tool that the model asks for, and the outage. -/
def interrupted : ChatState :=
  run (ChatState.step AiService.Sample.runtime (fun _ => "Error") 1)
    (.start true [(.user, "Who is Ann?")])
    [.reply (.ok ⟨[], "tool_use", [search]⟩), .execute outage]

/-- A failure of the database, or an input that it rejects, ends the conversation. -/
theorem not_resolves :
    (∀ result,
      executeTool AiService.Sample.runtime (fun _ => "Error") 1 outage search.toToolCall ≠
        .ok result) ∧
    (∀ result,
      executeTool AiService.Sample.runtime (fun _ => "Error") 1 ⟨noRows, none⟩ grants ≠
        .ok result) ∧
    ¬ Uninterrupted interrupted := by
  refine ⟨fun result hresult => ?_, fun result hresult => ?_, fun h => h.kept _ rfl⟩
  · have hanswered := executeTool_isOk_iff.1 ⟨result, hresult⟩
    cases (hanswered .searchEmployees rfl).1
  · have hanswered := executeTool_isOk_iff.1 ⟨result, hresult⟩
    obtain ⟨id, hid⟩ := (hanswered .getActiveAccessGrants rfl).2 (.str "ann") rfl
    cases hid

end Sample

end Conversation

end OpsHub
