import OpsHub.Notifications.PubSub
import OpsHub.Requests.Types

/-!
# The notification stream

`NotificationSseController.stream`: the unread count is queried and sent, then the connection
subscribes to the user's channel, and then the heartbeat is started and the close handler
registered.  Each part runs without interruption; the client may disconnect between any two.

* `SseState`, `SseEvent`, `step`: one connection, the dispatches of notifications to its user, and
  whatever else happens on the subscriber connection;
* `NoGap`, `NoLeak`: what the client misses, and what is left of a connection;
* `Wired`: the invariant;
* `stream_iff`: the runs without gap and leak;
* `not_stream`: a notification after the count, and a client that disconnects early.
-/

namespace OpsHub

/-- How far `stream` has come. -/
inductive SsePhase
  | idle
  /-- `unreadCount` has been called. -/
  | counting
  /-- The query has seen these notifications, and its result is on the way. -/
  | counted (ids : List Uuid)
  /-- `subscribeUser` has been called. -/
  | subscribing
  /-- The heartbeat has been started, and the close handler registered. -/
  | streaming
  deriving DecidableEq, Repr

/-- A connection, the notifications of its user, and the subscriptions.  Notifications stay
unread. -/
structure SseState where
  phase : SsePhase := .idle
  closed : Bool := false
  /-- The notifications in the unread count that has been sent. -/
  sent : Option (List Uuid) := none
  pushed : List Uuid := []
  heartbeat : Bool := false
  committed : List Uuid := []
  /-- Those that have been committed since the connection was opened. -/
  fresh : List Uuid := []
  /-- Those of them that have been published while the stream was open. -/
  dispatched : List Uuid := []
  pubSub : PubSubState := {}

/-- What can happen. -/
inductive SseEvent
  | opened
  /-- The query of `unreadCount` runs. -/
  | query
  /-- `stream` goes on after `unreadCount`. -/
  | connected
  /-- `stream` goes on after `subscribeUser`. -/
  | attached
  | disconnect
  | heartbeat
  /-- A notification is written, and published by `notifyUser` some time after. -/
  | commit (id : Uuid)
  | publish (id : Uuid)
  /-- Redis answers, a call goes on, or other connections come and go. -/
  | others (e : PubSubEvent)
  deriving DecidableEq, Repr

namespace PubSubState

/-- The handler is in the entry of the channel. -/
def Entered (p : PubSubState) (channel : String) (handler : Handler) : Prop :=
  handler ∈ (p.handlers channel).getD []

instance (p : PubSubState) (channel : String) (handler : Handler) :
    Decidable (p.Entered channel handler) :=
  inferInstanceAs (Decidable (handler ∈ (p.handlers channel).getD []))

/-- The handler is called with the messages of the channel. -/
def Called (p : PubSubState) (channel : String) (handler : Handler) : Prop :=
  p.subscribed channel = true ∧ p.Entered channel handler

instance (p : PubSubState) (channel : String) (handler : Handler) :
    Decidable (p.Called channel handler) :=
  inferInstanceAs (Decidable (p.subscribed channel = true ∧ p.Entered channel handler))

/-- An event that has nothing to do with the handler, and is no message of its channel. -/
def Foreign (p : PubSubState) (channel : String) (handler : Handler) : PubSubEvent → Prop
  | .subscribe _ handler' => handler' ≠ handler
  | .unsubscribe i => ∀ r ∈ p.returned[i]?, r.2 ≠ handler
  | .message channel' _ => channel' ≠ channel
  | _ => True

instance (p : PubSubState) (channel : String) (handler : Handler) :
    DecidablePred (p.Foreign channel handler)
  | .subscribe _ handler' => inferInstanceAs (Decidable (handler' ≠ handler))
  | .unsubscribe i => inferInstanceAs (Decidable (∀ r ∈ p.returned[i]?, r.2 ≠ handler))
  | .message channel' _ => inferInstanceAs (Decidable (channel' ≠ channel))
  | .answer _ => isTrue trivial
  | .resume => isTrue trivial

end PubSubState

namespace SseState

open NotificationPubSubService

section Definitions

variable (channel : String) (handler : Handler) (writableAfterClose : Bool)

/-- A heartbeat that is due clears its timer: the client has gone, and `raw.writable` says so. -/
def Overdue (s : SseState) : Prop := s.heartbeat = true ∧ s.closed = true ∧ writableAfterClose = false

instance (s : SseState) : Decidable (s.Overdue writableAfterClose) :=
  inferInstanceAs (Decidable (s.heartbeat = true ∧ s.closed = true ∧ writableAfterClose = false))

/-- `stream` goes on after `unreadCount`: the count is written, unless the client has gone, and
`subscribeUser` is called. -/
def connect (s : SseState) : SseState :=
  match s.phase with
  | .counted ids =>
    { s with
      phase := .subscribing
      sent := if s.closed then none else some ids
      pubSub := subscribe s.pubSub channel handler }
  | _ => s

/-- `subscribeUser` has returned, and `stream` has not gone on. -/
def Returned (s : SseState) : Prop :=
  s.phase = .subscribing ∧ (channel, handler) ∈ s.pubSub.returned

instance (s : SseState) : Decidable (s.Returned channel handler) :=
  inferInstanceAs (Decidable (s.phase = .subscribing ∧ (channel, handler) ∈ s.pubSub.returned))

/-- The client disconnects; the close handler runs if it has been registered. -/
def disconnect (s : SseState) : SseState :=
  if s.phase = .idle ∨ s.closed = true then s
  else if s.phase = .streaming then
    { s with
      closed := true
      heartbeat := false
      pubSub := unsubscribe s.pubSub channel handler }
  else { s with closed := true }

/-- `notifyUser`; the handler writes to the stream while it is open. -/
def publish (s : SseState) (id : Uuid) : SseState :=
  if id ∈ s.committed then
    { s with
      dispatched :=
        if id ∈ s.fresh ∧ s.closed = false then s.dispatched ++ [id] else s.dispatched
      pushed :=
        if s.pubSub.Called channel handler ∧ s.closed = false then s.pushed ++ [id] else s.pushed
      pubSub := PubSubState.step s.pubSub (.message channel (toString id)) }
  else s

/-- The state after an event. -/
def step (s : SseState) : SseEvent → SseState
  | .opened => if s.phase = .idle then { s with phase := .counting } else s
  | .query => if s.phase = .counting then { s with phase := .counted s.committed } else s
  | .connected => s.connect channel handler
  | .attached =>
    if s.Returned channel handler then { s with phase := .streaming, heartbeat := true } else s
  | .disconnect => s.disconnect channel handler
  | .heartbeat => if s.Overdue writableAfterClose then { s with heartbeat := false } else s
  | .commit id =>
    { s with
      committed := s.committed ++ [id]
      fresh := if s.phase = .idle then s.fresh else s.fresh ++ [id] }
  | .publish id => s.publish channel handler id
  | .others e =>
    if s.pubSub.Foreign channel handler e then { s with pubSub := PubSubState.step s.pubSub e } else s

/-! ### The property -/

/-- While the stream is open and the count has been sent, every notification since it was opened is
in the count or has been pushed, if it has been published. -/
def NoGap (s : SseState) : Prop :=
  s.closed = false → ∀ ids, s.sent = some ids → ∀ id ∈ s.dispatched, id ∈ ids ∨ id ∈ s.pushed

/-- The parts of `stream` have run, or its `subscribeUser` has failed. -/
def Settled (s : SseState) : Prop :=
  s.phase = .streaming ∨ s.phase = .subscribing ∧
    (∀ c ∈ s.pubSub.commands, c.handler ≠ some handler) ∧
    (∀ a ∈ s.pubSub.answers, a.handler ≠ handler) ∧ (channel, handler) ∉ s.pubSub.returned

/-- When the client has gone and the parts of `stream` have run, the handler is not there, nor the
timer once no heartbeat is due. -/
def NoLeak (s : SseState) : Prop :=
  s.closed = true → s.Settled channel handler →
    ¬ s.pubSub.Entered channel handler ∧ (¬ s.Overdue writableAfterClose → s.heartbeat = false)

/-- When the count is sent on an open stream, no notification that it does not include has been
published.  After that none is until the handler is called with messages.  The client is there when
the close handler is registered. -/
def Sure (s : SseState) : SseEvent → Prop
  | .connected =>
    match s.phase with
    | .counted ids => s.closed = false → ∀ id ∈ s.dispatched, id ∈ ids
    | _ => True
  | .publish id =>
    s.closed = false → id ∈ s.fresh → ∀ ids, s.sent = some ids →
      id ∈ ids ∨ id ∈ s.pushed ∨ s.pubSub.Called channel handler
  | .attached => s.Returned channel handler → s.closed = false
  | _ => True

end Definitions

end SseState

/-! ### The handler among the others -/

namespace PubSubState

open NotificationPubSubService

variable {p : PubSubState} {channel c : String} {handler other : Handler} {e : PubSubEvent}

/-- The call of `subscribe` with this handler goes on, and finds an entry. -/
def Joins (p : PubSubState) (channel : String) (handler : Handler) : PubSubEvent → Prop
  | .resume => ∃ answers, p.answers = ⟨channel, handler, true⟩ :: answers ∧
      (p.handlers channel).isSome = true
  | _ => False

/-- How many calls of `subscribe` with this handler wait or have returned. -/
def tokens (p : PubSubState) (handler : Handler) : ℕ :=
  p.commands.countP (fun c => decide (c.handler = some handler)) +
    p.answers.countP (fun a => decide (a.handler = handler)) +
    p.returned.countP (fun r => decide (r.2 = handler))

/-- A channel without an entry. -/
theorem not_joined (hset : p.handlers c = none) :
    ¬ (c = channel ∧ other = handler ∧ (p.handlers channel).isSome = true) := by
  rintro ⟨rfl, -, hsome⟩
  rw [hset] at hsome
  exact Bool.false_ne_true hsome

theorem entered_add : (add p c other).Entered channel handler ↔ p.Entered channel handler ∨
    c = channel ∧ other = handler ∧ (p.handlers channel).isSome = true := by
  unfold add Entered
  cases hset : p.handlers c with
  | none => exact (or_iff_left (not_joined hset)).symm
  | some set =>
    by_cases hc : c = channel
    · subst hc
      simp only [Function.update_self, Option.getD_some, List.mem_insert_iff, hset,
        Option.isSome_some, and_true, true_and]
      rw [or_comm, eq_comm]
    · simp [Function.update_of_ne (Ne.symm hc), hc]

theorem returned_add : (channel, handler) ∈ (add p c other).returned ↔
    (channel, handler) ∈ p.returned ∨
      c = channel ∧ other = handler ∧ (p.handlers channel).isSome = true := by
  unfold add
  cases hset : p.handlers c with
  | none => exact (or_iff_left (not_joined hset)).symm
  | some set =>
    simp only [List.mem_append, List.mem_singleton, Prod.mk.injEq]
    refine or_congr_right ⟨?_, ?_⟩
    · rintro ⟨rfl, rfl⟩
      exact ⟨rfl, rfl, by rw [hset]; rfl⟩
    · rintro ⟨rfl, rfl, -⟩
      exact ⟨rfl, rfl⟩

theorem entered_subscribe : (subscribe p c other).Entered channel handler ↔
    p.Entered channel handler ∨ c = channel ∧ other = handler ∧ (p.handlers channel).isSome = true := by
  unfold subscribe
  cases hset : p.handlers c with
  | some set => exact entered_add
  | none =>
    by_cases hc : c = channel
    · subst hc
      simp [Entered, hset]
    · simp [Entered, Function.update_of_ne (Ne.symm hc), hc]

theorem returned_subscribe : (channel, handler) ∈ (subscribe p c other).returned ↔
    (channel, handler) ∈ p.returned ∨
      c = channel ∧ other = handler ∧ (p.handlers channel).isSome = true := by
  unfold subscribe
  cases hset : p.handlers c with
  | some set => exact returned_add
  | none => exact (or_iff_left (not_joined hset)).symm

/-- What is left of an entry. -/
theorem getD_handlers_unsubscribe : ((unsubscribe p c other).handlers channel).getD [] =
    if c = channel then ((p.handlers channel).getD []).erase other
    else (p.handlers channel).getD [] := by
  by_cases hc : c = channel
  · subst hc
    rw [if_pos rfl]
    cases hset : p.handlers c with
    | none => simp [unsubscribe, hset]
    | some set =>
      simp only [unsubscribe, hset]
      split
      · rename_i hempty
        simp [hempty]
      · simp
  · rw [if_neg hc]
    cases hset : p.handlers c with
    | none => simp [unsubscribe, hset]
    | some set =>
      simp only [unsubscribe, hset]
      split <;> simp [Function.update_of_ne (Ne.symm hc)]

/-- Other handlers leave. -/
theorem entered_unsubscribe (hne : other ≠ handler) :
    (unsubscribe p c other).Entered channel handler ↔ p.Entered channel handler := by
  unfold Entered
  rw [getD_handlers_unsubscribe]
  split
  · exact List.mem_erase_of_ne hne.symm
  · exact Iff.rfl

theorem returned_unsubscribe : (unsubscribe p c other).returned = p.returned := by
  unfold unsubscribe
  dsimp only
  split
  · split <;> rfl
  · rfl

theorem handlers_answer (ok : Bool) : (p.answer ok).handlers = p.handlers := by
  unfold answer
  split <;> rfl

theorem returned_answer (ok : Bool) : (p.answer ok).returned = p.returned := by
  unfold answer
  split <;> rfl

/-- **What others do** about the handler: it enters when its own call goes on, and then that call
returns. -/
theorem foreign_step (hforeign : p.Foreign channel handler e) :
    ((step p e).Entered channel handler ↔ p.Entered channel handler ∨ p.Joins channel handler e) ∧
      ((channel, handler) ∈ (step p e).returned ↔
        (channel, handler) ∈ p.returned ∨ p.Joins channel handler e) := by
  cases e with
  | subscribe c other =>
    have hnone : ¬ (c = channel ∧ other = handler ∧ (p.handlers channel).isSome = true) :=
      fun h => hforeign h.2.1
    simp only [step, entered_subscribe, returned_subscribe, hnone, Joins, and_self]
  | unsubscribe i =>
    simp only [step, Joins, or_false]
    cases hi : p.returned[i]? with
    | none => exact ⟨Iff.rfl, Iff.rfl⟩
    | some r =>
      have hne : r.2 ≠ handler := hforeign r hi
      exact ⟨entered_unsubscribe hne, by rw [returned_unsubscribe]⟩
  | answer ok =>
    simp only [step, Joins, or_false, Entered, handlers_answer, returned_answer, and_self]
  | resume =>
    simp only [step, resume, Joins]
    cases hanswers : p.answers with
    | nil => simp
    | cons a answers =>
      obtain ⟨c, other, ok⟩ := a
      cases ok with
      | true =>
        have hjoins : (∃ answers', (⟨c, other, true⟩ : SubscribeAnswer) :: answers =
            ⟨channel, handler, true⟩ :: answers' ∧ (p.handlers channel).isSome = true) ↔
            c = channel ∧ other = handler ∧ (p.handlers channel).isSome = true := by
          simp [and_assoc]
        rw [hjoins]
        exact ⟨entered_add, returned_add⟩
      | false => simp [Entered]
  | message c text =>
    simp only [step, Joins, or_false]
    split <;> exact ⟨Iff.rfl, Iff.rfl⟩

theorem tokens_add_le :
    (add p c other).tokens handler ≤ p.tokens handler + if other = handler then 1 else 0 := by
  unfold add
  split
  · simp [tokens, List.countP_append, List.countP_singleton, Nat.add_assoc]
  · exact Nat.le_add_right _ _

theorem tokens_subscribe_le :
    (subscribe p c other).tokens handler ≤ p.tokens handler + if other = handler then 1 else 0 := by
  unfold subscribe
  split
  · exact tokens_add_le
  · simp only [tokens, List.countP_append, List.countP_singleton, PubSubCommand.handler,
      Option.some.injEq, decide_eq_true_eq]
    omega

theorem tokens_unsubscribe : (unsubscribe p c other).tokens handler = p.tokens handler := by
  unfold unsubscribe
  dsimp only
  split
  · split <;> simp [tokens, PubSubCommand.handler]
  · rfl

theorem tokens_answer (ok : Bool) : (p.answer ok).tokens handler = p.tokens handler := by
  unfold answer
  split
  · rename_i c other commands hcommands
    simp only [tokens, hcommands, List.countP_cons, List.countP_append, List.countP_nil,
      PubSubCommand.handler, Option.some.injEq, decide_eq_true_eq]
    omega
  · rename_i c commands hcommands
    simp [tokens, hcommands, PubSubCommand.handler]
  · rfl

theorem tokens_resume_le : (resume p).tokens handler ≤ p.tokens handler := by
  unfold resume
  split
  · rename_i a answers hanswers
    have hrest : tokens { p with answers := answers } handler +
        (if a.handler = handler then 1 else 0) = p.tokens handler := by
      simp only [tokens, hanswers, List.countP_cons, decide_eq_true_eq]
      omega
    split
    · exact Nat.le_trans tokens_add_le (Nat.le_of_eq hrest)
    · exact Nat.le_trans (Nat.le_add_right _ _) (Nat.le_of_eq hrest)
  · exact Nat.le_refl _

/-- Others do not call `subscribe` with the handler. -/
theorem tokens_step (hforeign : p.Foreign channel handler e) :
    (step p e).tokens handler ≤ p.tokens handler := by
  cases e with
  | subscribe c other =>
    have hle : (subscribe p c other).tokens handler ≤ p.tokens handler + _ := tokens_subscribe_le
    rwa [if_neg hforeign] at hle
  | unsubscribe i =>
    simp only [step]
    split
    · exact Nat.le_of_eq tokens_unsubscribe
    · exact Nat.le_refl _
  | answer ok => exact Nat.le_of_eq (tokens_answer ok)
  | resume => exact tokens_resume_le
  | message c text =>
    simp only [step]
    split <;> exact Nat.le_refl _

/-- A call that has returned does not wait. -/
theorem not_joins (htokens : p.tokens handler ≤ 1) (hreturned : (channel, handler) ∈ p.returned) :
    ¬ p.Joins channel handler e := by
  intro hjoins
  cases e with
  | resume =>
    obtain ⟨answers, hanswers, -⟩ := hjoins
    have hpos : 0 < p.returned.countP (fun r => decide (r.2 = handler)) :=
      List.countP_pos_iff.2 ⟨_, hreturned, decide_eq_true rfl⟩
    simp only [tokens, hanswers, List.countP_cons, decide_true, if_true] at htokens
    omega
  | subscribe c other => exact hjoins
  | unsubscribe i => exact hjoins
  | answer ok => exact hjoins
  | message c text => exact hjoins

/-- A call that has not been made has not returned. -/
theorem not_returned (htokens : p.tokens handler = 0) : (channel, handler) ∉ p.returned := by
  intro hreturned
  have hpos : 0 < p.returned.countP (fun r => decide (r.2 = handler)) :=
    List.countP_pos_iff.2 ⟨_, hreturned, decide_eq_true rfl⟩
  unfold tokens at htokens
  omega

/-- A message is received, and nothing else. -/
theorem step_message (p : PubSubState) (c text : String) :
    ∃ received, step p (.message c text) = { p with received := received } := by
  simp only [step]
  split
  · exact ⟨_, rfl⟩
  · exact ⟨p.received, rfl⟩

theorem Wired.unsubscribe (h : p.Wired) (c : String) (other : Handler) :
    Wired (unsubscribe p c other) := by
  intro channel
  rw [view_unsubscribe]
  split
  · exact (h channel).leave other
  · exact h channel

/-- The handler leaves. -/
theorem Wired.not_entered_unsubscribe (h : p.Wired) (channel : String) (handler : Handler) :
    ¬ (NotificationPubSubService.unsubscribe p channel handler).Entered channel handler := by
  have hlive : p.live channel = (p.handlers channel).getD [] := (h channel).live
  have hnodup : ((p.handlers channel).getD []).Nodup := hlive ▸ (h channel).nodup
  unfold Entered
  rw [getD_handlers_unsubscribe, if_pos rfl]
  exact hnodup.not_mem_erase

end PubSubState

namespace SseState

open NotificationPubSubService

/-! ### The invariant -/

section Runs

variable {channel : String} {handler : Handler} {w : Bool} {s : SseState} {e : SseEvent}

/-- `subscribeUser` has not been called. -/
def Before (s : SseState) : Prop := s.phase ≠ .subscribing ∧ s.phase ≠ .streaming

/-- The invariant. -/
structure Wired (channel : String) (handler : Handler) (s : SseState) : Prop where
  pubSub : s.pubSub.Wired
  tokens : s.pubSub.tokens handler ≤ 1
  before : s.Before → s.pubSub.tokens handler = 0 ∧ s.pushed = []
  entered : s.phase ≠ .streaming →
    (s.pubSub.Entered channel handler ↔ (channel, handler) ∈ s.pubSub.returned)
  streaming : s.phase = .streaming → (channel, handler) ∈ s.pubSub.returned
  timer : s.phase ≠ .streaming → s.heartbeat = false
  fresh : ∀ id ∈ s.fresh, id ∈ s.committed

theorem wired_init : Wired channel handler {} where
  pubSub := PubSubState.wired_init
  tokens := Nat.zero_le 1
  before _ := ⟨rfl, rfl⟩
  entered _ := ⟨fun h => absurd h List.not_mem_nil, fun h => absurd h List.not_mem_nil⟩
  streaming h := absurd h (by decide)
  timer _ := rfl
  fresh _ h := absurd h List.not_mem_nil

/-- Before `subscribeUser` the handler is not called. -/
theorem Wired.not_called (h : Wired channel handler s) (hbefore : s.Before) :
    ¬ s.pubSub.Called channel handler := fun hcalled =>
  PubSubState.not_returned (h.before hbefore).1 ((h.entered hbefore.2).1 hcalled.2)

/-- `stream` goes on before `subscribeUser`. -/
theorem Wired.of_before (h : Wired channel handler s) (hbefore : s.Before) (phase : SsePhase)
    (hphase : phase ≠ .streaming) :
    Wired channel handler { s with phase := phase } where
  pubSub := h.pubSub
  tokens := h.tokens
  before _ := h.before hbefore
  entered _ := h.entered hbefore.2
  streaming hstreaming := absurd hstreaming hphase
  timer _ := h.timer hbefore.2
  fresh := h.fresh

theorem Wired.opened (h : Wired channel handler s) (hphase : s.phase = .idle) :
    Wired channel handler { s with phase := .counting } :=
  h.of_before (by simp [Before, hphase]) .counting fun h => SsePhase.noConfusion h

theorem Wired.query (h : Wired channel handler s) (hphase : s.phase = .counting) :
    Wired channel handler { s with phase := .counted s.committed } :=
  h.of_before (by simp [Before, hphase]) (.counted s.committed) fun h => SsePhase.noConfusion h

theorem Wired.connect (h : Wired channel handler s) : Wired channel handler (s.connect channel handler) := by
  unfold SseState.connect
  split
  · rename_i ids hphase
    have hbefore : s.Before := by
      rw [Before, hphase]
      exact ⟨fun h => SsePhase.noConfusion h, fun h => SsePhase.noConfusion h⟩
    have htokens := (h.before hbefore).1
    have hreturned : (channel, handler) ∉ s.pubSub.returned := PubSubState.not_returned htokens
    have hentered : ¬ s.pubSub.Entered channel handler := fun hentered =>
      hreturned ((h.entered hbefore.2).1 hentered)
    refine ⟨h.pubSub.step (.subscribe channel handler), ?_, fun hlater => absurd rfl hlater.1,
      fun _ => ?_, fun hstreaming => SsePhase.noConfusion hstreaming, fun _ => h.timer hbefore.2, h.fresh⟩
    · have hle : (subscribe s.pubSub channel handler).tokens handler ≤
          s.pubSub.tokens handler + _ := PubSubState.tokens_subscribe_le
      rwa [if_pos rfl, htokens] at hle
    · rw [PubSubState.entered_subscribe, PubSubState.returned_subscribe]
      simp only [hentered, hreturned, false_or]
  · exact h

theorem Wired.publish (h : Wired channel handler s) (id : Uuid) :
    Wired channel handler (s.publish channel handler id) := by
  unfold SseState.publish
  split
  · obtain ⟨received, hmessage⟩ := PubSubState.step_message s.pubSub channel (toString id)
    have hwired := h.pubSub.step (.message channel (toString id))
    rw [hmessage] at hwired ⊢
    refine ⟨hwired, h.tokens, fun hbefore => ⟨(h.before hbefore).1, ?_⟩, h.entered, h.streaming,
      h.timer, h.fresh⟩
    have hnot : ¬ (s.pubSub.Called channel handler ∧ s.closed = false) :=
      fun hcalled => h.not_called hbefore hcalled.1
    dsimp only
    rw [if_neg hnot]
    exact (h.before hbefore).2
  · exact h

theorem Wired.others (h : Wired channel handler s) {e : PubSubEvent}
    (hforeign : s.pubSub.Foreign channel handler e) :
    Wired channel handler { s with pubSub := PubSubState.step s.pubSub e } := by
  have htokens := PubSubState.tokens_step hforeign
  obtain ⟨hentered, hreturned⟩ := PubSubState.foreign_step hforeign
  refine ⟨h.pubSub.step e, Nat.le_trans htokens h.tokens, fun hbefore => ?_, fun hphase => ?_,
    fun hphase => hreturned.2 (Or.inl (h.streaming hphase)), h.timer, h.fresh⟩
  · obtain ⟨hzero, hpushed⟩ := h.before hbefore
    exact ⟨Nat.le_zero.1 (hzero ▸ htokens), hpushed⟩
  · exact hentered.trans ((or_congr_left (h.entered hphase)).trans hreturned.symm)

theorem Wired.disconnect (h : Wired channel handler s) :
    Wired channel handler (s.disconnect channel handler) := by
  unfold SseState.disconnect
  split
  · exact h
  · split
    · rename_i hphase
      have hnot : ∀ {P : Prop}, s.phase ≠ .streaming → P := fun hne => absurd hphase hne
      refine ⟨h.pubSub.unsubscribe channel handler, ?_, fun hbefore => hnot hbefore.2,
        fun hne => hnot hne, fun _ => ?_, fun hne => hnot hne, h.fresh⟩
      · rw [PubSubState.tokens_unsubscribe]
        exact h.tokens
      · rw [PubSubState.returned_unsubscribe]
        exact h.streaming hphase
    · exact ⟨h.pubSub, h.tokens, h.before, h.entered, h.streaming, h.timer, h.fresh⟩

theorem Wired.commit (h : Wired channel handler s) (id : Uuid) :
    Wired channel handler (s.step channel handler w (.commit id)) where
  pubSub := h.pubSub
  tokens := h.tokens
  before := h.before
  entered := h.entered
  streaming := h.streaming
  timer := h.timer
  fresh id' hid' := by
    simp only [SseState.step] at hid' ⊢
    split at hid'
    · exact List.mem_append_left [id] (h.fresh id' hid')
    · rw [List.mem_append] at hid' ⊢
      exact hid'.imp_left (h.fresh id')

theorem Wired.step (h : Wired channel handler s) (e : SseEvent) :
    Wired channel handler (s.step channel handler w e) := by
  cases e with
  | opened =>
    simp only [SseState.step]
    split
    · rename_i hphase
      exact h.opened hphase
    · exact h
  | query =>
    simp only [SseState.step]
    split
    · rename_i hphase
      exact h.query hphase
    · exact h
  | connected => exact h.connect
  | attached =>
    simp only [SseState.step]
    split
    · rename_i hreturned
      exact ⟨h.pubSub, h.tokens, fun hbefore => absurd rfl hbefore.2, fun hne => absurd rfl hne,
        fun _ => hreturned.2, fun hne => absurd rfl hne, h.fresh⟩
    · exact h
  | disconnect => exact h.disconnect
  | heartbeat =>
    simp only [SseState.step]
    split
    · exact ⟨h.pubSub, h.tokens, h.before, h.entered, h.streaming, fun _ => rfl, h.fresh⟩
    · exact h
  | commit id => exact h.commit id
  | publish id => exact h.publish id
  | others e =>
    simp only [SseState.step]
    split
    · rename_i hforeign
      exact h.others hforeign
    · exact h

/-! ### What keeps it -/

/-- A call of `subscribeUser` that has failed leaves nothing. -/
theorem Wired.noLeak_iff (h : Wired channel handler s) : s.NoLeak channel handler w ↔
    (s.closed = true → s.phase = .streaming → ¬ s.pubSub.Entered channel handler ∧
      (¬ s.Overdue w → s.heartbeat = false)) := by
  constructor
  · exact fun hleak hclosed hphase => hleak hclosed (Or.inl hphase)
  · rintro hleak hclosed (hphase | ⟨hphase, -, -, hreturned⟩)
    · exact hleak hclosed hphase
    · have hne : s.phase ≠ .streaming := by
        rw [hphase]
        exact fun h => SsePhase.noConfusion h
      exact ⟨fun hentered => hreturned ((h.entered hne).1 hentered), fun _ => h.timer hne⟩

/-- Before the close handler is registered there is nothing to leave. -/
theorem Wired.noLeak_of_ne (h : Wired channel handler s) (hphase : s.phase ≠ .streaming) :
    s.NoLeak channel handler w := h.noLeak_iff.2 fun _ hstreaming => absurd hstreaming hphase

theorem NoLeak.others (hleak : s.NoLeak channel handler w) (h : Wired channel handler s)
    {e : PubSubEvent} (hforeign : s.pubSub.Foreign channel handler e) :
    NoLeak channel handler w { s with pubSub := PubSubState.step s.pubSub e } := by
  refine (h.others hforeign).noLeak_iff.2 fun hclosed hphase => ?_
  obtain ⟨hnot, htimer⟩ := h.noLeak_iff.1 hleak hclosed hphase
  refine ⟨fun hentered => ?_, htimer⟩
  rcases (PubSubState.foreign_step hforeign).1.1 hentered with hentered | hjoins
  · exact hnot hentered
  · exact PubSubState.not_joins h.tokens (h.streaming hphase) hjoins

theorem NoLeak.connect (hleak : s.NoLeak channel handler w) (h : Wired channel handler s) :
    (s.connect channel handler).NoLeak channel handler w := by
  have hwired := h.connect
  unfold SseState.connect at hwired ⊢
  split at hwired
  · exact hwired.noLeak_of_ne fun h => SsePhase.noConfusion h
  · exact hleak

theorem NoLeak.publish (hleak : s.NoLeak channel handler w) (h : Wired channel handler s)
    (id : Uuid) : (s.publish channel handler id).NoLeak channel handler w := by
  have hwired := h.publish id
  rw [h.noLeak_iff] at hleak
  rw [hwired.noLeak_iff]
  unfold SseState.publish
  split
  · obtain ⟨received, hmessage⟩ := PubSubState.step_message s.pubSub channel (toString id)
    rw [hmessage]
    exact hleak
  · exact hleak

theorem NoLeak.disconnect (hleak : s.NoLeak channel handler w) (h : Wired channel handler s) :
    (s.disconnect channel handler).NoLeak channel handler w := by
  have hwired := h.disconnect
  rw [h.noLeak_iff] at hleak
  rw [hwired.noLeak_iff]
  unfold SseState.disconnect
  split
  · exact hleak
  · split
    · exact fun _ _ => ⟨h.pubSub.not_entered_unsubscribe channel handler, fun _ => rfl⟩
    · rename_i hphase
      exact fun _ hstreaming => absurd hstreaming hphase

theorem NoLeak.heartbeat (hleak : s.NoLeak channel handler w) (h : Wired channel handler s) :
    (s.step channel handler w .heartbeat).NoLeak channel handler w := by
  have hwired := h.step (w := w) .heartbeat
  rw [h.noLeak_iff] at hleak
  rw [hwired.noLeak_iff]
  simp only [step]
  split
  · exact fun hclosed hphase => ⟨(hleak hclosed hphase).1, fun _ => rfl⟩
  · exact hleak

/-- Registering the close handler. -/
theorem Wired.noLeak_attached_iff (h : Wired channel handler s) (hleak : s.NoLeak channel handler w) :
    (s.step channel handler w .attached).NoLeak channel handler w ↔
      s.Sure channel handler .attached := by
  have hwired := h.step (w := w) .attached
  rw [hwired.noLeak_iff]
  simp only [SseState.step, Sure]
  split
  · rename_i hreturned
    have hne : s.phase ≠ .streaming := by
      rw [hreturned.1]
      exact fun h => SsePhase.noConfusion h
    constructor
    · intro hnot _
      by_contra hclosed
      exact (hnot (Bool.not_eq_false _ ▸ hclosed) rfl).1 ((h.entered hne).2 hreturned.2)
    · intro hopen hclosed
      rw [hopen hreturned] at hclosed
      exact absurd hclosed Bool.false_ne_true
  · rename_i hnot
    exact iff_of_true (h.noLeak_iff.1 hleak) fun hreturned => absurd hreturned hnot

/-- Sending the count. -/
theorem Wired.noGap_connected_iff (h : Wired channel handler s) (hgap : s.NoGap) :
    (s.connect channel handler).NoGap ↔ s.Sure channel handler .connected := by
  unfold SseState.connect
  simp only [Sure]
  cases hphase : s.phase with
  | counted ids =>
    have hpushed : s.pushed = [] := (h.before (by simp [Before, hphase])).2
    constructor
    · intro hgap' hopen id hid
      have hsent : (if s.closed then none else some ids) = some ids := by
        rw [hopen]
        rfl
      have hcovered := hgap' hopen ids hsent id hid
      rw [hpushed] at hcovered
      exact hcovered.resolve_right List.not_mem_nil
    · intro hcovered hopen ids' hsent id hid
      have hopen : s.closed = false := hopen
      simp only [hopen, Bool.false_eq_true, if_false, Option.some.injEq] at hsent
      exact Or.inl (hsent ▸ hcovered hopen id hid)
  | idle => exact iff_of_true hgap trivial
  | counting => exact iff_of_true hgap trivial
  | subscribing => exact iff_of_true hgap trivial
  | streaming => exact iff_of_true hgap trivial

/-- Publishing a notification. -/
theorem Wired.noGap_publish_iff (h : Wired channel handler s) (hgap : s.NoGap) (id : Uuid) :
    (s.publish channel handler id).NoGap ↔ s.Sure channel handler (.publish id) := by
  unfold SseState.publish
  simp only [Sure]
  split
  · constructor
    · intro hgap' hopen hfresh ids hsent
      have hid : id ∈ if id ∈ s.fresh ∧ s.closed = false then s.dispatched ++ [id]
          else s.dispatched := by
        rw [if_pos ⟨hfresh, hopen⟩]
        exact List.mem_append_right _ (List.mem_singleton.2 rfl)
      refine (hgap' hopen ids hsent id hid).imp_right fun hpushed => ?_
      by_cases hcalled : s.pubSub.Called channel handler
      · exact Or.inr hcalled
      · dsimp only at hpushed
        rw [if_neg fun hboth => hcalled hboth.1] at hpushed
        exact Or.inl hpushed
    · intro hsure hopen ids hsent id' hid'
      have hopen : s.closed = false := hopen
      have hsent : s.sent = some ids := hsent
      simp only [hopen, and_true] at hid' ⊢
      -- what has been pushed stays so
      have hkeep : ∀ i, i ∈ s.pushed →
          i ∈ if s.pubSub.Called channel handler then s.pushed ++ [id] else s.pushed := by
        intro i hi
        split
        · exact List.mem_append_left [id] hi
        · exact hi
      have hold : id' ∈ s.dispatched → id' ∈ ids ∨
          id' ∈ if s.pubSub.Called channel handler then s.pushed ++ [id] else s.pushed :=
        fun hid' => (hgap hopen ids hsent id' hid').imp_right (hkeep id')
      split at hid'
      · rename_i hfresh
        rcases List.mem_append.1 hid' with hid' | hid'
        · exact hold hid'
        · rw [List.mem_singleton.1 hid']
          rcases hsure hopen hfresh ids hsent with hcounted | hpushed | hcalled
          · exact Or.inl hcounted
          · exact Or.inr (hkeep id hpushed)
          · rw [if_pos hcalled]
            exact Or.inr (List.mem_append_right _ (List.mem_singleton.2 rfl))
      · exact hold hid'
  · rename_i hnot
    exact iff_of_true hgap fun _ hfresh => absurd (h.fresh id hfresh) hnot

/-- **Exactly which steps leave neither gap nor leak.** -/
theorem clean_step_iff (h : Wired channel handler s) (hgap : s.NoGap)
    (hleak : s.NoLeak channel handler w) (e : SseEvent) :
    ((s.step channel handler w e).NoGap ∧ (s.step channel handler w e).NoLeak channel handler w) ↔
      s.Sure channel handler e := by
  cases e with
  | opened =>
    refine iff_of_true ?_ trivial
    simp only [SseState.step]
    split
    · rename_i hphase
      exact ⟨hgap, (h.opened hphase).noLeak_of_ne fun h => SsePhase.noConfusion h⟩
    · exact ⟨hgap, hleak⟩
  | query =>
    refine iff_of_true ?_ trivial
    simp only [SseState.step]
    split
    · rename_i hphase
      exact ⟨hgap, (h.query hphase).noLeak_of_ne fun h => SsePhase.noConfusion h⟩
    · exact ⟨hgap, hleak⟩
  | connected =>
    exact (and_iff_left (hleak.connect h)).trans (h.noGap_connected_iff hgap)
  | attached =>
    have hgap' : (s.step channel handler w .attached).NoGap := by
      simp only [SseState.step]
      split <;> exact hgap
    exact (and_iff_right hgap').trans (h.noLeak_attached_iff hleak)
  | disconnect =>
    refine iff_of_true ⟨?_, hleak.disconnect h⟩ trivial
    simp only [SseState.step, SseState.disconnect]
    split
    · exact hgap
    · split <;> exact fun hopen => Bool.noConfusion hopen
  | heartbeat =>
    refine iff_of_true ⟨?_, hleak.heartbeat h⟩ trivial
    simp only [SseState.step]
    split <;> exact hgap
  | commit id => exact iff_of_true ⟨hgap, hleak⟩ trivial
  | publish id =>
    exact (and_iff_left (hleak.publish h id)).trans (h.noGap_publish_iff hgap id)
  | others e =>
    refine iff_of_true ?_ trivial
    simp only [SseState.step]
    split
    · rename_i hforeign
      exact ⟨hgap, hleak.others h hforeign⟩
    · exact ⟨hgap, hleak⟩

end Runs

/-- **Exactly when nothing is missed and nothing is left.** -/
theorem stream_iff (channel : String) (handler : Handler) (writableAfterClose : Bool)
    (es : List SseEvent) :
    (∀ fs, fs <+: es → (Runs.run (step channel handler writableAfterClose) {} fs).NoGap ∧
      (Runs.run (step channel handler writableAfterClose) {} fs).NoLeak channel handler
        writableAfterClose) ↔
      Runs.Meets (step channel handler writableAfterClose) (Sure channel handler) {} es := by
  have hgap : ({} : SseState).NoGap := fun _ ids _ id hid => absurd hid List.not_mem_nil
  have hleak : ({} : SseState).NoLeak channel handler writableAfterClose :=
    fun hclosed => Bool.noConfusion hclosed
  have hkeep : ∀ s e, True → Wired channel handler s →
      s.NoGap ∧ s.NoLeak channel handler writableAfterClose →
      ((s.step channel handler writableAfterClose e).NoGap ∧
        (s.step channel handler writableAfterClose e).NoLeak channel handler writableAfterClose ↔
          s.Sure channel handler e) :=
    fun _ e _ h hclean => clean_step_iff h hclean.1 hclean.2 e
  exact Runs.always_iff_meets_of hkeep (fun _ e _ h _ _ => h.step e) (fun _ _ => trivial)
    wired_init ⟨hgap, hleak⟩

/-- A notification is written and published between the query and the subscription; the client
disconnects while the connection waits for `SUBSCRIBE`. -/
theorem not_stream :
    ¬ (Runs.run (step "notifications:user:7" 1 false) {} [.opened, .query, .commit 5, .publish 5,
      .connected]).NoGap ∧
    ¬ (Runs.run (step "notifications:user:7" 1 false) {} [.opened, .query, .connected, .disconnect,
      .others (.answer true), .others .resume, .attached]).NoLeak "notifications:user:7" 1 false := by
  constructor
  · intro hgap
    have hcovered := hgap (by decide) [] (by decide) 5 (by decide)
    revert hcovered
    decide
  · intro hleak
    have hnone := (hleak (by decide) (Or.inl (by decide))).1
    revert hnone
    decide

end SseState

end OpsHub
