import Mathlib.Data.List.Count
import Mathlib.Logic.Function.Basic
import OpsHub.Lib.Runs
import OpsHub.Lib.Shared

/-!
# Subscriptions

`NotificationPubSubService.subscribe` and the function it returns, over the subscriber connection
to Redis.  Each of them runs without interruption up to the command that it waits for.  Redis
carries out the commands of a connection in the order in which they come, and the calls go on in
the order of the answers.

* `PubSubState`, `PubSubEvent`, `step`: the table of handlers, the connection, and the calls that
  wait;
* `view`: the table and the connection for one channel are a shared resource;
* `Bookkept`, `Delivered`: the books are right in every settled state, and messages are delivered;
* `bookkeeping_iff`: the runs in which this is so;
* `not_bookkept`: a `SUBSCRIBE` that fails, and a handler that is removed while another call waits.
-/

namespace OpsHub

/-- A handler; functions are compared by identity. -/
abbrev Handler := ℕ

/-- A command on the subscriber connection, with the handler of the call that waits for it. -/
inductive PubSubCommand
  | subscribe (channel : String) (handler : Handler)
  | unsubscribe (channel : String)
  deriving DecidableEq, Repr

namespace PubSubCommand

/-- The channel of a command. -/
def channel : PubSubCommand → String
  | .subscribe channel _ => channel
  | .unsubscribe channel => channel

/-- The handler of a `SUBSCRIBE`. -/
def handler : PubSubCommand → Option Handler
  | .subscribe _ handler => some handler
  | .unsubscribe _ => none

end PubSubCommand

/-- The answer to the `SUBSCRIBE` of a call that has not gone on yet. -/
structure SubscribeAnswer where
  channel : String
  handler : Handler
  ok : Bool
  deriving DecidableEq, Repr

/-- Why a call of `subscribe` fails. -/
inductive SubscribeFailure
  | redis
  /-- `Cannot read properties of undefined (reading 'add')`. -/
  | typeError
  deriving DecidableEq, Repr

/-- The service and its connection. -/
structure PubSubState where
  handlers : String → Option (List Handler) := fun _ => none
  subscribed : String → Bool := fun _ => false
  /-- The commands that Redis has not answered. -/
  commands : List PubSubCommand := []
  answers : List SubscribeAnswer := []
  /-- The functions that calls of `subscribe` have returned. -/
  returned : List (String × Handler) := []
  failures : List (String × SubscribeFailure) := []
  /-- The handlers whose `subscribe` has succeeded and that have not been removed. -/
  live : String → List Handler := fun _ => []
  /-- The messages that handlers have been called with. -/
  received : List (String × Handler × String) := []

/-- What can happen. -/
inductive PubSubEvent
  | subscribe (channel : String) (handler : Handler)
  /-- The `i`-th of the returned functions is called. -/
  | unsubscribe (i : ℕ)
  /-- Redis answers the oldest command; a `SUBSCRIBE` may fail. -/
  | answer (ok : Bool)
  /-- The call whose answer has come first goes on. -/
  | resume
  /-- A message is published. -/
  | message (channel : String) (text : String)
  deriving DecidableEq, Repr

namespace NotificationPubSubService

/-- `this.handlers.get(channel)!.add(handler)`, and the return. -/
def add (s : PubSubState) (channel : String) (handler : Handler) : PubSubState :=
  match s.handlers channel with
  | some set =>
    { s with
      handlers := Function.update s.handlers channel (some (set.insert handler))
      returned := s.returned ++ [(channel, handler)]
      live := Function.update s.live channel ((s.live channel).insert handler) }
  | none => { s with failures := s.failures ++ [(channel, .typeError)] }

/-- `subscribe`, up to the command. -/
def subscribe (s : PubSubState) (channel : String) (handler : Handler) : PubSubState :=
  match s.handlers channel with
  | some _ => add s channel handler
  | none =>
    { s with
      handlers := Function.update s.handlers channel (some [])
      commands := s.commands ++ [.subscribe channel handler] }

/-- `subscribe`, after the command. -/
def resume (s : PubSubState) : PubSubState :=
  match s.answers with
  | a :: answers =>
    if a.ok then add { s with answers := answers } a.channel a.handler
    else { s with answers := answers, failures := s.failures ++ [(a.channel, .redis)] }
  | [] => s

/-- The function that `subscribe` returns. -/
def unsubscribe (s : PubSubState) (channel : String) (handler : Handler) : PubSubState :=
  let s := { s with live := Function.update s.live channel ((s.live channel).erase handler) }
  match s.handlers channel with
  | some set =>
    if set.erase handler = [] then
      { s with
        handlers := Function.update s.handlers channel none
        commands := s.commands ++ [.unsubscribe channel] }
    else { s with handlers := Function.update s.handlers channel (some (set.erase handler)) }
  | none => s

/-- `this.subscriber.on('message', …)`. -/
def onMessage (s : PubSubState) (channel text : String) : PubSubState :=
  { s with
    received := s.received ++ ((s.handlers channel).getD []).map (fun h => (channel, h, text)) }

end NotificationPubSubService

namespace PubSubState

open NotificationPubSubService

/-- Redis answers the oldest command. -/
def answer (s : PubSubState) (ok : Bool) : PubSubState :=
  match s.commands with
  | .subscribe channel handler :: commands =>
    { s with
      commands := commands
      subscribed := Function.update s.subscribed channel (ok || s.subscribed channel)
      answers := s.answers ++ [⟨channel, handler, ok⟩] }
  | .unsubscribe channel :: commands =>
    { s with commands := commands, subscribed := Function.update s.subscribed channel false }
  | [] => s

/-- The state after an event. -/
def step (s : PubSubState) : PubSubEvent → PubSubState
  | .subscribe channel handler => subscribe s channel handler
  | .unsubscribe i =>
    match s.returned[i]? with
    | some (channel, handler) => unsubscribe s channel handler
    | none => s
  | .answer ok => s.answer ok
  | .resume => resume s
  | .message channel text => if s.subscribed channel then onMessage s channel text else s

/-! ### The property -/

/-- No call on the channel waits. -/
def Settled (s : PubSubState) (channel : String) : Prop :=
  (∀ c ∈ s.commands, c.channel ≠ channel) ∧ ∀ a ∈ s.answers, a.channel ≠ channel

instance (s : PubSubState) (channel : String) : Decidable (s.Settled channel) :=
  inferInstanceAs (Decidable ((∀ c ∈ s.commands, c.channel ≠ channel) ∧
    ∀ a ∈ s.answers, a.channel ≠ channel))

/-- No call has failed but with an error of Redis.  When no call on a channel waits, the connection
is subscribed to it exactly if there are live handlers, and these make up its entry in the table;
failed calls have left nothing there. -/
structure Bookkept (s : PubSubState) : Prop where
  failures : ∀ x ∈ s.failures, x.2 = .redis
  subscribed : ∀ channel, s.Settled channel → (s.subscribed channel = true ↔ s.live channel ≠ [])
  handlers : ∀ channel, s.Settled channel →
    s.handlers channel = if s.live channel = [] then none else some (s.live channel)

/-- A handler that was live when no call on its channel waited, and has been since, gets the next
message exactly once. -/
def Delivered (es : List PubSubEvent) : Prop :=
  ∀ fs gs, fs ++ gs <+: es → ∀ channel handler, (Runs.run step {} fs).Settled channel →
    (∀ ks, ks <+: gs → handler ∈ (Runs.run step {} (fs ++ ks)).live channel) →
    ∀ text, (step (Runs.run step {} (fs ++ gs)) (.message channel text)).received.count
        (channel, handler, text) =
      (Runs.run step {} (fs ++ gs)).received.count (channel, handler, text) + 1

/-- A call that goes on after a success finds an entry for its channel.  After a failure it finds
none, unless another call on the channel waits. -/
def Answerable (s : PubSubState) : PubSubEvent → Prop
  | .resume =>
    match s.answers with
    | ⟨channel, _, true⟩ :: _ => (s.handlers channel).isSome = true
    | ⟨channel, _, false⟩ :: answers =>
      (s.handlers channel).isSome = true → (∀ c ∈ s.commands, c.channel ≠ channel) →
        ∃ a ∈ answers, a.channel = channel
    | [] => True
  | _ => True

/-! ### One channel -/

/-- The table and the connection for one channel. -/
def view (s : PubSubState) (channel : String) : Shared Handler where
  users := s.handlers channel
  held := s.subscribed channel
  orders := (s.commands.filter (fun c => decide (c.channel = channel))).map PubSubCommand.handler
  answers := (s.answers.filter (fun a => decide (a.channel = channel))).map
    (fun a => (a.handler, a.ok))
  live := s.live channel
  crashed := decide ((channel, .typeError) ∈ s.failures)

/-- What an event is for one channel. -/
def eventOn (s : PubSubState) (channel : String) : PubSubEvent → Option (Shared.Event Handler)
  | .subscribe c handler => if c = channel then some (.join handler) else none
  | .unsubscribe i =>
    match s.returned[i]? with
    | some (c, handler) => if c = channel then some (.leave handler) else none
    | none => none
  | .answer ok =>
    match s.commands with
    | c :: _ => if c.channel = channel then some (.answer ok) else none
    | [] => none
  | .resume =>
    match s.answers with
    | a :: _ => if a.channel = channel then some .resume else none
    | [] => none
  | .message _ _ => none

variable {s : PubSubState} {channel c : String} {handler : Handler} {e : PubSubEvent}

theorem view_add : (add s c handler).view channel =
    if c = channel then (s.view channel).enter handler else s.view channel := by
  by_cases hc : c = channel
  · subst hc
    rw [if_pos rfl]
    unfold add Shared.enter
    cases hset : s.handlers c with
    | none => simp [view, hset]
    | some set => simp [view, hset]
  · rw [if_neg hc]
    unfold add
    cases hset : s.handlers c with
    | none => simp [view, Ne.symm hc]
    | some set => simp [view, Function.update_of_ne (Ne.symm hc)]

theorem view_subscribe : (subscribe s c handler).view channel =
    if c = channel then (s.view channel).join handler else s.view channel := by
  by_cases hc : c = channel
  · subst hc
    rw [if_pos rfl]
    unfold subscribe Shared.join
    cases hset : s.handlers c with
    | none => simp [view, hset, PubSubCommand.channel, PubSubCommand.handler]
    | some set =>
      have husers : (s.view c).users = some set := hset
      simp only [husers]
      rw [view_add, if_pos rfl]
  · rw [if_neg hc]
    unfold subscribe
    cases hset : s.handlers c with
    | none => simp [view, Function.update_of_ne (Ne.symm hc), PubSubCommand.channel, hc]
    | some set =>
      dsimp only
      rw [view_add, if_neg hc]

theorem view_unsubscribe : (unsubscribe s c handler).view channel =
    if c = channel then (s.view channel).leave handler else s.view channel := by
  by_cases hc : c = channel
  · subst hc
    rw [if_pos rfl]
    unfold unsubscribe Shared.leave
    cases hset : s.handlers c with
    | none => simp [view, hset]
    | some set =>
      by_cases hempty : set.erase handler = []
      · simp [view, hset, hempty, PubSubCommand.channel, PubSubCommand.handler]
      · simp [view, hset, hempty]
  · rw [if_neg hc]
    cases hset : s.handlers c with
    | none => simp [unsubscribe, hset, view, Function.update_of_ne (Ne.symm hc)]
    | some set =>
      simp only [unsubscribe, hset]
      split
      · simp [view, Function.update_of_ne (Ne.symm hc), PubSubCommand.channel, hc]
      · simp [view, Function.update_of_ne (Ne.symm hc)]

/-- Redis has answered a command. -/
theorem view_answer {ok : Bool} {cmd : PubSubCommand} {commands : List PubSubCommand}
    (hcommands : s.commands = cmd :: commands) : (s.answer ok).view channel =
      if cmd.channel = channel then (s.view channel).answer ok else s.view channel := by
  by_cases hc : cmd.channel = channel
  · subst hc
    rw [if_pos rfl]
    cases cmd with
    | subscribe c handler =>
      simp only [PubSubState.answer, hcommands, Shared.answer]
      simp [view, hcommands, PubSubCommand.channel, PubSubCommand.handler]
    | unsubscribe c =>
      simp only [PubSubState.answer, hcommands, Shared.answer]
      simp [view, hcommands, PubSubCommand.channel, PubSubCommand.handler]
  · rw [if_neg hc]
    cases cmd with
    | subscribe c handler =>
      have hne : c ≠ channel := hc
      simp [PubSubState.answer, view, hcommands, PubSubCommand.channel, hne,
        Function.update_of_ne hne.symm]
    | unsubscribe c =>
      have hne : c ≠ channel := hc
      simp [PubSubState.answer, view, hcommands, PubSubCommand.channel, hne,
        Function.update_of_ne hne.symm]

/-- A call has gone on. -/
theorem view_resume {a : SubscribeAnswer} {answers : List SubscribeAnswer}
    (hanswers : s.answers = a :: answers) : (resume s).view channel =
      if a.channel = channel then (s.view channel).resume else s.view channel := by
  obtain ⟨c, handler, ok⟩ := a
  by_cases hc : c = channel
  · subst hc
    rw [if_pos rfl]
    unfold resume Shared.resume
    cases ok with
    | true =>
      simp only [hanswers, if_true, view_add]
      simp [view, hanswers]
    | false => simp [view, hanswers]
  · rw [if_neg hc]
    unfold resume
    cases ok with
    | true =>
      simp only [hanswers, if_true, view_add, if_neg hc]
      simp [view, hanswers, hc]
    | false => simp [view, hanswers, hc]

/-- **One channel** sees its events, and no others. -/
theorem view_step (s : PubSubState) (e : PubSubEvent) (channel : String) :
    (step s e).view channel = match s.eventOn channel e with
      | some e' => (s.view channel).step e'
      | none => s.view channel := by
  cases e with
  | subscribe c handler =>
    simp only [step, eventOn, view_subscribe]
    split <;> rfl
  | unsubscribe i =>
    simp only [step, eventOn]
    cases s.returned[i]? with
    | none => rfl
    | some r =>
      simp only [view_unsubscribe]
      split <;> rfl
  | answer ok =>
    simp only [step, eventOn]
    cases hcommands : s.commands with
    | nil =>
      unfold PubSubState.answer
      rw [hcommands]
    | cons cmd commands =>
      rw [view_answer hcommands]
      dsimp only
      split <;> rfl
  | resume =>
    simp only [step, eventOn]
    cases hanswers : s.answers with
    | nil =>
      unfold resume
      rw [hanswers]
    | cons a answers =>
      rw [view_resume hanswers]
      dsimp only
      split <;> rfl
  | message c text =>
    simp only [step, eventOn]
    split <;> rfl

/-! ### All channels -/

theorem settled_view_iff : (s.view channel).Settled ↔ s.Settled channel := by
  unfold Shared.Settled Settled view
  simp only [List.map_eq_nil_iff, List.filter_eq_nil_iff, decide_eq_true_eq]

/-- The books are right if those of every channel are. -/
theorem bookkept_iff : Bookkept s ↔ ∀ channel, (s.view channel).Kept := by
  constructor
  · intro h channel
    refine ⟨decide_eq_false fun hfailed => ?_, fun hsettled => ?_, fun hsettled => ?_⟩
    · have hredis : SubscribeFailure.typeError = .redis := h.failures _ hfailed
      cases hredis
    · exact h.subscribed channel (settled_view_iff.1 hsettled)
    · exact h.handlers channel (settled_view_iff.1 hsettled)
  · intro h
    refine ⟨fun x hx => ?_, fun channel hsettled => ?_, fun channel hsettled => ?_⟩
    · obtain ⟨channel, failure⟩ := x
      cases failure with
      | redis => rfl
      | typeError => exact absurd hx (of_decide_eq_false (h channel).sound)
    · exact (h channel).held (settled_view_iff.2 hsettled)
    · exact (h channel).entry (settled_view_iff.2 hsettled)

/-- There is no condition on the other events. -/
theorem fits_eventOn (he : e ≠ .resume) : ∀ e' ∈ s.eventOn channel e, (s.view channel).Fits e' := by
  intro e' he'
  cases e' with
  | join u => trivial
  | leave u => trivial
  | answer ok => trivial
  | resume =>
    cases e with
    | resume => exact absurd rfl he
    | subscribe c handler =>
      simp only [eventOn] at he'
      split at he' <;> cases he'
    | unsubscribe i =>
      simp only [eventOn] at he'
      split at he'
      · split at he' <;> cases he'
      · cases he'
    | answer ok =>
      simp only [eventOn] at he'
      split at he'
      · split at he' <;> cases he'
      · cases he'
    | message c text => cases he'

/-- A condition for each channel. -/
theorem answerable_iff : Answerable s e ↔
    ∀ channel, ∀ e' ∈ s.eventOn channel e, (s.view channel).Fits e' := by
  cases e with
  | resume =>
    cases hanswers : s.answers with
    | nil => simp [Answerable, eventOn, hanswers]
    | cons a answers =>
      obtain ⟨c, handler, ok⟩ := a
      have hview : (s.view c).answers = (handler, ok) ::
          (answers.filter (fun a => decide (a.channel = c))).map (fun a => (a.handler, a.ok)) := by
        simp [view, hanswers]
      have hon : (∀ channel, ∀ e' ∈ s.eventOn channel .resume, (s.view channel).Fits e') ↔
          (s.view c).Fits .resume := by
        simp [eventOn, hanswers]
      rw [hon]
      cases ok with
      | true =>
        simp only [Answerable, hanswers, Shared.Fits, hview]
        exact Iff.rfl
      | false =>
        simp only [Answerable, hanswers, Shared.Fits, hview]
        simp [view]
  | subscribe c handler =>
    exact iff_of_true trivial fun _ => fits_eventOn fun h => PubSubEvent.noConfusion h
  | unsubscribe i =>
    exact iff_of_true trivial fun _ => fits_eventOn fun h => PubSubEvent.noConfusion h
  | answer ok => exact iff_of_true trivial fun _ => fits_eventOn fun h => PubSubEvent.noConfusion h
  | message c text =>
    exact iff_of_true trivial fun _ => fits_eventOn fun h => PubSubEvent.noConfusion h

/-! ### Runs -/

/-- The invariant, for all channels. -/
def Wired (s : PubSubState) : Prop := ∀ channel, (s.view channel).Wired

theorem wired_init : Wired ({} : PubSubState) := fun _ => Shared.wired_init

theorem Wired.step (h : Wired s) (e : PubSubEvent) : Wired (step s e) := by
  intro channel
  rw [view_step]
  split
  · exact (h channel).step _
  · exact h channel

theorem wired_run (es : List PubSubEvent) : Wired (Runs.run step {} es) :=
  Runs.run_invariant (fun _ e h => h.step e) wired_init es

/-- **Exactly which steps keep the books right.** -/
theorem bookkept_step_iff (hw : Wired s) (h : Bookkept s) (e : PubSubEvent) :
    Bookkept (step s e) ↔ Answerable s e := by
  rw [bookkept_iff] at h
  rw [bookkept_iff, answerable_iff]
  refine forall_congr' fun channel => ?_
  rw [view_step]
  cases s.eventOn channel e with
  | none => simpa using h channel
  | some e' => simpa using Shared.kept_step_iff (hw channel) (h channel) e'

/-- The channel of a live handler stays settled. -/
theorem settled_step (hw : Wired s) (hsettled : s.Settled channel)
    (hlive : handler ∈ s.live channel) (hstays : handler ∈ (step s e).live channel) :
    (step s e).Settled channel := by
  rw [← settled_view_iff, view_step]
  rw [← settled_view_iff] at hsettled
  have hview : (step s e).live channel = ((step s e).view channel).live := rfl
  rw [hview, view_step] at hstays
  split at hstays
  · exact Shared.settled_step (hw channel) hsettled hlive hstays
  · exact hsettled

/-- In a settled state a live handler gets a message exactly once. -/
theorem count_message (hw : Wired s) (h : Bookkept s) (hsettled : s.Settled channel)
    (hlive : handler ∈ s.live channel) (text : String) :
    (step s (.message channel text)).received.count (channel, handler, text) =
      s.received.count (channel, handler, text) + 1 := by
  have hne : s.live channel ≠ [] := List.ne_nil_of_mem hlive
  have hsubscribed := (h.subscribed channel hsettled).2 hne
  have hhandlers := h.handlers channel hsettled
  rw [if_neg hne] at hhandlers
  have hnodup : (s.live channel).Nodup := (hw channel).nodup
  have hinjective : Function.Injective (fun x : Handler => (channel, x, text)) :=
    fun a b hab => (Prod.mk.inj (Prod.mk.inj hab).2).1
  simp only [step, hsubscribed, if_true, onMessage, hhandlers, Option.getD_some, List.count_append]
  rw [List.count_map_of_injective _ _ hinjective,
    List.count_eq_one_of_mem hnodup hlive]

/-- **Delivery** in a run whose books are right. -/
theorem delivered_of_bookkept {es : List PubSubEvent}
    (h : ∀ fs, fs <+: es → (Runs.run step {} fs).Bookkept) : Delivered es := by
  intro fs gs hprefix channel handler hsettled hlive text
  -- the channel has been settled all the time
  have hlater : ∀ ks, ks <+: gs → (Runs.run step {} (fs ++ ks)).Settled channel := by
    intro ks
    induction ks using List.reverseRecOn with
    | nil =>
      intro _
      rw [List.append_nil]
      exact hsettled
    | append_singleton ks e ih =>
      intro hks
      have hks' : ks <+: gs := (List.prefix_append ks [e]).trans hks
      have hstays := hlive _ hks
      rw [← List.append_assoc, Runs.run_append] at hstays ⊢
      exact settled_step (wired_run _) (ih hks') (hlive ks hks') hstays
  exact count_message (wired_run _) (h _ hprefix) (hlater gs List.prefix_rfl)
    (hlive gs List.prefix_rfl) text

/-- **Exactly when the books are right.** -/
theorem bookkeeping_iff (es : List PubSubEvent) :
    ((∀ fs, fs <+: es → (Runs.run step {} fs).Bookkept) ∧ Delivered es) ↔
      Runs.Meets step Answerable {} es := by
  have hinit : Bookkept ({} : PubSubState) := bookkept_iff.2 fun _ => Shared.kept_init
  have halways : (∀ fs, fs <+: es → (Runs.run step {} fs).Bookkept) ↔
      Runs.Meets step Answerable {} es := by
    have hkeep : ∀ s e, True → Wired s → Bookkept s → (Bookkept (step s e) ↔ Answerable s e) :=
      fun _ e _ hw h => bookkept_step_iff hw h e
    exact Runs.always_iff_meets_of hkeep (fun _ e _ hw _ _ => hw.step e) (fun _ _ => trivial)
      wired_init hinit
  exact ⟨fun h => halways.1 h.1, fun h => ⟨halways.2 h, delivered_of_bookkept (halways.2 h)⟩⟩

/-- A `SUBSCRIBE` fails, and the next handler of the channel is never subscribed; the only handler
is removed while the first call waits, and that call fails as well. -/
theorem not_bookkept :
    ¬ (Runs.run step {} [.subscribe "notifications:user:7" 1, .answer false, .resume,
      .subscribe "notifications:user:7" 2]).Bookkept ∧
    ¬ (Runs.run step {} [.subscribe "notifications:user:7" 1, .subscribe "notifications:user:7" 2,
      .unsubscribe 0, .answer true, .resume]).Bookkept := by
  constructor
  · intro h
    have hsubscribed := h.subscribed "notifications:user:7" (by decide)
    revert hsubscribed
    decide
  · intro h
    have hfailures := h.failures ("notifications:user:7", .typeError) (by decide)
    cases hfailures

end PubSubState

end OpsHub
