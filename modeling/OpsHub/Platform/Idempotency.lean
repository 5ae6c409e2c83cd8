import OpsHub.Lib.Json
import OpsHub.Lib.Pool
import OpsHub.Lib.Runs
import OpsHub.Lib.TtlCache

/-!
# The idempotency interceptor

Requests that carry an `Idempotency-Key`, in any interleaving of their lookups in the cache, their
handlers and the stores of the responses.

* `IdempotencyInterceptor.cacheKey`: the key of a request;
* `IdempotencyState`, `step`: the machine;
* `AtMostOnce`: once a handler has completed under a key, every lookup of the key replays its
  response, and no other handler completes;
* `InTurn`: no handler overlaps with the completion of another one, and no lookup comes between a
  completion and its store, or after the completion of a handler that returns nothing;
* `always_atMostOnce_iff`: that is what it takes;
* `not_atMostOnce`: two retries that overlap, a retry before the store, and a handler that
  returns nothing.
-/

namespace OpsHub

/-! ### Requests -/

/-- `IDEMPOTENCY_TTL_SECONDS`, in milliseconds. -/
def idempotencyTtl : ℕ := 24 * 3600 * 1000

/-- `IDEMPOTENT_METHODS`. -/
def idempotentMethods : List String := ["POST", "PUT", "PATCH"]

/-- A request.  The interceptor looks at neither its path nor its body. -/
structure IdempotentRequest where
  method : String
  idempotencyKey : Option String
  userSub : Option String := none
  ip : Option String := none
  path : String := ""
  body : String := ""
  deriving DecidableEq, Repr

/-- The key under which the interceptor caches the response, if it does. -/
def IdempotencyInterceptor.cacheKey (isAvailable : Bool) (req : IdempotentRequest) :
    Option String :=
  if req.method.toUpper ∈ idempotentMethods then
    match req.idempotencyKey with
    | some idempotencyKey =>
      if idempotencyKey = "" ∨ isAvailable = false then none
      else some ("idem:" ++ (req.userSub <|> req.ip).getD "anon" ++ ":" ++ idempotencyKey)
    | none => none
  else none

/-! ### The machine -/

section Machine

variable {ν : Type}

/-- What a call has still to do; a handler knows how long the log was at its lookup.  A handler
without a key runs as if there were no interceptor. -/
inductive IdempotentCall
  | lookup (key : String) (req : IdempotentRequest)
  | handling (key : Option String) (req : IdempotentRequest) (seen : ℕ)
  | storing (key : String) (text : String)
  | finished

/-- What happens under a key: a lookup answers nothing, a response, or a text that is not JSON;
or a handler completes, with a response or with `undefined`. -/
inductive IdempotencyRecord (ν : Type)
  | missed (key : String) (req : IdempotentRequest)
  | replayed (key : String) (req : IdempotentRequest) (response : Json ν)
  | corrupt (key : String) (req : IdempotentRequest)
  | completed (key : String) (req : IdempotentRequest) (body : Option (Json ν))

/-- The cache, the calls in flight, and the log. -/
structure IdempotencyState (ν : Type) where
  cache : TtlCache String String := TtlCache.empty
  calls : List IdempotentCall := []
  log : List (IdempotencyRecord ν) := []

/-- A request comes in, looks its key up, its handler completes or throws, or its response is
stored. -/
inductive IdempotencyEvent (ν : Type)
  | arrive (req : IdempotentRequest)
  | lookup (i : ℕ) (now : ℕ)
  | complete (i : ℕ) (body : Option (Json ν))
  | fail (i : ℕ)
  | store (i : ℕ) (now : ℕ)

/-- The argument of the store: `JSON.stringify` of `undefined` is no string, and the client of the
cache makes `undefinedText` of it. -/
def storedText [NumberNotation ν] (undefinedText : String) : Option (Json ν) → String
  | some body => body.stringify
  | none => undefinedText

variable [NumberNotation ν]

/-- What a call does with the answer of the cache, which is ignored when it is empty. -/
def IdempotentCall.answer (key : String) (req : IdempotentRequest) (seen : ℕ) :
    Option String → IdempotentCall × IdempotencyRecord ν
  | none => (.handling (some key) req seen, .missed key req)
  | some cached =>
    if cached = "" then (.handling (some key) req seen, .missed key req)
    else
      match Json.parse cached with
      | some response => (.finished, .replayed key req response)
      | none => (.finished, .corrupt key req)

namespace IdempotencyState

/-- The state after a step. -/
def step (undefinedText : String) (s : IdempotencyState ν) :
    IdempotencyEvent ν → IdempotencyState ν
  | .arrive req =>
    match IdempotencyInterceptor.cacheKey true req with
    | some key => { s with calls := s.calls ++ [.lookup key req] }
    | none => { s with calls := s.calls ++ [.handling none req 0] }
  | .lookup i now =>
    match s.calls[i]? with
    | some (.lookup key req) =>
      let (call, record) := IdempotentCall.answer key req s.log.length (s.cache.get now key)
      { s with calls := s.calls.set i call, log := s.log ++ [record] }
    | _ => s
  | .complete i body =>
    match s.calls[i]? with
    | some (.handling (some key) req _) =>
      -- the response is sent, and nobody waits for the store
      { s with
        calls := s.calls.set i (.storing key (storedText undefinedText body))
        log := s.log ++ [.completed key req body] }
    | some (.handling none _ _) => { s with calls := s.calls.set i .finished }
    | _ => s
  | .fail i =>
    match s.calls[i]? with
    | some (.handling _ _ _) => { s with calls := s.calls.set i .finished }
    | _ => s
  | .store i now =>
    match s.calls[i]? with
    | some (.storing key text) =>
      { s with
        cache := s.cache.set key text (now + idempotencyTtl)
        calls := s.calls.set i .finished }
    | _ => s

end IdempotencyState

end Machine

/-! ### The property -/

section Property

variable {ν : Type}

/-- The key of a record. -/
def IdempotencyRecord.key : IdempotencyRecord ν → String
  | .missed key _ | .replayed key _ _ | .corrupt key _ | .completed key _ _ => key

/-- Whether a record is a replay. -/
def IdempotencyRecord.isReplay : IdempotencyRecord ν → Bool
  | .replayed _ _ _ => true
  | _ => false

/-- The response with which a handler has completed under a key. -/
def IdempotencyRecord.completion (key : String) : IdempotencyRecord ν → Option (Option (Json ν))
  | .completed key' _ body => if key' = key then some body else none
  | _ => none

/-- The record is a replay of what a handler has returned. -/
def IdempotencyRecord.Replays (key : String) (body : Option (Json ν)) (x : IdempotencyRecord ν) :
    Prop :=
  ∃ req response, x = .replayed key req response ∧ body = some response

/-- After a completion under a key, everything under the key is a replay of its response. -/
def AtMostOnce (key : String) (log : List (IdempotencyRecord ν)) : Prop :=
  log.Pairwise (fun y x => ∀ body ∈ y.completion key, x.key = key → x.Replays key body)

/-! ### The condition -/

/-- Whether a call stores under a key. -/
def IdempotentCall.stores (key : String) : IdempotentCall → Bool
  | .storing key' _ => decide (key' = key)
  | _ => false

namespace IdempotencyState

/-- Whether a step is a lookup of a key. -/
def looksUp (key : String) (s : IdempotencyState ν) : IdempotencyEvent ν → Bool
  | .lookup i _ =>
    match s.calls[i]? with
    | some (.lookup key' _) => decide (key' = key)
    | _ => false
  | _ => false

/-- When a handler completes: what has happened under its key since its lookup. -/
def meanwhile (key : String) (s : IdempotencyState ν) :
    IdempotencyEvent ν → List (IdempotencyRecord ν)
  | .complete i _ =>
    match s.calls[i]? with
    | some (.handling (some key') _ seen) => if key' = key then s.log.drop seen else []
    | _ => []
  | _ => []

/-- The condition on a step, for a key. -/
structure InTurn (key : String) (s : IdempotencyState ν) (e : IdempotencyEvent ν) : Prop where
  stored : s.looksUp key e = true → ∀ x ∈ s.log, ∀ body ∈ x.completion key,
    body.isSome = true ∧ ∀ call ∈ s.calls, call.stores key = false
  alone : ∀ x ∈ s.meanwhile key e, (x.completion key).isNone = true

instance (key : String) (s : IdempotencyState ν) (e : IdempotencyEvent ν) :
    Decidable (s.InTurn key e) :=
  decidable_of_iff
    ((s.looksUp key e = true → ∀ x ∈ s.log, ∀ body ∈ x.completion key,
      body.isSome = true ∧ ∀ call ∈ s.calls, call.stores key = false) ∧
      ∀ x ∈ s.meanwhile key e, (x.completion key).isNone = true)
    ⟨fun h => ⟨h.1, h.2⟩, fun h => ⟨h.stored, h.alone⟩⟩

/-- The instant of a step. -/
def Within (start : ℕ) : IdempotencyEvent ν → Prop
  | .lookup _ now | .store _ now => start ≤ now ∧ now < start + idempotencyTtl
  | _ => True

end IdempotencyState

end Property

/-! ### The log -/

section Log

variable {ν : Type} {key key' : String} {req : IdempotentRequest} {body : Option (Json ν)}
  {log : List (IdempotencyRecord ν)} {x : IdempotencyRecord ν}

/-- One more record. -/
theorem atMostOnce_append : AtMostOnce key (log ++ [x]) ↔ AtMostOnce key log ∧
    ∀ y ∈ log, ∀ body ∈ y.completion key, x.key = key → x.Replays key body := by
  simp [AtMostOnce, List.pairwise_append]

theorem completion_completed (key : String) (req : IdempotentRequest) (body : Option (Json ν)) :
    (IdempotencyRecord.completed key req body).completion key = some body := if_pos rfl

theorem completion_of_ne (h : x.key ≠ key) : x.completion key = none := by
  cases x with
  | completed key' req body => exact if_neg h
  | missed key' req => rfl
  | replayed key' req response => rfl
  | corrupt key' req => rfl

/-- Nothing has been completed under the key. -/
def Pending (key : String) (log : List (IdempotencyRecord ν)) : Prop :=
  ∀ x ∈ log, x.completion key = none

/-- What has been completed under the key has this response. -/
structure Completed (key : String) (body : Option (Json ν)) (log : List (IdempotencyRecord ν)) :
    Prop where
  mem : ∃ x ∈ log, x.completion key = some body
  eq : ∀ x ∈ log, ∀ body' ∈ x.completion key, body' = body

/-- What one more record must be. -/
theorem Completed.atMostOnce_append (h : Completed key body log) (hlog : AtMostOnce key log)
    (hx : x.key = key) : AtMostOnce key (log ++ [x]) ↔ x.Replays key body := by
  rw [OpsHub.atMostOnce_append]
  constructor
  · intro h'
    obtain ⟨y, hy, hbody⟩ := h.mem
    exact h'.2 y hy body hbody hx
  · intro hreplays
    refine ⟨hlog, fun y hy body' hbody' _ => ?_⟩
    rw [h.eq y hy body' hbody']
    exact hreplays

theorem Pending.atMostOnce_append (h : Pending key log) (hlog : AtMostOnce key log) :
    AtMostOnce key (log ++ [x]) := by
  refine OpsHub.atMostOnce_append.2 ⟨hlog, fun y hy body hbody => ?_⟩
  rw [h y hy] at hbody
  cases hbody

section Answers

variable [NumberNotation ν] {seen : ℕ} {cached : Option String} {undefinedText : String}

/-- What a lookup records is of its key, and no completion. -/
theorem key_answer : (IdempotentCall.answer (ν := ν) key req seen cached).2.key = key := by
  unfold IdempotentCall.answer
  repeat' split
  all_goals rfl

theorem completion_answer :
    (IdempotentCall.answer (ν := ν) key req seen cached).2.completion key' = none := by
  unfold IdempotentCall.answer
  repeat' split
  all_goals rfl

/-- A lookup ends the call, or a handler begins and nothing is replayed. -/
theorem call_answer : (IdempotentCall.answer (ν := ν) key req seen cached).1 = .finished ∨
    (IdempotentCall.answer (ν := ν) key req seen cached).1 = .handling (some key) req seen ∧
      ∀ body, ¬ (IdempotentCall.answer (ν := ν) key req seen cached).2.Replays key body := by
  unfold IdempotentCall.answer
  repeat' split
  · exact Or.inr ⟨rfl, fun _ ⟨_, _, heq, _⟩ => by cases heq⟩
  · exact Or.inr ⟨rfl, fun _ ⟨_, _, heq, _⟩ => by cases heq⟩
  · exact Or.inl rfl
  · exact Or.inl rfl

/-- A lookup stores nothing. -/
theorem stores_answer :
    (IdempotentCall.answer (ν := ν) key req seen cached).1.stores key' ≠ true := by
  have hanswer : (IdempotentCall.answer (ν := ν) key req seen cached).1 = .finished ∨
      (IdempotentCall.answer (ν := ν) key req seen cached).1 = .handling (some key) req seen :=
    call_answer.imp_right And.left
  rcases hanswer with h | h <;> rw [h] <;> exact Bool.false_ne_true

/-- Nothing is replayed when nothing is cached. -/
theorem not_replays_answer_none :
    ¬ (IdempotentCall.answer (ν := ν) key req seen none).2.Replays key' body := by
  rintro ⟨_, _, heq, _⟩
  cases heq

/-- **What is cached is replayed** unless it is `undefined`, whatever the client of the cache makes
of that. -/
theorem replays_answer_iff : (IdempotentCall.answer key req seen
    (some (storedText undefinedText body))).2.Replays key body ↔ body.isSome = true := by
  cases body with
  | some response =>
    refine iff_of_true ⟨req, response, ?_, rfl⟩ rfl
    simp only [IdempotentCall.answer, storedText, if_neg (Json.stringify_ne_empty response),
      Json.parse_stringify]
  | none =>
    refine iff_of_false ?_ Bool.false_ne_true
    rintro ⟨_, _, -, heq⟩
    cases heq

end Answers

end Log

/-! ### Runs -/

namespace IdempotencyState

variable {ν : Type} {undefinedText key : String} {start : ℕ} {s s' : IdempotencyState ν}
  {call call' : IdempotentCall} {i now : ℕ} {req : IdempotentRequest} {body : Option (Json ν)}
  {x : IdempotencyRecord ν} {e : IdempotencyEvent ν}

/-- A handler has looked up before anything was completed. -/
def Early (key : String) (s : IdempotencyState ν) : Prop :=
  ∀ req seen, .handling (some key) req seen ∈ s.calls →
    seen ≤ s.log.length ∧ Pending key (s.log.take seen)

/-- A call that stores nothing takes the place of another one. -/
theorem stores_set (hi : s.calls[i]? = some call) (hcall : call.stores key ≠ true)
    (hcall' : call'.stores key ≠ true) (j : ℕ) (c : IdempotentCall) (hc : c.stores key = true) :
    (s.calls.set i call')[j]? = some c ↔ s.calls[j]? = some c := by
  by_cases hij : j = i
  · subst hij
    rw [hi, List.getElem?_set_self (List.getElem?_eq_some_iff.1 hi).1]
    refine iff_of_false (fun h => ?_) fun h => ?_
    · exact hcall' (Option.some.inj h ▸ hc)
    · exact hcall (Option.some.inj h ▸ hc)
  · rw [List.getElem?_set_ne (Ne.symm hij)]

/-- A call that stores nothing comes in. -/
theorem stores_append (hcall : call.stores key ≠ true) (j : ℕ) (c : IdempotentCall)
    (hc : c.stores key = true) : (s.calls ++ [call])[j]? = some c ↔ s.calls[j]? = some c := by
  constructor
  · intro h
    rcases Pool.get_append_cases h with ⟨-, rfl⟩ | h
    · exact absurd hc hcall
    · exact h
  · intro h
    rw [List.getElem?_append_left (List.getElem?_eq_some_iff.1 h).1]
    exact h

/-- A record that completes nothing. -/
theorem mem_log_append (hx : x.completion key = none) (y : IdempotencyRecord ν)
    (body : Option (Json ν)) (hy : y.completion key = some body) :
    y ∈ s.log ++ [x] ↔ y ∈ s.log := by
  rw [List.mem_append, List.mem_singleton]
  refine ⟨fun h => h.resolve_right fun heq => ?_, Or.inl⟩
  rw [heq, hx] at hy
  cases hy

/-- Handlers stay early when the log grows. -/
theorem Early.mono (h : s.Early key) {records : List (IdempotencyRecord ν)}
    (hlog : s'.log = s.log ++ records)
    (hcalls : ∀ req seen, .handling (some key) req seen ∈ s'.calls →
      .handling (some key) req seen ∈ s.calls ∨ (seen = s.log.length ∧ Pending key s.log)) :
    s'.Early key := by
  intro req seen hmem
  rw [hlog, List.length_append]
  rcases hcalls req seen hmem with hmem | ⟨rfl, hpending⟩
  · obtain ⟨hle, hpending⟩ := h req seen hmem
    exact ⟨Nat.le_add_right_of_le hle, by rwa [List.take_append_of_le_length hle]⟩
  · exact ⟨Nat.le_add_right _ _, by rwa [List.take_left]⟩

/-- No handler of the key is new among the calls. -/
theorem handling_set (hne : ∀ req seen, call' ≠ .handling (some key) req seen)
    (req : IdempotentRequest) (seen : ℕ)
    (hmem : .handling (some key) req seen ∈ s.calls.set i call') :
    .handling (some key) req seen ∈ s.calls ∨ (seen = s.log.length ∧ Pending key s.log) := by
  rcases List.mem_or_eq_of_mem_set hmem with hmem | heq
  · exact Or.inl hmem
  · exact absurd heq.symm (hne req seen)

variable [NumberNotation ν]

/-- Where the response of a key is: there is none yet, its store is on the way, or it is cached
until after the run. -/
inductive Phase (undefinedText key : String) (start : ℕ) (s : IdempotencyState ν) : Prop
  | waiting (log : Pending key s.log) (cache : s.cache.entries key = none)
      (calls : ∀ (j : ℕ) (call : IdempotentCall), s.calls[j]? = some call → call.stores key ≠ true)
  | storing (body : Option (Json ν)) (i : ℕ) (log : Completed key body s.log)
      (cache : s.cache.entries key = none)
      (call : s.calls[i]? = some (.storing key (storedText undefinedText body)))
      (calls : ∀ (j : ℕ) (call : IdempotentCall), s.calls[j]? = some call → call.stores key = true → j = i)
  | stored (body : Option (Json ν)) (deadline : ℕ) (log : Completed key body s.log)
      (cache : s.cache.entries key = some (storedText undefinedText body, deadline))
      (late : start + idempotencyTtl ≤ deadline)
      (calls : ∀ (j : ℕ) (call : IdempotentCall), s.calls[j]? = some call → call.stores key ≠ true)

/-- The invariant besides. -/
structure Sound (undefinedText key : String) (start : ℕ) (s : IdempotencyState ν) : Prop where
  phase : s.Phase undefinedText key start
  early : s.Early key

/-- The phase looks at what is cached, completed and to be stored under the key. -/
theorem Phase.congr (h : s.Phase undefinedText key start)
    (hcache : s'.cache.entries key = s.cache.entries key)
    (hlog : ∀ y body, y.completion key = some body → (y ∈ s'.log ↔ y ∈ s.log))
    (hcalls : ∀ (j : ℕ) (call : IdempotentCall), call.stores key = true →
      (s'.calls[j]? = some call ↔ s.calls[j]? = some call)) :
    s'.Phase undefinedText key start := by
  have hcompleted : ∀ {body}, Completed key body s.log → Completed key body s'.log := by
    rintro body ⟨⟨y, hy, hbody⟩, heq⟩
    exact ⟨⟨y, (hlog y body hbody).2 hy, hbody⟩,
      fun z hz b hb => heq z ((hlog z b hb).1 hz) b hb⟩
  have hnone : (∀ (j : ℕ) (call : IdempotentCall), s.calls[j]? = some call → call.stores key ≠ true) →
      ∀ (j : ℕ) (call : IdempotentCall), s'.calls[j]? = some call → call.stores key ≠ true :=
    fun hs j call hcall hstores => hs j call ((hcalls j call hstores).1 hcall) hstores
  cases h with
  | waiting log cache calls =>
    refine .waiting (fun y hy => ?_) (hcache.trans cache) (hnone calls)
    cases hbody : y.completion key with
    | none => rfl
    | some body =>
      rw [log y ((hlog y body hbody).1 hy)] at hbody
      cases hbody
  | storing body i log cache call calls =>
    refine .storing body i (hcompleted log) (hcache.trans cache)
      ((hcalls i (.storing key _) (decide_eq_true rfl)).2 call) fun j c hc hstores => ?_
    exact calls j c ((hcalls j c hstores).1 hc) hstores
  | stored body deadline log cache late calls =>
    exact .stored body deadline (hcompleted log) (hcache.trans cache) late (hnone calls)

/-! ### Steps -/

/-- A step that neither records nor stores. -/
theorem Sound.of_calls (h : s.Sound undefinedText key start) (hcache : s'.cache = s.cache)
    (hlog : s'.log = s.log)
    (hstores : ∀ (j : ℕ) (call : IdempotentCall), call.stores key = true →
      (s'.calls[j]? = some call ↔ s.calls[j]? = some call))
    (hhandlers : ∀ req seen, .handling (some key) req seen ∈ s'.calls →
      .handling (some key) req seen ∈ s.calls) : s'.Sound undefinedText key start where
  phase := h.phase.congr (by rw [hcache]) (fun _ _ _ => by rw [hlog]) hstores
  early := h.early.mono (hlog.trans (List.append_nil _).symm)
    fun req seen hmem => Or.inl (hhandlers req seen hmem)

instance (start : ℕ) : (e : IdempotencyEvent ν) → Decidable (Within start e)
  | .lookup _ now | .store _ now =>
    inferInstanceAs (Decidable (start ≤ now ∧ now < start + idempotencyTtl))
  | .arrive _ | .complete _ _ | .fail _ => isTrue trivial

/-- What there is to show of a step. -/
structure Exact (undefinedText key : String) (start : ℕ) (s : IdempotencyState ν)
    (e : IdempotencyEvent ν) : Prop where
  iff : AtMostOnce key (s.step undefinedText e).log ↔ s.InTurn key e
  sound : s.InTurn key e → (s.step undefinedText e).Sound undefinedText key start

/-- A step that neither looks the key up nor completes one of its handlers. -/
theorem Exact.of_other (hlooks : s.looksUp key e = false) (hmeanwhile : s.meanwhile key e = [])
    (hlog : AtMostOnce key (s.step undefinedText e).log)
    (hsound : (s.step undefinedText e).Sound undefinedText key start) :
    Exact undefinedText key start s e where
  iff := by
    refine iff_of_true hlog ⟨fun h => ?_, fun x hx => ?_⟩
    · rw [hlooks] at h
      cases h
    · rw [hmeanwhile] at hx
      cases hx
  sound _ := hsound

/-- **A request comes in.** -/
theorem exact_arrive (h : s.Sound undefinedText key start) (hlog : AtMostOnce key s.log) :
    Exact undefinedText key start s (.arrive req) := by
  have hnew : ∀ call : IdempotentCall, call.stores key ≠ true →
      (∀ req seen, call ≠ .handling (some key) req seen) →
      ({ s with calls := s.calls ++ [call] } : IdempotencyState ν).Sound undefinedText key start := by
    intro call hstores hhandler
    refine h.of_calls rfl rfl (stores_append hstores) fun req seen hmem => ?_
    rcases List.mem_append.1 hmem with hmem | hmem
    · exact hmem
    · exact absurd (List.mem_singleton.1 hmem).symm (hhandler req seen)
  cases hkey : IdempotencyInterceptor.cacheKey true req with
  | none =>
    refine .of_other rfl rfl ?_ ?_ <;> simp only [step, hkey]
    · exact hlog
    · exact hnew _ Bool.false_ne_true fun _ _ heq => by cases heq
  | some key' =>
    refine .of_other rfl rfl ?_ ?_ <;> simp only [step, hkey]
    · exact hlog
    · exact hnew _ Bool.false_ne_true fun _ _ heq => by cases heq

/-- A call that stores nothing and is no handler of the key takes the place of one that stores
nothing. -/
theorem Sound.set (h : s.Sound undefinedText key start) (hi : s.calls[i]? = some call)
    (hcall : call.stores key ≠ true) (hcall' : call'.stores key ≠ true)
    (hhandler : ∀ req seen, call' ≠ .handling (some key) req seen) :
    ({ s with calls := s.calls.set i call' } : IdempotencyState ν).Sound undefinedText key start := by
  refine h.of_calls rfl rfl (stores_set hi hcall hcall') fun req seen hmem => ?_
  rcases List.mem_or_eq_of_mem_set hmem with hmem | heq
  · exact hmem
  · exact absurd heq.symm (hhandler req seen)

/-- **A handler throws.** -/
theorem exact_fail (h : s.Sound undefinedText key start) (hlog : AtMostOnce key s.log) :
    Exact undefinedText key start s (.fail i) := by
  refine .of_other rfl rfl ?_ ?_
  · dsimp only [step]
    split <;> exact hlog
  · dsimp only [step]
    split
    · rename_i hi
      exact h.set hi Bool.false_ne_true Bool.false_ne_true fun _ _ heq => by cases heq
    · exact h

/-- **A response is stored.** -/
theorem exact_store (h : s.Sound undefinedText key start) (hlog : AtMostOnce key s.log)
    (hnow : start ≤ now) : Exact undefinedText key start s (.store i now) := by
  refine .of_other rfl rfl ?_ ?_
  · dsimp only [step]
    split <;> exact hlog
  · dsimp only [step]
    split
    · rename_i key' text hi
      have hearly : ({ s with
            cache := s.cache.set key' text (now + idempotencyTtl)
            calls := s.calls.set i .finished } : IdempotencyState ν).Early key :=
        h.early.mono (List.append_nil _).symm (handling_set fun _ _ heq => by cases heq)
      refine ⟨?_, hearly⟩
      by_cases hkey : key' = key
      · subst hkey
        have hstores : (IdempotentCall.storing key' text).stores key' = true := decide_eq_true rfl
        -- the response is on the way, and this is its store
        cases h.phase with
        | waiting log cache calls => exact absurd hstores (calls i _ hi)
        | stored body deadline log cache late calls => exact absurd hstores (calls i _ hi)
        | storing body j log cache call calls =>
          obtain rfl := calls i _ hi hstores
          rw [hi] at call
          obtain ⟨-, htext⟩ := IdempotentCall.storing.inj (Option.some.inj call)
          refine .stored body (now + idempotencyTtl) log ?_ (Nat.add_le_add_right hnow _)
            fun k c hc hstores => ?_
          · simp [TtlCache.set, htext]
          · rcases Pool.get_set_cases hc with ⟨-, rfl⟩ | ⟨hne, hc⟩
            · cases hstores
            · exact hne (calls k c hc hstores)
      · refine h.phase.congr ?_ (fun _ _ _ => Iff.rfl) (stores_set hi ?_ Bool.false_ne_true)
        · simp [TtlCache.set, Ne.symm hkey]
        · exact fun hstores => hkey (of_decide_eq_true hstores)
    · exact h

/-- A handler of the key completes: nothing has been completed before its lookup, so that all is
in what came since. -/
theorem exact_complete_own (h : s.Sound undefinedText key start) (hlog : AtMostOnce key s.log)
    {seen : ℕ} (hi : s.calls[i]? = some (.handling (some key) req seen)) :
    Exact undefinedText key start s (.complete i body) := by
  obtain ⟨hle, hearly⟩ := h.early req seen (List.mem_of_getElem? hi)
  have hturn : s.InTurn key (.complete i body) ↔ Pending key s.log := by
    constructor
    · intro hturn x hx
      rw [← List.take_append_drop seen s.log] at hx
      rcases List.mem_append.1 hx with hx | hx
      · exact hearly x hx
      · exact Option.isNone_iff_eq_none.1 (hturn.alone x (by simpa [meanwhile, hi] using hx))
    · intro hpending
      refine ⟨fun hlooks => (by cases hlooks), fun x hx => ?_⟩
      simp only [meanwhile, hi, if_true] at hx
      exact Option.isNone_iff_eq_none.2 (hpending x (List.mem_of_mem_drop hx))
  have hstep : (s.step undefinedText (.complete i body)) =
      { s with
        calls := s.calls.set i (.storing key (storedText undefinedText body))
        log := s.log ++ [.completed key req body] } := by
    simp only [step, hi]
  have hbody := completion_completed key req body
  refine ⟨?_, fun hin => ?_⟩
  · rw [hturn, hstep]
    refine ⟨fun hafter x hx => ?_, fun hpending => hpending.atMostOnce_append hlog⟩
    cases hx' : x.completion key with
    | none => rfl
    | some body' =>
      obtain ⟨_, _, heq, _⟩ := (atMostOnce_append.1 hafter).2 x hx body' hx' rfl
      cases heq
  · have hpending := hturn.1 hin
    have hnever : ∀ {body}, ¬ Completed key body s.log := by
      rintro body ⟨⟨y, hy, hyb⟩, -⟩
      rw [hpending y hy] at hyb
      cases hyb
    rw [hstep]
    refine ⟨?_, h.early.mono rfl (handling_set fun _ _ heq => by cases heq)⟩
    cases h.phase with
    | storing body j log cache call calls => exact absurd log hnever
    | stored body deadline log cache late calls => exact absurd log hnever
    | waiting log cache calls =>
      refine .storing body i ⟨⟨_, List.mem_append.2 (Or.inr List.mem_cons_self), hbody⟩, ?_⟩ cache
        (List.getElem?_set_self (List.getElem?_eq_some_iff.1 hi).1) fun j c hc hstores => ?_
      · intro x hx body' hbody'
        rcases List.mem_append.1 hx with hx | hx
        · rw [log x hx] at hbody'
          cases hbody'
        · rw [List.mem_singleton.1 hx, hbody] at hbody'
          exact (Option.some.inj hbody').symm
      · rcases Pool.get_set_cases hc with ⟨rfl, -⟩ | ⟨-, hc⟩
        · rfl
        · exact absurd hstores (calls j c hc)

/-- **A handler completes.** -/
theorem exact_complete (h : s.Sound undefinedText key start) (hlog : AtMostOnce key s.log) :
    Exact undefinedText key start s (.complete i body) := by
  rcases hi : s.calls[i]? with - | (⟨key', req⟩ | ⟨_ | key', req, seen⟩ | ⟨key', text⟩ | _)
  case some.handling.some =>
    by_cases hkey : key' = key
    · subst hkey
      exact exact_complete_own h hlog hi
    · have hrecord : (IdempotencyRecord.completed key' req body).key ≠ key := hkey
      refine .of_other rfl (by simp [meanwhile, hi, hkey]) ?_ ?_ <;> simp only [step, hi]
      · exact atMostOnce_append.2 ⟨hlog, fun _ _ _ _ hx => absurd hx hrecord⟩
      · refine ⟨h.phase.congr rfl (mem_log_append (completion_of_ne hrecord))
          (stores_set hi Bool.false_ne_true fun hstores => hkey (of_decide_eq_true hstores)),
          h.early.mono rfl (handling_set fun _ _ heq => by cases heq)⟩
  case some.handling.none =>
    refine .of_other rfl (by simp [meanwhile, hi]) ?_ ?_ <;> simp only [step, hi]
    · exact hlog
    · exact h.set hi Bool.false_ne_true Bool.false_ne_true fun _ _ heq => by cases heq
  all_goals
    refine .of_other rfl (by simp [meanwhile, hi]) ?_ ?_ <;> simp only [step, hi]
    · exact hlog
    · exact h

section Lookups

variable {key' : String} {answer : IdempotentCall × IdempotencyRecord ν}

/-- What a lookup does, and what there is to know of its answer. -/
structure Looked (undefinedText key' : String) (s : IdempotencyState ν) (i now : ℕ)
    (req : IdempotentRequest) (answer : IdempotentCall × IdempotencyRecord ν) : Prop where
  call : s.calls[i]? = some (.lookup key' req)
  eq : IdempotentCall.answer key' req s.log.length (s.cache.get now key') = answer
  step : s.step undefinedText (.lookup i now) =
    { s with calls := s.calls.set i answer.1, log := s.log ++ [answer.2] }
  record : answer.2.key = key'
  completion : ∀ key, answer.2.completion key = none
  stores : ∀ key, answer.1.stores key ≠ true
  next : answer.1 = .finished ∨ answer.1 = .handling (some key') req s.log.length ∧
    ∀ body, ¬ answer.2.Replays key' body

theorem exists_looked (hi : s.calls[i]? = some (.lookup key' req)) :
    ∃ answer, Looked undefinedText key' s i now req answer := by
  refine ⟨IdempotentCall.answer key' req s.log.length (s.cache.get now key'), hi, rfl, ?_,
    key_answer, fun _ => completion_answer, fun _ => stores_answer, call_answer⟩
  simp only [IdempotencyState.step, hi]

theorem Looked.phase (hl : Looked undefinedText key' s i now req answer)
    (h : s.Sound undefinedText key start) :
    (s.step undefinedText (.lookup i now)).Phase undefinedText key start := by
  rw [hl.step]
  exact h.phase.congr rfl (mem_log_append (hl.completion key))
    (stores_set hl.call Bool.false_ne_true (hl.stores key))

theorem Looked.looksUp (hl : Looked undefinedText key s i now req answer) :
    s.looksUp key (.lookup i now) = true := by
  simp [IdempotencyState.looksUp, hl.call]

/-- The handler that begins, if one does, has nothing completed before it. -/
theorem Looked.sound (hl : Looked undefinedText key s i now req answer)
    (h : s.Sound undefinedText key start) (hfirst : answer.1 = .finished ∨ Pending key s.log) :
    (s.step undefinedText (.lookup i now)).Sound undefinedText key start := by
  refine ⟨hl.phase h, ?_⟩
  rw [hl.step]
  refine h.early.mono rfl fun req' seen hmem => ?_
  rcases List.mem_or_eq_of_mem_set hmem with hmem | heq
  · exact Or.inl hmem
  · rcases hl.next with hcall | ⟨hcall, -⟩
    · rw [hcall] at heq
      cases heq
    · rw [hcall] at heq hfirst
      obtain ⟨-, -, rfl⟩ := IdempotentCall.handling.inj heq
      exact Or.inr ⟨rfl, hfirst.resolve_left fun heq => by cases heq⟩

/-- A lookup before anything has been completed. -/
theorem Looked.exact_waiting (hl : Looked undefinedText key s i now req answer)
    (h : s.Sound undefinedText key start) (hlog : AtMostOnce key s.log)
    (log : Pending key s.log) : Exact undefinedText key start s (.lookup i now) := by
  refine ⟨?_, fun _ => hl.sound h (Or.inr log)⟩
  rw [hl.step]
  refine iff_of_true (log.atMostOnce_append hlog) ⟨fun _ x hx body hbody => ?_, fun _ hx => ?_⟩
  · rw [log x hx] at hbody
    cases hbody
  · cases hx

/-- A lookup before the store finds nothing. -/
theorem Looked.exact_storing (hl : Looked undefinedText key s i now req answer)
    (hlog : AtMostOnce key s.log) {j : ℕ} (log : Completed key body s.log)
    (cache : s.cache.entries key = none)
    (call : s.calls[j]? = some (.storing key (storedText undefinedText body))) :
    Exact undefinedText key start s (.lookup i now) := by
  have hmissed : s.cache.get now key = none := by rw [TtlCache.get, cache]
  have hno : ¬ answer.2.Replays key body := by
    rw [← hl.eq, hmissed]
    exact not_replays_answer_none
  have hnot : ¬ s.InTurn key (.lookup i now) := by
    intro hturn
    obtain ⟨y, hy, hbody⟩ := log.mem
    have hfalse := (hturn.stored hl.looksUp y hy body hbody).2 _ (List.mem_of_getElem? call)
    rw [show (IdempotentCall.storing key (storedText undefinedText body)).stores key = true
      from decide_eq_true rfl] at hfalse
    cases hfalse
  refine ⟨?_, fun hturn => absurd hturn hnot⟩
  rw [hl.step, log.atMostOnce_append hlog hl.record]
  exact iff_of_false hno hnot

/-- A lookup after the store finds the response. -/
theorem Looked.exact_stored (hl : Looked undefinedText key s i now req answer)
    (h : s.Sound undefinedText key start) (hlog : AtMostOnce key s.log)
    (hnow : now < start + idempotencyTtl) {deadline : ℕ} (log : Completed key body s.log)
    (cache : s.cache.entries key = some (storedText undefinedText body, deadline))
    (late : start + idempotencyTtl ≤ deadline)
    (calls : ∀ (j : ℕ) (call : IdempotentCall), s.calls[j]? = some call → call.stores key ≠ true) :
    Exact undefinedText key start s (.lookup i now) := by
  have hfound : s.cache.get now key = some (storedText undefinedText body) := by
    rw [TtlCache.get, cache]
    exact if_pos (Nat.lt_of_lt_of_le hnow late)
  have hreplays : answer.2.Replays key body ↔ body.isSome = true := by
    rw [← hl.eq, hfound]
    exact replays_answer_iff
  have hturn : s.InTurn key (.lookup i now) ↔ body.isSome = true := by
    constructor
    · intro hturn
      obtain ⟨y, hy, hbody⟩ := log.mem
      exact (hturn.stored hl.looksUp y hy body hbody).1
    · intro hsome
      refine ⟨fun _ x hx body' hbody' => ⟨?_, fun c hc => ?_⟩, fun _ hx => (by cases hx)⟩
      · rw [log.eq x hx body' hbody']
        exact hsome
      · obtain ⟨j, hj⟩ := List.mem_iff_getElem?.1 hc
        exact Bool.eq_false_iff.2 (calls j c hj)
  refine ⟨?_, fun hin => hl.sound h (Or.inl (hl.next.resolve_right fun hhandler => ?_))⟩
  · rw [hl.step, log.atMostOnce_append hlog hl.record, hreplays, hturn]
  · exact hhandler.2 body (hreplays.2 (hturn.1 hin))

/-- A lookup of another key. -/
theorem Looked.exact_other (hl : Looked undefinedText key' s i now req answer) (hkey : key' ≠ key)
    (h : s.Sound undefinedText key start) (hlog : AtMostOnce key s.log) :
    Exact undefinedText key start s (.lookup i now) := by
  refine .of_other (by simp [IdempotencyState.looksUp, hl.call, hkey]) rfl ?_ ⟨hl.phase h, ?_⟩ <;>
    rw [hl.step]
  · exact atMostOnce_append.2 ⟨hlog, fun _ _ _ _ hx => absurd (hl.record.symm.trans hx) hkey⟩
  · refine h.early.mono rfl (handling_set fun req' seen heq => ?_)
    rcases hl.next with hcall | ⟨hcall, -⟩
    · rw [hcall] at heq
      cases heq
    · rw [hcall] at heq
      exact hkey (Option.some.inj (IdempotentCall.handling.inj heq).1)

end Lookups

/-- **A lookup.** -/
theorem exact_lookup (h : s.Sound undefinedText key start) (hlog : AtMostOnce key s.log)
    (hnow : now < start + idempotencyTtl) : Exact undefinedText key start s (.lookup i now) := by
  rcases hi : s.calls[i]? with - | (⟨key', req⟩ | ⟨_, req, seen⟩ | ⟨key', text⟩ | _)
  case some.lookup =>
    obtain ⟨answer, hl⟩ := @exists_looked ν undefinedText s i now req _ key' hi
    by_cases hkey : key' = key
    · subst hkey
      cases h.phase with
      | waiting log cache calls => exact hl.exact_waiting h hlog log
      | storing body j log cache call calls => exact hl.exact_storing hlog log cache call
      | stored body deadline log cache late calls =>
        exact hl.exact_stored h hlog hnow log cache late calls
    · exact hl.exact_other hkey h hlog
  all_goals
    refine .of_other (by simp [looksUp, hi]) rfl ?_ ?_ <;> simp only [step, hi]
    · exact hlog
    · exact h

/-- **The step lemma.** -/
theorem exact_step (hnow : Within start e) (h : s.Sound undefinedText key start)
    (hlog : AtMostOnce key s.log) : Exact undefinedText key start s e := by
  cases e with
  | arrive req => exact exact_arrive h hlog
  | lookup i now => exact exact_lookup h hlog hnow.2
  | complete i body => exact exact_complete h hlog
  | fail i => exact exact_fail h hlog
  | store i now => exact exact_store h hlog hnow.1

/-- **At most once.**  In a run that takes no longer than the time to live of the cache, a key's
handler completes at most once, and every later lookup replays its response, exactly if the
requests of the key are in turn. -/
theorem always_atMostOnce_iff (undefinedText key : String) (start : ℕ)
    (es : List (IdempotencyEvent ν)) (hnow : ∀ e ∈ es, Within start e) :
    (∀ fs, fs <+: es →
      AtMostOnce key (Runs.run (step undefinedText) ({} : IdempotencyState ν) fs).log) ↔
      Runs.Meets (step undefinedText) (InTurn key) ({} : IdempotencyState ν) es := by
  have hsound : Sound undefinedText key start ({} : IdempotencyState ν) :=
    { phase := .waiting (fun _ hx => absurd hx List.not_mem_nil) rfl fun _ _ hc => (by cases hc)
      early := fun _ _ hmem => absurd hmem List.not_mem_nil }
  exact @Runs.always_iff_meets_of _ _ (step undefinedText) (InTurn key) (Within start)
    (Sound undefinedText key start) (fun s => AtMostOnce key s.log)
    (fun _ _ he hs hlog => (exact_step he hs hlog).iff)
    (fun _ _ he hs hlog hturn => (exact_step he hs hlog).sound hturn) _ _ hnow hsound
    List.Pairwise.nil

namespace Sample

/-- A request that user 1 makes and repeats. -/
def request : IdempotentRequest :=
  { method := "POST", idempotencyKey := some "k", userSub := some "1" }

/-- The response to it. -/
def response : Json ℕ := .obj [("id", .num 7)]

/-- The state after a run; the client of the cache stores `undefined` as an empty text. -/
def after (es : List (IdempotencyEvent ℕ)) : IdempotencyState ℕ := Runs.run (step "") {} es

/-- Both requests find nothing, and both handlers complete. -/
def overlapping : List (IdempotencyEvent ℕ) :=
  [.arrive request, .arrive request, .lookup 0 0, .lookup 1 0, .complete 0 (some response),
    .complete 1 (some response)]

/-- The second request comes before the response of the first one is stored. -/
def hasty : List (IdempotencyEvent ℕ) :=
  [.arrive request, .lookup 0 0, .complete 0 (some response), .arrive request, .lookup 1 0]

/-- The handler returns nothing. -/
def silent : List (IdempotencyEvent ℕ) :=
  [.arrive request, .lookup 0 0, .complete 0 none, .store 0 0, .arrive request, .lookup 1 0]

/-- The second request comes when the response of the first one is stored. -/
def orderly : List (IdempotencyEvent ℕ) :=
  [.arrive request, .lookup 0 0, .complete 0 (some response), .store 0 0, .arrive request,
    .lookup 1 1000]

/-- The `j`th record of a log comes after the `i`th, which is a completion, and is no replay. -/
def breaks (key : String) (log : List (IdempotencyRecord ℕ)) (i j : ℕ) : Bool :=
  (log[i]?.any fun y => (y.completion key).isSome) &&
    (log[j]?.any fun x => decide (x.key = key) && !x.isReplay) && decide (i < j)

theorem not_atMostOnce_of_breaks {key : String} {log : List (IdempotencyRecord ℕ)} {i j : ℕ}
    (h : breaks key log i j = true) : ¬ AtMostOnce key log := by
  intro hlog
  simp only [breaks, Bool.and_eq_true, decide_eq_true_eq, Option.any_eq_true] at h
  obtain ⟨⟨⟨y, hy, hsome⟩, x, hx, hkey, hreplay⟩, hij⟩ := h
  obtain ⟨hi, hyi⟩ := List.getElem?_eq_some_iff.1 hy
  obtain ⟨hj, hxj⟩ := List.getElem?_eq_some_iff.1 hx
  obtain ⟨body, hbody⟩ := Option.isSome_iff_exists.1 hsome
  obtain ⟨req, response, heq, -⟩ := List.pairwise_iff_getElem.1 hlog i j hi hj hij body
    (by rw [hyi]; exact hbody) (by rw [hxj]; exact hkey)
  rw [hxj] at heq
  rw [heq] at hreplay
  cases hreplay

/-- In each of the three runs, something under the key follows a completion and is no replay of
it. -/
theorem not_atMostOnce :
    ¬ AtMostOnce "idem:1:k" (after overlapping).log ∧ ¬ AtMostOnce "idem:1:k" (after hasty).log ∧
      ¬ AtMostOnce "idem:1:k" (after silent).log := by
  refine ⟨not_atMostOnce_of_breaks (i := 2) (j := 3) ?_, not_atMostOnce_of_breaks (i := 1) (j := 2) ?_,
    not_atMostOnce_of_breaks (i := 1) (j := 2) ?_⟩ <;> decide +kernel

/-- In the orderly run the second request is answered from the cache. -/
theorem always_atMostOnce_orderly :
    (after orderly).log.any (fun x => x.isReplay) = true ∧
      ∀ fs, fs <+: orderly → AtMostOnce "idem:1:k" (after fs).log := by
  refine ⟨by decide +kernel, ?_⟩
  exact (always_atMostOnce_iff "" "idem:1:k" 0 orderly (by decide)).2 (by decide +kernel)

end Sample

end IdempotencyState

end OpsHub
