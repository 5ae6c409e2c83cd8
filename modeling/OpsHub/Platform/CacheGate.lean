import Mathlib.Data.List.Induction
import OpsHub.Identity.Sessions
import OpsHub.Platform.Idempotency
import OpsHub.RateLimit.RateLimitGuard

/-!
# The gate of the cache

`CacheService.isAvailable`, and what three components of the API process make of it from the start
of the process on: `RateLimitGuard`, `JwtStrategy` and `IdempotencyInterceptor`.

* `RedisClient`: the connection of `ioredis`, which the first command opens;
* `ApiProcess`, `step`: requests, guard by guard, the commands of handlers and relays, and the
  progress of the connection;
* `GateHolds`: no check has been left out for want of the cache, and no revoked token accepted;
* `WarmedUp`: no request but a health check arrives before a relay or a cron of the process has
  published and the connection has become ready;
* `always_gateHolds_iff`: that is what it takes;
* `not_gateHolds`: the first request of a fresh process.
-/

namespace OpsHub

/-! ### The client of Redis -/

/-- `Redis.status`. -/
inductive RedisStatus
  | wait
  | connecting
  | connect
  | ready
  deriving DecidableEq, Repr

/-- What the status depends on. -/
inductive ConnectionSignal
  | command
  | connect
  | ready
  deriving DecidableEq, Repr

/-- With `lazyConnect`, the first command connects. -/
def RedisStatus.next : RedisStatus → ConnectionSignal → RedisStatus
  | .wait, .command => .connecting
  | .connecting, .connect => .connect
  | .connect, .ready => .ready
  | status, _ => status

/-- What is still to come before the client is ready, in this order. -/
def RedisStatus.awaited : RedisStatus → List ConnectionSignal
  | .wait => [.command, .connect, .ready]
  | .connecting => [.connect, .ready]
  | .connect => [.ready]
  | .ready => []

/-- A command, with what it does to the marks `revoked:…`, whose value is always `'1'`. -/
inductive CacheCommand
  | setRevoked (key : RevocationKey) (ttlSeconds : ℕ)
  | delRevoked (key : RevocationKey)
  | other
  deriving DecidableEq, Repr

/-- The effect of a command on the server. -/
def CacheCommand.apply (now : ℕ) (denylist : TtlCache RevocationKey Unit) :
    CacheCommand → TtlCache RevocationKey Unit
  | .setRevoked key ttlSeconds => denylist.set key () (now + ttlSeconds * 1000)
  | .delRevoked key => denylist.del key
  | .other => denylist

/-- The client: commands wait in the queue until it is ready. -/
structure RedisClient where
  status : RedisStatus := .wait
  offlineQueue : List CacheCommand := []
  deriving DecidableEq, Repr

/-- `CacheService.onModuleInit`. -/
def CacheService.onModuleInit (url : Option String) : Option RedisClient :=
  match url with
  | some url => if url = "" then none else some {}
  | none => none

/-- `CacheService.isAvailable`. -/
def CacheService.isAvailable (client : Option RedisClient) : Bool :=
  match client with
  | some client => decide (client.status = .ready)
  | none => false

/-! ### `JwtStrategy` -/

/-- One of the keys of a token is in Redis. -/
def Revoked (denylist : TtlCache RevocationKey Unit) (now : ℕ) (payload : AccessToken) : Prop :=
  (denylist.get now (.session payload.jti)).isSome ∨ (denylist.get now (.employee payload.sub)).isSome

instance (denylist : TtlCache RevocationKey Unit) (now : ℕ) (payload : AccessToken) :
    Decidable (Revoked denylist now payload) :=
  inferInstanceAs (Decidable (_ ∨ _))

/-- `JwtStrategy.validate`. -/
def JwtStrategy.validate (isAvailable : Bool) (denylist : TtlCache RevocationKey Unit) (now : ℕ)
    (payload : AccessToken) : Except Failure AccessToken :=
  if isAvailable = true ∧ Revoked denylist now payload then
    .error (.unauthorized "AUTH_TOKEN_INVALID" "Session has been revoked")
  else .ok payload

/-! ### Requests -/

/-- The guards of a controller that the cache matters to. -/
inductive RouteGuard
  | jwtAuth
  | policy
  deriving DecidableEq, Repr

/-- A route: the health checks, or a method of another controller with its tier and its guards. -/
inductive Route
  | healthz
  | readyz
  | api (method : String) (tier : Option RateLimitTierName) (guards : List RouteGuard)
  deriving DecidableEq, Repr

namespace Route

/-- Only `HealthController` carries `@SkipRateLimit()`. -/
def metadata : Route → RateLimitMetadata
  | .healthz | .readyz => { skipRateLimit := true }
  | .api _ tier _ => { rateLimitTier := tier }

/-- Whether `RateLimitGuard` looks at the requests of the route. -/
def rateLimited (route : Route) : Bool := !route.metadata.skipRateLimit

def method : Route → String
  | .healthz | .readyz => "GET"
  | .api method _ _ => method

def guards : Route → List RouteGuard
  | .healthz | .readyz => []
  | .api _ _ guards => guards

end Route

/-- A request; `bearer` holds the claims of its token when the signature is good. -/
structure ApiRequest where
  route : Route
  http : HttpRequest := {}
  bearer : Option AccessToken := none
  idempotencyKey : Option String := none
  deriving DecidableEq, Repr

/-- What is left of a request after `RateLimitGuard`. -/
inductive Stage
  | guard (g : RouteGuard)
  | idempotency
  | handler
  deriving DecidableEq, Repr

/-- The stages of a request, in the order of Nest: guards, interceptors, handler. -/
def ApiRequest.stages (req : ApiRequest) : List Stage :=
  req.route.guards.map .guard ++ [.idempotency, .handler]

/-- `request.user`, once the guards have let the request pass. -/
def ApiRequest.user (req : ApiRequest) : Option AccessToken :=
  if RouteGuard.jwtAuth ∈ req.route.guards then req.bearer else none

/-- The request as `IdempotencyInterceptor` reads it. -/
def ApiRequest.idempotent (req : ApiRequest) : IdempotentRequest where
  method := req.route.method
  idempotencyKey := req.idempotencyKey
  userSub := req.user.map fun user => toString user.sub
  ip := req.http.ip

/-- A request in flight. -/
structure ApiCall where
  req : ApiRequest
  pending : List Stage
  deriving DecidableEq, Repr

/-! ### The process -/

/-- What a component did about the cache: the outcome of `RateLimitGuard`; a token, whether the
gate was open, whether a key of it was in Redis and whether it was accepted; the lookup of an
idempotency key. -/
inductive GateRecord
  | rateLimit (outcome : RateLimitOutcome)
  | revocation (isAvailable : Bool) (payload : AccessToken) (revoked accepted : Bool)
  | idempotency (isAvailable : Bool)
  deriving DecidableEq, Repr

/-- A check has been made, and no revoked token has been accepted. -/
def GateRecord.Checked : GateRecord → Prop
  | .rateLimit outcome => outcome ≠ .unavailable
  | .revocation isAvailable _ revoked accepted =>
    isAvailable = true ∧ ¬ (revoked = true ∧ accepted = true)
  | .idempotency isAvailable => isAvailable = true

instance : ∀ r : GateRecord, Decidable r.Checked
  | .rateLimit _ => inferInstanceAs (Decidable (_ ≠ _))
  | .revocation _ _ _ _ => inferInstanceAs (Decidable (_ ∧ _))
  | .idempotency _ => inferInstanceAs (Decidable (_ = _))

/-- The API process, and what it uses of Redis. -/
structure ApiProcess where
  client : Option RedisClient
  denylist : TtlCache RevocationKey Unit
  counters : RateLimitStore
  calls : List ApiCall := []
  log : List GateRecord := []

/-- A request arrives at `RateLimitGuard`, or goes through its next stage; a handler, or a relay or
a cron of the process, sends a command; the client connects or becomes ready. -/
inductive ApiEvent
  | arrive (req : ApiRequest) (e : Evaluation)
  | advance (i : ℕ) (now : ℕ) (permitted : Bool) (replayed : Bool)
  | command (i : ℕ) (c : CacheCommand) (now : ℕ)
  | publish (now : ℕ)
  | connect
  | ready (now : ℕ)
  deriving DecidableEq, Repr

namespace ApiProcess

/-- The process after `onModuleInit`; what is in Redis comes from the processes before. -/
def start (url : Option String) (denylist : TtlCache RevocationKey Unit)
    (counters : RateLimitStore) : ApiProcess where
  client := CacheService.onModuleInit url
  denylist := denylist
  counters := counters

/-- Whether the gate is open. -/
def isAvailable (s : ApiProcess) : Bool := CacheService.isAvailable s.client

/-- Send a command. -/
def issue (s : ApiProcess) (c : CacheCommand) (now : ℕ) : ApiProcess :=
  match s.client with
  | none => s
  | some client =>
    if client.status = .ready then { s with denylist := c.apply now s.denylist }
    else
      { s with
        client := some
          { status := client.status.next .command, offlineQueue := client.offlineQueue ++ [c] } }

/-- A call makes a record and goes on with `pending`. -/
def record (s : ApiProcess) (i : ℕ) (call : ApiCall) (pending : List Stage)
    (records : List GateRecord) : ApiProcess :=
  { s with calls := s.calls.set i { call with pending := pending }, log := s.log ++ records }

/-- The next stage of a call; after a refusal or a replay nothing is left of it. -/
def stage (s : ApiProcess) (i : ℕ) (call : ApiCall) (rest : List Stage) (now : ℕ)
    (permitted replayed : Bool) : Stage → ApiProcess
  | .guard .jwtAuth =>
    match call.req.bearer with
    | some payload =>
      if now / 1000 < payload.exp then
        let accepted := (JwtStrategy.validate s.isAvailable s.denylist now payload).toOption.isSome
        s.record i call (if accepted then rest else [])
          [.revocation s.isAvailable payload (decide (Revoked s.denylist now payload)) accepted]
      else s.record i call [] []
    | none => s.record i call [] []
  | .guard .policy =>
    -- `AuthzService.resolve` asks the cache without looking at the gate
    (s.issue .other now).record i call (if permitted then rest else []) []
  | .idempotency =>
    if IdempotencyInterceptor.cacheKey true call.req.idempotent = none then s.record i call rest []
    else
      s.record i call (if s.isAvailable = true ∧ replayed = true then [] else rest)
        [.idempotency s.isAvailable]
  | .handler => s.record i call [] []

/-- Whether a handler may send commands: `healthz` does not, `readyz` looks at the gate first. -/
def sends (s : ApiProcess) (call : ApiCall) : Bool :=
  decide (call.pending = [.handler]) &&
    match call.req.route with
    | .healthz => false
    | .readyz => s.isAvailable
    | .api _ _ _ => true

/-- The connection makes progress; a client that becomes ready sends what is in the queue. -/
def progress (s : ApiProcess) (signal : ConnectionSignal) (now : ℕ) : ApiProcess :=
  match s.client with
  | none => s
  | some client =>
    let status := client.status.next signal
    if status = .ready then
      { s with
        client := some { status := status }
        denylist := client.offlineQueue.foldl (CacheCommand.apply now) s.denylist }
    else { s with client := some { client with status := status } }

/-- The process after an event. -/
def step (digest : String → String) (s : ApiProcess) : ApiEvent → ApiProcess
  | .arrive req e =>
    let (counters, outcome) :=
      RateLimitGuard.canActivate digest s.isAvailable req.route.metadata req.http e s.counters
    { s with
      counters := counters
      calls := s.calls ++ [⟨req, if outcome.proceeds then req.stages else []⟩]
      log := s.log ++ [.rateLimit outcome] }
  | .advance i now permitted replayed =>
    match s.calls[i]? with
    | some call =>
      match call.pending with
      | [] => s
      | next :: rest => s.stage i call rest now permitted replayed next
    | none => s
  | .command i c now =>
    match s.calls[i]? with
    | some call => if s.sends call then s.issue c now else s
    | none => s
  | .publish now => s.issue .other now
  | .connect => s.progress .connect 0
  | .ready now => s.progress .ready now

/-- No check has been left out, and no revoked token accepted. -/
def GateHolds (s : ApiProcess) : Prop := ∀ r ∈ s.log, r.Checked

instance (s : ApiProcess) : Decidable s.GateHolds :=
  inferInstanceAs (Decidable (∀ r ∈ s.log, r.Checked))

/-! ### The condition -/

end ApiProcess

/-- What an event tells the connection without any request: relays and crons publish. -/
def ApiEvent.signal : ApiEvent → Option ConnectionSignal
  | .publish _ => some .command
  | .connect => some .connect
  | .ready _ => some .ready
  | _ => none

/-- Whether an event is the arrival of a request that is not a health check. -/
def ApiEvent.limitedArrival : ApiEvent → Bool
  | .arrive req _ => req.route.rateLimited
  | _ => false

/-- Before every request that is not a health check, a relay or a cron of the process has published
and the connection has become ready. -/
def WarmedUp (es : List ApiEvent) : Prop :=
  ∀ n < es.length, (es[n]?).any ApiEvent.limitedArrival = true →
    List.Sublist [ConnectionSignal.command, .connect, .ready] ((es.take n).filterMap ApiEvent.signal)

instance (es : List ApiEvent) : Decidable (WarmedUp es) :=
  inferInstanceAs (Decidable (∀ n < es.length, _ → _))

theorem warmedUp_nil : WarmedUp [] := fun _ hn => absurd hn (Nat.not_lt_zero _)

theorem warmedUp_append {es : List ApiEvent} {e : ApiEvent} : WarmedUp (es ++ [e]) ↔ WarmedUp es ∧
    (e.limitedArrival = true →
      List.Sublist [ConnectionSignal.command, .connect, .ready] (es.filterMap ApiEvent.signal)) := by
  constructor
  · intro h
    refine ⟨fun n hn he => ?_, fun he => ?_⟩
    · have hn' := h n (by rw [List.length_append]; omega)
      rw [List.getElem?_append_left hn, List.take_append_of_le_length (Nat.le_of_lt hn)] at hn'
      exact hn' he
    · have hlast := h es.length (by simp)
      rw [List.getElem?_concat_length, List.take_left] at hlast
      exact hlast he
  · rintro ⟨hes, he⟩ n hn hevent
    rw [List.length_append, List.length_singleton] at hn
    rcases Nat.lt_succ_iff_lt_or_eq.1 hn with hlt | rfl
    · rw [List.getElem?_append_left hlt] at hevent
      rw [List.take_append_of_le_length (Nat.le_of_lt hlt)]
      exact hes n hlt hevent
    · rw [List.getElem?_concat_length] at hevent
      rw [List.take_left]
      exact he hevent

/-! ### The connection -/

namespace RedisStatus

variable {status : RedisStatus} {signal : ConnectionSignal}

@[simp] theorem next_ready (signal : ConnectionSignal) : ready.next signal = ready := by
  cases signal <;> rfl

/-- What is awaited after a signal. -/
theorem awaited_next (status : RedisStatus) (signal : ConnectionSignal)
    (signals : List ConnectionSignal) :
    List.Sublist (status.next signal).awaited signals ↔
      List.Sublist status.awaited (signal :: signals) := by
  have hne {a b : ConnectionSignal} (h : a ≠ b) (l : List ConnectionSignal) :
      List.Sublist (a :: l) (b :: signals) ↔ List.Sublist (a :: l) signals := by
    rw [List.sublist_cons_iff]
    refine ⟨fun hor => hor.resolve_right ?_, Or.inl⟩
    rintro ⟨r, heq, -⟩
    exact h (List.cons.inj heq).1
  cases status <;> cases signal <;> simp [next, awaited, hne, List.cons_sublist_cons]

/-- **The client is ready** exactly if what it awaits has come, in this order. -/
theorem foldl_next_eq_ready_iff (status : RedisStatus) (signals : List ConnectionSignal) :
    signals.foldl next status = ready ↔ List.Sublist status.awaited signals := by
  induction signals generalizing status with
  | nil => cases status <;> simp [awaited]
  | cons signal signals ih => rw [List.foldl_cons, ih, awaited_next]

end RedisStatus

/-! ### Single steps -/

/-- The guard lets a request pass for want of the cache exactly if there is none. -/
theorem RateLimitGuard.canActivate_eq_unavailable_iff {digest : String → String}
    {isAvailable : Bool} {route : RateLimitMetadata} {req : HttpRequest} {e : Evaluation}
    {store : RateLimitStore} :
    (RateLimitGuard.canActivate digest isAvailable route req e store).2 = .unavailable ↔
      route.skipRateLimit = false ∧ isAvailable = false := by
  unfold RateLimitGuard.canActivate
  cases route.skipRateLimit <;> cases isAvailable <;> simp [RateLimitTier.outcome]
  split
  · exact nofun
  · split <;> exact nofun

/-- With the gate open no revoked token is accepted. -/
theorem JwtStrategy.validate_true {denylist : TtlCache RevocationKey Unit} {now : ℕ}
    {payload : AccessToken} :
    (JwtStrategy.validate true denylist now payload).toOption.isSome = true ↔
      ¬ Revoked denylist now payload := by
  unfold JwtStrategy.validate
  by_cases h : Revoked denylist now payload <;> simp [h, Except.toOption]

/-- With the gate open, `validate` is the one of the sessions. -/
theorem Sessions.validate_eq (s : Sessions.State) (token : AccessToken) :
    Sessions.validate s token = (do
      Outcome.require (s.now / 1000 < token.exp) (.unauthorized "UNAUTHORIZED" "jwt expired")
      JwtStrategy.validate true s.denylist s.now token) := by
  unfold Sessions.validate JwtStrategy.validate Revoked
  by_cases hsession : s.denylist.get s.now (.session token.jti) = none <;>
    by_cases hemployee : s.denylist.get s.now (.employee token.sub) = none <;>
      simp [Outcome.require, hsession, hemployee, Option.isSome_iff_ne_none]

namespace ApiProcess

variable {digest : String → String} {s : ApiProcess} {call : ApiCall} {req : ApiRequest}
  {next : Stage} {rest : List Stage} {e : ApiEvent}

/-- The status of the client. -/
def status (s : ApiProcess) : Option RedisStatus := s.client.map RedisClient.status

theorem isAvailable_iff : s.isAvailable = true ↔ s.status = some .ready := by
  unfold isAvailable CacheService.isAvailable status
  cases s.client <;> simp

/-- The first command connects. -/
theorem status_issue (s : ApiProcess) (c : CacheCommand) (now : ℕ) :
    (s.issue c now).status = s.status.map (·.next .command) := by
  unfold issue status
  cases hclient : s.client with
  | none => simp [hclient]
  | some client =>
    by_cases hready : client.status = .ready
    · simp [hready]
    · simp [hready]

theorem status_progress (s : ApiProcess) (signal : ConnectionSignal) (now : ℕ) :
    (s.progress signal now).status = s.status.map (·.next signal) := by
  unfold progress status
  cases hclient : s.client with
  | none => simp [hclient]
  | some client =>
    dsimp only
    split <;> rfl

/-- A command changes nothing about a client that is ready. -/
theorem status_issue_of_isAvailable (h : s.isAvailable = true) (c : CacheCommand) (now : ℕ) :
    (s.issue c now).status = s.status := by
  rw [status_issue, isAvailable_iff.1 h, Option.map_some, RedisStatus.next_ready]

@[simp] theorem calls_issue (s : ApiProcess) (c : CacheCommand) (now : ℕ) :
    (s.issue c now).calls = s.calls := by
  unfold issue
  split
  · rfl
  · split <;> rfl

@[simp] theorem log_issue (s : ApiProcess) (c : CacheCommand) (now : ℕ) :
    (s.issue c now).log = s.log := by
  unfold issue
  split
  · rfl
  · split <;> rfl

@[simp] theorem calls_progress (s : ApiProcess) (signal : ConnectionSignal) (now : ℕ) :
    (s.progress signal now).calls = s.calls := by
  unfold progress
  split
  · rfl
  · dsimp only
    split <;> rfl

@[simp] theorem log_progress (s : ApiProcess) (signal : ConnectionSignal) (now : ℕ) :
    (s.progress signal now).log = s.log := by
  unfold progress
  split
  · rfl
  · dsimp only
    split <;> rfl

/-! ### The invariant -/

/-- Calls are at a stage of their request, and only health checks are in flight before the client
is ready. -/
structure InOrder (s : ApiProcess) : Prop where
  client : s.status.isSome = true
  stages : ∀ call ∈ s.calls, call.pending <:+ call.req.stages
  limited : ∀ call ∈ s.calls, call.req.route.rateLimited = true → s.isAvailable = true

/-- Health checks have no guards, and keys are for methods that change something. -/
theorem stages_of_not_rateLimited (h : req.route.rateLimited = false) :
    req.stages = [.idempotency, .handler] ∧
      IdempotencyInterceptor.cacheKey true req.idempotent = none := by
  have hget : "GET".toUpper ∉ idempotentMethods := by decide +kernel
  obtain ⟨route, http, bearer, idempotencyKey⟩ := req
  cases route with
  | healthz => exact ⟨rfl, if_neg hget⟩
  | readyz => exact ⟨rfl, if_neg hget⟩
  | api method tier guards => cases h

/-- **One stage** of a call in order: its records are good, and the client stays as it is. -/
theorem stage_spec (i now : ℕ) (permitted replayed : Bool)
    (hlimited : call.req.route.rateLimited = true → s.isAvailable = true)
    (hpending : next :: rest <:+ call.req.stages) :
    ∃ (t : ApiProcess) (pending : List Stage) (records : List GateRecord),
      s.stage i call rest now permitted replayed next = t.record i call pending records ∧
        (t.status = s.status ∧ t.calls = s.calls ∧ t.log = s.log) ∧
        (pending = [] ∨ pending = rest) ∧ ∀ r ∈ records, r.Checked := by
  have havailable (h : next ≠ .idempotency ∧ next ≠ .handler) : s.isAvailable = true := by
    refine hlimited (by_contra fun hne => ?_)
    have hmem := hpending.subset List.mem_cons_self
    rw [(stages_of_not_rateLimited (Bool.eq_false_iff.2 hne)).1] at hmem
    simp [h] at hmem
  cases next with
  | guard g =>
    have hready := havailable ⟨nofun, nofun⟩
    cases g with
    | jwtAuth =>
      unfold stage
      dsimp only
      split
      · rename_i payload _
        split
        · refine ⟨s, _, _, rfl, ⟨rfl, rfl, rfl⟩, ?_, fun r hr => ?_⟩
          · split
            · exact Or.inr rfl
            · exact Or.inl rfl
          · rw [List.mem_singleton.1 hr]
            refine ⟨hready, ?_⟩
            rw [hready, JwtStrategy.validate_true, decide_eq_true_iff]
            exact fun h => h.2 h.1
        · exact ⟨s, [], [], rfl, ⟨rfl, rfl, rfl⟩, Or.inl rfl, nofun⟩
      · exact ⟨s, [], [], rfl, ⟨rfl, rfl, rfl⟩, Or.inl rfl, nofun⟩
    | policy =>
      refine ⟨s.issue .other now, _, [], rfl, ⟨?_, calls_issue _ _ _, log_issue _ _ _⟩, ?_, nofun⟩
      · exact status_issue_of_isAvailable hready _ _
      · cases permitted
        · exact Or.inl rfl
        · exact Or.inr rfl
  | idempotency =>
    unfold stage
    dsimp only
    split
    · exact ⟨s, rest, [], rfl, ⟨rfl, rfl, rfl⟩, Or.inr rfl, nofun⟩
    · rename_i hkey
      refine ⟨s, _, _, rfl, ⟨rfl, rfl, rfl⟩, ?_, fun r hr => ?_⟩
      · split
        · exact Or.inl rfl
        · exact Or.inr rfl
      · rw [List.mem_singleton.1 hr]
        refine hlimited (by_contra fun hne => hkey ?_)
        exact (stages_of_not_rateLimited (Bool.eq_false_iff.2 hne)).2
  | handler => exact ⟨s, [], [], rfl, ⟨rfl, rfl, rfl⟩, Or.inl rfl, nofun⟩

/-- The condition on a step. -/
def OnTime (s : ApiProcess) (e : ApiEvent) : Prop := e.limitedArrival = true → s.isAvailable = true

/-- What keeps a process in order. -/
theorem InOrder.of_status {s' : ApiProcess} (h : s.InOrder) (signal : Option ConnectionSignal)
    (hstatus : s'.status = signal.elim s.status (fun signal => s.status.map (·.next signal)))
    (hcalls : ∀ call ∈ s'.calls, call ∈ s.calls ∨
      call.pending <:+ call.req.stages ∧ (call.req.route.rateLimited = true → s.isAvailable = true)) :
    s'.InOrder := by
  have hmono (hready : s.isAvailable = true) : s'.isAvailable = true := by
    rw [isAvailable_iff] at hready ⊢
    rw [hstatus, hready]
    cases signal <;> simp
  refine ⟨?_, fun call hcall => ?_, fun call hcall hlimited => hmono ?_⟩
  · rw [hstatus]
    cases signal <;> simp [h.client]
  · rcases hcalls call hcall with hcall | hcall
    · exact h.stages call hcall
    · exact hcall.1
  · rcases hcalls call hcall with hcall | hcall
    · exact h.limited call hcall hlimited
    · exact hcall.2 hlimited

/-- A step to `s'` adds records that are good, its signal is all that moves the connection, and the
process stays in order. -/
structure StepSpec (s : ApiProcess) (signal : Option ConnectionSignal) (s' : ApiProcess) : Prop where
  log : ∃ records, s'.log = s.log ++ records ∧ ∀ r ∈ records, r.Checked
  status : s'.status = signal.elim s.status (fun signal => s.status.map (·.next signal))
  inOrder : s'.InOrder

/-- A step that does nothing. -/
theorem StepSpec.idle (h : s.InOrder) : StepSpec s none s :=
  ⟨⟨[], (List.append_nil _).symm, nofun⟩, rfl, h⟩

/-- A step that moves the connection only. -/
theorem StepSpec.of_signal {s' : ApiProcess} {signal : Option ConnectionSignal} (h : s.InOrder)
    (hstatus : s'.status = signal.elim s.status (fun signal => s.status.map (·.next signal)))
    (hcalls : s'.calls = s.calls) (hlog : s'.log = s.log) : StepSpec s signal s' where
  log := ⟨[], by rw [hlog, List.append_nil], nofun⟩
  status := hstatus
  inOrder := h.of_status signal hstatus fun _ hcall => Or.inl (hcalls ▸ hcall)

/-- A request that comes on time. -/
theorem stepSpec_arrive {e : Evaluation} (h : s.InOrder) (hok : s.OnTime (.arrive req e)) :
    StepSpec s none (step digest s (.arrive req e)) := by
  refine ⟨⟨_, rfl, fun r hr => ?_⟩, rfl, h.of_status none rfl fun call hcall => ?_⟩
  · rw [List.mem_singleton.1 hr]
    intro hunavailable
    obtain ⟨hlimited, hclosed⟩ := RateLimitGuard.canActivate_eq_unavailable_iff.1 hunavailable
    rw [hok (by simp [ApiEvent.limitedArrival, Route.rateLimited, hlimited])] at hclosed
    cases hclosed
  · rcases List.mem_append.1 hcall with hcall | hcall
    · exact Or.inl hcall
    · rw [List.mem_singleton.1 hcall]
      have hsuffix (p : Prop) [Decidable p] : (if p then req.stages else []) <:+ req.stages := by
        split
        · exact List.suffix_refl _
        · exact List.nil_suffix
      exact Or.inr ⟨hsuffix _, hok⟩

/-- The next stage of a call. -/
theorem stepSpec_advance (i now : ℕ) (permitted replayed : Bool) (h : s.InOrder) :
    StepSpec s none (step digest s (.advance i now permitted replayed)) := by
  simp only [step]
  split
  · rename_i call hcall
    have hmem := List.mem_of_getElem? hcall
    split
    · exact .idle h
    · rename_i next rest hpending
      have hsuffix := hpending ▸ h.stages call hmem
      obtain ⟨t, pending, records, hstage, ⟨hstatus, hcalls, hlog⟩, hrest, hgood⟩ :=
        stage_spec i now permitted replayed (h.limited call hmem) hsuffix
      rw [hstage]
      refine ⟨⟨records, congrArg (· ++ records) hlog, hgood⟩, hstatus,
        h.of_status none hstatus fun call' hcall' => ?_⟩
      rw [record, hcalls] at hcall'
      rcases List.mem_or_eq_of_mem_set hcall' with hcall' | rfl
      · exact Or.inl hcall'
      · refine Or.inr ⟨?_, h.limited call hmem⟩
        rcases hrest with rfl | rfl
        · exact List.nil_suffix
        · exact (List.suffix_cons _ _).trans hsuffix
  · exact .idle h

/-- A command of a call: `readyz` looks at the gate, and the others have passed it. -/
theorem isAvailable_of_sends (h : s.InOrder) (hcall : call ∈ s.calls)
    (hsends : s.sends call = true) : s.isAvailable = true := by
  have hlimited := h.limited call hcall
  obtain ⟨⟨route, http, bearer, idempotencyKey⟩, pending⟩ := call
  cases route with
  | healthz => simp [sends] at hsends
  | readyz => simpa [sends] using (Bool.and_eq_true_iff.1 hsends).2
  | api method tier guards => exact hlimited rfl

/-- **What a step does** to a process in order. -/
theorem step_spec (digest : String → String) (h : s.InOrder) (hok : s.OnTime e) :
    StepSpec s e.signal (step digest s e) := by
  cases e with
  | arrive req e => exact stepSpec_arrive h hok
  | advance i now permitted replayed => exact stepSpec_advance i now permitted replayed h
  | command i c now =>
    simp only [step]
    split
    · rename_i call hcall
      split
      · rename_i hsends
        have hready := isAvailable_of_sends h (List.mem_of_getElem? hcall) hsends
        exact .of_signal h (status_issue_of_isAvailable hready c now) (calls_issue s c now)
          (log_issue s c now)
      · exact .idle h
    · exact .idle h
  | publish now =>
    exact .of_signal h (status_issue s .other now) (calls_issue s .other now) (log_issue s .other now)
  | connect =>
    exact .of_signal h (status_progress s .connect 0) (calls_progress s .connect 0)
      (log_progress s .connect 0)
  | ready now =>
    exact .of_signal h (status_progress s .ready now) (calls_progress s .ready now)
      (log_progress s .ready now)

/-- A request that is not a health check needs the gate, and nothing else does. -/
theorem gateHolds_step_iff (h : s.InOrder) (hs : s.GateHolds) :
    (step digest s e).GateHolds ↔ s.OnTime e := by
  constructor
  · intro hstep harrival
    by_contra hclosed
    cases e with
    | arrive req e =>
      refine hstep (.rateLimit (RateLimitGuard.canActivate digest s.isAvailable req.route.metadata
        req.http e s.counters).2) (List.mem_append.2 (Or.inr List.mem_cons_self)) ?_
      refine RateLimitGuard.canActivate_eq_unavailable_iff.2 ⟨?_, Bool.eq_false_iff.2 hclosed⟩
      simpa [ApiEvent.limitedArrival, Route.rateLimited] using harrival
    | _ => cases harrival
  · intro hok r hr
    obtain ⟨records, hlog, hgood⟩ := (step_spec digest h hok).log
    rw [hlog] at hr
    rcases List.mem_append.1 hr with hr | hr
    · exact hs r hr
    · exact hgood r hr

/-! ### Runs -/

variable {url : String} {denylist : TtlCache RevocationKey Unit} {counters : RateLimitStore}
  {es : List ApiEvent}

theorem status_start (hurl : url ≠ "") (denylist : TtlCache RevocationKey Unit)
    (counters : RateLimitStore) : (start (some url) denylist counters).status = some .wait := by
  simp [start, status, CacheService.onModuleInit, hurl]

theorem inOrder_start (hurl : url ≠ "") (denylist : TtlCache RevocationKey Unit)
    (counters : RateLimitStore) : (start (some url) denylist counters).InOrder where
  client := by rw [status_start hurl]; rfl
  stages _ hcall := absurd hcall List.not_mem_nil
  limited _ hcall := absurd hcall List.not_mem_nil

theorem gateHolds_start (url : Option String) (denylist : TtlCache RevocationKey Unit)
    (counters : RateLimitStore) : (start url denylist counters).GateHolds := by
  intro r hr
  cases hr

/-- In a run whose requests come on time the connection moves by the signals only. -/
theorem status_run (h : s.InOrder) (hmeets : Runs.Meets (step digest) OnTime s es) :
    (Runs.run (step digest) s es).status =
      s.status.map ((es.filterMap ApiEvent.signal).foldl RedisStatus.next) := by
  induction es generalizing s with
  | nil => simp
  | cons e es ih =>
    obtain ⟨-, hstatus, horder⟩ := step_spec digest h hmeets.1
    rw [Runs.run_cons, ih horder hmeets.2, hstatus]
    cases hsignal : e.signal with
    | none => simp [hsignal]
    | some signal =>
      rw [List.filterMap_cons_some hsignal]
      simp [Function.comp_def]

/-- **The client is ready** after such a run exactly if a command of the process itself has
connected it. -/
theorem isAvailable_run_iff (hurl : url ≠ "")
    (hmeets : Runs.Meets (step digest) OnTime (start (some url) denylist counters) es) :
    (Runs.run (step digest) (start (some url) denylist counters) es).isAvailable = true ↔
      List.Sublist [ConnectionSignal.command, .connect, .ready] (es.filterMap ApiEvent.signal) := by
  rw [isAvailable_iff, status_run (inOrder_start hurl denylist counters) hmeets, status_start hurl,
    Option.map_some, Option.some.injEq]
  exact RedisStatus.foldl_next_eq_ready_iff _ _

theorem meets_onTime_iff (digest : String → String) (hurl : url ≠ "")
    (denylist : TtlCache RevocationKey Unit) (counters : RateLimitStore) :
    Runs.Meets (step digest) OnTime (start (some url) denylist counters) es ↔ WarmedUp es := by
  induction es using List.reverseRecOn with
  | nil => exact iff_of_true trivial warmedUp_nil
  | append_singleton es e ih =>
    rw [Runs.meets_append, warmedUp_append, ← ih]
    refine and_congr_right fun hmeets => ?_
    rw [← isAvailable_run_iff hurl hmeets]
    exact and_iff_left trivial

/-- **The gate.**  From the start of the process on no check is left out, and no revoked token
accepted, exactly if no request but a health check arrives before the process has warmed its own
connection up. -/
theorem always_gateHolds_iff (digest : String → String) (hurl : url ≠ "")
    (denylist : TtlCache RevocationKey Unit) (counters : RateLimitStore) (es : List ApiEvent) :
    (∀ fs, fs <+: es → (Runs.run (step digest) (start (some url) denylist counters) fs).GateHolds) ↔
      WarmedUp es := by
  rw [← meets_onTime_iff digest hurl denylist counters]
  exact @Runs.always_iff_meets_of _ _ _ _ (fun _ => True) InOrder GateHolds
    (fun s e _ h hs => gateHolds_step_iff h hs) (fun s e _ h _ hok => (step_spec digest h hok).inOrder)
    _ _ (fun _ _ => trivial) (inOrder_start hurl denylist counters) (gateHolds_start _ _ _)

namespace Sample

/-- An employee who has been deactivated an hour ago, and her token. -/
def marks : TtlCache RevocationKey Unit := TtlCache.empty.set (.employee 7) () 86400000

def token : AccessToken := { jti := 1, sub := 7, iat := 3000, exp := 3900 }

/-- She posts something, under an idempotency key. -/
def request : ApiRequest where
  route := .api "POST" none [.jwtAuth]
  bearer := some token
  idempotencyKey := some "4f1d"

/-- A relay publishes, the connection becomes ready, and then she posts. -/
def warmRun : List ApiEvent :=
  [.publish 3600000, .connect, .ready 3600002, .arrive request ⟨3600003, "a"⟩,
    .advance 0 3600004 true false]

/-- Nothing is left out when she does. -/
theorem always_gateHolds_warm :
    WarmedUp warmRun ∧ ∀ fs, fs <+: warmRun → (Runs.run (step id)
      (start (some "redis://localhost:6380") marks TtlCache.empty) fs).GateHolds := by
  have hwarm : WarmedUp warmRun := by decide
  exact ⟨hwarm, (always_gateHolds_iff id (by decide) marks TtlCache.empty warmRun).2 hwarm⟩

/-- The process is probed, and then she posts. -/
def coldRun : List ApiEvent :=
  [.arrive { route := .readyz } ⟨3600000, "a"⟩, .advance 0 3600001 true false,
    .advance 0 3600002 true false, .arrive request ⟨3600003, "b"⟩, .advance 1 3600004 true false,
    .advance 1 3600005 true false]

/-- The process after that. -/
def coldState : ApiProcess :=
  Runs.run (step id) (start (some "redis://localhost:6380") marks TtlCache.empty) coldRun

/-- The first request of a fresh process: it is not counted, a revoked token is accepted, and the
key is not looked up. -/
theorem not_gateHolds : ¬ coldState.GateHolds ∧ coldState.log = [.rateLimit .skipped,
    .rateLimit .unavailable, .revocation false token true true, .idempotency false] := by
  decide +kernel

end Sample

end ApiProcess

end OpsHub
