import OpsHub.Platform.Idempotency

/-!
# What a replay answers

The key under which a response is cached has the identity and the `Idempotency-Key` of its request,
and nothing else of it.

* `SameOperation`: two requests for the same thing, by the same client, under the same key;
* `Faithful`: a replayed response is that of an earlier request for the same operation;
* `Determines`: among some requests the key under which they are cached determines the operation;
* `always_faithful_iff`: the replays are faithful in every run of these requests exactly if it does;
* `not_faithful`: one key for two operations.
-/

namespace OpsHub

/-- The identity of a request. -/
def IdempotentRequest.identity (req : IdempotentRequest) : String :=
  (req.userSub <|> req.ip).getD "anon"

/-- Two requests for the same operation under the same key. -/
structure SameOperation (req req' : IdempotentRequest) : Prop where
  identity : req.identity = req'.identity
  idempotencyKey : req.idempotencyKey = req'.idempotencyKey
  method : req.method = req'.method
  path : req.path = req'.path
  body : req.body = req'.body

instance (req req' : IdempotentRequest) : Decidable (SameOperation req req') :=
  decidable_of_iff (req.identity = req'.identity ∧ req.idempotencyKey = req'.idempotencyKey ∧
      req.method = req'.method ∧ req.path = req'.path ∧ req.body = req'.body)
    ⟨fun ⟨h₁, h₂, h₃, h₄, h₅⟩ => ⟨h₁, h₂, h₃, h₄, h₅⟩, fun h => ⟨h.1, h.2, h.3, h.4, h.5⟩⟩

variable {ν : Type}

/-- After this log the response may be replayed: it has been produced under the key, and by requests
for the same operation only. -/
structure Produced (log : List (IdempotencyRecord ν)) (key : String) (req : IdempotentRequest)
    (response : Json ν) : Prop where
  exists_completed : ∃ req', IdempotencyRecord.completed key req' (some response) ∈ log
  same : ∀ req', IdempotencyRecord.completed key req' (some response) ∈ log →
    SameOperation req' req

/-- Every replay answers with the response of an earlier request for the same operation. -/
def Faithful (log : List (IdempotencyRecord ν)) : Prop :=
  ∀ done key req response, done ++ [.replayed key req response] <+: log →
    Produced done key req response

/-- Among these requests, those that are cached under the same key are for the same operation. -/
def Determines (requests : IdempotentRequest → Prop) : Prop :=
  ∀ req req', requests req → requests req' →
    ∀ key ∈ IdempotencyInterceptor.cacheKey true req,
      IdempotencyInterceptor.cacheKey true req' = some key → SameOperation req req'

/-- The request that comes in is one of these. -/
def IdempotencyEvent.Of (requests : IdempotentRequest → Prop) : IdempotencyEvent ν → Prop
  | .arrive req => requests req
  | _ => True

section Log

variable {log : List (IdempotencyRecord ν)} {x : IdempotencyRecord ν}

theorem faithful_nil : Faithful ([] : List (IdempotencyRecord ν)) := by
  intro done key req response hprefix
  exact absurd (List.prefix_nil.1 hprefix) (List.append_ne_nil_of_right_ne_nil _ (by simp))

/-- One more record. -/
theorem faithful_append (h : Faithful log)
    (hx : ∀ key req response, x = .replayed key req response → Produced log key req response) :
    Faithful (log ++ [x]) := by
  intro done key req response hprefix
  rcases List.prefix_concat_iff.1 hprefix with heq | hprefix
  · obtain ⟨rfl, hlast⟩ := List.append_inj' heq rfl
    exact hx key req response (List.singleton_inj.1 hlast).symm
  · exact h done key req response hprefix

end Log

namespace IdempotencyState

variable [NumberNotation ν] {undefinedText : String} {requests : IdempotentRequest → Prop}
  {s : IdempotencyState ν} {e : IdempotencyEvent ν}

/-- A request of the run under its key. -/
def Cached (requests : IdempotentRequest → Prop) (key : String) (req : IdempotentRequest) : Prop :=
  requests req ∧ IdempotencyInterceptor.cacheKey true req = some key

/-- A text is that of the response of some handler under a key. -/
def Stored (undefinedText : String) (log : List (IdempotencyRecord ν)) (key text : String) : Prop :=
  ∃ req body, IdempotencyRecord.completed key req body ∈ log ∧ text = storedText undefinedText body

/-- Where the calls, the cache and the log come from. -/
structure Traced (undefinedText : String) (requests : IdempotentRequest → Prop)
    (s : IdempotencyState ν) : Prop where
  lookup : ∀ key req, .lookup key req ∈ s.calls → Cached requests key req
  handling : ∀ key req seen, .handling (some key) req seen ∈ s.calls → Cached requests key req
  storing : ∀ key text, .storing key text ∈ s.calls → Stored undefinedText s.log key text
  cache : ∀ key text deadline, s.cache.entries key = some (text, deadline) →
    Stored undefinedText s.log key text
  completed : ∀ key req body, .completed key req body ∈ s.log → Cached requests key req
  faithful : Faithful s.log

omit [NumberNotation ν] in
theorem mem_completed_append {log : List (IdempotencyRecord ν)} {x : IdempotencyRecord ν}
    {key : String} {req : IdempotentRequest} {body : Option (Json ν)}
    (hx : ∀ key, x.completion key = none) :
    IdempotencyRecord.completed key req body ∈ log ++ [x] ↔
      IdempotencyRecord.completed key req body ∈ log := by
  rw [List.mem_append, List.mem_singleton]
  refine or_iff_left ?_
  rintro rfl
  have hnone := hx key
  rw [completion_completed] at hnone
  cases hnone

theorem Stored.mono {log log' : List (IdempotencyRecord ν)} {key text : String}
    (h : Stored undefinedText log key text) (hlog : log ⊆ log') :
    Stored undefinedText log' key text := by
  obtain ⟨req, body, hmem, htext⟩ := h
  exact ⟨req, body, hlog hmem, htext⟩

/-- A call goes on, and the log grows. -/
theorem Traced.goOn (h : Traced undefinedText requests s) (i : ℕ) {call : IdempotentCall}
    {log : List (IdempotencyRecord ν)} (hlog : s.log ⊆ log)
    (hlookup : ∀ key req, call = .lookup key req → Cached requests key req)
    (hhandling : ∀ key req seen, call = .handling (some key) req seen → Cached requests key req)
    (hstoring : ∀ key text, call = .storing key text → Stored undefinedText log key text)
    (hcompleted : ∀ key req body, .completed key req body ∈ log → Cached requests key req)
    (hfaithful : Faithful log) :
    Traced undefinedText requests { s with calls := s.calls.set i call, log := log } where
  lookup key req hmem := by
    rcases List.mem_or_eq_of_mem_set hmem with hmem | heq
    · exact h.lookup key req hmem
    · exact hlookup key req heq.symm
  handling key req seen hmem := by
    rcases List.mem_or_eq_of_mem_set hmem with hmem | heq
    · exact h.handling key req seen hmem
    · exact hhandling key req seen heq.symm
  storing key text hmem := by
    rcases List.mem_or_eq_of_mem_set hmem with hmem | heq
    · exact (h.storing key text hmem).mono hlog
    · exact hstoring key text heq.symm
  cache key text deadline hentry := (h.cache key text deadline hentry).mono hlog
  completed := hcompleted
  faithful := hfaithful

/-- A call ends. -/
theorem Traced.finish (h : Traced undefinedText requests s) (i : ℕ) :
    Traced undefinedText requests { s with calls := s.calls.set i .finished } :=
  h.goOn i (List.Subset.refl _) nofun nofun nofun h.completed h.faithful

/-- A new call. -/
theorem Traced.arrive (h : Traced undefinedText requests s) {call : IdempotentCall}
    (hlookup : ∀ key req, call = .lookup key req → Cached requests key req)
    (hhandling : ∀ key req seen, call ≠ .handling (some key) req seen)
    (hstoring : ∀ key text, call ≠ .storing key text) :
    Traced undefinedText requests { s with calls := s.calls ++ [call] } where
  lookup key req hmem := by
    rcases List.mem_append.1 hmem with hmem | hmem
    · exact h.lookup key req hmem
    · exact hlookup key req (List.mem_singleton.1 hmem).symm
  handling key req seen hmem := by
    rcases List.mem_append.1 hmem with hmem | hmem
    · exact h.handling key req seen hmem
    · exact absurd (List.mem_singleton.1 hmem).symm (hhandling key req seen)
  storing key text hmem := by
    rcases List.mem_append.1 hmem with hmem | hmem
    · exact h.storing key text hmem
    · exact absurd (List.mem_singleton.1 hmem).symm (hstoring key text)
  cache := h.cache
  completed := h.completed
  faithful := h.faithful

/-- **A miss**: the handler is called. -/
theorem Traced.miss (h : Traced undefinedText requests s) (i : ℕ) {key : String}
    {req : IdempotentRequest} (hreq : Cached requests key req) :
    Traced undefinedText requests { s with
      calls := s.calls.set i (.handling (some key) req s.log.length)
      log := s.log ++ [.missed key req] } := by
  refine h.goOn i (List.subset_append_left _ _) (by simp) ?_ (by simp)
    (fun key' req' body hmem => ?_) (faithful_append h.faithful (by simp))
  · rintro _ _ _ ⟨⟩
    exact hreq
  · exact h.completed key' req' body ((mem_completed_append fun _ => rfl).1 hmem)

/-- The handler has responded, and the response is to be stored. -/
theorem Traced.respond (h : Traced undefinedText requests s) (i : ℕ) {key : String}
    {req : IdempotentRequest} (body : Option (Json ν)) (hreq : Cached requests key req) :
    Traced undefinedText requests { s with
      calls := s.calls.set i (.storing key (storedText undefinedText body))
      log := s.log ++ [.completed key req body] } := by
  refine h.goOn i (List.subset_append_left _ _) (by simp) (by simp) ?_
    (fun key' req' body' hmem => ?_) (faithful_append h.faithful (by simp))
  · rintro _ _ ⟨⟩
    exact ⟨req, body, List.mem_append_right _ (List.mem_singleton_self _), rfl⟩
  · rcases List.mem_append.1 hmem with hmem | hmem
    · exact h.completed key' req' body' hmem
    · cases List.mem_singleton.1 hmem
      exact hreq

/-- **A hit**: the response that is replayed has been produced for the same operation. -/
theorem Traced.produced (hundefined : undefinedText = "" ∨ Json.parse (ν := ν) undefinedText = none)
    (hdetermines : Determines requests) (h : Traced undefinedText requests s) {key text : String}
    {req : IdempotentRequest} {response : Json ν} (hreq : Cached requests key req)
    (hstored : Stored undefinedText s.log key text) (hne : text ≠ "")
    (hparse : Json.parse text = some response) : Produced s.log key req response where
  exists_completed := by
    obtain ⟨req', body, hmem, rfl⟩ := hstored
    cases body with
    | some produced =>
      rw [storedText, Json.parse_stringify] at hparse
      rw [← Option.some.inj hparse]
      exact ⟨req', hmem⟩
    | none =>
      rcases hundefined with hempty | hnone
      · exact absurd hempty hne
      · rw [storedText, hnone] at hparse
        cases hparse
  same req' hmem := by
    obtain ⟨hrequest, hkey⟩ := h.completed key req' _ hmem
    exact hdetermines req' req hrequest hreq.1 key hkey hreq.2

/-- **The step lemma.** -/
theorem traced_step (hundefined : undefinedText = "" ∨ Json.parse (ν := ν) undefinedText = none)
    (hdetermines : Determines requests) (he : e.Of requests) (h : Traced undefinedText requests s) :
    Traced undefinedText requests (step undefinedText s e) := by
  cases e with
  | arrive req =>
    simp only [step]
    split
    · rename_i key hkey
      exact h.arrive (fun _ _ heq => by cases heq; exact ⟨he, hkey⟩) (by simp) (by simp)
    · exact h.arrive (by simp) (by simp) (by simp)
  | lookup i now =>
    simp only [step]
    split
    · rename_i key req hcall
      have hreq : Cached requests key req := h.lookup key req (List.mem_of_getElem? hcall)
      cases hget : s.cache.get now key with
      | none => exact h.miss i hreq
      | some text =>
        simp only [IdempotentCall.answer]
        split
        · exact h.miss i hreq
        · rename_i hne
          have hstored : Stored undefinedText s.log key text := by
            obtain ⟨deadline, hentry⟩ := TtlCache.exists_entry hget
            exact h.cache key text deadline hentry
          split
          · rename_i response hparse
            refine h.goOn i (List.subset_append_left _ _) (by simp) (by simp) (by simp)
              (fun key' req' body hmem => ?_) (faithful_append h.faithful ?_)
            · exact h.completed key' req' body ((mem_completed_append fun _ => rfl).1 hmem)
            · rintro _ _ _ ⟨⟩
              exact h.produced hundefined hdetermines hreq hstored hne hparse
          · refine h.goOn i (List.subset_append_left _ _) (by simp) (by simp) (by simp)
              (fun key' req' body hmem => ?_) (faithful_append h.faithful (by simp))
            exact h.completed key' req' body ((mem_completed_append fun _ => rfl).1 hmem)
    · exact h
  | complete i body =>
    simp only [step]
    split
    · rename_i key req seen hcall
      exact h.respond i body (h.handling key req seen (List.mem_of_getElem? hcall))
    · exact h.finish i
    · exact h
  | fail i =>
    simp only [step]
    split
    · exact h.finish i
    · exact h
  | store i now =>
    simp only [step]
    split
    · rename_i key text hcall
      have hstored := h.storing key text (List.mem_of_getElem? hcall)
      refine { h.finish i with cache := fun key' text' deadline hentry => ?_ }
      simp only [TtlCache.set] at hentry
      split at hentry
      · rename_i heq
        cases hentry
        exact heq ▸ hstored
      · exact h.cache key' text' deadline hentry
    · exact h

/-! ### The other way round -/

/-- Two requests one after the other, the second after the response of the first is stored. -/
def twice (req req' : IdempotentRequest) : List (IdempotencyEvent ν) :=
  [.arrive req, .lookup 0 0, .complete 0 (some (.obj [])), .store 0 0, .arrive req', .lookup 1 0]

/-- The second one is answered with the response of the first. -/
theorem log_twice (undefinedText : String) {req req' : IdempotentRequest} {key : String}
    (hkey : IdempotencyInterceptor.cacheKey true req = some key)
    (hkey' : IdempotencyInterceptor.cacheKey true req' = some key) :
    (Runs.run (step undefinedText) ({} : IdempotencyState ν) (twice req req')).log =
      [.missed key req, .completed key req (some (.obj [])), .replayed key req' (.obj [])] := by
  have hget : (TtlCache.set TtlCache.empty key (Json.stringify (.obj [] : Json ν))
      idempotencyTtl).get 0 key = some (Json.stringify (.obj [] : Json ν)) := by
    simp [TtlCache.get, TtlCache.set, idempotencyTtl]
  simp [twice, step, hkey, hkey', IdempotentCall.answer, storedText, hget,
    Json.stringify_ne_empty, Json.parse_stringify]

/-- **What replays answer.**  In every run of these requests, with any interleaving, all replays
answer with the response to the same operation, exactly if the key under which a response is cached
determines the operation.  The client of the cache stores `undefined` as a text that is empty or
not JSON. -/
theorem always_faithful_iff (undefinedText : String)
    (hundefined : undefinedText = "" ∨ Json.parse (ν := ν) undefinedText = none)
    (requests : IdempotentRequest → Prop) :
    (∀ es : List (IdempotencyEvent ν), (∀ e ∈ es, e.Of requests) →
        Faithful (Runs.run (step undefinedText) ({} : IdempotencyState ν) es).log) ↔
      Determines requests := by
  constructor
  · intro h req req' hreq hreq' key hkey hkey'
    have hfaithful := h (twice req req') fun e he => by
      simp only [twice, List.mem_cons, List.not_mem_nil, or_false] at he
      rcases he with rfl | rfl | rfl | rfl | rfl | rfl
      · exact hreq
      · trivial
      · trivial
      · trivial
      · exact hreq'
      · trivial
    rw [log_twice undefinedText (Option.mem_def.1 hkey) hkey'] at hfaithful
    have hproduced := hfaithful [.missed key req, .completed key req (some (.obj []))] key req'
      (.obj []) (List.prefix_refl _)
    exact hproduced.same req (by simp)
  · intro hdetermines es hes
    have hstart : Traced undefinedText requests ({} : IdempotencyState ν) :=
      ⟨nofun, nofun, nofun, nofun, nofun, faithful_nil⟩
    have htraced := @Runs.run_induction _ _ (step undefinedText) (fun _ e => e.Of requests)
      (Traced undefinedText requests)
      (fun _ _ hs he => traced_step hundefined hdetermines he hs) _ es hstart
      (Runs.meets_of_mem hes _)
    exact htraced.faithful

/-! ### One key for two operations -/

namespace Sample

/-- User 1 approves a request. -/
def approval : IdempotentRequest :=
  { method := "POST", idempotencyKey := some "k", userSub := some "1"
    path := "/v1/requests/5/approve" }

/-- And, under the same key, creates an asset. -/
def creation : IdempotentRequest :=
  { method := "POST", idempotencyKey := some "k", userSub := some "1", path := "/v1/assets"
    body := "\x7b\"name\":\"Laptop\"\x7d" }

/-- The creation is answered with the response to the approval, and nothing is created. -/
theorem not_faithful :
    ¬ Faithful (Runs.run (step "") ({} : IdempotencyState ℕ) (twice approval creation)).log := by
  intro h
  have hkey : IdempotencyInterceptor.cacheKey true approval = some "idem:1:k" := by decide +kernel
  have hkey' : IdempotencyInterceptor.cacheKey true creation = some "idem:1:k" := by decide +kernel
  rw [log_twice "" hkey hkey'] at h
  have hproduced := h [.missed _ approval, .completed _ approval (some (.obj []))] _ creation
    (.obj []) (List.prefix_refl _)
  exact absurd (hproduced.same approval (by simp)).path (by decide)

/-- A client that retries the one request only. -/
theorem always_faithful_retries :
    Determines (fun req => req = approval) ∧
      ∀ es : List (IdempotencyEvent ℕ), (∀ e ∈ es, e.Of fun req => req = approval) →
        Faithful (Runs.run (step "") ({} : IdempotencyState ℕ) es).log := by
  have hdetermines : Determines fun req => req = approval := by
    rintro req req' rfl rfl key - -
    exact ⟨rfl, rfl, rfl, rfl, rfl⟩
  exact ⟨hdetermines, (always_faithful_iff "" (Or.inl rfl) fun req => req = approval).2 hdetermines⟩

end Sample

end IdempotencyState

end OpsHub
