import OpsHub.RateLimit.Quotas

/-!
# Login attempts from behind a proxy

The tier of the login routes is documented as brute-force protection, for each address.  The
address comes from headers that the client sets: the proxy appends to `X-Forwarded-For`, of
which the guard takes the first entry, and passes `X-Real-IP` through.

* `AddressHeaders.passedOn`, `admitLogin`: a login request before its handler;
* `Throttled`: no window has more admitted requests of the client than the limit;
* `throttled_iff`: the headers with which a client is throttled, whatever the times of its
  requests and whatever other clients send;
* `not_throttled`: six requests with six headers.
-/

namespace OpsHub

/-! ### The requests of a client -/

/-- The headers of a client that its address is taken from. -/
structure AddressHeaders where
  xRealIp : Option String := none
  xForwardedFor : Option String := none
  deriving DecidableEq, Repr

/-- The request as the proxy passes it on.  With `trustProxy: true` Fastify takes the address from
the same header. -/
def AddressHeaders.passedOn (headers : AddressHeaders) (client : String) : HttpRequest :=
  let xForwardedFor :=
    match headers.xForwardedFor with
    | some header => header ++ ", " ++ client
    | none => client
  { xRealIp := headers.xRealIp
    xForwardedFor := some xForwardedFor
    ip := some (firstAddress xForwardedFor) }

/-- A login request. -/
structure LoginRequest where
  client : String
  headers : AddressHeaders
  evaluation : Evaluation
  deriving DecidableEq, Repr

/-- The request that the guard sees. -/
def LoginRequest.http (r : LoginRequest) : HttpRequest := r.headers.passedOn r.client

/-- The bucket of the request. -/
def LoginRequest.bucket (digest : String → String) (r : LoginRequest) : String :=
  rateLimitKey digest .authLogin r.http

/-- The guard of the login routes, with the cache available. -/
def admitLogin (digest : String → String) (store : RateLimitStore) (r : LoginRequest) :
    RateLimitStore × Bool :=
  let (store', outcome) := RateLimitGuard.canActivate digest true
    { rateLimitTier := some .authLogin } r.http r.evaluation store
  (store', outcome.proceeds)

/-! ### The property -/

/-- The requests of a run, each with its answer. -/
def loginAnswers (digest : String → String) (rs : List LoginRequest) : List (LoginRequest × Bool) :=
  Keyed.outputs (admitLogin digest) TtlCache.empty rs

/-- When requests of the client have been admitted. -/
def admittedAt (digest : String → String) (client : String) (rs : List LoginRequest) : List ℕ :=
  ((loginAnswers digest rs).filter (fun x => x.2 && decide (x.1.client = client))).map
    (fun x => x.1.evaluation.now)

/-- No window has more admitted requests of the client than the limit. -/
def Throttled (digest : String → String) (client : String) (rs : List LoginRequest) : Prop :=
  ∀ t, Windows.count (rateLimitTiers .authLogin).windowMs t (admittedAt digest client rs) ≤
    (rateLimitTiers .authLogin).limit

/-- In no bucket does the clock go back, or the script add a member twice. -/
def Clocked (digest : String → String) (rs : List LoginRequest) : Prop :=
  ∀ key, Ordered ((rs.filter (fun r => decide (r.bucket digest = key))).map LoginRequest.evaluation)

/-- The headers that the client has sent. -/
def headersOf (client : String) (rs : List LoginRequest) : List AddressHeaders :=
  (rs.filter (fun r => decide (r.client = client))).map LoginRequest.headers

/-! ### One bucket -/

section Bucket

variable {digest : String → String} {store : RateLimitStore} {r : LoginRequest}
  {rs : List LoginRequest} {key client : String}

/-- The script as it runs for a request. -/
def LoginRequest.evaluate (digest : String → String) (store : RateLimitStore) (r : LoginRequest) :
    RateLimitStore × Option RateLimitReply :=
  slidingWindow (rateLimitTiers .authLogin).windowMs (rateLimitTiers .authLogin).limit
    (r.bucket digest) store r.evaluation

theorem admitLogin_eq : admitLogin digest store r = ((r.evaluate digest store).1,
    ((rateLimitTiers .authLogin).outcome r.evaluation.now (r.evaluate digest store).2).proceeds) := rfl

theorem bucket_login : r.bucket digest =
    "rl:" ++ (rateLimitTiers .authLogin).name ++ ":" ++ r.http.clientIp := rfl

/-- A reply decides. -/
theorem proceeds_outcome (tier : RateLimitTier) (now : ℕ) (reply : RateLimitReply) :
    (tier.outcome now (some reply)).proceeds = reply.allowed := by
  unfold RateLimitTier.outcome
  cases hallowed : reply.allowed <;> simp [hallowed, RateLimitOutcome.proceeds]

/-- A request looks and writes in its bucket only. -/
theorem admitLogin_local (digest : String → String) :
    Keyed.Local TtlCache.entries (LoginRequest.bucket digest) (admitLogin digest) where
  frame s r k hk := by
    rw [admitLogin_eq]
    exact entries_slidingWindow_ne hk
  answer s s' r h := by
    rw [admitLogin_eq, admitLogin_eq]
    unfold LoginRequest.evaluate
    rw [(slidingWindow_congr h).1]
  store s s' r h := by
    rw [admitLogin_eq, admitLogin_eq]
    exact (slidingWindow_congr h).2

/-- In one bucket, requests that are all replied to are admitted as the script says. -/
theorem times_eq_admissions (hkey : ∀ r ∈ rs, r.bucket digest = key)
    (hreplied : ∀ reply ∈ replies (rateLimitTiers .authLogin).windowMs
      (rateLimitTiers .authLogin).limit key store (rs.map LoginRequest.evaluation), reply ≠ none) :
    ((Keyed.outputs (admitLogin digest) store rs).filter (fun x => x.2)).map
        (fun x => x.1.evaluation.now) =
      admissions (rateLimitTiers .authLogin).windowMs (rateLimitTiers .authLogin).limit key store
        (rs.map LoginRequest.evaluation) := by
  induction rs generalizing store with
  | nil => rfl
  | cons r rs ih =>
    have hr : r.evaluate digest store = slidingWindow (rateLimitTiers .authLogin).windowMs
        (rateLimitTiers .authLogin).limit key store r.evaluation := by
      rw [LoginRequest.evaluate, hkey r List.mem_cons_self]
    rw [List.map_cons, replies] at hreplied
    obtain ⟨reply, hreply⟩ := Option.ne_none_iff_exists'.1 (hreplied _ List.mem_cons_self)
    have hrest := @ih (slidingWindow (rateLimitTiers .authLogin).windowMs
        (rateLimitTiers .authLogin).limit key store r.evaluation).1
      (fun r' hr' => hkey r' (List.mem_cons_of_mem r hr'))
      (fun reply' h' => hreplied reply' (List.mem_cons_of_mem _ h'))
    rw [Keyed.outputs, admitLogin_eq, hr, hreply, proceeds_outcome, List.map_cons, admissions,
      hreply, ← hrest]
    cases hallowed : reply.allowed <;> simp [Admitted, hallowed]

/-- The limiter replies to every evaluation. -/
theorem Limiter.ne_none_of_mem_replies {window limit : ℕ} (hlimit : 1 ≤ limit) {log : List ℕ}
    {es : List Evaluation} : ∀ reply ∈ Limiter.replies window limit log es, reply ≠ none := by
  induction es generalizing log with
  | nil => exact fun reply h => absurd h List.not_mem_nil
  | cons e es ih =>
    intro reply h
    rcases List.mem_cons.1 h with rfl | h
    · obtain ⟨r, hr⟩ := Limiter.exists_reply window hlimit log e.now
      rw [hr]
      exact Option.some_ne_none r
    · exact ih reply h

/-- **One bucket.**  Its requests are admitted as by a limiter that remembers every admission. -/
theorem times_bucket (hclock : Clocked digest rs) (key : String) :
    ((loginAnswers digest rs).filter
        (fun x => x.2 && decide (x.1.bucket digest = key))).map (fun x => x.1.evaluation.now) =
      Limiter.after (rateLimitTiers .authLogin).windowMs (rateLimitTiers .authLogin).limit []
        ((rs.filter (fun r => decide (r.bucket digest = key))).map LoginRequest.evaluation) := by
  have hkeys : ∀ r ∈ rs, ∀ r' ∈ rs, r.bucket digest = key → ¬ r'.bucket digest = key →
      r.bucket digest ≠ r'.bucket digest := fun r _ r' _ hr hr' heq => hr' (heq.symm.trans hr)
  have hfresh : (TtlCache.empty : RateLimitStore).entries key = none := rfl
  rw [loginAnswers, ← List.filter_filter, (admitLogin_local digest).outputs_filter hkeys,
    times_eq_admissions fun r hr => of_decide_eq_true (List.mem_filter.1 hr).2,
    admissions_eq hfresh (hclock key)]
  rw [(run_tracks (tracks_nil hfresh) (fun e _ => Nat.zero_le e.now)
    (fun _ _ => List.not_mem_nil) (hclock key)).1]
  exact Limiter.ne_none_of_mem_replies (tier_pos .authLogin).2

end Bucket

/-! ### Headers that throttle -/

section Client

variable {digest : String → String} {client : String} {rs : List LoginRequest}

theorem map_fst_loginAnswers (digest : String → String) (rs : List LoginRequest) :
    (loginAnswers digest rs).map Prod.fst = rs := Keyed.map_fst_outputs _ _ rs

/-- No more requests are admitted than are made. -/
theorem length_admittedAt_le (digest : String → String) (client : String) (rs : List LoginRequest) :
    (admittedAt digest client rs).length ≤ (headersOf client rs).length := by
  have hmade : (rs.filter (fun r => decide (r.client = client))).length =
      ((loginAnswers digest rs).filter (fun x => decide (x.1.client = client))).length := by
    conv_lhs => rw [← map_fst_loginAnswers digest rs, List.filter_map, List.length_map]
    rfl
  rw [admittedAt, headersOf, List.length_map, List.length_map, hmade, ← List.filter_filter]
  exact List.length_filter_le _ _

/-- **A single address.** -/
theorem throttled_of_one_address (hclock : Clocked digest rs)
    (hone : ∀ h ∈ headersOf client rs, ∀ h' ∈ headersOf client rs,
      (h.passedOn client).clientIp = (h'.passedOn client).clientIp) :
    Throttled digest client rs := by
  intro t
  by_cases hnone : rs.filter (fun r => decide (r.client = client)) = []
  · have hlength := length_admittedAt_le digest client rs
    rw [headersOf, hnone] at hlength
    rw [List.length_eq_zero_iff.1 (Nat.le_zero.1 hlength)]
    exact Nat.zero_le _
  · obtain ⟨r₀, hr₀⟩ := List.exists_mem_of_ne_nil _ hnone
    have hheaders : ∀ r ∈ rs, r.client = client → r.headers ∈ headersOf client rs :=
      fun r hr hclient => List.mem_map_of_mem (List.mem_filter.2 ⟨hr, decide_eq_true hclient⟩)
    obtain ⟨hmem, hclient⟩ := List.mem_filter.1 hr₀
    have hbucket : ∀ r ∈ rs, r.client = client → r.bucket digest = r₀.bucket digest := by
      intro r hr hr'
      have hip := hone _ (hheaders r hr hr') _ (hheaders r₀ hmem (of_decide_eq_true hclient))
      rw [bucket_login, bucket_login, LoginRequest.http, LoginRequest.http, hr',
        of_decide_eq_true hclient, hip]
    -- the requests of the client are some of those in the bucket
    have hsub : List.Sublist (admittedAt digest client rs) (((loginAnswers digest rs).filter
        (fun x => x.2 && decide (x.1.bucket digest = r₀.bucket digest))).map
          (fun x => x.1.evaluation.now)) := by
      refine List.Sublist.map _ ?_
      have hrefine : (loginAnswers digest rs).filter
          (fun x => x.2 && decide (x.1.client = client)) =
          ((loginAnswers digest rs).filter
            (fun x => x.2 && decide (x.1.bucket digest = r₀.bucket digest))).filter
              (fun x => decide (x.1.client = client)) := by
        rw [List.filter_filter]
        refine List.filter_congr fun x hx => ?_
        by_cases hx' : x.1.client = client
        · simp [hx', hbucket x.1 (Keyed.fst_mem_of_mem_outputs hx) hx']
        · simp [hx']
      rw [hrefine]
      exact List.filter_sublist
    rw [times_bucket hclock] at hsub
    exact Nat.le_trans (Windows.count_le_of_sublist hsub t)
      ((Limiter.bounded (hclock _)).count_le t)

/-! ### Headers that do not -/

/-- The client sends the headers one after the other at one instant. -/
def attempts (client : String) (hs : List AddressHeaders) : List LoginRequest :=
  (hs.zip (burst hs.length)).map (fun x => ⟨client, x.1, x.2⟩)

theorem evaluation_attempts (client : String) (hs : List AddressHeaders) :
    (attempts client hs).map LoginRequest.evaluation = burst hs.length := by
  have hlength : (burst hs.length).length ≤ hs.length := by simp [burst]
  rw [attempts, List.map_map]
  exact List.map_snd_zip hlength

theorem client_of_mem_attempts {hs : List AddressHeaders} {r : LoginRequest}
    (hr : r ∈ attempts client hs) : r.client = client := by
  obtain ⟨x, -, rfl⟩ := List.mem_map.1 hr
  rfl

theorem headersOf_attempts (client : String) (hs : List AddressHeaders) :
    headersOf client (attempts client hs) = hs := by
  have hlength : hs.length ≤ (burst hs.length).length := by simp [burst]
  rw [headersOf, List.filter_eq_self.2 fun r hr => decide_eq_true (client_of_mem_attempts hr),
    attempts, List.map_map]
  exact List.map_fst_zip hlength

theorem clocked_attempts (digest : String → String) (client : String) (hs : List AddressHeaders) :
    Clocked digest (attempts client hs) := by
  intro key
  have hsub : List.Sublist (((attempts client hs).filter
      (fun r => decide (r.bucket digest = key))).map LoginRequest.evaluation) (burst hs.length) := by
    rw [← evaluation_attempts client hs]
    exact List.filter_sublist.map _
  have hordered := ordered_burst hs.length
  exact ⟨hordered.now.sublist (hsub.map _), hordered.member.sublist (hsub.map _)⟩

/-- All attempts are made at one instant. -/
theorem now_of_mem_attempts {hs : List AddressHeaders} {r : LoginRequest}
    (hr : r ∈ attempts client hs) : r.evaluation.now = 0 := by
  have hmem : r.evaluation ∈ burst hs.length := by
    rw [← evaluation_attempts client hs]
    exact List.mem_map_of_mem hr
  obtain ⟨i, -, hi⟩ := List.mem_map.1 hmem
  rw [← hi]

/-- At one instant the limiter admits as many as there are, up to the limit. -/
theorem Limiter.length_after {window limit m : ℕ} (hwindow : 0 < window) (hm : m ≤ limit)
    {es : List Evaluation} (hes : ∀ e ∈ es, e.now = 0) :
    (Limiter.after window limit (List.replicate m 0) es).length = min limit (m + es.length) := by
  induction es generalizing m with
  | nil => simp [Limiter.after, hm]
  | cons e es ih =>
    have hcount : Windows.count window 0 (List.replicate m 0) = m := by
      simp [Windows.count, Windows.recent, Windows.Within, hwindow]
    have hrest : ∀ e' ∈ es, e'.now = 0 := fun e' he' => hes e' (List.mem_cons_of_mem e he')
    rw [Limiter.after, Runs.run_cons, Limiter.next, hes e List.mem_cons_self, hcount,
      List.length_cons]
    by_cases hroom : m < limit
    · rw [if_pos hroom, ← List.replicate_succ']
      exact (ih hroom hrest).trans (by rw [Nat.succ_add, Nat.add_succ])
    · rw [if_neg hroom]
      exact (ih hm hrest).trans (by omega)

/-- The number of attempts admitted in a bucket. -/
theorem countP_bucket_attempts (digest : String → String) (client : String)
    (hs : List AddressHeaders) (key : String) :
    (loginAnswers digest (attempts client hs)).countP
        (fun x => x.2 && decide (x.1.bucket digest = key)) =
      min (rateLimitTiers .authLogin).limit ((loginAnswers digest (attempts client hs)).countP
        (fun x => decide (x.1.bucket digest = key))) := by
  have hmade : (loginAnswers digest (attempts client hs)).countP
      (fun x => decide (x.1.bucket digest = key)) =
        ((attempts client hs).filter (fun r => decide (r.bucket digest = key))).length := by
    rw [← List.countP_eq_length_filter]
    conv_rhs => rw [← map_fst_loginAnswers digest (attempts client hs), List.countP_map]
    rfl
  have hnow : ∀ e ∈ ((attempts client hs).filter
      (fun r => decide (r.bucket digest = key))).map LoginRequest.evaluation, e.now = 0 := by
    intro e he
    obtain ⟨r, hr, rfl⟩ := List.mem_map.1 he
    exact now_of_mem_attempts (List.mem_filter.1 hr).1
  have htimes := congrArg List.length (times_bucket (clocked_attempts digest client hs) key)
  have hafter := Limiter.length_after (tier_pos .authLogin).1
    (Nat.zero_le (rateLimitTiers .authLogin).limit) hnow
  rw [List.replicate_zero] at hafter
  rw [List.length_map, hafter, List.length_map, Nat.zero_add] at htimes
  rw [List.countP_eq_length_filter, htimes, hmade]

/-- Every attempt is one of the client. -/
theorem client_of_mem_loginAnswers {hs : List AddressHeaders} :
    ∀ x ∈ loginAnswers digest (attempts client hs), x.1.client = client :=
  fun _ hx => client_of_mem_attempts (Keyed.fst_mem_of_mem_outputs hx)

/-- All attempts are made in one window. -/
theorem countP_loginAnswers_le {hs : List AddressHeaders}
    (h : Throttled digest client (attempts client hs)) :
    (loginAnswers digest (attempts client hs)).countP Prod.snd ≤
      (rateLimitTiers .authLogin).limit := by
  refine Nat.le_trans (Nat.le_of_eq ?_) (h 0)
  have hself : ∀ a ∈ admittedAt digest client (attempts client hs),
      decide (Windows.Within (rateLimitTiers .authLogin).windowMs 0 a) = true := by
    intro a ha
    obtain ⟨x, hx, rfl⟩ := List.mem_map.1 ha
    have hx' := Keyed.fst_mem_of_mem_outputs (List.mem_filter.1 hx).1
    rw [now_of_mem_attempts hx']
    have hin : 0 < 0 + (rateLimitTiers .authLogin).windowMs :=
      Nat.lt_of_lt_of_le (tier_pos .authLogin).1 (Nat.le_add_left _ _)
    exact decide_eq_true ⟨Nat.le_refl 0, hin⟩
  rw [Windows.count, Windows.recent, List.filter_eq_self.2 hself, admittedAt, List.length_map,
    List.countP_eq_length_filter]
  refine congrArg List.length (List.filter_congr fun x hx => ?_)
  rw [decide_eq_true (client_of_mem_loginAnswers x hx), Bool.and_true]

/-- The address that the headers yield names the bucket of an answer. -/
theorem exists_loginAnswer {hs : List AddressHeaders} {h : AddressHeaders} (hh : h ∈ hs) :
    ∃ x ∈ loginAnswers digest (attempts client hs),
      x.1.bucket digest = "rl:" ++ (rateLimitTiers .authLogin).name ++ ":" ++
        (h.passedOn client).clientIp := by
  rw [← headersOf_attempts client hs] at hh
  obtain ⟨r, hr, rfl⟩ := List.mem_map.1 hh
  have hr' := (List.mem_filter.1 hr).1
  rw [← map_fst_loginAnswers digest (attempts client hs)] at hr'
  obtain ⟨x, hx, rfl⟩ := List.mem_map.1 hr'
  refine ⟨x, hx, ?_⟩
  rw [bucket_login, LoginRequest.http, client_of_mem_loginAnswers x hx]

/-- **Two addresses** in more than `limit` attempts. -/
theorem one_address_of_throttled {hs : List AddressHeaders}
    (h : Throttled digest client (attempts client hs)) :
    hs.length ≤ (rateLimitTiers .authLogin).limit ∨ ∀ h ∈ hs, ∀ h' ∈ hs,
      (h.passedOn client).clientIp = (h'.passedOn client).clientIp := by
  rcases Keyed.length_le_or_one_key (tier_pos .authLogin).2
    (countP_bucket_attempts digest client hs) (countP_loginAnswers_le h) with hfew | hone
  · left
    rwa [← List.length_map Prod.fst, map_fst_loginAnswers, ← List.length_map LoginRequest.evaluation,
      evaluation_attempts, burst, List.length_map, List.length_range] at hfew
  · right
    intro h hh h' hh'
    obtain ⟨x, hx, hbucket⟩ := exists_loginAnswer hh
    obtain ⟨x', hx', hbucket'⟩ := exists_loginAnswer hh'
    have heq := congrArg String.toList (hbucket.symm.trans ((hone x hx x' hx').trans hbucket'))
    simp only [String.toList_append] at heq
    exact String.toList_injective (List.append_cancel_left heq)

end Client

/-- **Exactly when headers do not evade the throttle**: when they are no more than the limit, or
all of them yield one address. -/
theorem throttled_iff (digest : String → String) (client : String) (hs : List AddressHeaders) :
    (∀ rs, Clocked digest rs → headersOf client rs = hs → Throttled digest client rs) ↔
      hs.length ≤ (rateLimitTiers .authLogin).limit ∨ ∀ h ∈ hs, ∀ h' ∈ hs,
        (h.passedOn client).clientIp = (h'.passedOn client).clientIp := by
  constructor
  · intro h
    exact one_address_of_throttled
      (h _ (clocked_attempts digest client hs) (headersOf_attempts client hs))
  · rintro (hfew | hone) rs hclock rfl
    · intro t
      exact Nat.le_trans (Windows.count_le_length _ t _)
        (Nat.le_trans (length_admittedAt_le digest client rs) hfew)
    · exact throttled_of_one_address hclock hone

namespace LoginThrottle.Sample

/-- Six attempts at one instant, each with another `X-Real-IP`. -/
def requests : List LoginRequest :=
  attempts "198.51.100.7" [⟨some "10.0.0.1", none⟩, ⟨some "10.0.0.2", none⟩,
    ⟨some "10.0.0.3", none⟩, ⟨some "10.0.0.4", none⟩, ⟨some "10.0.0.5", none⟩,
    ⟨some "10.0.0.6", none⟩]

/-- All six are admitted. -/
theorem not_throttled :
    Clocked id requests ∧ (∀ r ∈ requests, r.client = "198.51.100.7") ∧
      ¬ Throttled id "198.51.100.7" requests := by
  refine ⟨clocked_attempts _ _ _, fun r hr => client_of_mem_attempts hr, fun h => ?_⟩
  rcases one_address_of_throttled h with hfew | hone
  · exact absurd hfew (by decide)
  · have hsame := hone ⟨some "10.0.0.1", none⟩ (by decide) ⟨some "10.0.0.2", none⟩ (by decide)
    exact absurd hsame (by decide)

end LoginThrottle.Sample

end OpsHub
