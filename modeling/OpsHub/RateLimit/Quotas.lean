import OpsHub.Lib.Keyed
import OpsHub.RateLimit.RateLimitGuard

/-!
# The quotas of two users

`AppModule` registers the rate-limit guard for all routes, and Nest runs it before the guards of
a route; `JwtAuthGuard`, which attaches the user to the request, is one of these.

* `authenticatedGuards`, `serve`: the guards of an authenticated route, in their order;
* `rateLimitKey_perUser`: so the bucket of a request is one of its address;
* `Independent`: what a user sees does not depend on the requests of the others;
* `independent_iff`: two users are independent exactly if no tier sees them at one address;
* `not_independent`: a shared address.
-/

namespace OpsHub

/-! ### The guards of a route -/

/-- The guards before a handler that looks at the user. -/
inductive ApiGuard
  | rateLimit
  | jwtAuth
  deriving DecidableEq, Repr

/-- The guards that `AppModule` registers under `APP_GUARD`. -/
def appGuards : List ApiGuard := [.rateLimit]

/-- The guards of a route with `Auth` or `RequirePermission` as far as the user is attached. -/
def authenticatedGuards : List ApiGuard := appGuards ++ [.jwtAuth]

/-- A request of a user, whose token verifies, to an authenticated route of a tier. -/
structure UserRequest where
  user : String
  tier : RateLimitTierName
  http : HttpRequest
  evaluation : Evaluation
  deriving DecidableEq, Repr

/-- The request as it comes in. -/
def UserRequest.incoming (r : UserRequest) : HttpRequest := { r.http with user := none }

/-- A guard: it throws, or lets the request go on, with the user attached by `JwtAuthGuard`. -/
def ApiGuard.canActivate (digest : String → String) (r : UserRequest) (store : RateLimitStore)
    (req : HttpRequest) : ApiGuard → RateLimitStore × Except Failure HttpRequest
  | .rateLimit =>
    let (store', outcome) := RateLimitGuard.canActivate digest true
      { rateLimitTier := some r.tier } req r.evaluation store
    (store', match outcome with
      | .limited _ failure => .error failure
      | _ => .ok req)
  | .jwtAuth => (store, .ok { req with user := some r.user })

/-- The guards one after the other; the first one that throws ends the request. -/
def runGuards (digest : String → String) (r : UserRequest) :
    List ApiGuard → RateLimitStore → HttpRequest → RateLimitStore × Except Failure HttpRequest
  | [], store, req => (store, .ok req)
  | guard :: guards, store, req =>
    match guard.canActivate digest r store req with
    | (store', .ok req') => runGuards digest r guards store' req'
    | (store', .error e) => (store', .error e)

/-- A request before its handler. -/
def serve (digest : String → String) (store : RateLimitStore) (r : UserRequest) :
    RateLimitStore × Except Failure HttpRequest :=
  runGuards digest r authenticatedGuards store r.incoming

/-! ### The property -/

/-- The tiers that are documented as one bucket for each user. -/
def PerUser : RateLimitTierName → Prop
  | .default | .strict | .ai | .upload => True
  | .authLogin | .authRefresh => False

instance : DecidablePred PerUser
  | .default | .strict | .ai | .upload => isTrue trivial
  | .authLogin | .authRefresh => isFalse id

/-- Whether the requests of a user are admitted in a run. -/
def seenBy (digest : String → String) (user : String) (rs : List UserRequest) : List Bool :=
  ((Keyed.outputs (serve digest) TtlCache.empty rs).filter
    (fun x => decide (x.1.user = user))).map (fun x => x.2.isOk)

/-- The user sees the same without the requests of the others. -/
def Independent (digest : String → String) (user : String) (rs : List UserRequest) : Prop :=
  seenBy digest user rs = seenBy digest user (rs.filter (fun r => decide (r.user = user)))

instance (digest : String → String) (user : String) (rs : List UserRequest) :
    Decidable (Independent digest user rs) := inferInstanceAs (Decidable (_ = _))

/-! ### One request -/

section Requests

variable {window limit : ℕ} {key : String} {store store' : RateLimitStore} {e : Evaluation}
  {digest : String → String} {r : UserRequest}

/-- The script writes under its key only. -/
theorem entries_slidingWindow_ne {k : String} (hk : k ≠ key) :
    (slidingWindow window limit key store e).1.entries k = store.entries k := by
  unfold slidingWindow
  dsimp only
  split <;> simp [TtlCache.set, hk]

/-- The script looks under its key only. -/
theorem slidingWindow_congr (h : store.entries key = store'.entries key) :
    (slidingWindow window limit key store e).2 = (slidingWindow window limit key store' e).2 ∧
      (slidingWindow window limit key store e).1.entries key =
        (slidingWindow window limit key store' e).1.entries key := by
  have hlive : store.live e.now key = store'.live e.now key := by
    simp only [RateLimitStore.live, TtlCache.get, h]
  have hdeadline : store.deadline key = store'.deadline key := by
    simp only [TtlCache.deadline, h]
  unfold slidingWindow
  dsimp only
  rw [hlive, hdeadline]
  split
  · exact ⟨rfl, by simp [TtlCache.set]⟩
  · exact ⟨rfl, by simp [TtlCache.set]⟩

/-- The bucket of a request. -/
def UserRequest.bucket (digest : String → String) (r : UserRequest) : String :=
  rateLimitKey digest r.tier r.incoming

/-- The script as it runs for a request. -/
def UserRequest.evaluate (digest : String → String) (store : RateLimitStore) (r : UserRequest) :
    RateLimitStore × Option RateLimitReply :=
  slidingWindow (rateLimitTiers r.tier).windowMs (rateLimitTiers r.tier).limit (r.bucket digest)
    store r.evaluation

/-- What the request is answered, from the reply of the script. -/
theorem serve_eq : serve digest store r = ((r.evaluate digest store).1,
    match (rateLimitTiers r.tier).outcome r.evaluation.now (r.evaluate digest store).2 with
    | .limited _ failure => .error failure
    | _ => .ok { r.incoming with user := some r.user }) := by
  unfold serve authenticatedGuards appGuards UserRequest.evaluate UserRequest.bucket
  simp only [List.singleton_append, runGuards, ApiGuard.canActivate, RateLimitGuard.canActivate,
    RateLimitMetadata.tierName, Option.getD_some, Bool.false_eq_true, if_false, if_true]
  generalize slidingWindow _ _ _ _ _ = answer
  cases (rateLimitTiers r.tier).outcome r.evaluation.now answer.2 <;> rfl

/-- The request is admitted unless the script denies it. -/
theorem isOk_serve {reply : RateLimitReply} (h : (r.evaluate digest store).2 = some reply) :
    (serve digest store r).2.isOk = reply.allowed := by
  rw [serve_eq, h]
  cases hallowed : reply.allowed <;> simp [RateLimitTier.outcome, hallowed, Except.isOk, Except.toBool]

/-- **The bucket is one of the address.**  Nobody has attached a user when the key is made. -/
theorem bucket_perUser (h : PerUser r.tier) :
    r.bucket digest = "rl:" ++ (rateLimitTiers r.tier).name ++ ":" ++ r.http.clientIp := by
  unfold UserRequest.bucket rateLimitKey UserRequest.incoming
  cases htier : r.tier <;> first | rfl | (rw [htier] at h; exact h.elim)

/-- A request looks and writes in its bucket only. -/
theorem serve_local (digest : String → String) :
    Keyed.Local TtlCache.entries (UserRequest.bucket digest) (serve digest) where
  frame s r k hk := by
    rw [serve_eq]
    exact entries_slidingWindow_ne hk
  answer s s' r h := by
    rw [serve_eq, serve_eq]
    unfold UserRequest.evaluate
    rw [(slidingWindow_congr h).1]
  store s s' r h := by
    rw [serve_eq, serve_eq]
    exact (slidingWindow_congr h).2

end Requests

/-! ### Two users -/

/-- A key is read back from its tier and its subject. -/
theorem append_colon_inj {l l' s s' : List Char} (hl : ':' ∉ l) (hl' : ':' ∉ l')
    (h : l ++ ':' :: s = l' ++ ':' :: s') : l = l' ∧ s = s' := by
  induction l generalizing l' with
  | nil =>
    cases l' with
    | nil => exact ⟨rfl, (List.cons.inj h).2⟩
    | cons c l' =>
      obtain ⟨rfl, -⟩ := List.cons.inj h
      exact absurd List.mem_cons_self hl'
  | cons c l ih =>
    cases l' with
    | nil =>
      obtain ⟨rfl, -⟩ := List.cons.inj h
      exact absurd List.mem_cons_self hl
    | cons c' l' =>
      obtain ⟨rfl, htail⟩ := List.cons.inj h
      obtain ⟨rfl, hs⟩ := ih (fun hm => hl (List.mem_cons_of_mem c hm))
        (fun hm => hl' (List.mem_cons_of_mem c hm)) htail
      exact ⟨rfl, hs⟩

theorem name_injective {t t' : RateLimitTierName}
    (h : (rateLimitTiers t).name.toList = (rateLimitTiers t').name.toList) : t = t' := by
  revert h
  cases t <;> cases t' <;> decide

theorem colon_notMem_name (t : RateLimitTierName) : ':' ∉ (rateLimitTiers t).name.toList := by
  cases t <;> decide

/-- Two requests of per-user tiers with one bucket are of one tier and one address. -/
theorem bucket_inj {digest : String → String} {r r' : UserRequest} (h : PerUser r.tier)
    (h' : PerUser r'.tier) (heq : r.bucket digest = r'.bucket digest) :
    r.tier = r'.tier ∧ r.http.clientIp = r'.http.clientIp := by
  rw [bucket_perUser h, bucket_perUser h'] at heq
  have hlist := congrArg String.toList heq
  simp only [String.toList_append, List.append_assoc] at hlist
  obtain ⟨hname, hip⟩ := append_colon_inj (colon_notMem_name r.tier) (colon_notMem_name r'.tier)
    (List.append_cancel_left hlist)
  exact ⟨name_injective hname, String.toList_injective hip⟩

/-- The users do not meet: no tier sees both at one address. -/
def Apart (origin : String → RateLimitTierName → String → Prop) (a b : String) : Prop :=
  ∀ tier, PerUser tier → ∀ ip, ¬ (origin a tier ip ∧ origin b tier ip)

/-- The requests of two users to routes of the per-user tiers, each from an address that `origin`
admits for its user and its tier. -/
structure Between (origin : String → RateLimitTierName → String → Prop) (a b : String)
    (rs : List UserRequest) : Prop where
  user : ∀ r ∈ rs, r.user = a ∨ r.user = b
  tier : ∀ r ∈ rs, PerUser r.tier
  address : ∀ r ∈ rs, origin r.user r.tier r.http.clientIp
  ordered : Ordered (rs.map UserRequest.evaluation)

/-- **Users that do not meet** are independent. -/
theorem independent_of_apart {origin : String → RateLimitTierName → String → Prop} {a b : String}
    {rs : List UserRequest} (digest : String → String) (h : Apart origin a b)
    (hrs : Between origin a b rs) : Independent digest a rs := by
  unfold Independent seenBy
  have hkeys : ∀ r ∈ rs, ∀ r' ∈ rs, r.user = a → ¬ r'.user = a →
      r.bucket digest ≠ r'.bucket digest := by
    intro r hr r' hr' ha hb heq
    have hb : r'.user = b := (hrs.user r' hr').resolve_left hb
    obtain ⟨htier, hip⟩ := bucket_inj (hrs.tier r hr) (hrs.tier r' hr') heq
    have hra := hrs.address r hr
    have hrb := hrs.address r' hr'
    rw [ha] at hra
    rw [hb, ← htier, ← hip] at hrb
    exact h r.tier (hrs.tier r hr) _ ⟨hra, hrb⟩
  have hself : (rs.filter (fun r => decide (r.user = a))).filter (fun r => decide (r.user = a)) =
      rs.filter (fun r => decide (r.user = a)) := by
    rw [List.filter_filter]
    simp
  have hkeys' : ∀ r ∈ rs.filter (fun r => decide (r.user = a)),
      ∀ r' ∈ rs.filter (fun r => decide (r.user = a)), r.user = a → ¬ r'.user = a →
        r.bucket digest ≠ r'.bucket digest :=
    fun _ _ r' hr' _ hnot => absurd (of_decide_eq_true (List.mem_filter.1 hr').2) hnot
  rw [(serve_local digest).outputs_filter (p := fun r => r.user = a) hkeys,
    (serve_local digest).outputs_filter (p := fun r => r.user = a) hkeys', hself]

/-! ### A crowd at one address -/

/-- So many evaluations at once. -/
def burst (n : ℕ) : List Evaluation :=
  (List.range n).map (fun i => ⟨0, String.ofList (List.replicate i 'x')⟩)

theorem burst_succ (n : ℕ) :
    burst (n + 1) = burst n ++ [⟨0, String.ofList (List.replicate n 'x')⟩] := by
  rw [burst, List.range_succ, List.map_append]
  rfl

theorem ordered_burst (n : ℕ) : Ordered (burst n) := by
  constructor
  · rw [burst, List.map_map, List.pairwise_map]
    exact List.pairwise_of_forall fun _ _ => Nat.le_refl 0
  · rw [burst, List.map_map]
    refine List.nodup_range.map fun i j hij => ?_
    have hlist := congrArg (fun m : String => m.toList.length) hij
    simpa [Evaluation.member] using hlist

section Crowd

variable {window limit : ℕ} {key : String} {store : RateLimitStore} {digest : String → String}

/-- As long as there is room, all are admitted. -/
theorem after_burst (hwindow : 0 < window) {n : ℕ} (hn : n ≤ limit) :
    Limiter.after window limit [] (burst n) = List.replicate n 0 := by
  induction n with
  | zero => rfl
  | succ n ih =>
    have hcount : Windows.count window 0 (List.replicate n 0) = n := by
      simp [Windows.count, Windows.recent, Windows.Within, hwindow]
    have hsnoc : Limiter.after window limit [] (burst (n + 1)) =
        Limiter.next window limit (Limiter.after window limit [] (burst n)) 0 := by
      rw [burst_succ, Limiter.after, Runs.run_append]
      rfl
    have hroom : Windows.count window 0 (List.replicate n 0) < limit := hcount.symm ▸ hn
    rw [hsnoc, ih (Nat.le_of_succ_le hn), Limiter.next, if_pos hroom, List.replicate_succ']

/-- The first evaluation of a key is admitted. -/
theorem allowed_first (hwindow : 0 < window) (hlimit : 1 ≤ limit) (hfresh : store.entries key = none)
    (e : Evaluation) :
    ∃ r, (slidingWindow window limit key store e).2 = some r ∧ r.allowed = true := by
  have hsingle : Ordered ([] ++ e :: []) := ⟨List.pairwise_singleton _ _, List.nodup_singleton _⟩
  obtain ⟨r, hr, hallowed, -⟩ := slidingWindow_spec hwindow hlimit hfresh [] e [] hsingle
  exact ⟨r, hr, hallowed.2 hlimit⟩

/-- After a burst that has used up the limit, an evaluation at the same time is denied. -/
theorem denied_after_burst (hwindow : 0 < window) (hlimit : 1 ≤ limit)
    (hfresh : store.entries key = none) :
    ∃ r, (slidingWindow window limit key (evaluateAll window limit key store (burst limit))
      ⟨0, String.ofList (List.replicate limit 'x')⟩).2 = some r ∧ r.allowed = false := by
  have hordered : Ordered (burst limit ++ ⟨0, String.ofList (List.replicate limit 'x')⟩ :: []) :=
    burst_succ limit ▸ ordered_burst (limit + 1)
  obtain ⟨r, hr, hallowed, -⟩ := slidingWindow_spec hwindow hlimit hfresh (burst limit) _ [] hordered
  refine ⟨r, hr, Bool.eq_false_iff.2 fun htrue => ?_⟩
  have hroom := hallowed.1 htrue
  rw [admissions_eq hfresh (ordered_burst limit), after_burst hwindow (Nat.le_refl limit)] at hroom
  simp [Windows.count, Windows.recent, Windows.Within, hwindow] at hroom

/-- The store after requests that share a bucket. -/
theorem foldl_serve {tier : RateLimitTierName} {rs : List UserRequest}
    (h : ∀ r ∈ rs, r.tier = tier ∧ r.bucket digest = key) :
    rs.foldl (fun s r => (serve digest s r).1) store =
      evaluateAll (rateLimitTiers tier).windowMs (rateLimitTiers tier).limit key store
        (rs.map UserRequest.evaluation) := by
  induction rs generalizing store with
  | nil => rfl
  | cons r rs ih =>
    obtain ⟨htier, hkey⟩ := h r List.mem_cons_self
    rw [List.foldl_cons, ih fun r' hr' => h r' (List.mem_cons_of_mem r hr'), serve_eq]
    unfold UserRequest.evaluate
    rw [htier, hkey]
    rfl

end Crowd

theorem tier_pos (t : RateLimitTierName) :
    0 < (rateLimitTiers t).windowMs ∧ 1 ≤ (rateLimitTiers t).limit := by
  cases t <;> decide

/-- A request from an address, without headers. -/
def requestFrom (user : String) (tier : RateLimitTierName) (ip : String) (e : Evaluation) :
    UserRequest where
  user := user
  tier := tier
  http := { ip := some ip }
  evaluation := e

/-- As many requests of a user as the tier admits in a window, and one of another user. -/
def crowd (a b : String) (tier : RateLimitTierName) (ip : String) : List UserRequest :=
  (burst (rateLimitTiers tier).limit).map (requestFrom b tier ip) ++
    [requestFrom a tier ip ⟨0, String.ofList (List.replicate (rateLimitTiers tier).limit 'x')⟩]

section Shared

variable {a b ip : String} {tier : RateLimitTierName}

/-- The requests of the crowd. -/
theorem between_crowd {origin : String → RateLimitTierName → String → Prop} (htier : PerUser tier)
    (ha : origin a tier ip) (hb : origin b tier ip) : Between origin a b (crowd a b tier ip) := by
  have hmem : ∀ r ∈ crowd a b tier ip, ∃ e, r = requestFrom a tier ip e ∨ r = requestFrom b tier ip e := by
    intro r hr
    rcases List.mem_append.1 hr with hr | hr
    · obtain ⟨e, -, rfl⟩ := List.mem_map.1 hr
      exact ⟨e, Or.inr rfl⟩
    · exact ⟨_, Or.inl (List.mem_singleton.1 hr)⟩
  refine ⟨fun r hr => ?_, fun r hr => ?_, fun r hr => ?_, ?_⟩
  · obtain ⟨e, rfl | rfl⟩ := hmem r hr
    · exact Or.inl rfl
    · exact Or.inr rfl
  · obtain ⟨e, rfl | rfl⟩ := hmem r hr <;> exact htier
  · obtain ⟨e, rfl | rfl⟩ := hmem r hr
    · exact ha
    · exact hb
  · have hevaluations : (crowd a b tier ip).map UserRequest.evaluation =
        burst ((rateLimitTiers tier).limit + 1) := by
      rw [crowd, List.map_append, List.map_map, burst_succ]
      exact congrArg (· ++ _) (List.map_id _)
    rw [hevaluations]
    exact ordered_burst _

/-- The one request of a user after those of others. -/
theorem filter_user_snoc {others : List UserRequest} {last : UserRequest}
    (hothers : ∀ r ∈ others, r.user ≠ a) (hlast : last.user = a) :
    (others ++ [last]).filter (fun r => decide (r.user = a)) = [last] := by
  have hnone : others.filter (fun r => decide (r.user = a)) = [] :=
    List.filter_eq_nil_iff.2 fun r hr hdec => hothers r hr (of_decide_eq_true hdec)
  rw [List.filter_append, hnone, List.nil_append]
  simp [hlast]

/-- What the user sees of it. -/
theorem seenBy_snoc (digest : String → String) {others : List UserRequest} {last : UserRequest}
    (hothers : ∀ r ∈ others, r.user ≠ a) (hlast : last.user = a) :
    seenBy digest a (others ++ [last]) = [(serve digest
      (others.foldl (fun s r => (serve digest s r).1) TtlCache.empty) last).2.isOk] := by
  have hnone : (Keyed.outputs (serve digest) TtlCache.empty others).filter
      (fun x => decide (x.1.user = a)) = [] := by
    refine List.filter_eq_nil_iff.2 fun x hx hdec => ?_
    exact hothers x.1 (Keyed.fst_mem_of_mem_outputs hx) (of_decide_eq_true hdec)
  rw [seenBy, Keyed.outputs_append, List.filter_append, hnone, List.nil_append]
  simp [Keyed.outputs, hlast]

/-- **A shared address**: the last request is denied, and would be admitted alone. -/
theorem not_independent_crowd (digest : String → String) (hab : a ≠ b) (htier : PerUser tier)
    (ip : String) : ¬ Independent digest a (crowd a b tier ip) := by
  obtain ⟨hwindow, hlimit⟩ := tier_pos tier
  obtain ⟨last, hlast⟩ : ∃ last, requestFrom a tier ip
      ⟨0, String.ofList (List.replicate (rateLimitTiers tier).limit 'x')⟩ = last := ⟨_, rfl⟩
  obtain ⟨others, hothers⟩ : ∃ others, (burst (rateLimitTiers tier).limit).map
      (requestFrom b tier ip) = others := ⟨_, rfl⟩
  have hcrowd : crowd a b tier ip = others ++ [last] := by rw [crowd, hothers, hlast]
  have hlastUser : last.user = a := hlast ▸ rfl
  have hother : ∀ r ∈ others, r.user = b ∧ r.tier = tier ∧ r.bucket digest = last.bucket digest := by
    intro r hr
    rw [← hothers] at hr
    obtain ⟨e, -, rfl⟩ := List.mem_map.1 hr
    refine ⟨rfl, rfl, ?_⟩
    rw [← hlast, bucket_perUser htier, bucket_perUser htier]
    rfl
  -- the last request finds the bucket used up, or untouched
  have hstore : others.foldl (fun s r => (serve digest s r).1) TtlCache.empty =
      evaluateAll (rateLimitTiers tier).windowMs (rateLimitTiers tier).limit
        (last.bucket digest) TtlCache.empty (burst (rateLimitTiers tier).limit) := by
    rw [foldl_serve fun r hr => (hother r hr).2, ← hothers, List.map_map]
    exact congrArg _ (List.map_id _)
  have hfresh : (TtlCache.empty : RateLimitStore).entries (last.bucket digest) = none := rfl
  obtain ⟨r, hr, hdenied⟩ := denied_after_burst hwindow hlimit hfresh
  obtain ⟨r', hr', hallowed⟩ := allowed_first hwindow hlimit hfresh last.evaluation
  have hdenied' : (serve digest (others.foldl (fun s r => (serve digest s r).1) TtlCache.empty)
      last).2.isOk = false := by
    rw [hstore, ← hdenied]
    refine isOk_serve ?_
    rw [← hr, ← hlast]
    rfl
  have hallowed' : (serve digest TtlCache.empty last).2.isOk = true := by
    rw [← hallowed]
    refine isOk_serve ?_
    rw [← hr', ← hlast]
    rfl
  have hothers' : ∀ r ∈ others, r.user ≠ a := fun r hr huser =>
    hab (huser.symm.trans (hother r hr).1)
  have hseen : seenBy digest a (others ++ [last]) = [false] := by
    rw [seenBy_snoc digest hothers' hlastUser, hdenied']
  have hseen' : seenBy digest a ([] ++ [last]) = [true] := by
    rw [seenBy_snoc digest (fun _ hr => absurd hr List.not_mem_nil) hlastUser, List.foldl_nil,
      hallowed']
  rw [List.nil_append] at hseen'
  rw [hcrowd, Independent, hseen, filter_user_snoc hothers' hlastUser, hseen']
  simp

end Shared

/-- **The quotas of two users.**  Whatever requests they make from the addresses of `origin`, the
one user sees the same with and without the requests of the other exactly if no tier sees both
at one address. -/
theorem independent_iff (digest : String → String) {a b : String} (hab : a ≠ b)
    (origin : String → RateLimitTierName → String → Prop) :
    (∀ rs, Between origin a b rs → Independent digest a rs) ↔ Apart origin a b := by
  constructor
  · rintro h tier htier ip ⟨ha, hb⟩
    exact not_independent_crowd digest hab htier ip (h _ (between_crowd htier ha hb))
  · exact fun h rs hrs => independent_of_apart digest h hrs

namespace Quotas.Sample

/-- Ten requests of user 2 to the assistant, and one of user 1, all behind one address. -/
def requests : List UserRequest := crowd "1" "2" .ai "203.0.113.7"

/-- User 1 is denied, though user 1 has made no other request. -/
theorem not_independent :
    Between (fun _ _ ip => ip = "203.0.113.7") "1" "2" requests ∧
      ¬ Independent id "1" requests :=
  have htier : PerUser .ai := trivial
  ⟨between_crowd htier rfl rfl, not_independent_crowd id (by decide) htier "203.0.113.7"⟩

/-- Two users, each at an address of their own. -/
theorem independent_addresses :
    Apart (fun user _ ip => ip = user) "1" "2" ∧
      ∀ rs, Between (fun user _ ip => ip = user) "1" "2" rs → Independent id "1" rs := by
  have hapart : Apart (fun user _ ip => ip = user) "1" "2" := fun _ _ _ hmeet =>
    absurd (hmeet.1.symm.trans hmeet.2) (by decide)
  exact ⟨hapart, (independent_iff id (by decide) fun user _ ip => ip = user).2 hapart⟩

end Quotas.Sample

end OpsHub
