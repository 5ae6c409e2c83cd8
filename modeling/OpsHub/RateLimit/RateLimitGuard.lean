import OpsHub.Platform.Errors
import OpsHub.RateLimit.SlidingWindow

/-!
# The rate-limit guard

`RATE_LIMIT_TIERS`, the address and the key that `RateLimitGuard.canActivate` takes from a
request, and what it makes of the answer of the script.
-/

namespace OpsHub

/-! ### Tiers -/

/-- `RateLimitTier.keyBy`. -/
inductive RateLimitKeyBy
  | ip
  | userId
  | refreshToken
  deriving DecidableEq, Repr

/-- `RateLimitTier`. -/
structure RateLimitTier where
  name : String
  windowMs : ℕ
  limit : ℕ
  keyBy : Option RateLimitKeyBy := none
  deriving DecidableEq, Repr

/-- `RateLimitTierName`. -/
inductive RateLimitTierName
  | default
  | strict
  | authLogin
  | authRefresh
  | ai
  | upload
  deriving DecidableEq, Repr

/-- `RATE_LIMIT_TIERS`. -/
def rateLimitTiers : RateLimitTierName → RateLimitTier
  | .default => { name := "DEFAULT", windowMs := 60000, limit := 200 }
  | .strict => { name := "STRICT", windowMs := 60000, limit := 60 }
  | .authLogin =>
    { name := "AUTH_LOGIN", windowMs := 15 * 60000, limit := 5, keyBy := some .ip }
  | .authRefresh =>
    { name := "AUTH_REFRESH", windowMs := 60000, limit := 30, keyBy := some .refreshToken }
  | .ai => { name := "AI", windowMs := 60000, limit := 10, keyBy := some .userId }
  | .upload => { name := "UPLOAD", windowMs := 60000, limit := 30, keyBy := some .userId }

/-- The metadata of a handler and its class that the guard reads. -/
structure RateLimitMetadata where
  skipRateLimit : Bool := false
  rateLimitTier : Option RateLimitTierName := none
  deriving DecidableEq, Repr

/-- The tier of a route. -/
def RateLimitMetadata.tierName (route : RateLimitMetadata) : RateLimitTierName :=
  route.rateLimitTier.getD .default

/-! ### The key -/

/-- An incoming request, as the guards see it: headers, the address of the peer, the cookie, and
the principal that a guard before has attached. -/
structure HttpRequest where
  xRealIp : Option String := none
  xForwardedFor : Option String := none
  ip : Option String := none
  refreshCookie : Option String := none
  user : Option String := none
  deriving DecidableEq, Repr

/-- The white space that `String.prototype.trim` removes. -/
def jsWhiteSpace (c : Char) : Bool :=
  let n := c.toNat
  (9 ≤ n && n ≤ 13) || n == 32 || n == 160 || n == 5760 || (8192 ≤ n && n ≤ 8202) || n == 8232 ||
    n == 8233 || n == 8239 || n == 8287 || n == 12288 || n == 65279

/-- `String.prototype.trim`. -/
def jsTrim (l : List Char) : List Char :=
  ((l.dropWhile jsWhiteSpace).reverse.dropWhile jsWhiteSpace).reverse

/-- `header.split(',')[0].trim()`. -/
def firstAddress (header : String) : String :=
  String.ofList (jsTrim (header.toList.takeWhile (fun c => c != ',')))

/-- The address of the client; a header that is present counts even when it is empty. -/
def HttpRequest.clientIp (req : HttpRequest) : String :=
  (req.xRealIp <|> req.xForwardedFor.map firstAddress <|> req.ip).getD "unknown"

/-- What the key names besides the tier; `digest` is the start of the SHA-256 of a cookie. -/
def HttpRequest.subject (digest : String → String) (req : HttpRequest) :
    Option RateLimitKeyBy → String
  | some .ip => req.clientIp
  | some .refreshToken =>
    match req.refreshCookie with
    | some rawCookie => if rawCookie = "" then req.clientIp else digest rawCookie
    | none => req.clientIp
  | some .userId => req.user.getD req.clientIp
  | none => req.user.getD req.clientIp

/-- `rateLimitKey`. -/
def rateLimitKey (digest : String → String) (tierName : RateLimitTierName) (req : HttpRequest) :
    String :=
  let tier := rateLimitTiers tierName
  "rl:" ++ tier.name ++ ":" ++ req.subject digest tier.keyBy

/-! ### The guard -/

/-- The headers of a response. -/
structure RateLimitHeaders where
  limit : ℕ
  remaining : ℕ
  reset : ℕ
  retryAfter : Option ℕ := none
  deriving DecidableEq, Repr

/-- How the guard ends: it lets the request pass for want of a limit, of the cache or of an answer
of the script, or within the limit; or it throws. -/
inductive RateLimitOutcome
  | skipped
  | unavailable
  | failed
  | allowed (headers : RateLimitHeaders)
  | limited (headers : RateLimitHeaders) (failure : Failure)
  deriving DecidableEq, Repr

/-- Whether the request goes on. -/
def RateLimitOutcome.proceeds : RateLimitOutcome → Bool
  | .limited _ _ => false
  | _ => true

/-- `Too many requests`. -/
def tooManyRequests (retryAfterSecs : ℕ) : Failure :=
  .domain "RATE_LIMITED"
    ("Too many requests — retry after " ++ toString retryAfterSecs ++ "s.") .rateLimited

/-- What the guard makes of the reply of the script. -/
def RateLimitTier.outcome (tier : RateLimitTier) (now : ℕ) : Option RateLimitReply → RateLimitOutcome
  | none => .failed
  | some reply =>
    let headers : RateLimitHeaders :=
      { limit := tier.limit, remaining := reply.remaining, reset := ceilSeconds (now + tier.windowMs) }
    if reply.allowed then .allowed headers
    else .limited { headers with retryAfter := some reply.retryAfter }
      (tooManyRequests reply.retryAfter)

/-- `RateLimitGuard.canActivate`. -/
def RateLimitGuard.canActivate (digest : String → String) (isAvailable : Bool)
    (route : RateLimitMetadata) (req : HttpRequest) (e : Evaluation) (store : RateLimitStore) :
    RateLimitStore × RateLimitOutcome :=
  if route.skipRateLimit then (store, .skipped)
  else if isAvailable then
    let tier := rateLimitTiers route.tierName
    let (store', reply) :=
      slidingWindow tier.windowMs tier.limit (rateLimitKey digest route.tierName req) store e
    (store', tier.outcome e.now reply)
  else (store, .unavailable)

end OpsHub
