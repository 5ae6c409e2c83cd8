import OpsHub.Identity.Sessions
import Mathlib.Data.Int.Notation

/-!
# Access tokens

What signs an access token and what validates it: the options of `JwtModule`, the claims of
`#mintTokens`, the options of `JwtStrategy` and its `validate`.  The library that signs and
verifies is a parameter, of which `Lawful` says that it takes the algorithms it is given.

* `agrees_iff_mem`: a token is minted and accepted until it expires exactly if the algorithm
  that it is signed with is one of those that the strategy lists;
* `agrees_iff`: the module signs with `EdDSA` and the strategy lists `ES256` only, so that no
  access token is ever accepted;
* `never_agrees`: `jsonwebtoken` does not sign with `EdDSA`, so that none is minted either.
-/

namespace OpsHub

/-! ### The environment -/

/-- The text contains the beginning of a PEM block. -/
def IsPem (v : String) : Prop := "-----BEGIN".toList <:+: v.toList

instance (v : String) : Decidable (IsPem v) := inferInstanceAs (Decidable (_ <:+: _))

/-- The environment variables `JWT_…` that access tokens depend on. -/
structure JwtVariables where
  privateKey : String
  publicKey : String
  accessExpiry : Option String := none
  issuer : Option String := none
  audience : Option String := none

/-- The configuration that they give, with the PEM checks it has passed. -/
structure JwtEnv where
  privateKey : String
  publicKey : String
  accessExpiry : String
  issuer : String
  audience : String
  privatePem : IsPem privateKey
  publicPem : IsPem publicKey

namespace EnvSchema

/-- A PEM text, as it stands or encoded in base64. -/
def pem (fromBase64 : String → String) (v : String) : Option { v' : String // IsPem v' } :=
  if v = "" then none
  else if h : IsPem v then some ⟨v, h⟩
  else if h : IsPem (fromBase64 v) then some ⟨fromBase64 v, h⟩
  else none

/-- The part of `EnvSchema` for access tokens. -/
def parse (fromBase64 : String → String) (vars : JwtVariables) : Option JwtEnv := do
  let privateKey ← pem fromBase64 vars.privateKey
  let publicKey ← pem fromBase64 vars.publicKey
  pure {
    privateKey := privateKey.1
    publicKey := publicKey.1
    accessExpiry := vars.accessExpiry.getD "15m"
    issuer := vars.issuer.getD "opshub-api"
    audience := vars.audience.getD "opshub-web"
    privatePem := privateKey.2
    publicPem := publicKey.2
  }

/-- A PEM text is taken as it stands. -/
theorem pem_of_isPem {fromBase64 : String → String} {v : String} (h : IsPem v) (hne : v ≠ "") :
    pem fromBase64 v = some ⟨v, h⟩ := by
  rw [pem, if_neg hne, dif_pos h]

end EnvSchema

/-! ### The library -/

/-- The claims that `#mintTokens` signs. -/
structure JwtClaims where
  jti : Uuid
  sub : Uuid
  email : String
  name : String
  roles : List String
  deriving DecidableEq

/-- `JwtPayload`. -/
structure JwtPayload extends JwtClaims where
  iss : String
  aud : String
  iat : ℕ
  exp : ℤ
  deriving DecidableEq

/-- The part of the payload that decides on acceptance; an `exp` before 1970 is as good as that
of the first second. -/
def JwtPayload.session (payload : JwtPayload) : AccessToken where
  jti := payload.jti
  sub := payload.sub
  iat := payload.iat
  exp := payload.exp.toNat

/-- The options of `JwtModule` that signing depends on. -/
structure JwtModuleOptions where
  privateKey : String
  algorithm : String
  expiresIn : String
  issuer : String
  audience : String

/-- The options of `JwtStrategy`. -/
structure StrategyOptions where
  secretOrKey : String
  algorithms : List String
  issuer : String
  audience : String

/-- The library: the `exp` that an `expiresIn` gives at an `iat`, signing with an algorithm and a
private key, the algorithm in the header of a token, and verification at a time in seconds. -/
structure JwtLibrary where
  timespan : String → ℕ → Option ℤ
  sign : String → String → JwtPayload → Option String
  algorithm : String → Option String
  verify : StrategyOptions → ℕ → String → Option JwtPayload

/-- The library signs with the algorithm it is given, and accepts no other algorithm than those
it is given. -/
structure JwtLibrary.Lawful (lib : JwtLibrary) : Prop where
  sign_algorithm : ∀ {algorithm key payload token}, lib.sign algorithm key payload = some token →
    lib.algorithm token = some algorithm
  verify_algorithm : ∀ {o now token payload}, lib.verify o now token = some payload →
    ∃ algorithm ∈ o.algorithms, lib.algorithm token = some algorithm

/-- The library can sign with the algorithm and the private key, and verifies with the public
key what it has signed. -/
structure JwtLibrary.Supports (lib : JwtLibrary) (algorithm privateKey publicKey : String) :
    Prop where
  signs : ∀ payload, ∃ token, lib.sign algorithm privateKey payload = some token
  verifies : ∀ {payload token o} {now : ℕ}, lib.sign algorithm privateKey payload = some token →
    o.secretOrKey = publicKey → algorithm ∈ o.algorithms → o.issuer = payload.iss →
    o.audience = payload.aud → (now : ℤ) < payload.exp → lib.verify o now token = some payload

/-- The algorithms of `jsonwebtoken` 9.0.3. -/
def jsonwebtokenAlgorithms : List String :=
  ["HS256", "HS384", "HS512", "RS256", "RS384", "RS512", "PS256", "PS384", "PS512", "ES256",
    "ES384", "ES512", "none"]

/-- The library refuses to sign with an algorithm that it does not know. -/
def JwtLibrary.SignsWith (lib : JwtLibrary) (algorithms : List String) : Prop :=
  ∀ {algorithm key payload token}, lib.sign algorithm key payload = some token →
    algorithm ∈ algorithms

/-! ### Signing -/

/-- `JwtModule.registerAsync`. -/
def JwtModule.options (env : JwtEnv) : JwtModuleOptions where
  privateKey := env.privateKey
  algorithm := "EdDSA"
  expiresIn := env.accessExpiry
  issuer := env.issuer
  audience := env.audience

/-- The claims of an employee's session, as `#mintTokens` passes them to the library. -/
def mintClaims (employee : Employee) (sessionId : Uuid) : JwtClaims where
  jti := sessionId
  sub := employee.id
  email := employee.email
  name := employee.displayName
  roles := employee.roles

/-- What the library completes the claims to. -/
def JwtModuleOptions.complete (o : JwtModuleOptions) (now : Time) (exp : ℤ) (claims : JwtClaims) :
    JwtPayload :=
  { claims with
    iss := o.issuer
    aud := o.audience
    iat := now / 1000
    exp := exp }

/-- `jwt.signAsync`, with the payload that it signs. -/
def signAsync (lib : JwtLibrary) (o : JwtModuleOptions) (now : Time) (claims : JwtClaims) :
    Option (String × JwtPayload) := do
  let exp ← lib.timespan o.expiresIn (now / 1000)
  let token ← lib.sign o.algorithm o.privateKey (o.complete now exp claims)
  pure (token, o.complete now exp claims)

/-! ### Validation -/

namespace AccessTokens

/-- What `JwtStrategy` is constructed with. -/
def strategyOptions (env : JwtEnv) : StrategyOptions where
  secretOrKey := env.publicKey
  algorithms := ["ES256"]
  issuer := env.issuer
  audience := env.audience

/-- The session or the employee has been revoked; nothing is known without the cache. -/
def Revoked (cache : Option (TtlCache RevocationKey Unit)) (now : Time) (jti sub : Uuid) : Prop :=
  ∃ c ∈ cache, ¬ (c.get now (.session jti) = none ∧ c.get now (.employee sub) = none)

instance (cache : Option (TtlCache RevocationKey Unit)) (now : Time) (jti sub : Uuid) :
    Decidable (Revoked cache now jti sub) :=
  match cache with
  | some c =>
    decidable_of_iff (¬ (c.get now (.session jti) = none ∧ c.get now (.employee sub) = none))
      (by simp [Revoked])
  | none => isFalse (by simp [Revoked])

/-- `JwtStrategy.validate`. -/
def validate (cache : Option (TtlCache RevocationKey Unit)) (now : Time) (payload : JwtPayload) :
    Except Failure JwtPayload := do
  Outcome.require (¬ Revoked cache now payload.jti payload.sub)
    (.unauthorized "AUTH_TOKEN_INVALID" "Session has been revoked")
  pure payload

/-- The strategy on a request with the token: verification, then `validate`. -/
def authenticate (lib : JwtLibrary) (o : StrategyOptions)
    (cache : Option (TtlCache RevocationKey Unit)) (now : Time) (token : String) :
    Except Failure JwtPayload := do
  let payload ← Outcome.orThrow (.unauthorized "UNAUTHORIZED" "Unauthorized")
    (lib.verify o (now / 1000) token)
  validate cache now payload

/-! ### Agreement -/

/-- **The guarantee**: an access token of the employee is minted, and it is accepted from then
until it expires, unless the session or the employee has been revoked, as what has been
minted. -/
def Agrees (lib : JwtLibrary) (o : JwtModuleOptions) (v : StrategyOptions) (employee : Employee)
    (sessionId : Uuid) (mintedAt : Time) : Prop :=
  ∃ token payload, signAsync lib o mintedAt (mintClaims employee sessionId) = some (token, payload) ∧
    ∀ cache now, mintedAt ≤ now → ((now / 1000 : ℕ) : ℤ) < payload.exp →
      ¬ Revoked cache now sessionId employee.id →
      ∃ user, authenticate lib v cache now token = .ok user ∧ user.sub = employee.id ∧
        user.roles = employee.roles ∧ user.jti = sessionId

section Agreement

variable {lib : JwtLibrary} {o : JwtModuleOptions} {v : StrategyOptions} {employee : Employee}
  {sessionId : Uuid} {claims : JwtClaims} {token : String} {payload user : JwtPayload}
  {cache : Option (TtlCache RevocationKey Unit)} {mintedAt now : Time}

theorem signAsync_eq_some_iff :
    signAsync lib o now claims = some (token, payload) ↔
      ∃ exp, lib.timespan o.expiresIn (now / 1000) = some exp ∧ payload = o.complete now exp claims ∧
        lib.sign o.algorithm o.privateKey payload = some token := by
  simp only [signAsync, Option.bind_eq_bind, Option.bind_eq_some_iff, Option.pure_def,
    Option.some.injEq, Prod.mk.injEq]
  constructor
  · rintro ⟨exp, hexp, token', hsign, rfl, rfl⟩
    exact ⟨exp, hexp, rfl, hsign⟩
  · rintro ⟨exp, hexp, rfl, hsign⟩
    exact ⟨exp, hexp, token, hsign, rfl, rfl⟩

theorem validate_eq_ok_iff :
    validate cache now payload = .ok user ↔
      ¬ Revoked cache now payload.jti payload.sub ∧ user = payload := by
  simp only [validate, Except.bind_eq_ok_iff, Outcome.require_eq_ok_iff, Except.pure_eq_ok_iff]
  constructor
  · rintro ⟨-, hlive, rfl⟩
    exact ⟨hlive, rfl⟩
  · rintro ⟨hlive, rfl⟩
    exact ⟨(), hlive, rfl⟩

theorem authenticate_eq_ok_iff :
    authenticate lib v cache now token = .ok user ↔
      lib.verify v (now / 1000) token = some user ∧ ¬ Revoked cache now user.jti user.sub := by
  simp only [authenticate, Except.bind_eq_ok_iff, Outcome.orThrow_eq_ok_iff, validate_eq_ok_iff]
  constructor
  · rintro ⟨payload, hverify, hlive, rfl⟩
    exact ⟨hverify, hlive⟩
  · rintro ⟨hverify, hlive⟩
    exact ⟨user, hverify, hlive, rfl⟩

/-- A token signed with an algorithm that the strategy does not list is rejected at all times,
whatever the cache holds. -/
theorem rejected_of_not_mem (hlawful : lib.Lawful) (halgorithm : o.algorithm ∉ v.algorithms)
    (hsign : signAsync lib o mintedAt claims = some (token, payload))
    (cache : Option (TtlCache RevocationKey Unit)) (now : Time) :
    authenticate lib v cache now token = .error (.unauthorized "UNAUTHORIZED" "Unauthorized") := by
  obtain ⟨exp, -, -, hsign⟩ := signAsync_eq_some_iff.1 hsign
  have hheader := hlawful.sign_algorithm hsign
  have hverify : lib.verify v (now / 1000) token = none := by
    refine Option.eq_none_iff_forall_ne_some.2 fun user hverify => ?_
    obtain ⟨algorithm, hmem, heq⟩ := hlawful.verify_algorithm hverify
    rw [hheader] at heq
    exact halgorithm (Option.some.inj heq ▸ hmem)
  rw [authenticate, hverify]
  rfl

/-- Where keys, issuer and audience match and the strategy lists the algorithm, the token that is
minted is accepted. -/
theorem agrees_of_mem (hsupports : lib.Supports o.algorithm o.privateKey v.secretOrKey)
    (hissuer : v.issuer = o.issuer) (haudience : v.audience = o.audience) {exp : ℤ}
    (hexp : lib.timespan o.expiresIn (mintedAt / 1000) = some exp)
    (halgorithm : o.algorithm ∈ v.algorithms) : Agrees lib o v employee sessionId mintedAt := by
  obtain ⟨token, hsign⟩ := hsupports.signs (o.complete mintedAt exp (mintClaims employee sessionId))
  refine ⟨token, _, signAsync_eq_some_iff.2 ⟨exp, hexp, rfl, hsign⟩, ?_⟩
  intro cache now hminted hbefore hlive
  have hverify := hsupports.verifies hsign rfl halgorithm hissuer haudience hbefore
  exact ⟨_, authenticate_eq_ok_iff.2 ⟨hverify, hlive⟩, rfl, rfl, rfl⟩

/-- With an algorithm that the strategy does not list, there is agreement on a token only that has
expired in the second in which it is minted. -/
theorem agrees_iff_of_not_mem (hlawful : lib.Lawful) (halgorithm : o.algorithm ∉ v.algorithms) :
    Agrees lib o v employee sessionId mintedAt ↔
      ∃ exp, lib.timespan o.expiresIn (mintedAt / 1000) = some exp ∧
        exp ≤ (mintedAt / 1000 : ℕ) ∧
        (lib.sign o.algorithm o.privateKey
          (o.complete mintedAt exp (mintClaims employee sessionId))).isSome := by
  constructor
  · rintro ⟨token, payload, hsign, haccepted⟩
    obtain ⟨exp, hexp, rfl, htoken⟩ := signAsync_eq_some_iff.1 hsign
    refine ⟨exp, hexp, ?_, Option.isSome_iff_exists.2 ⟨token, htoken⟩⟩
    by_contra hlater
    -- at the time of the minting nothing is revoked without the cache
    have hlive : ¬ Revoked none mintedAt sessionId employee.id := by
      rintro ⟨c, hc, -⟩
      cases hc
    obtain ⟨user, huser, -⟩ :=
      haccepted none mintedAt (Nat.le_refl _) (Int.not_le.1 hlater) hlive
    rw [rejected_of_not_mem hlawful halgorithm hsign] at huser
    cases huser
  · rintro ⟨exp, hexp, hexpired, hsome⟩
    obtain ⟨token, htoken⟩ := Option.isSome_iff_exists.1 hsome
    refine ⟨token, _, signAsync_eq_some_iff.2 ⟨exp, hexp, rfl, htoken⟩, ?_⟩
    intro cache now hminted hbefore
    have hle : ((mintedAt / 1000 : ℕ) : ℤ) ≤ (now / 1000 : ℕ) :=
      Int.ofNat_le.2 (Nat.div_le_div_right hminted)
    exact absurd hbefore (Int.not_lt.2 (Int.le_trans hexpired hle))

/-- **Signing and validation agree** exactly if the strategy lists the algorithm that the module
signs with, for a library that supports it and options that match otherwise. -/
theorem agrees_iff_mem (hlawful : lib.Lawful)
    (hsupports : lib.Supports o.algorithm o.privateKey v.secretOrKey)
    (hissuer : v.issuer = o.issuer) (haudience : v.audience = o.audience) {exp : ℤ}
    (hexp : lib.timespan o.expiresIn (mintedAt / 1000) = some exp)
    (hlater : ((mintedAt / 1000 : ℕ) : ℤ) < exp) :
    Agrees lib o v employee sessionId mintedAt ↔ o.algorithm ∈ v.algorithms := by
  refine ⟨fun hagrees => ?_, agrees_of_mem hsupports hissuer haudience hexp⟩
  by_contra halgorithm
  obtain ⟨exp', hexp', hexpired, -⟩ := (agrees_iff_of_not_mem hlawful halgorithm).1 hagrees
  obtain rfl := Option.some.inj (hexp.symm.trans hexp')
  exact Int.not_lt.2 hexpired hlater

end Agreement

/-! ### The options as they are -/

theorem algorithm_not_mem (env : JwtEnv) :
    (JwtModule.options env).algorithm ∉ (strategyOptions env).algorithms := by
  show "EdDSA" ∉ ["ES256"]
  decide

/-- Whatever the library signs with, no access token that has time before its expiry is
accepted. -/
theorem agrees_iff (lib : JwtLibrary) (hlawful : lib.Lawful) (env : JwtEnv) (employee : Employee)
    (sessionId : Uuid) (mintedAt : Time) :
    Agrees lib (JwtModule.options env) (strategyOptions env) employee sessionId mintedAt ↔
      ∃ exp, lib.timespan env.accessExpiry (mintedAt / 1000) = some exp ∧
        exp ≤ (mintedAt / 1000 : ℕ) ∧
        (lib.sign "EdDSA" env.privateKey ((JwtModule.options env).complete mintedAt exp
          (mintClaims employee sessionId))).isSome :=
  agrees_iff_of_not_mem hlawful (algorithm_not_mem env)

/-- **Signing and validation never agree**: the module asks for an algorithm that the strategy
does not list and the library does not sign with. -/
theorem never_agrees (lib : JwtLibrary) (hlawful : lib.Lawful)
    (halgorithms : lib.SignsWith jsonwebtokenAlgorithms) (env : JwtEnv) (employee : Employee)
    (sessionId : Uuid) (mintedAt : Time) :
    ¬ Agrees lib (JwtModule.options env) (strategyOptions env) employee sessionId mintedAt := by
  intro hagrees
  obtain ⟨exp, -, -, hsome⟩ := (agrees_iff lib hlawful env employee sessionId mintedAt).1 hagrees
  obtain ⟨token, hsign⟩ := Option.isSome_iff_exists.1 hsome
  exact absurd (halgorithms hsign) (by decide)

namespace Sample

/-- A configuration with PEM keys, and the defaults. -/
def vars : JwtVariables where
  privateKey := "-----BEGIN" ++ " PRIVATE KEY-----"
  publicKey := "-----BEGIN" ++ " PUBLIC KEY-----"

theorem isPem_begin (rest : String) : IsPem ("-----BEGIN" ++ rest) := by
  rw [IsPem, String.toList_append]
  exact (List.prefix_append _ _).isInfix

def env : JwtEnv where
  privateKey := vars.privateKey
  publicKey := vars.publicKey
  accessExpiry := "15m"
  issuer := "opshub-api"
  audience := "opshub-web"
  privatePem := isPem_begin _
  publicPem := isPem_begin _

/-- The schema accepts the configuration. -/
theorem parse_vars (fromBase64 : String → String) : EnvSchema.parse fromBase64 vars = some env := by
  have hprivate := @EnvSchema.pem_of_isPem fromBase64 vars.privateKey env.privatePem (by decide)
  have hpublic := @EnvSchema.pem_of_isPem fromBase64 vars.publicKey env.publicPem (by decide)
  rw [EnvSchema.parse, hprivate, hpublic]
  rfl

/-- The payload of the first session of the employee. -/
def payload : JwtPayload :=
  (JwtModule.options env).complete 0 900 (mintClaims Sessions.Sample.employee 10)

/-- A library for the given algorithms, reduced to that payload: its tokens show the algorithm
that they are signed with. -/
def library (supported : List String) : JwtLibrary where
  timespan expiresIn iat := if expiresIn = "15m" then some (iat + 900) else none
  sign algorithm _ _ := if algorithm ∈ supported then some algorithm else none
  algorithm token := some token
  verify o now token := if token ∈ o.algorithms ∧ now < payload.exp then some payload else none

theorem lawful_library (supported : List String) : (library supported).Lawful := by
  constructor
  · intro algorithm key payload token hsign
    simp only [library, Option.ite_none_right_eq_some] at hsign
    rw [← Option.some.inj hsign.2]
    rfl
  · intro o now token payload' hverify
    simp only [library, Option.ite_none_right_eq_some] at hverify
    exact ⟨token, hverify.1.1, rfl⟩

theorem signsWith_library (supported : List String) : (library supported).SignsWith supported := by
  intro algorithm key payload token hsign
  simp only [library, Option.ite_none_right_eq_some] at hsign
  exact hsign.1

end Sample

open Sample in
/-- The configuration passes the schema, the library refuses to sign, and no access token is
minted; a library that can sign with `EdDSA` mints one, which the strategy rejects at once. -/
theorem not_agrees :
    EnvSchema.parse id vars = some env ∧
    signAsync (library jsonwebtokenAlgorithms) (JwtModule.options env) 0
      (mintClaims Sessions.Sample.employee 10) = none ∧
    ¬ Agrees (library jsonwebtokenAlgorithms) (JwtModule.options env) (strategyOptions env)
      Sessions.Sample.employee 10 0 ∧
    signAsync (library ("EdDSA" :: jsonwebtokenAlgorithms)) (JwtModule.options env) 0
      (mintClaims Sessions.Sample.employee 10) = some ("EdDSA", payload) ∧
    authenticate (library ("EdDSA" :: jsonwebtokenAlgorithms)) (strategyOptions env) none 0
      "EdDSA" = .error (.unauthorized "UNAUTHORIZED" "Unauthorized") := by
  refine ⟨parse_vars id, by decide, ?_, by decide +kernel, by decide⟩
  rintro ⟨token, payload, hsign, -⟩
  have hnone : signAsync (library jsonwebtokenAlgorithms) (JwtModule.options env) 0
      (mintClaims Sessions.Sample.employee 10) = none := by decide
  cases hnone.symm.trans hsign

open Sample in
/-- With the options as they are the two do not agree; with `ES256` for `EdDSA` they would. -/
theorem never_agrees_jsonwebtoken :
    ¬ Agrees (library jsonwebtokenAlgorithms) (JwtModule.options env) (strategyOptions env)
      Sessions.Sample.employee 10 0 ∧
    Agrees (library jsonwebtokenAlgorithms) { JwtModule.options env with algorithm := "ES256" }
      (strategyOptions env) Sessions.Sample.employee 10 0 := by
  refine ⟨never_agrees _ (lawful_library _) (signsWith_library _) env Sessions.Sample.employee 10 0,
    "ES256", payload, by decide +kernel, fun cache now _ hexp hlive => ⟨payload, ?_, rfl, rfl, rfl⟩⟩
  have hverify : (library jsonwebtokenAlgorithms).verify (strategyOptions env) (now / 1000)
      "ES256" = some payload := by
    have hlisted : "ES256" ∈ (strategyOptions env).algorithms := by decide
    simp only [library, hlisted, hexp, and_self, if_true]
  exact authenticate_eq_ok_iff.2 ⟨hverify, hlive⟩

end AccessTokens

end OpsHub
