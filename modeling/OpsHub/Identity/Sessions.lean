import OpsHub.Domain.TypeDefs
import OpsHub.Lib.Pool
import OpsHub.Lib.Runs
import OpsHub.Lib.TtlCache

/-!
# Sessions

`AuthService`: logins, refreshes and logouts, each as the sequence of its statements, with
any number of calls in flight, and `JwtStrategy.validate`.  A call keeps what it has read;
nothing holds its statements together.

* `Phase`: the statement that a call makes next, with what it has read so far;
* `step`: one statement of one call, the beginning of a call, or the passing of time;
* `Step`, `step_cases`: everything that a step can do.

Generated identifiers come with the events; `drawn` keeps family identifiers apart, as a
generator of random ones does.  `rotated`, `exchanged` and `stolen` record, for the
statements only, what the refreshes have done.
-/

namespace OpsHub

/-- Milliseconds of a day, `MS_PER_DAY`. -/
def msPerDay : ℕ := 86400000

/-- What `AuthService` is configured with; `hash` is SHA-256 in hexadecimal, `accessExpiry`
is `JWT_ACCESS_EXPIRY` in seconds. -/
structure AuthConfig where
  hash : String → String
  accessExpiry : ℕ
  refreshExpiryDays : ℕ

/-- The keys `revoked:session:…` and `revoked:employee:…`. -/
inductive RevocationKey
  | session (id : Uuid)
  | employee (id : Uuid)
  deriving DecidableEq, Repr

/-- The claims of an access token that decide whether it is accepted; `iat` and `exp` are
in seconds. -/
structure AccessToken where
  jti : Uuid
  sub : Uuid
  iat : ℕ
  exp : ℕ
  deriving DecidableEq, Repr

/-- A minted access token, with the family of its session and the status that the row of
its employee had at that time. -/
structure Issued where
  token : AccessToken
  familyId : Uuid
  status : Option EmployeeStatus
  deriving DecidableEq, Repr

/-! ### The repository -/

namespace RefreshTokenDrizzleRepository

/-- The index of `uq_refresh_token_hash`. -/
def hashIndex (t : RefreshToken) : Option String := some t.tokenHash

/-- `create`. -/
def create (row : RefreshToken) (tokens : Table RefreshToken.id) : Option (Table RefreshToken.id) :=
  if tokens.findBy hashIndex row.tokenHash = none then tokens.insert row else none

/-- `findByHash`. -/
def findByHash (tokens : Table RefreshToken.id) (hash : String) : Option RefreshToken :=
  tokens.findBy hashIndex hash

theorem id_revoked (t : RefreshToken) : ({ t with revoked := true } : RefreshToken).id = t.id := rfl

/-- Set `revoked` in every row that meets `p`. -/
def revokeWhere (p : RefreshToken → Bool) (tokens : Table RefreshToken.id) : Table RefreshToken.id :=
  tokens.updateWhere p (fun t => { t with revoked := true }) id_revoked

/-- `revokeById`. -/
def revokeById (id : Uuid) : Table RefreshToken.id → Table RefreshToken.id :=
  revokeWhere (fun t => decide (t.id = id))

/-- `revokeFamily`. -/
def revokeFamily (familyId : Uuid) : Table RefreshToken.id → Table RefreshToken.id :=
  revokeWhere (fun t => decide (t.familyId = familyId))

/-- `revokeAllForEmployee`. -/
def revokeAllForEmployee (employeeId : Uuid) : Table RefreshToken.id → Table RefreshToken.id :=
  revokeWhere (fun t => decide (t.employeeId = employeeId))

end RefreshTokenDrizzleRepository

namespace Sessions

open RefreshTokenDrizzleRepository

/-! ### Calls -/

/-- The next statement of a call.  `presented` is the token that a refresh was given, with
the row it was found in. -/
inductive Phase
  /-- A refresh that has found its token revoked: `revokeFamily`. -/
  | theft (stored : RefreshToken)
  /-- A refresh that has found its token live: `revokeById`. -/
  | rotate (raw : String) (stored : RefreshToken)
  /-- Then: `findById` of the employee. -/
  | reload (raw : String) (stored : RefreshToken)
  /-- A refresh or a login: `#mintTokens`. -/
  | mint (employee : Employee) (familyId : Uuid) (presented : Option (String × Uuid))
  /-- A logout that has found its token live: `revokeById`. -/
  | revoke (stored : RefreshToken) (accessTokenExp : Option ℕ)
  /-- Then: the key of the session. -/
  | deny (sessionId : Uuid) (accessTokenExp : Option ℕ)
  | finished
  deriving DecidableEq, Repr

/-- The database, the cache, the clock, the calls in flight, and what has happened. -/
structure State where
  tables : Tables
  denylist : TtlCache RevocationKey Unit
  now : ℕ
  calls : List Phase
  issued : List Issued
  drawn : List Uuid
  rotated : List Uuid
  exchanged : List (String × Uuid)
  stolen : List Uuid

/-- No session has been opened yet. -/
def State.initial (tables : Tables) (now : Time) : State where
  tables := { tables with refreshTokens := Table.empty _ }
  denylist := TtlCache.empty
  now := now
  calls := []
  issued := []
  drawn := []
  rotated := []
  exchanged := []
  stolen := []

/-- No call is in progress. -/
def State.Idle (s : State) : Prop := ∀ call ∈ s.calls, call = .finished

instance (s : State) : Decidable s.Idle :=
  inferInstanceAs (Decidable (∀ call ∈ s.calls, call = .finished))

/-- The refresh tokens. -/
def State.tokens (s : State) : Table RefreshToken.id := s.tables.refreshTokens

/-- The state with other refresh tokens. -/
def State.withTokens (s : State) (tokens : Table RefreshToken.id) : State :=
  { s with tables := { s.tables with refreshTokens := tokens } }

/-- The state in which the `i`-th call goes on with `phase`. -/
def State.goOn (s : State) (i : ℕ) (phase : Phase) : State :=
  { s with calls := s.calls.set i phase }

/-- The state in which a new call goes on with `phase`. -/
def State.begin (s : State) (phase : Phase) : State := { s with calls := s.calls ++ [phase] }

/-! ### The statements -/

/-- `#assertActive`. -/
def assertActive (employee : Employee) : Except Failure Unit :=
  Outcome.require (employee.status ≠ .offboarded)
    (.unauthorized "EMPLOYEE_INACTIVE" "Employee is offboarded")

/-- The beginning of `devLogin` and `entraLogin`: the employee that they have found. -/
def login (employees : Table Employee.id) (employeeId : Uuid) : Except Failure Employee := do
  let employee ← Outcome.orThrow (.unauthorized "AUTH_INVALID_CREDENTIALS" "Unknown employee")
    (employees.find employeeId)
  assertActive employee
  pure employee

/-- The beginning of `refresh`: the lookup and the tests on the copy. -/
def refresh (config : AuthConfig) (tokens : Table RefreshToken.id) (now : Time) (raw : String) :
    Except Failure Phase := do
  let stored ← Outcome.orThrow
    (.unauthorized "AUTH_INVALID_CREDENTIALS" "Invalid refresh token")
    (findByHash tokens (config.hash raw))
  if stored.revoked then
    pure (.theft stored)
  else
    Outcome.require (now ≤ stored.expiresAt)
      (.unauthorized "AUTH_INVALID_CREDENTIALS" "Refresh token expired")
    pure (.rotate raw stored)

/-- The beginning of `logout`; it returns at once for a token that is not live. -/
def logout (config : AuthConfig) (tokens : Table RefreshToken.id) (raw : String)
    (accessTokenExp : Option ℕ) : Option Phase :=
  match findByHash tokens (config.hash raw) with
  | some stored => if stored.revoked then none else some (.revoke stored accessTokenExp)
  | none => none

/-- `refresh` after the rotation: the employee is read again. -/
def reload (employees : Table Employee.id) (employeeId : Uuid) : Except Failure Employee := do
  let employee ← Outcome.orThrow (.unauthorized "AUTH_INVALID_CREDENTIALS" "Employee not found")
    (employees.find employeeId)
  assertActive employee
  pure employee

/-- The row that `#mintTokens` creates. -/
def refreshRow (config : AuthConfig) (employee : Employee) (familyId : Uuid) (now : Time)
    (sessionId : Uuid) (raw : String) : RefreshToken where
  id := sessionId
  employeeId := employee.id
  tokenHash := config.hash raw
  familyId := familyId
  expiresAt := now + config.refreshExpiryDays * msPerDay

/-- The access token that `#mintTokens` signs. -/
def accessToken (config : AuthConfig) (employee : Employee) (now : Time) (sessionId : Uuid) :
    AccessToken where
  jti := sessionId
  sub := employee.id
  iat := now / 1000
  exp := now / 1000 + config.accessExpiry

/-- `SESSION_REVOKE_TTL`, in seconds. -/
def sessionRevokeTtl : ℕ := 900

/-- The time to live of the key that `logout` sets, in seconds; an expiry of zero counts as
none. -/
def logoutTtl (now : Time) (accessTokenExp : Option ℕ) : ℕ :=
  match accessTokenExp.filter (fun exp => decide (exp ≠ 0)) with
  | some exp => max 1 (exp - now / 1000)
  | none => sessionRevokeTtl

/-- `#mintTokens`, for the `i`-th call. -/
def mint (config : AuthConfig) (s : State) (i : ℕ) (employee : Employee) (familyId : Uuid)
    (presented : Option (String × Uuid)) (sessionId : Uuid) (raw : String) : State :=
  match create (refreshRow config employee familyId s.now sessionId raw) s.tokens with
  | some tokens =>
    { (s.withTokens tokens).goOn i .finished with
      issued := s.issued ++
        [⟨accessToken config employee s.now sessionId, familyId,
          (s.tables.employees.find employee.id).map Employee.status⟩]
      exchanged := s.exchanged ++ presented.toList }
  | none => s.goOn i .finished

/-- The next statement of the `i`-th call; `sessionId` and `raw` are what `#mintTokens`
draws. -/
def advance (config : AuthConfig) (s : State) (i : ℕ) (sessionId : Uuid) (raw : String) : State :=
  match s.calls[i]? with
  | some (.theft stored) =>
    { (s.withTokens (revokeFamily stored.familyId s.tokens)).goOn i .finished with
      stolen := s.stolen ++ [stored.familyId] }
  | some (.rotate presented stored) =>
    { (s.withTokens (revokeById stored.id s.tokens)).goOn i (.reload presented stored) with
      rotated := s.rotated ++ [stored.id] }
  | some (.reload presented stored) =>
    match reload s.tables.employees stored.employeeId with
    | .ok employee => s.goOn i (.mint employee stored.familyId (some (presented, stored.id)))
    | .error _ => s.goOn i .finished
  | some (.mint employee familyId presented) =>
    mint config s i employee familyId presented sessionId raw
  | some (.revoke stored accessTokenExp) =>
    (s.withTokens (revokeById stored.id s.tokens)).goOn i (.deny stored.id accessTokenExp)
  | some (.deny id accessTokenExp) =>
    { s.goOn i .finished with
      denylist := s.denylist.set (.session id) () (s.now + logoutTtl s.now accessTokenExp * 1000) }
  | some .finished => s
  | none => s

/-- What can happen. -/
inductive Event
  | login (employeeId familyId : Uuid)
  | refresh (raw : String)
  | logout (raw : String) (accessTokenExp : Option ℕ)
  | advance (i : ℕ) (sessionId : Uuid) (raw : String)
  | tick (milliseconds : ℕ)
  deriving DecidableEq, Repr

/-- The state after one event; a call that throws or returns at once leaves no trace. -/
def step (config : AuthConfig) (s : State) : Event → State
  | .login employeeId familyId =>
    if familyId ∈ s.drawn then s
    else match login s.tables.employees employeeId with
      | .ok employee =>
        { s.begin (.mint employee familyId none) with drawn := s.drawn ++ [familyId] }
      | .error _ => s
  | .refresh raw =>
    match refresh config s.tokens s.now raw with
    | .ok phase => s.begin phase
    | .error _ => s
  | .logout raw accessTokenExp =>
    match logout config s.tokens raw accessTokenExp with
    | some phase => s.begin phase
    | none => s
  | .advance i sessionId raw => advance config s i sessionId raw
  | .tick milliseconds => { s with now := s.now + milliseconds }

/-! ### `JwtStrategy` -/

/-- The check of `passport-jwt` on the expiry, and `JwtStrategy.validate` with the cache
available. -/
def validate (s : State) (token : AccessToken) : Except Failure AccessToken := do
  Outcome.require (s.now / 1000 < token.exp) (.unauthorized "UNAUTHORIZED" "jwt expired")
  let sessionRevoked := s.denylist.get s.now (.session token.jti)
  let employeeRevoked := s.denylist.get s.now (.employee token.sub)
  Outcome.require (sessionRevoked = none ∧ employeeRevoked = none)
    (.unauthorized "AUTH_TOKEN_INVALID" "Session has been revoked")
  pure token

/-- The token is accepted. -/
def Accepted (s : State) (token : AccessToken) : Prop := validate s token = .ok token

instance (s : State) (token : AccessToken) : Decidable (Accepted s token) :=
  decidable_of_iff ((validate s token).toOption = some token) Except.toOption_eq_some_iff

/-- A token is accepted until it expires, unless one of its keys is in the cache. -/
theorem accepted_iff {s : State} {token : AccessToken} :
    Accepted s token ↔ s.now < token.exp * 1000 ∧
      s.denylist.deadline (.session token.jti) ≤ s.now ∧
      s.denylist.deadline (.employee token.sub) ≤ s.now := by
  unfold Accepted validate
  simp only [Except.bind_eq_ok_iff, Outcome.require_eq_ok_iff, Except.pure_eq_ok_iff,
    TtlCache.get_eq_none_iff]
  constructor
  · rintro ⟨-, hexp, -, ⟨hsession, hemployee⟩, -⟩
    exact ⟨by omega, hsession, hemployee⟩
  · rintro ⟨hexp, hsession, hemployee⟩
    exact ⟨(), by omega, (), ⟨hsession, hemployee⟩, trivial⟩

/-! ### What one step can do -/

/-- The effects of a step, each with what has been checked on the way. -/
inductive Step (config : AuthConfig) (s : State) : Event → State → Prop
  | idle (e : Event) : Step config s e s
  | login {employeeId familyId : Uuid} {employee : Employee} (hnew : familyId ∉ s.drawn)
      (hfind : s.tables.employees.find employeeId = some employee)
      (hactive : employee.status ≠ .offboarded) :
      Step config s (.login employeeId familyId)
        { s.begin (.mint employee familyId none) with drawn := s.drawn ++ [familyId] }
  | theft {raw : String} {stored : RefreshToken}
      (hfind : findByHash s.tokens (config.hash raw) = some stored)
      (hrevoked : stored.revoked = true) : Step config s (.refresh raw) (s.begin (.theft stored))
  | refresh {raw : String} {stored : RefreshToken}
      (hfind : findByHash s.tokens (config.hash raw) = some stored)
      (hlive : stored.revoked = false) : Step config s (.refresh raw) (s.begin (.rotate raw stored))
  | logout {raw : String} {accessTokenExp : Option ℕ} {stored : RefreshToken}
      (hfind : findByHash s.tokens (config.hash raw) = some stored)
      (hlive : stored.revoked = false) :
      Step config s (.logout raw accessTokenExp) (s.begin (.revoke stored accessTokenExp))
  | revokeFamily {i : ℕ} {stored : RefreshToken} (hcall : s.calls[i]? = some (.theft stored))
      (sessionId : Uuid) (raw : String) :
      Step config s (.advance i sessionId raw)
        { (s.withTokens (RefreshTokenDrizzleRepository.revokeFamily stored.familyId s.tokens)).goOn i
            .finished with
          stolen := s.stolen ++ [stored.familyId] }
  | rotate {i : ℕ} {presented : String} {stored : RefreshToken}
      (hcall : s.calls[i]? = some (.rotate presented stored)) (sessionId : Uuid) (raw : String) :
      Step config s (.advance i sessionId raw)
        { (s.withTokens (revokeById stored.id s.tokens)).goOn i (.reload presented stored) with
          rotated := s.rotated ++ [stored.id] }
  | reload {i : ℕ} {presented : String} {stored : RefreshToken} {employee : Employee}
      (hcall : s.calls[i]? = some (.reload presented stored))
      (hfind : s.tables.employees.find stored.employeeId = some employee)
      (hactive : employee.status ≠ .offboarded) (sessionId : Uuid) (raw : String) :
      Step config s (.advance i sessionId raw)
        (s.goOn i (.mint employee stored.familyId (some (presented, stored.id))))
  | mint {i : ℕ} {employee : Employee} {familyId : Uuid} {presented : Option (String × Uuid)}
      {sessionId : Uuid} {raw : String} {tokens : Table RefreshToken.id}
      (hcall : s.calls[i]? = some (.mint employee familyId presented))
      (hcreate : create (refreshRow config employee familyId s.now sessionId raw) s.tokens =
        some tokens) :
      Step config s (.advance i sessionId raw)
        { (s.withTokens tokens).goOn i .finished with
          issued := s.issued ++
            [⟨accessToken config employee s.now sessionId, familyId,
              (s.tables.employees.find employee.id).map Employee.status⟩]
          exchanged := s.exchanged ++ presented.toList }
  | abortReload {i : ℕ} {presented : String} {stored : RefreshToken}
      (hcall : s.calls[i]? = some (.reload presented stored)) (sessionId : Uuid) (raw : String) :
      Step config s (.advance i sessionId raw) (s.goOn i .finished)
  | abortMint {i : ℕ} {employee : Employee} {familyId : Uuid} {presented : Option (String × Uuid)}
      (hcall : s.calls[i]? = some (.mint employee familyId presented)) (sessionId : Uuid)
      (raw : String) : Step config s (.advance i sessionId raw) (s.goOn i .finished)
  | revoke {i : ℕ} {stored : RefreshToken} {accessTokenExp : Option ℕ}
      (hcall : s.calls[i]? = some (.revoke stored accessTokenExp)) (sessionId : Uuid)
      (raw : String) :
      Step config s (.advance i sessionId raw)
        ((s.withTokens (revokeById stored.id s.tokens)).goOn i (.deny stored.id accessTokenExp))
  | deny {i : ℕ} {id : Uuid} {accessTokenExp : Option ℕ}
      (hcall : s.calls[i]? = some (.deny id accessTokenExp)) (sessionId : Uuid) (raw : String) :
      Step config s (.advance i sessionId raw)
        { s.goOn i .finished with
          denylist :=
            s.denylist.set (.session id) () (s.now + logoutTtl s.now accessTokenExp * 1000) }
  | tick (milliseconds : ℕ) :
      Step config s (.tick milliseconds) { s with now := s.now + milliseconds }

/-- **Every step is one of these.** -/
theorem step_cases (config : AuthConfig) (s : State) (e : Event) :
    Step config s e (step config s e) := by
  cases e with
  | login employeeId familyId =>
    by_cases hnew : familyId ∈ s.drawn
    · rw [step, if_pos hnew]
      exact .idle _
    · rw [step, if_neg hnew]
      split
      · rename_i employee hlogin
        simp only [Sessions.login, assertActive, Except.bind_eq_ok_iff, Outcome.orThrow_eq_ok_iff,
          Outcome.require_eq_ok_iff, Except.pure_eq_ok_iff] at hlogin
        obtain ⟨employee', hfind, -, hactive, rfl⟩ := hlogin
        exact .login hnew hfind hactive
      · exact .idle _
  | refresh raw =>
    simp only [step]
    split
    · rename_i phase hrefresh
      simp only [Sessions.refresh, Except.bind_eq_ok_iff, Outcome.orThrow_eq_ok_iff] at hrefresh
      obtain ⟨stored, hfind, hphase⟩ := hrefresh
      by_cases hrevoked : stored.revoked = true
      · rw [if_pos hrevoked, Except.pure_eq_ok_iff] at hphase
        subst hphase
        exact .theft hfind hrevoked
      · rw [if_neg hrevoked] at hphase
        obtain ⟨-, -, hphase⟩ := Except.bind_eq_ok_iff.1 hphase
        rw [Except.pure_eq_ok_iff] at hphase
        subst hphase
        exact .refresh hfind (Bool.eq_false_iff.2 hrevoked)
    · exact .idle _
  | logout raw accessTokenExp =>
    simp only [step]
    split
    · rename_i phase hlogout
      unfold Sessions.logout at hlogout
      split at hlogout
      · rename_i stored hfind
        by_cases hrevoked : stored.revoked = true
        · rw [if_pos hrevoked] at hlogout
          cases hlogout
        · rw [if_neg hrevoked] at hlogout
          obtain rfl := Option.some.inj hlogout
          exact .logout hfind (Bool.eq_false_iff.2 hrevoked)
      · cases hlogout
    · exact .idle _
  | advance i sessionId raw =>
    simp only [step, advance]
    split
    · rename_i stored hcall
      exact .revokeFamily hcall _ _
    · rename_i presented stored hcall
      exact .rotate hcall _ _
    · rename_i presented stored hcall
      split
      · rename_i employee hreload
        simp only [Sessions.reload, assertActive, Except.bind_eq_ok_iff, Outcome.orThrow_eq_ok_iff,
          Outcome.require_eq_ok_iff, Except.pure_eq_ok_iff] at hreload
        obtain ⟨employee', hfind, -, hactive, rfl⟩ := hreload
        exact .reload hcall hfind hactive _ _
      · exact .abortReload hcall _ _
    · rename_i employee familyId presented hcall
      unfold Sessions.mint
      split
      · rename_i tokens hcreate
        exact .mint hcall hcreate
      · exact .abortMint hcall _ _
    · rename_i stored accessTokenExp hcall
      exact .revoke hcall _ _
    · rename_i id accessTokenExp hcall
      exact .deny hcall _ _
    · exact .idle _
    · exact .idle _
  | tick milliseconds => exact .tick milliseconds

/-! ### What the statements do to the refresh tokens -/

section Tokens

variable {tokens tokens' : Table RefreshToken.id} {p : RefreshToken → Bool} {row x : RefreshToken}

/-- Every row stays, with all it was created with; a revoked row stays revoked. -/
def RowsKept (tokens tokens' : Table RefreshToken.id) : Prop :=
  ∀ row ∈ tokens.rows, ∃ row' ∈ tokens'.rows,
    row'.id = row.id ∧ row'.familyId = row.familyId ∧ row'.tokenHash = row.tokenHash ∧
      row'.employeeId = row.employeeId ∧ (row.revoked = true → row'.revoked = true)

theorem mem_revokeWhere (h : x ∈ (revokeWhere p tokens).rows) :
    ∃ row ∈ tokens.rows, x = { row with revoked := row.revoked || p row } := by
  obtain ⟨row, hrow, rfl⟩ := Table.mem_updateWhere.1 h
  refine ⟨row, hrow, ?_⟩
  by_cases hp : p row = true
  · simp [hp]
  · simp [hp]

theorem mem_revokeWhere_of_mem (p : RefreshToken → Bool) (h : row ∈ tokens.rows) :
    { row with revoked := row.revoked || p row } ∈ (revokeWhere p tokens).rows := by
  refine Table.mem_updateWhere.2 ⟨row, h, ?_⟩
  by_cases hp : p row = true
  · simp [hp]
  · simp [hp]

theorem rowsKept_revokeWhere (p : RefreshToken → Bool) (tokens : Table RefreshToken.id) :
    RowsKept tokens (revokeWhere p tokens) := by
  intro row hrow
  refine ⟨_, mem_revokeWhere_of_mem p hrow, rfl, rfl, rfl, rfl, ?_⟩
  intro hrevoked
  simp [hrevoked]

/-- A created row is new, with a new hash. -/
theorem create_eq_some_iff :
    create row tokens = some tokens' ↔
      (∀ r ∈ tokens.rows, r.tokenHash ≠ row.tokenHash) ∧ tokens.insert row = some tokens' := by
  unfold create
  by_cases hnone : tokens.findBy hashIndex row.tokenHash = none
  · rw [if_pos hnone]
    have hfree : ∀ r ∈ tokens.rows, r.tokenHash ≠ row.tokenHash := fun r hr heq =>
      Table.findBy_eq_none_iff.1 hnone r hr (congrArg some heq)
    exact ⟨fun h => ⟨hfree, h⟩, And.right⟩
  · rw [if_neg hnone]
    constructor
    · intro h
      cases h
    · rintro ⟨hfree, -⟩
      refine absurd (Table.findBy_eq_none_iff.2 fun r hr heq => ?_) hnone
      exact hfree r hr (Option.some.inj heq)

/-- Hashes stay unique when a row is created. -/
theorem unique_create (hunique : tokens.Unique hashIndex) (h : create row tokens = some tokens') :
    tokens'.Unique hashIndex := by
  obtain ⟨hhash, hins⟩ := create_eq_some_iff.1 h
  exact hunique.insert hins fun _ r hr heq => hhash r hr (Option.some.inj heq)

theorem rowsKept_create (h : create row tokens = some tokens') : RowsKept tokens tokens' :=
  fun r hr => ⟨r, (Table.mem_insert (create_eq_some_iff.1 h).2).2 (Or.inl hr),
    rfl, rfl, rfl, rfl, fun h => h⟩

end Tokens

/-! ### A directory with one employee -/

namespace Sample

/-- The SHA-256 digests of the tokens that the sample runs draw. -/
def sha256 : String → String
  | "token-a" => "a70bf50e531ce1a817561f2f5d5b6645d4e806becf58ccc5e8cf6b8045a090a8"
  | "token-b" => "49e2bb7eab54cf09b409ffafd3fa8a8a955a60eb972faacaefbed3dbd3207132"
  | "token-c" => "4618883cd3012ea499d728009f5cdd1d39a460cc3457b4cca2dd24aab8a3c922"
  | _ => ""

/-- Access tokens for 15 minutes, refresh tokens for 7 days. -/
def config : AuthConfig := ⟨sha256, 900, 7⟩

def employee : Employee where
  id := 1
  entraOid := none
  email := "user1@example.com"
  displayName := "User 1"
  roles := []
  updatedAt := 0

def tables : Tables :=
  { Tables.empty with employees := ⟨[employee], List.nodup_singleton _⟩ }

/-- The start of the sample runs. -/
def start : State := State.initial tables 0

/-- The employee logs in: family 100, session 10, `token-a`. -/
def login : List Event := [.login 1 100, .advance 0 10 "token-a"]

end Sample

end Sessions

end OpsHub
