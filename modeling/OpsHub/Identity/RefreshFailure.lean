import OpsHub.Identity.Sessions

/-!
# A refresh that fails

`AuthService.refresh` as one call, with a fault at any of its statements, and the retry of the
client.

* `AuthService.refresh`: the lookup, the rotation, the employee, the new token, the signature;
* `AtomicOnFailure`: a call that fails leaves the refresh tokens as they were, and a retry with the
  same token is never taken for theft and succeeds once nothing is in its way;
* `Supported`: nothing is in the way of a call after the rotation;
* `atomicOnFailure_iff`: it takes that, or a rotation that is not carried out;
* `retry_theft`: what the retry meets otherwise.
-/

namespace OpsHub

namespace AuthService

open RefreshTokenDrizzleRepository

/-! ### The call -/

/-- A statement after the lookup that fails from outside: the database or the signing key.  Each
statement commits on its own, so that one that is `applied` may still fail, when its answer is
lost. -/
inductive RefreshFault
  | revokeById (applied : Bool)
  | findById
  | create (applied : Bool)
  | signAsync
  deriving DecidableEq, Repr

/-- What the statement throws. -/
def RefreshFault.failure : RefreshFault → Failure
  | .signAsync => .error "secretOrPrivateKey is not valid"
  | _ => .error "Connection terminated unexpectedly"

/-- A call: the presented token, the clock at the test of the expiry and at the minting, what
`#mintTokens` draws, and the statement that fails. -/
structure RefreshCall where
  raw : String
  now : Time
  mintedAt : Time
  sessionId : Uuid
  newRaw : String
  fault : Option RefreshFault := none
  deriving DecidableEq, Repr

/-- `TokenResult`. -/
structure TokenResult where
  accessToken : AccessToken
  expiresIn : ℕ
  rawRefreshToken : String
  deriving DecidableEq, Repr

/-- What a call leaves and returns. -/
abbrev RefreshResult := Tables × Except Failure TokenResult

/-- The answer to a revoked token. -/
def reuseDetected : Failure :=
  .unauthorized "AUTH_INVALID_CREDENTIALS" "Refresh token reuse detected"

/-- `#mintTokens`. -/
def mintTokens (config : AuthConfig) (call : RefreshCall) (employee : Employee) (familyId : Uuid)
    (tables : Tables) : RefreshResult :=
  if call.fault = some (.create false) then (tables, .error (RefreshFault.create false).failure)
  else
    let row :=
      Sessions.refreshRow config employee familyId call.mintedAt call.sessionId call.newRaw
    match create row tables.refreshTokens with
    | none => (tables, .error (.duplicateKey "refresh_tokens"))
    | some tokens =>
      let tables := { tables with refreshTokens := tokens }
      if call.fault = some (.create true) then (tables, .error (RefreshFault.create true).failure)
      else if call.fault = some .signAsync then (tables, .error RefreshFault.signAsync.failure)
      else
        (tables, .ok
          { accessToken := Sessions.accessToken config employee call.mintedAt call.sessionId
            expiresIn := config.accessExpiry
            rawRefreshToken := call.newRaw })

/-- `refresh` after the employee has been asked for. -/
def reissue (config : AuthConfig) (call : RefreshCall) (stored : RefreshToken) (tables : Tables) :
    RefreshResult :=
  if call.fault = some .findById then (tables, .error RefreshFault.findById.failure)
  else
    match Sessions.reload tables.employees stored.employeeId with
    | .error failure => (tables, .error failure)
    | .ok employee => mintTokens config call employee stored.familyId tables

/-- `AuthService.refresh`. -/
def refresh (config : AuthConfig) (call : RefreshCall) (tables : Tables) : RefreshResult :=
  match findByHash tables.refreshTokens (config.hash call.raw) with
  | none =>
    (tables, .error (.unauthorized "AUTH_INVALID_CREDENTIALS" "Invalid refresh token"))
  | some stored =>
    if stored.revoked then
      ({ tables with refreshTokens := revokeFamily stored.familyId tables.refreshTokens },
        .error reuseDetected)
    else if stored.expiresAt < call.now then
      (tables, .error (.unauthorized "AUTH_INVALID_CREDENTIALS" "Refresh token expired"))
    else if call.fault = some (.revokeById false) then
      (tables, .error (RefreshFault.revokeById false).failure)
    else
      let tables := { tables with refreshTokens := revokeById stored.id tables.refreshTokens }
      if call.fault = some (.revokeById true) then
        (tables, .error (RefreshFault.revokeById true).failure)
      else reissue config call stored tables

/-! ### The property -/

/-- A call has failed. -/
def Fails (result : RefreshResult) : Prop := ∃ failure, result.2 = .error failure

/-- Nothing is in the way of a call after the rotation: no statement fails, the employee is there
and not offboarded, and what is drawn is new. -/
structure Supported (config : AuthConfig) (call : RefreshCall) (stored : RefreshToken)
    (tables : Tables) : Prop where
  fault : call.fault = none
  employee : ∃ e ∈ tables.employees.find stored.employeeId, e.status ≠ .offboarded
  fresh : ∀ t ∈ tables.refreshTokens.rows,
    t.id ≠ call.sessionId ∧ t.tokenHash ≠ config.hash call.newRaw

/-- A failed call has left the tokens as they were; a retry with the same token, whatever has become
of the employees meanwhile, is never taken for theft, and succeeds once the token is not too old and
nothing is in the way. -/
structure CleanFailure (config : AuthConfig) (call : RefreshCall) (stored : RefreshToken)
    (tables : Tables) : Prop where
  tokens : (refresh config call tables).1.refreshTokens = tables.refreshTokens
  noTheft : ∀ (retry : RefreshCall) (employees : Table Employee.id), retry.raw = call.raw →
    (refresh config retry { (refresh config call tables).1 with employees := employees }).2 ≠
      .error reuseDetected
  retry : ∀ (retry : RefreshCall) (employees : Table Employee.id), retry.raw = call.raw →
    retry.now ≤ stored.expiresAt →
      Supported config retry stored { (refresh config call tables).1 with employees := employees } →
        ¬ Fails (refresh config retry { (refresh config call tables).1 with employees := employees })

/-- A call that fails fails cleanly. -/
def AtomicOnFailure (config : AuthConfig) (call : RefreshCall) (stored : RefreshToken)
    (tables : Tables) : Prop :=
  Fails (refresh config call tables) → CleanFailure config call stored tables

/-! ### After the rotation -/

section Reissue

variable {config : AuthConfig} {call : RefreshCall} {stored row : RefreshToken} {tables : Tables}
  {tokens : Table RefreshToken.id} {employee : Employee} {familyId : Uuid} {hash : String}

theorem not_fails_ok {result : TokenResult} : ¬ Fails (tables, .ok result) := by
  rintro ⟨failure, h⟩
  cases h

theorem fails_error {failure : Failure} : Fails (tables, .error failure) := ⟨failure, rfl⟩

/-- A row can be created if its identifier and its hash are new. -/
theorem create_eq_none_iff : create row tokens = none ↔
    ¬ ∀ t ∈ tokens.rows, t.id ≠ row.id ∧ t.tokenHash ≠ row.tokenHash := by
  rw [← not_iff_not, not_not, ← ne_eq, Option.ne_none_iff_exists']
  simp only [Sessions.create_eq_some_iff]
  constructor
  · rintro ⟨tokens', hhash, hinsert⟩ t ht
    exact ⟨Table.find_eq_none_iff.1 (Table.insert_eq_some_iff.1 hinsert).1 t ht, hhash t ht⟩
  · intro h
    obtain ⟨tokens', hinsert⟩ := Table.exists_insert (r := row)
      (Table.find_eq_none_iff.2 fun t ht => (h t ht).1)
    exact ⟨tokens', fun t ht => (h t ht).2, hinsert⟩

/-- The minting fails for a fault or for a draw that is not new. -/
theorem fails_mintTokens_iff : Fails (mintTokens config call employee familyId tables) ↔
    (∃ applied, call.fault = some (.create applied)) ∨ call.fault = some .signAsync ∨
      ¬ ∀ t ∈ tables.refreshTokens.rows,
        t.id ≠ call.sessionId ∧ t.tokenHash ≠ config.hash call.newRaw := by
  unfold mintTokens
  split
  · rename_i hfault
    exact iff_of_true fails_error (Or.inl ⟨false, hfault⟩)
  · rename_i hcreateFault
    dsimp only
    split
    · rename_i hnone
      exact iff_of_true fails_error (Or.inr (Or.inr (create_eq_none_iff.1 hnone)))
    · rename_i tokens hsome
      have hfresh := mt create_eq_none_iff.2 (hsome ▸ Option.some_ne_none tokens)
      split
      · rename_i hfault
        exact iff_of_true fails_error (Or.inl ⟨true, hfault⟩)
      · rename_i hlostFault
        split
        · rename_i hfault
          exact iff_of_true fails_error (Or.inr (Or.inl hfault))
        · rename_i hsignFault
          refine iff_of_false not_fails_ok ?_
          rintro (⟨applied, happlied⟩ | hsign | hdraw)
          · cases applied
            · exact hcreateFault happlied
            · exact hlostFault happlied
          · exact hsignFault hsign
          · exact hdraw (not_not.1 hfresh)

/-- The token that has been presented stays where it is. -/
theorem findByHash_mintTokens (h : findByHash tables.refreshTokens hash = some row) :
    findByHash (mintTokens config call employee familyId tables).1.refreshTokens hash = some row := by
  have hinsert (tokens' : Table RefreshToken.id) (row' : RefreshToken)
      (hcreate : create row' tables.refreshTokens = some tokens') :
      findByHash tokens' hash = some row := by
    obtain ⟨-, hinsert⟩ := Sessions.create_eq_some_iff.1 hcreate
    unfold findByHash Table.findBy at h ⊢
    rw [(Table.insert_eq_some_iff.1 hinsert).2, List.find?_append, h, Option.some_or]
  unfold mintTokens
  split
  · exact h
  · dsimp only
    split
    · exact h
    · rename_i tokens hsome
      split
      · exact hinsert tokens _ hsome
      · split
        · exact hinsert tokens _ hsome
        · exact hinsert tokens _ hsome

theorem reload_eq_ok_iff {employees : Table Employee.id} {employeeId : Uuid} :
    Sessions.reload employees employeeId = .ok employee ↔
      employees.find employeeId = some employee ∧ employee.status ≠ .offboarded :=
  Outcome.orThrow_require_eq_ok_iff

theorem reload_ne_reuseDetected {employees : Table Employee.id} {employeeId : Uuid} :
    Sessions.reload employees employeeId ≠ .error reuseDetected := by
  unfold Sessions.reload Sessions.assertActive
  cases employees.find employeeId with
  | none => exact fun h => absurd (Except.error.inj h) (by decide)
  | some employee =>
    by_cases hactive : employee.status = .offboarded <;>
      simp [Outcome.orThrow, Outcome.require, hactive, bind, Except.bind, pure, Except.pure,
        reuseDetected, Failure.unauthorized]

/-- **After the rotation** a call fails exactly if something is in the way. -/
theorem fails_reissue_iff (hfault : ∀ applied, call.fault ≠ some (.revokeById applied)) :
    Fails (reissue config call stored tables) ↔ ¬ Supported config call stored tables := by
  unfold reissue
  split
  · rename_i hfind
    refine iff_of_true fails_error fun h => ?_
    rw [h.fault] at hfind
    cases hfind
  · rename_i hfindFault
    split
    · rename_i failure herror
      refine iff_of_true fails_error fun h => ?_
      obtain ⟨e, he, hactive⟩ := h.employee
      rw [reload_eq_ok_iff.2 ⟨he, hactive⟩] at herror
      cases herror
    · rename_i employee hok
      rw [fails_mintTokens_iff]
      have hemployee := reload_eq_ok_iff.1 hok
      constructor
      · rintro (⟨applied, hcreate⟩ | hsign | hdraw) h
        · rw [h.fault] at hcreate
          cases hcreate
        · rw [h.fault] at hsign
          cases hsign
        · exact hdraw h.fresh
      · intro h
        by_contra hnone
        rw [not_or, not_or, not_not] at hnone
        refine h ⟨?_, ⟨employee, hemployee.1, hemployee.2⟩, hnone.2.2⟩
        cases hcase : call.fault with
        | none => rfl
        | some fault =>
          rw [hcase] at hfault hfindFault hnone
          cases fault
          · exact absurd rfl (hfault _)
          · exact absurd rfl hfindFault
          · exact absurd ⟨_, rfl⟩ hnone.1
          · exact absurd rfl hnone.2.1

theorem findByHash_reissue (h : findByHash tables.refreshTokens hash = some row) :
    findByHash (reissue config call stored tables).1.refreshTokens hash = some row := by
  unfold reissue
  split
  · exact h
  · split
    · exact h
    · exact findByHash_mintTokens h

/-- None of the failures after the rotation is the answer to a revoked token. -/
theorem reissue_ne_reuseDetected :
    (reissue config call stored tables).2 ≠ .error reuseDetected := by
  unfold reissue
  split
  · nofun
  · split
    · rename_i failure herror
      exact fun h => reload_ne_reuseDetected (herror.trans (congrArg _ (Except.error.inj h)))
    · unfold mintTokens
      split
      · nofun
      · dsimp only
        split
        · nofun
        · split
          · nofun
          · split <;> nofun

end Reissue

/-! ### The whole call -/

section Call

variable {config : AuthConfig} {call retry : RefreshCall} {stored : RefreshToken} {tables : Tables}

/-- What is in the way does not depend on the rotation. -/
theorem supported_revokeById {id : Uuid} :
    Supported config call stored
        { tables with refreshTokens := revokeById id tables.refreshTokens } ↔
      Supported config call stored tables := by
  have hfresh : (∀ t ∈ (revokeById id tables.refreshTokens).rows,
      t.id ≠ call.sessionId ∧ t.tokenHash ≠ config.hash call.newRaw) ↔
      ∀ t ∈ tables.refreshTokens.rows,
        t.id ≠ call.sessionId ∧ t.tokenHash ≠ config.hash call.newRaw := by
    constructor
    · intro h t ht
      exact h { t with revoked := t.revoked || decide (t.id = id) }
        (Sessions.mem_revokeWhere_of_mem _ ht)
    · intro h t ht
      obtain ⟨row, hrow, rfl⟩ := Sessions.mem_revokeWhere ht
      exact h row hrow
  exact ⟨fun h => ⟨h.fault, h.employee, hfresh.1 h.fresh⟩,
    fun h => ⟨h.fault, h.employee, hfresh.2 h.fresh⟩⟩

/-- A call with a live token. -/
theorem refresh_live (hfind : findByHash tables.refreshTokens (config.hash call.raw) = some stored)
    (hlive : stored.revoked = false) (hexpiry : call.now ≤ stored.expiresAt) :
    refresh config call tables =
      if call.fault = some (.revokeById false) then
        (tables, .error (RefreshFault.revokeById false).failure)
      else if call.fault = some (.revokeById true) then
        ({ tables with refreshTokens := revokeById stored.id tables.refreshTokens },
          .error (RefreshFault.revokeById true).failure)
      else
        reissue config call stored
          { tables with refreshTokens := revokeById stored.id tables.refreshTokens } := by
  simp only [refresh, hfind, hlive, if_neg (Nat.not_lt.2 hexpiry), Bool.false_eq_true, if_false]

/-- **A call with a live token** fails exactly for a fault at the rotation or for what is in the way
after it. -/
theorem fails_refresh_iff
    (hfind : findByHash tables.refreshTokens (config.hash call.raw) = some stored)
    (hlive : stored.revoked = false) (hexpiry : call.now ≤ stored.expiresAt) :
    Fails (refresh config call tables) ↔ ¬ Supported config call stored tables := by
  rw [refresh_live hfind hlive hexpiry]
  split
  · rename_i hfault
    refine iff_of_true fails_error fun h => ?_
    rw [h.fault] at hfault
    cases hfault
  · rename_i hrefused
    split
    · rename_i hfault
      refine iff_of_true fails_error fun h => ?_
      rw [h.fault] at hfault
      cases hfault
    · rename_i hlost
      have hfault : ∀ applied, call.fault ≠ some (.revokeById applied) := by
        rintro (_ | _)
        · exact hrefused
        · exact hlost
      rw [fails_reissue_iff hfault, supported_revokeById]

/-- Only a revoked token is taken for theft. -/
theorem refresh_ne_reuseDetected
    (hfind : findByHash tables.refreshTokens (config.hash call.raw) = some stored)
    (hlive : stored.revoked = false) : (refresh config call tables).2 ≠ .error reuseDetected := by
  simp only [refresh, hfind, hlive, Bool.false_eq_true, if_false]
  split
  · exact fun h => absurd (Except.error.inj h) (by decide)
  · split
    · nofun
    · split
      · nofun
      · exact reissue_ne_reuseDetected

/-- The token is found revoked after a rotation that has been carried out, whatever comes then. -/
theorem findByHash_refresh
    (hfind : findByHash tables.refreshTokens (config.hash call.raw) = some stored)
    (hlive : stored.revoked = false) (hexpiry : call.now ≤ stored.expiresAt)
    (hfault : call.fault ≠ some (.revokeById false)) :
    findByHash (refresh config call tables).1.refreshTokens (config.hash call.raw) =
      some { stored with revoked := true } := by
  rw [refresh_live hfind hlive hexpiry, if_neg hfault]
  have hindex : (fun t : RefreshToken => decide (hashIndex t = some (config.hash call.raw))) ∘
      (fun t => if decide (t.id = stored.id) then { t with revoked := true } else t) =
      fun t => decide (hashIndex t = some (config.hash call.raw)) := by
    funext t
    simp only [Function.comp_apply]
    split <;> rfl
  have hrotated : findByHash (revokeById stored.id tables.refreshTokens) (config.hash call.raw) =
      some { stored with revoked := true } := by
    unfold findByHash Table.findBy at hfind ⊢
    dsimp only [revokeById, revokeWhere, Table.updateWhere]
    rw [List.find?_map, hindex, hfind, Option.map_some]
    exact congrArg some (if_pos (decide_eq_true rfl))
  split
  · exact hrotated
  · exact findByHash_reissue hrotated

/-- **A refresh is atomic on failure** exactly if nothing is in its way after the rotation, or the
rotation itself is not carried out. -/
theorem atomicOnFailure_iff
    (hfind : findByHash tables.refreshTokens (config.hash call.raw) = some stored)
    (hlive : stored.revoked = false) (hexpiry : call.now ≤ stored.expiresAt) :
    AtomicOnFailure config call stored tables ↔
      call.fault = some (.revokeById false) ∨ Supported config call stored tables := by
  constructor
  · intro h
    by_contra hnone
    obtain ⟨hfault, hsupported⟩ := not_or.1 hnone
    have hclean := h ((fails_refresh_iff hfind hlive hexpiry).2 hsupported)
    have hrevoked := findByHash_refresh hfind hlive hexpiry hfault
    rw [hclean.tokens, hfind] at hrevoked
    have heq := congrArg RefreshToken.revoked (Option.some.inj hrevoked)
    rw [hlive] at heq
    cases heq
  · rintro (hfault | hsupported) hfails
    · have hsame : refresh config call tables =
          (tables, .error (RefreshFault.revokeById false).failure) := by
        rw [refresh_live hfind hlive hexpiry, if_pos hfault]
      refine ⟨by rw [hsame], fun retry employees hraw => ?_, fun retry employees hraw hnow hsup => ?_⟩
      · rw [hsame]
        exact refresh_ne_reuseDetected (hraw ▸ hfind) hlive
      · rw [hsame] at hsup ⊢
        exact fun hf => (fails_refresh_iff (hraw ▸ hfind) hlive hnow).1 hf hsup
    · exact absurd hsupported ((fails_refresh_iff hfind hlive hexpiry).1 hfails)

/-- **What the retry meets otherwise**: its token is taken for stolen, and the family is revoked. -/
theorem retry_theft
    (hfind : findByHash tables.refreshTokens (config.hash call.raw) = some stored)
    (hlive : stored.revoked = false) (hexpiry : call.now ≤ stored.expiresAt)
    (hfault : call.fault ≠ some (.revokeById false)) (hraw : retry.raw = call.raw)
    (employees : Table Employee.id) :
    let left := { (refresh config call tables).1 with employees := employees }
    refresh config retry left =
      ({ left with refreshTokens := revokeFamily stored.familyId left.refreshTokens },
        .error reuseDetected) := by
  have hrevoked := findByHash_refresh hfind hlive hexpiry hfault
  rw [← hraw] at hrevoked
  dsimp only
  rw [refresh, hrevoked]
  rfl

/-- The lookup and the tests of a call, as the machine of the sessions makes them. -/
theorem sessions_refresh_eq
    (hfind : findByHash tables.refreshTokens (config.hash call.raw) = some stored) :
    Sessions.refresh config tables.refreshTokens call.now call.raw =
      if stored.revoked then .ok (.theft stored)
      else if call.now ≤ stored.expiresAt then .ok (.rotate call.raw stored)
      else .error (.unauthorized "AUTH_INVALID_CREDENTIALS" "Refresh token expired") := by
  simp only [Sessions.refresh, hfind, Outcome.orThrow, Outcome.require, bind, Except.bind, pure,
    Except.pure]
  by_cases hexpiry : call.now ≤ stored.expiresAt
  · rw [if_pos hexpiry, if_pos hexpiry]
  · rw [if_neg hexpiry, if_neg hexpiry]

/-- Without a fault, the call leaves what its statements leave one after the other in the machine of
the sessions. -/
theorem tables_run (s : Sessions.State) (hfault : call.fault = none) (hnow : call.now = s.now)
    (hminted : call.mintedAt = s.now) :
    let next : Sessions.Event := .advance s.calls.length call.sessionId call.newRaw
    (Runs.run (Sessions.step config) s [.refresh call.raw, next, next, next]).tables =
      (refresh config call s.tables).1 := by
  intro next
  have hidle : Sessions.step config s next = s := by simp [next, Sessions.step, Sessions.advance]
  simp only [Runs.run_cons, Runs.run_nil]
  unfold refresh
  cases hfind : findByHash s.tables.refreshTokens (config.hash call.raw) with
  | none =>
    have hstep : Sessions.step config s (.refresh call.raw) = s := by
      simp [Sessions.step, Sessions.refresh, Sessions.State.tokens, hfind, Outcome.orThrow, bind,
        Except.bind]
    rw [hstep, hidle, hidle, hidle]
  | some stored =>
    have hphase := sessions_refresh_eq hfind
    rw [hnow] at hphase ⊢
    dsimp only
    split at hphase
    · rename_i hrevoked
      simp [next, Sessions.step, Sessions.State.tokens, hphase, Sessions.advance,
        Sessions.State.begin, Sessions.State.goOn, Sessions.State.withTokens, hrevoked]
    · rename_i hlive
      rw [if_neg hlive]
      split at hphase
      · rename_i hexpiry
        rw [if_neg (Nat.not_lt.2 hexpiry), if_neg (by simp [hfault]), if_neg (by simp [hfault]),
          reissue, if_neg (by simp [hfault])]
        cases hreload : Sessions.reload s.tables.employees stored.employeeId with
        | error failure =>
          simp [next, Sessions.step, Sessions.State.tokens, hphase, Sessions.advance,
            Sessions.State.begin, Sessions.State.goOn, Sessions.State.withTokens, hreload]
        | ok employee =>
          cases hcreate : create (Sessions.refreshRow config employee stored.familyId s.now
            call.sessionId call.newRaw) (revokeById stored.id s.tables.refreshTokens) <;>
          simp [next, Sessions.step, Sessions.State.tokens, hphase, Sessions.advance,
            Sessions.State.begin, Sessions.State.goOn, Sessions.State.withTokens, hreload,
            Sessions.mint, mintTokens, hfault, hminted, hcreate]
      · rename_i hexpired
        have hstep : Sessions.step config s (.refresh call.raw) = s := by
          simp [Sessions.step, Sessions.State.tokens, hphase]
        rw [hstep, hidle, hidle, hidle, if_pos (Nat.not_le.1 hexpired)]

end Call

namespace Sample

open Sessions.Sample (config employee)

/-- The employee has `token-a`, of family 100. -/
def stored : RefreshToken where
  id := 10
  employeeId := 1
  tokenHash := config.hash "token-a"
  familyId := 100
  expiresAt := 7 * msPerDay

def tables : Tables :=
  { Sessions.Sample.tables with refreshTokens := ⟨[stored], List.nodup_singleton _⟩ }

/-- She refreshes it after an hour. -/
def call (fault : Option RefreshFault) : RefreshCall where
  raw := "token-a"
  now := 3600000
  mintedAt := 3600001
  sessionId := 11
  newRaw := "token-b"
  fault := fault

/-- She tries again. -/
def retry : RefreshCall where
  raw := "token-a"
  now := 3605000
  mintedAt := 3605001
  sessionId := 12
  newRaw := "token-c"

theorem atomicOnFailure_revokeById :
    AtomicOnFailure config (call (some (.revokeById false))) stored tables :=
  (atomicOnFailure_iff (by decide) rfl (by decide)).2 (Or.inl rfl)

/-- The database fails for a moment when the employee is looked up: the call fails, the token is
revoked, the retry is taken for theft, and no live token is left.  It is the same when only the
answer to the rotation is lost. -/
theorem not_atomicOnFailure : let left := (refresh config (call (some .findById)) tables).1
    Fails (refresh config (call (some .findById)) tables) ∧
      left.refreshTokens.rows = [{ stored with revoked := true }] ∧
      (refresh config retry left).2 = .error reuseDetected ∧
      (∀ t ∈ (refresh config retry left).1.refreshTokens.rows, t.revoked = true) ∧
      ¬ AtomicOnFailure config (call (some .findById)) stored tables ∧
      ¬ AtomicOnFailure config (call (some (.revokeById true))) stored tables := by
  have hleft : (refresh config (call (some .findById)) tables).1.refreshTokens.rows =
      [{ stored with revoked := true }] := by decide
  have hlost : (refresh config (call (some (.revokeById true))) tables).1.refreshTokens.rows =
      [{ stored with revoked := true }] := by decide
  have hfails : Fails (refresh config (call (some .findById)) tables) := ⟨_, rfl⟩
  refine ⟨hfails, hleft, by decide, by decide, fun h => ?_, fun h => ?_⟩
  · rw [(h hfails).tokens] at hleft
    exact absurd hleft (by decide)
  · rw [(h ⟨_, rfl⟩).tokens] at hlost
    exact absurd hlost (by decide)

end Sample

end AuthService

end OpsHub
