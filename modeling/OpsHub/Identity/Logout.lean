import OpsHub.Identity.Rotation

/-!
# What a logout ends

`AuthController.logout` presents an access token and a refresh cookie of a family.  The
refresh token of the cookie is revoked, and the key of its session is set for as long as the
access token that was presented lasts.  An access token from before the last refresh has
another session, so that no key is set for it; and it expires earlier, so that the key may be
gone before the access token of the revoked session expires.

Whatever happens after a logout, both access tokens are rejected and the family has no refresh
token left to exchange exactly if the two that were presented belong to one session and the
family has no other refresh token that is live (`ends_iff`).
-/

namespace OpsHub

namespace Sessions

open RefreshTokenDrizzleRepository

/-- `AuthController.logout`: the guard on the access token, then `AuthService.logout` with the
refresh cookie, to its end. -/
def AuthController.logout (config : AuthConfig) (s : State) (token : AccessToken) (raw : String) :
    State :=
  match validate s token with
  | .ok user => Runs.run (step config) s
      [.logout raw (some user.exp), .advance s.calls.length 0 "", .advance s.calls.length 0 ""]
  | .error _ => s

/-- A request to log out between calls: the cookie is a live refresh token, and the access
token is one of its family that the guard lets pass. -/
structure Presents (config : AuthConfig) (s : State) (raw : String) (stored : RefreshToken)
    (t : Issued) : Prop where
  idle : s.Idle
  found : findByHash s.tokens (config.hash raw) = some stored
  live : stored.revoked = false
  issued : t ∈ s.issued
  family : t.familyId = stored.familyId
  accepted : Accepted s t.token

/-- The refresh token can be exchanged. -/
def Exchangeable (config : AuthConfig) (s : State) (row : RefreshToken) : Prop :=
  ∃ raw, findByHash s.tokens (config.hash raw) = some row ∧
    refresh config s.tokens s.now raw = .ok (.rotate raw row)

/-- What a logout is to achieve. -/
structure Ended (config : AuthConfig) (s : State) (stored : RefreshToken) (token : AccessToken) :
    Prop where
  /-- The access token that was presented is rejected. -/
  presented : ¬ Accepted s token
  /-- So is the one that was minted with the revoked refresh token. -/
  minted : ∀ t ∈ s.issued, t.token.jti = stored.id → ¬ Accepted s t.token
  /-- No refresh token of the family can be exchanged. -/
  exchange : ∀ row, row.familyId = stored.familyId → ¬ Exchangeable config s row

/-- **The guarantee**: whatever happens afterwards, the session stays ended. -/
def Ends (config : AuthConfig) (s : State) (stored : RefreshToken) (token : AccessToken) : Prop :=
  ∀ es, Ended config (Runs.run (step config) s es) stored token

/-- The condition: the access token was minted with the refresh token, and no other refresh
token of the family is live. -/
def OneSession (s : State) (stored : RefreshToken) (token : AccessToken) : Prop :=
  token.jti = stored.id ∧
    ∀ row ∈ s.tokens.rows, row.familyId = stored.familyId → row.id ≠ stored.id →
      row.revoked = true ∨ row.expiresAt < s.now

/-! ### Refreshes -/

section Refresh

variable {config : AuthConfig} {s : State} {raw : String} {stored row : RefreshToken}

/-- A refresh goes on to rotate exactly a live row that has not expired. -/
theorem refresh_eq_rotate_iff {presented : String} :
    refresh config s.tokens s.now raw = .ok (.rotate presented row) ↔
      presented = raw ∧ findByHash s.tokens (config.hash raw) = some row ∧
        row.revoked = false ∧ s.now ≤ row.expiresAt := by
  simp only [refresh, Except.bind_eq_ok_iff, Outcome.orThrow_eq_ok_iff]
  constructor
  · rintro ⟨stored, hfind, hphase⟩
    by_cases hrevoked : stored.revoked = true
    · rw [if_pos hrevoked, Except.pure_eq_ok_iff] at hphase
      cases hphase
    · rw [if_neg hrevoked] at hphase
      obtain ⟨u, hexpiry, hphase⟩ := Except.bind_eq_ok_iff.1 hphase
      rw [Except.pure_eq_ok_iff] at hphase
      cases hphase
      exact ⟨rfl, hfind, Bool.eq_false_iff.2 hrevoked, Outcome.require_eq_ok_iff.1 hexpiry⟩
  · rintro ⟨rfl, hfind, hlive, hexpiry⟩
    refine ⟨row, hfind, ?_⟩
    rw [if_neg (Bool.eq_false_iff.1 hlive)]
    exact Except.bind_eq_ok_iff.2 ⟨(), Outcome.require_eq_ok_iff.2 hexpiry, rfl⟩

theorem exchangeable_iff :
    Exchangeable config s row ↔
      (∃ raw, findByHash s.tokens (config.hash raw) = some row) ∧
        row.revoked = false ∧ s.now ≤ row.expiresAt := by
  unfold Exchangeable
  simp only [refresh_eq_rotate_iff, true_and]
  constructor
  · rintro ⟨raw, hfind, -, hlive, hexpiry⟩
    exact ⟨⟨raw, hfind⟩, hlive, hexpiry⟩
  · rintro ⟨⟨raw, hfind⟩, hlive, hexpiry⟩
    exact ⟨raw, hfind, hfind, hlive, hexpiry⟩

end Refresh

/-! ### What is registered -/

/-- The family of a call that has drawn or read one. -/
def Phase.familyOf : Phase → Option Uuid
  | .rotate _ stored => some stored.familyId
  | .reload _ stored => some stored.familyId
  | .mint _ familyId _ => some familyId
  | _ => none

/-- Rows have hashes of tokens, different ones, and families that have been drawn; access
tokens have a session each. -/
structure Registered (config : AuthConfig) (s : State) : Prop where
  hashes : s.tokens.Unique hashIndex
  raws : ∀ row ∈ s.tokens.rows, ∃ raw, row.tokenHash = config.hash raw
  families : ∀ row ∈ s.tokens.rows, row.familyId ∈ s.drawn
  calls : ∀ call ∈ s.calls, ∀ family ∈ call.familyOf, family ∈ s.drawn
  sessions : ∀ t ∈ s.issued, ∃ row ∈ s.tokens.rows, row.id = t.token.jti
  tokens : ∀ t ∈ s.issued, ∀ u ∈ s.issued, t.token.jti = u.token.jti → t = u

section Registered

variable {config : AuthConfig} {s s' : State} {e : Event} {i : ℕ} {phase : Phase}

theorem Registered.begin (h : Registered config s)
    (hfamily : ∀ family ∈ phase.familyOf, family ∈ s.drawn) : Registered config (s.begin phase) :=
  ⟨h.hashes, h.raws, h.families, Pool.forall_mem_add h.calls hfamily, h.sessions, h.tokens⟩

theorem Registered.goOn (h : Registered config s)
    (hfamily : ∀ family ∈ phase.familyOf, family ∈ s.drawn) : Registered config (s.goOn i phase) :=
  ⟨h.hashes, h.raws, h.families, Pool.forall_mem_set h.calls hfamily, h.sessions, h.tokens⟩

theorem Registered.revoke (h : Registered config s) (p : RefreshToken → Bool) :
    Registered config (s.withTokens (revokeWhere p s.tokens)) := by
  have hhashes : (revokeWhere p s.tokens).Unique hashIndex := h.hashes.updateWhere fun _ => rfl
  refine ⟨hhashes, fun row hrow => ?_, fun row hrow => ?_, h.calls, fun t ht => ?_, h.tokens⟩
  · obtain ⟨old, hold, rfl⟩ := mem_revokeWhere hrow
    exact h.raws old hold
  · obtain ⟨old, hold, rfl⟩ := mem_revokeWhere hrow
    exact h.families old hold
  · obtain ⟨row, hrow, hid⟩ := h.sessions t ht
    exact ⟨_, mem_revokeWhere_of_mem p hrow, hid⟩

/-- The family of a call stays its family when it goes on. -/
theorem Registered.family_of_get (h : Registered config s) (hcall : s.calls[i]? = some phase)
    {family : Uuid} (hfamily : phase.familyOf = some family) : family ∈ s.drawn :=
  h.calls phase (List.mem_of_getElem? hcall) family hfamily

/-- A mint registers a new row and a new access token. -/
theorem Registered.mint (h : Registered config s) {employee : Employee} {familyId : Uuid}
    {presented : Option (String × Uuid)} {sessionId : Uuid} {raw : String}
    {tokens : Table RefreshToken.id} {status : Option EmployeeStatus}
    {exchanged : List (String × Uuid)}
    (hcall : s.calls[i]? = some (.mint employee familyId presented))
    (hcreate : create (refreshRow config employee familyId s.now sessionId raw) s.tokens =
      some tokens) :
    Registered config { (s.withTokens tokens).goOn i .finished with
      issued := s.issued ++ [⟨accessToken config employee s.now sessionId, familyId, status⟩]
      exchanged := exchanged } := by
  have hdrawn : familyId ∈ s.drawn := h.family_of_get hcall rfl
  have hins := (create_eq_some_iff.1 hcreate).2
  have hnew : ∀ row ∈ s.tokens.rows, row.id ≠ sessionId :=
    Table.find_eq_none_iff.1 (Table.insert_eq_some_iff.1 hins).1
  have hfresh : ∀ t ∈ s.issued, t.token.jti ≠ sessionId := by
    intro t ht heq
    obtain ⟨row, hrow, hid⟩ := h.sessions t ht
    exact hnew row hrow (hid.trans heq)
  refine ⟨unique_create h.hashes hcreate, Table.forall_mem_insert hins h.raws ⟨raw, rfl⟩,
    Table.forall_mem_insert hins h.families hdrawn,
    Pool.forall_mem_set h.calls fun family hfamily => ?_, fun t ht => ?_, fun t ht u hu heq => ?_⟩
  · cases hfamily
  · rcases List.mem_append.1 ht with ht | ht
    · obtain ⟨row, hrow, hid⟩ := h.sessions t ht
      exact ⟨row, (Table.mem_insert hins).2 (Or.inl hrow), hid⟩
    · rw [List.mem_singleton.1 ht]
      exact ⟨_, (Table.mem_insert hins).2 (Or.inr rfl), rfl⟩
  · rcases List.mem_append.1 ht with ht | ht
    · rcases List.mem_append.1 hu with hu | hu
      · exact h.tokens t ht u hu heq
      · rw [List.mem_singleton.1 hu] at heq
        exact absurd heq (hfresh t ht)
    · rcases List.mem_append.1 hu with hu | hu
      · rw [List.mem_singleton.1 ht] at heq
        exact absurd heq.symm (hfresh u hu)
      · rw [List.mem_singleton.1 ht, List.mem_singleton.1 hu]

/-- **The step lemma.** -/
theorem registered_step (h : Registered config s) (hstep : Step config s e s') :
    Registered config s' := by
  have hrow : ∀ {raw : String} {stored : RefreshToken},
      findByHash s.tokens (config.hash raw) = some stored → stored.familyId ∈ s.drawn :=
    fun hfind => h.families _ (Table.findBy_spec hfind).1
  have hnone : ∀ family ∈ Phase.finished.familyOf, family ∈ s.drawn := fun _ hnone => by cases hnone
  cases hstep with
  | idle => exact h
  | @login employeeId familyId employee hnew hfind hactive =>
    have hold : ∀ family ∈ s.drawn, family ∈ s.drawn ++ [familyId] :=
      fun family hfamily => List.mem_append_left _ hfamily
    refine ⟨h.hashes, h.raws, fun row hrow => hold _ (h.families row hrow),
      Pool.forall_mem_add (fun call hcall family hfamily => ?_) (fun family hfamily => ?_),
      h.sessions, h.tokens⟩
    · exact hold _ (h.calls call hcall family hfamily)
    · rw [← Option.some.inj hfamily]
      exact List.mem_append_right _ (List.mem_singleton.2 rfl)
  | theft hfind hrevoked => exact h.begin fun _ hnone => by cases hnone
  | refresh hfind hlive =>
    refine h.begin fun family hfamily => ?_
    rw [← Option.some.inj hfamily]
    exact hrow hfind
  | logout hfind hlive => exact h.begin fun _ hnone => by cases hnone
  | @revokeFamily i stored hcall sessionId raw =>
    have hon : Registered config (State.goOn _ i .finished) :=
      (h.revoke fun t => decide (t.familyId = stored.familyId)).goOn hnone
    exact ⟨hon.hashes, hon.raws, hon.families, hon.calls, hon.sessions, hon.tokens⟩
  | @rotate i presented stored hcall sessionId raw =>
    have hon : Registered config (State.goOn _ i (.reload presented stored)) :=
      (h.revoke fun t => decide (t.id = stored.id)).goOn fun family hfamily =>
        h.family_of_get hcall hfamily
    exact ⟨hon.hashes, hon.raws, hon.families, hon.calls, hon.sessions, hon.tokens⟩
  | reload hcall hfind hactive sessionId raw =>
    exact h.goOn fun family hfamily => h.family_of_get hcall hfamily
  | mint hcall hcreate => exact h.mint hcall hcreate
  | abortReload hcall sessionId raw => exact h.goOn hnone
  | abortMint hcall sessionId raw => exact h.goOn hnone
  | revoke hcall sessionId raw => exact (h.revoke _).goOn fun _ hnone => by cases hnone
  | @deny i id accessTokenExp hcall sessionId raw =>
    have hon : Registered config (s.goOn i .finished) := h.goOn hnone
    exact ⟨hon.hashes, hon.raws, hon.families, hon.calls, hon.sessions, hon.tokens⟩
  | tick milliseconds => exact ⟨h.hashes, h.raws, h.families, h.calls, h.sessions, h.tokens⟩

theorem registered_run (config : AuthConfig) (tables : Tables) (now : ℕ) (es : List Event) :
    Registered config (Runs.run (step config) (State.initial tables now) es) := by
  refine Runs.run_invariant (fun s e h => registered_step h (step_cases config s e)) ?_ es
  constructor
  · exact fun row hrow => absurd hrow List.not_mem_nil
  · exact fun row hrow => absurd hrow List.not_mem_nil
  · exact fun row hrow => absurd hrow List.not_mem_nil
  · exact fun call hcall => absurd hcall List.not_mem_nil
  · exact fun t ht => absurd ht List.not_mem_nil
  · exact fun t ht => absurd ht List.not_mem_nil

end Registered

/-! ### What stays closed -/

/-- The call is to exchange a token of the family, or to set the key of the session. -/
def Phase.Reopens (family session : Uuid) : Phase → Prop
  | .rotate _ stored => stored.familyId = family
  | .reload _ stored => stored.familyId = family
  | .mint _ familyId _ => familyId = family
  | .revoke stored _ => stored.id = session
  | .deny id _ => id = session
  | _ => False

/-- The family has no token to exchange, and the key of the session outlasts its access
tokens. -/
structure Closed (family session : Uuid) (deadline : ℕ) (s : State) : Prop where
  drawn : family ∈ s.drawn
  rows : ∀ row ∈ s.tokens.rows, row.familyId = family → row.revoked = true ∨ row.expiresAt < s.now
  gone : ∃ row ∈ s.tokens.rows, row.id = session ∧ row.revoked = true
  calls : ∀ call ∈ s.calls, ¬ call.Reopens family session
  key : deadline ≤ s.denylist.deadline (.session session)
  tokens : ∀ t ∈ s.issued, t.token.jti = session → t.token.exp * 1000 ≤ deadline

section Closed

variable {config : AuthConfig} {s : State} {family session : Uuid} {deadline i : ℕ}
  {phase phase' : Phase}

theorem Closed.begin (h : Closed family session deadline s)
    (hphase : ¬ phase.Reopens family session) : Closed family session deadline (s.begin phase) :=
  ⟨h.drawn, h.rows, h.gone, Pool.forall_mem_add h.calls hphase, h.key, h.tokens⟩

theorem Closed.goOn (h : Closed family session deadline s)
    (hphase : ¬ phase.Reopens family session) : Closed family session deadline (s.goOn i phase) :=
  ⟨h.drawn, h.rows, h.gone, Pool.forall_mem_set h.calls hphase, h.key, h.tokens⟩

theorem Closed.revoke (h : Closed family session deadline s) (p : RefreshToken → Bool) :
    Closed family session deadline (s.withTokens (revokeWhere p s.tokens)) := by
  refine ⟨h.drawn, fun row hrow hfamily => ?_, ?_, h.calls, h.key, h.tokens⟩
  · obtain ⟨old, hold, rfl⟩ := mem_revokeWhere hrow
    rcases h.rows old hold hfamily with hrevoked | hexpired
    · exact Or.inl (by simp [hrevoked])
    · exact Or.inr hexpired
  · obtain ⟨row, hrow, hid, hrevoked⟩ := h.gone
    exact ⟨_, mem_revokeWhere_of_mem p hrow, hid, by simp [hrevoked]⟩

/-- The call at a position does not reopen the family. -/
theorem Closed.of_get (h : Closed family session deadline s) (hcall : s.calls[i]? = some phase) :
    ¬ phase.Reopens family session :=
  h.calls phase (List.mem_of_getElem? hcall)

/-- A live row is not the one of the session. -/
theorem Closed.ne_of_live (h : Closed family session deadline s) {row : RefreshToken}
    (hrow : row ∈ s.tokens.rows) (hlive : row.revoked = false) : row.id ≠ session := by
  intro hid
  obtain ⟨old, hold, holdId, hrevoked⟩ := h.gone
  rw [s.tokens.eq_of_key_eq hold hrow (holdId.trans hid.symm), hlive] at hrevoked
  cases hrevoked

/-- A mint is into another family, for another session. -/
theorem Closed.mint (h : Closed family session deadline s) {employee : Employee} {familyId : Uuid}
    {presented : Option (String × Uuid)} {sessionId : Uuid} {raw : String}
    {tokens : Table RefreshToken.id} {status : Option EmployeeStatus}
    {exchanged : List (String × Uuid)}
    (hcall : s.calls[i]? = some (.mint employee familyId presented))
    (hcreate : create (refreshRow config employee familyId s.now sessionId raw) s.tokens =
      some tokens) :
    Closed family session deadline { (s.withTokens tokens).goOn i .finished with
      issued := s.issued ++ [⟨accessToken config employee s.now sessionId, familyId, status⟩]
      exchanged := exchanged } := by
  have hother : familyId ≠ family := h.of_get hcall
  have hins := (create_eq_some_iff.1 hcreate).2
  obtain ⟨row, hrow, hid, hrevoked⟩ := h.gone
  have hnew : row.id ≠ sessionId :=
    Table.find_eq_none_iff.1 (Table.insert_eq_some_iff.1 hins).1 row hrow
  refine ⟨h.drawn, Table.forall_mem_insert hins h.rows fun hfamily => absurd hfamily hother, ?_,
    Pool.forall_mem_set h.calls not_false, h.key, fun t ht hjti => ?_⟩
  · exact ⟨row, (Table.mem_insert hins).2 (Or.inl hrow), hid, hrevoked⟩
  · rcases List.mem_append.1 ht with ht | ht
    · exact h.tokens t ht hjti
    · rw [List.mem_singleton.1 ht] at hjti
      exact absurd (hid.trans hjti.symm) hnew

/-- The beginning of a refresh. -/
theorem Closed.refresh (h : Closed family session deadline s) (raw : String) :
    Closed family session deadline (step config s (.refresh raw)) := by
  simp only [step]
  split
  · rename_i phase hrefresh
    refine h.begin ?_
    cases phase with
    | rotate presented stored =>
      obtain ⟨-, hfind, hlive, hexpiry⟩ := refresh_eq_rotate_iff.1 hrefresh
      intro hfamily
      rcases h.rows stored (Table.findBy_spec hfind).1 hfamily with hrevoked | hexpired
      · rw [hlive] at hrevoked
        cases hrevoked
      · exact absurd hexpiry (Nat.not_le.2 hexpired)
    | theft stored => exact not_false
    | _ =>
      -- a refresh does not go on with any other statement
      simp only [Sessions.refresh, Except.bind_eq_ok_iff, Outcome.orThrow_eq_ok_iff] at hrefresh
      obtain ⟨stored, -, hphase⟩ := hrefresh
      split at hphase
      · cases hphase
      · obtain ⟨u, -, hphase⟩ := Except.bind_eq_ok_iff.1 hphase
        cases hphase
  · exact h

/-- **The step lemma.** -/
theorem closed_step (h : Closed family session deadline s) (e : Event) :
    Closed family session deadline (step config s e) := by
  have hstep := step_cases config s e
  generalize hs' : step config s e = s' at hstep
  cases hstep with
  | idle => exact h
  | @login employeeId familyId employee hnew hfind hactive =>
    have hother : familyId ≠ family := fun heq => hnew (heq ▸ h.drawn)
    have hbegin : Closed family session deadline (s.begin (.mint employee familyId none)) :=
      h.begin hother
    exact ⟨List.mem_append_left _ h.drawn, hbegin.rows, hbegin.gone, hbegin.calls, hbegin.key,
      hbegin.tokens⟩
  | theft hfind hrevoked => exact h.begin not_false
  | refresh hfind hlive =>
    rw [← hs']
    exact h.refresh _
  | logout hfind hlive => exact h.begin (h.ne_of_live (Table.findBy_spec hfind).1 hlive)
  | @revokeFamily i stored hcall sessionId raw =>
    have hon : Closed family session deadline (State.goOn _ i .finished) :=
      (h.revoke fun t => decide (t.familyId = stored.familyId)).goOn not_false
    exact ⟨hon.drawn, hon.rows, hon.gone, hon.calls, hon.key, hon.tokens⟩
  | @rotate i presented stored hcall sessionId raw =>
    have hother : stored.familyId ≠ family := h.of_get hcall
    have hon : Closed family session deadline (State.goOn _ i (.reload presented stored)) :=
      (h.revoke fun t => decide (t.id = stored.id)).goOn hother
    exact ⟨hon.drawn, hon.rows, hon.gone, hon.calls, hon.key, hon.tokens⟩
  | @reload i presented stored employee hcall hfind hactive sessionId raw =>
    have hother : stored.familyId ≠ family := h.of_get hcall
    exact h.goOn hother
  | mint hcall hcreate => exact h.mint hcall hcreate
  | abortReload hcall sessionId raw => exact h.goOn not_false
  | abortMint hcall sessionId raw => exact h.goOn not_false
  | @revoke i stored accessTokenExp hcall sessionId raw =>
    have hother : stored.id ≠ session := h.of_get hcall
    exact (h.revoke _).goOn hother
  | @deny i id accessTokenExp hcall sessionId raw =>
    have hon : Closed family session deadline (s.goOn i .finished) := h.goOn not_false
    have hne : RevocationKey.session session ≠ .session id :=
      fun heq => h.of_get hcall (RevocationKey.session.inj heq).symm
    refine ⟨hon.drawn, hon.rows, hon.gone, hon.calls, ?_, hon.tokens⟩
    show deadline ≤ (s.denylist.set (.session id) () _).deadline (.session session)
    rw [TtlCache.deadline_set_ne _ hne]
    exact h.key
  | tick milliseconds =>
    refine ⟨h.drawn, fun row hrow hfamily => ?_, h.gone, h.calls, h.key, h.tokens⟩
    exact (h.rows row hrow hfamily).imp_right fun hexpired =>
      Nat.lt_of_lt_of_le hexpired (Nat.le_add_right _ _)

theorem closed_run (h : Closed family session deadline s) (es : List Event) :
    Closed family session deadline (Runs.run (step config) s es) :=
  @Runs.run_invariant _ _ (step config) (Closed family session deadline)
    (fun _ e h => closed_step h e) s h es

/-- A family that is closed is ended, with the access token of the session. -/
theorem Closed.ended {stored : RefreshToken} {token : AccessToken}
    (h : Closed stored.familyId stored.id deadline s) (hjti : token.jti = stored.id)
    (hexp : token.exp * 1000 ≤ deadline) : Ended config s stored token := by
  have hrejected : ∀ token : AccessToken, token.jti = stored.id → token.exp * 1000 ≤ deadline →
      ¬ Accepted s token := by
    intro token hjti hexp haccepted
    obtain ⟨hnow, hkey, -⟩ := accepted_iff.1 haccepted
    have hdeadline := h.key
    rw [hjti] at hkey
    omega
  refine ⟨hrejected token hjti hexp, fun t ht htjti => ?_, fun row hfamily hexchange => ?_⟩
  · exact hrejected t.token htjti (h.tokens t ht htjti)
  · obtain ⟨⟨raw, hfind⟩, hlive, hexpiry⟩ := exchangeable_iff.1 hexchange
    rcases h.rows row (Table.findBy_spec hfind).1 hfamily with hrevoked | hexpired
    · rw [hlive] at hrevoked
      cases hrevoked
    · exact absurd hexpiry (Nat.not_le.2 hexpired)

end Closed

/-! ### The logout -/

section Logout

variable {config : AuthConfig} {s : State} {raw : String} {stored : RefreshToken} {t : Issued}

/-- The state after the logout. -/
theorem logout_eq (h : Presents config s raw stored t) :
    AuthController.logout config s t.token raw =
      { s with
        tables := { s.tables with refreshTokens := revokeById stored.id s.tokens }
        denylist := s.denylist.set (.session stored.id) ()
          (s.now + logoutTtl s.now (some t.token.exp) * 1000)
        calls := s.calls ++ [.finished] } := by
  have hvalidate : validate s t.token = .ok t.token := h.accepted
  have hlogout : logout config s.tokens raw (some t.token.exp) =
      some (.revoke stored (some t.token.exp)) := by
    rw [logout, h.found]
    simp [h.live]
  have hlast : ∀ phase : Phase, (s.calls ++ [phase])[s.calls.length]? = some phase := fun phase => by
    simp
  have hset : ∀ phase phase' : Phase,
      (s.calls ++ [phase]).set s.calls.length phase' = s.calls ++ [phase'] := fun phase phase' => by
    simp
  have hbegin : step config s (.logout raw (some t.token.exp)) =
      s.begin (.revoke stored (some t.token.exp)) := by
    simp only [step, hlogout]
  rw [AuthController.logout, hvalidate]
  simp only [Runs.run_cons, Runs.run_nil, hbegin]
  simp only [step, advance, State.begin, State.goOn, State.withTokens, State.tokens, hlast, hset]

/-- The key that the logout sets outlasts the access token that was presented. -/
theorem exp_le_logoutTtl (h : Accepted s t.token) :
    t.token.exp * 1000 ≤ s.now + logoutTtl s.now (some t.token.exp) * 1000 := by
  obtain ⟨hexp, -⟩ := accepted_iff.1 h
  have hzero : t.token.exp ≠ 0 := by omega
  have hfilter : (some t.token.exp).filter (fun exp => decide (exp ≠ 0)) = some t.token.exp := by
    simp [hzero]
  rw [logoutTtl, hfilter]
  show _ ≤ s.now + max 1 (t.token.exp - s.now / 1000) * 1000
  omega

/-- After the logout the family of one session is closed. -/
theorem closed_logout (hregistered : Registered config s) (h : Presents config s raw stored t)
    (hone : OneSession s stored t.token) :
    Closed stored.familyId stored.id (s.now + logoutTtl s.now (some t.token.exp) * 1000)
      (AuthController.logout config s t.token raw) := by
  have hmem : stored ∈ s.tokens.rows := (Table.findBy_spec h.found).1
  obtain ⟨hjti, hothers⟩ := hone
  rw [logout_eq h]
  constructor
  · exact hregistered.families stored hmem
  · intro row hrow hfamily
    obtain ⟨old, hold, rfl⟩ := mem_revokeWhere hrow
    by_cases hid : old.id = stored.id
    · exact Or.inl (by simp [hid])
    · rcases hothers old hold hfamily hid with hrevoked | hexpired
      · exact Or.inl (by simp [hrevoked])
      · exact Or.inr hexpired
  · exact ⟨_, mem_revokeWhere_of_mem _ hmem, rfl, by simp⟩
  · refine Pool.forall_mem_add (fun call hcall => ?_) not_false
    rw [h.idle call hcall]
    exact not_false
  · exact Nat.le_of_eq (TtlCache.deadline_set_self _ _ _ _).symm
  · -- the only access token of the session is the one that was presented
    intro u hu hujti
    rw [hregistered.tokens u hu t h.issued (hujti.trans hjti.symm)]
    exact exp_le_logoutTtl h.accepted

/-- An access token of another session is accepted as before. -/
theorem accepted_logout (h : Presents config s raw stored t) (hjti : t.token.jti ≠ stored.id) :
    Accepted (AuthController.logout config s t.token raw) t.token := by
  obtain ⟨hexp, hsession, hemployee⟩ := accepted_iff.1 h.accepted
  have hne : RevocationKey.session t.token.jti ≠ .session stored.id :=
    fun heq => hjti (RevocationKey.session.inj heq)
  have hother : RevocationKey.employee t.token.sub ≠ .session stored.id := by
    intro heq
    cases heq
  rw [logout_eq h, accepted_iff]
  refine ⟨hexp, ?_, ?_⟩
  · show (s.denylist.set _ () _).deadline (.session t.token.jti) ≤ s.now
    rw [TtlCache.deadline_set_ne _ hne]
    exact hsession
  · show (s.denylist.set _ () _).deadline (.employee t.token.sub) ≤ s.now
    rw [TtlCache.deadline_set_ne _ hother]
    exact hemployee

/-- Another live refresh token can be exchanged as before. -/
theorem exchangeable_logout (hregistered : Registered config s) (h : Presents config s raw stored t)
    {row : RefreshToken} (hrow : row ∈ s.tokens.rows) (hid : row.id ≠ stored.id)
    (hlive : row.revoked = false) (hexpiry : s.now ≤ row.expiresAt) :
    Exchangeable config (AuthController.logout config s t.token raw) row := by
  obtain ⟨raw', hraw⟩ := hregistered.raws row hrow
  have hkept : row ∈ (revokeById stored.id s.tokens).rows := by
    have hmem := mem_revokeWhere_of_mem (fun t => decide (t.id = stored.id)) hrow
    simp only [hid, decide_false, Bool.or_false] at hmem
    exact hmem
  have hunique : (revokeById stored.id s.tokens).Unique hashIndex := (hregistered.revoke _).hashes
  rw [logout_eq h, exchangeable_iff]
  exact ⟨⟨raw', hunique.findBy_of_mem hkept (congrArg some hraw)⟩, hlive, hexpiry⟩

end Logout

/-- **Logout.**  In every state that is reached and in which no call is under way, a logout ends
the session for good exactly if the access token was minted with the refresh token of the cookie
and no other refresh token of the family is live. -/
theorem ends_iff (config : AuthConfig) (tables : Tables) (now : ℕ) (es : List Event)
    {raw : String} {stored : RefreshToken} {t : Issued}
    (h : Presents config (Runs.run (step config) (State.initial tables now) es) raw stored t) :
    Ends config (AuthController.logout config
        (Runs.run (step config) (State.initial tables now) es) t.token raw) stored t.token ↔
      OneSession (Runs.run (step config) (State.initial tables now) es) stored t.token := by
  have hregistered := registered_run config tables now es
  constructor
  · intro hends
    have hended := hends []
    refine ⟨not_not.1 fun hjti => hended.presented (accepted_logout h hjti), ?_⟩
    intro row hrow hfamily hid
    by_contra hneither
    rw [not_or, Bool.not_eq_true, Nat.not_lt] at hneither
    exact hended.exchange row hfamily
      (exchangeable_logout hregistered h hrow hid hneither.1 hneither.2)
  · intro hone es'
    have hclosed := @closed_run config _ _ _ _ (closed_logout hregistered h hone) es'
    exact hclosed.ended hone.1 (exp_le_logoutTtl h.accepted)

/-- As long as no refresh revokes a row that another one has revoked since it was looked up, the
refresh token of the cookie is the only live one of its family: the access token decides. -/
theorem oneSession_iff (config : AuthConfig) (tables : Tables) (now : ℕ) (es : List Event)
    (hok : Runs.Meets (step config) RotatesOnce (State.initial tables now) es)
    {raw : String} {stored : RefreshToken} {t : Issued}
    (h : Presents config (Runs.run (step config) (State.initial tables now) es) raw stored t) :
    OneSession (Runs.run (step config) (State.initial tables now) es) stored t.token ↔
      t.token.jti = stored.id := by
  refine ⟨And.left, fun hjti => ⟨hjti, fun row hrow hfamily hid => Or.inl ?_⟩⟩
  have hle := (run_rotates config tables now es hok).live h.idle stored.familyId
  by_contra hrevoked
  rw [Bool.not_eq_true] at hrevoked
  -- the row and the one of the cookie are two live ones
  have hstored : stored ∈ (Runs.run (step config) (State.initial tables now) es).tokens.rows :=
    (Table.findBy_spec h.found).1
  have hexcept := Table.countP_except
    (fun t => decide (t.familyId = stored.familyId ∧ t.revoked = false)) hstored
  have hpos := (List.countP_pos_iff (p := fun t =>
    decide (t.familyId = stored.familyId ∧ t.revoked = false) && decide (t.id ≠ stored.id))).2
      ⟨row, hrow, by simp [hfamily, hrevoked, hid]⟩
  simp only [h.live, and_self, decide_true, if_true] at hexcept
  unfold State.live at hle
  omega

/-! ### Logging out with an earlier access token -/

namespace Sample

/-- After a minute the employee refreshes: session 11, `token-b`. -/
def refreshedLater : List Event :=
  login ++ [.tick 60000, .refresh "token-a", .advance 1 0 "", .advance 1 0 "",
    .advance 1 11 "token-b"]

/-- The access tokens of sessions 10 and 11. -/
def earlier : Issued := ⟨⟨10, 1, 0, 900⟩, 100, some .active⟩
def later : Issued := ⟨⟨11, 1, 60, 960⟩, 100, some .active⟩

/-- The row of `token-b`. -/
def row : RefreshToken := ⟨11, 1, sha256 "token-b", 100, false, 604860000⟩

/-- The state before the logout. -/
def before : State := Runs.run (step config) start refreshedLater

/-- Both access tokens can be presented with `token-b`. -/
theorem presents_of_mem {t : Issued} (hmem : t ∈ [earlier, later]) :
    Presents config before "token-b" row t := by
  have hboth : ∀ t ∈ [earlier, later], t ∈ before.issued ∧ t.familyId = row.familyId ∧
      Accepted before t.token := by decide
  obtain ⟨hissued, hfamily, haccepted⟩ := hboth t hmem
  exact ⟨by decide, by decide, rfl, hissued, hfamily, haccepted⟩

end Sample

/-- With the access token of session 10, that token is still accepted after the logout, and once
it has expired the one of the session 11 that was logged out is accepted again. -/
theorem not_ends :
    ¬ (∀ es raw stored t,
      Presents Sample.config (Runs.run (step Sample.config) Sample.start es) raw stored t →
      Ends Sample.config (AuthController.logout Sample.config
        (Runs.run (step Sample.config) Sample.start es) t.token raw) stored t.token) ∧
    Accepted (AuthController.logout Sample.config Sample.before Sample.earlier.token "token-b")
      Sample.earlier.token ∧
    Accepted (Runs.run (step Sample.config)
        (AuthController.logout Sample.config Sample.before Sample.earlier.token "token-b")
        [.tick 840000])
      Sample.later.token := by
  have haccepted : Accepted (AuthController.logout Sample.config Sample.before
      Sample.earlier.token "token-b") Sample.earlier.token := by decide
  refine ⟨fun h => ?_, haccepted, by decide⟩
  have hends := h Sample.refreshedLater "token-b" Sample.row Sample.earlier
    (Sample.presents_of_mem (by decide))
  exact (hends []).presented haccepted

/-- With the access token of session 11 the logout ends the session. -/
theorem ends_iff_later :
    Presents Sample.config Sample.before "token-b" Sample.row Sample.later ∧
    Ends Sample.config (AuthController.logout Sample.config Sample.before Sample.later.token
      "token-b") Sample.row Sample.later.token := by
  have hpresents := Sample.presents_of_mem (t := Sample.later) (by decide)
  refine ⟨hpresents, (ends_iff Sample.config Sample.tables 0 Sample.refreshedLater hpresents).2 ?_⟩
  exact (oneSession_iff Sample.config Sample.tables 0 Sample.refreshedLater (by decide) hpresents).2
    rfl

end Sessions

end OpsHub
