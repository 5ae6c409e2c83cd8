import OpsHub.Identity.Sessions

/-!
# Theft of a refresh token

A refresh that finds its token revoked revokes the family.  Afterwards no token of the
family is of use, provided that the access tokens of the family have expired or are denied
by their session keys, and that no refresh which is already under way mints into the family
(`run_final`).  Revoking the family itself takes care of neither (`not_final`).
-/

namespace OpsHub

namespace Sessions

open RefreshTokenDrizzleRepository

/-- **The guarantee**: between calls, no refresh token of a family revoked for theft is
live, and no access token minted in it is accepted. -/
def Final (s : State) : Prop :=
  s.Idle → ∀ family ∈ s.stolen,
    (∀ row ∈ s.tokens.rows, row.familyId = family → row.revoked = true) ∧
    ∀ t ∈ s.issued, t.familyId = family → ¬ Accepted s t.token

/-! ### The condition -/

/-- The call is a logout that is still to set the key of the session. -/
def Phase.denies (sessionId : Uuid) : Phase → Prop
  | .revoke stored _ => stored.id = sessionId
  | .deny id _ => id = sessionId
  | _ => False

instance (sessionId : Uuid) : DecidablePred (Phase.denies sessionId) := fun phase =>
  match phase with
  | .revoke stored _ => inferInstanceAs (Decidable (stored.id = sessionId))
  | .deny id _ => inferInstanceAs (Decidable (id = sessionId))
  | .theft _ => isFalse not_false
  | .rotate _ _ => isFalse not_false
  | .reload _ _ => isFalse not_false
  | .mint _ _ _ => isFalse not_false
  | .finished => isFalse not_false

/-- The token has expired, is denied until it expires, or is about to be denied by one of
the calls. -/
def Covered (now deadline : ℕ) (calls : List Phase) (token : AccessToken) : Prop :=
  token.exp * 1000 ≤ now ∨ token.exp * 1000 ≤ deadline ∨ ∃ call ∈ calls, call.denies token.jti

instance (now deadline : ℕ) (calls : List Phase) (token : AccessToken) :
    Decidable (Covered now deadline calls token) :=
  inferInstanceAs (Decidable (_ ∨ _ ∨ ∃ call ∈ calls, call.denies token.jti))

/-- The token is covered by its session key. -/
def State.Covers (s : State) (token : AccessToken) : Prop :=
  Covered s.now (s.denylist.deadline (.session token.jti)) s.calls token

instance (s : State) (token : AccessToken) : Decidable (s.Covers token) :=
  inferInstanceAs (Decidable (Covered _ _ _ token))

/-- The family that a refresh is about to revoke for theft. -/
def State.revoking (s : State) : Event → Option Uuid
  | .advance i _ _ =>
    match s.calls[i]? with
    | some (.theft stored) => some stored.familyId
    | _ => none
  | _ => none

/-- The family that a call is about to mint into. -/
def State.minting (s : State) : Event → Option Uuid
  | .advance i _ _ =>
    match s.calls[i]? with
    | some (.mint _ familyId _) => some familyId
    | _ => none
  | _ => none

/-- The call that is about to set a session key, the session and the deadline. -/
def State.denying (s : State) : Event → Option (ℕ × Uuid × ℕ)
  | .advance i _ _ =>
    match s.calls[i]? with
    | some (.deny id accessTokenExp) => some (i, id, s.now + logoutTtl s.now accessTokenExp * 1000)
    | _ => none
  | _ => none

/-- The condition on a step. -/
structure KeepsOut (s : State) (e : Event) : Prop where
  /-- When a family is revoked, its access tokens are covered. -/
  revoking : ∀ family ∈ s.revoking e, ∀ t ∈ s.issued, t.familyId = family → s.Covers t.token
  /-- Nothing is minted into a family that has been revoked for theft. -/
  minting : ∀ family ∈ s.minting e, family ∉ s.stolen
  /-- A logout leaves the access token of its session covered if the family has been
  revoked for theft. -/
  denying : ∀ d ∈ s.denying e, ∀ t ∈ s.issued, t.familyId ∈ s.stolen → t.token.jti = d.2.1 →
    Covered s.now d.2.2 (s.calls.set d.1 .finished) t.token

instance (s : State) (e : Event) : Decidable (KeepsOut s e) :=
  decidable_of_iff
    ((∀ family ∈ s.revoking e, ∀ t ∈ s.issued, t.familyId = family → s.Covers t.token) ∧
      (∀ family ∈ s.minting e, family ∉ s.stolen) ∧
      ∀ d ∈ s.denying e, ∀ t ∈ s.issued, t.familyId ∈ s.stolen → t.token.jti = d.2.1 →
        Covered s.now d.2.2 (s.calls.set d.1 .finished) t.token)
    ⟨fun h => ⟨h.1, h.2.1, h.2.2⟩, fun h => ⟨h.revoking, h.minting, h.denying⟩⟩

/-! ### The invariant -/

/-- Stolen families have no live row, and their access tokens are covered. -/
structure KeptOut (s : State) : Prop where
  rows : ∀ row ∈ s.tokens.rows, row.familyId ∈ s.stolen → row.revoked = true
  covered : ∀ t ∈ s.issued, t.familyId ∈ s.stolen → s.Covers t.token

section Steps

variable {config : AuthConfig} {s s' : State} {e : Event} {token : AccessToken} {i : ℕ}
  {phase phase' : Phase}

/-- A token stays covered when more calls are under way. -/
theorem Covered.mono {now deadline : ℕ} {calls calls' : List Phase}
    (h : Covered now deadline calls token)
    (hcalls : ∀ call ∈ calls, call.denies token.jti →
      ∃ call' ∈ calls', Phase.denies token.jti call') : Covered now deadline calls' token := by
  rcases h with h | h | ⟨call, hcall, hdenies⟩
  · exact Or.inl h
  · exact Or.inr (Or.inl h)
  · exact Or.inr (Or.inr (hcalls call hcall hdenies))

theorem KeptOut.begin (h : KeptOut s) (phase : Phase) : KeptOut (s.begin phase) :=
  ⟨h.rows, fun t ht hstolen => (h.covered t ht hstolen).mono fun call hcall hdenies =>
    ⟨call, List.mem_append_left _ hcall, hdenies⟩⟩

/-- A call goes on; if it is a logout, it goes on to set the same key. -/
theorem covered_goOn (hcall : s.calls[i]? = some phase)
    (hdenies : phase.denies token.jti → phase'.denies token.jti) (h : s.Covers token) :
    (s.goOn i phase').Covers token := by
  refine Covered.mono h fun call hmem hcallDenies => ?_
  by_cases heq : call = phase
  · subst heq
    exact ⟨phase', Pool.mem_set_self hcall phase', hdenies hcallDenies⟩
  · exact ⟨call, Pool.mem_set_of_mem hcall hmem heq, hcallDenies⟩

theorem KeptOut.goOn (h : KeptOut s) (hcall : s.calls[i]? = some phase)
    (hdenies : ∀ id, phase.denies id → phase'.denies id) : KeptOut (s.goOn i phase') :=
  ⟨h.rows, fun t ht hstolen => covered_goOn hcall (hdenies _) (h.covered t ht hstolen)⟩

/-- Revoking rows makes none of them live. -/
theorem KeptOut.revoke (h : KeptOut s) (p : RefreshToken → Bool) :
    KeptOut (s.withTokens (revokeWhere p s.tokens)) := by
  refine ⟨fun row hrow hstolen => ?_, h.covered⟩
  obtain ⟨old, hold, rfl⟩ := mem_revokeWhere hrow
  simp [h.rows old hold hstolen]

/-- The revocation of a family whose access tokens are covered. -/
theorem KeptOut.revokeFamily (h : KeptOut s) {stored : RefreshToken}
    (hcall : s.calls[i]? = some (.theft stored))
    (hcovered : ∀ t ∈ s.issued, t.familyId = stored.familyId → s.Covers t.token) :
    KeptOut { (s.withTokens (RefreshTokenDrizzleRepository.revokeFamily stored.familyId s.tokens)).goOn
      i .finished with stolen := s.stolen ++ [stored.familyId] } := by
  have hrevoke := h.revoke (fun t => decide (t.familyId = stored.familyId))
  constructor
  · intro row hrow hstolen
    rcases List.mem_append.1 hstolen with hstolen | hstolen
    · exact hrevoke.rows row hrow hstolen
    · obtain ⟨old, hold, rfl⟩ := mem_revokeWhere hrow
      have hfamily : old.familyId = stored.familyId := List.mem_singleton.1 hstolen
      simp [hfamily]
  · intro t ht hstolen
    have hold : s.Covers t.token := by
      rcases List.mem_append.1 hstolen with hstolen | hstolen
      · exact h.covered t ht hstolen
      · exact hcovered t ht (List.mem_singleton.1 hstolen)
    exact covered_goOn hcall False.elim hold

/-- A mint into another family. -/
theorem KeptOut.mint (h : KeptOut s) {employee : Employee} {familyId : Uuid}
    {presented : Option (String × Uuid)} {row : RefreshToken} {tokens : Table RefreshToken.id}
    {token : AccessToken} {status : Option EmployeeStatus} {exchanged : List (String × Uuid)}
    (hcall : s.calls[i]? = some (.mint employee familyId presented))
    (hother : familyId ∉ s.stolen) (hfamily : row.familyId = familyId)
    (hcreate : create row s.tokens = some tokens) :
    KeptOut { (s.withTokens tokens).goOn i .finished with
      issued := s.issued ++ [⟨token, familyId, status⟩]
      exchanged := exchanged } := by
  constructor
  · intro x hx hstolen
    rcases (Table.mem_insert (create_eq_some_iff.1 hcreate).2).1 hx with hx | rfl
    · exact h.rows x hx hstolen
    · rw [hfamily] at hstolen
      exact absurd hstolen hother
  · intro t ht hstolen
    rcases List.mem_append.1 ht with ht | ht
    · exact covered_goOn hcall False.elim (h.covered t ht hstolen)
    · rw [List.mem_singleton.1 ht] at hstolen
      exact absurd hstolen hother

/-- A logout sets the key of its session. -/
theorem KeptOut.deny (h : KeptOut s) {id : Uuid} {accessTokenExp : Option ℕ} {deadline : ℕ}
    (hcall : s.calls[i]? = some (.deny id accessTokenExp))
    (hdeny : ∀ t ∈ s.issued, t.familyId ∈ s.stolen → t.token.jti = id →
      Covered s.now deadline (s.calls.set i .finished) t.token) :
    KeptOut { s.goOn i .finished with
      denylist := s.denylist.set (.session id) () deadline } := by
  refine ⟨h.rows, fun t ht hstolen => ?_⟩
  by_cases hid : t.token.jti = id
  · show Covered s.now ((s.denylist.set (.session id) () deadline).deadline _) _ _
    rw [hid, TtlCache.deadline_set_self]
    exact hdeny t ht hstolen hid
  · have hne : RevocationKey.session t.token.jti ≠ .session id :=
      fun heq => hid (RevocationKey.session.inj heq)
    show Covered s.now ((s.denylist.set (.session id) () deadline).deadline _) _ _
    rw [TtlCache.deadline_set_ne _ hne]
    exact covered_goOn hcall (fun heq => hid (Eq.symm heq))
      (h.covered t ht hstolen)

/-- **The step lemma.** -/
theorem keptOut_step (h : KeptOut s) (hok : KeepsOut s e) (hstep : Step config s e s') :
    KeptOut s' := by
  cases hstep with
  | idle => exact h
  | @login employeeId familyId employee hnew hfind hactive =>
    have hbegin := h.begin (.mint employee familyId none)
    exact ⟨hbegin.rows, hbegin.covered⟩
  | theft hfind hrevoked => exact h.begin _
  | refresh hfind hlive => exact h.begin _
  | logout hfind hlive => exact h.begin _
  | @revokeFamily i stored hcall sessionId raw =>
    refine h.revokeFamily hcall fun t ht hfamily => ?_
    refine hok.revoking stored.familyId ?_ t ht hfamily
    rw [State.revoking, hcall]
    rfl
  | @rotate i presented stored hcall sessionId raw =>
    have hrevoke := h.revoke (fun t => decide (t.id = stored.id))
    have hon : KeptOut (State.goOn _ i (.reload presented stored)) :=
      hrevoke.goOn hcall fun _ hfalse => hfalse
    exact ⟨hon.rows, hon.covered⟩
  | reload hcall hfind hactive sessionId raw => exact h.goOn hcall fun _ hfalse => hfalse
  | @mint i employee familyId presented sessionId raw tokens hcall hcreate =>
    refine h.mint hcall ?_ rfl hcreate
    refine hok.minting familyId ?_
    rw [State.minting, hcall]
    rfl
  | abortReload hcall sessionId raw => exact h.goOn hcall fun _ hfalse => hfalse
  | abortMint hcall sessionId raw => exact h.goOn hcall fun _ hfalse => hfalse
  | revoke hcall sessionId raw => exact (h.revoke _).goOn hcall fun _ hid => hid
  | @deny i id accessTokenExp hcall sessionId raw =>
    refine h.deny hcall fun t ht hstolen hid => ?_
    refine hok.denying (i, id, _) ?_ t ht hstolen hid
    rw [State.denying, hcall]
    rfl
  | tick milliseconds =>
    refine ⟨h.rows, fun t ht hstolen => ?_⟩
    rcases h.covered t ht hstolen with hexpired | hrest
    · exact Or.inl (Nat.le_trans hexpired (Nat.le_add_right _ _))
    · exact Or.inr hrest

/-- Between calls, a covered token is not accepted. -/
theorem not_accepted_of_covers (hidle : s.Idle) (h : s.Covers token) : ¬ Accepted s token := by
  rw [accepted_iff]
  rintro ⟨hexp, hsession, -⟩
  rcases h with h | h | ⟨call, hcall, hdenies⟩
  · omega
  · omega
  · rw [hidle call hcall] at hdenies
    exact hdenies

end Steps

/-- **Theft detection is final** in every run in which families are revoked only when
their access tokens are covered, nothing is minted into a revoked family, and logouts leave
its access tokens covered. -/
theorem run_final (config : AuthConfig) (tables : Tables) (now : ℕ) (es : List Event)
    (hok : Runs.Meets (step config) KeepsOut (State.initial tables now) es) :
    Final (Runs.run (step config) (State.initial tables now) es) := by
  have hinitial : KeptOut (State.initial tables now) := by
    constructor
    · intro row hrow
      cases hrow
    · intro t ht
      cases ht
  have hrun := @Runs.run_induction _ _ (step config) KeepsOut KeptOut
    (fun s e h hok => keptOut_step h hok (step_cases config s e)) _ es hinitial hok
  intro hidle family hfamily
  constructor
  · rintro row hrow rfl
    exact hrun.rows row hrow hfamily
  · rintro t ht rfl
    exact not_accepted_of_covers hidle (hrun.covered t ht hfamily)

/-! ### What a revoked family still has -/

namespace Sample

/-- A refresh with `token-a`, which mints session 11 and `token-b`. -/
def refreshed : List Event :=
  login ++ [.refresh "token-a", .advance 1 0 "", .advance 1 0 "", .advance 1 11 "token-b"]

/-- `token-a` is presented again at once. -/
def replayed : List Event := refreshed ++ [.refresh "token-a", .advance 2 0 ""]

/-- It is presented again while the refresh is under way, which then mints. -/
def raced : List Event :=
  login ++ [.refresh "token-a", .advance 1 0 "", .refresh "token-a", .advance 2 0 "",
    .advance 1 0 "", .advance 1 11 "token-b"]

/-- It is presented again when the access tokens have expired. -/
def replayedLate : List Event :=
  refreshed ++ [.tick 900000, .refresh "token-a", .advance 2 0 ""]

/-- The access token of session 11. -/
def newToken : AccessToken := ⟨11, 1, 0, 900⟩

end Sample

/-- After the theft has been detected, the access tokens of the family are still accepted,
and a refresh that was under way leaves a live refresh token in it. -/
theorem not_final :
    ¬ (∀ es, Final (Runs.run (step Sample.config) Sample.start es)) ∧
    Accepted (Runs.run (step Sample.config) Sample.start Sample.replayed) Sample.newToken ∧
    ¬ Final (Runs.run (step Sample.config) Sample.start Sample.raced) := by
  have haccepted :
      Accepted (Runs.run (step Sample.config) Sample.start Sample.replayed) Sample.newToken := by
    decide
  refine ⟨fun h => ?_, haccepted, fun h => ?_⟩
  · refine (h Sample.replayed (by decide) 100 (by decide)).2 ⟨Sample.newToken, 100, some .active⟩ ?_
      rfl haccepted
    decide
  · have hrevoked := (h (by decide) 100 (by decide)).1
      ⟨11, 1, Sample.sha256 "token-b", 100, false, 604800000⟩ (by decide) rfl
    cases hrevoked

/-- The guarantee for a token that is presented again when the access tokens have expired. -/
theorem run_final_late :
    Final (Runs.run (step Sample.config) Sample.start Sample.replayedLate) ∧
      (Runs.run (step Sample.config) Sample.start Sample.replayedLate).stolen = [100] := by
  refine ⟨run_final Sample.config Sample.tables 0 Sample.replayedLate ?_, by decide⟩
  decide

end Sessions

end OpsHub
