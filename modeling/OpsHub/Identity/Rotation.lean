import OpsHub.Identity.Sessions

/-!
# Rotation of refresh tokens

The tokens of a family form a chain: each refresh revokes the last one and mints the next.
As long as no two refreshes rotate the same row, a family has one end (`Chain.single`): a row
that has not been rotated, or a mint that is still to come.  Hence at most one live token
for each family, and one exchange for each token (`run_rotates`).  Two refreshes that have
both looked up a token before one of them revokes it break this (`not_rotates`).
-/

namespace OpsHub

namespace Sessions

open RefreshTokenDrizzleRepository

/-! ### The guarantee and the condition -/

/-- The live tokens of a family. -/
def State.live (s : State) (familyId : Uuid) : ℕ :=
  s.tokens.rows.countP (fun t => decide (t.familyId = familyId ∧ t.revoked = false))

/-- **The guarantee**: between calls, a family has at most one live token, and no token
has been exchanged twice. -/
structure Rotates (s : State) : Prop where
  live : s.Idle → ∀ familyId, s.live familyId ≤ 1
  exchanged : ∀ raw, (s.exchanged.map Prod.fst).count raw ≤ 1

/-- The row that a refresh is about to revoke. -/
def State.rotating (s : State) : Event → Option RefreshToken
  | .advance i _ _ =>
    match s.calls[i]? with
    | some (.rotate _ stored) => some stored
    | _ => none
  | _ => none

/-- No refresh revokes a row that another refresh has revoked since it was looked up. -/
def RotatesOnce (s : State) (e : Event) : Prop := ∀ stored ∈ s.rotating e, stored.id ∉ s.rotated

instance (s : State) (e : Event) : Decidable (RotatesOnce s e) :=
  inferInstanceAs (Decidable (∀ stored ∈ s.rotating e, stored.id ∉ s.rotated))

/-! ### The invariant -/

/-- The call is going to mint a token of the family. -/
def Phase.mints (familyId : Uuid) : Phase → Bool
  | .reload _ stored => decide (stored.familyId = familyId)
  | .mint _ family _ => decide (family = familyId)
  | _ => false

/-- The call has rotated the row `id` and is going to mint for it. -/
def Phase.exchanges (id : Uuid) : Phase → Bool
  | .reload _ stored => decide (stored.id = id)
  | .mint _ _ (some (_, row)) => decide (row = id)
  | _ => false

/-- There is a row `id` of the family, whose token is `raw`. -/
def HasRow (config : AuthConfig) (tokens : Table RefreshToken.id) (raw : String)
    (id familyId : Uuid) : Prop :=
  ∃ row ∈ tokens.rows, row.id = id ∧ row.familyId = familyId ∧ row.tokenHash = config.hash raw

/-- What a call has read is still there. -/
def Phase.Sound (config : AuthConfig) (tokens : Table RefreshToken.id) (drawn : List Uuid) :
    Phase → Prop
  | .rotate raw stored => HasRow config tokens raw stored.id stored.familyId
  | .reload raw stored => HasRow config tokens raw stored.id stored.familyId
  | .mint _ familyId presented => familyId ∈ drawn ∧
      ∀ p ∈ presented, HasRow config tokens p.1 p.2 familyId
  | _ => True

/-- The rows of a family that no refresh has rotated. -/
def unrotated (tokens : Table RefreshToken.id) (rotated : List Uuid) (familyId : Uuid) : ℕ :=
  tokens.rows.countP (fun t => decide (t.familyId = familyId) && decide (t.id ∉ rotated))

/-- The calls that are going to mint a token of the family. -/
def minting (calls : List Phase) (familyId : Uuid) : ℕ := calls.countP (Phase.mints familyId)

/-- The exchanges of the row `id`, those to come included. -/
def exchangesOf (calls : List Phase) (exchanged : List (String × Uuid)) (id : Uuid) : ℕ :=
  exchanged.countP (fun x => decide (x.2 = id)) + calls.countP (Phase.exchanges id)

/-- The invariant, on the parts of the state that it is about. -/
structure Chain (config : AuthConfig) (tokens : Table RefreshToken.id) (calls : List Phase)
    (drawn rotated : List Uuid) (exchanged : List (String × Uuid)) : Prop where
  families : ∀ row ∈ tokens.rows, row.familyId ∈ drawn
  hashes : tokens.Unique hashIndex
  sound : ∀ call ∈ calls, call.Sound config tokens drawn
  revoked : ∀ id ∈ rotated, ∃ row ∈ tokens.rows, row.id = id ∧ row.revoked = true
  known : ∀ x ∈ exchanged, ∃ familyId, HasRow config tokens x.1 x.2 familyId
  /-- A family has one end. -/
  single : ∀ familyId, unrotated tokens rotated familyId + minting calls familyId ≤ 1
  /-- Only a rotated row is exchanged. -/
  once : ∀ id, exchangesOf calls exchanged id ≤ if id ∈ rotated then 1 else 0

section Chain

variable {config : AuthConfig} {tokens tokens' : Table RefreshToken.id} {calls : List Phase}
  {drawn rotated : List Uuid} {exchanged : List (String × Uuid)} {phase phase' : Phase} {i : ℕ}

theorem HasRow.mono {raw : String} {id familyId : Uuid} (hkept : RowsKept tokens tokens')
    (h : HasRow config tokens raw id familyId) : HasRow config tokens' raw id familyId := by
  obtain ⟨row, hrow, hid, hfamily, hhash⟩ := h
  obtain ⟨row', hrow', hid', hfamily', hhash', -⟩ := hkept row hrow
  exact ⟨row', hrow', hid'.trans hid, hfamily'.trans hfamily, hhash'.trans hhash⟩

theorem Phase.Sound.mono {drawn' : List Uuid} (hkept : RowsKept tokens tokens')
    (hdrawn : ∀ f ∈ drawn, f ∈ drawn') (h : phase.Sound config tokens drawn) :
    phase.Sound config tokens' drawn' := by
  cases phase with
  | rotate raw stored => exact HasRow.mono hkept h
  | reload raw stored => exact HasRow.mono hkept h
  | mint employee familyId presented =>
    exact ⟨hdrawn _ h.1, fun p hp => (h.2 p hp).mono hkept⟩
  | _ => trivial

/-- A call that is going to mint does so in a family that has been drawn. -/
theorem Chain.drawn_of_mints (h : Chain config tokens calls drawn rotated exchanged)
    {familyId : Uuid} (hcall : phase ∈ calls) (hmints : phase.mints familyId = true) :
    familyId ∈ drawn := by
  have hsound := h.sound phase hcall
  cases phase with
  | reload raw stored =>
    obtain ⟨row, hrow, -, hfamily, -⟩ := hsound
    rw [Phase.mints, decide_eq_true_eq] at hmints
    rw [← hmints, ← hfamily]
    exact h.families row hrow
  | mint employee family presented =>
    rw [Phase.mints, decide_eq_true_eq] at hmints
    rw [← hmints]
    exact hsound.1
  | _ => cases hmints

theorem unrotated_revokeWhere (p : RefreshToken → Bool) (familyId : Uuid) :
    unrotated (revokeWhere p tokens) rotated familyId = unrotated tokens rotated familyId := by
  unfold unrotated revokeWhere Table.updateWhere
  rw [List.countP_map]
  congr 1
  funext row
  simp only [Function.comp_apply]
  split <;> rfl

/-- Revoking rows keeps the chains. -/
theorem Chain.revoke (h : Chain config tokens calls drawn rotated exchanged)
    (p : RefreshToken → Bool) :
    Chain config (revokeWhere p tokens) calls drawn rotated exchanged := by
  have hkept := rowsKept_revokeWhere p tokens
  constructor
  · intro row hrow
    obtain ⟨old, hold, rfl⟩ := mem_revokeWhere hrow
    exact h.families old hold
  · exact h.hashes.updateWhere fun _ => rfl
  · exact fun call hcall => (h.sound call hcall).mono hkept fun _ hf => hf
  · intro id hid
    obtain ⟨row, hrow, hrowId, hrevoked⟩ := h.revoked id hid
    obtain ⟨row', hrow', hid', -, -, -, hrevoked'⟩ := hkept row hrow
    exact ⟨row', hrow', hid'.trans hrowId, hrevoked' hrevoked⟩
  · intro x hx
    obtain ⟨familyId, hrow⟩ := h.known x hx
    exact ⟨familyId, hrow.mono hkept⟩
  · intro familyId
    rw [unrotated_revokeWhere]
    exact h.single familyId
  · exact h.once

/-- A new call that mints nothing. -/
theorem Chain.begin (h : Chain config tokens calls drawn rotated exchanged)
    (hsound : phase.Sound config tokens drawn) (hmints : ∀ f, phase.mints f = false)
    (hexchanges : ∀ id, phase.exchanges id = false) :
    Chain config tokens (calls ++ [phase]) drawn rotated exchanged := by
  refine ⟨h.families, h.hashes, Pool.forall_mem_add h.sound hsound, h.revoked, h.known, ?_, ?_⟩
  · intro familyId
    have hcount : minting (calls ++ [phase]) familyId = minting calls familyId := by
      simp [minting, hmints]
    rw [hcount]
    exact h.single familyId
  · intro id
    have hcount : exchangesOf (calls ++ [phase]) exchanged id = exchangesOf calls exchanged id := by
      simp [exchangesOf, hexchanges]
    rw [hcount]
    exact h.once id

/-- A call that goes on without minting or exchanging more than before. -/
theorem Chain.goOn (h : Chain config tokens calls drawn rotated exchanged)
    (hcall : calls[i]? = some phase) (hsound : phase'.Sound config tokens drawn)
    (hmints : ∀ f, phase'.mints f = true → phase.mints f = true)
    (hexchanges : ∀ id, phase'.exchanges id = true → phase.exchanges id = true) :
    Chain config tokens (calls.set i phase') drawn rotated exchanged := by
  refine ⟨h.families, h.hashes, Pool.forall_mem_set h.sound hsound, h.revoked, h.known, ?_, ?_⟩
  · intro familyId
    have hcount := Pool.countP_set (Phase.mints familyId) hcall phase'
    have hsingle := h.single familyId
    have hle := hmints familyId
    unfold minting at hsingle ⊢
    by_cases hp : phase'.mints familyId = true
    · rw [if_pos hp, if_pos (hle hp)] at hcount
      omega
    · rw [if_neg hp] at hcount
      omega
  · intro id
    have hcount := Pool.countP_set (Phase.exchanges id) hcall phase'
    have honce := h.once id
    have hle := hexchanges id
    unfold exchangesOf at honce ⊢
    by_cases hp : phase'.exchanges id = true
    · rw [if_pos hp, if_pos (hle hp)] at hcount
      omega
    · rw [if_neg hp] at hcount
      omega

/-- A login starts a new family. -/
theorem Chain.login (h : Chain config tokens calls drawn rotated exchanged) (employee : Employee)
    {familyId : Uuid} (hnew : familyId ∉ drawn) :
    Chain config tokens (calls ++ [.mint employee familyId none]) (drawn ++ [familyId]) rotated
      exchanged := by
  have hdrawn : ∀ f ∈ drawn, f ∈ drawn ++ [familyId] := fun f hf => List.mem_append_left _ hf
  have hrefl : RowsKept tokens tokens := fun row hrow => ⟨row, hrow, rfl, rfl, rfl, rfl, fun h => h⟩
  refine ⟨fun row hrow => hdrawn _ (h.families row hrow), h.hashes, ?_, h.revoked, h.known, ?_, ?_⟩
  · refine Pool.forall_mem_add (fun call hcall => (h.sound call hcall).mono hrefl hdrawn) ?_
    refine ⟨List.mem_append_right _ (List.mem_singleton.2 rfl), fun p hp => ?_⟩
    cases hp
  · intro f
    have hcount : minting (calls ++ [.mint employee familyId none]) f =
        minting calls f + if familyId = f then 1 else 0 := by
      unfold minting
      rw [List.countP_append, List.countP_singleton]
      simp [Phase.mints]
    rw [hcount]
    by_cases hf : familyId = f
    · -- the family has neither rows nor calls yet
      subst hf
      have hrows : unrotated tokens rotated familyId = 0 := by
        refine List.countP_eq_zero.2 fun row hrow hp => hnew ?_
        rw [Bool.and_eq_true, decide_eq_true_eq] at hp
        rw [← hp.1]
        exact h.families row hrow
      have hcalls : minting calls familyId = 0 :=
        List.countP_eq_zero.2 fun call hcall hmints => hnew (h.drawn_of_mints hcall hmints)
      rw [if_pos rfl]
      omega
    · rw [if_neg hf]
      exact h.single f
  · intro id
    have hcount : exchangesOf (calls ++ [.mint employee familyId none]) exchanged id =
        exchangesOf calls exchanged id := by
      unfold exchangesOf
      rw [List.countP_append, List.countP_singleton]
      simp [Phase.exchanges]
    rw [hcount]
    exact h.once id

/-- A refresh rotates a row that no other refresh has rotated: the end of the chain moves
from the row to the call. -/
theorem Chain.rotate (h : Chain config tokens calls drawn rotated exchanged) {raw : String}
    {stored : RefreshToken} (hcall : calls[i]? = some (.rotate raw stored))
    (hnew : stored.id ∉ rotated) :
    Chain config (revokeById stored.id tokens) (calls.set i (.reload raw stored)) drawn
      (rotated ++ [stored.id]) exchanged := by
  have hrevoke := h.revoke (fun t => decide (t.id = stored.id))
  have hkept := rowsKept_revokeWhere (fun t => decide (t.id = stored.id)) tokens
  have hsound : HasRow config tokens raw stored.id stored.familyId :=
    h.sound _ (List.mem_of_getElem? hcall)
  obtain ⟨row, hrow, hid, hfamily, hhash⟩ := hsound
  refine ⟨hrevoke.families, hrevoke.hashes, ?_, ?_, hrevoke.known, ?_, ?_⟩
  · exact Pool.forall_mem_set hrevoke.sound
      (HasRow.mono hkept ⟨row, hrow, hid, hfamily, hhash⟩)
  · intro id hmem
    rcases List.mem_append.1 hmem with hmem | hmem
    · exact hrevoke.revoked id hmem
    · rw [List.mem_singleton.1 hmem]
      refine ⟨_, mem_revokeWhere_of_mem _ hrow, hid, ?_⟩
      simp [hid]
  · intro f
    have hcount := Pool.countP_set (Phase.mints f) hcall (.reload raw stored)
    have hsingle := h.single f
    -- the rotated row is the only one that leaves the unrotated ones
    have hrows : unrotated (revokeById stored.id tokens) (rotated ++ [stored.id]) f +
        (if stored.familyId = f then 1 else 0) = unrotated tokens rotated f := by
      have hexcept := Table.countP_except
        (fun t => decide (t.familyId = f) && decide (t.id ∉ rotated)) hrow
      have hrowCounts : (decide (row.familyId = f) && decide (row.id ∉ rotated)) =
          decide (stored.familyId = f) := by
        rw [hid, hfamily]
        simp [hnew]
      rw [hrowCounts] at hexcept
      unfold revokeById
      rw [unrotated_revokeWhere]
      unfold unrotated
      rw [← hexcept, hid]
      simp only [List.mem_append, List.mem_singleton, not_or, Bool.decide_and, Bool.and_assoc,
        decide_eq_true_eq, ne_eq]
    unfold minting at hsingle ⊢
    simp only [Phase.mints, Bool.false_eq_true, if_false, decide_eq_true_eq] at hcount
    omega
  · intro id
    have hcount := Pool.countP_set (Phase.exchanges id) hcall (.reload raw stored)
    have honce := h.once id
    unfold exchangesOf at honce ⊢
    simp only [Phase.exchanges, Bool.false_eq_true, if_false, decide_eq_true_eq] at hcount
    by_cases heq : stored.id = id
    · subst heq
      rw [if_neg hnew] at honce
      rw [if_pos (List.mem_append_right _ (List.mem_singleton.2 rfl))]
      rw [if_pos rfl] at hcount
      omega
    · have hiff : id ∈ rotated ++ [stored.id] ↔ id ∈ rotated := by
        simp [Ne.symm heq]
      rw [if_neg heq] at hcount
      simp only [hiff]
      omega

/-- A mint: the end of the chain moves from the call to the new row. -/
theorem Chain.mint (h : Chain config tokens calls drawn rotated exchanged) {employee : Employee}
    {familyId : Uuid} {presented : Option (String × Uuid)} {row : RefreshToken}
    (hcall : calls[i]? = some (.mint employee familyId presented))
    (hfamily : row.familyId = familyId) (hcreate : create row tokens = some tokens') :
    Chain config tokens' (calls.set i .finished) drawn rotated (exchanged ++ presented.toList) := by
  have hkept := rowsKept_create hcreate
  have hins := (create_eq_some_iff.1 hcreate).2
  have hmem := List.mem_of_getElem? hcall
  obtain ⟨hdrawn, hpresented⟩ := h.sound _ hmem
  have hfresh : row.id ∉ rotated := by
    intro hmem
    obtain ⟨old, hold, hid, -⟩ := h.revoked row.id hmem
    exact Table.find_eq_none_iff.1 (Table.insert_eq_some_iff.1 hins).1 old hold hid
  constructor
  · exact Table.forall_mem_insert hins h.families (hfamily ▸ hdrawn)
  · exact unique_create h.hashes hcreate
  · refine Pool.forall_mem_set (fun call hmem => ?_) trivial
    exact (h.sound call hmem).mono hkept fun _ hf => hf
  · intro id hid
    obtain ⟨old, hold, holdId, hrevoked⟩ := h.revoked id hid
    exact ⟨old, (Table.mem_insert hins).2 (Or.inl hold), holdId, hrevoked⟩
  · intro x hx
    rcases List.mem_append.1 hx with hx | hx
    · obtain ⟨f, hrow⟩ := h.known x hx
      exact ⟨f, hrow.mono hkept⟩
    · rw [Option.mem_toList] at hx
      exact ⟨familyId, (hpresented x hx).mono hkept⟩
  · -- the new row is unrotated, and the call does not mint any more
    intro f
    have hcount := Pool.countP_set (Phase.mints f) hcall .finished
    have hsingle := h.single f
    have hrows : unrotated tokens' rotated f =
        unrotated tokens rotated f + if familyId = f then 1 else 0 := by
      unfold unrotated
      rw [Table.countP_insert _ hins, hfamily]
      simp [hfresh]
    unfold minting at hsingle ⊢
    simp only [Phase.mints, Bool.false_eq_true, if_false, decide_eq_true_eq] at hcount
    rw [hrows]
    omega
  · intro id
    have hcount := Pool.countP_set (Phase.exchanges id) hcall .finished
    have honce := h.once id
    unfold exchangesOf at honce ⊢
    rw [List.countP_append]
    cases presented with
    | none =>
      simp only [Phase.exchanges, Bool.false_eq_true, if_false] at hcount
      simp only [Option.toList_none, List.countP_nil]
      omega
    | some p =>
      obtain ⟨raw, rowId⟩ := p
      simp only [Phase.exchanges, Bool.false_eq_true, if_false, decide_eq_true_eq] at hcount
      simp only [Option.toList_some, List.countP_singleton, decide_eq_true_eq]
      omega

end Chain

/-! ### Runs -/

section Runs

variable {config : AuthConfig} {s s' : State} {e : Event}

/-- The invariant of a state. -/
def State.Chained (config : AuthConfig) (s : State) : Prop :=
  Chain config s.tokens s.calls s.drawn s.rotated s.exchanged

/-- **The step lemma.** -/
theorem chained_step (h : s.Chained config) (hok : RotatesOnce s e) (hstep : Step config s e s') :
    s'.Chained config := by
  have hrow : ∀ {raw : String} {stored : RefreshToken},
      findByHash s.tokens (config.hash raw) = some stored →
      HasRow config s.tokens raw stored.id stored.familyId := by
    intro raw stored hfind
    obtain ⟨hmem, hhash⟩ := Table.findBy_spec hfind
    exact ⟨stored, hmem, rfl, rfl, Option.some.inj hhash⟩
  cases hstep with
  | idle => exact h
  | login hnew hfind hactive => exact Chain.login h _ hnew
  | theft hfind hrevoked => exact Chain.begin h trivial (fun _ => rfl) fun _ => rfl
  | refresh hfind hlive => exact Chain.begin h (hrow hfind) (fun _ => rfl) fun _ => rfl
  | logout hfind hlive => exact Chain.begin h trivial (fun _ => rfl) fun _ => rfl
  | revokeFamily hcall sessionId raw =>
    exact (Chain.revoke h _).goOn hcall trivial (by simp [Phase.mints]) (by simp [Phase.exchanges])
  | @rotate i presented stored hcall sessionId raw =>
    refine Chain.rotate h hcall (hok stored ?_)
    rw [State.rotating, hcall]
    rfl
  | reload hcall hfind hactive sessionId raw =>
    have hsound := h.sound _ (List.mem_of_getElem? hcall)
    refine Chain.goOn h hcall ⟨?_, ?_⟩ (fun _ hf => hf) fun _ hid => hid
    · obtain ⟨row, hmem, -, hfamily, -⟩ := hsound
      rw [← hfamily]
      exact h.families row hmem
    · intro p hp
      obtain rfl := Option.some.inj hp
      exact hsound
  | mint hcall hcreate => exact Chain.mint h hcall rfl hcreate
  | abortReload hcall sessionId raw =>
    exact Chain.goOn h hcall trivial (by simp [Phase.mints]) (by simp [Phase.exchanges])
  | abortMint hcall sessionId raw =>
    exact Chain.goOn h hcall trivial (by simp [Phase.mints]) (by simp [Phase.exchanges])
  | revoke hcall sessionId raw =>
    exact (Chain.revoke h _).goOn hcall trivial (by simp [Phase.mints]) (by simp [Phase.exchanges])
  | deny hcall sessionId raw =>
    exact Chain.goOn h hcall trivial (by simp [Phase.mints]) (by simp [Phase.exchanges])
  | tick milliseconds => exact h

theorem chained_initial (tables : Tables) (now : ℕ) :
    (State.initial tables now).Chained config := by
  constructor
  · intro row hrow
    cases hrow
  · intro row hrow
    cases hrow
  · intro call hcall
    cases hcall
  · intro id hid
    cases hid
  · intro x hx
    cases hx
  · intro familyId
    exact Nat.zero_le 1
  · intro id
    exact Nat.zero_le _

/-- The live tokens of a family are unrotated rows. -/
theorem live_le (h : s.Chained config) (familyId : Uuid) : s.live familyId ≤ 1 := by
  refine Nat.le_trans ?_ (Nat.le_trans (Nat.le_add_right _ _) (h.single familyId))
  refine List.countP_mono_left fun row hrow hp => ?_
  obtain ⟨hfamily, hlive⟩ := of_decide_eq_true hp
  rw [Bool.and_eq_true, decide_eq_true_eq, decide_eq_true_eq]
  refine ⟨hfamily, fun hmem => ?_⟩
  obtain ⟨row', hrow', hid, hrevoked⟩ := h.revoked row.id hmem
  rw [s.tokens.eq_of_key_eq hrow' hrow hid, hlive] at hrevoked
  cases hrevoked

/-- The exchanges of a token are exchanges of one row. -/
theorem exchanged_le (h : s.Chained config) (raw : String) :
    (s.exchanged.map Prod.fst).count raw ≤ 1 := by
  by_cases hmem : raw ∈ s.exchanged.map Prod.fst
  · obtain ⟨x, hx, rfl⟩ := List.mem_map.1 hmem
    obtain ⟨f, row, hrow, hid, -, hhash⟩ := h.known x hx
    have hle : (s.exchanged.map Prod.fst).count x.1 ≤
        s.exchanged.countP (fun y => decide (y.2 = x.2)) := by
      rw [List.count, List.countP_map]
      refine List.countP_mono_left fun y hy hsame => ?_
      obtain ⟨f', row', hrow', hid', -, hhash'⟩ := h.known y hy
      rw [Function.comp_apply, beq_iff_eq] at hsame
      rw [hsame, ← hhash] at hhash'
      have hrows : row' = row := h.hashes.eq hrow' hrow (congrArg some hhash') rfl
      rw [decide_eq_true_eq, ← hid', ← hid, hrows]
    have honce := h.once x.2
    unfold exchangesOf at honce
    split at honce <;> omega
  · rw [List.count_eq_zero.2 hmem]
    exact Nat.zero_le 1

/-- **Rotation.**  In every run in which no refresh revokes a row that another refresh has
revoked since it was looked up, families have one live token at most and no token is
exchanged twice. -/
theorem run_rotates (config : AuthConfig) (tables : Tables) (now : ℕ) (es : List Event)
    (hok : Runs.Meets (step config) RotatesOnce (State.initial tables now) es) :
    Rotates (Runs.run (step config) (State.initial tables now) es) := by
  have hrun := @Runs.run_induction _ _ (step config) RotatesOnce (State.Chained config)
    (fun s e h hok => chained_step h hok (step_cases config s e)) _ es
    (chained_initial tables now) hok
  exact ⟨fun _ => live_le hrun, exchanged_le hrun⟩

end Runs

/-! ### Two refreshes with one token -/

namespace Sample

/-- Two refreshes look up the same token, then each rotates it and mints. -/
def overlapping : List Event :=
  login ++ [.refresh "token-a", .refresh "token-a",
    .advance 1 0 "", .advance 1 0 "", .advance 1 11 "token-b",
    .advance 2 0 "", .advance 2 0 "", .advance 2 12 "token-c"]

/-- A refresh, another one with the new token, and a logout. -/
def orderly : List Event :=
  login ++ [.refresh "token-a", .advance 1 0 "", .advance 1 0 "", .advance 1 11 "token-b",
    .refresh "token-b", .advance 2 0 "", .advance 2 0 "", .advance 2 12 "token-c",
    .logout "token-c" none, .advance 3 0 "", .advance 3 0 ""]

end Sample

/-- Both refreshes succeed: one token has been exchanged twice, and its family has two live
tokens while no call is in progress. -/
theorem not_rotates :
    ¬ (∀ es, Rotates (Runs.run (step Sample.config) Sample.start es)) ∧
    (Runs.run (step Sample.config) Sample.start Sample.overlapping).Idle ∧
    (Runs.run (step Sample.config) Sample.start Sample.overlapping).live 100 = 2 := by
  have hidle : (Runs.run (step Sample.config) Sample.start Sample.overlapping).Idle := by decide
  have hlive : (Runs.run (step Sample.config) Sample.start Sample.overlapping).live 100 = 2 := by
    decide
  refine ⟨fun h => ?_, hidle, hlive⟩
  have hle := (h Sample.overlapping).live hidle 100
  rw [hlive] at hle
  omega

/-- The guarantee for refreshes that come one after the other. -/
theorem run_rotates_orderly :
    Rotates (Runs.run (step Sample.config) Sample.start Sample.orderly) ∧
      (Runs.run (step Sample.config) Sample.start Sample.orderly).exchanged.length = 2 := by
  refine ⟨run_rotates Sample.config Sample.tables 0 Sample.orderly ?_, by decide⟩
  decide

end Sessions

end OpsHub
