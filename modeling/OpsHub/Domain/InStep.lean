import OpsHub.Domain.Services
import OpsHub.Requests.Chain

/-!
# Domain rows in step with their engine requests

The abstract model is a pair of statuses, that of the engine request and that of the
row linked to it, with the moves that keep the two in step (`Move`, `Move.agree`).
`StepSpec` says that an operation on the database moves every linked pair by one such
move; here it is proved for the parts that the operations are made of:

* `keeps_submitLinked`: filing a row, whichever of its commits take place;
* `stepSpec_decided`, `stepSpec_unlinked`: writing the status of a row;
* `stepSpec_committed`: a decision of the engine, with the hook it calls.
-/

namespace OpsHub

namespace InStep

open RequestEngine

/-! ### Pairs of statuses -/

/-- The status of an engine request and that of the row linked to it. -/
structure Pair where
  engine : RequestStatus
  domain : DomainStatus
  deriving DecidableEq, Repr

/-- The two are in step. -/
structure Pair.Agree (p : Pair) : Prop where
  pending_iff : p.domain = .pending ↔ p.engine.Open
  approved : p.engine = .approved → p.domain = .approved ∨ p.domain = .cancelled
  rejected : p.engine = .rejected → p.domain = .rejected
  withdrawn : p.engine = .cancelled ∨ p.engine = .expired →
    p.domain ≠ .pending ∧ p.domain ≠ .approved

/-- The moves that keep a pair in step. -/
inductive Move : Pair → Pair → Prop
  | stay (p : Pair) : Move p p
  | advance {E : RequestStatus} (S : DomainStatus) (h : E.Open) : Move ⟨E, S⟩ ⟨.inReview, S⟩
  | approve {E : RequestStatus} (S : DomainStatus) (h : E.Open) : Move ⟨E, S⟩ ⟨.approved, .approved⟩
  | reject {E : RequestStatus} (S : DomainStatus) (h : E.Open) : Move ⟨E, S⟩ ⟨.rejected, .rejected⟩
  | expire {E : RequestStatus} (S : DomainStatus) {S' : DomainStatus} (h : E.Open)
      (hpending : S' ≠ .pending) (happroved : S' ≠ .approved) : Move ⟨E, S⟩ ⟨.expired, S'⟩
  | withdraw (E : RequestStatus) : Move ⟨E, .approved⟩ ⟨E, .cancelled⟩

theorem agree_pending : Pair.Agree ⟨.pending, .pending⟩ where
  pending_iff := by simp
  approved h := by cases h
  rejected h := by cases h
  withdrawn h := by rcases h with h | h <;> cases h

/-- A move keeps a pair in step. -/
theorem Move.agree {p p' : Pair} (hm : Move p p') (h : p.Agree) : p'.Agree := by
  cases hm with
  | stay => exact h
  | advance S hopen =>
    have hS := h.pending_iff.2 hopen
    constructor <;> simp_all
  | approve S hopen => constructor <;> simp
  | reject S hopen => constructor <;> simp
  | expire S hopen hpending happroved => constructor <;> simp [hpending, happroved]
  | withdraw E =>
    -- an approved row belongs to an approved request
    have hopen : ¬ E.Open := fun hE => by simpa using h.pending_iff.2 hE
    have hrejected : E ≠ .rejected := fun hE => by simpa using h.rejected hE
    constructor <;> simp_all

/-- A row that has left `pending` without being approved is not approved by a move. -/
theorem Move.not_approved {p p' : Pair} (hm : Move p p') (h : p.Agree)
    (hpending : p.domain ≠ .pending) (happroved : p.domain ≠ .approved) :
    p'.domain ≠ .pending ∧ p'.domain ≠ .approved := by
  have hclosed : ¬ p.engine.Open := mt h.pending_iff.2 hpending
  cases hm with
  | stay => exact ⟨hpending, happroved⟩
  | advance S hopen => exact absurd hopen hclosed
  | approve S hopen => exact absurd hopen hclosed
  | reject S hopen => exact absurd hopen hclosed
  | expire S hopen hp ha => exact absurd hopen hclosed
  | withdraw E => simp at happroved

/-- A cancelled row of an approved request was approved, or it was already so. -/
theorem Move.of_cancelled {p : Pair} (hm : Move p ⟨.approved, .cancelled⟩) :
    p.domain = .approved ∨ p = ⟨.approved, .cancelled⟩ := by
  cases hm with
  | stay => exact Or.inr rfl
  | withdraw => exact Or.inl rfl

/-! ### Linked rows in the database -/

/-- The row `d` is linked to the request `q`, and `p` are their statuses. -/
def PairAt (db : Db Payload Tables) (d : DomainRef) (q : Uuid) (p : Pair) : Prop :=
  ∃ row r, db.domain.row d = some row ∧ row.link = some q ∧ db.requestItems.find q = some r ∧
    p = ⟨r.status, row.status⟩

/-- Requests and rows refer to each other as the services make them do. -/
structure Linked (db : Db Payload Tables) : Prop where
  typed : ∀ r ∈ db.requestItems.rows, r.type = r.payload.type
  row_of_ref : ∀ r ∈ db.requestItems.rows, ∀ d, r.payload.ref = some d →
    ∃ row, db.domain.row d = some row
  ref_unique : ∀ r ∈ db.requestItems.rows, ∀ r' ∈ db.requestItems.rows, ∀ d,
    r.payload.ref = some d → r'.payload.ref = some d → r = r'
  request_of_link : ∀ d row q, db.domain.row d = some row → row.link = some q →
    ∃ r, db.requestItems.find q = some r ∧ r.payload.ref = some d

theorem Linked.pairAt {db : Db Payload Tables} (h : Linked db) {d : DomainRef} {row : DomainRow}
    {q : Uuid} (hrow : db.domain.row d = some row) (hlink : row.link = some q) :
    ∃ p, PairAt db d q p := by
  obtain ⟨r, hr, -⟩ := h.request_of_link d row q hrow hlink
  exact ⟨_, row, r, hrow, hlink, hr, rfl⟩

theorem PairAt.unique {db : Db Payload Tables} {d : DomainRef} {q : Uuid} {p p' : Pair}
    (h : PairAt db d q p) (h' : PairAt db d q p') : p = p' := by
  obtain ⟨row, r, hd, -, hr, rfl⟩ := h
  obtain ⟨row', r', hd', -, hr', rfl⟩ := h'
  obtain rfl := Option.some.inj (hd.symm.trans hd')
  obtain rfl := Option.some.inj (hr.symm.trans hr')
  rfl

/-- What an operation does to the linked pairs when it keeps them in step. -/
structure StepSpec (db db' : Db Payload Tables) : Prop where
  linked : Linked db'
  old : ∀ d q p, PairAt db d q p → ∃ p', PairAt db' d q p' ∧ Move p p'
  new : ∀ d q p', PairAt db' d q p' → (∃ p, PairAt db d q p) ∨ p' = ⟨.pending, .pending⟩

/-- An operation that leaves the existing pairs alone. -/
structure Keeps (db db' : Db Payload Tables) : Prop where
  linked : Linked db'
  old : ∀ d q p, PairAt db d q p → PairAt db' d q p
  new : ∀ d q p', PairAt db' d q p' → PairAt db d q p' ∨ p' = ⟨.pending, .pending⟩

theorem Keeps.refl {db : Db Payload Tables} (h : Linked db) : Keeps db db :=
  ⟨h, fun _ _ _ hp => hp, fun _ _ _ hp => Or.inl hp⟩

theorem Keeps.trans {db db' db'' : Db Payload Tables} (h : Keeps db db') (h' : Keeps db' db'') :
    Keeps db db'' := by
  refine ⟨h'.linked, fun d q p hp => h'.old d q p (h.old d q p hp), ?_⟩
  intro d q p hp
  rcases h'.new d q p hp with hp | hp
  · exact h.new d q p hp
  · exact Or.inr hp

theorem Keeps.stepSpec {db db' : Db Payload Tables} (h : Keeps db db') : StepSpec db db' := by
  refine ⟨h.linked, fun d q p hp => ⟨p, h.old d q p hp, Move.stay p⟩, ?_⟩
  intro d q p hp
  exact (h.new d q p hp).imp (fun hp => ⟨p, hp⟩) id

/-! ### Filing a row -/

section Filing

variable {db db' : Db Payload Tables} {d₀ : DomainRef}

/-- The row `d₀` has been inserted: pending, without a link. -/
structure RowCreated (d₀ : DomainRef) (tables tables' : Tables) : Prop where
  fresh : tables.row d₀ = none
  created : tables'.row d₀ = some ⟨.pending, none⟩
  other : ∀ d, d ≠ d₀ → tables'.row d = tables.row d

/-- An insertion into one of the three tables. -/
theorem rowCreated_of_insert {ρ : Type*} {key : ρ → Uuid} {ref : Uuid → DomainRef}
    {domainRow : ρ → DomainRow} {t t' : Table key} {tables tables' : Tables} {r : ρ}
    (h : Differ ref domainRow t t' tables tables') (hinsert : t.insert r = some t')
    (hrow : domainRow r = ⟨.pending, none⟩) : RowCreated (ref (key r)) tables tables' := by
  constructor
  · rw [h.before, (Table.insert_eq_some_iff.1 hinsert).1, Option.map_none]
  · rw [h.after, Table.find_insert_self hinsert, Option.map_some, hrow]
  · intro d hd
    exact h.row_of_ne (fun id hne => Table.find_insert_ne hinsert hne) hd

/-- A new row is not linked, and no request is about it. -/
theorem keeps_created (h : Linked db) {tables : Tables} (hc : RowCreated d₀ db.domain tables) :
    Keeps db { db with domain := tables } ∧
      ∀ r ∈ db.requestItems.rows, r.payload.ref ≠ some d₀ := by
  have hrow : ∀ d row, db.domain.row d = some row → tables.row d = some row := by
    intro d row hd
    have hne : d ≠ d₀ := by
      rintro rfl
      rw [hc.fresh] at hd
      cases hd
    rw [hc.other d hne]
    exact hd
  have hback : ∀ d row q, tables.row d = some row → row.link = some q →
      db.domain.row d = some row := by
    intro d row q hd hlink
    by_cases hne : d = d₀
    · subst hne
      rw [hc.created] at hd
      obtain rfl := Option.some.inj hd
      cases hlink
    · rw [← hc.other d hne]
      exact hd
  refine ⟨⟨⟨h.typed, ?_, h.ref_unique, ?_⟩, ?_, ?_⟩, ?_⟩
  · intro r hr d hd
    obtain ⟨row, hdrow⟩ := h.row_of_ref r hr d hd
    exact ⟨row, hrow d row hdrow⟩
  · exact fun d row q hd hlink => h.request_of_link d row q (hback d row q hd hlink) hlink
  · rintro d q p ⟨row, r, hd, hlink, hr, rfl⟩
    exact ⟨row, r, hrow d row hd, hlink, hr, rfl⟩
  · rintro d q p ⟨row, r, hd, hlink, hr, rfl⟩
    exact Or.inl ⟨row, r, hback d row q hd hlink, hlink, hr, rfl⟩
  · intro r hr href
    obtain ⟨row, hdrow⟩ := h.row_of_ref r hr d₀ href
    rw [hc.fresh] at hdrow
    cases hdrow

/-- A new engine request about a row that no request is about. -/
theorem keeps_submitted (h : Linked db) {payload : Payload} {actor : Actor}
    {opts : SubmitRequestOptions} {now : Time} {newId : Uuid} {env : HookEnv}
    {item : RequestItem Payload}
    (hs : Submitted moduleRegistry payload.type payload actor opts now newId env db db' item)
    (href : payload.ref = some d₀) (hrow : ∃ row, db.domain.row d₀ = some row)
    (hfree : ∀ r ∈ db.requestItems.rows, r.payload.ref ≠ some d₀) :
    Keeps db db' ∧ db'.domain = db.domain ∧ db'.requestItems.find item.id = some item ∧
      item.payload.ref = some d₀ ∧ item.status = .pending := by
  have hdomain : db'.domain = db.domain := by
    refine hs.domain fun typeDef hdef => ?_
    rw [moduleRegistry_type] at hdef
    obtain rfl := Option.some.inj hdef
    cases payload <;> rfl
  obtain ⟨typeDef, hdef, rfl⟩ := hs.row_eq
  refine ⟨⟨⟨?_, ?_, ?_, ?_⟩, ?_, ?_⟩, hdomain, Table.find_insert_self hs.requestItems, href, rfl⟩
  · intro r hr
    rcases (Table.mem_insert hs.requestItems).1 hr with hr | rfl
    · exact h.typed r hr
    · rfl
  · intro r hr d hd
    rw [hdomain]
    rcases (Table.mem_insert hs.requestItems).1 hr with hr | rfl
    · exact h.row_of_ref r hr d hd
    · obtain rfl := Option.some.inj (href.symm.trans hd)
      exact hrow
  · intro r hr r' hr' d hd hd'
    rcases (Table.mem_insert hs.requestItems).1 hr with hr | rfl <;>
      rcases (Table.mem_insert hs.requestItems).1 hr' with hr' | rfl
    · exact h.ref_unique r hr r' hr' d hd hd'
    · exact absurd (hd.trans (hd'.symm.trans href)) (hfree r hr)
    · exact absurd (hd'.trans (hd.symm.trans href)) (hfree r' hr')
    · rfl
  · intro d row q hd hlink
    rw [hdomain] at hd
    obtain ⟨r, hr, hrd⟩ := h.request_of_link d row q hd hlink
    exact ⟨r, Table.find_insert_of_find hs.requestItems hr, hrd⟩
  · rintro d q p ⟨row, r, hd, hlink, hr, rfl⟩
    exact ⟨row, r, hdomain ▸ hd, hlink, Table.find_insert_of_find hs.requestItems hr, rfl⟩
  · rintro d q p ⟨row, r, hd, hlink, hr, rfl⟩
    rw [hdomain] at hd
    obtain ⟨r', hr', -⟩ := h.request_of_link d row q hd hlink
    have heq := Table.find_insert_of_find hs.requestItems hr'
    rw [hr] at heq
    obtain rfl := Option.some.inj heq
    exact Or.inl ⟨row, r, hd, hlink, hr', rfl⟩

/-- Set the link of a row. -/
def setLink (q : Uuid) (row : DomainRow) : DomainRow := { row with link := some q }

/-- Linking the pending row `d₀` to the pending request about it. -/
theorem keeps_backlinked (h : Linked db) {q : Uuid} {item : RequestItem Payload} {tables : Tables}
    (hrow : db.domain.row d₀ = some ⟨.pending, none⟩) (hitem : db.requestItems.find q = some item)
    (href : item.payload.ref = some d₀) (hstatus : item.status = .pending)
    (hu : RowUpdated d₀ (setLink q) db.domain tables) : Keeps db { db with domain := tables } := by
  obtain ⟨hself, hother⟩ := hu
  rw [hrow, Option.map_some] at hself
  have hkeep : ∀ d row q', db.domain.row d = some row → row.link = some q' →
      tables.row d = some row := by
    intro d row q' hd hlink
    have hne : d ≠ d₀ := by
      rintro rfl
      rw [hrow] at hd
      obtain rfl := Option.some.inj hd
      cases hlink
    rw [hother d hne]
    exact hd
  -- the row of a link is the one that has just been linked, or as it was
  have hafter : ∀ d row q', tables.row d = some row → row.link = some q' →
      (d = d₀ ∧ row = setLink q ⟨.pending, none⟩ ∧ q' = q) ∨ db.domain.row d = some row := by
    intro d row q' hd hlink
    by_cases hne : d = d₀
    · subst hne
      obtain rfl := Option.some.inj (hself.symm.trans hd)
      exact Or.inl ⟨rfl, rfl, (Option.some.inj hlink).symm⟩
    · exact Or.inr ((hother d hne).symm.trans hd)
  refine ⟨⟨h.typed, ?_, h.ref_unique, ?_⟩, ?_, ?_⟩
  · intro r hr d hd
    by_cases hne : d = d₀
    · exact ⟨_, hne ▸ hself⟩
    · obtain ⟨row, hdrow⟩ := h.row_of_ref r hr d hd
      exact ⟨row, (hother d hne).trans hdrow⟩
  · intro d row q' hd hlink
    rcases hafter d row q' hd hlink with ⟨rfl, -, rfl⟩ | hbefore
    · exact ⟨item, hitem, href⟩
    · exact h.request_of_link d row q' hbefore hlink
  · rintro d q' p ⟨row, r, hd, hlink, hr, rfl⟩
    exact ⟨row, r, hkeep d row q' hd hlink, hlink, hr, rfl⟩
  · rintro d q' p ⟨row, r, hd, hlink, hr, rfl⟩
    rcases hafter d row q' hd hlink with ⟨-, rfl, rfl⟩ | hbefore
    · obtain rfl := Option.some.inj (hitem.symm.trans hr)
      exact Or.inr (by rw [hstatus]; rfl)
    · exact Or.inl ⟨row, r, hbefore, hlink, hr, rfl⟩

/-- **Filing a row**, however many of its commits take place. -/
theorem keeps_submitLinked (h : Linked db) {create : Tables → Except Failure Tables}
    {payload : Payload} {backlink : Uuid → Tables → Tables} {actor : Actor} {expiresAt now : Time}
    {engineId : Uuid} {env : HookEnv} {commits : ℕ} (href : payload.ref = some d₀)
    (hcreate : ∀ tables tables', create tables = .ok tables' → RowCreated d₀ tables tables')
    (hlink : ∀ q tables, RowUpdated d₀ (setLink q) tables (backlink q tables)) :
    Keeps db (submitLinked create payload backlink actor expiresAt now engineId env commits db) := by
  unfold submitLinked
  split
  · exact Keeps.refl h
  · rename_i tables hok
    have hc := hcreate _ _ hok
    obtain ⟨hcreated, hfree⟩ := keeps_created h hc
    split
    · exact Keeps.refl h
    · dsimp only
      split
      · exact hcreated
      · rename_i db' item hsubmit
        obtain ⟨hsubmitted, hdomain, hitem, hitemRef, hstatus⟩ :=
          keeps_submitted hcreated.linked (submit_ok hsubmit) href ⟨_, hc.created⟩ hfree
        split
        · exact hcreated
        · split
          · exact hcreated.trans hsubmitted
          · refine (hcreated.trans hsubmitted).trans ?_
            refine keeps_backlinked hsubmitted.linked ?_ hitem hitemRef hstatus (hlink _ _)
            rw [hdomain]
            exact hc.created

end Filing

/-! ### Writing the status of a row -/

section Writing

variable {db : Db Payload Tables} {d₀ : DomainRef} {status : DomainStatus} {tables : Tables}

/-- A status written to `d₀` moves the pair of `d₀`, if it is linked, and no other. -/
theorem stepSpec_decided (h : Linked db)
    (hu : RowUpdated d₀ (DomainRow.decide status) db.domain tables)
    (hmove : ∀ q p, PairAt db d₀ q p → Move p ⟨p.engine, status⟩) :
    StepSpec db { db with domain := tables } := by
  obtain ⟨hself, hother⟩ := hu
  have hrow : ∀ d row, db.domain.row d = some row →
      ∃ row', tables.row d = some row' ∧ row'.link = row.link ∧
        (d ≠ d₀ → row' = row) ∧ (d = d₀ → row'.status = status) := by
    intro d row hd
    by_cases hne : d = d₀
    · subst hne
      rw [hd] at hself
      exact ⟨_, hself, rfl, fun h => absurd rfl h, fun _ => rfl⟩
    · exact ⟨row, (hother d hne).trans hd, rfl, fun _ => rfl, fun h => absurd h hne⟩
  have hback : ∀ d row', tables.row d = some row' →
      ∃ row, db.domain.row d = some row ∧ row.link = row'.link := by
    intro d row' hd
    by_cases hne : d = d₀
    · subst hne
      rw [hself] at hd
      obtain ⟨row, hdrow, rfl⟩ := Option.map_eq_some_iff.1 hd
      exact ⟨row, hdrow, rfl⟩
    · exact ⟨row', (hother d hne).symm.trans hd, rfl⟩
  refine ⟨⟨h.typed, ?_, h.ref_unique, ?_⟩, ?_, ?_⟩
  · intro r hr d hd
    obtain ⟨row, hdrow⟩ := h.row_of_ref r hr d hd
    obtain ⟨row', hrow', -⟩ := hrow d row hdrow
    exact ⟨row', hrow'⟩
  · intro d row' q hd hlink
    obtain ⟨row, hdrow, heq⟩ := hback d row' hd
    exact h.request_of_link d row q hdrow (heq.trans hlink)
  · rintro d q p hp
    obtain ⟨row, r, hd, hlink, hr, rfl⟩ := hp
    obtain ⟨row', hrow', heq, hsame, hnew⟩ := hrow d row hd
    refine ⟨_, ⟨row', r, hrow', heq.trans hlink, hr, rfl⟩, ?_⟩
    by_cases hne : d = d₀
    · subst hne
      rw [hnew rfl]
      exact hmove q _ ⟨row, r, hd, hlink, hr, rfl⟩
    · rw [hsame hne]
      exact Move.stay _
  · rintro d q p' ⟨row', r, hd, hlink, hr, rfl⟩
    obtain ⟨row, hdrow, heq⟩ := hback d row' hd
    exact Or.inl ⟨_, row, r, hdrow, heq.trans hlink, hr, rfl⟩

/-- The status of an unlinked row is nobody's business. -/
theorem stepSpec_unlinked (h : Linked db) {row : DomainRow} (hrow : db.domain.row d₀ = some row)
    (hlink : row.link = none) (hu : RowUpdated d₀ (DomainRow.decide status) db.domain tables) :
    StepSpec db { db with domain := tables } := by
  refine stepSpec_decided h hu ?_
  rintro q p ⟨row', r, hd, hlink', -, -⟩
  obtain rfl := Option.some.inj (hrow.symm.trans hd)
  rw [hlink] at hlink'
  cases hlink'

end Writing

/-! ### Decisions of the engine -/

section Deciding

variable {db db' : Db Payload Tables}

/-- The move of the pair of a decided request. -/
theorem move_of_transition {request : RequestItem Payload} {t : Transition Payload Tables}
    (ht : TransitionOf moduleRegistry request t) (hopen : request.status.Open) (S S' : DomainStatus)
    (hnot : (t.update request).status ≠ .cancelled)
    (hS : S' = (verdict request.payload (t.update request).status).getD S) :
    Move ⟨request.status, S⟩ ⟨(t.update request).status, S'⟩ := by
  subst hS
  cases ht with
  | finalApproval hdef hfinal delegation note actor now => exact Move.approve S hopen
  | stepApproval hdef hfinal delegation note actor now nextAssigneeId =>
    exact Move.advance S hopen
  | rejection hdef delegation note actor now => exact Move.reject S hopen
  | cancellation hdef actor now => exact absurd rfl hnot
  | expiration hdef now =>
    refine Move.expire S hopen ?_ ?_ <;> cases request.payload <;> simp [verdict, expiration,
      Payload.expiredStatus]

/-- A committed transition of a stored request: the pair linked to it moves, all others
stay. -/
theorem stepSpec_committed (h : Linked db) {request row : RequestItem Payload}
    {t : Transition Payload Tables} {env : HookEnv}
    (hreq : db.requestItems.find request.id = some request) (hopen : request.status.Open)
    (ht : TransitionOf moduleRegistry request t) (hc : t.Committed env db db' row)
    (hnot : (t.update request).status = .cancelled →
      ∀ d r, db.domain.row d = some r → r.link ≠ some request.id) : StepSpec db db' := by
  have hmem := Table.mem_of_find hreq
  obtain ⟨tables, hhook, hdomain⟩ := hc.hook
  have hv := ht.verdictWritten (h.typed request hmem) hhook request
  rw [← hdomain] at hv
  have hpayload := (ht.update_fixed request).2.2.1
  -- requests that agree in their ids and payloads before the transition agree after it
  have huniq : ∀ r ∈ db'.requestItems.rows, ∀ r' ∈ db'.requestItems.rows, r.id = r'.id → r = r' :=
    fun r hr r' hr' hid => db'.requestItems.eq_of_key_eq hr hr' hid
  have hpair : ∀ d q p, PairAt db d q p → ∃ p', PairAt db' d q p' ∧ Move p p' := by
    rintro d q p ⟨row, r, hd, hlink, hr, rfl⟩
    obtain ⟨row', hd', hlink', hsame, hnew⟩ := hv.row_some hd
    have hfind := ht.find_committed hreq hc hr
    refine ⟨_, ⟨row', _, hd', hlink'.trans hlink, hfind, rfl⟩, ?_⟩
    obtain ⟨r', hr', href⟩ := h.request_of_link d row q hd hlink
    obtain rfl := Option.some.inj (hr.symm.trans hr')
    by_cases hq : q = request.id
    · subst hq
      obtain rfl := Option.some.inj (hreq.symm.trans hr)
      rw [if_pos rfl]
      refine move_of_transition ht hopen row.status row'.status ?_ (hnew href)
      intro hcancelled
      exact hnot hcancelled d row hd hlink
    · -- the row of another request is not the row of the payload
      have hne : request.payload.ref ≠ some d := by
        intro heq
        have := h.ref_unique request hmem r (Table.mem_of_find hr) d heq href
        exact hq (by rw [this, Table.key_of_find hr])
      rw [if_neg hq, hsame hne]
      exact Move.stay _
  have hback : ∀ d q p', PairAt db' d q p' → ∃ p, PairAt db d q p := by
    rintro d q p' ⟨row', r', hd', hlink', hr', rfl⟩
    obtain ⟨row, hd, hlink⟩ := hv.row_back hd'
    exact h.pairAt hd (hlink.trans hlink')
  refine ⟨⟨?_, ?_, ?_, ?_⟩, hpair, fun d q p' hp' => Or.inl (hback d q p' hp')⟩
  · intro r hr
    obtain ⟨old, hold, -, htype, -, hpay⟩ := ht.mem_committed hc hr
    rw [htype, hpay]
    exact h.typed old hold
  · intro r hr d hd
    obtain ⟨old, hold, -, -, -, hpay⟩ := ht.mem_committed hc hr
    obtain ⟨row, hdrow⟩ := h.row_of_ref old hold d (hpay ▸ hd)
    obtain ⟨row', hdrow', -⟩ := hv.row_some hdrow
    exact ⟨row', hdrow'⟩
  · intro r hr r' hr' d hd hd'
    obtain ⟨old, hold, hid, -, -, hpay⟩ := ht.mem_committed hc hr
    obtain ⟨old', hold', hid', -, -, hpay'⟩ := ht.mem_committed hc hr'
    have heq := h.ref_unique old hold old' hold' d (hpay ▸ hd) (hpay' ▸ hd')
    exact huniq r hr r' hr' (by rw [hid, hid', heq])
  · intro d row' q hd' hlink'
    obtain ⟨row, hd, hlink⟩ := hv.row_back hd'
    obtain ⟨r, hr, href⟩ := h.request_of_link d row q hd (hlink.trans hlink')
    refine ⟨_, ht.find_committed hreq hc hr, ?_⟩
    split
    · rename_i hq
      subst hq
      obtain rfl := Option.some.inj (hreq.symm.trans hr)
      rw [hpayload]
      exact href
    · exact href

variable {view : AuthzView} {requestId : Uuid} {note : Option String} {actor : Actor} {now : Time}
  {env : HookEnv} {item : RequestItem Payload}

theorem stepSpec_approve (h : Linked db)
    (ha : approve moduleRegistry view requestId note actor now env db = .ok (db', item)) :
    StepSpec db db' := by
  obtain ⟨request, delegation, hreq, hcheck, htx⟩ := approve_eq_ok_iff.1 ha
  have hopen := (reviewCheck_eq_ok_iff.1 hcheck).1
  obtain rfl : request.id = requestId := Table.key_of_find hreq
  obtain ⟨typeDef, hdef, ⟨hfinal, hc⟩ | ⟨hfinal, nextAssigneeId, hc⟩⟩ := approveTx_ok htx
  · exact stepSpec_committed h hreq hopen (.finalApproval hdef hfinal _ _ _ _) hc (fun h => by cases h)
  · exact stepSpec_committed h hreq hopen (.stepApproval hdef hfinal _ _ _ _ _) hc
      (fun h => by cases h)

theorem stepSpec_reject (h : Linked db)
    (hr : reject moduleRegistry view requestId note actor now env db = .ok (db', item)) :
    StepSpec db db' := by
  obtain ⟨request, delegation, hreq, hcheck, htx⟩ := reject_eq_ok_iff.1 hr
  have hopen := (reviewCheck_eq_ok_iff.1 hcheck).1
  obtain rfl : request.id = requestId := Table.key_of_find hreq
  obtain ⟨typeDef, hdef, hrun⟩ := rejectTx_eq_ok_iff.1 htx
  exact stepSpec_committed h hreq hopen (.rejection hdef _ _ _ _) (Transition.run_ok hrun)
    (fun h => by cases h)

theorem stepSpec_expire (h : Linked db)
    (he : expire moduleRegistry requestId now env db = .ok db') : StepSpec db db' := by
  obtain rfl | ⟨request, item, hreq, hopen, htx⟩ := expire_ok he
  · exact (Keeps.refl h).stepSpec
  · obtain rfl : request.id = requestId := Table.key_of_find hreq
    obtain ⟨typeDef, hdef, hrun⟩ := expireTx_eq_ok_iff.1 htx
    exact stepSpec_committed h hreq hopen (.expiration hdef _) (Transition.run_ok hrun)
      (fun h => by cases h)

/-- A cancellation has no hook, so it must not be about a linked row. -/
theorem stepSpec_cancel (h : Linked db)
    (hc : cancel moduleRegistry view requestId actor now env db = .ok (db', item))
    (hfree : ∀ r ∈ db.requestItems.find requestId,
      cancelCheck moduleRegistry view r actor = .ok () →
      ∀ d ∈ r.payload.ref, ∀ row ∈ db.domain.row d, row.link ≠ some requestId) :
    StepSpec db db' := by
  obtain ⟨request, hreq, hcheck, htx⟩ := cancel_eq_ok_iff.1 hc
  have hopen := (cancelCheck_eq_ok_iff.1 hcheck).2.1
  obtain ⟨typeDef, hdef, hrun⟩ := cancelTx_eq_ok_iff.1 htx
  have hnone := hfree request hreq hcheck
  obtain rfl : request.id = requestId := Table.key_of_find hreq
  refine stepSpec_committed h hreq hopen (.cancellation hdef _ _) (Transition.run_ok hrun) ?_
  intro _ d row hd hlink
  obtain ⟨r, hr, href⟩ := h.request_of_link d row request.id hd hlink
  obtain rfl := Option.some.inj (hreq.symm.trans hr)
  exact hnone d href row hd hlink

end Deciding

end InStep

end OpsHub
