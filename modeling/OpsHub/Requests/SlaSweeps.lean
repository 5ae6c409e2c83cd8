import OpsHub.Requests.SlaBreach

/-!
# Sweeps of the SLA cron

A tick that nobody interrupts marks open requests only, and all whose deadline has passed, unless
there are more than a hundred.  So the marks and the reports are exact if such a tick comes between
a deadline and a late decision, and calls commit on open requests.

* `sweep`: a tick with all of its marks;
* `Swept`: the open requests with a mark are those whose deadline has passed; `swept_sweep`;
* `Prompt`: the condition on the calls between two sweeps;
* `Rounds`, `timely_of_rounds`: runs of sweeps and prompt calls are timely.
-/

namespace OpsHub

variable {π σ : Type}

namespace SlaBreach

open RequestEngine SlaBreachCron Runs

/-! ### Sweeps -/

/-- A tick, and the marks of all rows that it selects. -/
def sweep (s : State π σ) (now : Time) (place : Uuid → ℕ) : List (Event π) :=
  .tick now place ::
    List.replicate (findBreached now place s.engine.db).length (.mark s.ticks.length true)

/-- The marks are those of a tick at `now` that has selected all overdue requests. -/
structure Swept (now : Time) (s : State π σ) : Prop where
  past : ∀ r ∈ s.engine.db.requestItems.rows, r.slaBreachedAt ≠ none →
    ∀ d ∈ r.slaDeadline, d ≤ now
  marked : ∀ r ∈ s.engine.db.requestItems.rows, r.status.Open → ∀ d ∈ r.slaDeadline, d ≤ now →
    r.slaBreachedAt ≠ none

section Sweeps

variable {registry : RequestRegistry π σ} {toISOString : Time → String} {s : State π σ}
  {e : Event π} {es : List (Event π)} {now before : Time} {place : Uuid → ℕ} {db : Db π σ}
  {r : RequestItem π} {row : BreachedRow} {rows : List BreachedRow} {i : ℕ}

theorem Swept.unmarked_iff (h : Swept now s) (hr : r ∈ s.engine.db.requestItems.rows)
    (hopen : r.status.Open) {d : Time} (hd : d ∈ r.slaDeadline) :
    r.slaBreachedAt = none ↔ now < d := by
  constructor
  · intro hnone
    exact Nat.lt_of_not_le fun hle => h.marked r hr hopen d hd hle hnone
  · intro hlt
    by_contra hne
    exact absurd (h.past r hr hne d hd) (Nat.not_le.2 hlt)

theorem not_resolved_of_open (h : r.status.Open) : ¬ r.Resolved := by
  rintro (hr | hr) <;> simp [hr] at h

/-- A tick selects open requests without a mark whose deadline has passed. -/
theorem breachedRow_eq_some_iff : breachedRow now r = some row ↔
    (r.status.Open ∧ r.slaBreachedAt = none) ∧
      ∃ d ∈ r.slaDeadline, d ≤ now ∧ (⟨r.id, r.type, r.requesterId, d⟩ : BreachedRow) = row := by
  simp only [breachedRow]
  split
  · rename_i hopen
    simp only [Option.map_eq_some_iff, Option.filter_eq_some_iff, decide_eq_true_eq, hopen,
      true_and, and_assoc, Option.mem_def]
  · rename_i hopen
    exact iff_of_false (Option.some_ne_none row).symm fun h => hopen h.1

theorem selected_of_mem (h : row ∈ findBreached now place db) :
    ∃ r, db.requestItems.find row.id = some r ∧ r.status.Open ∧ ∀ d ∈ r.slaDeadline, d ≤ now := by
  have hmem := (List.mem_insertionSort _).1 (List.mem_of_mem_take h)
  obtain ⟨r, hr, hrow⟩ := List.mem_filterMap.1 hmem
  obtain ⟨⟨hopen, -⟩, d, hd, hle, rfl⟩ := breachedRow_eq_some_iff.1 hrow
  refine ⟨r, Table.find_of_mem hr, hopen, fun d' hd' => ?_⟩
  rw [← Option.some.inj (hd.symm.trans hd')]
  exact hle

/-- A tick with few rows to select leaves none out. -/
theorem exists_selected (hfew : (db.requestItems.rows.filterMap (breachedRow now)).length ≤ 100)
    (hr : r ∈ db.requestItems.rows) (hopen : r.status.Open) (hunmarked : r.slaBreachedAt = none)
    {d : Time} (hd : d ∈ r.slaDeadline) (hle : d ≤ now) :
    ∃ row ∈ findBreached now place db, row.id = r.id := by
  refine ⟨⟨r.id, r.type, r.requesterId, d⟩, ?_, rfl⟩
  rw [findBreached, List.take_of_length_le (by rwa [List.length_insertionSort])]
  refine (List.mem_insertionSort _).2 (List.mem_filterMap.2 ⟨r, hr, ?_⟩)
  exact breachedRow_eq_some_iff.2 ⟨⟨hopen, hunmarked⟩, d, hd, hle, rfl⟩

/-- The next mark of a tick. -/
theorem step_mark (htick : s.ticks[i]? = some ⟨now, row :: rows⟩) :
    (step registry toISOString s (.mark i true)).engine.db.requestItems =
        s.engine.db.requestItems.update row.id (fun r => { r with slaBreachedAt := some now })
          (fun _ => rfl) ∧
      (step registry toISOString s (.mark i true)).ticks[i]? = some ⟨now, rows⟩ := by
  simp only [step, htick]
  refine ⟨by simp [SlaBreachCron.mark], ?_⟩
  exact List.getElem?_set_self (List.getElem?_eq_some_iff.1 htick).1

/-- The requests after all marks of a tick. -/
theorem find_marks (htick : s.ticks[i]? = some ⟨now, rows⟩) (id : Uuid) :
    (run (step registry toISOString) s
        (List.replicate rows.length (.mark i true))).engine.db.requestItems.find id =
      (s.engine.db.requestItems.find id).map fun r =>
        if id ∈ rows.map BreachedRow.id then { r with slaBreachedAt := some now } else r := by
  induction rows generalizing s with
  | nil =>
    simp
  | cons row rows ih =>
    obtain ⟨hitems, hnext⟩ := @step_mark _ _ registry toISOString s now row rows i htick
    rw [List.length_cons, List.replicate_succ, run_cons, ih hnext, hitems]
    by_cases hid : id = row.id
    · subst hid
      rw [Table.find_update_self, Option.map_map]
      congr 1
      funext r
      simp only [Function.comp_apply, List.map_cons, List.mem_cons, true_or, if_true]
      split <;> rfl
    · rw [Table.find_update_ne _ hid]
      simp only [List.map_cons, List.mem_cons, hid, false_or]

/-- Marks of open requests are timely. -/
theorem timely_marks (htick : s.ticks[i]? = some ⟨now, rows⟩)
    (hopen : ∀ row ∈ rows, ∀ r ∈ s.engine.db.requestItems.find row.id, r.status.Open) :
    Meets (step registry toISOString) (Timely registry) s
      (List.replicate rows.length (.mark i true)) := by
  induction rows generalizing s with
  | nil => trivial
  | cons row rows ih =>
    obtain ⟨hitems, hnext⟩ := @step_mark _ _ registry toISOString s now row rows i htick
    refine ⟨⟨nofun, fun id hid r hr hresolved => absurd hresolved ?_⟩,
      ih hnext fun row' hrow' r' hr' => ?_⟩
    · simp only [State.marking, htick, Option.bind_some, List.head?_cons, Option.map_some,
        Option.mem_some_iff] at hid
      subst hid
      exact not_resolved_of_open (hopen row List.mem_cons_self r hr)
    · rw [hitems] at hr'
      by_cases hid : row'.id = row.id
      · rw [hid, Table.find_update_self] at hr'
        obtain ⟨r, hr, rfl⟩ := Option.map_eq_some_iff.1 hr'
        exact hopen row List.mem_cons_self r hr
      · rw [Table.find_update_ne _ hid] at hr'
        exact hopen row' (List.mem_cons_of_mem _ hrow') r' hr'

/-- The tick that a sweep begins with. -/
theorem ticks_tick : (step registry toISOString s (.tick now place)).ticks[s.ticks.length]? =
    some ⟨now, findBreached now place s.engine.db⟩ := by
  simp [step]

/-- **A sweep is timely.** -/
theorem timely_sweep : Meets (step registry toISOString) (Timely registry) s (sweep s now place) := by
  refine ⟨⟨nofun, nofun⟩, timely_marks ticks_tick fun row hrow r hr => ?_⟩
  obtain ⟨r', hr', hopen, -⟩ := selected_of_mem hrow
  rw [← Option.some.inj (hr'.symm.trans hr)]
  exact hopen

/-- **After a sweep** the open requests with a mark are those whose deadline has passed. -/
theorem swept_sweep (hs : Swept before s) (hle : before ≤ now)
    (hfew : (s.engine.db.requestItems.rows.filterMap (breachedRow now)).length ≤ 100) :
    Swept now (run (step registry toISOString) s (sweep s now place)) := by
  have hfind := @find_marks _ _ registry toISOString _ now _ _
    (@ticks_tick _ _ registry toISOString s now place)
  have hrow : ∀ r' ∈ (run (step registry toISOString) s
      (sweep s now place)).engine.db.requestItems.rows, ∃ r ∈ s.engine.db.requestItems.rows,
      r.id = r'.id ∧ r' = if r'.id ∈ (findBreached now place s.engine.db).map BreachedRow.id then
        { r with slaBreachedAt := some now } else r := by
    intro r' hr'
    obtain ⟨r, hr, heq⟩ := Option.map_eq_some_iff.1 ((hfind r'.id).symm.trans (Table.find_of_mem hr'))
    exact ⟨r, Table.mem_of_find hr, Table.key_of_find hr, heq.symm⟩
  constructor
  · intro r' hr' hmark d hd
    obtain ⟨r, hr, hid, heq⟩ := hrow r' hr'
    split at heq
    · rename_i hselected
      subst heq
      obtain ⟨row, hmem, hrowid⟩ := List.mem_map.1 hselected
      obtain ⟨r₀, hr₀, -, hdeadline⟩ := selected_of_mem hmem
      rw [hrowid, ← hid, Table.find_of_mem hr] at hr₀
      obtain rfl := Option.some.inj hr₀
      exact hdeadline d hd
    · subst heq
      exact Nat.le_trans (hs.past _ hr hmark d hd) hle
  · intro r' hr' hopen d hd hdle
    obtain ⟨r, hr, hid, heq⟩ := hrow r' hr'
    split at heq
    · rw [heq]
      exact Option.some_ne_none now
    · rename_i hselected
      subst heq
      intro hunmarked
      obtain ⟨row, hmem, hrowid⟩ := exists_selected hfew hr hopen hunmarked hd hdle
      exact hselected (List.mem_map.2 ⟨row, hmem, hrowid⟩)

end Sweeps

/-! ### Calls between sweeps -/

/-- The instant of a submission. -/
def submittedAt : Concurrent.Event π → Option Time
  | .submit _ _ _ _ now _ _ => some now
  | _ => none

/-- The condition on the calls after a sweep at `now`: submissions come later, calls commit on open
requests, and no deadline lies between the sweep and a decision. -/
def Prompt (registry : RequestRegistry π σ) (now : Time) (s : State π σ) : Event π → Prop
  | .engine e =>
    (∀ t ∈ submittedAt e, now ≤ t) ∧ Concurrent.CommitsOnOpen s.engine e ∧
      ∀ x ∈ s.deciding registry (.engine e), ∀ r ∈ s.engine.db.requestItems.find x.1,
        ∀ d ∈ r.slaDeadline, (now < d ↔ x.2 ≤ d)
  | .tick _ _ => False
  | .mark _ _ => False

instance (registry : RequestRegistry π σ) (now : Time) (s : State π σ) :
    (e : Event π) → Decidable (Prompt registry now s e)
  | .engine e => inferInstanceAs (Decidable ((∀ t ∈ submittedAt e, now ≤ t) ∧ _ ∧
      ∀ x ∈ s.deciding registry (.engine e), _))
  | .tick _ _ => isFalse id
  | .mark _ _ => isFalse id

section Calls

variable {registry : RequestRegistry π σ} {toISOString : Time → String} {s : State π σ}
  {e : Concurrent.Event π} {es : List (Event π)} {now : Time} {request : RequestItem π}
  {t : Transition π σ}

/-- Transitions leave deadlines and marks as they are. -/
theorem sla_of_transition (h : TransitionOf registry request t) (r : RequestItem π) :
    (t.update r).slaDeadline = r.slaDeadline ∧ (t.update r).slaBreachedAt = r.slaBreachedAt := by
  cases h <;> exact ⟨rfl, rfl⟩

/-- The deadline of a new request lies after its submission. -/
theorem lt_slaDeadline {typeDef : RequestTypeDef π σ} {type : String} {payload : π} {actor : Actor}
    {opts : SubmitRequestOptions} {newId : Uuid} {d : Time}
    (hd : d ∈ (submittedItem typeDef type payload actor opts now newId).slaDeadline) : now < d := by
  obtain ⟨hours, hfilter, rfl⟩ := Option.map_eq_some_iff.1 hd
  have hpos : hours ≠ 0 := of_decide_eq_true (Option.filter_eq_some_iff.1 hfilter).2
  exact Nat.lt_add_of_pos_right (Nat.mul_pos (Nat.pos_of_ne_zero hpos) (by decide))

/-- A decision is about the copy of the call that commits. -/
theorem open_of_deciding (hopen : Concurrent.CommitsOnOpen s.engine e) {x : Uuid × Time}
    (hx : x ∈ s.deciding registry (.engine e)) :
    ∀ r ∈ s.engine.db.requestItems.find x.1, r.status.Open := by
  cases e with
  | commit i now env =>
    simp only [State.deciding] at hx
    split at hx
    · rename_i operation request delegation view hcall
      split at hx
      · split at hx
        · obtain rfl := Option.some.inj hx
          exact hopen i rfl request (by rw [Concurrent.State.checkedCopy, hcall]; rfl)
        · cases hx
      · cases hx
    · cases hx
  | _ => cases hx

/-- **A prompt call is timely.** -/
theorem Swept.timely (hs : Swept now s) (hprompt : Prompt registry now s (.engine e)) :
    Timely registry s (.engine e) := by
  obtain ⟨-, hopen, hdecision⟩ := hprompt
  refine ⟨fun x hx r hr d hd => ?_, nofun⟩
  rw [hs.unmarked_iff (Table.mem_of_find hr) (open_of_deciding hopen hx r hr) hd]
  exact hdecision x hx r hr d hd

/-- It leaves the marks as exact as they are. -/
theorem Swept.after_call (hs : Swept now s) (hprompt : Prompt registry now s (.engine e)) :
    Swept now (step registry toISOString s (.engine e)) := by
  obtain ⟨hsubmitted, hopen, -⟩ := hprompt
  rcases Concurrent.step_cases registry s.engine e with ⟨hdb, -⟩ |
    ⟨⟨_, _, _, _, at', _, _, row, rfl, hsub⟩, -⟩ | ⟨i, at', env, operation, request, _, _, rfl, hc⟩
  · have hrows : (step registry toISOString s (.engine e)).engine.db.requestItems.rows =
        s.engine.db.requestItems.rows := congrArg (fun db => db.requestItems.rows) hdb
    constructor
    · rw [hrows]
      exact hs.past
    · rw [hrows]
      exact hs.marked
  · -- a new request has no mark, and its deadline is still to come
    obtain ⟨typeDef, -, rfl⟩ := hsub.row_eq
    constructor
    · exact Table.forall_mem_insert hsub.requestItems hs.past fun hmark => absurd rfl hmark
    · refine Table.forall_mem_insert hsub.requestItems hs.marked fun _ d hd hle => ?_
      exact absurd (Nat.le_trans hle (hsubmitted at' rfl)) (Nat.not_le.2 (lt_slaDeadline hd))
  · obtain ⟨row, htx⟩ := hc.tx
    obtain ⟨t, ht, htc⟩ := operation.tx_decided htx
    have hitems : (step registry toISOString s
        (.engine (.commit i at' env))).engine.db.requestItems =
        s.engine.db.requestItems.update t.requestId t.update t.update_id := htc.requestItems
    constructor
    · rw [hitems]
      refine (Table.forall_mem_update_iff hs.past).2 fun r hr => ?_
      rw [(sla_of_transition ht r).1, (sla_of_transition ht r).2]
      exact hs.past r (Table.mem_of_find hr)
    · rw [hitems]
      refine (Table.forall_mem_update_iff hs.marked).2 fun r hr _ => ?_
      rw [(sla_of_transition ht r).1, (sla_of_transition ht r).2]
      rw [ht.requestId_eq] at hr
      exact hs.marked r (Table.mem_of_find hr) (hopen.of_commit hc r hr)

/-- Prompt calls after a sweep. -/
theorem Swept.after_calls (hs : Swept now s) (hprompt : Meets (step registry toISOString)
    (Prompt registry now) s es) : Meets (step registry toISOString) (Timely registry) s es ∧
      Swept now (run (step registry toISOString) s es) := by
  have hstep : ∀ s e, Swept now s → Prompt registry now s e →
      Timely registry s e ∧ Swept now (step registry toISOString s e) := by
    intro s e hs hprompt
    cases e with
    | engine e => exact ⟨hs.timely hprompt, hs.after_call hprompt⟩
    | tick now place => exact hprompt.elim
    | mark i ok => exact hprompt.elim
  exact ⟨meets_of_kept hstep hs hprompt,
    run_induction (fun s e hs he => (hstep s e hs he).2) hs hprompt⟩

end Calls

/-! ### Rounds -/

/-- Runs of prompt calls and of sweeps that come later and later and have at most a hundred
requests to mark. -/
inductive Rounds (registry : RequestRegistry π σ) (toISOString : Time → String) :
    Time → State π σ → List (Event π) → Prop
  | calls {now : Time} {s : State π σ} {es : List (Event π)}
      (hes : Meets (step registry toISOString) (Prompt registry now) s es) :
      Rounds registry toISOString now s es
  | sweep {before now : Time} {place : Uuid → ℕ} {s s' : State π σ} {es fs : List (Event π)}
      (hes : Meets (step registry toISOString) (Prompt registry before) s es)
      (hs' : s' = run (step registry toISOString) s es) (hle : before ≤ now)
      (hfew : (s'.engine.db.requestItems.rows.filterMap (breachedRow now)).length ≤ 100)
      (hfs : Rounds registry toISOString now
        (run (step registry toISOString) s' (sweep s' now place)) fs) :
      Rounds registry toISOString before s (es ++ (sweep s' now place ++ fs))

/-- **Rounds are timely.** -/
theorem timely_of_rounds {registry : RequestRegistry π σ} {toISOString : Time → String}
    {now : Time} {s : State π σ} {es : List (Event π)} (h : Rounds registry toISOString now s es)
    (hs : Swept now s) : Meets (step registry toISOString) (Timely registry) s es := by
  induction h with
  | calls hes => exact (hs.after_calls hes).1
  | sweep hes hs' hle hfew _ ih =>
    obtain ⟨htimely, hswept⟩ := hs.after_calls hes
    rw [← hs'] at hswept
    refine meets_append.2 ⟨htimely, ?_⟩
    rw [← hs']
    exact meets_append.2 ⟨timely_sweep, ih (swept_sweep hswept hle hfew)⟩

/-- There is nothing to mark before the first request. -/
theorem swept_initial (subscriptions : List WebhookSubscription) (tables : TxTables σ) :
    Swept 0 (State.initial subscriptions tables : State π σ) :=
  ⟨fun _ hr => absurd hr List.not_mem_nil, fun _ hr => absurd hr List.not_mem_nil⟩

namespace Sample

/-- A request, a sweep after its deadline, and the approval. -/
example : Rounds registry toString 0 (State.initial [] ⟨[], ()⟩)
    (submission ++ (sweep (after submission) 3700000 id ++ approval 3900000)) :=
  .sweep (by decide +kernel) rfl (by decide) (by decide +kernel) (.calls (by decide +kernel))

end Sample

end SlaBreach

end OpsHub
