import Mathlib.Data.List.Infix
import Mathlib.Data.Multiset.AddSub
import OpsHub.Lib.Outcome
import OpsHub.Lib.Runs
import OpsHub.Lib.Table
import OpsHub.Platform.Errors
import OpsHub.Requests.Types

/-!
# The replacement of the baseline checks

`GraphSecureScoreService.syncBaselineChecks` fetches the control profiles, deletes all rows of
`baseline_checks`, and inserts the new ones, each with a statement of its own.

* `mapControlStatus`, `mapControlCategory`, `check`: the row of a control;
* `BaselineState`, `step`: calls that overlap, statement by statement;
* `Complete`: the initial contents of the table, or what one call has fetched;
* `always_complete_iff`: every reader sees complete contents exactly if a deletion comes only when
  the empty set is complete, and an insertion finds the table empty.
-/

namespace OpsHub

/-- The values of `GraphSecureScoreControl.implementationStatus`. -/
inductive ImplementationStatus
  | implemented
  | notImplemented
  | planned
  | ignored
  | unknown
  deriving DecidableEq, Repr

/-- The columns of `GraphSecureScoreControl` that are read. -/
structure GraphSecureScoreControl (ν : Type) where
  title : String
  category : Option String
  implementationStatus : Option ImplementationStatus
  controlScore : ν
  maxScore : ν

/-- The values of `baseline_checks.status`. -/
inductive CheckStatus
  | pass
  | fail
  | warning
  | notApplicable
  deriving DecidableEq, Repr

/-- The values of `baseline_checks.category`. -/
inductive CheckCategory
  | asr
  | firewall
  | encryption
  | endpoint
  | identity
  | other
  deriving DecidableEq, Repr

/-- What a row of `baseline_checks` says. -/
structure BaselineCheck where
  category : CheckCategory
  checkName : String
  status : CheckStatus
  expectedValue : String
  actualValue : String
  details : Option String
  checkedAt : Time
  deriving DecidableEq, Repr

/-- The check fits its columns. -/
def BaselineCheck.Fits (c : BaselineCheck) : Prop :=
  c.checkName.length ≤ 300 ∧ c.expectedValue.length ≤ 200 ∧ c.actualValue.length ≤ 200

instance : DecidablePred BaselineCheck.Fits := fun c =>
  inferInstanceAs (Decidable (c.checkName.length ≤ 300 ∧ c.expectedValue.length ≤ 200 ∧
    c.actualValue.length ≤ 200))

/-- A row of `baseline_checks`. -/
structure BaselineCheckRow where
  id : Uuid
  check : BaselineCheck
  deriving DecidableEq, Repr

/-- `baseline_checks`. -/
abbrev BaselineTable := Table BaselineCheckRow.id

/-- The checks in the table. -/
def BaselineTable.contents (t : BaselineTable) : Multiset BaselineCheck :=
  t.rows.map BaselineCheckRow.check

/-- The ids that an insertion draws on; they are new. -/
structure RowIds where
  newId : BaselineTable → ℕ → Uuid
  injective : ∀ t, Function.Injective (newId t)
  fresh : ∀ (t : BaselineTable) i, t.find (newId t i) = none

namespace GraphSecureScoreService

/-- `mapControlStatus`. -/
def mapControlStatus : Option ImplementationStatus → CheckStatus
  | some .implemented => .pass
  | some .notImplemented => .fail
  | some .planned => .warning
  | some .ignored => .warning
  | _ => .notApplicable

section Check

variable {ν : Type} (toLowerCase : String → String) (text : ν → String)

/-- `mapControlCategory`. -/
def mapControlCategory (category : Option String) : CheckCategory :=
  let lower := (category.map toLowerCase).getD ""
  let includes := fun part : String => decide (part.toList <:+: lower.toList)
  if includes "asr" || includes "attack" then .asr
  else if includes "firewall" || includes "network" then .firewall
  else if includes "encrypt" then .encryption
  else if includes "device" || includes "endpoint" then .endpoint
  else if includes "identity" || includes "account" then .identity
  else .other

/-- What the row of a control says; `text` is `String(number)`. -/
def check (now : Time) (c : GraphSecureScoreControl ν) : BaselineCheck where
  category := mapControlCategory toLowerCase c.category
  checkName := c.title
  status := mapControlStatus c.implementationStatus
  expectedValue := text c.maxScore
  actualValue := text c.controlScore
  details := c.category
  checkedAt := now

end Check

/-- The insertion of all checks with one statement. -/
def insertChecks (t : BaselineTable) (checks : List BaselineCheck) (ids : RowIds) :
    Except Failure BaselineTable :=
  if ∀ c ∈ checks, c.Fits then
    Outcome.orThrow (.duplicateKey "baseline_checks")
      (t.insertAll (checks.zipIdx.map fun (c, i) => ⟨ids.newId t i, c⟩))
  else .error (.error "value too long for type character varying")

end GraphSecureScoreService

/-- Where a call is: the table is not deleted yet, or its rows are to be inserted, or it is
over. -/
inductive BaselinePhase
  | fetched
  | deleted
  | finished
  deriving DecidableEq, Repr

/-- A call of `syncBaselineChecks`, and the checks that it has fetched. -/
structure BaselineSync where
  checks : List BaselineCheck
  phase : BaselinePhase := .fetched
  deriving DecidableEq, Repr

/-- The table, the calls, and what they have returned. -/
structure BaselineState where
  table : BaselineTable
  syncs : List BaselineSync := []
  results : List (Except Failure ℕ) := []

/-- The next statement of a call, or its failure. -/
inductive BaselineEvent (ν : Type)
  | fetch (value : Option (List (GraphSecureScoreControl ν))) (now : Time)
  | delete (i : ℕ)
  | insert (i : ℕ) (ids : RowIds)
  /-- The connection is lost; the next statement of the call is not carried out. -/
  | fail (i : ℕ)

namespace BaselineState

open GraphSecureScoreService

variable {ν : Type} (toLowerCase : String → String) (text : ν → String)

/-- The `i`-th call gets to a phase. -/
def advance (s : BaselineState) (i : ℕ) (phase : BaselinePhase) : List BaselineSync :=
  s.syncs.modify i fun sync => { sync with phase := phase }

/-- The `i`-th call, if it is in this phase. -/
def inPhase (s : BaselineState) (i : ℕ) (phase : BaselinePhase) : Option BaselineSync :=
  s.syncs[i]?.filter fun sync => decide (sync.phase = phase)

/-- The state after an event. -/
def step (s : BaselineState) : BaselineEvent ν → BaselineState
  | .fetch value now =>
    { s with syncs := s.syncs ++ [⟨(value.getD []).map (check toLowerCase text now), .fetched⟩] }
  | .delete i =>
    match s.inPhase i .fetched with
    | none => s
    | some _ => { s with table := Table.empty _, syncs := s.advance i .deleted }
  | .insert i ids =>
    match s.inPhase i .deleted with
    | none => s
    | some sync =>
      { table := Outcome.commit s.table (insertChecks s.table sync.checks ids)
        syncs := s.advance i .finished
        results := s.results ++
          [(insertChecks s.table sync.checks ids).map fun _ => sync.checks.length] }
  | .fail i =>
    if s.syncs[i]?.any fun sync => decide (sync.phase ≠ .finished) then
      { s with
        syncs := s.advance i .finished
        results := s.results ++ [.error (.error "Connection terminated unexpectedly")] }
    else s

/-! ### The property -/

/-- What the calls have fetched. -/
def fetched (s : BaselineState) : List (Multiset BaselineCheck) :=
  s.syncs.map fun sync => (sync.checks : Multiset BaselineCheck)

/-- These are the initial contents, or the complete set of one call. -/
def Complete (initial : BaselineTable) (s : BaselineState) (contents : Multiset BaselineCheck) :
    Prop :=
  contents = initial.contents ∨ contents ∈ s.fetched

instance (initial : BaselineTable) (s : BaselineState) (contents : Multiset BaselineCheck) :
    Decidable (Complete initial s contents) :=
  inferInstanceAs (Decidable (contents = initial.contents ∨ contents ∈ s.fetched))

/-- A deletion comes when the empty set is complete; an insertion that is not refused finds the
table empty, or what it finds makes a complete set together with what it adds. -/
def Replaces (initial : BaselineTable) (s : BaselineState) : BaselineEvent ν → Prop
  | .delete i => s.inPhase i .fetched ≠ none → Complete initial s 0
  | .insert i _ => ∀ sync ∈ s.inPhase i .deleted, (∀ c ∈ sync.checks, c.Fits) →
      s.table.contents = 0 ∨ Complete initial s (s.table.contents + sync.checks)
  | _ => True

/-! ### Statements -/

variable {toLowerCase text} {s : BaselineState} {e : BaselineEvent ν} {i : ℕ}
  {initial t : BaselineTable} {checks : List BaselineCheck} {ids : RowIds}
  {contents : Multiset BaselineCheck}

/-- A phase is not a set of checks. -/
theorem fetched_advance (s : BaselineState) (i : ℕ) (phase : BaselinePhase) :
    (s.advance i phase).map (fun sync => (sync.checks : Multiset BaselineCheck)) = s.fetched := by
  unfold advance fetched
  induction s.syncs generalizing i with
  | nil => rw [List.modify_nil]
  | cons sync syncs ih =>
    cases i with
    | zero => rfl
    | succ i => rw [List.modify_succ_cons, List.map_cons, List.map_cons, ih]

/-- What a call has fetched is complete. -/
theorem complete_of_inPhase {phase : BaselinePhase} {sync : BaselineSync}
    (h : s.inPhase i phase = some sync) : Complete initial s sync.checks :=
  Or.inr (List.mem_map.2 ⟨sync, List.mem_of_getElem? (Option.filter_eq_some_iff.1 h).1, rfl⟩)

/-- **The insertion** adds all checks if they fit, and none otherwise. -/
theorem insertChecks_cases : (∀ c ∈ checks, c.Fits) ∧
      (Outcome.commit t (insertChecks t checks ids)).contents = t.contents + checks ∨
    ¬ (∀ c ∈ checks, c.Fits) ∧ Outcome.commit t (insertChecks t checks ids) = t := by
  by_cases hfits : ∀ c ∈ checks, c.Fits
  · refine Or.inl ⟨hfits, ?_⟩
    have hids : (checks.zipIdx.map fun (c, i) => (⟨ids.newId t i, c⟩ : BaselineCheckRow)).map
        BaselineCheckRow.id = checks.zipIdx.map (ids.newId t ∘ Prod.snd) := by
      rw [List.map_map]
      rfl
    have hnodup : ((checks.zipIdx.map fun (c, i) => (⟨ids.newId t i, c⟩ : BaselineCheckRow)).map
        BaselineCheckRow.id).Nodup := by
      have hnumbers : (checks.zipIdx.map Prod.snd).Nodup := by
        rw [List.zipIdx_map_snd]
        exact List.nodup_range'
      rw [hids, ← List.map_map]
      exact hnumbers.map (ids.injective t)
    have hfree : ∀ r ∈ checks.zipIdx.map fun (c, i) => (⟨ids.newId t i, c⟩ : BaselineCheckRow),
        t.find r.id = none := by
      intro r hr
      obtain ⟨p, -, rfl⟩ := List.mem_map.1 hr
      exact ids.fresh t p.2
    obtain ⟨t', ht'⟩ := Table.exists_insertAll hfree hnodup
    have hchecks : (checks.zipIdx.map fun (c, i) => (⟨ids.newId t i, c⟩ : BaselineCheckRow)).map
        BaselineCheckRow.check = checks := by
      rw [List.map_map]
      exact List.zipIdx_map_fst 0 checks
    rw [insertChecks, if_pos hfits, ht']
    show BaselineTable.contents t' = _
    rw [BaselineTable.contents, Table.rows_insertAll ht', List.map_append, hchecks,
      ← Multiset.coe_add]
    rfl
  · exact Or.inr ⟨hfits, by rw [insertChecks, if_neg hfits]; rfl⟩

/-! ### Steps and runs -/

/-- A phase does not matter for what is complete. -/
theorem complete_advance {s' : BaselineState} {phase : BaselinePhase}
    (h : s'.syncs = s.advance i phase) :
    Complete initial s' contents ↔ Complete initial s contents := by
  have hfetched : s'.fetched = s.fetched := by
    rw [fetched, h]
    exact fetched_advance s i phase
  rw [Complete, Complete, hfetched]

/-- **Every step.** -/
theorem complete_step_iff (h : Complete initial s s.table.contents) :
    Complete initial (s.step toLowerCase text e) (s.step toLowerCase text e).table.contents ↔
      Replaces initial s e := by
  cases e with
  | fetch value now =>
    refine iff_of_true (h.imp_right fun hmem => ?_) trivial
    show _ ∈ List.map _ (s.syncs ++ _)
    rw [List.map_append]
    exact List.mem_append_left _ hmem
  | delete i =>
    simp only [step, Replaces]
    cases s.inPhase i .fetched with
    | none => simpa using h
    | some sync =>
      refine (complete_advance rfl).trans ?_
      exact ⟨fun hempty _ => hempty, fun hempty => hempty (Option.some_ne_none sync)⟩
  | insert i ids =>
    simp only [step, Replaces]
    cases hsync : s.inPhase i .deleted with
    | none => simpa using h
    | some sync =>
      refine (complete_advance rfl).trans ?_
      show Complete initial s (Outcome.commit s.table _).contents ↔ _
      rcases @insertChecks_cases s.table sync.checks ids with
        ⟨hfits, hcontents⟩ | ⟨hrefused, hcontents⟩
      · rw [hcontents]
        constructor
        · intro hcomplete sync' hsync' _
          obtain rfl := Option.some.inj hsync'
          exact Or.inr hcomplete
        · intro hreplaces
          rcases hreplaces sync rfl hfits with hempty | hcomplete
          · rw [hempty, Multiset.zero_add]
            exact complete_of_inPhase hsync
          · exact hcomplete
      · rw [hcontents]
        refine iff_of_true h fun sync' hsync' hfits => ?_
        obtain rfl := Option.some.inj hsync'
        exact absurd hfits hrefused
  | fail i =>
    refine iff_of_true ?_ trivial
    simp only [step]
    split
    · exact (complete_advance rfl).2 h
    · exact h

/-- **Every reader sees complete contents**, at every point of a run of overlapping calls, exactly
if a deletion comes only when the empty set is complete, and an insertion finds the table empty,
or rows that make a complete set together with its own. -/
theorem always_complete_iff (toLowerCase : String → String) (text : ν → String)
    (initial : BaselineTable) (es : List (BaselineEvent ν)) :
    (∀ fs, fs <+: es → Complete initial (Runs.run (step toLowerCase text) { table := initial } fs)
      (Runs.run (step toLowerCase text) { table := initial } fs).table.contents) ↔
      Runs.Meets (step toLowerCase text) (Replaces initial) { table := initial } es :=
  @Runs.always_iff_meets _ _ _ _ (fun s : BaselineState => Complete initial s s.table.contents)
    (fun _ _ h => complete_step_iff h) { table := initial } es (Or.inl rfl)

namespace Torn

/-- A control. -/
def control (title : String) (score : ℕ) : GraphSecureScoreControl ℕ where
  title := title
  category := some "Device"
  implementationStatus := some .implemented
  controlScore := score
  maxScore := 10

/-- The check of a control. -/
def stored (title : String) (score : ℕ) : BaselineCheck :=
  check String.toLower (fun n => toString n) 0 (control title score)

/-- The table holds one check. -/
def before : BaselineTable where
  rows := [⟨0, stored "BitLocker" 10⟩]
  nodup := List.nodup_singleton _

/-- A number above the ids of the rows. -/
def idAbove (rows : List BaselineCheckRow) : ℕ := rows.foldr (fun r n => r.id + n + 1) 0

theorem lt_idAbove {rows : List BaselineCheckRow} : ∀ r ∈ rows, r.id < idAbove rows :=
  Table.lt_foldr BaselineCheckRow.id rows

/-- Ids that count up. -/
def counting : RowIds where
  newId t i := idAbove t.rows + i
  injective _ _ _ h := Nat.add_left_cancel h
  fresh _ i := Table.find_eq_none_iff.2 fun r hr =>
    ((lt_idAbove r hr).trans_le (Nat.le_add_right _ i)).ne

/-- What a reader sees after some events. -/
def after (es : List (BaselineEvent ℕ)) : BaselineState :=
  Runs.run (step String.toLower fun n => toString n) { table := before } es

/-- A call between its two statements, or ended by a failure there. -/
def half : List (BaselineEvent ℕ) := [.fetch (some [control "BitLocker" 8]) 1, .delete 0, .fail 0]

/-- Two calls whose deletions come before both insertions. -/
def overlap : List (BaselineEvent ℕ) :=
  [.fetch (some [control "BitLocker" 8]) 1, .fetch (some [control "BitLocker" 9]) 2,
    .delete 0, .delete 1, .insert 0 counting, .insert 1 counting]

/-- In the middle of a call, and after a failure there, the table is empty; after two calls that
overlap, it holds the rows of both. -/
theorem not_always_complete :
    ¬ Complete before (after (half.take 2)) (after (half.take 2)).table.contents ∧
      ¬ Complete before (after half) (after half).table.contents ∧
      ¬ Complete before (after overlap) (after overlap).table.contents := by
  decide +kernel

end Torn

end BaselineState

end OpsHub
