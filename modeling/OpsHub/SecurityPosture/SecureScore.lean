import OpsHub.Domain.Tables
import OpsHub.Lib.Oldest
import OpsHub.Lib.OnConflict
import OpsHub.Lib.Outcome
import OpsHub.Lib.Runs

/-!
# The history of the secure score

`GraphSecureScoreService.syncSecureScore` inserts a snapshot with `ON CONFLICT DO NOTHING`;
the only unique index of the table is its primary key, and every row gets a new id.
`getScoreHistory` takes the first `days` snapshots, in the order of their dates, of those from
`days` days ago on.

* `insertSnapshot_eq`: the clause never applies;
* `ScoreState`, `step`: calls that overlap, each a fetch and an insertion;
* `onePerDate_iff`: a date has one snapshot at most in exactly the runs whose insertions come with
  a new date;
* `inWindow_iff_recent`: the window is today and the `days` days before it;
* `showsLatest_iff`: the history ends before the latest snapshot if there are `days` older ones;
* `history_iff`: both together.
-/

namespace OpsHub

/-- The numbers that Graph returns, and the texts that the columns make of them. -/
structure ScoreNumbers where
  Number : Type
  /-- `maxScore > 0 ? (currentScore / maxScore) * 100 : 0`. -/
  percentage : Number → Number → Number
  /-- `String(number)` as a `numeric(8, 2)`, unless it is too large. -/
  score : Number → Option String
  /-- `number.toFixed(2)` as a `numeric(5, 2)`, unless it is too large. -/
  percentageScore : Number → Option String

/-- The columns of `GraphSecureScore` that are read. -/
structure GraphSecureScore (numbers : ScoreNumbers) where
  createdDateTime : Time
  currentScore : numbers.Number
  maxScore : numbers.Number

/-- A row of `secure_score_snapshots`. -/
structure SnapshotRow where
  id : Uuid
  score : String
  maxScore : String
  percentageScore : String
  scoreDate : Date
  createdAt : Time
  deriving DecidableEq, Repr

/-- The ids and the clock that a sync draws on; ids are new. -/
structure SnapshotEnvironment where
  newId : List SnapshotRow → Uuid
  fresh : ∀ rows, ∀ r ∈ rows, r.id ≠ newId rows
  now : List SnapshotRow → Time

namespace GraphSecureScoreService

/-- `toISOString().split('T')[0]`. -/
def isoDate (t : Time) : Date := t / 86400000

/-- The unique indexes of the table. -/
def indexes : List (UniqueIndex SnapshotRow Uuid) := [⟨["id"], none, fun r => some r.id⟩]

/-- `res.value?.[0]`. -/
def latest {numbers : ScoreNumbers} (value : Option (List (GraphSecureScore numbers))) :
    Option (GraphSecureScore numbers) :=
  value.bind List.head?

variable {numbers : ScoreNumbers}

/-- The date of a score. -/
def scoreDate (latest : GraphSecureScore numbers) : Date := isoDate latest.createdDateTime

/-- The row of a score, unless a number is too large. -/
def snapshotRow (latest : GraphSecureScore numbers) (newId : Uuid) (now : Time) :
    Option SnapshotRow := do
  let score ← numbers.score latest.currentScore
  let maxScore ← numbers.score latest.maxScore
  let percentageScore ←
    numbers.percentageScore (numbers.percentage latest.currentScore latest.maxScore)
  pure ⟨newId, score, maxScore, percentageScore, scoreDate latest, now⟩

/-- The insertion. -/
def insertSnapshot (rows : List SnapshotRow) (latest : GraphSecureScore numbers)
    (env : SnapshotEnvironment) : Except Failure (List SnapshotRow) :=
  match snapshotRow latest (env.newId rows) (env.now rows) with
  | none => .error (.error "numeric field overflow")
  | some row =>
    match UniqueIndex.insertDoNothing indexes none rows row with
    | .ok added => .ok (rows ++ added)
    | .error _ => .error (.duplicateKey "secure_score_snapshots")

/-- What `syncSecureScore` returns. -/
def syncResult (latest : GraphSecureScore numbers) :
    numbers.Number × numbers.Number × numbers.Number :=
  (latest.currentScore, latest.maxScore, numbers.percentage latest.currentScore latest.maxScore)

/-- The time zone of the process: what its clock shows at an instant, in milliseconds, and the
instant at which it shows something. -/
structure TimeZone where
  clock : Time → ℕ
  instant : ℕ → Time

/-- `setDate(getDate() - days)`: the clock shows the same time of a day that is `days` days back. -/
def TimeZone.daysAgo (zone : TimeZone) (now : Time) (days : ℕ) : Time :=
  zone.instant (zone.clock now - 86400000 * days)

/-- `getScoreHistory`; the rows are `read` in some order, and `daysAgo` is what `setDate` does, in
the time zone of the process `TimeZone.daysAgo`. -/
def getScoreHistory (daysAgo : Time → ℕ → Time) (days : ℕ) (now : Time)
    (read : List SnapshotRow) : List (Date × String) :=
  (Oldest.first SnapshotRow.scoreDate days
    (read.filter (fun r => decide (isoDate (daysAgo now days) ≤ r.scoreDate)))).map
      fun r => (r.scoreDate, r.percentageScore)

end GraphSecureScoreService

/-- The snapshots, the calls of `syncSecureScore` that have fetched a score, and the results. -/
structure ScoreState (numbers : ScoreNumbers) where
  snapshots : List SnapshotRow := []
  calls : List (Option (GraphSecureScore numbers)) := []
  results : List (Except Failure
    (Option (numbers.Number × numbers.Number × numbers.Number))) := []

/-- A call begins, or inserts what it has fetched. -/
inductive ScoreEvent (numbers : ScoreNumbers)
  | fetch (value : Option (List (GraphSecureScore numbers)))
  | insert (i : ℕ) (env : SnapshotEnvironment)

namespace ScoreState

open GraphSecureScoreService

variable {numbers : ScoreNumbers}

/-- The state after an event. -/
def step (s : ScoreState numbers) : ScoreEvent numbers → ScoreState numbers
  | .fetch value =>
    match latest value with
    | none => { s with results := s.results ++ [.ok none] }
    | some latest => { s with calls := s.calls ++ [some latest] }
  | .insert i env =>
    match s.calls[i]?.join with
    | none => s
    | some latest =>
      { snapshots := Outcome.commit s.snapshots (insertSnapshot s.snapshots latest env)
        calls := s.calls.set i none
        results := s.results ++
          [(insertSnapshot s.snapshots latest env).map fun _ => some (syncResult latest)] }

/-! ### The properties -/

/-- A date has one snapshot at most. -/
def OnePerDate (rows : List SnapshotRow) : Prop := (rows.map SnapshotRow.scoreDate).Nodup

instance : DecidablePred OnePerDate := fun rows =>
  inferInstanceAs (Decidable (rows.map SnapshotRow.scoreDate).Nodup)

/-- The date is today, or one of the `days` days before it. -/
def Recent (days : ℕ) (now : Time) (date : Date) : Prop := isoDate now ≤ date + days

/-- The snapshot is one of the window that is asked for. -/
def InWindow (daysAgo : Time → ℕ → Time) (days : ℕ) (now : Time) (r : SnapshotRow) : Prop :=
  isoDate (daysAgo now days) ≤ r.scoreDate

/-- The snapshot is the latest one of the window. -/
def Latest (daysAgo : Time → ℕ → Time) (days : ℕ) (now : Time) (rows : List SnapshotRow)
    (r : SnapshotRow) : Prop :=
  r ∈ rows ∧ InWindow daysAgo days now r ∧ ∀ r' ∈ rows, r'.scoreDate ≤ r.scoreDate

/-- The history consists of snapshots of the window, in the order of their dates, and has one
with the latest date. -/
def ShowsLatest (daysAgo : Time → ℕ → Time) (days : ℕ) (now : Time) (rows : List SnapshotRow) :
    Prop :=
  ∀ read, read.Perm rows →
    (∀ entry ∈ getScoreHistory daysAgo days now read, ∃ r ∈ rows,
      InWindow daysAgo days now r ∧ entry = (r.scoreDate, r.percentageScore)) ∧
    ((getScoreHistory daysAgo days now read).map Prod.fst).Pairwise (· ≤ ·) ∧
    ∀ r, Latest daysAgo days now rows r →
      r.scoreDate ∈ (getScoreHistory daysAgo days now read).map Prod.fst

/-- There are fewer than `days` snapshots in the window before the latest one. -/
def FewOlder (daysAgo : Time → ℕ → Time) (days : ℕ) (now : Time) (rows : List SnapshotRow) :
    Prop :=
  ∀ r, Latest daysAgo days now rows r →
    rows.countP (fun r' => decide (isoDate (daysAgo now days) ≤ r'.scoreDate) &&
      decide (r'.scoreDate < r.scoreDate)) < days

/-- An insertion that is not refused comes with a new date. -/
def NewDate (s : ScoreState numbers) : ScoreEvent numbers → Prop
  | .fetch _ => True
  | .insert i env => ∀ latest ∈ s.calls[i]?.join,
      ∀ row ∈ snapshotRow latest (env.newId s.snapshots) (env.now s.snapshots),
        ∀ r ∈ s.snapshots, r.scoreDate ≠ row.scoreDate

/-! ### One snapshot for a date -/

variable {rows : List SnapshotRow} {latest : GraphSecureScore numbers} {env : SnapshotEnvironment}
  {s : ScoreState numbers} {e : ScoreEvent numbers} {daysAgo : Time → ℕ → Time} {days : ℕ}
  {now : Time}

/-- **The clause never applies**: no row has the id of a new one. -/
theorem commit_insertSnapshot : Outcome.commit rows (insertSnapshot rows latest env) =
    rows ++ (snapshotRow latest (env.newId rows) (env.now rows)).toList := by
  rw [insertSnapshot]
  cases hrow : snapshotRow latest (env.newId rows) (env.now rows) with
  | none => exact (List.append_nil rows).symm
  | some row =>
    have hid : row.id = env.newId rows := by
      simp only [snapshotRow, Option.bind_eq_bind, Option.bind_eq_some_iff] at hrow
      obtain ⟨_, -, _, -, _, -, hrow⟩ := hrow
      obtain rfl := Option.some.inj hrow
      rfl
    have hnone : ¬ UniqueIndex.Conflicts indexes rows row := by
      rintro ⟨index, hindex, r, hr, -, hentry⟩
      obtain rfl := List.mem_singleton.1 hindex
      exact env.fresh rows r hr ((Option.some.inj hentry).trans hid)
    simp only [UniqueIndex.insertDoNothing_none, if_neg hnone]
    rfl

/-- What a step does to the snapshots. -/
theorem snapshots_step (s : ScoreState numbers) (e : ScoreEvent numbers) :
    (s.step e).snapshots = s.snapshots ++ match e with
      | .fetch _ => []
      | .insert i env => ((s.calls[i]?.join).bind fun latest =>
          snapshotRow latest (env.newId s.snapshots) (env.now s.snapshots)).toList := by
  cases e with
  | fetch value =>
    simp only [step]
    cases GraphSecureScoreService.latest value with
    | none => exact (List.append_nil _).symm
    | some latest => exact (List.append_nil _).symm
  | insert i env =>
    simp only [step]
    cases s.calls[i]?.join with
    | none => exact (List.append_nil _).symm
    | some latest => exact commit_insertSnapshot

/-- A new row. -/
theorem onePerDate_append_iff {added : Option SnapshotRow} (h : OnePerDate rows) :
    OnePerDate (rows ++ added.toList) ↔
      ∀ row ∈ added, ∀ r ∈ rows, r.scoreDate ≠ row.scoreDate := by
  unfold OnePerDate at h ⊢
  cases added with
  | none => simp [h]
  | some row =>
    rw [Option.toList_some, List.map_append, List.nodup_append]
    simp [h]

/-- **Every step.** -/
theorem onePerDate_step_iff (h : OnePerDate s.snapshots) :
    OnePerDate (s.step e).snapshots ↔ NewDate s e := by
  rw [snapshots_step]
  cases e with
  | fetch value =>
    rw [List.append_nil]
    exact iff_of_true h trivial
  | insert i env =>
    refine (onePerDate_append_iff h).trans ?_
    simp only [NewDate]
    cases s.calls[i]?.join with
    | none => simp
    | some latest => simp

/-- **A date has one snapshot at most** in exactly the runs whose insertions come with a new
date. -/
theorem onePerDate_iff (es : List (ScoreEvent numbers)) :
    (∀ fs, fs <+: es → OnePerDate (Runs.run step ({} : ScoreState numbers) fs).snapshots) ↔
      Runs.Meets step NewDate {} es :=
  @Runs.always_iff_meets _ _ step NewDate (fun s : ScoreState numbers => OnePerDate s.snapshots)
    (fun _ _ h => onePerDate_step_iff h) {} es List.nodup_nil

/-! ### The history -/

/-- **The window** begins `days` days ago, unless the clock of the process has been changed in
between. -/
theorem inWindow_iff_recent {zone : TimeZone} {r : SnapshotRow}
    (h : zone.daysAgo now days = now - 86400000 * days) :
    InWindow zone.daysAgo days now r ↔ Recent days now r.scoreDate := by
  have hdays : ∀ n d date : ℕ, (n - 86400000 * d) / 86400000 ≤ date ↔ n / 86400000 ≤ date + d := by
    omega
  rw [InWindow, h]
  exact hdays now days r.scoreDate

theorem mem_getScoreHistory {read : List SnapshotRow} {entry : Date × String} :
    entry ∈ getScoreHistory daysAgo days now read ↔
      ∃ r ∈ Oldest.first SnapshotRow.scoreDate days
        (read.filter (fun r => decide (isoDate (daysAgo now days) ≤ r.scoreDate))),
          (r.scoreDate, r.percentageScore) = entry :=
  List.mem_map

/-- **The latest snapshot** is in the history exactly if fewer than `days` snapshots of the window
are older. -/
theorem showsLatest_iff (daysAgo : Time → ℕ → Time) (days : ℕ) (now : Time)
    (rows : List SnapshotRow) :
    ShowsLatest daysAgo days now rows ↔ FewOlder daysAgo days now rows := by
  have hshows : ∀ read, read.Perm rows → ∀ r, Latest daysAgo days now rows r →
      (r.scoreDate ∈ (getScoreHistory daysAgo days now read).map Prod.fst ↔
        rows.countP (fun r' => decide (isoDate (daysAgo now days) ≤ r'.scoreDate) &&
          decide (r'.scoreDate < r.scoreDate)) < days) := by
    rintro read hperm r ⟨hr, hwindow, hlatest⟩
    have hmem : r ∈ read.filter (fun r => decide (isoDate (daysAgo now days) ≤ r.scoreDate)) :=
      List.mem_filter.2 ⟨hperm.mem_iff.2 hr, decide_eq_true hwindow⟩
    have hmax : ∀ b ∈ read.filter (fun r => decide (isoDate (daysAgo now days) ≤ r.scoreDate)),
        b.scoreDate ≤ r.scoreDate :=
      fun b hb => hlatest b (hperm.mem_iff.1 (List.mem_of_mem_filter hb))
    have hcount : (read.filter (fun r => decide (isoDate (daysAgo now days) ≤ r.scoreDate))).countP
          (fun r' => decide (r'.scoreDate < r.scoreDate)) =
        rows.countP (fun r' => decide (isoDate (daysAgo now days) ≤ r'.scoreDate) &&
          decide (r'.scoreDate < r.scoreDate)) := by
      rw [List.countP_filter, hperm.countP_eq]
      exact List.countP_congr fun r' _ => by rw [Bool.and_comm]
    rw [← hcount, ← Oldest.exists_key_mem_first_iff SnapshotRow.scoreDate days hmem hmax]
    constructor
    · intro h
      obtain ⟨entry, hentry, hdate⟩ := List.mem_map.1 h
      obtain ⟨b, hb, rfl⟩ := mem_getScoreHistory.1 hentry
      exact ⟨b, hb, hdate⟩
    · rintro ⟨b, hb, hdate⟩
      exact List.mem_map.2 ⟨_, mem_getScoreHistory.2 ⟨b, hb, rfl⟩, hdate⟩
  constructor
  · exact fun h r hr => (hshows rows (List.Perm.refl rows) r hr).1
      ((h rows (List.Perm.refl rows)).2.2 r hr)
  · refine fun h read hperm => ⟨fun entry hentry => ?_, ?_, fun r hr => ?_⟩
    · obtain ⟨r, hr, rfl⟩ := mem_getScoreHistory.1 hentry
      obtain ⟨hread, hwindow⟩ := List.mem_filter.1 (Oldest.mem_of_mem_first hr)
      exact ⟨r, hperm.mem_iff.1 hread, by simpa [InWindow] using hwindow, rfl⟩
    · rw [getScoreHistory, List.map_map, List.pairwise_map]
      exact (Oldest.pairwise_sorted SnapshotRow.scoreDate _).sublist (List.take_sublist _ _)
    · exact (hshows read hperm r hr).2 (h r hr)

/-- **One snapshot for a date, and a history up to the latest one**: exactly if every insertion
comes with a new date, and fewer than `days` snapshots of the window are older than the latest. -/
theorem history_iff (es : List (ScoreEvent numbers)) (daysAgo : Time → ℕ → Time) (days : ℕ)
    (now : Time) :
    ((∀ fs, fs <+: es → OnePerDate (Runs.run step ({} : ScoreState numbers) fs).snapshots) ∧
      ShowsLatest daysAgo days now (Runs.run step ({} : ScoreState numbers) es).snapshots) ↔
    Runs.Meets step NewDate {} es ∧
      FewOlder daysAgo days now (Runs.run step ({} : ScoreState numbers) es).snapshots :=
  and_congr (onePerDate_iff es) (showsLatest_iff daysAgo days now _)

namespace Daily

/-- Whole numbers. -/
def whole : ScoreNumbers where
  Number := ℕ
  percentage currentScore maxScore := currentScore * 100 / maxScore
  score number := some (toString number)
  percentageScore number := some (toString number ++ ".00")

/-- A number above the ids of the rows. -/
def idAbove (rows : List SnapshotRow) : ℕ := rows.foldr (fun r n => r.id + n + 1) 0

theorem ne_idAbove {rows : List SnapshotRow} : ∀ r ∈ rows, r.id < idAbove rows :=
  Table.lt_foldr SnapshotRow.id rows

/-- Ids that count up. -/
def environment : SnapshotEnvironment where
  newId := idAbove
  fresh _ r hr := (ne_idAbove r hr).ne
  now _ := 0

/-- A sync on a day, which fetches the score of that day. -/
def sync (i day : ℕ) : List (ScoreEvent whole) :=
  [.fetch (some [⟨86400000 * day, (55 : ℕ), (100 : ℕ)⟩]), .insert i environment]

/-- The snapshots after some events. -/
def after (es : List (ScoreEvent whole)) : List SnapshotRow :=
  (Runs.run step ({} : ScoreState whole) es).snapshots

/-- Two syncs on one day. -/
def twice : List (ScoreEvent whole) := sync 0 20000 ++ sync 1 20000

/-- A sync on each of eight days. -/
def week : List (ScoreEvent whole) :=
  (List.range 8).flatMap fun i => sync i (20000 + i)

/-- Two syncs on one day leave two snapshots of it; after a sync on each of eight days, the
history of seven days, asked for on the last of them, has no snapshot of this day. -/
theorem not_history : ¬ OnePerDate (after twice) ∧
    ¬ ShowsLatest (fun now days => now - 86400000 * days) 7 (86400000 * 20007) (after week) := by
  refine ⟨by decide +kernel, fun h => ?_⟩
  obtain ⟨-, -, hlatest⟩ := h _ (List.Perm.refl _)
  have hlast : ∃ r ∈ after week, r.scoreDate = 20007 := by decide +kernel
  obtain ⟨r, hr, hdate⟩ := hlast
  have hmax : ∀ r' ∈ after week, r'.scoreDate ≤ 20007 := by decide +kernel
  have hshown := hlatest r ⟨hr, by rw [InWindow, hdate]; decide, fun r' hr' => hdate ▸ hmax r' hr'⟩
  rw [hdate] at hshown
  revert hshown
  decide +kernel

end Daily

end ScoreState

end OpsHub
