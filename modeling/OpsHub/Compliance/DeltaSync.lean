import OpsHub.Compliance.GraphSync

/-!
# Delta sync of devices

`GraphSyncService.syncDevices` fetches page after page, processes the devices of each, and then
stores the delta link if the page carries one.  A fetch or a statement that fails ends the run;
the next one starts from the stored link.

* `syncBatch`: `processDeviceBatch` when statements fail; `syncBatch_nil`;
* `DeltaSyncState`, `DeltaSyncEvent`, `step`: runs one after the other, page by page, and what
  happens to the findings besides;
* `DeltaFeed`, `Honest`: what Graph promises of a delta link;
* `syncBatch_spec`: what is kept, and what a batch that completes has recorded;
* `sync_never_skips`: no change is left behind, and no finding is written twice.
-/

namespace OpsHub

/-! ### A batch -/

/-- What goes wrong with the statements for a device. -/
inductive DeviceFault
  | select
  /-- The insertion fails, or only its answer is lost. -/
  | insert (stored : Bool)
  deriving DecidableEq, Repr

namespace StoredFindings

/-- An update of `ComplianceService`; it does not touch the columns of limited width. -/
def setStatus (t : StoredFindings) (u : StatusUpdate) (now : Time) : StoredFindings where
  table := u.run now t.table
  fits r hr := by
    rw [u.run_eq] at hr
    rcases Table.mem_update hr with ⟨old, hold, rfl⟩ | ⟨hr, -⟩
    · obtain ⟨hname, hversion, hsource⟩ := t.fits old (Table.mem_of_find hold)
      exact ⟨hname, hversion, hsource⟩
    · exact t.fits r hr

end StoredFindings

namespace GraphSyncService

/-- The error of a statement that fails. -/
def connectionLost : Failure := .error "Connection terminated unexpectedly"

/-- One round of the loop of `processDeviceBatch`. -/
def syncDevice (env : SyncEnvironment) (fault : Option DeviceFault) (t : StoredFindings)
    (d : GraphDevice) : StoredFindings × Except Failure ℕ :=
  if issues d = [] then (t, .ok 0)
  else if fault = some .select then (t, .error connectionLost)
  else if t.HasSource (sourceKey d) then (t, .ok 0)
  else
    match t.insert (newFinding d (env.newId t.table) (env.now t.table)) with
    | .error e => (t, .error e)
    | .ok t' =>
      match fault with
      | some (.insert stored) => (if stored then t' else t, .error connectionLost)
      | _ => (t', .ok 1)

/-- `processDeviceBatch`; the `i`-th fault is that of the `i`-th device. -/
def syncBatch (env : SyncEnvironment) (faults : List (Option DeviceFault)) (t : StoredFindings)
    (findings : ℕ) : List GraphDevice → StoredFindings × Except Failure ℕ
  | [] => (t, .ok findings)
  | d :: ds =>
    match syncDevice env faults.head?.join t d with
    | (t', .ok added) => syncBatch env faults.tail t' (findings + added) ds
    | (t', .error e) => (t', .error e)

end GraphSyncService

/-! ### Runs -/

/-- `PageCollection<GraphDevice>`. -/
structure DevicePage where
  value : Option (List GraphDevice)
  nextLink : Option String
  deltaLink : Option String

namespace DevicePage

/-- `page.value ?? []`. -/
def devices (page : DevicePage) : List GraphDevice := page.value.getD []

/-- A link that counts as true. -/
def given (link : Option String) : Option String := link.filter (fun link => decide (link ≠ ""))

end DevicePage

/-- A call of `syncDevices` that waits for its next page. -/
structure SyncRun where
  url : String
  totalDevices : ℕ := 0
  totalFindings : ℕ := 0
  /-- The stored link when the call began. -/
  start : Option String
  /-- The devices whose batches had been processed by then. -/
  before : List GraphDevice
  /-- The devices of the pages of this call that have been processed. -/
  delivered : List GraphDevice := []

/-- The service, its table, and the results of its calls. -/
structure DeltaSyncState where
  deltaLink : Option String := none
  findings : StoredFindings := .empty
  run : Option SyncRun := none
  results : List (Except Failure (ℕ × ℕ)) := []
  /-- The devices of all batches that have been processed. -/
  processed : List GraphDevice := []

/-- What can happen. -/
inductive DeltaSyncEvent
  | start (enabled : Bool)
  /-- The page is fetched, or not, and its batch processed. -/
  | page (env : SyncEnvironment) (response : Except Failure DevicePage)
    (faults : List (Option DeviceFault))
  /-- The process starts anew. -/
  | restart
  /-- A finding is acknowledged or resolved. -/
  | status (u : StatusUpdate) (now : Time)
  /-- Another service raises a finding. -/
  | raise (r : FindingRow)

namespace GraphSyncService

/-- Where the first run starts. -/
def firstUrl : String :=
  "/deviceManagement/managedDevices/delta?$select=" ++
    "id,deviceName,operatingSystem,osVersion,complianceState,isEncrypted,userId," ++
    "userPrincipalName,lastSyncDateTime"

/-- The beginning of `syncDevices`; calls do not overlap. -/
def syncDevices (s : DeltaSyncState) (enabled : Bool) : DeltaSyncState :=
  if s.run.isSome then s
  else if enabled then
    { s with
      run := some
        { url := s.deltaLink.getD firstUrl
          start := s.deltaLink
          before := s.processed } }
  else { s with results := s.results ++ [.ok (0, 0)] }

/-- The call is rejected. -/
def reject (s : DeltaSyncState) (findings : StoredFindings) (e : Failure) : DeltaSyncState :=
  { s with findings := findings, run := none, results := s.results ++ [.error e] }

/-- The rest of a round of `syncDevices` once the batch has been processed. -/
def turnPage (s : DeltaSyncState) (run : SyncRun) (page : DevicePage) (findings : StoredFindings)
    (added : ℕ) : DeltaSyncState :=
  let totalDevices := run.totalDevices + page.devices.length
  let totalFindings := run.totalFindings + added
  { s with
    deltaLink := (DevicePage.given page.deltaLink).or s.deltaLink
    findings := findings
    processed := s.processed ++ page.devices
    run := (DevicePage.given page.nextLink).map fun url =>
      { run with
        url := url
        totalDevices := totalDevices
        totalFindings := totalFindings
        delivered := run.delivered ++ page.devices }
    results :=
      if (DevicePage.given page.nextLink).isSome then s.results
      else s.results ++ [.ok (totalDevices, totalFindings)] }

end GraphSyncService

namespace DeltaSyncState

open GraphSyncService

/-- The state after an event. -/
def step (s : DeltaSyncState) : DeltaSyncEvent → DeltaSyncState
  | .start enabled => syncDevices s enabled
  | .page env response faults =>
    match s.run, response with
    | none, _ => s
    | some _, .error e => reject s s.findings e
    | some run, .ok page =>
      match syncBatch env faults s.findings 0 page.devices with
      | (findings, .ok added) => turnPage s run page findings added
      | (findings, .error e) => reject s findings e
  | .restart => { s with deltaLink := none, run := none }
  | .status u now => { s with findings := s.findings.setStatus u now }
  | .raise r =>
    if "intune:".toList <+: r.source.toList then s
    else { s with findings := Outcome.commit s.findings (s.findings.insert r) }

/-! ### The property -/

/-- The changes that Graph has to report, the records that show them, and the point of time that
a delta link stands for; without a link Graph starts from scratch. -/
structure DeltaFeed where
  Change : Type
  Shows : GraphDevice → Change → Prop
  upTo : Option String → Set Change
  scratch : upTo none = ∅

theorem DeltaFeed.not_mem_scratch (feed : DeltaFeed) {c : feed.Change} : c ∉ feed.upTo none := by
  rw [feed.scratch]
  exact Set.notMem_empty c

section Promises

variable (feed : DeltaFeed)

/-- A page that carries a delta link ends a sequence of pages which reports all changes from the
point where the sequence has started up to the point that the link stands for. -/
def Honest (s : DeltaSyncState) : DeltaSyncEvent → Prop
  | .page _ (.ok page) _ => ∀ run ∈ s.run, ∀ link ∈ DevicePage.given page.deltaLink,
      ∀ c ∈ feed.upTo (some link), c ∈ feed.upTo run.start ∨
        ∃ d ∈ run.delivered ++ page.devices, feed.Shows d c
  | _ => True

/-- A finding with the issues of the device is there, if it has issues. -/
def Recorded (t : StoredFindings) (d : GraphDevice) : Prop :=
  issues d ≠ [] → t.HasSource (sourceKey d)

/-- A record that shows the change has been processed. -/
def Processed (s : DeltaSyncState) (devices : List GraphDevice) (c : feed.Change) : Prop :=
  ∃ d ∈ devices, feed.Shows d c ∧ Recorded s.findings d

/-- The changes before the stored link have been processed. -/
def NoneSkipped (s : DeltaSyncState) : Prop :=
  ∀ c ∈ feed.upTo s.deltaLink, Processed feed s s.processed c

/-- The link is stored once the batches of all pages of the run have been processed. -/
def AdvancesLate (s : DeltaSyncState) (e : DeltaSyncEvent) : Prop :=
  (s.step e).deltaLink ≠ s.deltaLink → e = .restart ∨
    ∃ run ∈ s.run, ∃ env page faults, e = .page env (.ok page) faults ∧
      (s.step e).deltaLink = DevicePage.given page.deltaLink ∧
      ∀ d ∈ run.delivered ++ page.devices, Recorded (s.step e).findings d

/-- A run that gets to a link has been given every change before it that had not been processed
when the run began. -/
def Redelivers (s : DeltaSyncState) : DeltaSyncEvent → Prop
  | .page _ (.ok page) _ => ∀ run ∈ s.run, ∀ link ∈ DevicePage.given page.deltaLink,
      ∀ c ∈ feed.upTo (some link), ¬ Processed feed s run.before c →
        ∃ d ∈ run.delivered ++ page.devices, feed.Shows d c
  | _ => True

/-- Two findings of the sync have different sources. -/
def NoDuplicates (t : StoredFindings) : Prop :=
  ∀ r ∈ t.table.rows, ∀ r' ∈ t.table.rows, r.source = r'.source →
    "intune:".toList <+: r.source.toList → r = r'

/-! ### A batch -/

variable {feed} {s : DeltaSyncState} {e : DeltaSyncEvent} {env : SyncEnvironment}
  {faults : List (Option DeviceFault)} {fault : Option DeviceFault} {t t' t'' : StoredFindings}
  {d : GraphDevice} {ds : List GraphDevice} {n : ℕ} {result : Except Failure ℕ}

/-- Without faults a batch is `processDeviceBatch`. -/
theorem syncBatch_nil : syncBatch env [] t n ds = processDeviceBatch env t n ds := by
  induction ds generalizing t n with
  | nil => rfl
  | cons d ds ih =>
    rw [syncBatch, processDeviceBatch, syncDevice, processDevice]
    by_cases hissues : issues d = []
    · simp only [if_pos hissues]
      exact ih
    · by_cases hsource : t.HasSource (sourceKey d)
      · simp only [if_neg hissues, if_pos hsource]
        exact ih
      · simp only [if_neg hissues, if_neg hsource]
        cases t.insert (newFinding d (env.newId t.table) (env.now t.table)) with
        | error e => rfl
        | ok t' => exact ih

/-- What the statements for devices keep. -/
structure Keeps (t t' : StoredFindings) : Prop where
  sources : ∀ source, t.HasSource source → t'.HasSource source
  noDuplicates : NoDuplicates t → NoDuplicates t'

theorem Keeps.refl (t : StoredFindings) : Keeps t t := ⟨fun _ h => h, fun h => h⟩

theorem Keeps.trans (h : Keeps t t') (h' : Keeps t' t'') : Keeps t t'' :=
  ⟨fun source hs => h'.sources source (h.sources source hs),
    fun hn => h'.noDuplicates (h.noDuplicates hn)⟩

theorem Keeps.recorded (h : Keeps t t') (hd : Recorded t d) : Recorded t' d :=
  fun hissues => h.sources _ (hd hissues)

/-- An insertion of a row with a new source, or with a source of another service. -/
theorem keeps_insert {r : FindingRow} (h : t.insert r = .ok t')
    (hnew : "intune:".toList <+: r.source.toList → ¬ t.HasSource r.source) : Keeps t t' := by
  have hrows : ∀ x, x ∈ t'.table.rows ↔ x ∈ t.table.rows ∨ x = r :=
    fun x => Table.mem_insert (StoredFindings.insert_eq_ok h).2
  refine ⟨?_, fun hnodup a ha b hb hab hintune => ?_⟩
  · rintro source ⟨x, hx, hsource⟩
    exact ⟨x, (hrows x).2 (Or.inl hx), hsource⟩
  · rcases (hrows a).1 ha with ha | rfl
    · rcases (hrows b).1 hb with hb | rfl
      · exact hnodup a ha b hb hab hintune
      · exact absurd ⟨a, ha, hab⟩ (hnew (hab ▸ hintune))
    · rcases (hrows b).1 hb with hb | rfl
      · exact absurd ⟨b, hb, hab.symm⟩ (hnew hintune)
      · rfl

theorem keeps_setStatus (t : StoredFindings) (u : StatusUpdate) (now : Time) :
    Keeps t (t.setStatus u now) := by
  have hrows : ∀ x, x ∈ (t.setStatus u now).table.rows ↔ ∃ r ∈ t.table.rows,
      (if decide (r.id = u.id) then ComplianceDrizzleRepository.statusSet u.status u.resolvedBy
        u.note now r else r) = x :=
    fun _ => @Table.mem_updateWhere _ _ _ t.table _ _ (ComplianceDrizzleRepository.id_statusSet
      u.status u.resolvedBy u.note now) _
  have hsource : ∀ r : FindingRow, (if decide (r.id = u.id) then
      ComplianceDrizzleRepository.statusSet u.status u.resolvedBy u.note now r else r).source =
        r.source := by
    intro r
    split <;> rfl
  refine ⟨?_, fun hnodup a ha b hb hab hintune => ?_⟩
  · rintro source ⟨r, hr, rfl⟩
    exact ⟨_, (hrows _).2 ⟨r, hr, rfl⟩, hsource r⟩
  · obtain ⟨x, hx, rfl⟩ := (hrows a).1 ha
    obtain ⟨y, hy, rfl⟩ := (hrows b).1 hb
    rw [hsource, hsource] at hab
    rw [hsource] at hintune
    rw [hnodup x hx y hy hab hintune]

/-- **One round**: nothing is lost, and a round that completes has recorded its device. -/
theorem syncDevice_spec (h : syncDevice env fault t d = (t', result)) :
    Keeps t t' ∧ (∀ added, result = .ok added → Recorded t' d) := by
  unfold syncDevice at h
  by_cases hissues : issues d = []
  · rw [if_pos hissues] at h
    obtain ⟨rfl, rfl⟩ := Prod.mk.inj h
    exact ⟨Keeps.refl t, fun _ _ hne => absurd hissues hne⟩
  · by_cases hselect : fault = some .select
    · rw [if_neg hissues, if_pos hselect] at h
      obtain ⟨rfl, rfl⟩ := Prod.mk.inj h
      exact ⟨Keeps.refl t, fun _ hok => by cases hok⟩
    · by_cases hsource : t.HasSource (sourceKey d)
      · rw [if_neg hissues, if_neg hselect, if_pos hsource] at h
        obtain ⟨rfl, rfl⟩ := Prod.mk.inj h
        exact ⟨Keeps.refl t, fun _ _ _ => hsource⟩
      · rw [if_neg hissues, if_neg hselect, if_neg hsource] at h
        cases hinsert : t.insert (newFinding d (env.newId t.table) (env.now t.table)) with
        | error e =>
          rw [hinsert] at h
          obtain ⟨rfl, rfl⟩ := Prod.mk.inj h
          exact ⟨Keeps.refl t, fun _ hok => by cases hok⟩
        | ok inserted =>
          have hkeeps : Keeps t inserted := keeps_insert hinsert fun _ => hsource
          have hrecorded : inserted.HasSource (sourceKey d) :=
            ⟨_, (Table.mem_insert (StoredFindings.insert_eq_ok hinsert).2).2 (Or.inr rfl), rfl⟩
          rw [hinsert] at h
          cases fault with
          | none =>
            obtain ⟨rfl, rfl⟩ := Prod.mk.inj h
            exact ⟨hkeeps, fun _ _ _ => hrecorded⟩
          | some fault =>
            cases fault with
            | select => exact absurd rfl hselect
            | insert stored =>
              obtain ⟨rfl, rfl⟩ := Prod.mk.inj h
              refine ⟨?_, fun _ hok => by cases hok⟩
              cases stored with
              | true => exact hkeeps
              | false => exact Keeps.refl t

/-- **A batch**: nothing is lost, and one that completes has recorded its devices. -/
theorem syncBatch_spec (h : syncBatch env faults t n ds = (t', result)) :
    Keeps t t' ∧ (∀ added, result = .ok added → ∀ d ∈ ds, Recorded t' d) := by
  induction ds generalizing faults t n with
  | nil =>
    obtain ⟨rfl, rfl⟩ := Prod.mk.inj h
    exact ⟨Keeps.refl t, fun _ _ d hd => nomatch hd⟩
  | cons d ds ih =>
    rw [syncBatch] at h
    cases hround : syncDevice env faults.head?.join t d with
    | mk t₁ outcome =>
      obtain ⟨hkeeps, hrecorded⟩ := syncDevice_spec hround
      rw [hround] at h
      cases outcome with
      | error e =>
        obtain ⟨rfl, rfl⟩ := Prod.mk.inj h
        exact ⟨hkeeps, fun _ hok => by cases hok⟩
      | ok added =>
        obtain ⟨hkeeps', hrest⟩ := ih h
        refine ⟨hkeeps.trans hkeeps', fun total hok d' hd' => ?_⟩
        rcases List.mem_cons.1 hd' with rfl | hd'
        · exact hkeeps'.recorded (hrecorded added rfl)
        · exact hrest total hok d' hd'

/-! ### Runs -/

/-- A page whose batch is completed. -/
theorem step_page_ok {run : SyncRun} {page : DevicePage} {findings : StoredFindings} {added : ℕ}
    (hrun : s.run = some run)
    (hbatch : syncBatch env faults s.findings 0 page.devices = (findings, .ok added)) :
    s.step (.page env (.ok page) faults) = turnPage s run page findings added := by
  simp only [step, hrun, hbatch]

/-- A page whose batch is not. -/
theorem step_page_error {run : SyncRun} {page : DevicePage} {findings : StoredFindings}
    {e : Failure} (hrun : s.run = some run)
    (hbatch : syncBatch env faults s.findings 0 page.devices = (findings, .error e)) :
    s.step (.page env (.ok page) faults) = reject s findings e := by
  simp only [step, hrun, hbatch]

/-- The invariant. -/
structure Sound (feed : DeltaFeed) (s : DeltaSyncState) : Prop where
  recorded : ∀ d ∈ s.processed, Recorded s.findings d
  link : ∀ c ∈ feed.upTo s.deltaLink, ∃ d ∈ s.processed, feed.Shows d c
  start : ∀ run ∈ s.run, ∀ c ∈ feed.upTo run.start, ∃ d ∈ run.before, feed.Shows d c
  before : ∀ run ∈ s.run, ∀ d ∈ run.before, d ∈ s.processed
  delivered : ∀ run ∈ s.run, ∀ d ∈ run.delivered, d ∈ s.processed
  noDuplicates : NoDuplicates s.findings

theorem sound_init (feed : DeltaFeed) : Sound feed {} where
  recorded _ h := absurd h List.not_mem_nil
  link _ h := absurd h feed.not_mem_scratch
  start run h := (Option.not_mem_none run h).elim
  before run h := (Option.not_mem_none run h).elim
  delivered run h := (Option.not_mem_none run h).elim
  noDuplicates _ h := absurd h List.not_mem_nil

/-- The findings change, and nothing else. -/
theorem Sound.withFindings (h : Sound feed s) {findings : StoredFindings}
    (hkeeps : Keeps s.findings findings) : Sound feed { s with findings := findings } where
  recorded d hd := hkeeps.recorded (h.recorded d hd)
  link := h.link
  start := h.start
  before := h.before
  delivered := h.delivered
  noDuplicates := hkeeps.noDuplicates h.noDuplicates

/-- The run is rejected. -/
theorem Sound.reject (h : Sound feed s) {findings : StoredFindings}
    (hkeeps : Keeps s.findings findings) (e : Failure) :
    Sound feed (GraphSyncService.reject s findings e) where
  recorded d hd := hkeeps.recorded (h.recorded d hd)
  link := h.link
  start run hrun := (Option.not_mem_none run hrun).elim
  before run hrun := (Option.not_mem_none run hrun).elim
  delivered run hrun := (Option.not_mem_none run hrun).elim
  noDuplicates := hkeeps.noDuplicates h.noDuplicates

/-- The batch of a page has been processed. -/
theorem Sound.turnPage (h : Sound feed s) {run : SyncRun} (hrun : run ∈ s.run) {page : DevicePage}
    {findings : StoredFindings} {added : ℕ} (hkeeps : Keeps s.findings findings)
    (hrecorded : ∀ d ∈ page.devices, Recorded findings d)
    (hhonest : ∀ link ∈ DevicePage.given page.deltaLink, ∀ c ∈ feed.upTo (some link),
      c ∈ feed.upTo run.start ∨ ∃ d ∈ run.delivered ++ page.devices, feed.Shows d c) :
    Sound feed (GraphSyncService.turnPage s run page findings added) where
  recorded d hd := by
    rcases List.mem_append.1 hd with hd | hd
    · exact hkeeps.recorded (h.recorded d hd)
    · exact hrecorded d hd
  link c hc := by
    simp only [GraphSyncService.turnPage] at hc ⊢
    cases hlink : DevicePage.given page.deltaLink with
    | none =>
      rw [hlink, Option.none_or] at hc
      obtain ⟨d, hd, hshows⟩ := h.link c hc
      exact ⟨d, List.mem_append_left _ hd, hshows⟩
    | some link =>
      rw [hlink, Option.some_or] at hc
      rcases hhonest link hlink c hc with hearlier | ⟨d, hd, hshows⟩
      · obtain ⟨d, hd, hshows⟩ := h.start run hrun c hearlier
        exact ⟨d, List.mem_append_left _ (h.before run hrun d hd), hshows⟩
      · refine ⟨d, ?_, hshows⟩
        rcases List.mem_append.1 hd with hd | hd
        · exact List.mem_append_left _ (h.delivered run hrun d hd)
        · exact List.mem_append_right _ hd
  start r hr := by
    obtain ⟨url, -, rfl⟩ := Option.map_eq_some_iff.1 hr
    exact h.start run hrun
  before r hr d hd := by
    obtain ⟨url, -, rfl⟩ := Option.map_eq_some_iff.1 hr
    exact List.mem_append_left _ (h.before run hrun d hd)
  delivered r hr d hd := by
    obtain ⟨url, -, rfl⟩ := Option.map_eq_some_iff.1 hr
    rcases List.mem_append.1 hd with hd | hd
    · exact List.mem_append_left _ (h.delivered run hrun d hd)
    · exact List.mem_append_right _ hd
  noDuplicates := hkeeps.noDuplicates h.noDuplicates

/-- The beginning of a run. -/
theorem Sound.syncDevices (h : Sound feed s) (enabled : Bool) :
    Sound feed (GraphSyncService.syncDevices s enabled) := by
  unfold GraphSyncService.syncDevices
  split
  · exact h
  · split
    · refine ⟨h.recorded, h.link, ?_, ?_, ?_, h.noDuplicates⟩
      · intro run hrun
        obtain rfl := Option.some.inj hrun
        exact h.link
      · intro run hrun d hd
        obtain rfl := Option.some.inj hrun
        exact hd
      · intro run hrun d hd
        obtain rfl := Option.some.inj hrun
        exact absurd hd List.not_mem_nil
    · exact ⟨h.recorded, h.link, h.start, h.before, h.delivered, h.noDuplicates⟩

/-- **Every step** keeps the invariant, if Graph does what it promises. -/
theorem Sound.step (h : Sound feed s) (hhonest : Honest feed s e) : Sound feed (s.step e) := by
  cases e with
  | start enabled => exact h.syncDevices enabled
  | page env response faults =>
    cases hrun : s.run with
    | none =>
      simp only [DeltaSyncState.step, hrun]
      exact h
    | some run =>
      cases response with
      | error e =>
        simp only [DeltaSyncState.step, hrun]
        exact h.reject (Keeps.refl s.findings) e
      | ok page =>
        cases hbatch : syncBatch env faults s.findings 0 page.devices with
        | mk findings result =>
          obtain ⟨hkeeps, hrecorded⟩ := syncBatch_spec hbatch
          cases result with
          | error e =>
            rw [step_page_error hrun hbatch]
            exact h.reject hkeeps e
          | ok added =>
            rw [step_page_ok hrun hbatch]
            exact h.turnPage hrun hkeeps (hrecorded added rfl) (hhonest run hrun)
  | restart =>
    exact
      { recorded := h.recorded
        link := fun c hc => absurd hc feed.not_mem_scratch
        start := fun run hrun => (Option.not_mem_none run hrun).elim
        before := fun run hrun => (Option.not_mem_none run hrun).elim
        delivered := fun run hrun => (Option.not_mem_none run hrun).elim
        noDuplicates := h.noDuplicates }
  | status u now => exact h.withFindings (keeps_setStatus s.findings u now)
  | raise r =>
    simp only [DeltaSyncState.step]
    split
    · exact h
    · rename_i hforeign
      refine h.withFindings ?_
      refine Outcome.commit_induction (Keeps.refl s.findings) fun findings hinsert => ?_
      exact keeps_insert hinsert fun hintune => absurd hintune hforeign

theorem Sound.noneSkipped (h : Sound feed s) : NoneSkipped feed s := by
  intro c hc
  obtain ⟨d, hd, hshows⟩ := h.link c hc
  exact ⟨d, hd, hshows, h.recorded d hd⟩

theorem Sound.redelivers (h : Sound feed s) (hhonest : Honest feed s e) : Redelivers feed s e := by
  cases e with
  | page env response faults =>
    cases response with
    | error e => trivial
    | ok page =>
      intro run hrun link hlink c hc hnot
      rcases hhonest run hrun link hlink c hc with hearlier | hgiven
      · obtain ⟨d, hd, hshows⟩ := h.start run hrun c hearlier
        exact absurd ⟨d, hd, hshows, h.recorded d (h.before run hrun d hd)⟩ hnot
      · exact hgiven
  | start enabled => trivial
  | restart => trivial
  | status u now => trivial
  | raise r => trivial

/-- Only a page that has been processed, and a restart, change the stored link. -/
theorem Sound.advancesLate (h : Sound feed s) : AdvancesLate s e := by
  intro hchanged
  cases e with
  | start enabled =>
    refine absurd ?_ hchanged
    simp only [DeltaSyncState.step, GraphSyncService.syncDevices]
    split
    · rfl
    · split <;> rfl
  | page env response faults =>
    right
    cases hrun : s.run with
    | none =>
      simp only [DeltaSyncState.step, hrun] at hchanged
      exact absurd rfl hchanged
    | some run =>
      cases response with
      | error e =>
        simp only [DeltaSyncState.step, hrun] at hchanged
        exact absurd rfl hchanged
      | ok page =>
        cases hbatch : syncBatch env faults s.findings 0 page.devices with
        | mk findings result =>
          obtain ⟨hkeeps, hrecorded⟩ := syncBatch_spec hbatch
          cases result with
          | error e =>
            rw [step_page_error hrun hbatch] at hchanged
            exact absurd rfl hchanged
          | ok added =>
            rw [step_page_ok hrun hbatch] at hchanged ⊢
            refine ⟨run, rfl, env, page, faults, rfl, ?_, fun d hd => ?_⟩
            · simp only [GraphSyncService.turnPage] at hchanged ⊢
              cases hlink : DevicePage.given page.deltaLink with
              | none =>
                rw [hlink] at hchanged
                exact absurd rfl hchanged
              | some link => rfl
            · rcases List.mem_append.1 hd with hd | hd
              · exact hkeeps.recorded (h.recorded d (h.delivered run hrun d hd))
              · exact hrecorded added rfl d hd
  | restart => exact Or.inl rfl
  | status u now => exact absurd rfl hchanged
  | raise r =>
    refine absurd ?_ hchanged
    simp only [DeltaSyncState.step]
    split <;> rfl

/-- **No change is skipped, and no finding is written twice**, in any run. -/
theorem sync_never_skips (feed : DeltaFeed) (es : List DeltaSyncEvent)
    (hhonest : Runs.Meets step (Honest feed) {} es) (fs : List DeltaSyncEvent) (hfs : fs <+: es) :
    NoneSkipped feed (Runs.run step {} fs) ∧ NoDuplicates (Runs.run step {} fs).findings ∧
      ∀ e, fs ++ [e] <+: es → AdvancesLate (Runs.run step {} fs) e ∧
        Redelivers feed (Runs.run step {} fs) e := by
  have hsound : Sound feed (Runs.run step {} fs) :=
    Runs.run_induction (fun _ _ h he => h.step he) (sound_init feed) (hhonest.of_prefix hfs)
  refine ⟨hsound.noneSkipped, hsound.noDuplicates, fun e he => ⟨hsound.advancesLate, ?_⟩⟩
  exact hsound.redelivers (Runs.meets_append.1 (hhonest.of_prefix he)).2.1

end Promises

namespace Retry

/-- The only change is that of the device, and the link stands for the time after it. -/
def feed : DeltaFeed where
  Change := String
  Shows d id := d.id = id
  upTo link := {id | link = some "delta-1" ∧ id = (Sample.device true).id}
  scratch := by
    ext id
    simp

/-- The page with the device. -/
def page : DevicePage := ⟨some [Sample.device true], none, some "delta-1"⟩

/-- A fetch that fails, a batch whose insertion fails after it has been carried out, and a run that
completes. -/
def events : List DeltaSyncEvent :=
  [.start true, .page Sample.environment (.error connectionLost) [],
    .start true, .page Sample.environment (.ok page) [some (.insert true)],
    .start true, .page Sample.environment (.ok page) []]

theorem honest_page (s : DeltaSyncState) (faults : List (Option DeviceFault)) :
    Honest feed s (.page Sample.environment (.ok page) faults) := by
  intro run _ link _ c hc
  have hid : c = (Sample.device true).id := hc.2
  exact Or.inr ⟨_, List.mem_append_right _ (List.mem_singleton.2 rfl), hid.symm⟩

/-- The link is stored at the end, and there is one finding. -/
theorem sync_retried :
    (Runs.run step {} events).deltaLink = some "delta-1" ∧
      NoneSkipped feed (Runs.run step {} events) ∧
      NoDuplicates (Runs.run step {} events).findings := by
  obtain ⟨hnone, hunique, -⟩ := sync_never_skips feed events
    ⟨trivial, trivial, trivial, honest_page _ _, trivial, honest_page _ _, trivial⟩ events
    List.prefix_rfl
  exact ⟨by decide +kernel, hnone, hunique⟩

end Retry

end DeltaSyncState

end OpsHub
