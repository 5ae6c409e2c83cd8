import OpsHub.Compliance.DeltaSync
import OpsHub.Compliance.ShadowIt

/-!
# Repeated detection

`detectShadowIt` is called by a cron job and by the controller, so that calls can overlap; before
an app's finding is inserted, a query has found no *open* finding of the app.  In between, and
between the calls, findings are acknowledged, resolved, and accepted as risks.

* `RescanState`, `RescanEvent`, `step`: the statements of all calls, one by one;
* `AtMostOne`: an app has one finding at most that is open or acknowledged;
* `NotRaisedAgain`: no finding of an app with an accepted risk is added;
* `raised_once_iff`: both hold in a run exactly if every insertion finds only resolved findings of
  its app, and no acknowledgement comes after another finding of the app has been raised.
-/

namespace OpsHub

open ShadowItDetectionService

/-- A call of `detectShadowIt` in flight. -/
structure ScanRun where
  catalog : Catalog
  /-- The apps that are still to be looked up. -/
  apps : List GraphDetectedApp
  /-- The app whose finding is inserted next. -/
  pending : Option GraphDetectedApp := none

/-- The findings, the calls of `detectShadowIt`, and those of `ComplianceService`. -/
structure RescanState where
  findings : StoredFindings := .empty
  scans : List ScanRun := []
  calls : List FindingCall := []

/-- What a call reads: the catalog and the inventory, each in some order. -/
structure ScanInput (catalog : List SoftwareCatalogEntry) (inventory : List GraphDetectedApp) where
  rows : List SoftwareCatalogEntry
  apps : List GraphDetectedApp
  rows_perm : rows.Perm catalog
  apps_perm : apps.Perm inventory

/-- What can happen. -/
inductive RescanEvent (catalog : List SoftwareCatalogEntry) (inventory : List GraphDetectedApp)
  | detect (input : ScanInput catalog inventory)
  /-- The `i`-th call looks its next app up. -/
  | look (i : ℕ)
  /-- The `i`-th call inserts its finding. -/
  | insert (i : ℕ) (env : SyncEnvironment)
  /-- A fetch or a statement of the `i`-th call fails. -/
  | fail (i : ℕ)
  | resolve (id : Uuid) (note : Option String) (riskAccepted : Bool) (actor : Actor)
  | acknowledge (id : Uuid) (actor : Actor)
  /-- The `i`-th call of `ComplianceService` writes. -/
  | write (i : ℕ) (now : Time)
  /-- Another service raises a finding. -/
  | raise (r : FindingRow)

namespace RescanState

variable (toLowerCase : String → String) {catalog : List SoftwareCatalogEntry}
  {inventory : List GraphDetectedApp}

/-- The next round of a call, up to its query. -/
def lookUp (t : StoredFindings) (scan : ScanRun) : ScanRun :=
  match scan.pending, scan.apps with
  | none, app :: apps =>
    { scan with
      apps := apps
      pending :=
        if Due t (listing toLowerCase scan.catalog app) app then some app else none }
  | _, _ => scan

/-- The row that the `i`-th call inserts next. -/
def pendingRow (s : RescanState) (i : ℕ) (env : SyncEnvironment) : Option FindingRow :=
  s.scans[i]?.bind fun scan => scan.pending.map fun app =>
    newFinding (listing toLowerCase scan.catalog app) app (env.newId s.findings.table)
      (env.now s.findings.table)

/-- A call of `ComplianceService` goes on when its test has passed. -/
def beginWith (s : RescanState) (test : Except Failure FindingRow) (call : FindingCall) :
    RescanState :=
  match test with
  | .ok _ => { s with calls := s.calls ++ [call] }
  | .error _ => s

/-- The `i`-th call of `detectShadowIt` is over. -/
def stop (s : RescanState) (i : ℕ) : RescanState :=
  { s with scans := s.scans.modify i fun scan => { scan with apps := [], pending := none } }

/-- A finding of `detectShadowIt`. -/
def Shadow (r : FindingRow) : Prop := "shadow-it:".toList <+: r.source.toList

instance : DecidablePred Shadow := fun r =>
  inferInstanceAs (Decidable ("shadow-it:".toList <+: r.source.toList))

/-- The state after an event. -/
def step (s : RescanState) : RescanEvent catalog inventory → RescanState
  | .detect input =>
    { s with scans := s.scans ++ [⟨loadCatalog toLowerCase input.rows, input.apps, none⟩] }
  | .look i => { s with scans := s.scans.modify i (lookUp toLowerCase s.findings) }
  | .insert i env =>
    match s.pendingRow toLowerCase i env with
    | none => s
    | some r =>
      match s.findings.insert r with
      | .ok findings =>
        { s with
          findings := findings
          scans := s.scans.modify i fun scan => { scan with pending := none } }
      | .error _ => s.stop i
  | .fail i => s.stop i
  | .resolve id note riskAccepted actor =>
    s.beginWith (ComplianceService.resolveFinding s.findings.table id)
      (.resolve id note riskAccepted actor)
  | .acknowledge id actor =>
    s.beginWith (ComplianceService.acknowledgeFinding s.findings.table id) (.acknowledge id actor)
  | .write i now =>
    match s.calls[i]?.bind FindingCall.update with
    | some u =>
      { s with findings := s.findings.setStatus u now, calls := s.calls.set i .finished }
    | none => s
  | .raise r =>
    if Shadow r then s
    else { s with findings := Outcome.commit s.findings (s.findings.insert r) }

/-! ### The properties -/

/-- No two findings of one app are open or acknowledged. -/
def AtMostOne (t : StoredFindings) : Prop :=
  ∀ r ∈ t.table.rows, ∀ r' ∈ t.table.rows, Shadow r → r'.source = r.source →
    ¬ r.status.Final → ¬ r'.status.Final → r' = r

/-- An app with an accepted risk has no other findings afterwards than before. -/
def NotRaisedAgain (t t' : StoredFindings) : Prop :=
  ∀ r ∈ t.table.rows, Shadow r → r.status = .riskAccepted →
    ∀ r' ∈ t'.table.rows, r'.source = r.source → ∃ old ∈ t.table.rows, old.id = r'.id

instance : DecidablePred AtMostOne := fun t =>
  inferInstanceAs (Decidable (∀ r ∈ t.table.rows, ∀ r' ∈ t.table.rows, Shadow r →
    r'.source = r.source → ¬ r.status.Final → ¬ r'.status.Final → r' = r))

instance : DecidableRel NotRaisedAgain := fun t t' =>
  inferInstanceAs (Decidable (∀ r ∈ t.table.rows, Shadow r → r.status = .riskAccepted →
    ∀ r' ∈ t'.table.rows, r'.source = r.source → ∃ old ∈ t.table.rows, old.id = r'.id))

/-- An insertion that is not refused finds only resolved findings of its app; an acknowledgement
finds no other unresolved finding of the app. -/
def Settled (s : RescanState) : RescanEvent catalog inventory → Prop
  | .insert i env => ∀ r ∈ s.pendingRow toLowerCase i env, r.Fits →
      ∀ r' ∈ s.findings.table.rows, r'.source = r.source → r'.status = .resolved
  | .write i _ => ∀ u ∈ s.calls[i]?.bind FindingCall.update, ¬ u.status.Final →
      ∀ r ∈ s.findings.table.find u.id, Shadow r → ∀ r' ∈ s.findings.table.rows,
        r'.source = r.source → ¬ r'.status.Final → r' = r
  | _ => True

/-! ### Statements -/

variable {t t' : StoredFindings} {r : FindingRow} {s : RescanState}
  {e : RescanEvent catalog inventory} {toLowerCase}

theorem shadow_sourceKey (app : GraphDetectedApp) :
    "shadow-it:".toList <+: (sourceKey app).toList := by
  rw [sourceKey, String.toList_append]
  exact List.prefix_append _ _

/-- Nothing is raised while the rows keep their ids. -/
theorem notRaisedAgain_of_id (h : ∀ r' ∈ t'.table.rows, ∃ old ∈ t.table.rows, old.id = r'.id) :
    NotRaisedAgain t t' :=
  fun _ _ _ _ r' hr' _ => h r' hr'

theorem notRaisedAgain_refl (t : StoredFindings) : NotRaisedAgain t t :=
  notRaisedAgain_of_id fun r hr => ⟨r, hr, rfl⟩

/-- **An insertion** of a new finding of an app. -/
theorem insert_keeps_iff (ht : AtMostOne t) (h : t.insert r = .ok t')
    (hfresh : t.table.find r.id = none) (hshadow : Shadow r) (hopen : r.status = .open) :
    AtMostOne t' ∧ NotRaisedAgain t t' ↔
      ∀ r' ∈ t.table.rows, r'.source = r.source → r'.status = .resolved := by
  have hrows : ∀ x, x ∈ t'.table.rows ↔ x ∈ t.table.rows ∨ x = r :=
    fun x => Table.mem_insert (StoredFindings.insert_eq_ok h).2
  have hnew : ∀ x ∈ t.table.rows, x.id ≠ r.id := Table.find_eq_none_iff.1 hfresh
  have hunresolved : ¬ r.status.Final := by
    rw [hopen]
    decide
  have hr : r ∈ t'.table.rows := (hrows r).2 (Or.inr rfl)
  constructor
  · rintro ⟨hone, hraised⟩ r' hr' hsource
    have hr'shadow : Shadow r' := by
      rw [Shadow, hsource]
      exact hshadow
    by_cases hfinal : r'.status.Final
    · rcases hfinal with hresolved | haccepted
      · exact hresolved
      · obtain ⟨old, hold, hid⟩ := hraised r' hr' hr'shadow haccepted r hr hsource.symm
        exact absurd hid (hnew old hold)
    · have heq : r' = r :=
        hone r hr r' ((hrows r').2 (Or.inl hr')) hshadow hsource hunresolved hfinal
      exact absurd (congrArg (fun x : FindingRow => x.id) heq) (hnew r' hr')
  · intro hresolved
    have hfinal : ∀ x ∈ t.table.rows, x.source = r.source → x.status.Final :=
      fun x hx hsource => Or.inl (hresolved x hx hsource)
    refine ⟨fun a ha b hb hashadow hsource hopena hopenb => ?_,
      fun a ha _ haccepted b hb hsource => ?_⟩
    · rcases (hrows a).1 ha with ha | rfl
      · rcases (hrows b).1 hb with hb | rfl
        · exact ht a ha b hb hashadow hsource hopena hopenb
        · exact absurd (hfinal a ha hsource.symm) hopena
      · rcases (hrows b).1 hb with hb | rfl
        · exact absurd (hfinal b hb hsource) hopenb
        · rfl
    · rcases (hrows b).1 hb with hb | rfl
      · exact ⟨b, hb, rfl⟩
      · have hstatus := hresolved a ha hsource.symm
        rw [haccepted] at hstatus
        cases hstatus

/-- An insertion of a finding of another service. -/
theorem insert_keeps (ht : AtMostOne t) (h : t.insert r = .ok t') (hforeign : ¬ Shadow r) :
    AtMostOne t' ∧ NotRaisedAgain t t' := by
  have hrows : ∀ x, x ∈ t'.table.rows ↔ x ∈ t.table.rows ∨ x = r :=
    fun x => Table.mem_insert (StoredFindings.insert_eq_ok h).2
  have hother : ∀ x, Shadow x → x.source ≠ r.source := by
    intro x hx hsource
    rw [Shadow, hsource] at hx
    exact hforeign hx
  refine ⟨fun a ha b hb hashadow hsource hopena hopenb => ?_,
    fun a ha hashadow _ b hb hsource => ?_⟩
  · rcases (hrows a).1 ha with ha | rfl
    · rcases (hrows b).1 hb with hb | rfl
      · exact ht a ha b hb hashadow hsource hopena hopenb
      · exact absurd hsource.symm (hother a hashadow)
    · exact absurd hashadow hforeign
  · rcases (hrows b).1 hb with hb | rfl
    · exact ⟨b, hb, rfl⟩
    · exact absurd hsource.symm (hother a hashadow)

/-- The rows after an update: those with another id, and the updated one. -/
theorem mem_setStatus {u : StatusUpdate} {now : Time} {x : FindingRow} :
    x ∈ (t.setStatus u now).table.rows ↔ (x ∈ t.table.rows ∧ x.id ≠ u.id) ∨
      ∃ r ∈ t.table.find u.id,
        x = ComplianceDrizzleRepository.statusSet u.status u.resolvedBy u.note now r := by
  have hrows : (t.setStatus u now).table = t.table.update u.id _ _ := u.run_eq now t.table
  rw [hrows]
  constructor
  · intro hx
    rcases Table.mem_update hx with ⟨r, hr, rfl⟩ | hx
    · exact Or.inr ⟨r, hr, rfl⟩
    · exact Or.inl hx
  · rintro (⟨hx, hid⟩ | ⟨r, hr, rfl⟩)
    · refine Table.mem_of_find (k := x.id) ?_
      rw [Table.find_update_ne _ hid]
      exact Table.find_of_mem hx
    · refine Table.mem_of_find (k := u.id) ?_
      rw [Table.find_update_self, hr]
      rfl

/-- An update keeps the rows' ids. -/
theorem notRaisedAgain_setStatus (t : StoredFindings) (u : StatusUpdate) (now : Time) :
    NotRaisedAgain t (t.setStatus u now) := by
  refine notRaisedAgain_of_id fun x hx => ?_
  rcases mem_setStatus.1 hx with ⟨hx, -⟩ | ⟨r, hr, rfl⟩
  · exact ⟨x, hx, rfl⟩
  · exact ⟨r, Table.mem_of_find hr, rfl⟩

/-- **An update** of a finding. -/
theorem atMostOne_setStatus_iff (ht : AtMostOne t) {u : StatusUpdate} {now : Time} :
    AtMostOne (t.setStatus u now) ↔ (¬ u.status.Final → ∀ r ∈ t.table.find u.id, Shadow r →
      ∀ r' ∈ t.table.rows, r'.source = r.source → ¬ r'.status.Final → r' = r) := by
  constructor
  · intro hone hunresolved r hr hshadow r' hr' hsource hopen
    by_contra hne
    have hid : r'.id ≠ u.id := by
      intro hid
      refine hne (t.table.eq_of_key_eq hr' (Table.mem_of_find hr) ?_)
      rw [hid, Table.key_of_find hr]
    have hkey := Table.key_of_find hr
    have heq := hone _ (mem_setStatus.2 (Or.inr ⟨r, hr, rfl⟩)) r'
      (mem_setStatus.2 (Or.inl ⟨hr', hid⟩)) hshadow hsource hunresolved hopen
    rw [heq] at hid
    exact hid hkey
  · intro hother a ha b hb hashadow hsource hopena hopenb
    rcases mem_setStatus.1 ha with ⟨ha, haid⟩ | ⟨r, hr, rfl⟩
    · rcases mem_setStatus.1 hb with ⟨hb, -⟩ | ⟨r, hr, rfl⟩
      · exact ht a ha b hb hashadow hsource hopena hopenb
      · have hrshadow : Shadow r := by
          have hrsource : r.source = a.source := hsource
          rw [Shadow, hrsource]
          exact hashadow
        have heq := hother hopenb r hr hrshadow a ha hsource.symm hopena
        rw [heq] at haid
        exact absurd (Table.key_of_find hr) haid
    · rcases mem_setStatus.1 hb with ⟨hb, hbid⟩ | ⟨r', hr', rfl⟩
      · have heq := hother hopena r hr hashadow b hb hsource hopenb
        rw [heq] at hbid
        exact absurd (Table.key_of_find hr) hbid
      · rw [Option.mem_unique hr hr']

/-! ### Steps and runs -/

@[simp] theorem findings_beginWith (test : Except Failure FindingRow) (call : FindingCall) :
    (s.beginWith test call).findings = s.findings := by
  cases test <;> rfl

/-- What is known of the row that a call inserts next. -/
theorem pendingRow_spec {i : ℕ} {env : SyncEnvironment}
    (h : s.pendingRow toLowerCase i env = some r) :
    s.findings.table.find r.id = none ∧ Shadow r ∧ r.status = .open := by
  obtain ⟨scan, -, hscan⟩ := Option.bind_eq_some_iff.1 h
  obtain ⟨app, -, rfl⟩ := Option.map_eq_some_iff.1 hscan
  exact ⟨env.fresh s.findings.table, shadow_sourceKey app, rfl⟩

/-- A step that does not touch the findings. -/
theorem keeps_of_findings_eq (h : (s.step toLowerCase e).findings = s.findings)
    (hone : AtMostOne s.findings) :
    AtMostOne (s.step toLowerCase e).findings ∧
      NotRaisedAgain s.findings (s.step toLowerCase e).findings := by
  rw [h]
  exact ⟨hone, notRaisedAgain_refl _⟩

/-- **Every step.** -/
theorem step_keeps_iff (hone : AtMostOne s.findings) :
    AtMostOne (s.step toLowerCase e).findings ∧
      NotRaisedAgain s.findings (s.step toLowerCase e).findings ↔ Settled toLowerCase s e := by
  cases e with
  | detect input => exact iff_of_true (keeps_of_findings_eq rfl hone) trivial
  | look i => exact iff_of_true (keeps_of_findings_eq rfl hone) trivial
  | fail i => exact iff_of_true (keeps_of_findings_eq rfl hone) trivial
  | resolve id note riskAccepted actor =>
    exact iff_of_true (keeps_of_findings_eq (findings_beginWith _ _) hone) trivial
  | acknowledge id actor =>
    exact iff_of_true (keeps_of_findings_eq (findings_beginWith _ _) hone) trivial
  | insert i env =>
    simp only [step, Settled]
    cases hrow : s.pendingRow toLowerCase i env with
    | none =>
      exact iff_of_true ⟨hone, notRaisedAgain_refl _⟩ fun r hr => (Option.not_mem_none r hr).elim
    | some r =>
      obtain ⟨hfresh, hshadow, hopen⟩ := pendingRow_spec hrow
      cases hinsert : s.findings.insert r with
      | ok t' =>
        have hfits : r.Fits := (StoredFindings.insert_eq_ok hinsert).1
        simp only [hinsert]
        rw [insert_keeps_iff hone hinsert hfresh hshadow hopen]
        simp [hfits]
      | error failure =>
        -- only a row that does not fit is refused
        have hrefused : ¬ r.Fits := by
          intro hfits
          obtain ⟨t', hok⟩ := StoredFindings.exists_insert hfits hfresh
          rw [hok] at hinsert
          cases hinsert
        simp only [hinsert]
        refine iff_of_true ⟨hone, notRaisedAgain_refl _⟩ fun r' hr' hfits => ?_
        obtain rfl := Option.some.inj hr'
        exact absurd hfits hrefused
  | write i now =>
    simp only [step, Settled]
    cases hu : s.calls[i]?.bind FindingCall.update with
    | none =>
      exact iff_of_true ⟨hone, notRaisedAgain_refl _⟩ fun u hu => (Option.not_mem_none u hu).elim
    | some u =>
      show AtMostOne (s.findings.setStatus u now) ∧ _ ↔ _
      rw [and_iff_left (notRaisedAgain_setStatus s.findings u now), atMostOne_setStatus_iff hone]
      simp
  | raise r =>
    refine iff_of_true ?_ trivial
    by_cases hshadow : Shadow r
    · exact keeps_of_findings_eq (congrArg findings (if_pos hshadow)) hone
    · simp only [step]
      rw [if_neg hshadow]
      exact Outcome.commit_induction ⟨hone, notRaisedAgain_refl _⟩ fun t' hinsert =>
        insert_keeps hone hinsert hshadow

/-- **An app has one unresolved finding at most, and an accepted risk is not raised again**, in
exactly those runs in which every insertion finds only resolved findings of its app, and every
acknowledgement no other unresolved one. -/
theorem raised_once_iff (toLowerCase : String → String)
    (es : List (RescanEvent catalog inventory)) :
    ((∀ fs, fs <+: es → AtMostOne (Runs.run (step toLowerCase) {} fs).findings) ∧
      ∀ fs e, fs ++ [e] <+: es →
        NotRaisedAgain (Runs.run (step toLowerCase) {} fs).findings
          (step toLowerCase (Runs.run (step toLowerCase) {} fs) e).findings) ↔
      Runs.Meets (step toLowerCase) (Settled toLowerCase) {} es :=
  @Runs.always_stepwise_iff_meets _ _ _ _ (fun s : RescanState => AtMostOne s.findings)
    (fun s s' => NotRaisedAgain s.findings s'.findings)
    (fun _ _ hone => step_keeps_iff hone) {} es fun _ hr => absurd hr List.not_mem_nil

namespace Rescan

/-- An app that is not in the catalog. -/
def app : GraphDetectedApp := ⟨"0000f3a2", some "Remote Viewer", some "7.1"⟩

/-- A call of `detectShadowIt`. -/
def scan (i : ℕ) : List (RescanEvent [] [app]) :=
  [.detect ⟨[], [app], List.Perm.refl _, List.Perm.refl _⟩, .look i,
    .insert i GraphSyncService.Sample.environment]

/-- The finding is acknowledged. -/
def acknowledged : List (RescanEvent [] [app]) :=
  scan 0 ++ [.acknowledge 0 ⟨2, "user2@example.com"⟩, .write 0 10]

/-- The risk is accepted. -/
def accepted : List (RescanEvent [] [app]) :=
  scan 0 ++ [.resolve 0 none true ⟨2, "user2@example.com"⟩, .write 0 10]

/-- The state after some events. -/
def after (es : List (RescanEvent [] [app])) : RescanState :=
  Runs.run (step String.toLower) {} es

/-- Another call raises the app once more, when its finding has been acknowledged, and when its
risk has been accepted. -/
theorem raised_again : ¬ AtMostOne (after (acknowledged ++ scan 1)).findings ∧
    ¬ NotRaisedAgain (after accepted).findings (after (accepted ++ scan 1)).findings := by
  decide +kernel

end Rescan

end RescanState

end OpsHub
