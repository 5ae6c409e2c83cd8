import OpsHub.Compliance.ShadowIt
import OpsHub.Lib.Runs

/-!
# Blacklisted software

The names in the software catalog are unique as they are written, and `loadCatalog` puts the
listings into a map by lower-cased names.

* `SoftwareCatalog`: the table with its unique index, `addSoftware`, `updateSoftware`;
* `Adds`: what a batch adds to the findings (`processBatch_adds`);
* `processBatch_completes`, `processBatch_blocked`: when it gets to its end, and where it stops;
* `flagged_iff`: every detected app with a blacklisted name gets a finding of high severity,
  in whatever order the catalog is read, exactly if all entries with the name are blacklisted and
  no app up to it has a row that the database refuses.
-/

namespace OpsHub

/-! ### The catalog -/

/-- `UpsertSoftwareInput`. -/
structure UpsertSoftwareInput where
  name : String
  publisher : Option String := none
  listing : SoftwareListing
  notes : Option String := none

/-- `Partial<UpsertSoftwareInput>`. -/
structure SoftwarePatch where
  name : Option String := none
  publisher : Option (Option String) := none
  listing : Option SoftwareListing := none
  notes : Option (Option String) := none

/-- The row fits the columns `name` and `publisher`. -/
def SoftwareCatalogEntry.Fits (row : SoftwareCatalogEntry) : Prop :=
  row.name.length ≤ 200 ∧ ∀ publisher ∈ row.publisher, publisher.length ≤ 200

instance : DecidablePred SoftwareCatalogEntry.Fits := fun row =>
  inferInstanceAs (Decidable (row.name.length ≤ 200 ∧
    ∀ publisher ∈ row.publisher, publisher.length ≤ 200))

/-- `software_catalog` as a table of rows. -/
abbrev SoftwareTable := Table (fun row : SoftwareCatalogEntry => row.id)

/-- `software_catalog`: the rows fit, and `uq_software_name` holds. -/
structure SoftwareCatalog where
  table : SoftwareTable
  fits : ∀ row ∈ table.rows, row.Fits
  unique : table.Unique (fun row => some row.name)

namespace SoftwareCatalog

/-- The table without rows. -/
def empty : SoftwareCatalog where
  table := Table.empty _
  fits _ hrow := absurd hrow List.not_mem_nil
  unique _ hrow := absurd hrow List.not_mem_nil

/-- A statement whose result is checked against the columns and the index. -/
def checked (table : SoftwareTable) : Except Failure SoftwareCatalog :=
  if fits : ∀ row ∈ table.rows, row.Fits then
    if unique : table.Unique (fun row => some row.name) then .ok ⟨table, fits, unique⟩
    else .error (.duplicateKey "software_catalog")
  else .error (.error "value too long for type character varying")

/-- `ComplianceDrizzleRepository.createSoftware`. -/
def createSoftware (catalog : SoftwareCatalog) (input : UpsertSoftwareInput) (newId : Uuid)
    (now : Time) : Except Failure SoftwareCatalog := do
  let table ← Outcome.orThrow (.duplicateKey "software_catalog") (catalog.table.insert
    { id := newId
      name := input.name
      publisher := input.publisher
      listing := input.listing
      notes := input.notes
      updatedAt := now })
  checked table

/-- The columns that `ComplianceDrizzleRepository.updateSoftware` sets. -/
def patched (patch : SoftwarePatch) (now : Time) (row : SoftwareCatalogEntry) :
    SoftwareCatalogEntry :=
  { row with
    name := patch.name.getD row.name
    publisher := patch.publisher.getD row.publisher
    listing := patch.listing.getD row.listing
    notes := patch.notes.getD row.notes
    updatedAt := now }

theorem id_patched (patch : SoftwarePatch) (now : Time) (row : SoftwareCatalogEntry) :
    (patched patch now row).id = row.id := rfl

/-- `ComplianceService.addSoftware`. -/
def addSoftware (catalog : SoftwareCatalog) (input : UpsertSoftwareInput) (newId : Uuid)
    (now : Time) : Except Failure SoftwareCatalog :=
  if ∃ row ∈ catalog.table.rows, row.name = input.name then
    .error (.conflict "CONFLICT" "Software with this name already exists")
  else catalog.createSoftware input newId now

/-- `ComplianceService.updateSoftware`. -/
def updateSoftware (catalog : SoftwareCatalog) (id : Uuid) (patch : SoftwarePatch) (now : Time) :
    Except Failure SoftwareCatalog := do
  let _ ← Outcome.orThrow (.notFound "SOFTWARE_NOT_FOUND" "Software not found")
    (catalog.table.find id)
  checked (catalog.table.update id (patched patch now) (id_patched patch now))

/-- A call. -/
inductive Event
  | add (input : UpsertSoftwareInput) (newId : Uuid) (now : Time)
  | update (id : Uuid) (patch : SoftwarePatch) (now : Time)

/-- The catalog after a call. -/
def step (catalog : SoftwareCatalog) : Event → SoftwareCatalog
  | .add input newId now => Outcome.commit catalog (catalog.addSoftware input newId now)
  | .update id patch now => Outcome.commit catalog (catalog.updateSoftware id patch now)

end SoftwareCatalog

/-- The detected apps, page by page; an id names one app. -/
structure AppInventory where
  pages : List (List GraphDetectedApp)
  same : ∀ a ∈ pages.flatten, ∀ b ∈ pages.flatten, a.id = b.id → a = b

/-- The detected apps. -/
def AppInventory.apps (inventory : AppInventory) : List GraphDetectedApp := inventory.pages.flatten

namespace ShadowItDetectionService

/-! ### The property -/

section Property

variable (toLowerCase : String → String) (rows : List SoftwareCatalogEntry) (t : StoredFindings)
  (app : GraphDetectedApp)

/-- The entry has the name of the app, up to case. -/
def Matches (row : SoftwareCatalogEntry) : Prop :=
  toLowerCase row.name = toLowerCase (appName app)

/-- Some entry with the name of the app is blacklisted. -/
def Blacklisted : Prop := ∃ row ∈ rows, Matches toLowerCase app row ∧ row.listing = .blacklisted

/-- Every app with a blacklisted name that had no findings has one of high severity. -/
def Flagged (apps : List GraphDetectedApp) (t' : StoredFindings) : Prop :=
  ∀ app ∈ apps, Blacklisted toLowerCase rows app → ¬ t.HasSource (sourceKey app) →
    ∃ r ∈ t'.table.rows, r.source = sourceKey app ∧ r.severity = .high

/-- The app does not stop a batch: its row fits, or it is passed over, in whatever order the
catalog is read. -/
def Passes : Prop :=
  Fits app ∨ t.HasOpen (sourceKey app) ∨
    (∃ row ∈ rows, Matches toLowerCase app row) ∧
      ∀ row ∈ rows, Matches toLowerCase app row → row.listing = .whitelisted

end Property

/-! ### What a batch does -/

section Batch

variable {toLowerCase : String → String} {env : SyncEnvironment} {catalog : Catalog}
  {t t' t'' : StoredFindings} {app : GraphDetectedApp} {apps before after : List GraphDetectedApp}
  {n : ℕ} {result : Except Failure ℕ}

/-- What is added: findings of the apps, with the severity of their listings. -/
structure Adds (toLowerCase : String → String) (catalog : Catalog) (apps : List GraphDetectedApp)
    (t t' : StoredFindings) : Prop where
  kept : ∀ r ∈ t.table.rows, r ∈ t'.table.rows
  added : ∀ r ∈ t'.table.rows, r ∈ t.table.rows ∨ ∃ app ∈ apps, Fits app ∧
    r.source = sourceKey app ∧ r.severity = severity (listing toLowerCase catalog app)

theorem Adds.refl (t : StoredFindings) : Adds toLowerCase catalog apps t t :=
  ⟨fun _ h => h, fun _ h => Or.inl h⟩

theorem Adds.trans (h : Adds toLowerCase catalog before t t')
    (h' : Adds toLowerCase catalog after t' t'') :
    Adds toLowerCase catalog (before ++ after) t t'' := by
  refine ⟨fun r hr => h'.kept r (h.kept r hr), fun r hr => ?_⟩
  rcases h'.added r hr with hr | ⟨app, happ, hrest⟩
  · rcases h.added r hr with hr | ⟨app, happ, hrest⟩
    · exact Or.inl hr
    · exact Or.inr ⟨app, List.mem_append_left _ happ, hrest⟩
  · exact Or.inr ⟨app, List.mem_append_right _ happ, hrest⟩

theorem Adds.hasOpen {source : String} (h : Adds toLowerCase catalog apps t t')
    (hopen : t.HasOpen source) : t'.HasOpen source := by
  obtain ⟨r, hr, hsource, hstatus⟩ := hopen
  exact ⟨r, h.kept r hr, hsource, hstatus⟩

/-- **One round**: an app that is not due is passed over, one that fits gets an open finding, and
another one is refused. -/
theorem processApp_cases :
    (¬ Due t (listing toLowerCase catalog app) app ∧
        processApp toLowerCase env catalog t app = .ok (t, 0)) ∨
      (Due t (listing toLowerCase catalog app) app ∧ Fits app ∧ ∃ t',
        processApp toLowerCase env catalog t app = .ok (t', 1) ∧
          Adds toLowerCase catalog [app] t t' ∧ t'.HasOpen (sourceKey app)) ∨
      (Due t (listing toLowerCase catalog app) app ∧ ¬ Fits app ∧
        ∃ e, processApp toLowerCase env catalog t app = .error e) := by
  by_cases hdue : Due t (listing toLowerCase catalog app) app
  · right
    simp only [processApp, if_pos hdue]
    cases hinsert : t.insert (newFinding (listing toLowerCase catalog app) app
        (env.newId t.table) (env.now t.table)) with
    | ok t' =>
      obtain ⟨hfits, htable⟩ := StoredFindings.insert_eq_ok hinsert
      have hrows : ∀ r, r ∈ t'.table.rows ↔ _ := fun r => Table.mem_insert htable
      refine Or.inl ⟨hdue, fits_newFinding_iff.1 hfits, t', rfl,
        ⟨fun r hr => ?_, fun r hr => ?_⟩, ?_⟩
      · exact (hrows r).2 (Or.inl hr)
      · rcases (hrows r).1 hr with hr | rfl
        · exact Or.inl hr
        · exact Or.inr ⟨app, List.mem_cons_self, fits_newFinding_iff.1 hfits, rfl, rfl⟩
      · exact ⟨_, (hrows _).2 (Or.inr rfl), rfl, rfl⟩
    | error e =>
      refine Or.inr ⟨hdue, fun hfits => ?_, e, rfl⟩
      obtain ⟨t', hok⟩ := StoredFindings.exists_insert (t := t)
        (fits_newFinding_iff.2 hfits) (env.fresh t.table)
      rw [hok] at hinsert
      cases hinsert
  · left
    simp only [processApp, if_neg hdue]
    exact ⟨hdue, rfl⟩

/-- **A batch** adds findings of its apps only. -/
theorem processBatch_adds (h : processBatch toLowerCase env catalog t n apps = (t', result)) :
    Adds toLowerCase catalog apps t t' := by
  induction apps generalizing t n with
  | nil =>
    obtain ⟨rfl, -⟩ := Prod.mk.inj h
    exact Adds.refl t
  | cons app apps ih =>
    rw [processBatch] at h
    have hfirst : ∀ t₁ m, processApp toLowerCase env catalog t app = .ok (t₁, m) →
        Adds toLowerCase catalog [app] t t₁ := by
      intro t₁ m hround
      rcases @processApp_cases toLowerCase env catalog t app with ⟨-, hok⟩ |
        ⟨-, -, t₂, hok, hadds, -⟩ | ⟨-, -, e, herror⟩
      · rw [hok] at hround
        obtain ⟨rfl, -⟩ := Prod.mk.inj (Except.ok.inj hround)
        exact Adds.refl t
      · rw [hok] at hround
        obtain ⟨rfl, -⟩ := Prod.mk.inj (Except.ok.inj hround)
        exact hadds
      · rw [herror] at hround
        cases hround
    cases hround : processApp toLowerCase env catalog t app with
    | error e =>
      rw [hround] at h
      obtain ⟨rfl, -⟩ := Prod.mk.inj h
      exact Adds.refl t
    | ok round =>
      rw [hround] at h
      exact (hfirst round.1 round.2 hround).trans (ih h)

/-- **A batch** of apps that do not stop it is completed, and every app of it that is not
whitelisted has an open finding then. -/
theorem processBatch_completes (h : ∀ app ∈ apps, Fits app ∨ t.HasOpen (sourceKey app) ∨
      listing toLowerCase catalog app = some .whitelisted) :
    ∃ t' m, processBatch toLowerCase env catalog t n apps = (t', .ok m) ∧
      ∀ app ∈ apps, listing toLowerCase catalog app ≠ some .whitelisted →
        t'.HasOpen (sourceKey app) := by
  induction apps generalizing t n with
  | nil => exact ⟨t, n, rfl, fun _ happ => absurd happ List.not_mem_nil⟩
  | cons app apps ih =>
    obtain ⟨t₁, added, hround, hadds, hopen⟩ : ∃ t₁ added,
        processApp toLowerCase env catalog t app = .ok (t₁, added) ∧
          Adds toLowerCase catalog [app] t t₁ ∧
          (listing toLowerCase catalog app ≠ some .whitelisted → t₁.HasOpen (sourceKey app)) := by
      rcases @processApp_cases toLowerCase env catalog t app with ⟨hdue, hok⟩ |
        ⟨-, -, t₁, hok, hadds, hopen⟩ | ⟨hdue, hfits, -⟩
      · refine ⟨t, 0, hok, Adds.refl t, fun hlisting => ?_⟩
        by_contra hclosed
        exact hdue ⟨hlisting, hclosed⟩
      · exact ⟨t₁, 1, hok, hadds, fun _ => hopen⟩
      · rcases h app List.mem_cons_self with hfit | hopen | hlisting
        · exact absurd hfit hfits
        · exact absurd hopen hdue.2
        · exact absurd hlisting hdue.1
    have hrest : ∀ app ∈ apps, Fits app ∨ t₁.HasOpen (sourceKey app) ∨
        listing toLowerCase catalog app = some .whitelisted := fun app' happ' =>
      (h app' (List.mem_cons_of_mem _ happ')).imp_right (Or.imp_left hadds.hasOpen)
    obtain ⟨t', m, hbatch, hopens⟩ := @ih t₁ (n + added) hrest
    refine ⟨t', m, ?_, fun app' happ' hlisting => ?_⟩
    · rw [processBatch, hround]
      exact hbatch
    · rcases List.mem_cons.1 happ' with rfl | happ'
      · exact (processBatch_adds hbatch).hasOpen (hopen hlisting)
      · exact hopens app' happ' hlisting

/-- **An app that stops the batch**: nothing of the apps after it is added. -/
theorem processBatch_blocked
    (hsame : ∀ a ∈ before ++ app :: after, ∀ b ∈ before ++ app :: after, a.id = b.id → a = b)
    (hfits : ¬ Fits app) (hclosed : ¬ t.HasOpen (sourceKey app))
    (hlisting : listing toLowerCase catalog app ≠ some .whitelisted) :
    Adds toLowerCase catalog before t
      (processBatch toLowerCase env catalog t n (before ++ app :: after)).1 := by
  rw [processBatch_append]
  cases hbatch : processBatch toLowerCase env catalog t n before with
  | mk t' result =>
    have hadds := processBatch_adds hbatch
    cases result with
    | error e => exact hadds
    | ok m =>
      have hclosed' : ¬ t'.HasOpen (sourceKey app) := by
        rintro ⟨r, hr, hsource, hstatus⟩
        rcases hadds.added r hr with hr | ⟨a, ha, hafits, hasource, -⟩
        · exact hclosed ⟨r, hr, hsource, hstatus⟩
        · have heq : a = app := hsame a (List.mem_append_left _ ha) app
            (List.mem_append_right _ List.mem_cons_self)
            (sourceKey_injective.1 (hasource.symm.trans hsource))
          rw [heq] at hafits
          exact hfits hafits
      rcases @processApp_cases toLowerCase env catalog t' app with ⟨hdue, -⟩ |
        ⟨-, hfit, -⟩ | ⟨-, -, e, herror⟩
      · exact absurd ⟨hlisting, hclosed'⟩ hdue
      · exact absurd hfit hfits
      · simp only [processBatch, herror]
        exact hadds

end Batch

/-! ### Blacklisted apps -/

section Flagged

variable {toLowerCase : String → String} {rows order : List SoftwareCatalogEntry}
  {row : SoftwareCatalogEntry} {env : SyncEnvironment} {t : StoredFindings}
  {app : GraphDetectedApp} {found : SoftwareListing}

/-- The table that a call leaves. -/
theorem detectShadowIt_fst (pages : List (List GraphDetectedApp)) :
    (detectShadowIt toLowerCase env true rows t pages).1 =
      (processBatch toLowerCase env (loadCatalog toLowerCase rows) t 0 pages.flatten).1 :=
  scanPages_fst pages

/-- The listing of an app whose entries are all listed alike. -/
theorem listing_of_forall (hmatch : ∃ row ∈ rows, Matches toLowerCase app row)
    (hall : ∀ row ∈ rows, Matches toLowerCase app row → row.listing = found) :
    listing toLowerCase (loadCatalog toLowerCase rows) app = some found := by
  obtain ⟨row, hrow, hname⟩ := hmatch
  have hfound := @loadCatalog_ne_none toLowerCase rows row hrow
  rw [hname] at hfound
  obtain ⟨other, hother⟩ := Option.ne_none_iff_exists'.1 hfound
  obtain ⟨row', hrow', hname', rfl⟩ := exists_of_loadCatalog hother
  rw [listing, hother, hall row' hrow' hname']

/-- An order in which an entry comes last. -/
theorem exists_order_last (hrow : row ∈ rows) (hname : Matches toLowerCase app row) :
    ∃ order, order.Perm rows ∧
      listing toLowerCase (loadCatalog toLowerCase order) app = some row.listing := by
  refine ⟨rows.erase row ++ [row], ?_, ?_⟩
  · exact (List.perm_append_singleton row _).trans (List.perm_cons_erase hrow).symm
  · rw [listing, loadCatalog_append, ← hname, Function.update_self]

/-- An order in which an app is not whitelisted, if there is one. -/
theorem exists_order_not_whitelisted
    (h : ¬ ((∃ row ∈ rows, Matches toLowerCase app row) ∧
      ∀ row ∈ rows, Matches toLowerCase app row → row.listing = .whitelisted)) :
    ∃ order, order.Perm rows ∧
      listing toLowerCase (loadCatalog toLowerCase order) app ≠ some .whitelisted := by
  by_cases hmatch : ∃ row ∈ rows, Matches toLowerCase app row
  · have hother : ∃ row ∈ rows, Matches toLowerCase app row ∧ row.listing ≠ .whitelisted := by
      by_contra hnone
      push Not at hnone
      exact h ⟨hmatch, hnone⟩
    obtain ⟨row, hrow, hname, hlisting⟩ := hother
    obtain ⟨order, hperm, hfound⟩ := exists_order_last hrow hname
    refine ⟨order, hperm, ?_⟩
    rw [hfound]
    exact fun heq => hlisting (Option.some.inj heq)
  · refine ⟨rows, List.Perm.refl rows, fun hwhite => hmatch ?_⟩
    obtain ⟨row, hrow, hname, -⟩ := exists_of_loadCatalog hwhite
    exact ⟨row, hrow, hname⟩

/-- The severity of a finding of an app that had none. -/
theorem severity_of_adds {toLowerCase : String → String} {catalog : Catalog} {r : FindingRow}
    {apps before : List GraphDetectedApp} {t' : StoredFindings}
    (hsame : ∀ a ∈ apps, ∀ b ∈ apps, a.id = b.id → a = b) (hbefore : ∀ a ∈ before, a ∈ apps)
    (happ : app ∈ apps) (hnew : ¬ t.HasSource (sourceKey app))
    (hadds : Adds toLowerCase catalog before t t') (hr : r ∈ t'.table.rows)
    (hsource : r.source = sourceKey app) :
    app ∈ before ∧ r.severity = severity (listing toLowerCase catalog app) := by
  rcases hadds.added r hr with hr | ⟨a, ha, -, hasource, hseverity⟩
  · exact absurd ⟨r, hr, hsource⟩ hnew
  · have heq : a = app :=
      hsame a (hbefore a ha) app happ (sourceKey_injective.1 (hasource.symm.trans hsource))
    rw [heq] at ha hseverity
    exact ⟨ha, hseverity⟩

/-- An app that is flagged in every order has blacklisted entries only. -/
theorem blacklisted_of_flagged {inventory : AppInventory}
    (h : ∀ order, order.Perm rows → Flagged toLowerCase rows t inventory.apps
      (detectShadowIt toLowerCase env true order t inventory.pages).1)
    (happ : app ∈ inventory.apps) (hblack : Blacklisted toLowerCase rows app)
    (hnew : ¬ t.HasSource (sourceKey app)) (hrow : row ∈ rows)
    (hname : Matches toLowerCase app row) : row.listing = .blacklisted := by
  obtain ⟨order, hperm, hlisting⟩ := exists_order_last hrow hname
  obtain ⟨r, hr, hsource, hhigh⟩ := h order hperm app happ hblack hnew
  rw [detectShadowIt_fst] at hr
  obtain ⟨-, hseverity⟩ := severity_of_adds inventory.same (fun _ ha => ha) happ hnew
    (processBatch_adds rfl) hr hsource
  rw [hhigh, hlisting, severity] at hseverity
  by_contra hother
  rw [if_neg fun heq => hother (Option.some.inj heq)] at hseverity
  cases hseverity

/-- No app up to one that is flagged in every order stops the batch. -/
theorem passes_of_flagged {inventory : AppInventory} {before after : List GraphDetectedApp}
    {blocker : GraphDetectedApp}
    (h : ∀ order, order.Perm rows → Flagged toLowerCase rows t inventory.apps
      (detectShadowIt toLowerCase env true order t inventory.pages).1)
    (happs : inventory.apps = before ++ app :: after) (hfirst : app ∉ before)
    (hblack : Blacklisted toLowerCase rows app) (hnew : ¬ t.HasSource (sourceKey app))
    (hblocker : blocker ∈ before ++ [app]) : Passes toLowerCase rows t blocker := by
  by_contra hblocks
  have happ : app ∈ inventory.apps := by
    rw [happs]
    exact List.mem_append_right _ List.mem_cons_self
  obtain ⟨hfits, hrest⟩ := not_or.1 hblocks
  obtain ⟨hclosed, hwhite⟩ := not_or.1 hrest
  obtain ⟨order, hperm, hlisting⟩ := exists_order_not_whitelisted hwhite
  obtain ⟨r, hr, hsource, -⟩ := h order hperm app happ hblack hnew
  obtain ⟨early, late, hsplit⟩ := List.append_of_mem hblocker
  have hall : inventory.pages.flatten = early ++ blocker :: (late ++ after) := by
    have happend : before ++ app :: after = (before ++ [app]) ++ after := by simp
    show inventory.apps = _
    rw [happs, happend, hsplit, List.append_assoc, List.cons_append]
  have hsame := inventory.same
  rw [hall] at hsame
  rw [detectShadowIt_fst, hall] at hr
  rw [AppInventory.apps, hall] at happ
  obtain ⟨hearly, -⟩ := severity_of_adds hsame (fun a ha => List.mem_append_left _ ha) happ hnew
    (processBatch_blocked hsame hfits hclosed hlisting) hr hsource
  -- what comes before the blocking app comes before the first place of `app`
  obtain ⟨gs, hgs⟩ : early <+: before := by
    rcases List.eq_nil_or_concat' late with rfl | ⟨late', last, rfl⟩
    · exact ⟨[], by rw [List.append_nil]; exact (List.append_inj' hsplit rfl).1.symm⟩
    · have hconcat : before ++ [app] = (early ++ blocker :: late') ++ [last] := by
        rw [hsplit, List.append_assoc, List.cons_append]
      exact ⟨blocker :: late', (List.append_inj' hconcat rfl).1.symm⟩
  exact hfirst (hgs ▸ List.mem_append_left gs hearly)

/-- **Blacklisted software is flagged**, in whatever order the catalog is read, exactly if for
every app with a blacklisted name that has no findings all entries with this name are
blacklisted, and no app up to it has a row that the database refuses. -/
theorem flagged_iff (toLowerCase : String → String) (es : List SoftwareCatalog.Event)
    (env : SyncEnvironment) (t : StoredFindings) (inventory : AppInventory) :
    (∀ order, order.Perm (Runs.run SoftwareCatalog.step .empty es).table.rows →
      Flagged toLowerCase (Runs.run SoftwareCatalog.step .empty es).table.rows t inventory.apps
        (detectShadowIt toLowerCase env true order t inventory.pages).1) ↔
    ∀ app ∈ inventory.apps,
      Blacklisted toLowerCase (Runs.run SoftwareCatalog.step .empty es).table.rows app →
      ¬ t.HasSource (sourceKey app) →
        (∀ row ∈ (Runs.run SoftwareCatalog.step .empty es).table.rows,
          Matches toLowerCase app row → row.listing = .blacklisted) ∧
        ∃ before after, inventory.apps = before ++ app :: after ∧ ∀ app' ∈ before ++ [app],
          Passes toLowerCase (Runs.run SoftwareCatalog.step .empty es).table.rows t app' := by
  generalize (Runs.run SoftwareCatalog.step .empty es).table.rows = rows
  constructor
  · intro h app happ hblack hnew
    refine ⟨fun row hrow hname => blacklisted_of_flagged h happ hblack hnew hrow hname, ?_⟩
    obtain ⟨before, after, happs, hfirst⟩ := List.eq_append_cons_of_mem happ
    exact ⟨before, after, happs, fun blocker hblocker =>
      passes_of_flagged h happs hfirst hblack hnew hblocker⟩
  · intro h order hperm app happ hblack hnew
    obtain ⟨hall, before, after, happs, hpasses⟩ := h app happ hblack hnew
    have hmem : ∀ row, row ∈ order ↔ row ∈ rows := fun row => hperm.mem_iff
    have hlisting :
        listing toLowerCase (loadCatalog toLowerCase order) app = some .blacklisted := by
      obtain ⟨row, hrow, hname, -⟩ := hblack
      exact listing_of_forall ⟨row, (hmem row).2 hrow, hname⟩
        fun row' hrow' hname' => hall row' ((hmem row').1 hrow') hname'
    have hgoes : ∀ app' ∈ before ++ [app], Fits app' ∨ t.HasOpen (sourceKey app') ∨
        listing toLowerCase (loadCatalog toLowerCase order) app' = some .whitelisted := by
      intro app' happ'
      refine (hpasses app' happ').imp_right (Or.imp_right fun hwhite => ?_)
      obtain ⟨⟨row, hrow, hname⟩, hwhites⟩ := hwhite
      exact listing_of_forall ⟨row, (hmem row).2 hrow, hname⟩
        fun row' hrow' hname' => hwhites row' ((hmem row').1 hrow') hname'
    obtain ⟨t₁, m, hbatch, hopens⟩ := @processBatch_completes _ env _ _ _ 0 hgoes
    obtain ⟨r, hr, hsource, -⟩ := hopens app (List.mem_append_right _ List.mem_cons_self) (by
      rw [hlisting]
      decide)
    have hbefore : ∀ a ∈ before ++ [app], a ∈ inventory.apps := by
      rw [happs]
      intro a ha
      rcases List.mem_append.1 ha with ha | ha
      · exact List.mem_append_left _ ha
      · exact List.mem_append_right _ (List.mem_singleton.1 ha ▸ List.mem_cons_self)
    obtain ⟨-, hseverity⟩ := severity_of_adds inventory.same hbefore happ hnew
      (processBatch_adds hbatch) hr hsource
    refine ⟨r, ?_, hsource, ?_⟩
    · have happend : inventory.pages.flatten = (before ++ [app]) ++ after := by
        show inventory.apps = _
        rw [happs, List.append_assoc, List.singleton_append]
      rw [detectShadowIt_fst, happend, processBatch_append, hbatch]
      exact (processBatch_adds rfl).kept r hr
    · rw [hseverity, hlisting]
      rfl

namespace Blacklist

/-- Two entries whose names differ in case. -/
def events : List SoftwareCatalog.Event :=
  [.add ⟨"uTorrent", none, .blacklisted, none⟩ 1 0, .add ⟨"utorrent", none, .whitelisted, none⟩ 2 1]

/-- The app is detected. -/
def inventory : AppInventory where
  pages := [[⟨"0000f3a2", some "uTorrent", some "3.6"⟩]]
  same _ ha _ hb _ := (List.mem_singleton.1 ha).trans (List.mem_singleton.1 hb).symm

/-- Both entries are accepted; read in the order of their insertion, they leave the blacklisted
app without a finding. -/
theorem not_flagged : ¬ ∀ order,
    order.Perm (Runs.run SoftwareCatalog.step .empty events).table.rows →
      Flagged String.toLower (Runs.run SoftwareCatalog.step .empty events).table.rows .empty
        inventory.apps (detectShadowIt String.toLower GraphSyncService.Sample.environment true
          order .empty inventory.pages).1 := by
  intro h
  have hblack : Blacklisted String.toLower
      (Runs.run SoftwareCatalog.step .empty events).table.rows
        ⟨"0000f3a2", some "uTorrent", some "3.6"⟩ :=
    ⟨⟨1, "uTorrent", none, .blacklisted, none, 0⟩, by decide +kernel, rfl, rfl⟩
  have hlisting : listing String.toLower (loadCatalog String.toLower
      (Runs.run SoftwareCatalog.step .empty events).table.rows)
        ⟨"0000f3a2", some "uTorrent", some "3.6"⟩ = some .whitelisted := by
    have hentries : (Runs.run SoftwareCatalog.step .empty events).table.rows =
        [⟨1, "uTorrent", none, .blacklisted, none, 0⟩] ++
          [⟨2, "utorrent", none, .whitelisted, none, 1⟩] := by decide +kernel
    have hname : String.toLower "uTorrent" = "utorrent" := by decide +kernel
    have hname' : String.toLower "utorrent" = "utorrent" := by decide +kernel
    rw [hentries, listing, loadCatalog_append, appName, Option.getD_some, hname, hname',
      Function.update_self]
  have hrows : (detectShadowIt String.toLower GraphSyncService.Sample.environment true
      (Runs.run SoftwareCatalog.step .empty events).table.rows .empty
        inventory.pages).1.table.rows = [] := by
    have hround : processApp String.toLower GraphSyncService.Sample.environment
        (loadCatalog String.toLower (Runs.run SoftwareCatalog.step .empty events).table.rows)
          .empty ⟨"0000f3a2", some "uTorrent", some "3.6"⟩ = .ok (.empty, 0) :=
      if_neg fun hdue => hdue.1 hlisting
    have hpages : inventory.pages.flatten = [⟨"0000f3a2", some "uTorrent", some "3.6"⟩] := rfl
    rw [detectShadowIt_fst, hpages, processBatch, hround]
    rfl
  obtain ⟨r, hr, -⟩ := h _ (List.Perm.refl _) _ List.mem_cons_self hblack (by decide +kernel)
  rw [hrows] at hr
  cases hr

end Blacklist

end Flagged

end ShadowItDetectionService

end OpsHub
