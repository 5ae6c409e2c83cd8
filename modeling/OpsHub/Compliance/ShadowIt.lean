import OpsHub.Compliance.GraphSync

/-!
# Detected apps

`ShadowItDetectionService.detectShadowIt` looks every app that Intune has detected up in the
software catalog, and writes a finding for what is not whitelisted, unless there is an open
finding of the app.

* `loadCatalog`: the listings by lower-cased names, `loadCatalog_append`: the last entry wins;
* `processApp`: one round of the loop, with `Due` and `newFinding`;
* `processBatch`, `scanPages`, `detectShadowIt`: a page, all pages, a call;
* `scanPages_fst`: the pages are processed as one list.
-/

namespace OpsHub

/-- The values of `software_catalog.listing`. -/
inductive SoftwareListing
  | whitelisted
  | blacklisted
  | review
  deriving DecidableEq, Repr

/-- A row of `software_catalog`. -/
structure SoftwareCatalogEntry where
  id : Uuid
  name : String
  publisher : Option String := none
  listing : SoftwareListing := .review
  notes : Option String := none
  updatedAt : Time
  deriving DecidableEq, Repr

/-- The columns of `GraphDetectedApp` that the batch reads. -/
structure GraphDetectedApp where
  id : String
  displayName : Option String
  version : Option String
  deriving DecidableEq, Repr

/-- A finding of the app with this source is open. -/
def StoredFindings.HasOpen (t : StoredFindings) (source : String) : Prop :=
  ∃ r ∈ t.table.rows, r.source = source ∧ r.status = .open

instance (t : StoredFindings) (source : String) : Decidable (t.HasOpen source) :=
  inferInstanceAs (Decidable (∃ r ∈ t.table.rows, r.source = source ∧ r.status = .open))

namespace ShadowItDetectionService

/-! ### The catalog -/

/-- The map of `loadCatalog`. -/
abbrev Catalog := String → Option SoftwareListing

section Catalog

variable (toLowerCase : String → String)

/-- `loadCatalog`; the rows come in the order in which the database returns them. -/
def loadCatalog (rows : List SoftwareCatalogEntry) : Catalog :=
  rows.foldl (fun map row => Function.update map (toLowerCase row.name) (some row.listing))
    fun _ => none

/-- `app.displayName ?? 'Unknown'`. -/
def appName (app : GraphDetectedApp) : String := app.displayName.getD "Unknown"

/-- The listing of an app. -/
def listing (catalog : Catalog) (app : GraphDetectedApp) : Option SoftwareListing :=
  catalog (toLowerCase (appName app))

variable {toLowerCase} {rows : List SoftwareCatalogEntry} {row : SoftwareCatalogEntry}
  {key : String}

/-- **The last entry** wins. -/
theorem loadCatalog_append :
    loadCatalog toLowerCase (rows ++ [row]) =
      Function.update (loadCatalog toLowerCase rows) (toLowerCase row.name) (some row.listing) := by
  rw [loadCatalog, List.foldl_append]
  rfl

/-- A listing is that of an entry with the name. -/
theorem exists_of_loadCatalog {found : SoftwareListing}
    (h : loadCatalog toLowerCase rows key = some found) :
    ∃ row ∈ rows, toLowerCase row.name = key ∧ row.listing = found := by
  induction rows using List.reverseRecOn with
  | nil => cases h
  | append_singleton rows row ih =>
    rw [loadCatalog_append] at h
    by_cases hkey : key = toLowerCase row.name
    · rw [hkey, Function.update_self] at h
      exact ⟨row, List.mem_append_right _ List.mem_cons_self, hkey.symm, Option.some.inj h⟩
    · rw [Function.update_of_ne hkey] at h
      obtain ⟨row', hrow', hname, hlisting⟩ := ih h
      exact ⟨row', List.mem_append_left _ hrow', hname, hlisting⟩

/-- A name that an entry has is found. -/
theorem loadCatalog_ne_none (hrow : row ∈ rows) :
    loadCatalog toLowerCase rows (toLowerCase row.name) ≠ none := by
  induction rows using List.reverseRecOn with
  | nil => cases hrow
  | append_singleton rows last ih =>
    rw [loadCatalog_append]
    by_cases hkey : toLowerCase row.name = toLowerCase last.name
    · rw [hkey, Function.update_self]
      exact Option.some_ne_none _
    · rw [Function.update_of_ne hkey]
      rcases List.mem_append.1 hrow with hrow | hrow
      · exact ih hrow
      · rw [List.mem_singleton.1 hrow] at hkey
        exact absurd rfl hkey

end Catalog

/-! ### The batch -/

/-- The source of the finding of an app. -/
def sourceKey (app : GraphDetectedApp) : String := "shadow-it:" ++ app.id

/-- The severity of a finding. -/
def severity (found : Option SoftwareListing) : FindingSeverity :=
  if found = some .blacklisted then .high else .medium

/-- The row that is inserted for an app. -/
def newFinding (found : Option SoftwareListing) (app : GraphDetectedApp) (newId : Uuid)
    (now : Time) : FindingRow where
  id := newId
  assetId := none
  employeeId := none
  softwareName := appName app
  softwareVersion := app.version
  severity := severity found
  source := sourceKey app
  detectedAt := now

/-- The app is not whitelisted, and none of its findings is open. -/
def Due (t : StoredFindings) (found : Option SoftwareListing) (app : GraphDetectedApp) : Prop :=
  found ≠ some .whitelisted ∧ ¬ t.HasOpen (sourceKey app)

instance (t : StoredFindings) (found : Option SoftwareListing) (app : GraphDetectedApp) :
    Decidable (Due t found app) :=
  inferInstanceAs (Decidable (found ≠ some .whitelisted ∧ ¬ t.HasOpen (sourceKey app)))

/-- The row of the app fits its columns. -/
structure Fits (app : GraphDetectedApp) : Prop where
  softwareName : (appName app).length ≤ 200
  softwareVersion : ∀ version ∈ app.version, version.length ≤ 60
  source : (sourceKey app).length ≤ 60

section Batch

variable (toLowerCase : String → String) (env : SyncEnvironment) (catalog : Catalog)

/-- One round of the loop: the table, and the number of findings that have been added. -/
def processApp (t : StoredFindings) (app : GraphDetectedApp) :
    Except Failure (StoredFindings × ℕ) :=
  let found := listing toLowerCase catalog app
  if Due t found app then do
    let t' ← t.insert (newFinding found app (env.newId t.table) (env.now t.table))
    pure (t', 1)
  else pure (t, 0)

/-- `processBatch`, with `newFindings` new findings so far. -/
def processBatch (t : StoredFindings) (newFindings : ℕ) :
    List GraphDetectedApp → StoredFindings × Except Failure ℕ
  | [] => (t, .ok newFindings)
  | app :: apps =>
    match processApp toLowerCase env catalog t app with
    | .ok (t', added) => processBatch t' (newFindings + added) apps
    | .error e => (t, .error e)

/-- The loop over the pages of `detectShadowIt`. -/
def scanPages (t : StoredFindings) (totalScanned totalFindings : ℕ) :
    List (List GraphDetectedApp) → StoredFindings × Except Failure (ℕ × ℕ)
  | [] => (t, .ok (totalScanned, totalFindings))
  | apps :: pages =>
    match processBatch toLowerCase env catalog t 0 apps with
    | (t', .ok added) => scanPages t' (totalScanned + apps.length) (totalFindings + added) pages
    | (t', .error e) => (t', .error e)

end Batch

/-- `detectShadowIt`, when every page is fetched. -/
def detectShadowIt (toLowerCase : String → String) (env : SyncEnvironment) (enabled : Bool)
    (rows : List SoftwareCatalogEntry) (t : StoredFindings)
    (pages : List (List GraphDetectedApp)) : StoredFindings × Except Failure (ℕ × ℕ) :=
  if enabled then scanPages toLowerCase env (loadCatalog toLowerCase rows) t 0 0 pages
  else (t, .ok (0, 0))

/-! ### What a batch does -/

variable {toLowerCase : String → String} {env : SyncEnvironment} {catalog : Catalog}
  {t t' : StoredFindings} {app : GraphDetectedApp} {apps apps' : List GraphDetectedApp} {n m : ℕ}
  {found : Option SoftwareListing}

theorem fits_newFinding_iff {id : Uuid} {now : Time} :
    (newFinding found app id now).Fits ↔ Fits app :=
  ⟨fun h => ⟨h.softwareName, h.softwareVersion, h.source⟩,
    fun h => ⟨h.softwareName, h.softwareVersion, h.source⟩⟩

theorem sourceKey_injective {app' : GraphDetectedApp} :
    sourceKey app = sourceKey app' ↔ app.id = app'.id := by
  constructor
  · intro h
    have hlists := congrArg String.toList h
    rw [sourceKey, sourceKey, String.toList_append, String.toList_append] at hlists
    exact String.ext (List.append_cancel_left hlists)
  · intro h
    rw [sourceKey, sourceKey, h]

/-- The number of findings so far is not looked at. -/
theorem processBatch_fst :
    (processBatch toLowerCase env catalog t n apps).1 =
      (processBatch toLowerCase env catalog t m apps).1 := by
  induction apps generalizing t n m with
  | nil => rfl
  | cons app apps ih =>
    rw [processBatch, processBatch]
    cases processApp toLowerCase env catalog t app with
    | error e => rfl
    | ok result => exact ih

/-- Two batches, one after the other. -/
theorem processBatch_append :
    processBatch toLowerCase env catalog t n (apps ++ apps') =
      match processBatch toLowerCase env catalog t n apps with
      | (t', .ok m) => processBatch toLowerCase env catalog t' m apps'
      | (t', .error e) => (t', .error e) := by
  induction apps generalizing t n with
  | nil => rfl
  | cons app apps ih =>
    rw [List.cons_append, processBatch, processBatch]
    cases processApp toLowerCase env catalog t app with
    | error e => rfl
    | ok result => exact ih

/-- **The pages** are processed as one list. -/
theorem scanPages_fst (pages : List (List GraphDetectedApp)) :
    (scanPages toLowerCase env catalog t n m pages).1 =
      (processBatch toLowerCase env catalog t 0 pages.flatten).1 := by
  induction pages generalizing t n m with
  | nil => rfl
  | cons apps pages ih =>
    rw [scanPages, List.flatten_cons, processBatch_append]
    cases processBatch toLowerCase env catalog t 0 apps with
    | mk t' result =>
      cases result with
      | error e => rfl
      | ok added => exact ih.trans processBatch_fst

end ShadowItDetectionService

end OpsHub
