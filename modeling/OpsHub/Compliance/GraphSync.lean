import OpsHub.Compliance.ComplianceService

/-!
# Findings from the device sync

`GraphSyncService.processDeviceBatch` writes a finding for every device of a page that has
issues, unless there is one with the same source.  The page is no transaction: an insertion that
the database refuses ends the loop, and what has been inserted before stays.

* `StoredFindings`: the findings with the widths of their columns;
* `sourceKey`: what a finding is looked up by, `sourceKey_injective`;
* `processDevice_of_not_both`, `processDevice_of_both`: one round of the loop;
* `processDeviceBatch_spec`, `processDeviceBatch_of_both`: a page;
* `covered_iff`: a page is processed as it should be if and only if no device of it is
  noncompliant and unencrypted.
-/

namespace OpsHub

/-! ### Devices -/

/-- The values of `GraphDevice.complianceState`. -/
inductive DeviceComplianceState
  | compliant
  | noncompliant
  | unknown
  | notApplicable
  | inGracePeriod
  | configManager
  deriving DecidableEq, Repr

/-- The columns of `GraphDevice` that the batch reads. -/
structure GraphDevice where
  id : String
  deviceName : Option String
  osVersion : Option String
  complianceState : Option DeviceComplianceState
  isEncrypted : Bool
  deriving DecidableEq, Repr

namespace GraphDevice

/-- What Graph promises: an id of 36 characters, names and versions that fit their columns. -/
structure WellFormed (d : GraphDevice) : Prop where
  id : d.id.length = 36
  name : ∀ name ∈ d.deviceName, name.length ≤ 200
  version : ∀ version ∈ d.osVersion, version.length ≤ 60

/-- The device is noncompliant. -/
def Noncompliant (d : GraphDevice) : Prop := d.complianceState = some .noncompliant

/-- The device has both issues. -/
def BothIssues (d : GraphDevice) : Prop := d.Noncompliant ∧ d.isEncrypted = false

instance : DecidablePred Noncompliant := fun d =>
  inferInstanceAs (Decidable (d.complianceState = some .noncompliant))

instance : DecidablePred BothIssues := fun d =>
  inferInstanceAs (Decidable (d.Noncompliant ∧ d.isEncrypted = false))

end GraphDevice

/-! ### The table with the widths of its columns -/

/-- The row fits the columns `software_name`, `software_version` and `source`. -/
structure FindingRow.Fits (r : FindingRow) : Prop where
  softwareName : r.softwareName.length ≤ 200
  softwareVersion : ∀ version ∈ r.softwareVersion, version.length ≤ 60
  source : r.source.length ≤ 60

theorem FindingRow.fits_iff (r : FindingRow) : r.Fits ↔ r.softwareName.length ≤ 200 ∧
    (∀ version ∈ r.softwareVersion, version.length ≤ 60) ∧ r.source.length ≤ 60 :=
  ⟨fun h => ⟨h.softwareName, h.softwareVersion, h.source⟩, fun h => ⟨h.1, h.2.1, h.2.2⟩⟩

instance : DecidablePred FindingRow.Fits := fun r => decidable_of_iff _ r.fits_iff.symm

/-- `compliance_findings`: every stored row fits. -/
structure StoredFindings where
  table : Findings
  fits : ∀ r ∈ table.rows, r.Fits

namespace StoredFindings

/-- The table without rows. -/
def empty : StoredFindings := ⟨Table.empty _, fun _ hr => nomatch hr⟩

/-- An insertion. -/
def insert (t : StoredFindings) (r : FindingRow) : Except Failure StoredFindings :=
  if hr : r.Fits then
    match h : t.table.insert r with
    | some table => .ok ⟨table, Table.forall_mem_insert h t.fits hr⟩
    | none => .error (.duplicateKey "compliance_findings")
  else .error (.error "value too long for type character varying")

/-- A finding with this source is stored. -/
def HasSource (t : StoredFindings) (source : String) : Prop :=
  ∃ r ∈ t.table.rows, r.source = source

instance (t : StoredFindings) (source : String) : Decidable (t.HasSource source) :=
  inferInstanceAs (Decidable (∃ r ∈ t.table.rows, r.source = source))

variable {t t' : StoredFindings} {r : FindingRow}

/-- An insertion that goes through adds the row, which fits. -/
theorem insert_eq_ok (h : t.insert r = .ok t') :
    r.Fits ∧ t.table.insert r = some t'.table := by
  unfold insert at h
  split at h
  · rename_i hr
    split at h
    · rename_i table hins
      obtain rfl := Except.ok.inj h
      exact ⟨hr, hins⟩
    · cases h
  · cases h

/-- A row that fits, with a new id, is inserted. -/
theorem exists_insert (hr : r.Fits) (hid : t.table.find r.id = none) :
    ∃ t', t.insert r = .ok t' := by
  obtain ⟨table, htable⟩ := Table.exists_insert hid
  unfold insert
  rw [dif_pos hr]
  split
  · exact ⟨_, rfl⟩
  · rename_i hnone
    rw [htable] at hnone
    cases hnone

end StoredFindings

/-! ### The batch -/

/-- The ids and the clock that a sync draws on; ids are new. -/
structure SyncEnvironment where
  newId : Findings → Uuid
  fresh : ∀ t : Findings, t.find (newId t) = none
  now : Findings → Time

namespace GraphSyncService

/-- The issues of a device, in the order in which they are found. -/
def issues (d : GraphDevice) : List String :=
  (if d.Noncompliant then ["noncompliant"] else []) ++
    (if d.isEncrypted then [] else ["unencrypted"])

/-- `issues.sort()`. -/
def sortedIssues (d : GraphDevice) : List String :=
  (issues d).mergeSort (fun a b => decide (a ≤ b))

/-- The source of the finding of a device. -/
def sourceKey (d : GraphDevice) : String :=
  "intune:" ++ d.id ++ ":" ++ ",".intercalate (sortedIssues d)

/-- The row that is inserted for a device. -/
def newFinding (d : GraphDevice) (newId : Uuid) (now : Time) : FindingRow where
  id := newId
  assetId := none
  employeeId := none
  softwareName := d.deviceName.getD ("device:" ++ d.id)
  softwareVersion := d.osVersion
  severity := if "noncompliant" ∈ sortedIssues d then .high else .medium
  source := sourceKey d
  detectedAt := now

/-- One round of the loop: the table, and the number of findings that have been added. -/
def processDevice (env : SyncEnvironment) (t : StoredFindings) (d : GraphDevice) :
    Except Failure (StoredFindings × ℕ) := do
  if issues d = [] then pure (t, 0)
  else if t.HasSource (sourceKey d) then pure (t, 0)
  else
    let t' ← t.insert (newFinding d (env.newId t.table) (env.now t.table))
    pure (t', 1)

/-- `processDeviceBatch`, with `findings` new findings so far: the table that it leaves, and the
number that it returns. -/
def processDeviceBatch (env : SyncEnvironment) (t : StoredFindings) (findings : ℕ) :
    List GraphDevice → StoredFindings × Except Failure ℕ
  | [] => (t, .ok findings)
  | d :: ds =>
    match processDevice env t d with
    | .ok (t', added) => processDeviceBatch env t' (findings + added) ds
    | .error e => (t, .error e)

/-- The source names the device and exactly its issues. -/
def Names (source : String) (d : GraphDevice) : Prop :=
  ∀ d' : GraphDevice, d'.id.length = 36 →
    (sourceKey d' = source ↔ d'.id = d.id ∧ issues d' = issues d)

/-- The page is completed, every device with issues has its finding afterwards, and processing
the page again completes and adds none. -/
structure Covered (env : SyncEnvironment) (t : StoredFindings) (devices : List GraphDevice) :
    Prop where
  completes : ∃ n, (processDeviceBatch env t 0 devices).2 = .ok n
  findings : ∀ d ∈ devices, issues d ≠ [] →
    ∃ r ∈ (processDeviceBatch env t 0 devices).1.table.rows, Names r.source d
  again : ∀ env', processDeviceBatch env' (processDeviceBatch env t 0 devices).1 0 devices =
    ((processDeviceBatch env t 0 devices).1, .ok 0)

variable {env : SyncEnvironment} {t t' : StoredFindings} {d d' : GraphDevice} {n : ℕ}
  {ds : List GraphDevice}

/-! ### The source key -/

/-- The issues come in order. -/
theorem sortedIssues_eq (d : GraphDevice) : sortedIssues d = issues d := by
  refine List.mergeSort_of_pairwise ?_
  unfold issues
  split
  · split
    · exact List.pairwise_singleton _ _
    · exact List.pairwise_pair.2 (by decide)
  · split
    · exact List.Pairwise.nil
    · exact List.pairwise_singleton _ _

/-- The issues of a device with both of them, and of one with less. -/
theorem issues_cases (d : GraphDevice) :
    d.BothIssues ∧ issues d = ["noncompliant", "unencrypted"] ∨
      ¬ d.BothIssues ∧ issues d ∈ [[], ["noncompliant"], ["unencrypted"]] := by
  unfold GraphDevice.BothIssues issues
  by_cases hcompliance : d.Noncompliant
  · cases hencrypted : d.isEncrypted with
    | true => simp [hcompliance]
    | false => simp [hcompliance]
  · cases hencrypted : d.isEncrypted with
    | true => simp [hcompliance]
    | false => simp [hcompliance]

/-- The length of a source key: only that of a device with both issues is over 60. -/
theorem length_sourceKey_le_iff (hid : d.id.length = 36) :
    (sourceKey d).length ≤ 60 ↔ ¬ d.BothIssues := by
  have hlength : (sourceKey d).length = 44 + (",".intercalate (issues d)).length := by
    have hprefix : "intune:".length = 7 := by decide
    have hcolon : ":".length = 1 := by decide
    rw [sourceKey, sortedIssues_eq, String.length_append, String.length_append,
      String.length_append, hid, hprefix, hcolon]
  rw [hlength]
  obtain ⟨hboth, hissues⟩ | ⟨hnot, hissues⟩ := issues_cases d
  · rw [hissues]
    exact iff_of_false (by decide) (not_not.2 hboth)
  · have hshort : ∀ a ∈ [[], ["noncompliant"], ["unencrypted"]],
        44 + (",".intercalate a).length ≤ 60 := by decide
    exact iff_of_true (hshort _ hissues) hnot

/-- The lists of issues that there are. -/
def issueLists : List (List String) :=
  [[], ["noncompliant"], ["unencrypted"], ["noncompliant", "unencrypted"]]

theorem issues_mem (d : GraphDevice) : issues d ∈ issueLists := by
  obtain ⟨-, hissues⟩ | ⟨-, hissues⟩ := issues_cases d
  · rw [hissues]
    decide
  · exact List.mem_append_left [["noncompliant", "unencrypted"]] hissues

/-- The joined issues determine them. -/
theorem intercalate_injective : ∀ a ∈ issueLists, ∀ b ∈ issueLists,
    ",".intercalate a = ",".intercalate b → a = b := by
  decide

/-- **The source key** names the device and exactly its issues. -/
theorem sourceKey_injective (hid : d.id.length = d'.id.length) :
    sourceKey d = sourceKey d' ↔ d.id = d'.id ∧ issues d = issues d' := by
  constructor
  · intro h
    have hlists := congrArg String.toList h
    simp only [sourceKey, sortedIssues_eq, String.toList_append, List.append_assoc,
      List.append_cancel_left_eq] at hlists
    obtain ⟨hids, hrest⟩ := List.append_inj hlists
      (by rw [String.length_toList, String.length_toList, hid])
    have hjoined := String.ext (List.append_cancel_left hrest)
    exact ⟨String.ext hids,
      intercalate_injective _ (issues_mem d) _ (issues_mem d') hjoined⟩
  · rintro ⟨hids, hissues⟩
    rw [sourceKey, sourceKey, sortedIssues_eq, sortedIssues_eq, hids, hissues]

theorem names_sourceKey (hid : d.id.length = 36) : Names (sourceKey d) d :=
  fun _ hid' => sourceKey_injective (hid'.trans hid.symm)

/-! ### One round -/

/-- The row of a device fits exactly if its source key does. -/
theorem fits_newFinding_iff (hd : d.WellFormed) (id : Uuid) (now : Time) :
    (newFinding d id now).Fits ↔ ¬ d.BothIssues := by
  rw [FindingRow.fits_iff, ← length_sourceKey_le_iff hd.id]
  refine ⟨fun h => h.2.2, fun h => ⟨?_, hd.version, h⟩⟩
  show (d.deviceName.getD ("device:" ++ d.id)).length ≤ 200
  cases hname : d.deviceName with
  | some name => exact hd.name name hname
  | none =>
    have hprefix : "device:".length = 7 := by decide
    rw [Option.getD_none, String.length_append, hd.id, hprefix]
    decide

/-- A device without issues, or with a finding, is passed over. -/
theorem processDevice_of_hasSource (h : issues d ≠ [] → t.HasSource (sourceKey d)) :
    processDevice env t d = .ok (t, 0) := by
  unfold processDevice
  by_cases hissues : issues d = []
  · rw [if_pos hissues]
    rfl
  · rw [if_neg hissues, if_pos (h hissues)]
    rfl

/-- **A round for a device without both issues** goes through; it keeps the findings, and there
is one of the device afterwards. -/
theorem processDevice_of_not_both (env : SyncEnvironment) (t : StoredFindings)
    (hd : d.WellFormed) (hboth : ¬ d.BothIssues) :
    ∃ t' n, processDevice env t d = .ok (t', n) ∧ (∀ r ∈ t.table.rows, r ∈ t'.table.rows) ∧
      (issues d ≠ [] → t'.HasSource (sourceKey d)) := by
  by_cases hfound : issues d ≠ [] → t.HasSource (sourceKey d)
  · exact ⟨t, 0, processDevice_of_hasSource hfound, fun _ hr => hr, hfound⟩
  · obtain ⟨hissues, hnone⟩ := Classical.not_imp.1 hfound
    obtain ⟨t', hins⟩ := StoredFindings.exists_insert
      ((fits_newFinding_iff hd (env.newId t.table) (env.now t.table)).2 hboth)
      (env.fresh t.table)
    have hrows : ∀ r, r ∈ t'.table.rows ↔ r ∈ t.table.rows ∨
        r = newFinding d (env.newId t.table) (env.now t.table) :=
      fun r => Table.mem_insert (StoredFindings.insert_eq_ok hins).2
    refine ⟨t', 1, ?_, fun r hr => (hrows r).2 (Or.inl hr), fun _ => ?_⟩
    · rw [processDevice, if_neg hissues, if_neg hnone, hins]
      rfl
    · exact ⟨_, (hrows _).2 (Or.inr rfl), rfl⟩

/-- A round for a device with both issues throws: no stored source is as long as its key. -/
theorem processDevice_of_both (env : SyncEnvironment) (t : StoredFindings)
    (hd : d.WellFormed) (hboth : d.BothIssues) : ∃ e, processDevice env t d = .error e := by
  have hissues : issues d ≠ [] := by
    rw [issues, if_pos hboth.1]
    exact List.cons_ne_nil _ _
  have hnone : ¬ t.HasSource (sourceKey d) := by
    rintro ⟨r, hr, hsource⟩
    exact (length_sourceKey_le_iff hd.id).1 (hsource ▸ (t.fits r hr).source) hboth
  rw [processDevice, if_neg hissues, if_neg hnone]
  cases hins : t.insert (newFinding d (env.newId t.table) (env.now t.table)) with
  | error e => exact ⟨e, rfl⟩
  | ok t' => exact absurd hboth ((fits_newFinding_iff hd _ _).1 (StoredFindings.insert_eq_ok hins).1)

/-! ### A page -/

/-- **A page without a device with both issues** is completed, and every device with issues has
its finding afterwards. -/
theorem processDeviceBatch_spec (env : SyncEnvironment) (t : StoredFindings) (n : ℕ)
    (hds : ∀ d ∈ ds, d.WellFormed) (hboth : ∀ d ∈ ds, ¬ d.BothIssues) :
    (∃ m, (processDeviceBatch env t n ds).2 = .ok m) ∧
      (∀ r ∈ t.table.rows, r ∈ (processDeviceBatch env t n ds).1.table.rows) ∧
      ∀ d ∈ ds, issues d ≠ [] → (processDeviceBatch env t n ds).1.HasSource (sourceKey d) := by
  induction ds generalizing t n with
  | nil => exact ⟨⟨n, rfl⟩, fun _ hr => hr, fun _ hd => nomatch hd⟩
  | cons d ds ih =>
    obtain ⟨t', added, hround, hkept, hfound⟩ := processDevice_of_not_both env t
      (hds d List.mem_cons_self) (hboth d List.mem_cons_self)
    obtain ⟨hok, hkept', hfound'⟩ := ih t' (n + added)
      (fun d hd => hds d (List.mem_cons_of_mem _ hd))
      (fun d hd => hboth d (List.mem_cons_of_mem _ hd))
    rw [processDeviceBatch, hround]
    refine ⟨hok, fun r hr => hkept' r (hkept r hr), ?_⟩
    intro d' hd' hissues
    rcases List.mem_cons.1 hd' with rfl | hd'
    · obtain ⟨r, hr, hsource⟩ := hfound hissues
      exact ⟨r, hkept' r hr, hsource⟩
    · exact hfound' d' hd' hissues

/-- A page whose devices all have their findings changes nothing. -/
theorem processDeviceBatch_again (h : ∀ d ∈ ds, issues d ≠ [] → t.HasSource (sourceKey d)) :
    processDeviceBatch env t n ds = (t, .ok n) := by
  induction ds with
  | nil => rfl
  | cons d ds ih =>
    rw [processDeviceBatch, processDevice_of_hasSource (h d List.mem_cons_self)]
    exact ih fun d hd => h d (List.mem_cons_of_mem _ hd)

/-- A page with a device with both issues is not completed. -/
theorem processDeviceBatch_of_both (env : SyncEnvironment) (t : StoredFindings) (n : ℕ)
    (hds : ∀ d ∈ ds, d.WellFormed) (hd : d ∈ ds) (hboth : d.BothIssues) :
    ∃ e, (processDeviceBatch env t n ds).2 = .error e := by
  induction ds generalizing t n with
  | nil => cases hd
  | cons d' ds ih =>
    rw [processDeviceBatch]
    cases hround : processDevice env t d' with
    | error e => exact ⟨e, rfl⟩
    | ok result =>
      obtain ⟨t', added⟩ := result
      rcases List.mem_cons.1 hd with rfl | hd
      · obtain ⟨e, he⟩ := processDevice_of_both env t (hds d List.mem_cons_self) hboth
        rw [he] at hround
        cases hround
      · exact ih t' (n + added) (fun d hd => hds d (List.mem_cons_of_mem _ hd)) hd

/-- **Every device with issues gets its finding** if and only if no device of the page is
noncompliant and unencrypted. -/
theorem covered_iff (env : SyncEnvironment) (t : StoredFindings) (devices : List GraphDevice)
    (hdevices : ∀ d ∈ devices, d.WellFormed) :
    Covered env t devices ↔ ∀ d ∈ devices, ¬ d.BothIssues := by
  constructor
  · intro h d hd hboth
    obtain ⟨n, hn⟩ := h.completes
    obtain ⟨e, he⟩ := processDeviceBatch_of_both env t 0 hdevices hd hboth
    rw [hn] at he
    cases he
  · intro hboth
    obtain ⟨hok, -, hfound⟩ := processDeviceBatch_spec env t 0 hdevices hboth
    refine ⟨hok, fun d hd hissues => ?_, fun _ => processDeviceBatch_again hfound⟩
    obtain ⟨r, hr, hsource⟩ := hfound d hd hissues
    exact ⟨r, hr, hsource ▸ names_sourceKey (hdevices d hd).id⟩

namespace Sample

/-- A device with an id of 36 characters. -/
def device (isEncrypted : Bool) : GraphDevice where
  id := "0f6b1c2e-4d3a-4a57-9f0e-2b8c7d6e5f41"
  deviceName := some "LAPTOP-7"
  osVersion := some "10.0.19045"
  complianceState := some .noncompliant
  isEncrypted := isEncrypted

theorem wellFormed_device (isEncrypted : Bool) : (device isEncrypted).WellFormed where
  id := by
    show "0f6b1c2e-4d3a-4a57-9f0e-2b8c7d6e5f41".length = 36
    decide
  name name hname := by
    obtain rfl := Option.some.inj hname
    decide
  version version hversion := by
    obtain rfl := Option.some.inj hversion
    decide

/-- A number above the ids of the rows. -/
def idAbove (rows : List FindingRow) : ℕ := rows.foldr (fun r n => r.id + n + 1) 0

theorem lt_idAbove {rows : List FindingRow} {r : FindingRow} (h : r ∈ rows) :
    r.id < idAbove rows :=
  Table.lt_foldr (fun r => r.id) rows r h

theorem find_idAbove (t : Findings) : t.find (idAbove t.rows) = none :=
  Table.find_eq_none_iff.2 fun _ hr => (lt_idAbove hr).ne

/-- Ids that count up. -/
def environment : SyncEnvironment where
  newId t := idAbove t.rows
  fresh := find_idAbove
  now _ := 0

/-- A noncompliant device with an encrypted disk gets its finding. -/
theorem covered_encrypted : Covered environment .empty [device true] :=
  (covered_iff environment .empty [device true]
    (List.forall_mem_singleton.2 (wellFormed_device true))).2
    (List.forall_mem_singleton.2 (by decide))

/-- A noncompliant device without encryption gets none, and the page fails. -/
theorem not_covered_unencrypted : (∀ d ∈ [device false], d.WellFormed) ∧
    ¬ Covered environment .empty [device false] := by
  refine ⟨List.forall_mem_singleton.2 (wellFormed_device false), fun h => ?_⟩
  obtain ⟨n, hn⟩ := h.completes
  obtain ⟨e, he⟩ := processDeviceBatch_of_both environment .empty 0
    (List.forall_mem_singleton.2 (wellFormed_device false)) List.mem_cons_self (by decide)
  rw [hn] at he
  cases he

end Sample

end GraphSyncService

end OpsHub
