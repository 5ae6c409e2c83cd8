import OpsHub.Assets.AssetService
import OpsHub.Lib.Pool
import OpsHub.Lib.Runs

/-!
# The custody of an asset

Status, `assigned_to` and the open row of `asset_assignments` say the same thing three times.
The calls of `AssetService` test a copy of the asset in one step and write in a later one; the
commits of `OffboardingTypeDef.onApprove` come in between.

* `CustodyState`, `step`: the machine;
* `Custody`: the three agree for every asset;
* `WriteSafe`, `Careful`: what a write needs of the asset as it is stored at that moment, and an
  offboarding of the assignments of the employee;
* `run_custody`: a run of careful steps keeps the custody, and what is retired stays retired;
* `not_custody`: an offboarding leaves `assigned_to`, and the calls race.
-/

namespace OpsHub

/-! ### The machine -/

/-- What a call of `AssetService` has still to write. -/
inductive CustodyCall
  | create (assetTag : String)
  | assign (assetId employeeId : Uuid) (notes : Option String)
  | unassign (assetId : Uuid)
  | retire (assetId : Uuid)
  | finished
  deriving DecidableEq, Repr

/-- The tables, and the calls in flight. -/
structure CustodyState where
  tables : Tables
  calls : List CustodyCall := []

/-- A call that tests its copy, the write of a call, or an approved offboarding. -/
inductive CustodyEvent
  | create (assetTag : String)
  | assign (assetId employeeId : Uuid) (notes : Option String)
  | unassign (assetId : Uuid)
  | retire (assetId : Uuid)
  | write (i : ℕ) (now : Time) (newId : Uuid)
  | offboard (payload : OffboardingPayload) (now : Time)

/-- The write of a call. -/
def CustodyCall.write (now : Time) (newId : Uuid) (tables : Tables) :
    CustodyCall → Except Failure Tables
  | .create assetTag => AssetDrizzleRepository.create assetTag now newId tables
  | .assign assetId employeeId notes =>
    AssetDrizzleRepository.assign assetId employeeId notes now newId tables
  | .unassign assetId => .ok (AssetDrizzleRepository.unassign assetId now tables)
  | .retire assetId => .ok (AssetDrizzleRepository.retire assetId now tables)
  | .finished => .ok tables

namespace CustodyState

/-- A call goes on when its tests have passed. -/
def beginWith (s : CustodyState) (tests : Except Failure Unit) (call : CustodyCall) : CustodyState :=
  match tests with
  | .ok _ => { s with calls := s.calls ++ [call] }
  | .error _ => s

/-- The state after a step; a write that fails changes no table. -/
def step (s : CustodyState) : CustodyEvent → CustodyState
  | .create assetTag => s.beginWith (AssetService.create s.tables assetTag) (.create assetTag)
  | .assign assetId employeeId notes =>
    s.beginWith (AssetService.assign s.tables assetId employeeId) (.assign assetId employeeId notes)
  | .unassign assetId => s.beginWith (AssetService.unassign s.tables assetId) (.unassign assetId)
  | .retire assetId => s.beginWith (AssetService.retire s.tables assetId) (.retire assetId)
  | .write i now newId =>
    match s.calls[i]? with
    | some call =>
      { tables := Outcome.commit s.tables (call.write now newId s.tables)
        calls := s.calls.set i .finished }
    | none => s
  | .offboard payload now =>
    { s with tables := OffboardingTypeDef.offboard payload.employeeId now s.tables }

end CustodyState

/-! ### The property -/

/-- The open assignments of an asset. -/
def Tables.openAssignments (tables : Tables) (assetId : Uuid) : List AssetAssignment :=
  tables.assetAssignments.rows.filter
    (fun x => decide (x.assetId = assetId ∧ x.returnedAt = none))

/-- Status, employee and open assignments of an asset agree. -/
structure InCustody (tables : Tables) (a : Asset) : Prop where
  status : a.status = .assigned ↔ a.assignedTo ≠ none
  held : ∀ employeeId, a.assignedTo = some employeeId →
    ∃ x, tables.openAssignments a.id = [x] ∧ x.employeeId = employeeId
  free : a.assignedTo = none → tables.openAssignments a.id = []

/-- Every asset is in custody, and every open assignment is one of a stored asset. -/
structure Custody (tables : Tables) : Prop where
  assets : ∀ a ∈ tables.assets.rows, InCustody tables a
  known : ∀ x ∈ tables.assetAssignments.rows, x.returnedAt = none →
    ∃ a, tables.assets.find x.assetId = some a

/-- A retired asset is held by nobody. -/
theorem InCustody.retired {tables : Tables} {a : Asset} (h : InCustody tables a)
    (hretired : a.status = .retired) : a.assignedTo = none ∧ tables.openAssignments a.id = [] := by
  have hnone : a.assignedTo = none := by
    by_contra hsome
    have hassigned := h.status.2 hsome
    rw [hretired] at hassigned
    cases hassigned
  exact ⟨hnone, h.free hnone⟩

/-- Every asset is kept, and what is retired before is retired after. -/
def KeepsAssets (tables tables' : Tables) : Prop :=
  ∀ id a, tables.assets.find id = some a →
    ∃ a', tables'.assets.find id = some a' ∧ (a.status = .retired → a'.status = .retired)

/-! ### The condition -/

/-- What the write of a call needs of the asset as it is stored then. -/
def WriteSafe (tables : Tables) : CustodyCall → Prop
  | .create _ => True
  | .assign assetId _ _ =>
    ∀ a ∈ tables.assets.find assetId, a.assignedTo = none ∧ a.status ≠ .retired
  | .unassign assetId => ∀ a ∈ tables.assets.find assetId, a.status ≠ .retired
  | .retire assetId => ∀ a ∈ tables.assets.find assetId, a.assignedTo = none
  | .finished => True

instance (tables : Tables) : (call : CustodyCall) → Decidable (WriteSafe tables call)
  | .create _ => isTrue trivial
  | .assign assetId _ _ => inferInstanceAs (Decidable
      (∀ a ∈ tables.assets.find assetId, a.assignedTo = none ∧ a.status ≠ .retired))
  | .unassign assetId =>
    inferInstanceAs (Decidable (∀ a ∈ tables.assets.find assetId, a.status ≠ .retired))
  | .retire assetId =>
    inferInstanceAs (Decidable (∀ a ∈ tables.assets.find assetId, a.assignedTo = none))
  | .finished => isTrue trivial

/-- The employee holds no asset. -/
def HoldsNoAsset (tables : Tables) (employeeId : Uuid) : Prop :=
  ∀ x ∈ tables.assetAssignments.rows, x.employeeId = employeeId → x.returnedAt ≠ none

instance (tables : Tables) (employeeId : Uuid) : Decidable (HoldsNoAsset tables employeeId) :=
  inferInstanceAs (Decidable (∀ x ∈ tables.assetAssignments.rows, _ → _))

namespace CustodyState

/-- The call that a step lets write. -/
def writing (s : CustodyState) : CustodyEvent → Option CustodyCall
  | .write i _ _ => s.calls[i]?
  | _ => none

/-- The employee that a step offboards. -/
def offboarding : CustodyEvent → Option Uuid
  | .offboard payload _ => some payload.employeeId
  | _ => none

/-- The condition on a step. -/
def Careful (s : CustodyState) (e : CustodyEvent) : Prop :=
  (∀ call ∈ s.writing e, WriteSafe s.tables call) ∧
    ∀ employeeId ∈ offboarding e, HoldsNoAsset s.tables employeeId

instance (s : CustodyState) (e : CustodyEvent) : Decidable (s.Careful e) :=
  inferInstanceAs (Decidable (_ ∧ _))

end CustodyState

/-! ### What the writes do to the assets -/

section Writes

variable {tables tables' : Tables} {assetId employeeId newId : Uuid} {notes : Option String}
  {now : Time} {assetTag : String} {a : Asset}

theorem AssetDrizzleRepository.create_ok (h : create assetTag now newId tables = .ok tables') :
    ∃ assets, tables.assets.insert { id := newId, assetTag := assetTag, updatedAt := now } =
      some assets ∧ tables' = { tables with assets := assets } := by
  simp only [create, Except.bind_eq_ok_iff, Outcome.orThrow_eq_ok_iff, Except.pure_eq_ok_iff] at h
  obtain ⟨-, -, assets, hinsert, rfl⟩ := h
  exact ⟨assets, hinsert, rfl⟩

/-- Custody looks at the open assignments only. -/
theorem InCustody.congr (h : InCustody tables a)
    (hopen : tables'.openAssignments a.id = tables.openAssignments a.id) : InCustody tables' a :=
  ⟨h.status, fun e he => by rw [hopen]; exact h.held e he, fun hnone => by rw [hopen, h.free hnone]⟩

/-- Known assets stay known. -/
theorem KeepsAssets.known (h : KeepsAssets tables tables') {id : Uuid}
    (ha : ∃ a, tables.assets.find id = some a) : ∃ a, tables'.assets.find id = some a := by
  obtain ⟨a, ha⟩ := ha
  obtain ⟨a', ha', -⟩ := h id a ha
  exact ⟨a', ha'⟩

/-- An update of the asset `assetId` that leaves it retired if it was. -/
theorem keepsAssets_update {f : Asset → Asset} (hf : ∀ r, (f r).id = r.id)
    (hassets : tables'.assets = tables.assets.update assetId f hf)
    (h : ∀ a, tables.assets.find assetId = some a → a.status = .retired → (f a).status = .retired) :
    KeepsAssets tables tables' := by
  intro id a ha
  rw [hassets]
  by_cases hid : id = assetId
  · subst hid
    rw [Table.find_update_self, ha]
    exact ⟨f a, rfl, h a ha⟩
  · rw [Table.find_update_ne _ hid]
    exact ⟨a, ha, fun hretired => hretired⟩

/-- **A new asset** has no assignment. -/
theorem Custody.create (h : Custody tables)
    (hcreate : AssetDrizzleRepository.create assetTag now newId tables = .ok tables') :
    Custody tables' ∧ KeepsAssets tables tables' := by
  obtain ⟨assets, hinsert, rfl⟩ := AssetDrizzleRepository.create_ok hcreate
  have hnew := (Table.insert_eq_some_iff.1 hinsert).1
  refine ⟨⟨fun a ha => ?_, fun x hx hopen => ?_⟩, fun id a ha => ?_⟩
  · rcases (Table.mem_insert hinsert).1 ha with ha | rfl
    · exact (h.assets a ha).congr rfl
    · -- open assignments are of known assets, and this one is new
      have hnone : tables.openAssignments newId = [] := by
        refine List.filter_eq_nil_iff.2 fun x hx heq => ?_
        obtain ⟨a, ha⟩ := h.known x hx (of_decide_eq_true heq).2
        rw [(of_decide_eq_true heq).1, hnew] at ha
        cases ha
      exact ⟨by simp, fun e he => (nomatch he), fun _ => hnone⟩
  · obtain ⟨a, ha⟩ := h.known x hx hopen
    exact ⟨a, Table.find_insert_of_find hinsert ha⟩
  · exact ⟨a, Table.find_insert_of_find hinsert ha, fun hretired => hretired⟩

/-- **An assignment** of an asset that is not assigned. -/
theorem Custody.assign (h : Custody tables) (hknown : ∃ a, tables.assets.find assetId = some a)
    (hsafe : WriteSafe tables (.assign assetId employeeId notes))
    (hassign : AssetDrizzleRepository.assign assetId employeeId notes now newId tables =
      .ok tables') : Custody tables' ∧ KeepsAssets tables tables' := by
  simp only [AssetDrizzleRepository.assign, Except.bind_eq_ok_iff, Outcome.orThrow_eq_ok_iff,
    Except.pure_eq_ok_iff] at hassign
  obtain ⟨assetAssignments, hinsert, rfl⟩ := hassign
  have hopen : ∀ id, assetAssignments.rows.filter
      (fun x => decide (x.assetId = id ∧ x.returnedAt = none)) = tables.openAssignments id ++
        if assetId = id then [AssetDrizzleRepository.assignment assetId employeeId notes now newId]
        else [] := by
    intro id
    rw [(Table.insert_eq_some_iff.1 hinsert).2, List.filter_append]
    by_cases hid : assetId = id
    · simp [hid, Tables.openAssignments, AssetDrizzleRepository.assignment]
    · simp [hid, Tables.openAssignments, AssetDrizzleRepository.assignment]
  have hkeep : KeepsAssets tables
      { tables with
        assets := tables.assets.update assetId
          (fun a => { a with status := .assigned, assignedTo := some employeeId, updatedAt := now })
          (fun _ => rfl)
        assetAssignments := assetAssignments } := by
    refine keepsAssets_update ?_ rfl fun a ha hretired => ?_
    · exact fun _ => rfl
    · exact absurd hretired (hsafe a ha).2
  refine ⟨⟨fun a ha => ?_, fun x hx hxopen => hkeep.known ?_⟩, hkeep⟩
  · dsimp only at ha
    rcases Table.mem_update ha with ⟨a, hfind, rfl⟩ | ⟨ha, hid⟩
    · -- the assigned asset had no open assignment
      have hold := (h.assets a (Table.mem_of_find hfind)).free (hsafe a hfind).1
      have hid : a.id = assetId := Table.key_of_find hfind
      refine ⟨by simp, fun e he => ?_, fun hnone => (nomatch hnone)⟩
      obtain rfl : employeeId = e := Option.some.inj he
      have hone := hopen a.id
      rw [hold, if_pos hid.symm, List.nil_append] at hone
      exact ⟨_, hone, rfl⟩
    · -- the other assets have the assignments that they had
      refine (h.assets a ha).congr ((hopen a.id).trans ?_)
      rw [if_neg (Ne.symm hid), List.append_nil]
  · rcases (Table.mem_insert hinsert).1 hx with hx | rfl
    · exact h.known x hx hxopen
    · exact hknown

theorem openAssignments_unassign (id : Uuid) :
    (AssetDrizzleRepository.unassign assetId now tables).openAssignments id =
      if id = assetId then [] else tables.openAssignments id := by
  unfold Tables.openAssignments AssetDrizzleRepository.unassign
  by_cases hid : id = assetId
  · rw [if_pos hid]
    refine List.filter_eq_nil_iff.2 fun x hx heq => ?_
    dsimp only at hx
    obtain ⟨r, hr, rfl⟩ := Table.mem_updateWhere.1 hx
    obtain ⟨hasset, hopen⟩ := of_decide_eq_true heq
    split at hopen
    · cases hopen
    · rename_i hnot
      rw [if_neg hnot] at hasset
      exact hnot (decide_eq_true ⟨hasset.trans hid, hopen⟩)
  · rw [if_neg hid]
    dsimp only
    refine Table.filter_updateWhere fun r hr => ?_
    have hother : ¬ r.assetId = id := fun heq => hid (heq.symm.trans (of_decide_eq_true hr).1)
    simp [hother]

/-- **A return**: whatever it finds, the asset is free after it. -/
theorem Custody.unassign (h : Custody tables) (hsafe : WriteSafe tables (.unassign assetId)) :
    Custody (AssetDrizzleRepository.unassign assetId now tables) ∧
      KeepsAssets tables (AssetDrizzleRepository.unassign assetId now tables) := by
  have hkeep : KeepsAssets tables (AssetDrizzleRepository.unassign assetId now tables) := by
    refine keepsAssets_update ?_ rfl fun a ha hretired => ?_
    · exact fun _ => rfl
    · exact absurd hretired (hsafe a ha)
  refine ⟨⟨fun a ha => ?_, fun x hx hopen => hkeep.known ?_⟩, hkeep⟩
  · dsimp only [AssetDrizzleRepository.unassign] at ha
    rcases Table.mem_update ha with ⟨a, hfind, rfl⟩ | ⟨ha, hid⟩
    · have hid : a.id = assetId := Table.key_of_find hfind
      refine ⟨by simp, fun e he => (nomatch he), fun _ => ?_⟩
      exact (openAssignments_unassign a.id).trans (if_pos hid)
    · exact (h.assets a ha).congr ((openAssignments_unassign a.id).trans (if_neg hid))
  · dsimp only [AssetDrizzleRepository.unassign] at hx
    obtain ⟨r, hr, rfl⟩ := Table.mem_updateWhere.1 hx
    split at hopen
    · cases hopen
    · rename_i hnot
      rw [if_neg hnot]
      exact h.known r hr hopen

/-- **A retirement** of an asset that is not assigned. -/
theorem Custody.retire (h : Custody tables) (hsafe : WriteSafe tables (.retire assetId)) :
    Custody (AssetDrizzleRepository.retire assetId now tables) ∧
      KeepsAssets tables (AssetDrizzleRepository.retire assetId now tables) := by
  have hkeep : KeepsAssets tables (AssetDrizzleRepository.retire assetId now tables) := by
    refine keepsAssets_update ?_ rfl fun a ha _ => ?_
    · exact fun _ => rfl
    · rfl
  refine ⟨⟨fun a ha => ?_, fun x hx hopen => hkeep.known (h.known x hx hopen)⟩, hkeep⟩
  · dsimp only [AssetDrizzleRepository.retire] at ha
    rcases Table.mem_update ha with ⟨a, hfind, rfl⟩ | ⟨ha, hid⟩
    · have hold := (h.assets a (Table.mem_of_find hfind)).free (hsafe a hfind)
      exact ⟨by simp, fun e he => (nomatch he), fun _ => hold⟩
    · exact (h.assets a ha).congr rfl

/-- **An offboarding** of an employee who holds no asset leaves assets and assignments alone. -/
theorem Custody.offboard (h : Custody tables) (hsafe : HoldsNoAsset tables employeeId) :
    Custody (OffboardingTypeDef.offboard employeeId now tables) ∧
      KeepsAssets tables (OffboardingTypeDef.offboard employeeId now tables) := by
  have hnone : ∀ x ∈ tables.assetAssignments.rows,
      decide (x.employeeId = employeeId ∧ x.returnedAt = none) = false :=
    fun x hx => decide_eq_false fun hboth => hsafe x hx hboth.1 hboth.2
  have hassignments : (OffboardingTypeDef.offboard employeeId now tables).assetAssignments =
      tables.assetAssignments := by
    dsimp only [OffboardingTypeDef.offboard]
    exact Table.updateWhere_eq_self hnone
  have hassets : (OffboardingTypeDef.offboard employeeId now tables).assets = tables.assets := by
    have hnil : tables.assetAssignments.rows.filter
        (fun x => decide (x.employeeId = employeeId ∧ x.returnedAt = none)) = [] :=
      List.filter_eq_nil_iff.2 fun x hx => by rw [hnone x hx]; exact Bool.false_ne_true
    simp only [OffboardingTypeDef.offboard, hnil, List.map_nil, List.foldl_nil]
  refine ⟨⟨fun a ha => ?_, fun x hx hopen => ?_⟩, fun id a ha => ?_⟩
  · rw [hassets] at ha
    refine (h.assets a ha).congr ?_
    rw [Tables.openAssignments, hassignments, Tables.openAssignments]
  · rw [hassignments] at hx
    rw [hassets]
    exact h.known x hx hopen
  · rw [hassets]
    exact ⟨a, ha, fun hretired => hretired⟩

end Writes

/-! ### Runs -/

namespace CustodyState

/-- The asset that a call is about to assign is stored. -/
def Known (s : CustodyState) : Prop :=
  ∀ assetId employeeId notes, .assign assetId employeeId notes ∈ s.calls →
    ∃ a, s.tables.assets.find assetId = some a

/-- The invariant of the machine. -/
structure Sound (s : CustodyState) : Prop where
  custody : Custody s.tables
  known : s.Known

section Steps

variable {s s' : CustodyState} {call : CustodyCall} {now : Time} {newId : Uuid}
  {tables tables' : Tables}

theorem keepsAssets_refl (tables : Tables) : KeepsAssets tables tables :=
  fun _ a ha => ⟨a, ha, fun hretired => hretired⟩

theorem Known.of_keeps (h : s.Known) (hkeep : KeepsAssets s.tables s'.tables)
    (hcalls : ∀ call ∈ s'.calls, call ∈ s.calls ∨ call = .finished) : s'.Known := by
  intro assetId employeeId notes hmem
  rcases hcalls _ hmem with hmem | heq
  · exact hkeep.known (h assetId employeeId notes hmem)
  · cases heq

/-- **A safe write** keeps the custody. -/
theorem custody_write (h : s.Sound) (hcall : call ∈ s.calls) (hsafe : WriteSafe s.tables call)
    (hwrite : call.write now newId s.tables = .ok tables') :
    Custody tables' ∧ KeepsAssets s.tables tables' := by
  cases call with
  | create assetTag => exact h.custody.create hwrite
  | assign assetId employeeId notes =>
    exact h.custody.assign (h.known assetId employeeId notes hcall) hsafe hwrite
  | unassign assetId =>
    obtain rfl := Except.ok.inj hwrite
    exact h.custody.unassign hsafe
  | retire assetId =>
    obtain rfl := Except.ok.inj hwrite
    exact h.custody.retire hsafe
  | finished =>
    obtain rfl := Except.ok.inj hwrite
    exact ⟨h.custody, keepsAssets_refl s.tables⟩

/-- A call that begins has read the tables only. -/
theorem sound_beginWith {tests : Except Failure Unit} (h : s.Sound)
    (hknown : ∀ assetId employeeId notes, call = .assign assetId employeeId notes →
      tests = .ok () → ∃ a, s.tables.assets.find assetId = some a) :
    (s.beginWith tests call).Sound ∧ KeepsAssets s.tables (s.beginWith tests call).tables := by
  unfold beginWith
  cases tests with
  | error e => exact ⟨h, keepsAssets_refl s.tables⟩
  | ok u =>
    refine ⟨⟨h.custody, fun assetId employeeId notes hmem => ?_⟩, keepsAssets_refl s.tables⟩
    rcases List.mem_append.1 hmem with hmem | hmem
    · exact h.known assetId employeeId notes hmem
    · exact hknown assetId employeeId notes (List.mem_singleton.1 hmem).symm rfl

/-- The tables after a careful write or offboarding. -/
theorem Sound.next (h : s.Sound) (hcustody : Custody s'.tables)
    (hkeep : KeepsAssets s.tables s'.tables)
    (hcalls : ∀ call ∈ s'.calls, call ∈ s.calls ∨ call = .finished) :
    s'.Sound ∧ KeepsAssets s.tables s'.tables :=
  ⟨⟨hcustody, h.known.of_keeps hkeep hcalls⟩, hkeep⟩

/-- **The step lemma.** -/
theorem step_sound (s : CustodyState) (e : CustodyEvent) (h : s.Sound) (hok : s.Careful e) :
    (s.step e).Sound ∧ KeepsAssets s.tables (s.step e).tables := by
  cases e with
  | create assetTag => exact sound_beginWith h fun _ _ _ heq => by cases heq
  | assign assetId employeeId notes =>
    refine sound_beginWith h fun assetId' employeeId' notes' heq htests => ?_
    obtain ⟨rfl, rfl, rfl⟩ := CustodyCall.assign.inj heq
    simp only [AssetService.assign, AssetService.getById, Except.bind_eq_ok_iff,
      Outcome.orThrow_eq_ok_iff] at htests
    obtain ⟨a, ha, -⟩ := htests
    exact ⟨a, ha⟩
  | unassign assetId => exact sound_beginWith h fun _ _ _ heq => by cases heq
  | retire assetId => exact sound_beginWith h fun _ _ _ heq => by cases heq
  | write i now newId =>
    simp only [step]
    split
    · rename_i call hcall
      have hsafe : WriteSafe s.tables call := hok.1 call hcall
      have hcalls : ∀ c ∈ s.calls.set i .finished, c ∈ s.calls ∨ c = .finished :=
        fun c hc => List.mem_or_eq_of_mem_set hc
      cases hwrite : call.write now newId s.tables with
      | error e => exact h.next h.custody (keepsAssets_refl s.tables) hcalls
      | ok tables' =>
        obtain ⟨hcustody, hkeep⟩ := custody_write h (List.mem_of_getElem? hcall) hsafe hwrite
        exact h.next hcustody hkeep hcalls
    · exact ⟨h, keepsAssets_refl s.tables⟩
  | offboard payload now =>
    obtain ⟨hcustody, hkeep⟩ := h.custody.offboard (hok.2 payload.employeeId rfl)
    exact h.next hcustody hkeep fun call hcall => Or.inl hcall

/-- **Custody.**  In a run of careful steps from tables in custody, every asset is in custody
after the run, and what was retired on the way is retired at its end. -/
theorem run_custody (tables : Tables) (h : Custody tables) (es es' : List CustodyEvent)
    (hok : Runs.Meets step Careful ⟨tables, []⟩ (es ++ es')) :
    Custody (Runs.run step ⟨tables, []⟩ es).tables ∧
      KeepsAssets (Runs.run step ⟨tables, []⟩ es).tables
        (Runs.run step ⟨tables, []⟩ (es ++ es')).tables := by
  obtain ⟨hok, hok'⟩ := Runs.meets_append.1 hok
  have hinit : Sound ⟨tables, []⟩ := ⟨h, fun _ _ _ hmem => (nomatch hmem)⟩
  have hsound : Sound (Runs.run step ⟨tables, []⟩ es) :=
    Runs.run_induction (fun s e hs he => (step_sound s e hs he).1) hinit hok
  refine ⟨hsound.custody, ?_⟩
  rw [Runs.run_append]
  refine Runs.run_related (R := fun s s' => KeepsAssets s.tables s'.tables)
    (fun s => keepsAssets_refl s.tables) (fun a b c hab hbc => ?_) step_sound hsound hok'
  intro id x hx
  obtain ⟨y, hy, hxy⟩ := hab id x hx
  obtain ⟨z, hz, hyz⟩ := hbc id y hy
  exact ⟨z, hz, fun hretired => hyz (hxy hretired)⟩

end Steps

namespace Sample

/-- Two employees, and no asset yet. -/
def tables : Tables :=
  { Tables.empty with
    employees := ⟨[⟨1, none, "user1@example.com", "User 1", [], .active, none, 0⟩,
      ⟨2, none, "user2@example.com", "User 2", [], .active, none, 0⟩], by decide⟩ }

/-- The state after a run. -/
def after (es : List CustodyEvent) : CustodyState := Runs.run step ⟨tables, []⟩ es

/-- Asset 20 is created. -/
def stocked : List CustodyEvent := [.create "LT-00020", .write 0 1 20]

/-- Asset 20 is assigned to employee 1. -/
def assigned : List CustodyEvent := stocked ++ [.assign 20 1 none, .write 1 2 30]

/-- Employee 1 leaves. -/
def left : List CustodyEvent := assigned ++ [.offboard ⟨1, "user1@example.com", none⟩ 3]

/-- Two calls have both found the asset free. -/
def race : List CustodyEvent :=
  stocked ++ [.assign 20 1 none, .assign 20 2 none, .write 1 2 30, .write 2 3 31]

/-- Two calls return the asset; after the first one has written it is retired. -/
def retired : List CustodyEvent :=
  assigned ++ [.unassign 20, .unassign 20, .write 2 3 0, .retire 20, .write 4 4 0]

/-- The second one writes. -/
def late : List CustodyEvent := [.write 3 5 0]

/-- The asset is assigned, returned, and retired; another assignment is refused. -/
def orderly : List CustodyEvent := assigned ++ [.unassign 20, .write 2 3 0, .retire 20, .write 3 4 0]

theorem custody_tables : Custody tables :=
  ⟨fun _ ha => absurd ha List.not_mem_nil, fun _ hx => absurd hx List.not_mem_nil⟩

/-- Employee 1 has left, and asset 20 is still assigned to employee 1 though it is in stock; after
the race it has two open assignments; and the late return takes it out of retirement. -/
theorem not_custody :
    Custody tables ∧ ¬ Custody (after left).tables ∧ ¬ Custody (after race).tables ∧
      ¬ KeepsAssets (after retired).tables (after (retired ++ late)).tables := by
  refine ⟨custody_tables, fun h => ?_, fun h => ?_, fun h => ?_⟩
  · have hasset := h.assets ⟨20, "LT-00020", .inStock, some 1, none, 3⟩ (by decide)
    exact absurd (hasset.status.2 (by decide)) (by decide)
  · have hasset := h.assets ⟨20, "LT-00020", .assigned, some 2, none, 3⟩ (by decide)
    obtain ⟨x, hone, -⟩ := hasset.held 2 rfl
    have hlength : ((after race).tables.openAssignments 20).length = 1 := congrArg List.length hone
    exact absurd hlength (by decide)
  · obtain ⟨a, ha, hretired⟩ := h 20 ⟨20, "LT-00020", .retired, none, none, 4⟩ (by decide)
    have hlate : (after (retired ++ late)).tables.assets.find 20 =
        some ⟨20, "LT-00020", .inStock, none, none, 5⟩ := by decide
    rw [hlate] at ha
    obtain rfl := Option.some.inj ha
    exact absurd (hretired rfl) (by decide)

/-- A run in which nobody races and nobody leaves with an asset. -/
theorem run_custody_orderly :
    Custody (after orderly).tables ∧
      KeepsAssets (after orderly).tables
        (after (orderly ++ [.assign 20 2 none, .offboard ⟨1, "user1@example.com", none⟩ 5])).tables :=
  run_custody tables custody_tables orderly
    [.assign 20 2 none, .offboard ⟨1, "user1@example.com", none⟩ 5] (by decide)

end Sample

end CustodyState

end OpsHub
