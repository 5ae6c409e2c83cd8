import OpsHub.Assets.AssetService
import OpsHub.Domain.Services
import OpsHub.Storage.StorageService

/-!
# Links to stored files

Avatars of employees, photos of assets and documents of leave requests: a file is presigned for
one of them, and `confirmAvatar`, `confirmPhoto` or `confirmLeaveDocument` links its key.

* `confirmLinked`: what the three have in common.  The old link is a key, and the old file is
  looked up by it as if it were an id: PostgreSQL rejects a text that is no UUID;
* `Replaces`, `Unshared`: what is to hold of every call, and of every state;
* `always_replaces_iff`: they hold throughout a run exactly if every call that comes to link is
  given the id of a file that was presigned for the same entity;
* `not_replaces`: nothing in the services checks that.
-/

namespace OpsHub

/-! ### Whole calls of the storage service -/

namespace StorageService

open Storage

/-- `confirmUpload` from beginning to end, where `contentLength` is what `headObject` answers. -/
def confirmUpload (config : StorageConfig) (now : Time) (contentLength : Option ℕ)
    (fileId uploaderId : Uuid) (files : Table StoredFile.id) :
    Table StoredFile.id × Except Failure ConfirmUploadResult :=
  match findOwn files fileId uploaderId with
  | none => (files, .error (.notFound "FILE_NOT_FOUND" "Stored file not found"))
  | some file =>
    match file.status with
    | .completed => (files, .ok ⟨file.id, file.key, resolveUrl config file.key⟩)
    | .deleted => (files, .error (.validation "FILE_NOT_FOUND" "This file has been deleted"))
    | .pending =>
      match contentLength with
      | none => (files, .error (.validation "FILE_NOT_UPLOADED"
          "File not found in storage. Upload the file to the presigned URL first."))
      | some contentLength =>
        if contentLength = file.sizeBytes then
          (markCompleted files file.id now, .ok ⟨file.id, file.key, resolveUrl config file.key⟩)
        else
          (markDeleted files (fun f => decide (f.id = file.id)),
            .error (.validation "FILE_SIZE_MISMATCH" ("Uploaded size (" ++ toString contentLength ++
              ") does not match declared size (" ++ toString file.sizeBytes ++ ")")))

/-- `findById`, which PostgreSQL rejects for a text that is no UUID; `parse` reads one. -/
def findById (parse : String → Option Uuid) (files : Table StoredFile.id) (text : String) :
    Except Failure (Option StoredFile) :=
  match parse text with
  | some id => .ok (files.find id)
  | none => .error (.error ("invalid input syntax for type uuid: " ++ text))

/-- The row update of `deleteFile`. -/
def deleteRow (files : Table StoredFile.id) (fileId uploaderId : Uuid) : Table StoredFile.id :=
  match findOwn files fileId uploaderId with
  | some file => markDeleted files (fun f => decide (f.id = file.id))
  | none => files

/-- A whole call that is not interfered with: the beginning, then the statements of the call. -/
theorem confirmUpload_eq_advance (config : StorageConfig) (now : Time) {fileId uploaderId : Uuid}
    {files : Table StoredFile.id} {file : StoredFile} (bucket : Bucket)
    (hfind : findOwn files fileId uploaderId = some file) (hpending : file.status = .pending)
    {contentLength : ℕ} (hobject : bucket.objects file.key = some contentLength) :
    Storage.confirmUpload config files fileId uploaderId = .ok (.headObject file) ∧
      (confirmUpload config now (some contentLength) fileId uploaderId files).1 =
        (((Call.headObject file).advance config now 0 true files bucket).2.advance config now 0 true
          files bucket).1.1 := by
  constructor
  · simp [Storage.confirmUpload, hfind, hpending, Outcome.orThrow, bind, Except.bind, pure,
      Except.pure]
  · simp only [confirmUpload, hfind, hpending, Call.advance, if_true, hobject]
    split <;> rfl

end StorageService

/-! ### The columns with links -/

namespace EmployeeDrizzleRepository

/-- `updatePhoto`. -/
def updatePhoto (id : Uuid) (photoStorageKey : Option String) (now : Time) (tables : Tables) :
    Tables :=
  { tables with
    employees := tables.employees.update id
      (fun r => { r with photoStorageKey := photoStorageKey, updatedAt := now }) (fun _ => rfl) }

end EmployeeDrizzleRepository

namespace AssetDrizzleRepository

/-- `updatePhoto`. -/
def updatePhoto (id : Uuid) (photoStorageKey : Option String) (now : Time) (tables : Tables) :
    Tables :=
  { tables with
    assets := tables.assets.update id
      (fun r => { r with photoStorageKey := photoStorageKey, updatedAt := now }) (fun _ => rfl) }

end AssetDrizzleRepository

namespace WorkforceDrizzleRepository

/-- `updateLeaveDocument`. -/
def updateLeaveDocument (id : Uuid) (documentStorageKey : Option String) (tables : Tables) :
    Tables :=
  { tables with
    leaveRequests := tables.leaveRequests.update id
      (fun r => { r with documentStorageKey := documentStorageKey }) (fun _ => rfl) }

end WorkforceDrizzleRepository

/-! ### The services -/

/-- The stored files, the tables with the links, and the clock. -/
structure LinkState where
  files : Table StoredFile.id
  tables : Tables
  now : Time

/-- What a client says about a file. -/
structure UploadInput where
  fileName : String
  mimeType : String
  sizeBytes : ℕ
  deriving DecidableEq, Repr

/-- The common part of `presignAvatar`, `presignPhoto` and `presignLeaveDocument`, after the
entity has been looked up. -/
def presignLinked {ρ : Type} (config : StorageConfig) (found : Except Failure ρ)
    (resourceType linkedEntityType : String) (linkedEntityId : Uuid) (input : UploadInput)
    (actor : Actor) (keyId newId : Uuid) (s : LinkState) :
    Except Failure (LinkState × PresignUploadResult) := do
  let _ ← found
  let (files, result) ← StorageService.presignUpload config
    { fileName := input.fileName
      mimeType := input.mimeType
      sizeBytes := input.sizeBytes
      resourceType := resourceType
      linkedEntityType := some linkedEntityType
      linkedEntityId := some linkedEntityId } actor.sub keyId newId s.now s.files
  pure ({ s with files := files }, result)

/-- The deletion of the file that was linked before; an empty link counts as none. -/
def deleteOld (parse : String → Option Uuid) (old : Option String) (files : Table StoredFile.id) :
    Except Failure (Table StoredFile.id) :=
  match old.filter (fun key => decide (key ≠ "")) with
  | none => .ok files
  | some key => do
    match ← StorageService.findById parse files key with
    | some old => pure (StorageService.deleteRow files old.id old.uploaderId)
    | none => pure files

/-- The common part of `confirmAvatar`, `confirmPhoto` and `confirmLeaveDocument`, after the link
of the entity has been read: the call is not one transaction. -/
def confirmLinked (parse : String → Option Uuid) (config : StorageConfig)
    (contentLength : Option ℕ) (current : Except Failure (Option String))
    (link : String → Tables → Tables) (fileId : Uuid) (actor : Actor) (s : LinkState) :
    LinkState × Except Failure String :=
  match current with
  | .error failure => (s, .error failure)
  | .ok old =>
    match StorageService.confirmUpload config s.now contentLength fileId actor.sub s.files with
    | (files, .error failure) => ({ s with files := files }, .error failure)
    | (files, .ok result) =>
      match deleteOld parse old files with
      | .error failure => ({ s with files := files }, .error failure)
      | .ok files => ({ s with files := files, tables := link result.key s.tables }, .ok result.url)

section Services

variable (parse : String → Option Uuid) (config : StorageConfig) (contentLength : Option ℕ)
  (input : UploadInput) (fileId : Uuid) (actor : Actor) (keyId newId : Uuid) (s : LinkState)

/-- `presignAvatar`. -/
def EmployeeService.presignAvatar (employeeId : Uuid) :
    Except Failure (LinkState × PresignUploadResult) :=
  presignLinked config (getById s.tables employeeId) "employee-avatar" "employee" employeeId input
    actor keyId newId s

/-- `confirmAvatar`. -/
def EmployeeService.confirmAvatar (employeeId : Uuid) : LinkState × Except Failure String :=
  confirmLinked parse config contentLength
    ((getById s.tables employeeId).map Employee.photoStorageKey)
    (fun key => EmployeeDrizzleRepository.updatePhoto employeeId (some key) s.now) fileId actor s

/-- `presignPhoto`. -/
def AssetService.presignPhoto (assetId : Uuid) : Except Failure (LinkState × PresignUploadResult) :=
  presignLinked config (getById s.tables assetId) "asset-photo" "asset" assetId input actor keyId
    newId s

/-- `confirmPhoto`. -/
def AssetService.confirmPhoto (assetId : Uuid) : LinkState × Except Failure String :=
  confirmLinked parse config contentLength
    ((getById s.tables assetId).map Asset.photoStorageKey)
    (fun key => AssetDrizzleRepository.updatePhoto assetId (some key) s.now) fileId actor s

/-- `presignLeaveDocument`. -/
def WorkforceService.presignLeaveDocument (leaveId : Uuid) :
    Except Failure (LinkState × PresignUploadResult) :=
  presignLinked config (getLeave s.tables leaveId) "leave-document" "leave_request" leaveId input
    actor keyId newId s

/-- `confirmLeaveDocument`. -/
def WorkforceService.confirmLeaveDocument (leaveId : Uuid) : LinkState × Except Failure String :=
  confirmLinked parse config contentLength
    ((getLeave s.tables leaveId).map LeaveRequest.documentStorageKey)
    (fun key => WorkforceDrizzleRepository.updateLeaveDocument leaveId (some key)) fileId actor s

end Services

namespace FileLinks

open StorageService Storage Runs

/-! ### Entities -/

/-- What a file can be linked from. -/
inductive Entity
  | employee (id : Uuid)
  | asset (id : Uuid)
  | leaveRequest (id : Uuid)
  deriving DecidableEq, Repr

/-- The type of the files of an entity. -/
def Entity.resourceType : Entity → String
  | .employee _ => "employee-avatar"
  | .asset _ => "asset-photo"
  | .leaveRequest _ => "leave-document"

/-- The type of an entity in the rows of its files. -/
def Entity.entityType : Entity → String
  | .employee _ => "employee"
  | .asset _ => "asset"
  | .leaveRequest _ => "leave_request"

def Entity.id : Entity → Uuid
  | .employee id => id
  | .asset id => id
  | .leaveRequest id => id

/-- The file has been presigned for the entity. -/
def Entity.Owns (entity : Entity) (file : StoredFile) : Prop :=
  file.resourceType = entity.resourceType ∧ file.linkedEntityType = some entity.entityType ∧
    file.linkedEntityId = some entity.id

instance (entity : Entity) (file : StoredFile) : Decidable (entity.Owns file) :=
  inferInstanceAs (Decidable (_ ∧ _ ∧ _))

/-- A file has been presigned for one entity. -/
theorem Entity.Owns.eq {entity entity' : Entity} {file : StoredFile} (h : entity.Owns file)
    (h' : entity'.Owns file) : entity = entity' := by
  obtain ⟨htype, -, hid⟩ := h
  obtain ⟨htype', -, hid'⟩ := h'
  have hsame := htype.symm.trans htype'
  have hids := Option.some.inj (hid.symm.trans hid')
  cases entity <;> cases entity' <;> simp_all [Entity.resourceType, Entity.id]

/-- The link of an entity. -/
def link (tables : Tables) : Entity → Option String
  | .employee id => (tables.employees.find id).bind Employee.photoStorageKey
  | .asset id => (tables.assets.find id).bind Asset.photoStorageKey
  | .leaveRequest id => (tables.leaveRequests.find id).bind LeaveRequest.documentStorageKey

/-- The link as the services read it. -/
def current (tables : Tables) : Entity → Except Failure (Option String)
  | .employee id => (EmployeeService.getById tables id).map Employee.photoStorageKey
  | .asset id => (AssetService.getById tables id).map Asset.photoStorageKey
  | .leaveRequest id => (WorkforceService.getLeave tables id).map LeaveRequest.documentStorageKey

/-- The link as the services write it. -/
def setLink (entity : Entity) (now : Time) (key : String) (tables : Tables) : Tables :=
  match entity with
  | .employee id => EmployeeDrizzleRepository.updatePhoto id (some key) now tables
  | .asset id => AssetDrizzleRepository.updatePhoto id (some key) now tables
  | .leaveRequest id => WorkforceDrizzleRepository.updateLeaveDocument id (some key) tables

/-! ### Calls -/

/-- What can happen; `contentLength` is what S3 answers. -/
inductive Event
  | presign (entity : Entity) (input : UploadInput) (actor : Actor) (keyId newId : Uuid)
  | confirm (entity : Entity) (fileId : Uuid) (actor : Actor) (contentLength : Option ℕ)
  | tick (duration : ℕ)
  deriving DecidableEq, Repr

/-- The service that presigns a file for the entity. -/
def presign (config : StorageConfig) (entity : Entity) (input : UploadInput) (actor : Actor)
    (keyId newId : Uuid) (s : LinkState) : Except Failure (LinkState × PresignUploadResult) :=
  match entity with
  | .employee id => EmployeeService.presignAvatar config input actor keyId newId s id
  | .asset id => AssetService.presignPhoto config input actor keyId newId s id
  | .leaveRequest id => WorkforceService.presignLeaveDocument config input actor keyId newId s id

/-- The service that links a file to the entity. -/
def confirm (parse : String → Option Uuid) (config : StorageConfig) (entity : Entity)
    (fileId : Uuid) (actor : Actor) (contentLength : Option ℕ) (s : LinkState) :
    LinkState × Except Failure String :=
  match entity with
  | .employee id => EmployeeService.confirmAvatar parse config contentLength fileId actor s id
  | .asset id => AssetService.confirmPhoto parse config contentLength fileId actor s id
  | .leaveRequest id =>
    WorkforceService.confirmLeaveDocument parse config contentLength fileId actor s id

/-- The state after one event; generated keys are new, as `newId` makes them. -/
def step (parse : String → Option Uuid) (config : StorageConfig) (s : LinkState) :
    Event → LinkState
  | .presign entity input actor keyId newId =>
    match presign config entity input actor keyId newId s with
    | .ok (s', result) => if ∃ file ∈ s.files.rows, file.key = result.key then s else s'
    | .error _ => s
  | .confirm entity fileId actor contentLength =>
    (confirm parse config entity fileId actor contentLength s).1
  | .tick duration => { s with now := s.now + duration }

/-- No file has been stored, and nothing is linked. -/
def initial (tables : Tables) (now : Time) : LinkState where
  files := Table.empty _
  tables :=
    { tables with
      employees := tables.employees.updateWhere (fun _ => true)
        (fun r => { r with photoStorageKey := none }) (fun _ => rfl)
      assets := tables.assets.updateWhere (fun _ => true)
        (fun r => { r with photoStorageKey := none }) (fun _ => rfl)
      leaveRequests := tables.leaveRequests.updateWhere (fun _ => true)
        (fun r => { r with documentStorageKey := none }) (fun _ => rfl) }
  now := now

/-! ### The guarantee -/

/-- What a call that succeeds is to do: link the file, which has been presigned for the entity,
and mark the file that was linked before as deleted. -/
structure Linked (s : LinkState) (entity : Entity) (fileId : Uuid) (s' : LinkState) : Prop where
  file : ∃ file, s'.files.find fileId = some file ∧ link s'.tables entity = some file.key ∧
    entity.Owns file
  old : ∀ old ∈ s.files.rows, link s.tables entity = some old.key → old.id ≠ fileId →
    ∃ row ∈ s'.files.rows, row.id = old.id ∧ row.status = .deleted

/-- **The guarantee** of a call. -/
def Replaces (parse : String → Option Uuid) (config : StorageConfig) (s : LinkState) :
    Event → Prop
  | .confirm entity fileId actor contentLength =>
    ∀ url, (confirm parse config entity fileId actor contentLength s).2 = .ok url →
      Linked s entity fileId (confirm parse config entity fileId actor contentLength s).1
  | _ => True

/-- **The guarantee** of a state: no stored file is linked from two entities. -/
def Unshared (s : LinkState) : Prop :=
  ∀ file ∈ s.files.rows, ∀ entity entity', link s.tables entity = some file.key →
    link s.tables entity' = some file.key → entity = entity'

/-! ### The condition -/

/-- A call comes to link: the entity is there and has no link, and the file is one of the actor's,
which is completed, or is pending and has been put with the length that was declared. -/
def ComesToLink (s : LinkState) (entity : Entity) (fileId : Uuid) (actor : Actor)
    (contentLength : Option ℕ) : Prop :=
  current s.tables entity = .ok none ∧ ∃ file, findOwn s.files fileId actor.sub = some file ∧
    (file.status = .completed ∨ file.status = .pending ∧ contentLength = some file.sizeBytes)

/-- The condition on a step: a call that comes to link is given a file of the entity. -/
def GivenOwn (s : LinkState) : Event → Prop
  | .confirm entity fileId actor contentLength =>
    ComesToLink s entity fileId actor contentLength →
      ∀ file ∈ s.files.find fileId, entity.Owns file
  | _ => True

/-! ### Rows as they were presigned -/

/-- The row as it was presigned. -/
def presigned (file : StoredFile) : StoredFile :=
  { file with status := .pending, confirmedAt := none }

/-- The files are those that have been presigned before. -/
def SameFiles (files files' : Table StoredFile.id) : Prop :=
  files'.rows.map presigned = files.rows.map presigned

section Files

variable {files files' : Table StoredFile.id} {file x : StoredFile} {fileId uploaderId : Uuid}
  {now : Time} {config : StorageConfig} {contentLength : Option ℕ} {entity : Entity}

/-- An update that keeps what was presigned. -/
theorem sameFiles_updateWhere (p : StoredFile → Bool) {f : StoredFile → StoredFile}
    {hf : ∀ r, (f r).id = r.id} (h : ∀ r, presigned (f r) = presigned r) :
    SameFiles files (files.updateWhere p f hf) := by
  unfold SameFiles Table.updateWhere
  rw [List.map_map]
  refine List.map_congr_left fun r _ => ?_
  rw [Function.comp_apply]
  split
  · exact h r
  · rfl

theorem sameFiles_markDeleted (p : StoredFile → Bool) : SameFiles files (markDeleted files p) :=
  sameFiles_updateWhere p fun _ => rfl

theorem sameFiles_markCompleted (fileId : Uuid) (now : Time) :
    SameFiles files (markCompleted files fileId now) := by
  unfold markCompleted Table.update
  exact sameFiles_updateWhere _ fun _ => rfl

theorem SameFiles.exists_of_mem (h : SameFiles files files') (hx : x ∈ files'.rows) :
    ∃ file ∈ files.rows, presigned file = presigned x := by
  have hmem : presigned x ∈ files'.rows.map presigned := List.mem_map_of_mem hx
  rw [h] at hmem
  exact List.mem_map.1 hmem

theorem SameFiles.mem_of_exists (h : SameFiles files files') (hfile : file ∈ files.rows) :
    ∃ x ∈ files'.rows, presigned x = presigned file := by
  have hmem : presigned file ∈ files.rows.map presigned := List.mem_map_of_mem hfile
  rw [← h] at hmem
  exact List.mem_map.1 hmem

theorem SameFiles.find (h : SameFiles files files') (hfind : files.find fileId = some file) :
    ∃ x, files'.find fileId = some x ∧ presigned x = presigned file := by
  obtain ⟨x, hx, hsame⟩ := h.mem_of_exists (Table.mem_of_find hfind)
  have hsameId : (presigned x).id = (presigned file).id := congrArg StoredFile.id hsame
  have hfileId : file.id = fileId := Table.key_of_find hfind
  have hid : x.id = fileId := hsameId.trans hfileId
  exact ⟨x, hid ▸ Table.find_of_mem hx, hsame⟩

theorem key_eq_of_presigned (h : presigned x = presigned file) : x.key = file.key := by
  have hkey : (presigned x).key = (presigned file).key := congrArg StoredFile.key h
  exact hkey

/-- Whom a file has been presigned for is seen from the row as it was presigned. -/
theorem owns_presigned_iff : entity.Owns (presigned file) ↔ entity.Owns file := Iff.rfl

theorem owns_congr (h : presigned x = presigned file) : entity.Owns x ↔ entity.Owns file := by
  rw [← owns_presigned_iff, h, owns_presigned_iff]

theorem find_of_findOwn (h : findOwn files fileId uploaderId = some file) :
    files.find fileId = some file :=
  (Option.filter_eq_some_iff.1 h).1

/-- `confirmUpload` keeps what was presigned. -/
theorem sameFiles_confirmUpload (config : StorageConfig) (now : Time) (contentLength : Option ℕ)
    (fileId uploaderId : Uuid) (files : Table StoredFile.id) :
    SameFiles files
      (StorageService.confirmUpload config now contentLength fileId uploaderId files).1 := by
  have hrefl : SameFiles files files := rfl
  unfold StorageService.confirmUpload
  split
  · exact hrefl
  · split
    · exact hrefl
    · exact hrefl
    · split
      · exact hrefl
      · split
        · exact sameFiles_markCompleted _ _
        · exact sameFiles_markDeleted _

/-- `confirmUpload` succeeds for a file of the actor that is completed, or is pending and has been
put with the length that was declared. -/
theorem confirmUpload_eq_ok_iff {result : ConfirmUploadResult} :
    (StorageService.confirmUpload config now contentLength fileId uploaderId files).2 = .ok result ↔
      ∃ file, findOwn files fileId uploaderId = some file ∧
        (file.status = .completed ∨
          file.status = .pending ∧ contentLength = some file.sizeBytes) ∧
        result = ⟨file.id, file.key, resolveUrl config file.key⟩ := by
  unfold StorageService.confirmUpload
  cases hfind : findOwn files fileId uploaderId with
  | none => simp
  | some file =>
    cases hstatus : file.status with
    | completed => simp [hstatus, eq_comm]
    | deleted => simp [hstatus]
    | pending =>
      cases contentLength with
      | none => simp [hstatus]
      | some contentLength =>
        by_cases hlength : contentLength = file.sizeBytes
        · simp [hstatus, hlength, eq_comm]
        · simp [hstatus, hlength]

end Files

/-! ### Links -/

section Links

variable {parse : String → Option Uuid} {config : StorageConfig} {entity entity' : Entity}
  {fileId : Uuid} {actor : Actor} {contentLength : Option ℕ} {s : LinkState} {tables : Tables}
  {now : Time} {key : String} {old : Option String}

theorem link_of_current (h : current tables entity = .ok old) : link tables entity = old := by
  cases entity with
  | employee id =>
    obtain ⟨r, hr, rfl⟩ := Except.map_eq_ok_iff.1 h
    rw [link, Outcome.orThrow_eq_ok_iff.1 hr, Option.bind_some]
  | asset id =>
    obtain ⟨r, hr, rfl⟩ := Except.map_eq_ok_iff.1 h
    rw [link, Outcome.orThrow_eq_ok_iff.1 hr, Option.bind_some]
  | leaveRequest id =>
    obtain ⟨r, hr, rfl⟩ := Except.map_eq_ok_iff.1 h
    rw [link, Outcome.orThrow_eq_ok_iff.1 hr, Option.bind_some]

/-- The new link of an entity that is there. -/
theorem link_setLink_self (h : current tables entity = .ok old) :
    link (setLink entity now key tables) entity = some key := by
  cases entity with
  | employee id =>
    obtain ⟨r, hr, -⟩ := Except.map_eq_ok_iff.1 h
    have hfind : tables.employees.find id = some r := Outcome.orThrow_eq_ok_iff.1 hr
    simp [link, setLink, EmployeeDrizzleRepository.updatePhoto, Table.find_update_self, hfind]
  | asset id =>
    obtain ⟨r, hr, -⟩ := Except.map_eq_ok_iff.1 h
    have hfind : tables.assets.find id = some r := Outcome.orThrow_eq_ok_iff.1 hr
    simp [link, setLink, AssetDrizzleRepository.updatePhoto, Table.find_update_self, hfind]
  | leaveRequest id =>
    obtain ⟨r, hr, -⟩ := Except.map_eq_ok_iff.1 h
    have hfind : tables.leaveRequests.find id = some r := Outcome.orThrow_eq_ok_iff.1 hr
    simp [link, setLink, WorkforceDrizzleRepository.updateLeaveDocument, Table.find_update_self,
      hfind]

/-- The other entities keep their links. -/
theorem link_setLink_ne (h : entity' ≠ entity) :
    link (setLink entity now key tables) entity' = link tables entity' := by
  cases entity with
  | employee id =>
    cases entity' with
    | employee id' =>
      have hid : id' ≠ id := fun heq => h (congrArg Entity.employee heq)
      rw [link, setLink, EmployeeDrizzleRepository.updatePhoto, Table.find_update_ne _ hid, link]
    | asset id' => rfl
    | leaveRequest id' => rfl
  | asset id =>
    cases entity' with
    | asset id' =>
      have hid : id' ≠ id := fun heq => h (congrArg Entity.asset heq)
      rw [link, setLink, AssetDrizzleRepository.updatePhoto, Table.find_update_ne _ hid, link]
    | employee id' => rfl
    | leaveRequest id' => rfl
  | leaveRequest id =>
    cases entity' with
    | leaveRequest id' =>
      have hid : id' ≠ id := fun heq => h (congrArg Entity.leaveRequest heq)
      rw [link, setLink, WorkforceDrizzleRepository.updateLeaveDocument,
        Table.find_update_ne _ hid, link]
    | employee id' => rfl
    | asset id' => rfl

/-- The three services are one. -/
theorem confirm_eq (parse : String → Option Uuid) (config : StorageConfig) (entity : Entity)
    (fileId : Uuid) (actor : Actor) (contentLength : Option ℕ) (s : LinkState) :
    confirm parse config entity fileId actor contentLength s =
      confirmLinked parse config contentLength (current s.tables entity)
        (setLink entity s.now) fileId actor s := by
  cases entity <;> rfl

/-- What is presigned is a new row. -/
theorem presign_eq_ok {input : UploadInput} {keyId newId : Uuid} {s' : LinkState}
    {result : PresignUploadResult} (h : presign config entity input actor keyId newId s =
      .ok (s', result)) :
    ∃ file files, s' = { s with files := files } ∧ s.files.insert file = some files ∧
      file.key = result.key ∧ '/' ∈ file.key.toList := by
  have hlinked : ∀ {ρ : Type} (found : Except Failure ρ) (resourceType entityType : String)
      (id : Uuid), presignLinked config found resourceType entityType id input actor keyId newId s =
        .ok (s', result) → ∃ file files, s' = { s with files := files } ∧
          s.files.insert file = some files ∧ file.key = result.key ∧ '/' ∈ file.key.toList := by
    intro ρ found resourceType entityType id hok
    simp only [presignLinked, Except.bind_eq_ok_iff, Except.pure_eq_ok_iff, Prod.mk.injEq] at hok
    obtain ⟨-, -, ⟨files, presigned⟩, hpresigned, rfl, rfl⟩ := hok
    obtain ⟨-, hinsert, hkey⟩ := presignUpload_ok hpresigned
    exact ⟨_, files, rfl, hinsert, hkey.symm, by simp [newFile]⟩
  cases entity with
  | employee id => exact hlinked _ _ _ _ h
  | asset id => exact hlinked _ _ _ _ h
  | leaveRequest id => exact hlinked _ _ _ _ h

end Links

/-! ### What a step keeps -/

/-- Keys of files contain slashes and are different, and links are keys of files. -/
structure Kept (s : LinkState) : Prop where
  slash : ∀ file ∈ s.files.rows, '/' ∈ file.key.toList
  unique : ∀ file ∈ s.files.rows, ∀ file' ∈ s.files.rows, file.key = file'.key → file.id = file'.id
  links : ∀ entity key, link s.tables entity = some key → ∃ file ∈ s.files.rows, file.key = key

/-- What is linked has been presigned for the entity that it is linked from. -/
def LinksOwn (s : LinkState) : Prop :=
  ∀ entity, ∀ file ∈ s.files.rows, link s.tables entity = some file.key → entity.Owns file

section Steps

variable {parse : String → Option Uuid} {config : StorageConfig} {entity : Entity} {fileId : Uuid}
  {actor : Actor} {contentLength : Option ℕ} {s : LinkState} {key : String} {e : Event}
  {files : Table StoredFile.id} {file : StoredFile}

/-- The lookup of an old file by its key is rejected. -/
theorem deleteOld_some (hparse : ∀ text : String, '/' ∈ text.toList → parse text = none)
    (hslash : '/' ∈ key.toList) (files : Table StoredFile.id) :
    ∃ failure, deleteOld parse (some key) files = .error failure := by
  have hne : key ≠ "" := by
    rintro rfl
    simp at hslash
  have hfilter : (some key).filter (fun key => decide (key ≠ "")) = some key := by simp [hne]
  refine ⟨.error ("invalid input syntax for type uuid: " ++ key), ?_⟩
  rw [deleteOld, hfilter]
  simp only [StorageService.findById, hparse key hslash]
  rfl

/-- A confirmation links exactly if it comes to; else it throws, and at most the status of a file
has changed. -/
theorem confirm_cases (hparse : ∀ text : String, '/' ∈ text.toList → parse text = none)
    (h : Kept s) (entity : Entity) (fileId : Uuid) (actor : Actor) (contentLength : Option ℕ) :
    (¬ ComesToLink s entity fileId actor contentLength ∧ ∃ files failure, SameFiles s.files files ∧
      confirm parse config entity fileId actor contentLength s =
        ({ s with files := files }, .error failure)) ∨
    (ComesToLink s entity fileId actor contentLength ∧ ∃ files file url, SameFiles s.files files ∧
      s.files.find fileId = some file ∧
      confirm parse config entity fileId actor contentLength s =
        ({ s with files := files, tables := setLink entity s.now file.key s.tables }, .ok url)) := by
  have hsame := sameFiles_confirmUpload config s.now contentLength fileId actor.sub s.files
  rw [confirm_eq]
  unfold confirmLinked
  cases hcurrent : current s.tables entity with
  | error failure =>
    refine Or.inl ⟨fun hcomes => ?_, s.files, failure, rfl, rfl⟩
    cases hcurrent.symm.trans hcomes.1
  | ok old =>
    cases hconfirm :
      StorageService.confirmUpload config s.now contentLength fileId actor.sub s.files with
    | mk files outcome =>
      rw [hconfirm] at hsame
      cases outcome with
      | error failure =>
        refine Or.inl ⟨fun hcomes => ?_, files, failure, hsame, rfl⟩
        obtain ⟨-, file, hfind, hstatus⟩ := hcomes
        have hok := (@confirmUpload_eq_ok_iff s.files fileId actor.sub s.now config contentLength _).2
          ⟨file, hfind, hstatus, rfl⟩
        rw [hconfirm] at hok
        cases hok
      | ok result =>
        obtain ⟨file, hfind, hstatus, rfl⟩ :=
          confirmUpload_eq_ok_iff.1 (congrArg Prod.snd hconfirm)
        cases old with
        | none =>
          exact Or.inr ⟨⟨hcurrent, file, hfind, hstatus⟩, files, file, _, hsame,
            find_of_findOwn hfind, rfl⟩
        | some key =>
          obtain ⟨old, hold, rfl⟩ := h.links entity key (link_of_current hcurrent)
          obtain ⟨failure, hfailure⟩ := deleteOld_some hparse (h.slash old hold) files
          refine Or.inl ⟨fun hcomes => ?_, files, failure, hsame, ?_⟩
          · cases hcurrent.symm.trans hcomes.1
          · simp only [hfailure]

/-- The status of files does not matter. -/
theorem Kept.sameFiles (h : Kept s) (hsame : SameFiles s.files files) :
    Kept { s with files := files } := by
  refine ⟨fun x hx => ?_, fun x hx x' hx' heq => ?_, fun entity key hlink => ?_⟩
  · obtain ⟨file, hfile, hpresigned⟩ := hsame.exists_of_mem hx
    rw [← key_eq_of_presigned hpresigned]
    exact h.slash file hfile
  · obtain ⟨file, hfile, hpresigned⟩ := hsame.exists_of_mem hx
    obtain ⟨file', hfile', hpresigned'⟩ := hsame.exists_of_mem hx'
    rw [← key_eq_of_presigned hpresigned, ← key_eq_of_presigned hpresigned'] at heq
    have hid : (presigned file).id = (presigned file').id := h.unique file hfile file' hfile' heq
    rw [hpresigned, hpresigned'] at hid
    exact hid
  · obtain ⟨file, hfile, rfl⟩ := h.links entity key hlink
    obtain ⟨x, hx, hpresigned⟩ := hsame.mem_of_exists hfile
    exact ⟨x, hx, key_eq_of_presigned hpresigned⟩

theorem Kept.setLink (h : Kept s) {old : Option String}
    (hcurrent : current s.tables entity = .ok old) (hfile : file ∈ s.files.rows) :
    Kept { s with tables := setLink entity s.now file.key s.tables } := by
  refine ⟨h.slash, h.unique, fun entity' key hlink => ?_⟩
  by_cases heq : entity' = entity
  · subst heq
    have hself := @link_setLink_self entity' s.tables s.now file.key _ hcurrent
    exact ⟨file, hfile, Option.some.inj (hself.symm.trans hlink)⟩
  · exact h.links entity' key ((link_setLink_ne heq).symm.trans hlink)

/-- A new file with a new key. -/
theorem Kept.insert (h : Kept s) (hinsert : s.files.insert file = some files)
    (hslash : '/' ∈ file.key.toList) (hnew : ∀ x ∈ s.files.rows, x.key ≠ file.key) :
    Kept { s with files := files } := by
  refine ⟨Table.forall_mem_insert hinsert h.slash hslash, fun x hx x' hx' heq => ?_,
    fun entity key hlink => ?_⟩
  · rcases (Table.mem_insert hinsert).1 hx with hx | rfl
    · rcases (Table.mem_insert hinsert).1 hx' with hx' | rfl
      · exact h.unique x hx x' hx' heq
      · exact absurd heq (hnew x hx)
    · rcases (Table.mem_insert hinsert).1 hx' with hx' | rfl
      · exact absurd heq.symm (hnew x' hx')
      · rfl
  · obtain ⟨x, hx, rfl⟩ := h.links entity key hlink
    exact ⟨x, (Table.mem_insert hinsert).2 (Or.inl hx), rfl⟩

/-- **The step lemma.** -/
theorem kept_step (hparse : ∀ text : String, '/' ∈ text.toList → parse text = none)
    (s : LinkState) (e : Event) (h : Kept s) : Kept (step parse config s e) := by
  cases e with
  | presign entity input actor keyId newId =>
    simp only [step]
    split
    · rename_i s' result hok
      split
      · exact h
      · rename_i hnew
        obtain ⟨file, files, rfl, hinsert, hkey, hslash⟩ := presign_eq_ok hok
        refine h.insert hinsert hslash fun x hx heq => hnew ?_
        exact ⟨x, hx, heq.trans hkey⟩
    · exact h
  | confirm entity fileId actor contentLength =>
    rcases @confirm_cases parse config s hparse h entity fileId actor contentLength with
      ⟨-, files, failure, hsame, heq⟩ | ⟨hcomes, files, file, url, hsame, hfind, heq⟩
    · rw [step, heq]
      exact h.sameFiles hsame
    · rw [step, heq]
      exact (h.setLink hcomes.1 (Table.mem_of_find hfind)).sameFiles hsame
  | tick duration => exact ⟨h.slash, h.unique, h.links⟩

theorem LinksOwn.sameFiles (h : LinksOwn s) (hsame : SameFiles s.files files) :
    LinksOwn { s with files := files } := by
  intro entity x hx hlink
  obtain ⟨file, hfile, hpresigned⟩ := hsame.exists_of_mem hx
  rw [← owns_congr hpresigned]
  refine h entity file hfile ?_
  rw [key_eq_of_presigned hpresigned]
  exact hlink

theorem LinksOwn.setLink (h : LinksOwn s) (hkept : Kept s) {old : Option String}
    (hcurrent : current s.tables entity = .ok old) (hfile : file ∈ s.files.rows)
    (howns : entity.Owns file) :
    LinksOwn { s with tables := FileLinks.setLink entity s.now file.key s.tables } := by
  intro entity' x hx hlink
  by_cases heq : entity' = entity
  · subst heq
    have hself := @link_setLink_self entity' s.tables s.now file.key _ hcurrent
    have hkey : file.key = x.key := Option.some.inj (hself.symm.trans hlink)
    rw [← s.files.eq_of_key_eq hfile hx (hkept.unique file hfile x hx hkey)]
    exact howns
  · exact h entity' x hx ((link_setLink_ne heq).symm.trans hlink)

/-- A step of calls that are given files of their entities. -/
theorem linksOwn_step (hparse : ∀ text : String, '/' ∈ text.toList → parse text = none)
    (hkept : Kept s) (h : LinksOwn s) (hok : GivenOwn s e) : LinksOwn (step parse config s e) := by
  cases e with
  | presign entity input actor keyId newId =>
    simp only [step]
    split
    · rename_i s' result hpresign
      split
      · exact h
      · rename_i hnew
        obtain ⟨file, files, rfl, hinsert, hkey, -⟩ := presign_eq_ok hpresign
        intro entity' x hx hlink
        rcases (Table.mem_insert hinsert).1 hx with hx | rfl
        · exact h entity' x hx hlink
        · -- nothing is linked by a key that is new
          obtain ⟨old, hold, heq⟩ := hkept.links entity' _ hlink
          exact absurd ⟨old, hold, heq.trans hkey⟩ hnew
    · exact h
  | confirm entity fileId actor contentLength =>
    rcases @confirm_cases parse config s hparse hkept entity fileId actor contentLength with
      ⟨-, files, failure, hsame, heq⟩ | ⟨hcomes, files, file, url, hsame, hfind, heq⟩
    · rw [step, heq]
      exact h.sameFiles hsame
    · rw [step, heq]
      have howns : entity.Owns file := hok hcomes file hfind
      exact (h.setLink hkept hcomes.1 (Table.mem_of_find hfind) howns).sameFiles hsame
  | tick duration => exact h

/-- A call does what it is to do exactly if it is given a file of its entity, or does not come to
link. -/
theorem replaces_iff (hparse : ∀ text : String, '/' ∈ text.toList → parse text = none)
    (hkept : Kept s) (e : Event) : Replaces parse config s e ↔ GivenOwn s e := by
  cases e with
  | presign entity input actor keyId newId => exact Iff.rfl
  | tick duration => exact Iff.rfl
  | confirm entity fileId actor contentLength =>
    rw [Replaces, GivenOwn]
    rcases @confirm_cases parse config s hparse hkept entity fileId actor contentLength with
      ⟨hnot, files, failure, hsame, heq⟩ | ⟨hcomes, files, file, url, hsame, hfind, heq⟩
    · rw [heq]
      refine iff_of_true (fun url hok => ?_) (fun hcomes => absurd hcomes hnot)
      cases hok
    · rw [heq]
      obtain ⟨x, hx, hpresigned⟩ := hsame.find hfind
      have hlink := @link_setLink_self entity s.tables s.now file.key _ hcomes.1
      constructor
      · intro hlinked _ file' hfile'
        obtain ⟨x', hx', -, howns⟩ := (hlinked url rfl).file
        obtain rfl := Option.some.inj (hx.symm.trans hx')
        obtain rfl := Option.some.inj (hfind.symm.trans hfile')
        exact (owns_congr hpresigned).1 howns
      · intro hgiven url' _
        refine ⟨⟨x, hx, ?_, (owns_congr hpresigned).2 (hgiven hcomes file hfind)⟩, ?_⟩
        · rw [key_eq_of_presigned hpresigned]
          exact hlink
        · -- an entity that a call comes to link has no link yet
          intro old hold hlinked
          rw [link_of_current hcomes.1] at hlinked
          cases hlinked

end Steps

/-- At the start nothing is linked. -/
theorem link_initial (tables : Tables) (now : Time) (entity : Entity) :
    link (initial tables now).tables entity = none := by
  cases entity with
  | employee id =>
    simp only [link, initial, Table.find_updateWhere, Option.bind_map]
    cases tables.employees.find id <;> rfl
  | asset id =>
    simp only [link, initial, Table.find_updateWhere, Option.bind_map]
    cases tables.assets.find id <;> rfl
  | leaveRequest id =>
    simp only [link, initial, Table.find_updateWhere, Option.bind_map]
    cases tables.leaveRequests.find id <;> rfl

theorem kept_initial (tables : Tables) (now : Time) : Kept (initial tables now) := by
  refine ⟨fun file hfile => ?_, fun file hfile => ?_, fun entity key hlink => ?_⟩
  · cases hfile
  · cases hfile
  · cases (link_initial tables now entity).symm.trans hlink

/-- **Files are replaced as they should throughout a run exactly if** every call that comes to link
is given a file of its entity; `hparse` is what PostgreSQL does with texts that are no UUIDs. -/
theorem always_replaces_iff (parse : String → Option Uuid)
    (hparse : ∀ text : String, '/' ∈ text.toList → parse text = none) (config : StorageConfig)
    (tables : Tables) (now : Time) (es : List Event) :
    (Meets (step parse config) (Replaces parse config) (initial tables now) es ∧
      ∀ fs, fs <+: es → Unshared (run (step parse config) (initial tables now) fs)) ↔
    Meets (step parse config) GivenOwn (initial tables now) es := by
  have hkept := kept_initial tables now
  have hcongr : Meets (step parse config) (Replaces parse config) (initial tables now) es ↔
      Meets (step parse config) GivenOwn (initial tables now) es :=
    meets_congr_within (kept_step hparse) (fun s e hs => replaces_iff hparse hs e) hkept
  rw [hcongr, and_iff_left_iff_imp]
  intro hgiven fs hfs file hfile entity entity' hlink hlink'
  have hinitial : LinksOwn (initial tables now) := fun _ file hfile => by cases hfile
  have hown : LinksOwn (run (step parse config) (initial tables now) fs) :=
    run_induction_within (kept_step hparse) (fun _ _ hs hown hok => linksOwn_step hparse hs hown hok)
      hkept hinitial (hgiven.of_prefix hfs)
  exact (hown entity file hfile hlink).eq (hown entity' file hfile hlink')

namespace Sample

/-- A text that is no UUID is rejected. -/
def parse (text : String) : Option Uuid := if '/' ∈ text.toList then none else text.toNat?

theorem parse_slash (text : String) (h : '/' ∈ text.toList) : parse text = none := if_pos h

/-- No CDN; the URLs do not matter here. -/
def config : StorageConfig := ⟨"files", none, fun key _ _ => key, id, id⟩

def actor : Actor := ⟨1, "user1@example.com"⟩

/-- An employee with a leave request. -/
def tables : Tables :=
  { Tables.empty with
    employees :=
      ⟨[⟨1, none, "user1@example.com", "User 1", [], .active, none, 0⟩], List.nodup_singleton _⟩
    leaveRequests :=
      ⟨[⟨30, 1, .sick, 1, 2, none, .pending, none, none, none, none⟩], List.nodup_singleton _⟩ }

/-- The avatar is presigned and confirmed. -/
def avatar : List Event :=
  [.presign (.employee 1) ⟨"me.png", "image/png", 1000⟩ actor 50 51,
    .confirm (.employee 1) 51 actor (some 1000)]

/-- Then the same file is confirmed as the document of the leave request. -/
def reused : List Event := avatar ++ [.confirm (.leaveRequest 30) 51 actor none]

/-- The avatar becomes the document of the leave request: it is linked from two entities, for one
of which it has not been presigned. -/
theorem not_replaces :
    ¬ (∀ es, Meets (step parse config) (Replaces parse config) (initial tables 0) es ∧
      ∀ fs, fs <+: es → Unshared (run (step parse config) (initial tables 0) fs)) ∧
    link (run (step parse config) (initial tables 0) reused).tables (.employee 1) =
      some "employee-avatar/1/50.png" ∧
    link (run (step parse config) (initial tables 0) reused).tables (.leaveRequest 30) =
      some "employee-avatar/1/50.png" := by
  have hemployee : link (run (step parse config) (initial tables 0) reused).tables (.employee 1) =
      some "employee-avatar/1/50.png" := by decide +kernel
  have hleave : link (run (step parse config) (initial tables 0) reused).tables
      (.leaveRequest 30) = some "employee-avatar/1/50.png" := by decide +kernel
  refine ⟨fun h => ?_, hemployee, hleave⟩
  have hfile : ∃ file ∈ (run (step parse config) (initial tables 0) reused).files.rows,
      file.key = "employee-avatar/1/50.png" := by decide +kernel
  obtain ⟨file, hmem, hkey⟩ := hfile
  have hsame := (h reused).2 reused (List.prefix_refl _) file hmem (.employee 1) (.leaveRequest 30)
    (hkey ▸ hemployee) (hkey ▸ hleave)
  cases hsame

/-- The guarantee for the avatar alone. -/
theorem always_replaces_avatar :
    (Meets (step parse config) (Replaces parse config) (initial tables 0) avatar ∧
      ∀ fs, fs <+: avatar → Unshared (run (step parse config) (initial tables 0) fs)) ∧
    link (run (step parse config) (initial tables 0) avatar).tables (.employee 1) =
      some "employee-avatar/1/50.png" := by
  refine ⟨(always_replaces_iff parse parse_slash config tables 0 avatar).2
    ⟨trivial, fun _ => ?_, trivial⟩, by decide +kernel⟩
  decide +kernel

end Sample

end FileLinks

end OpsHub
