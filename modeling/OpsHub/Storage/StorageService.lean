import OpsHub.Lib.Runs
import OpsHub.Lib.Table
import OpsHub.Lib.Outcome
import OpsHub.Platform.Errors
import OpsHub.Requests.Types

/-!
# The storage service

`StorageService`: files that clients put into a bucket by presigned URLs, and the rows that keep
track of them.  Any number of calls may be in flight; each goes on by one statement on the
database, or by one request to S3, at a time.

* `StoredFile`, `resourceRules`, `presignUpload`: the rows, and what is checked before one is made;
* `Call`, `Call.advance`: what a call of `confirmUpload`, `deleteFile` or `purgeOrphanedUploads`
  has still to do, and the next statement of it;
* `Storage.step`: the state after one event, and `step_cases`: everything that an event can do.

The bucket remembers which objects the service has deleted since they were put last.
-/

namespace OpsHub

/-! ### Files -/

/-- `StoredFileStatus`. -/
inductive StoredFileStatus
  | pending
  | completed
  | deleted
  deriving DecidableEq, Repr

/-- A row of `stored_files`. -/
structure StoredFile where
  id : Uuid
  key : String
  originalName : String
  mimeType : String
  sizeBytes : ℕ
  resourceType : String
  status : StoredFileStatus := .pending
  uploaderId : Uuid
  linkedEntityType : Option String
  linkedEntityId : Option Uuid
  createdAt : Time
  confirmedAt : Option Time := none
  deriving DecidableEq, Repr

/-- The rules for a type of resources. -/
structure ResourceRules where
  allowedMimeTypes : List String
  maxSizeBytes : ℕ
  deriving DecidableEq, Repr

namespace StorageService

/-- `MB`. -/
def mb : ℕ := 1024 * 1024

/-- `RESOURCE_RULES`. -/
def resourceRules : List (String × ResourceRules) :=
  [("employee-avatar", ⟨["image/jpeg", "image/png", "image/webp"], 5 * mb⟩),
    ("asset-photo", ⟨["image/jpeg", "image/png", "image/webp"], 10 * mb⟩),
    ("leave-document", ⟨["application/pdf", "image/jpeg", "image/png"], 10 * mb⟩),
    ("access-request-document", ⟨["application/pdf",
      "application/vnd.openxmlformats-officedocument.wordprocessingml.document"], 10 * mb⟩),
    ("compliance-report", ⟨["application/pdf", "text/csv",
      "application/vnd.openxmlformats-officedocument.spreadsheetml.sheet"], 50 * mb⟩)]

/-- `ORPHAN_CUTOFF_HOURS`, in milliseconds. -/
def orphanCutoff : ℕ := 24 * 3600000

end StorageService

/-- `PresignUploadInput`. -/
structure PresignUploadInput where
  fileName : String
  mimeType : String
  sizeBytes : ℕ
  resourceType : String
  linkedEntityType : Option String := none
  linkedEntityId : Option Uuid := none
  deriving DecidableEq, Repr

/-- `PresignUploadResult`. -/
structure PresignUploadResult where
  fileId : Uuid
  uploadUrl : String
  key : String
  deriving DecidableEq, Repr

/-- `ConfirmUploadResult`. -/
structure ConfirmUploadResult where
  fileId : Uuid
  key : String
  url : String
  deriving DecidableEq, Repr

/-- The configuration, what `getSignedUrl` makes of requests, and `toLowerCase`. -/
structure StorageConfig where
  bucket : String
  cdnBaseUrl : Option String
  signPut : String → String → ℕ → String
  signGet : String → String
  toLowerCase : String → String

namespace StorageService

/-- The extension of a file name, with its dot: what `split('.').pop()` finds. -/
def extension (config : StorageConfig) (fileName : String) : String :=
  if '.' ∈ fileName.toList then
    "." ++ config.toLowerCase
      (String.ofList (fileName.toList.reverse.takeWhile (fun c => decide (c ≠ '.'))).reverse)
  else ""

/-- The row that `presignUpload` inserts; `keyId` and `newId` are the ids that it draws. -/
def newFile (config : StorageConfig) (input : PresignUploadInput) (uploaderId keyId newId : Uuid)
    (now : Time) : StoredFile where
  id := newId
  key := input.resourceType ++ "/" ++ toString uploaderId ++ "/" ++ toString keyId ++
    extension config input.fileName
  originalName := input.fileName
  mimeType := input.mimeType
  sizeBytes := input.sizeBytes
  resourceType := input.resourceType
  uploaderId := uploaderId
  linkedEntityType := input.linkedEntityType
  linkedEntityId := input.linkedEntityId
  createdAt := now

/-- The checks of `presignUpload`. -/
def checkUpload (input : PresignUploadInput) : Except Failure Unit := do
  let rules ← Outcome.orThrow
    (.validation "FILE_TYPE_NOT_ALLOWED" ("Unknown resource type: " ++ input.resourceType))
    (resourceRules.lookup input.resourceType)
  Outcome.require (input.mimeType ∈ rules.allowedMimeTypes) (.validation "FILE_TYPE_NOT_ALLOWED"
    ("MIME type " ++ input.mimeType ++ " not allowed for " ++ input.resourceType ++ ". Allowed: " ++
      ", ".intercalate rules.allowedMimeTypes))
  Outcome.require (input.sizeBytes ≤ rules.maxSizeBytes) (.validation "FILE_TOO_LARGE"
    ("File size " ++ toString input.sizeBytes ++ " exceeds the " ++ toString rules.maxSizeBytes ++
      " byte limit for " ++ input.resourceType))

/-- `presignUpload`. -/
def presignUpload (config : StorageConfig) (input : PresignUploadInput)
    (uploaderId keyId newId : Uuid) (now : Time) (files : Table StoredFile.id) :
    Except Failure (Table StoredFile.id × PresignUploadResult) := do
  checkUpload input
  let file := newFile config input uploaderId keyId newId now
  let files ← Outcome.orThrow (.duplicateKey "stored_files") (files.insert file)
  pure (files, ⟨file.id, config.signPut file.key input.mimeType input.sizeBytes, file.key⟩)

/-- A file is presigned if it passes the checks and its row is inserted. -/
theorem presignUpload_ok {config : StorageConfig} {input : PresignUploadInput}
    {uploaderId keyId newId : Uuid} {now : Time} {files files' : Table StoredFile.id}
    {result : PresignUploadResult}
    (h : presignUpload config input uploaderId keyId newId now files = .ok (files', result)) :
    checkUpload input = .ok () ∧
      files.insert (newFile config input uploaderId keyId newId now) = some files' ∧
      result.key = (newFile config input uploaderId keyId newId now).key := by
  simp only [presignUpload, Except.bind_eq_ok_iff, Outcome.orThrow_eq_ok_iff,
    Except.pure_eq_ok_iff, Prod.mk.injEq] at h
  obtain ⟨_, hchecked, _, hinsert, rfl, rfl⟩ := h
  exact ⟨hchecked, hinsert, rfl⟩

/-- `resolveUrl`. -/
def resolveUrl (config : StorageConfig) (key : String) : String :=
  match config.cdnBaseUrl with
  | some cdnBaseUrl => cdnBaseUrl ++ "/" ++ key
  | none => if config.bucket = "" then "/dev/files/" ++ key else config.signGet key

/-- The row of a file of the uploader. -/
def findOwn (files : Table StoredFile.id) (fileId uploaderId : Uuid) : Option StoredFile :=
  (files.find fileId).filter (fun file => decide (file.uploaderId = uploaderId))

/-- The pending rows that are older than `cutoff`. -/
def isOrphan (cutoff : Time) (file : StoredFile) : Bool :=
  decide (file.status = .pending ∧ file.createdAt < cutoff)

end StorageService

/-! ### Calls -/

namespace Storage

open StorageService

/-- How a call ends. -/
inductive Answer
  | confirmed (result : ConfirmUploadResult)
  | deleted
  | purged (count : ℕ)
  | thrown (failure : Failure)
  deriving DecidableEq, Repr

/-- What a call has still to do. -/
inductive Call
  /-- `confirmUpload`, after it has read the row: `headObject`. -/
  | headObject (file : StoredFile)
  /-- Then, if the sizes agree: the update to `completed`. -/
  | complete (file : StoredFile)
  /-- Or, if they do not: the update to `deleted`. -/
  | reject (file : StoredFile) (contentLength : ℕ)
  /-- `deleteFile`, after it has read the row: the update to `deleted`. -/
  | softDelete (file : StoredFile)
  /-- Then: the request to S3, which is not waited for. -/
  | deleteObject (key : String)
  /-- `purgeOrphanedUploads`, after it has read the rows: the requests to S3 that are under way,
  then the update. -/
  | purge (keys : List String) (cutoff : Time) (count : ℕ)
  | finished (answer : Answer)
  deriving DecidableEq, Repr

/-- The beginning of `confirmUpload`. -/
def confirmUpload (config : StorageConfig) (files : Table StoredFile.id)
    (fileId uploaderId : Uuid) : Except Failure Call := do
  let file ← Outcome.orThrow (.notFound "FILE_NOT_FOUND" "Stored file not found")
    (findOwn files fileId uploaderId)
  match file.status with
  | .completed => pure (.finished (.confirmed ⟨file.id, file.key, resolveUrl config file.key⟩))
  | .deleted => .error (.validation "FILE_NOT_FOUND" "This file has been deleted")
  | .pending => pure (.headObject file)

/-- The beginning of `deleteFile`. -/
def deleteFile (files : Table StoredFile.id) (fileId uploaderId : Uuid) : Except Failure Call := do
  let file ← Outcome.orThrow (.notFound "FILE_NOT_FOUND" "Stored file not found")
    (findOwn files fileId uploaderId)
  pure (.softDelete file)

/-- The beginning of `purgeOrphanedUploads`. -/
def purgeOrphanedUploads (files : Table StoredFile.id) (now : Time) : Call :=
  let rows := files.rows.filter (isOrphan (now - orphanCutoff))
  if rows = [] then .finished (.purged 0)
  else .purge (rows.map StoredFile.key) (now - orphanCutoff) rows.length

/-- The objects of the bucket with their lengths, and whether the service has deleted the object
of a key since it was put last. -/
structure Bucket where
  objects : String → Option ℕ
  removed : String → Bool

/-- The client puts an object. -/
def Bucket.put (bucket : Bucket) (key : String) (contentLength : ℕ) : Bucket where
  objects := Function.update bucket.objects key (some contentLength)
  removed := Function.update bucket.removed key false

/-- The service deletes an object. -/
def Bucket.delete (bucket : Bucket) (key : String) : Bucket where
  objects := Function.update bucket.objects key none
  removed := Function.update bucket.removed key true

/-- Set the rows that meet `p` to `deleted`. -/
def markDeleted (files : Table StoredFile.id) (p : StoredFile → Bool) : Table StoredFile.id :=
  files.updateWhere p (fun file => { file with status := .deleted }) (fun _ => rfl)

/-- Set the row of a file to `completed`. -/
def markCompleted (files : Table StoredFile.id) (fileId : Uuid) (now : Time) : Table StoredFile.id :=
  files.update fileId (fun file => { file with status := .completed, confirmedAt := some now })
    (fun _ => rfl)

section Marks

variable {files : Table StoredFile.id} {p : StoredFile → Bool} {id fileId : Uuid} {now : Time}

theorem mem_markDeleted {x : StoredFile} : x ∈ (markDeleted files p).rows ↔
    ∃ file ∈ files.rows, (if p file then { file with status := .deleted } else file) = x :=
  Table.mem_updateWhere

theorem find_markDeleted : (markDeleted files p).find id =
    (files.find id).map fun file => if p file then { file with status := .deleted } else file :=
  Table.find_updateWhere files p _ _ id

theorem find_markCompleted_self : (markCompleted files fileId now).find fileId =
    (files.find fileId).map fun file =>
      { file with status := .completed, confirmedAt := some now } :=
  Table.find_update_self files fileId _ _

theorem find_markCompleted_ne (h : id ≠ fileId) :
    (markCompleted files fileId now).find id = files.find id :=
  Table.find_update_ne files h _ _

theorem mem_markCompleted {x : StoredFile} (h : x ∈ (markCompleted files fileId now).rows) :
    (∃ file, files.find fileId = some file ∧
        x = { file with status := .completed, confirmedAt := some now }) ∨
      (x ∈ files.rows ∧ x.id ≠ fileId) :=
  Table.mem_update h

end Marks

/-- The next statement or request of a call.  `ok` says whether S3 does what it is asked for, and
`j` which of several requests is answered. -/
def Call.advance (config : StorageConfig) (now : Time) (j : ℕ) (ok : Bool)
    (files : Table StoredFile.id) (bucket : Bucket) :
    Call → (Table StoredFile.id × Bucket) × Call
  | .headObject file =>
    match if ok then bucket.objects file.key else none with
    | none => ((files, bucket), .finished (.thrown (.validation "FILE_NOT_UPLOADED"
        "File not found in storage. Upload the file to the presigned URL first.")))
    | some contentLength =>
      if contentLength = file.sizeBytes then ((files, bucket), .complete file)
      else ((files, bucket), .reject file contentLength)
  | .complete file =>
    ((markCompleted files file.id now, bucket),
      .finished (.confirmed ⟨file.id, file.key, resolveUrl config file.key⟩))
  | .reject file contentLength =>
    ((markDeleted files (fun f => decide (f.id = file.id)), bucket),
      .finished (.thrown (.validation "FILE_SIZE_MISMATCH" ("Uploaded size (" ++
        toString contentLength ++ ") does not match declared size (" ++ toString file.sizeBytes ++
          ")"))))
  | .softDelete file =>
    ((markDeleted files (fun f => decide (f.id = file.id)), bucket), .deleteObject file.key)
  | .deleteObject key =>
    ((files, if ok then bucket.delete key else bucket), .finished .deleted)
  | .purge [] cutoff count =>
    ((markDeleted files (isOrphan cutoff), bucket), .finished (.purged count))
  | .purge (key :: keys) cutoff count =>
    match (key :: keys)[j]? with
    | some removed =>
      ((files, if ok then bucket.delete removed else bucket),
        .purge ((key :: keys).eraseIdx j) cutoff count)
    | none => ((files, bucket), .purge (key :: keys) cutoff count)
  | .finished answer => ((files, bucket), .finished answer)

/-! ### The machine -/

/-- The rows, the bucket, the clock, and the calls that have begun. -/
structure State where
  files : Table StoredFile.id
  bucket : Bucket
  now : Time
  calls : List Call

/-- Nothing has been called yet, and nothing has been deleted. -/
def State.initial (files : Table StoredFile.id) (objects : String → Option ℕ) (now : Time) :
    State where
  files := files
  bucket := ⟨objects, fun _ => false⟩
  now := now
  calls := []

/-- What can happen. -/
inductive Event
  | presignUpload (input : PresignUploadInput) (uploaderId keyId newId : Uuid)
  /-- The client puts an object by a presigned URL. -/
  | put (key : String) (contentLength : ℕ)
  | confirmUpload (fileId uploaderId : Uuid)
  | deleteFile (fileId uploaderId : Uuid)
  | purgeOrphanedUploads
  | advance (i j : ℕ) (ok : Bool)
  | tick (duration : ℕ)
  deriving DecidableEq, Repr

/-- The state in which a call has begun, unless it throws. -/
def State.beginWith (s : State) : Except Failure Call → State
  | .ok call => { s with calls := s.calls ++ [call] }
  | .error _ => s

/-- The state after one event; a call that throws at once leaves no trace. -/
def step (config : StorageConfig) (s : State) : Event → State
  | .presignUpload input uploaderId keyId newId =>
    match presignUpload config input uploaderId keyId newId s.now s.files with
    | .ok (files, _) => { s with files := files }
    | .error _ => s
  | .put key contentLength => { s with bucket := s.bucket.put key contentLength }
  | .confirmUpload fileId uploaderId =>
    s.beginWith (confirmUpload config s.files fileId uploaderId)
  | .deleteFile fileId uploaderId => s.beginWith (deleteFile s.files fileId uploaderId)
  | .purgeOrphanedUploads => s.beginWith (.ok (purgeOrphanedUploads s.files s.now))
  | .advance i j ok =>
    match s.calls[i]? with
    | some call =>
      { s with
        files := (call.advance config s.now j ok s.files s.bucket).1.1
        bucket := (call.advance config s.now j ok s.files s.bucket).1.2
        calls := s.calls.set i (call.advance config s.now j ok s.files s.bucket).2 }
    | none => s
  | .tick duration => { s with now := s.now + duration }

/-! ### What an event can do -/

/-- The file that an event sets to `completed`. -/
def State.completing (s : State) : Event → Option StoredFile
  | .advance i _ _ =>
    match s.calls[i]? with
    | some (.complete file) => some file
    | _ => none
  | _ => none

/-- The key whose object an event deletes from the bucket. -/
def State.removing (s : State) : Event → Option String
  | .advance i j true =>
    match s.calls[i]? with
    | some (.deleteObject key) => some key
    | some (.purge keys _ _) => keys[j]?
    | _ => none
  | _ => none

/-- What an event can do; the calls may go on in any case. -/
inductive Step (s : State) : Event → State → Prop
  /-- The rows and the bucket stay as they are. -/
  | quiet {e : Event} {s' : State} (hfiles : s'.files = s.files) (hbucket : s'.bucket = s.bucket)
      (hcompleting : s.completing e = none) (hremoving : s.removing e = none) : Step s e s'
  | presigned {input : PresignUploadInput} {uploaderId keyId newId : Uuid}
      {file : StoredFile} {files : Table StoredFile.id} (hpending : file.status = .pending)
      (hinsert : s.files.insert file = some files) :
      Step s (.presignUpload input uploaderId keyId newId) { s with files := files }
  | put (key : String) (contentLength : ℕ) :
      Step s (.put key contentLength) { s with bucket := s.bucket.put key contentLength }
  | completed {i j : ℕ} {ok : Bool} {file : StoredFile} {calls : List Call}
      (hcall : s.calls[i]? = some (.complete file)) :
      Step s (.advance i j ok)
        { s with files := markCompleted s.files file.id s.now, calls := calls }
  | deleted {i j : ℕ} {ok : Bool} {p : StoredFile → Bool} {calls : List Call}
      (hcompleting : s.completing (.advance i j ok) = none)
      (hremoving : s.removing (.advance i j ok) = none) :
      Step s (.advance i j ok) { s with files := markDeleted s.files p, calls := calls }
  | removed {i j : ℕ} {key : String} {calls : List Call}
      (hcompleting : s.completing (.advance i j true) = none)
      (hremoving : s.removing (.advance i j true) = some key) :
      Step s (.advance i j true) { s with bucket := s.bucket.delete key, calls := calls }

/-- The beginning of a call changes nothing. -/
theorem Step.beginWith {s : State} {e : Event} (outcome : Except Failure Call)
    (hcompleting : s.completing e = none) (hremoving : s.removing e = none) :
    Step s e (s.beginWith outcome) := by
  cases outcome with
  | error failure => exact .quiet rfl rfl hcompleting hremoving
  | ok call => exact .quiet rfl rfl hcompleting hremoving

/-- `headObject` changes nothing. -/
theorem advance_headObject (config : StorageConfig) (now : Time) (j : ℕ) (ok : Bool)
    (files : Table StoredFile.id) (bucket : Bucket) (file : StoredFile) :
    ((Call.headObject file).advance config now j ok files bucket).1 = (files, bucket) := by
  simp only [Call.advance]
  split
  · rfl
  · split <;> rfl

/-- Only a call that is to set a file to `completed` does. -/
theorem completing_advance {s : State} {i : ℕ} {call : Call} (hcall : s.calls[i]? = some call)
    (h : ∀ file, call ≠ .complete file) (j : ℕ) (ok : Bool) :
    s.completing (.advance i j ok) = none := by
  simp only [State.completing, hcall]
  cases call with
  | complete file => exact absurd rfl (h file)
  | _ => rfl

/-- Only a deletion from the bucket removes an object. -/
theorem removing_advance {s : State} {i : ℕ} {call : Call} (hcall : s.calls[i]? = some call)
    (h : (∀ key, call ≠ .deleteObject key) ∧ ∀ keys cutoff count, call ≠ .purge keys cutoff count)
    (j : ℕ) (ok : Bool) : s.removing (.advance i j ok) = none := by
  cases ok with
  | false => rfl
  | true =>
    simp only [State.removing, hcall]
    cases call with
    | deleteObject key => exact absurd rfl (h.1 key)
    | purge keys cutoff count => exact absurd rfl (h.2 keys cutoff count)
    | _ => rfl

/-- The key that the next request of a purge deletes. -/
theorem removing_purge {s : State} {i : ℕ} {keys : List String} {cutoff : Time} {count : ℕ}
    (hcall : s.calls[i]? = some (.purge keys cutoff count)) (j : ℕ) :
    s.removing (.advance i j true) = keys[j]? := by
  simp only [State.removing, hcall]

/-- The next deletion of a purge, or the marking that comes after the last. -/
theorem advance_purge (config : StorageConfig) {s : State} {i : ℕ} {keys : List String}
    {cutoff : Time} {count : ℕ} (hcall : s.calls[i]? = some (.purge keys cutoff count)) (j : ℕ)
    (ok : Bool) : Step s (.advance i j ok) (step config s (.advance i j ok)) := by
  have hcompleting := completing_advance hcall (fun _ h => by cases h) j
  have hremoving := removing_purge hcall j
  have hfailed : s.removing (.advance i j false) = none := rfl
  simp only [step, hcall]
  cases keys with
  | nil =>
    refine .deleted (hcompleting ok) ?_
    cases ok with
    | false => exact hfailed
    | true => exact hremoving
  | cons key keys =>
    simp only [Call.advance]
    cases hkey : (key :: keys)[j]? with
    | none =>
      refine .quiet rfl rfl (hcompleting ok) ?_
      cases ok with
      | false => exact hfailed
      | true => exact hremoving.trans hkey
    | some removed =>
      cases ok with
      | false => exact .quiet rfl rfl (hcompleting false) hfailed
      | true => exact .removed (hcompleting true) (hremoving.trans hkey)

/-- The next statement or request of a call. -/
theorem advance_cases (config : StorageConfig) {s : State} {i : ℕ} {call : Call}
    (hcall : s.calls[i]? = some call) (j : ℕ) (ok : Bool) :
    Step s (.advance i j ok) (step config s (.advance i j ok)) := by
  have hcompleting := fun h => completing_advance hcall h j ok
  have hremoving := fun h => removing_advance hcall h j ok
  cases call with
  | purge keys cutoff count => exact advance_purge config hcall j ok
  | headObject file =>
    have hsame := advance_headObject config s.now j ok s.files s.bucket file
    simp only [step, hcall]
    exact .quiet (congrArg Prod.fst hsame) (congrArg Prod.snd hsame) (hcompleting (by simp))
      (hremoving (by simp))
  | complete file =>
    simp only [step, hcall]
    exact .completed hcall
  | reject file contentLength =>
    simp only [step, hcall]
    exact .deleted (hcompleting (by simp)) (hremoving (by simp))
  | softDelete file =>
    simp only [step, hcall]
    exact .deleted (hcompleting (by simp)) (hremoving (by simp))
  | deleteObject key =>
    simp only [step, hcall]
    cases ok with
    | false => exact .quiet rfl rfl (hcompleting (by simp)) rfl
    | true => exact .removed (hcompleting (by simp)) (by simp only [State.removing, hcall])
  | finished answer =>
    simp only [step, hcall]
    exact .quiet rfl rfl (hcompleting (by simp)) (hremoving (by simp))

/-- **What an event can do**, said once. -/
theorem step_cases (config : StorageConfig) (s : State) (e : Event) :
    Step s e (step config s e) := by
  cases e with
  | presignUpload input uploaderId keyId newId =>
    simp only [step]
    split
    · rename_i files result hok
      exact .presigned rfl (presignUpload_ok hok).2.1
    · exact .quiet rfl rfl rfl rfl
  | put key contentLength => exact .put key contentLength
  | confirmUpload fileId uploaderId =>
    exact Step.beginWith (confirmUpload config s.files fileId uploaderId) rfl rfl
  | deleteFile fileId uploaderId =>
    exact Step.beginWith (deleteFile s.files fileId uploaderId) rfl rfl
  | purgeOrphanedUploads =>
    exact Step.beginWith (.ok (purgeOrphanedUploads s.files s.now)) rfl rfl
  | tick duration => exact .quiet rfl rfl rfl rfl
  | advance i j ok =>
    cases hcall : s.calls[i]? with
    | none =>
      have hquiet : step config s (.advance i j ok) = s := by simp only [step, hcall]
      rw [hquiet]
      refine .quiet rfl rfl ?_ ?_
      · simp only [State.completing, hcall]
      · cases ok <;> simp only [State.removing, hcall]
    | some call => exact advance_cases config hcall j ok

end Storage

end OpsHub
