import OpsHub.Lib.Pool
import OpsHub.Storage.FileLinks

/-!
# Links that last

`confirmAvatar`, `confirmPhoto` and `confirmLeaveDocument` read the entity, then let the storage
service confirm the upload, then look the old file up, and then write the link; `deleteAvatar`
reads, looks up and clears.  Any number of such calls are in flight, statement by statement, while
clients put objects and the cleanup purges what has not been confirmed.

* `LinkCall`, `LinkCall.advance`: what such a call has still to do, and the next statement of it;
* `LinkSystem`, `step`: all of them with the storage service;
* `LinksMove`: what a step can do to files and links;
* `links_remain`: an entity that has a link never loses it: the avatar that `deleteAvatar` finds is
  the one that it cannot delete;
* `always_firm_iff`: links stay the same and lead to completed files exactly if no call writes over
  the link of another, or links or rejects a file behind the back of another.
-/

namespace OpsHub

open StorageService

/-- The service that writes the link of an entity, or clears it. -/
def FileLinks.writeLink (entity : Entity) (now : Time) (link : Option String) (tables : Tables) :
    Tables :=
  match entity with
  | .employee id => EmployeeDrizzleRepository.updatePhoto id link now tables
  | .asset id => AssetDrizzleRepository.updatePhoto id link now tables
  | .leaveRequest id => WorkforceDrizzleRepository.updateLeaveDocument id link tables

open FileLinks (Entity)

/-! ### Calls -/

/-- What a call has still to do. -/
inductive LinkCall
  /-- The beginning of `confirmUpload`; `old` is the link that has been read. -/
  | confirmUpload (entity : Entity) (old : Option String) (fileId uploaderId : Uuid)
  /-- Its other statements. -/
  | confirming (entity : Entity) (old : Option String) (call : Storage.Call)
  /-- `findById` of the old file. -/
  | findOld (entity : Entity) (old : String) (link : Option String)
  /-- The update of the link. -/
  | writeLink (entity : Entity) (link : Option String)
  | finished
  deriving DecidableEq, Repr

namespace LinkCall

/-- An empty link counts as none. -/
def findOrWrite (entity : Entity) (old link : Option String) : LinkCall :=
  match old.filter fun key => decide (key ≠ "") with
  | some key => .findOld entity key link
  | none => .writeLink entity link

/-- What follows a statement of `confirmUpload`. -/
def afterUpload (entity : Entity) (old : Option String) : Storage.Call → LinkCall
  | .finished (.confirmed result) => findOrWrite entity old (some result.key)
  | .finished _ => .finished
  | call => .confirming entity old call

end LinkCall

/-- `deleteAvatar`, after the employee has been read. -/
def EmployeeService.deleteAvatar (employeeId : Uuid) (photoStorageKey : Option String) : LinkCall :=
  match photoStorageKey.filter fun key => decide (key ≠ "") with
  | some key => .findOld (.employee employeeId) key none
  | none => .finished

/-! ### The machine -/

/-- The storage service with the deletions and the purges that are under way, the tables with the
links, and the calls. -/
structure LinkSystem where
  storage : Storage.State
  tables : Tables
  calls : List LinkCall := []

/-- What can happen; `ok` and `j` are as for the storage service. -/
inductive LinkEvent
  | presign (entity : Entity) (input : UploadInput) (actor : Actor) (keyId newId : Uuid)
  | put (key : String) (contentLength : ℕ)
  | confirm (entity : Entity) (fileId : Uuid) (actor : Actor)
  | deleteAvatar (employeeId : Uuid)
  | advance (i j : ℕ) (ok : Bool)
  | purgeOrphanedUploads
  /-- A purge or a deletion goes on. -/
  | background (i j : ℕ) (ok : Bool)
  | tick (duration : ℕ)
  deriving DecidableEq, Repr

namespace LinkSystem

/-- No file has been stored, and nothing is linked. -/
def initial (tables : Tables) (objects : String → Option ℕ) (now : Time) : LinkSystem where
  storage := Storage.State.initial (Table.empty _) objects now
  tables := (FileLinks.initial tables now).tables

/-- What the services that link files see. -/
def links (s : LinkSystem) : LinkState := ⟨s.storage.files, s.tables, s.storage.now⟩

def files (s : LinkSystem) : Table StoredFile.id := s.storage.files

/-- The state in which the `i`-th call goes on. -/
def goOn (s : LinkSystem) (i : ℕ) (call : LinkCall) : LinkSystem :=
  { s with calls := s.calls.set i call }

/-- The next statement of the `i`-th call. -/
def advance (parse : String → Option Uuid) (config : StorageConfig) (s : LinkSystem) (i j : ℕ)
    (ok : Bool) : LinkSystem :=
  match s.calls[i]? with
  | some (.confirmUpload entity old fileId uploaderId) =>
    match Storage.confirmUpload config s.files fileId uploaderId with
    | .ok call => s.goOn i (LinkCall.afterUpload entity old call)
    | .error _ => s.goOn i .finished
  | some (.confirming entity old call) =>
    let done := call.advance config s.storage.now j ok s.files s.storage.bucket
    { s with
      storage := { s.storage with files := done.1.1, bucket := done.1.2 }
      calls := s.calls.set i (LinkCall.afterUpload entity old done.2) }
  | some (.findOld entity old link) =>
    match StorageService.findById parse s.files old with
    | .error _ => s.goOn i .finished
    | .ok none => s.goOn i (.writeLink entity link)
    | .ok (some file) =>
      -- the deletion is not waited for
      { s with
        storage := s.storage.beginWith (Storage.deleteFile s.files file.id file.uploaderId)
        calls := s.calls.set i (.writeLink entity link) }
  | some (.writeLink entity link) =>
    { s with
      tables := FileLinks.writeLink entity s.storage.now link s.tables
      calls := s.calls.set i .finished }
  | some .finished => s
  | none => s

/-- The state after one event; generated keys are new, as `newId` makes them. -/
def step (parse : String → Option Uuid) (config : StorageConfig) (s : LinkSystem) :
    LinkEvent → LinkSystem
  | .presign entity input actor keyId newId =>
    match FileLinks.presign config entity input actor keyId newId s.links with
    | .ok (s', result) =>
      if ∃ file ∈ s.files.rows, file.key = result.key then s
      else { s with storage := { s.storage with files := s'.files } }
    | .error _ => s
  | .put key contentLength =>
    { s with storage := Storage.step config s.storage (.put key contentLength) }
  | .confirm entity fileId actor =>
    match FileLinks.current s.tables entity with
    | .ok old => { s with calls := s.calls ++ [.confirmUpload entity old fileId actor.sub] }
    | .error _ => s
  | .deleteAvatar employeeId =>
    match FileLinks.current s.tables (.employee employeeId) with
    | .ok old => { s with calls := s.calls ++ [EmployeeService.deleteAvatar employeeId old] }
    | .error _ => s
  | .advance i j ok => s.advance parse config i j ok
  | .purgeOrphanedUploads =>
    { s with storage := Storage.step config s.storage .purgeOrphanedUploads }
  | .background i j ok => { s with storage := Storage.step config s.storage (.advance i j ok) }
  | .tick duration => { s with storage := Storage.step config s.storage (.tick duration) }

end LinkSystem

/-! ### What calls know -/

namespace LinkSystem

open FileLinks

/-- The entity is there. -/
def Present (tables : Tables) (entity : Entity) : Prop := ∃ old, current tables entity = .ok old

/-- A file that a call has read is stored under its key. -/
def Stored (files : Table StoredFile.id) (file : StoredFile) : Prop :=
  ∃ row, files.find file.id = some row ∧ row.key = file.key

/-- The file of a confirmation under way. -/
def Confirming (files : Table StoredFile.id) : Storage.Call → Prop
  | .headObject file => Stored files file
  | .complete file => Stored files file
  | .reject file _ => Stored files file
  | _ => False

/-- Purges are the only calls in the background. -/
def Background : Storage.Call → Prop
  | .purge _ _ _ => True
  | .finished _ => True
  | _ => False

/-- What a call knows: links that have been read are keys, and links are written to entities that
are there, with the keys of stored files. -/
def Knows (files : Table StoredFile.id) (tables : Tables) : LinkCall → Prop
  | .confirmUpload entity old _ _ => Present tables entity ∧ ∀ key ∈ old, '/' ∈ key.toList
  | .confirming entity old call =>
    Present tables entity ∧ (∀ key ∈ old, '/' ∈ key.toList) ∧ Confirming files call
  | .findOld _ old _ => '/' ∈ old.toList
  | .writeLink entity link =>
    Present tables entity ∧ ∃ key, link = some key ∧ ∃ row ∈ files.rows, row.key = key
  | .finished => True

/-- Rows stay under their keys. -/
def KeysKept (files files' : Table StoredFile.id) : Prop :=
  ∀ id row, files.find id = some row → ∃ row', files'.find id = some row' ∧ row'.key = row.key

section Knows

variable {files files' : Table StoredFile.id} {tables tables' : Tables} {file : StoredFile}
  {entity entity' : Entity} {old : Option String} {key : String} {now : Time}

theorem keysKept_refl (files : Table StoredFile.id) : KeysKept files files :=
  fun _ row hrow => ⟨row, hrow, rfl⟩

theorem keysKept_sameFiles (h : SameFiles files files') : KeysKept files files' := by
  intro id row hrow
  obtain ⟨row', hrow', hsame⟩ := h.find hrow
  exact ⟨row', hrow', key_eq_of_presigned hsame⟩

theorem keysKept_insert (h : files.insert file = some files') : KeysKept files files' :=
  fun _ row hrow => ⟨row, Table.find_insert_of_find h hrow, rfl⟩

theorem KeysKept.rows (h : KeysKept files files') (hrow : ∃ row ∈ files.rows, row.key = key) :
    ∃ row ∈ files'.rows, row.key = key := by
  obtain ⟨row, hrow, rfl⟩ := hrow
  obtain ⟨row', hrow', hkey⟩ := h row.id row (Table.find_of_mem hrow)
  exact ⟨row', Table.mem_of_find hrow', hkey⟩

theorem Stored.mono (h : Stored files file) (hkept : KeysKept files files') :
    Stored files' file := by
  obtain ⟨row, hrow, hkey⟩ := h
  obtain ⟨row', hrow', hkey'⟩ := hkept file.id row hrow
  exact ⟨row', hrow', hkey'.trans hkey⟩

theorem Stored.row (h : Stored files file) : ∃ row ∈ files.rows, row.key = file.key := by
  obtain ⟨row, hrow, hkey⟩ := h
  exact ⟨row, Table.mem_of_find hrow, hkey⟩

theorem stored_of_findOwn {fileId uploaderId : Uuid}
    (h : findOwn files fileId uploaderId = some file) : Stored files file := by
  have hfind := find_of_findOwn h
  exact ⟨file, Table.key_of_find hfind ▸ hfind, rfl⟩

theorem Confirming.mono {call : Storage.Call} (h : Confirming files call)
    (hkept : KeysKept files files') : Confirming files' call := by
  cases call with
  | headObject file => exact Stored.mono h hkept
  | complete file => exact Stored.mono h hkept
  | reject file contentLength => exact Stored.mono h hkept
  | _ => exact h

theorem writeLink_some (entity : Entity) (now : Time) (key : String) (tables : Tables) :
    FileLinks.writeLink entity now (some key) tables = setLink entity now key tables := by
  cases entity <;> rfl

/-- Entities stay. -/
theorem Present.setLink (h : Present tables entity') (entity : Entity) (now : Time) (key : String) :
    Present (FileLinks.setLink entity now key tables) entity' := by
  obtain ⟨old, hold⟩ := h
  have hfound : ∀ {ρ : Type} {failure : Failure} {row row' : Option ρ} {f g : ρ → Option String},
      (Outcome.orThrow failure row).map f = .ok old → (row.isSome = true → row'.isSome = true) →
        ∃ old', (Outcome.orThrow failure row').map g = .ok old' := by
    intro ρ failure row row' f g hrow hsome
    obtain ⟨r, hr, -⟩ := Except.map_eq_ok_iff.1 hrow
    rw [Outcome.orThrow_eq_ok_iff.1 hr] at hsome
    obtain ⟨r', hr'⟩ := Option.isSome_iff_exists.1 (hsome rfl)
    exact ⟨g r', by rw [hr']; rfl⟩
  cases entity' with
  | employee id' =>
    refine hfound hold fun hsome => ?_
    cases entity with
    | employee id =>
      by_cases hid : id' = id
      · subst hid
        simpa [FileLinks.setLink, EmployeeDrizzleRepository.updatePhoto, Table.find_update_self]
          using hsome
      · simpa [FileLinks.setLink, EmployeeDrizzleRepository.updatePhoto,
          Table.find_update_ne _ hid] using hsome
    | asset id => exact hsome
    | leaveRequest id => exact hsome
  | asset id' =>
    refine hfound hold fun hsome => ?_
    cases entity with
    | employee id => exact hsome
    | asset id =>
      by_cases hid : id' = id
      · subst hid
        simpa [FileLinks.setLink, AssetDrizzleRepository.updatePhoto, Table.find_update_self]
          using hsome
      · simpa [FileLinks.setLink, AssetDrizzleRepository.updatePhoto,
          Table.find_update_ne _ hid] using hsome
    | leaveRequest id => exact hsome
  | leaveRequest id' =>
    refine hfound hold fun hsome => ?_
    cases entity with
    | employee id => exact hsome
    | asset id => exact hsome
    | leaveRequest id =>
      by_cases hid : id' = id
      · subst hid
        simpa [FileLinks.setLink, WorkforceDrizzleRepository.updateLeaveDocument,
          Table.find_update_self] using hsome
      · simpa [FileLinks.setLink, WorkforceDrizzleRepository.updateLeaveDocument,
          Table.find_update_ne _ hid] using hsome

/-- What a call knows stays true while rows and entities stay. -/
theorem Knows.mono {call : LinkCall} (h : Knows files tables call) (hkept : KeysKept files files')
    (hpresent : ∀ entity, Present tables entity → Present tables' entity) :
    Knows files' tables' call := by
  cases call with
  | confirmUpload entity old fileId uploaderId => exact ⟨hpresent entity h.1, h.2⟩
  | confirming entity old call => exact ⟨hpresent entity h.1, h.2.1, h.2.2.mono hkept⟩
  | findOld entity old link => exact h
  | writeLink entity link =>
    obtain ⟨hthere, key, hlink, hrow⟩ := h
    exact ⟨hpresent entity hthere, key, hlink, hkept.rows hrow⟩
  | finished => exact h

/-- A confirmation goes on with what it knows. -/
theorem knows_afterUpload {call : Storage.Call} (hpresent : Present tables entity)
    (hslash : ∀ key ∈ old, '/' ∈ key.toList)
    (hcall : Confirming files call ∨ ∃ answer, call = .finished answer ∧
      ∀ result, answer = .confirmed result → ∃ row ∈ files.rows, row.key = result.key) :
    Knows files tables (LinkCall.afterUpload entity old call) := by
  rcases hcall with hcall | ⟨answer, rfl, hanswer⟩
  · cases call with
    | headObject file => exact ⟨hpresent, hslash, hcall⟩
    | complete file => exact ⟨hpresent, hslash, hcall⟩
    | reject file contentLength => exact ⟨hpresent, hslash, hcall⟩
    | _ => cases hcall
  · cases answer with
    | confirmed result =>
      have hrow := hanswer result rfl
      simp only [LinkCall.afterUpload, LinkCall.findOrWrite]
      split
      · rename_i key hkey
        exact hslash key (Option.filter_eq_some_iff.1 hkey).1
      · exact ⟨hpresent, result.key, rfl, hrow⟩
    | _ => trivial

/-- The beginning of `confirmUpload`. -/
theorem confirming_confirmUpload {config : StorageConfig} {fileId uploaderId : Uuid}
    {call : Storage.Call} (h : Storage.confirmUpload config files fileId uploaderId = .ok call) :
    Confirming files call ∨ ∃ answer, call = .finished answer ∧
      ∀ result, answer = .confirmed result → ∃ row ∈ files.rows, row.key = result.key := by
  simp only [Storage.confirmUpload, Except.bind_eq_ok_iff, Outcome.orThrow_eq_ok_iff] at h
  obtain ⟨file, hfile, h⟩ := h
  have hstored := stored_of_findOwn hfile
  cases hstatus : file.status with
  | pending =>
    simp only [hstatus, Except.pure_eq_ok_iff] at h
    rw [← h]
    exact Or.inl hstored
  | completed =>
    simp only [hstatus, Except.pure_eq_ok_iff] at h
    refine Or.inr ⟨_, h.symm, ?_⟩
    rintro result ⟨⟩
    exact hstored.row
  | deleted =>
    simp only [hstatus] at h
    cases h

/-- The other statements of `confirmUpload`. -/
theorem confirming_advance {call : Storage.Call} (h : Confirming files call)
    (config : StorageConfig) (now : Time) (j : ℕ) (ok : Bool) (bucket : Storage.Bucket) :
    SameFiles files (call.advance config now j ok files bucket).1.1 ∧
      (Confirming (call.advance config now j ok files bucket).1.1
          (call.advance config now j ok files bucket).2 ∨
        ∃ answer, (call.advance config now j ok files bucket).2 = .finished answer ∧
          ∀ result, answer = .confirmed result → ∃ row ∈
            (call.advance config now j ok files bucket).1.1.rows, row.key = result.key) := by
  cases call with
  | headObject file =>
    simp only [Storage.Call.advance]
    split
    · exact ⟨rfl, Or.inr ⟨_, rfl, fun _ h => by cases h⟩⟩
    · split
      · exact ⟨rfl, Or.inl h⟩
      · exact ⟨rfl, Or.inl h⟩
  | complete file =>
    have hsame := @sameFiles_markCompleted files file.id now
    refine ⟨hsame, Or.inr ⟨_, rfl, ?_⟩⟩
    rintro result ⟨⟩
    exact (Stored.mono h (keysKept_sameFiles hsame)).row
  | reject file contentLength =>
    exact ⟨sameFiles_markDeleted _, Or.inr ⟨_, rfl, fun _ h => by cases h⟩⟩
  | _ => cases h

end Knows

/-! ### What holds in every run -/

/-- Calls know what they work with, and nothing but purges goes on behind them. -/
structure Sound (s : LinkSystem) : Prop where
  kept : Kept s.links
  background : ∀ call ∈ s.storage.calls, Background call
  calls : ∀ call ∈ s.calls, Knows s.files s.tables call

section Sound

variable {parse : String → Option Uuid} {config : StorageConfig} {s s' : LinkSystem}
  {e : LinkEvent} {i j : ℕ} {ok : Bool}

/-- The files and tables of a system may change as long as rows and entities stay. -/
theorem Sound.change (h : Sound s) (hkept : Kept s'.links)
    (hbackground : s'.storage.calls = s.storage.calls) (hcalls : s'.calls = s.calls)
    (hkeys : KeysKept s.files s'.files)
    (hpresent : ∀ entity, Present s.tables entity → Present s'.tables entity) : Sound s' := by
  refine ⟨hkept, ?_, fun call hcall => ?_⟩
  · rw [hbackground]
    exact h.background
  · rw [hcalls] at hcall
    exact (h.calls call hcall).mono hkeys hpresent

/-- One call goes on. -/
theorem Sound.set (h : Sound s) {call : LinkCall} (hcall : Knows s.files s.tables call) :
    Sound { s with calls := s.calls.set i call } :=
  ⟨h.kept, h.background, Pool.forall_mem_set h.calls hcall⟩

/-- A new call begins. -/
theorem Sound.add (h : Sound s) {call : LinkCall} (hcall : Knows s.files s.tables call) :
    Sound { s with calls := s.calls ++ [call] } :=
  ⟨h.kept, h.background, Pool.forall_mem_add h.calls hcall⟩

/-- The link that is read is the key of a file. -/
theorem Sound.slash (h : Sound s) {entity : Entity} {old : Option String}
    (hold : current s.tables entity = .ok old) : ∀ key ∈ old, '/' ∈ key.toList := by
  intro key hkey
  obtain ⟨file, hfile, rfl⟩ := h.kept.links entity key ((link_of_current hold).trans hkey)
  exact h.kept.slash file hfile

/-- A deletion finds a key, or nothing to delete. -/
theorem knows_deleteAvatar (h : Sound s) {employeeId : Uuid} {old : Option String}
    (hold : current s.tables (.employee employeeId) = .ok old) :
    Knows s.files s.tables (EmployeeService.deleteAvatar employeeId old) := by
  unfold EmployeeService.deleteAvatar
  split
  · rename_i key hkey
    exact h.slash hold key (Option.filter_eq_some_iff.1 hkey).1
  · trivial

/-- A purge goes on. -/
theorem background_advance (h : Sound s) (config : StorageConfig) (i j : ℕ) (ok : Bool) :
    SameFiles s.files (Storage.step config s.storage (.advance i j ok)).files ∧
      (∀ call ∈ (Storage.step config s.storage (.advance i j ok)).calls, Background call) ∧
      ((Storage.step config s.storage (.advance i j ok)).files = s.files ∨ ∃ cutoff,
        (Storage.step config s.storage (.advance i j ok)).files =
          Storage.markDeleted s.files (isOrphan cutoff)) := by
  simp only [Storage.step]
  split
  · rename_i call hcall
    have hbackground := h.background call (List.mem_of_getElem? hcall)
    cases call with
    | purge keys cutoff count =>
      cases keys with
      | nil =>
        exact ⟨sameFiles_markDeleted _, Pool.forall_mem_set h.background trivial,
          Or.inr ⟨cutoff, rfl⟩⟩
      | cons key keys =>
        simp only [Storage.Call.advance]
        split
        · exact ⟨rfl, Pool.forall_mem_set h.background trivial, Or.inl rfl⟩
        · exact ⟨rfl, Pool.forall_mem_set h.background trivial, Or.inl rfl⟩
    | finished answer =>
      exact ⟨rfl, Pool.forall_mem_set h.background trivial, Or.inl rfl⟩
    | _ => cases hbackground
  · exact ⟨rfl, h.background, Or.inl rfl⟩

end Sound

/-! ### What a step can do -/

/-- Links lead to completed files. -/
def LinksLive (s : LinkSystem) : Prop :=
  ∀ entity key, link s.tables entity = some key →
    ∃ file ∈ s.files.rows, file.key = key ∧ file.status = .completed

/-- The links of one state are those of the other. -/
def LinksStay (s s' : LinkSystem) : Prop :=
  ∀ entity key, link s.tables entity = some key → link s'.tables entity = some key

/-- A link is written where there is none, or the same, and to a completed file; and a completed
file that is linked is not rejected by another call that has seen it before. -/
def Firm (s : LinkSystem) : LinkEvent → Prop
  | .advance i _ _ =>
    match s.calls[i]? with
    | some (.confirming _ _ (.reject file _)) => ∀ row, s.files.find file.id = some row →
        row.status = .completed → ∀ entity, link s.tables entity ≠ some row.key
    | some (.writeLink entity (some key)) =>
      (∀ old, link s.tables entity = some old → old = key) ∧
        ∃ file ∈ s.files.rows, file.key = key ∧ file.status = .completed
    | _ => True
  | _ => True

/-- Completed files stay so. -/
def CompletedKept (files files' : Table StoredFile.id) : Prop :=
  ∀ file ∈ files.rows, file.status = .completed →
    ∃ row ∈ files'.rows, row.key = file.key ∧ row.status = .completed

/-- What a step can do to files and links. -/
inductive LinksMove (s s' : LinkSystem) (e : LinkEvent) : Prop
  | kept (hfirm : Firm s e) (hfiles : CompletedKept s.files s'.files)
      (htables : s'.tables = s.tables)
  | rejected {i j : ℕ} {ok : Bool} {entity : Entity} {old : Option String} {file : StoredFile}
      {contentLength : ℕ} (he : e = .advance i j ok)
      (hcall : s.calls[i]? = some (.confirming entity old (.reject file contentLength)))
      (hfiles : s'.files = Storage.markDeleted s.files fun f => decide (f.id = file.id))
      (htables : s'.tables = s.tables)
  | linked {i j : ℕ} {ok : Bool} {entity : Entity} {key : String} (he : e = .advance i j ok)
      (hcall : s.calls[i]? = some (.writeLink entity (some key))) (hfiles : s'.files = s.files)
      (hpresent : Present s.tables entity)
      (htables : s'.tables = setLink entity s.storage.now key s.tables)

section Steps

variable {parse : String → Option Uuid} {config : StorageConfig} {s s' : LinkSystem}
  {e : LinkEvent} {i j : ℕ} {ok : Bool} {files : Table StoredFile.id}

theorem completedKept_refl (files : Table StoredFile.id) : CompletedKept files files :=
  fun file hfile hcompleted => ⟨file, hfile, rfl, hcompleted⟩

theorem completedKept_purge (files : Table StoredFile.id) (cutoff : Time) :
    CompletedKept files (Storage.markDeleted files (isOrphan cutoff)) := by
  intro file hfile hcompleted
  have hnot : isOrphan cutoff file = false := by simp [isOrphan, hcompleted]
  refine ⟨file, Storage.mem_markDeleted.2 ⟨file, hfile, ?_⟩, rfl, hcompleted⟩
  rw [hnot]
  rfl

theorem completedKept_complete (files : Table StoredFile.id) (fileId : Uuid) (now : Time) :
    CompletedKept files (Storage.markCompleted files fileId now) := by
  intro file hfile hcompleted
  have hmem := @Table.mem_update_of_mem _ _ _ _ files fileId
    (fun file => { file with status := .completed, confirmedAt := some now }) (fun _ => rfl) _ hfile
  split at hmem
  · exact ⟨_, hmem, rfl, rfl⟩
  · exact ⟨file, hmem, rfl, hcompleted⟩

/-- A statement of `confirmUpload`. -/
theorem confirming_step (h : Sound s) {entity : Entity} {old : Option String}
    {call : Storage.Call} (hcall : s.calls[i]? = some (.confirming entity old call)) :
    Sound (s.advance parse config i j ok) ∧
      LinksMove s (s.advance parse config i j ok) (.advance i j ok) := by
  obtain ⟨hpresent, hslash, hconfirming⟩ := h.calls _ (List.mem_of_getElem? hcall)
  have hadvance : s.advance parse config i j ok =
      { s with
        storage :=
          { s.storage with
            files := (call.advance config s.storage.now j ok s.files s.storage.bucket).1.1
            bucket := (call.advance config s.storage.now j ok s.files s.storage.bucket).1.2 }
        calls := s.calls.set i (LinkCall.afterUpload entity old
          (call.advance config s.storage.now j ok s.files s.storage.bucket).2) } := by
    simp only [advance, hcall]
  obtain ⟨hsame, hnext⟩ :=
    confirming_advance hconfirming config s.storage.now j ok s.storage.bucket
  have hfirm : (∀ file contentLength, call ≠ .reject file contentLength) →
      Firm s (.advance i j ok) := by
    intro hne
    simp only [Firm, hcall]
    cases call with
    | reject file contentLength => exact absurd rfl (hne file contentLength)
    | _ => trivial
  rw [hadvance]
  constructor
  · have hmoved : Sound
        { s with
          storage :=
            { s.storage with
              files := (call.advance config s.storage.now j ok s.files s.storage.bucket).1.1
              bucket := (call.advance config s.storage.now j ok s.files s.storage.bucket).1.2 } } :=
      h.change (h.kept.sameFiles hsame) rfl rfl (keysKept_sameFiles hsame) fun _ hthere => hthere
    exact hmoved.set (knows_afterUpload hpresent hslash hnext)
  · cases call with
    | headObject file =>
      refine .kept (hfirm fun _ _ hne => by cases hne) ?_ rfl
      have hquiet : ((Storage.Call.headObject file).advance config s.storage.now j ok s.files
          s.storage.bucket).1.1 = s.files :=
        congrArg Prod.fst (Storage.advance_headObject config s.storage.now j ok s.files
          s.storage.bucket file)
      show CompletedKept s.files ((Storage.Call.headObject file).advance config s.storage.now j ok
        s.files s.storage.bucket).1.1
      rw [hquiet]
      exact completedKept_refl _
    | complete file =>
      exact .kept (hfirm fun _ _ hne => by cases hne) (completedKept_complete _ _ _) rfl
    | reject file contentLength => exact .rejected rfl hcall rfl rfl
    | _ => cases hconfirming

/-- The next statement of a call. -/
theorem advance_step (hparse : ∀ text : String, '/' ∈ text.toList → parse text = none)
    (h : Sound s) : Sound (s.advance parse config i j ok) ∧
      LinksMove s (s.advance parse config i j ok) (.advance i j ok) := by
  have hquiet : Firm s (.advance i j ok) → Sound s ∧ LinksMove s s (.advance i j ok) :=
    fun hfirm => ⟨h, .kept hfirm (completedKept_refl _) rfl⟩
  cases hcall : s.calls[i]? with
  | none =>
    simp only [advance, hcall]
    refine hquiet ?_
    simp only [Firm, hcall]
  | some call =>
    have hknows := h.calls call (List.mem_of_getElem? hcall)
    cases call with
    | confirmUpload entity old fileId uploaderId =>
      have hfirm : Firm s (.advance i j ok) := by simp only [Firm, hcall]
      simp only [advance, hcall]
      split
      · rename_i next hok
        exact ⟨h.set (knows_afterUpload hknows.1 hknows.2 (confirming_confirmUpload hok)),
          .kept hfirm (completedKept_refl _) rfl⟩
      · exact ⟨h.set trivial, .kept hfirm (completedKept_refl _) rfl⟩
    | confirming entity old call => exact confirming_step h hcall
    | findOld entity old link =>
      -- PostgreSQL rejects the key
      have hrejected : StorageService.findById parse s.files old =
          .error (.error ("invalid input syntax for type uuid: " ++ old)) := by
        simp only [StorageService.findById, hparse old hknows]
      have hfirm : Firm s (.advance i j ok) := by simp only [Firm, hcall]
      simp only [advance, hcall, hrejected]
      exact ⟨h.set trivial, .kept hfirm (completedKept_refl _) rfl⟩
    | writeLink entity link =>
      obtain ⟨hpresent, key, rfl, row, hrow, rfl⟩ := hknows
      obtain ⟨old, hold⟩ := hpresent
      simp only [advance, hcall, writeLink_some]
      refine ⟨?_, .linked rfl hcall rfl ⟨old, hold⟩ rfl⟩
      have hmoved : Sound { s with tables := setLink entity s.storage.now row.key s.tables } :=
        h.change (h.kept.setLink hold hrow) rfl rfl (keysKept_refl _) fun _ hthere =>
          hthere.setLink entity s.storage.now row.key
      exact hmoved.set trivial
    | finished =>
      simp only [advance, hcall]
      refine hquiet ?_
      simp only [Firm, hcall]

/-- **What a step does**, and what it keeps. -/
theorem sound_step (hparse : ∀ text : String, '/' ∈ text.toList → parse text = none)
    (h : Sound s) (e : LinkEvent) :
    Sound (step parse config s e) ∧ LinksMove s (step parse config s e) e := by
  cases e with
  | presign entity input actor keyId newId =>
    have hquiet : Sound s ∧ LinksMove s s (.presign entity input actor keyId newId) :=
      ⟨h, .kept trivial (completedKept_refl _) rfl⟩
    simp only [step]
    split
    · rename_i s' result hok
      split
      · exact hquiet
      · rename_i hnew
        obtain ⟨file, files, rfl, hinsert, hkey, hslash⟩ := presign_eq_ok hok
        have hkept := Kept.insert h.kept hinsert hslash fun x hx heq =>
          hnew ⟨x, hx, heq.trans hkey⟩
        refine ⟨h.change hkept rfl rfl (keysKept_insert hinsert) fun _ hthere => hthere,
          .kept trivial (fun x hx hcompleted => ?_) rfl⟩
        exact ⟨x, (Table.mem_insert hinsert).2 (Or.inl hx), rfl, hcompleted⟩
    · exact hquiet
  | put key contentLength =>
    exact ⟨⟨h.kept, h.background, h.calls⟩, .kept trivial (completedKept_refl _) rfl⟩
  | confirm entity fileId actor =>
    simp only [step]
    split
    · rename_i old hold
      exact ⟨h.add ⟨⟨old, hold⟩, h.slash hold⟩, .kept trivial (completedKept_refl _) rfl⟩
    · exact ⟨h, .kept trivial (completedKept_refl _) rfl⟩
  | deleteAvatar employeeId =>
    simp only [step]
    split
    · rename_i old hold
      exact ⟨h.add (knows_deleteAvatar h hold), .kept trivial (completedKept_refl _) rfl⟩
    · exact ⟨h, .kept trivial (completedKept_refl _) rfl⟩
  | advance i j ok => exact advance_step hparse h
  | purgeOrphanedUploads =>
    have hbackground : Background (Storage.purgeOrphanedUploads s.files s.storage.now) := by
      unfold Storage.purgeOrphanedUploads
      dsimp only
      split <;> trivial
    exact ⟨⟨h.kept, Pool.forall_mem_add h.background hbackground, h.calls⟩,
      .kept trivial (completedKept_refl _) rfl⟩
  | background i j ok =>
    obtain ⟨hsame, hcalls, hfiles⟩ := background_advance h config i j ok
    have hkept := h.kept.sameFiles hsame
    refine ⟨⟨⟨hkept.slash, hkept.unique, hkept.links⟩, hcalls, fun call hcall => ?_⟩,
      .kept trivial ?_ rfl⟩
    · exact (h.calls call hcall).mono (keysKept_sameFiles hsame) fun _ hthere => hthere
    rcases hfiles with hfiles | ⟨cutoff, hfiles⟩
    · simp only [step, files, hfiles]
      exact completedKept_refl _
    · simp only [step, files, hfiles]
      exact completedKept_purge _ cutoff
  | tick duration =>
    refine ⟨⟨?_, h.background, h.calls⟩, .kept trivial (completedKept_refl _) rfl⟩
    exact ⟨h.kept.slash, h.kept.unique, h.kept.links⟩

/-- An entity that has a link has one afterwards. -/
theorem link_step (hparse : ∀ text : String, '/' ∈ text.toList → parse text = none)
    (h : Sound s) (e : LinkEvent) {entity : Entity} (hlink : link s.tables entity ≠ none) :
    link (step parse config s e).tables entity ≠ none := by
  cases (@sound_step parse config s hparse h e).2 with
  | kept hfirm hfiles htables =>
    rw [htables]
    exact hlink
  | rejected he hcall hfiles htables =>
    rw [htables]
    exact hlink
  | @linked i j ok entity' key he hcall hfiles hpresent htables =>
    obtain ⟨old, hold⟩ := hpresent
    rw [htables]
    by_cases heq : entity = entity'
    · subst heq
      rw [link_setLink_self hold]
      exact Option.some_ne_none key
    · rw [link_setLink_ne heq]
      exact hlink

/-- A confirmation that rejects its file. -/
theorem rejected_iff (h : Sound s) (hlive : LinksLive s) {file : StoredFile}
    (hfiles : s'.files = Storage.markDeleted s.files fun f => decide (f.id = file.id))
    (htables : s'.tables = s.tables) :
    LinksLive s' ↔ ∀ row, s.files.find file.id = some row → row.status = .completed →
      ∀ entity, link s.tables entity ≠ some row.key := by
  constructor
  · intro hlive' row hrow hcompleted entity hlink
    have hlink' : link s'.tables entity = some row.key := htables ▸ hlink
    obtain ⟨found, hfound, hkey, hstatus⟩ := hlive' entity row.key hlink'
    rw [hfiles] at hfound
    obtain ⟨before, hbefore, rfl⟩ := Storage.mem_markDeleted.1 hfound
    -- keys tell files apart
    by_cases hid : before.id = file.id
    · rw [if_pos (decide_eq_true hid)] at hstatus
      cases hstatus
    · rw [if_neg (by simpa using hid)] at hkey
      have hsame := h.kept.unique before hbefore row (Table.mem_of_find hrow) hkey
      exact hid (hsame.trans (Table.key_of_find hrow))
  · intro hfirm entity key hlink
    rw [htables] at hlink
    obtain ⟨row, hrow, rfl, hcompleted⟩ := hlive entity key hlink
    have hid : row.id ≠ file.id := by
      intro hid
      exact hfirm row (hid ▸ Table.find_of_mem hrow) hcompleted entity hlink
    refine ⟨row, ?_, rfl, hcompleted⟩
    rw [hfiles]
    refine Storage.mem_markDeleted.2 ⟨row, hrow, ?_⟩
    rw [if_neg (by simpa using hid)]

/-- **The step lemma.** -/
theorem step_firm_iff (hparse : ∀ text : String, '/' ∈ text.toList → parse text = none)
    (h : Sound s) (hlive : LinksLive s) (e : LinkEvent) :
    LinksLive (step parse config s e) ∧ LinksStay s (step parse config s e) ↔ Firm s e := by
  have hmove := (@sound_step parse config s hparse h e).2
  generalize step parse config s e = s' at hmove
  cases hmove with
  | kept hfirm hfiles htables =>
    refine iff_of_true ⟨fun entity key hlink => ?_, fun entity key hlink => htables ▸ hlink⟩ hfirm
    rw [htables] at hlink
    obtain ⟨file, hfile, rfl, hcompleted⟩ := hlive entity key hlink
    exact hfiles file hfile hcompleted
  | rejected he hcall hfiles htables =>
    have hstay : LinksStay s s' := fun entity key hlink => htables ▸ hlink
    rw [and_iff_left hstay, rejected_iff h hlive hfiles htables, he]
    simp only [Firm, hcall]
  | @linked i j ok entity key he hcall hfiles hpresent htables =>
    obtain ⟨old, hold⟩ := hpresent
    have hself : link s'.tables entity = some key := by rw [htables, link_setLink_self hold]
    have hother : ∀ entity', entity' ≠ entity → link s'.tables entity' = link s.tables entity' := by
      intro entity' hne
      rw [htables, link_setLink_ne hne]
    rw [he]
    simp only [Firm, hcall]
    constructor
    · rintro ⟨hlive', hstay⟩
      refine ⟨fun old' hold' => ?_, ?_⟩
      · exact Option.some.inj ((hstay entity old' hold').symm.trans hself)
      · rw [← hfiles]
        exact hlive' entity key hself
    · rintro ⟨hsame, hcompleted⟩
      refine ⟨fun entity' key' hlink => ?_, fun entity' key' hlink => ?_⟩
      · rw [hfiles]
        by_cases heq : entity' = entity
        · subst heq
          obtain rfl := Option.some.inj (hself.symm.trans hlink)
          exact hcompleted
        · exact hlive entity' key' ((hother entity' heq).symm.trans hlink)
      · by_cases heq : entity' = entity
        · subst heq
          rw [hself, hsame key' hlink]
        · rw [hother entity' heq]
          exact hlink

theorem sound_initial (tables : Tables) (objects : String → Option ℕ) (now : Time) :
    Sound (initial tables objects now) where
  kept := kept_initial tables now
  background _ hcall := by cases hcall
  calls _ hcall := by cases hcall

theorem sound_run (hparse : ∀ text : String, '/' ∈ text.toList → parse text = none)
    (config : StorageConfig) (tables : Tables) (objects : String → Option ℕ) (now : Time)
    (es : List LinkEvent) : Sound (Runs.run (step parse config) (initial tables objects now) es) :=
  have hstep : ∀ s e, Sound s → Sound (step parse config s e) :=
    fun _ e h => (sound_step hparse h e).1
  Runs.run_invariant hstep (sound_initial tables objects now) es

end Steps

/-! ### Whole runs -/

/-- **A link is never lost**, in any order of the statements, whoever asks for its deletion. -/
theorem links_remain (parse : String → Option Uuid)
    (hparse : ∀ text : String, '/' ∈ text.toList → parse text = none) (config : StorageConfig)
    (tables : Tables) (objects : String → Option ℕ) (now : Time) (es fs : List LinkEvent)
    (entity : Entity)
    (hlink : link (Runs.run (step parse config) (initial tables objects now) es).tables entity ≠
      none) :
    link (Runs.run (step parse config) (initial tables objects now) (es ++ fs)).tables entity ≠
      none := by
  rw [Runs.run_append]
  have hsound : ∀ s e, Sound s → Sound (step parse config s e) :=
    fun _ e h => (sound_step hparse h e).1
  have hstep : ∀ s e, Sound s → link s.tables entity ≠ none →
      link (step parse config s e).tables entity ≠ none := fun _ e h => link_step hparse h e
  exact Runs.run_invariant_within hsound hstep (sound_run hparse config tables objects now es)
    hlink fs

/-- **Links stay as they are and lead to completed files** throughout a run exactly if no call
writes over another link or behind the back of another call. -/
theorem always_firm_iff (parse : String → Option Uuid)
    (hparse : ∀ text : String, '/' ∈ text.toList → parse text = none) (config : StorageConfig)
    (tables : Tables) (objects : String → Option ℕ) (now : Time) (es : List LinkEvent) :
    ((∀ fs, fs <+: es →
        LinksLive (Runs.run (step parse config) (initial tables objects now) fs)) ∧
      ∀ fs gs, fs <+: gs → gs <+: es →
        LinksStay (Runs.run (step parse config) (initial tables objects now) fs)
          (Runs.run (step parse config) (initial tables objects now) gs)) ↔
      Runs.Meets (step parse config) Firm (initial tables objects now) es := by
  have hstep : ∀ s e, Sound s ∧ LinksLive s →
      ((Sound (step parse config s e) ∧ LinksLive (step parse config s e)) ∧
        LinksStay s (step parse config s e) ↔ Firm s e) := by
    rintro s e ⟨h, hlive⟩
    rw [and_assoc, and_iff_right (sound_step hparse h e).1]
    exact step_firm_iff hparse h hlive e
  have hinitial : LinksLive (initial tables objects now) := by
    intro entity key hlink
    cases (link_initial tables now entity).symm.trans hlink
  have hstates : (∀ fs, fs <+: es →
      LinksLive (Runs.run (step parse config) (initial tables objects now) fs)) ↔
      ∀ fs, fs <+: es → Sound (Runs.run (step parse config) (initial tables objects now) fs) ∧
        LinksLive (Runs.run (step parse config) (initial tables objects now) fs) :=
    forall₂_congr fun fs _ =>
      (and_iff_right (sound_run hparse config tables objects now fs)).symm
  rw [hstates]
  exact Runs.always_related_iff_meets (fun _ _ _ hlink => hlink)
    (fun _ _ _ hstay hstay' entity key hlink => hstay' entity key (hstay entity key hlink)) hstep
    ⟨sound_initial tables objects now, hinitial⟩

/-! ### One avatar -/

namespace Avatar

open FileLinks.Sample (parse parse_slash config actor)

/-- Presigned, put and confirmed. -/
def confirmed : List LinkEvent :=
  [.presign (.employee 1) ⟨"me.png", "image/png", 1000⟩ actor 50 51,
    .put "employee-avatar/1/50.png" 1000, .confirm (.employee 1) 51 actor, .advance 0 0 true,
    .advance 0 0 true, .advance 0 0 true, .advance 0 0 true]

/-- The state after some events. -/
def after (es : List LinkEvent) : LinkSystem :=
  Runs.run (step parse config) (initial FileLinks.Sample.tables (fun _ => none) 0) es

/-- A deletion leaves the avatar where it is. -/
theorem links_remain_avatar :
    link (after (confirmed ++ [.deleteAvatar 1, .advance 1 0 true])).tables (.employee 1) ≠ none :=
  links_remain parse parse_slash config FileLinks.Sample.tables (fun _ => none) 0 confirmed
    [.deleteAvatar 1, .advance 1 0 true] (.employee 1) (by decide +kernel)

/-- The link of one confirmation alone stays. -/
theorem always_firm_avatar :
    (∀ fs, fs <+: confirmed → LinksLive (after fs)) ∧
      ∀ fs gs, fs <+: gs → gs <+: confirmed → LinksStay (after fs) (after gs) := by
  have hlink : link (after (confirmed.take 6)).tables (.employee 1) = none := by decide +kernel
  have hfile : ∃ file ∈ (after (confirmed.take 6)).files.rows,
      file.key = "employee-avatar/1/50.png" ∧ file.status = .completed := by decide +kernel
  have hcall : (after (confirmed.take 6)).calls[0]? =
      some (.writeLink (.employee 1) (some "employee-avatar/1/50.png")) := by decide +kernel
  have hfirm : Firm (after (confirmed.take 6)) (.advance 0 0 true) := by
    simp only [Firm, hcall]
    refine ⟨fun old hold => ?_, hfile⟩
    rw [hlink] at hold
    cases hold
  refine (always_firm_iff parse parse_slash config FileLinks.Sample.tables (fun _ => none) 0
    confirmed).2 ?_
  exact ⟨trivial, trivial, trivial, trivial, trivial, trivial, hfirm, trivial⟩

/-- Of two confirmations at once, the later one takes the link over. -/
example :
    link (after (confirmed.take 2 ++ [
      .presign (.employee 1) ⟨"me.png", "image/png", 900⟩ actor 52 53,
      .put "employee-avatar/1/52.png" 900, .confirm (.employee 1) 51 actor,
      .confirm (.employee 1) 53 actor, .advance 0 0 true, .advance 0 0 true, .advance 0 0 true,
      .advance 0 0 true, .advance 1 0 true, .advance 1 0 true, .advance 1 0 true,
      .advance 1 0 true])).tables (.employee 1) = some "employee-avatar/1/52.png" := by
  decide +kernel

end Avatar

end LinkSystem

end OpsHub
