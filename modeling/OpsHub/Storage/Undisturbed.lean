import OpsHub.Lib.Pool
import OpsHub.Storage.FileLifecycle
import OpsHub.Storage.OrphanedUploads

/-!
# Calls that nobody disturbs

`confirmUpload` looks at the row and at the object before it writes, and a purge selects rows by
their status.  What a call has found still stands at its next statement as long as no other call
under way is about the same file.

* `Call.keys`: the keys of the files that a call is about;
* `Alone`: the condition on a step that no other call is about the files of the call that goes on;
* `Stands`: what a call has found still holds;
* `orderly_of_alone`: runs in which calls are alone are orderly;
* `Swept`, `reaches_of_served`: no object leaks if S3 does what it is asked for as well, the
  clients put what they have declared, and nobody deletes a file with an object.
-/

namespace OpsHub

namespace Storage

open StorageService Runs

/-! ### The condition -/

/-- The keys of the files that a call is about; a purge marks the orphans at its end. -/
def Call.keys (files : Table StoredFile.id) : Call → List String
  | .headObject file => [file.key]
  | .complete file => [file.key]
  | .reject file _ => [file.key]
  | .softDelete file => [file.key]
  | .deleteObject key => [key]
  | .purge keys cutoff _ => keys ++ (files.rows.filter (isOrphan cutoff)).map StoredFile.key
  | .finished _ => []

/-- The call that goes on is the only one about its files, and a key that is drawn is new. -/
def Alone (config : StorageConfig) (s : State) : Event → Prop
  | .presignUpload input uploaderId keyId newId =>
    ∀ file ∈ s.files.rows, file.key ≠ (newFile config input uploaderId keyId newId s.now).key
  | .advance i _ _ =>
    ∀ call ∈ s.calls[i]?, ∀ other ∈ s.calls.eraseIdx i, ∀ key ∈ call.keys s.files,
      key ∉ other.keys s.files
  | _ => True

instance (config : StorageConfig) (s : State) : (e : Event) → Decidable (Alone config s e)
  | .presignUpload _ _ _ _ => inferInstanceAs (Decidable (∀ file ∈ s.files.rows, _))
  | .put _ _ => isTrue trivial
  | .confirmUpload _ _ => isTrue trivial
  | .deleteFile _ _ => isTrue trivial
  | .purgeOrphanedUploads => isTrue trivial
  | .advance i _ _ => inferInstanceAs (Decidable (∀ call ∈ s.calls[i]?, ∀ other ∈ _, _))
  | .tick _ => isTrue trivial

/-! ### What a call has found -/

/-- What a call has found still holds. -/
def Stands (files : Table StoredFile.id) (bucket : Bucket) (now : Time) : Call → Prop
  | .headObject file => file ∈ files.rows ∧ file.status = .pending
  | .complete file =>
    file ∈ files.rows ∧ file.status = .pending ∧ bucket.objects file.key ≠ none
  | .reject file _ => file ∈ files.rows
  | .softDelete file => file ∈ files.rows
  | .deleteObject key => ∃ file ∈ files.rows, file.key = key ∧ file.status = .deleted
  | .purge keys cutoff _ =>
    cutoff ≤ now ∧ ∀ key ∈ keys, ∃ file ∈ files.rows, file.key = key ∧ file.status ≠ .completed
  | .finished _ => True

/-- The invariant of runs in which calls are alone. -/
structure Standing (s : State) : Prop where
  /-- An object that is there has not been deleted since it was put. -/
  sound : ∀ key, s.bucket.objects key ≠ none → s.bucket.removed key = false
  /-- Every file has its own key. -/
  keys : (s.files.rows.map StoredFile.key).Nodup
  stands : ∀ call ∈ s.calls, Stands s.files s.bucket s.now call

theorem Standing.eq_of_key_eq {s : State} (h : Standing s) {file file' : StoredFile}
    (hfile : file ∈ s.files.rows) (hfile' : file' ∈ s.files.rows) (hkey : file.key = file'.key) :
    file = file' :=
  List.inj_on_of_nodup_map h.keys hfile hfile' hkey

section Calls

variable {config : StorageConfig} {files files' : Table StoredFile.id} {bucket bucket' : Bucket}
  {now now' : Time} {j : ℕ} {ok : Bool} {call : Call}

/-- What a call has found stands as long as the rows and the objects of its files stay. -/
theorem Stands.of_kept (h : Stands files bucket now call) (keys : List String)
    (hrows : ∀ file ∈ files.rows, file.key ∉ keys → file ∈ files'.rows)
    (hobjects : ∀ key ∉ keys, bucket.objects key ≠ none → bucket'.objects key ≠ none)
    (hnow : now ≤ now') (hdisjoint : ∀ key ∈ keys, key ∉ call.keys files) :
    Stands files' bucket' now' call := by
  have hkeys : ∀ key ∈ call.keys files, key ∉ keys := fun key hkey hmem => hdisjoint key hmem hkey
  cases call with
  | headObject file => exact ⟨hrows file h.1 (hkeys _ (List.mem_singleton.2 rfl)), h.2⟩
  | complete file =>
    have hfree := hkeys file.key (List.mem_singleton.2 rfl)
    exact ⟨hrows file h.1 hfree, h.2.1, hobjects _ hfree h.2.2⟩
  | reject file contentLength => exact hrows file h (hkeys _ (List.mem_singleton.2 rfl))
  | softDelete file => exact hrows file h (hkeys _ (List.mem_singleton.2 rfl))
  | deleteObject key =>
    obtain ⟨file, hfile, rfl, hdeleted⟩ := h
    exact ⟨file, hrows file hfile (hkeys _ (List.mem_singleton.2 rfl)), rfl, hdeleted⟩
  | purge keys' cutoff count =>
    refine ⟨Nat.le_trans h.1 hnow, fun key hkey => ?_⟩
    obtain ⟨file, hfile, rfl, hstatus⟩ := h.2 key hkey
    exact ⟨file, hrows file hfile (hkeys _ (List.mem_append_left _ hkey)), rfl, hstatus⟩
  | finished answer => trivial

/-- A row whose key is not that of a file that is marked stays. -/
theorem mem_markDeleted_of_ne {file read : StoredFile} (hfile : file ∈ files.rows)
    (hne : file.id ≠ read.id) :
    file ∈ (markDeleted files fun f => decide (f.id = read.id)).rows :=
  mem_markDeleted.2 ⟨file, hfile, if_neg (by simpa using hne)⟩

/-- A call leaves the rows of other files alone. -/
theorem mem_advance {file : StoredFile} (h : Stands files bucket now call)
    (hfile : file ∈ files.rows) (hfree : file.key ∉ call.keys files) :
    file ∈ (call.advance config now j ok files bucket).1.1.rows := by
  have hne : ∀ read ∈ files.rows, call.keys files = [read.key] → file.id ≠ read.id := by
    intro read hread hkeys hid
    obtain rfl := Table.eq_of_key_eq files hfile hread hid
    exact hfree (hkeys ▸ List.mem_singleton.2 rfl)
  cases call with
  | headObject read =>
    rw [advance_headObject]
    exact hfile
  | complete read =>
    have hmem := (Table.mem_update_of_mem hfile : _ ∈ (markCompleted files read.id now).rows)
    rwa [if_neg (hne read h.1 rfl)] at hmem
  | reject read contentLength => exact mem_markDeleted_of_ne hfile (hne read h rfl)
  | softDelete read => exact mem_markDeleted_of_ne hfile (hne read h rfl)
  | deleteObject key => exact hfile
  | purge keys cutoff count =>
    cases keys with
    | nil =>
      refine mem_markDeleted.2 ⟨file, hfile, if_neg fun horphan => hfree ?_⟩
      exact List.mem_append_right _
        (List.mem_map_of_mem (List.mem_filter.2 ⟨hfile, horphan⟩))
    | cons key keys =>
      simp only [Call.advance]
      split <;> exact hfile
  | finished answer => exact hfile

/-- A call leaves the objects of other files alone. -/
theorem objects_advance {key : String} (hfree : key ∉ call.keys files) :
    (call.advance config now j ok files bucket).1.2.objects key = bucket.objects key := by
  have hdelete : ∀ key' ∈ call.keys files,
      (if ok then bucket.delete key' else bucket).objects key = bucket.objects key := by
    intro key' hkey'
    have hne : key ≠ key' := fun heq => hfree (heq ▸ hkey')
    cases ok with
    | false => rfl
    | true => exact Function.update_of_ne hne _ _
  cases call with
  | headObject read => rw [advance_headObject]
  | deleteObject key' => exact hdelete key' (List.mem_singleton.2 rfl)
  | purge keys cutoff count =>
    cases keys with
    | nil => rfl
    | cons first keys =>
      simp only [Call.advance]
      split
      · rename_i removed hget
        exact hdelete removed (List.mem_append_left _ (List.mem_of_getElem? hget))
      · rfl
  | _ => rfl

/-- **What a call has found** stands after its own next statement as well. -/
theorem Stands.advance (h : Stands files bucket now call) :
    Stands (call.advance config now j ok files bucket).1.1
      (call.advance config now j ok files bucket).1.2 now
      (call.advance config now j ok files bucket).2 := by
  cases call with
  | headObject file =>
    simp only [Call.advance]
    split
    · trivial
    · rename_i contentLength hobject
      cases ok with
      | false => cases hobject
      | true =>
        have hsome : bucket.objects file.key = some contentLength := hobject
        split
        · exact ⟨h.1, h.2, by simp [hsome]⟩
        · exact h.1
  | complete file => trivial
  | reject file contentLength => trivial
  | softDelete file =>
    exact ⟨{ file with status := .deleted },
      mem_markDeleted.2 ⟨file, h, if_pos (by simp)⟩, rfl, rfl⟩
  | deleteObject key => trivial
  | purge keys cutoff count =>
    cases keys with
    | nil => trivial
    | cons key keys =>
      simp only [Call.advance]
      split
      · exact ⟨h.1, fun key' hkey' => h.2 key' (List.mem_of_mem_eraseIdx hkey')⟩
      · exact h
  | finished answer => trivial

/-- What neither mark changes stays. -/
theorem map_advance {β : Type} {g : StoredFile → β}
    (hdeleted : ∀ file, g { file with status := .deleted } = g file)
    (hcompleted : ∀ file, g { file with status := .completed, confirmedAt := some now } = g file) :
    (call.advance config now j ok files bucket).1.1.rows.map g = files.rows.map g := by
  have hmarked : ∀ p, (markDeleted files p).rows.map g = files.rows.map g := fun p =>
    Table.map_updateWhere hdeleted
  cases call with
  | headObject file => rw [advance_headObject]
  | complete file =>
    show (markCompleted files file.id now).rows.map g = _
    unfold markCompleted Table.update
    exact Table.map_updateWhere hcompleted
  | reject file contentLength => exact hmarked _
  | softDelete file => exact hmarked _
  | purge keys cutoff count =>
    cases keys with
    | nil => exact hmarked _
    | cons key keys =>
      simp only [Call.advance]
      split <;> rfl
  | _ => rfl

/-- An object that is there has not been deleted, whatever a call does. -/
theorem sound_advance (hsound : ∀ key, bucket.objects key ≠ none → bucket.removed key = false) :
    ∀ key, (call.advance config now j ok files bucket).1.2.objects key ≠ none →
      (call.advance config now j ok files bucket).1.2.removed key = false := by
  have hdelete : ∀ key' key, (if ok then bucket.delete key' else bucket).objects key ≠ none →
      (if ok then bucket.delete key' else bucket).removed key = false := by
    intro key' key hobject
    cases ok with
    | false => exact hsound key hobject
    | true =>
      by_cases hkey : key = key'
      · exact absurd (hkey ▸ Function.update_self key' _ _) hobject
      · have hobjects : (bucket.delete key').objects key = bucket.objects key :=
          Function.update_of_ne hkey _ _
        exact (Function.update_of_ne hkey _ _).trans (hsound key (hobjects ▸ hobject))
  cases call with
  | headObject file =>
    rw [advance_headObject]
    exact hsound
  | deleteObject key' => exact hdelete key'
  | purge keys cutoff count =>
    cases keys with
    | nil => exact hsound
    | cons first keys =>
      simp only [Call.advance]
      split
      · exact hdelete _
      · exact hsound
  | _ => exact hsound

end Calls

/-! ### Runs -/

section Runs

variable {config : StorageConfig} {s : State} {e : Event} {es : List Event}

/-- A call that begins has found what it has read. -/
theorem stands_confirmUpload {fileId uploaderId : Uuid} {call : Call}
    (h : confirmUpload config s.files fileId uploaderId = .ok call) :
    Stands s.files s.bucket s.now call := by
  simp only [confirmUpload, Except.bind_eq_ok_iff, Outcome.orThrow_eq_ok_iff] at h
  obtain ⟨file, hfind, hcall⟩ := h
  have hfile := Table.mem_of_find (Option.filter_eq_some_iff.1 hfind).1
  cases hstatus : file.status with
  | pending =>
    rw [hstatus] at hcall
    obtain rfl := Except.pure_eq_ok_iff.1 hcall
    exact ⟨hfile, hstatus⟩
  | completed =>
    rw [hstatus] at hcall
    obtain rfl := Except.pure_eq_ok_iff.1 hcall
    trivial
  | deleted =>
    rw [hstatus] at hcall
    cases hcall

theorem stands_deleteFile {fileId uploaderId : Uuid} {call : Call}
    (h : deleteFile s.files fileId uploaderId = .ok call) :
    Stands s.files s.bucket s.now call := by
  simp only [deleteFile, Except.bind_eq_ok_iff, Outcome.orThrow_eq_ok_iff,
    Except.pure_eq_ok_iff] at h
  obtain ⟨file, hfind, rfl⟩ := h
  exact Table.mem_of_find (Option.filter_eq_some_iff.1 hfind).1

theorem stands_purge : Stands s.files s.bucket s.now (purgeOrphanedUploads s.files s.now) := by
  simp only [purgeOrphanedUploads]
  split
  · trivial
  · refine ⟨Nat.sub_le _ _, fun key hkey => ?_⟩
    obtain ⟨file, hfile, rfl⟩ := List.mem_map.1 hkey
    obtain ⟨hrow, horphan⟩ := List.mem_filter.1 hfile
    have hpending : file.status = .pending := (of_decide_eq_true horphan).1
    exact ⟨file, hrow, rfl, by simp [hpending]⟩

theorem Standing.beginWith (hs : Standing s) {outcome : Except Failure Call}
    (h : ∀ call, outcome = .ok call → Stands s.files s.bucket s.now call) :
    Standing (s.beginWith outcome) := by
  cases outcome with
  | error failure => exact hs
  | ok call => exact ⟨hs.sound, hs.keys, Pool.forall_mem_add hs.stands (h call rfl)⟩

/-- A call that goes on disturbs no other one if it is alone. -/
theorem Standing.advance (hs : Standing s) {i j : ℕ} {ok : Bool}
    (halone : Alone config s (.advance i j ok)) : Standing (step config s (.advance i j ok)) := by
  simp only [step]
  split
  · rename_i call hcall
    have hstands := hs.stands call (List.mem_of_getElem? hcall)
    have hkeys : (call.advance config s.now j ok s.files s.bucket).1.1.rows.map StoredFile.key =
        s.files.rows.map StoredFile.key := map_advance (fun _ => rfl) fun _ => rfl
    refine ⟨sound_advance hs.sound, hkeys ▸ hs.keys, ?_⟩
    refine Pool.forall_mem_set_of_others (fun other hother => ?_) hstands.advance
    exact (hs.stands other (List.mem_of_mem_eraseIdx hother)).of_kept (call.keys s.files)
      (fun file hfile => mem_advance hstands hfile)
      (fun key hkey hobject => (objects_advance hkey).symm ▸ hobject) (Nat.le_refl _)
      (halone call hcall other hother)
  · exact hs

/-- **The invariant.** -/
theorem Standing.step (hs : Standing s) (halone : Alone config s e) :
    Standing (step config s e) := by
  cases e with
  | presignUpload input uploaderId keyId newId =>
    simp only [Storage.step]
    split
    · rename_i files result hok
      have hinsert := (presignUpload_ok hok).2.1
      have hrows := (Table.insert_eq_some_iff.1 hinsert).2
      refine ⟨hs.sound, ?_, fun call hcall => ?_⟩
      · show (files.rows.map StoredFile.key).Nodup
        rw [hrows, List.map_append, List.map_singleton]
        refine List.Nodup.append hs.keys (List.nodup_singleton _) (List.disjoint_singleton.2 ?_)
        rintro hmem
        obtain ⟨file, hfile, hkey⟩ := List.mem_map.1 hmem
        exact halone file hfile hkey
      · refine (hs.stands call hcall).of_kept [] (fun file hfile _ => ?_)
          (fun _ _ hobject => hobject) (Nat.le_refl _) (List.forall_mem_nil _)
        exact (Table.mem_insert hinsert).2 (Or.inl hfile)
    · exact hs
  | put key contentLength =>
    refine ⟨fun key' hobject => ?_, hs.keys, fun call hcall => ?_⟩
    · by_cases hkey : key' = key
      · exact hkey ▸ Function.update_self key _ _
      · have hobjects : (s.bucket.put key contentLength).objects key' = s.bucket.objects key' :=
          Function.update_of_ne hkey _ _
        exact (Function.update_of_ne hkey _ _).trans (hs.sound key' (hobjects ▸ hobject))
    · refine (hs.stands call hcall).of_kept [] (fun file hfile _ => hfile)
        (fun key' _ hobject => ?_) (Nat.le_refl _) (List.forall_mem_nil _)
      simp only [Storage.step, Bucket.put, Function.update_apply]
      split
      · exact Option.some_ne_none _
      · exact hobject
  | confirmUpload fileId uploaderId => exact hs.beginWith fun _ h => stands_confirmUpload h
  | deleteFile fileId uploaderId => exact hs.beginWith fun _ h => stands_deleteFile h
  | purgeOrphanedUploads =>
    show Standing (s.beginWith (.ok (purgeOrphanedUploads s.files s.now)))
    refine hs.beginWith fun call h => ?_
    obtain rfl := Except.ok.inj h
    exact stands_purge
  | advance i j ok => exact hs.advance halone
  | tick duration =>
    refine ⟨hs.sound, hs.keys, fun call hcall => ?_⟩
    exact (hs.stands call hcall).of_kept [] (fun file hfile _ => hfile)
      (fun _ _ hobject => hobject) (Nat.le_add_right _ _) (List.forall_mem_nil _)

/-- **What a call has found is what it writes on.** -/
theorem Standing.orderly (hs : Standing s) (e : Event) : Orderly s e := by
  constructor
  · intro read hread file hfile
    cases e with
    | advance i j ok =>
      obtain ⟨hmem, hpending, hobject⟩ : Stands s.files s.bucket s.now (.complete read) := by
        simp only [State.completing] at hread
        split at hread
        · rename_i hcall
          obtain rfl := Option.some.inj hread
          exact hs.stands _ (List.mem_of_getElem? hcall)
        · cases hread
      obtain rfl : file = read := Option.some.inj (hfile.symm.trans (Table.find_of_mem hmem))
      exact ⟨by simp [hpending], hs.sound _ hobject⟩
    | _ => cases hread
  · intro key hkey file hfile hfilekey
    cases e with
    | advance i j ok =>
      obtain ⟨file', hfile', hkey', hstatus⟩ : ∃ file' ∈ s.files.rows, file'.key = key ∧
          file'.status ≠ .completed := by
        cases ok with
        | false => cases hkey
        | true =>
          simp only [State.removing] at hkey
          split at hkey
          · rename_i hcall
            obtain rfl := Option.some.inj hkey
            obtain ⟨file', hfile', hkey', hdeleted⟩ := hs.stands _ (List.mem_of_getElem? hcall)
            exact ⟨file', hfile', hkey', by simp [hdeleted]⟩
          · rename_i hcall
            exact (hs.stands _ (List.mem_of_getElem? hcall)).2 key (List.mem_of_getElem? hkey)
          · cases hkey
      rw [hs.eq_of_key_eq hfile hfile' (hfilekey.trans hkey'.symm)]
      exact hstatus
    | _ => cases hkey

/-- Nothing has been called yet. -/
theorem standing_initial {files : Table StoredFile.id} (hkeys : (files.rows.map StoredFile.key).Nodup)
    (objects : String → Option ℕ) (now : Time) : Standing (State.initial files objects now) :=
  ⟨fun _ _ => rfl, hkeys, nofun⟩

/-- **Runs in which calls are alone are orderly.** -/
theorem orderly_of_alone {files : Table StoredFile.id}
    (hkeys : (files.rows.map StoredFile.key).Nodup) (objects : String → Option ℕ) (now : Time)
    (halone : Meets (step config) (Alone config) (State.initial files objects now) es) :
    Meets (step config) Orderly (State.initial files objects now) es :=
  meets_of_kept (fun _ e (hs : Standing _) halone => ⟨hs.orderly e, hs.step halone⟩)
    (standing_initial hkeys objects now) halone

end Runs

/-! ### Objects within reach -/

/-- S3 does what it is asked for, clients put what they have declared while no call is about the
file, and nobody deletes a file with an object. -/
def Served (config : StorageConfig) (s : State) : Event → Prop
  | .presignUpload input uploaderId keyId newId =>
    s.bucket.objects (newFile config input uploaderId keyId newId s.now).key = none
  | .put key contentLength =>
    (∀ call ∈ s.calls, key ∉ call.keys s.files) ∧ ∀ file ∈ s.files.rows, file.key = key →
      file.status ≠ .deleted ∧ contentLength = file.sizeBytes
  | .deleteFile fileId _ => ∀ file ∈ s.files.find fileId, s.bucket.objects file.key = none
  | .advance _ _ ok => ok = true
  | _ => True

instance (config : StorageConfig) (s : State) : (e : Event) → Decidable (Served config s e)
  | .presignUpload _ _ _ _ => inferInstanceAs (Decidable (_ = none))
  | .put _ _ => inferInstanceAs (Decidable ((∀ call ∈ s.calls, _) ∧ ∀ file ∈ s.files.rows, _))
  | .confirmUpload _ _ => isTrue trivial
  | .deleteFile _ _ => inferInstanceAs (Decidable (∀ file ∈ s.files.find _, _))
  | .purgeOrphanedUploads => isTrue trivial
  | .advance _ _ _ => inferInstanceAs (Decidable (_ = true))
  | .tick _ => isTrue trivial

/-- A call marks no file with an object: a purge has still to delete those of its orphans. -/
def Swept (files : Table StoredFile.id) (bucket : Bucket) : Call → Prop
  | .reject _ _ => False
  | .softDelete file => bucket.objects file.key = none
  | .purge keys cutoff _ => ∀ file ∈ files.rows, isOrphan cutoff file = true →
      bucket.objects file.key ≠ none → file.key ∈ keys
  | _ => True

/-- The invariant of runs that are served as well. -/
structure Sized (s : State) : Prop where
  sizes : ∀ file ∈ s.files.rows, ∀ contentLength, s.bucket.objects file.key = some contentLength →
    contentLength = file.sizeBytes
  swept : ∀ call ∈ s.calls, Swept s.files s.bucket call

section Sweeps

variable {config : StorageConfig} {files files' : Table StoredFile.id} {bucket bucket' : Bucket}
  {now : Time} {j : ℕ} {ok : Bool} {call : Call} {s : State} {e : Event} {es : List Event}

/-- A row that is pending after a statement has not been changed. -/
theorem mem_of_mem_advance {file : StoredFile} (hpending : file.status = .pending)
    (hfile : file ∈ (call.advance config now j ok files bucket).1.1.rows) : file ∈ files.rows := by
  have hmarked : ∀ p, file ∈ (markDeleted files p).rows → file ∈ files.rows := by
    intro p hmem
    obtain ⟨read, hread, rfl⟩ := mem_markDeleted.1 hmem
    by_cases hp : p read = true
    · rw [if_pos hp] at hpending
      cases hpending
    · rwa [if_neg hp]
  cases call with
  | headObject read => rwa [advance_headObject] at hfile
  | complete read =>
    rcases mem_markCompleted hfile with ⟨old, -, rfl⟩ | ⟨hold, -⟩
    · cases hpending
    · exact hold
  | reject read contentLength => exact hmarked _ hfile
  | softDelete read => exact hmarked _ hfile
  | purge keys cutoff count =>
    cases keys with
    | nil => exact hmarked _ hfile
    | cons key keys =>
      simp only [Call.advance] at hfile
      split at hfile <;> exact hfile
  | _ => exact hfile

/-- Calls put no objects. -/
theorem objects_of_advance {key : String} {contentLength : ℕ}
    (h : (call.advance config now j ok files bucket).1.2.objects key = some contentLength) :
    bucket.objects key = some contentLength := by
  have hdelete : ∀ key', (if ok then bucket.delete key' else bucket).objects key =
      some contentLength → bucket.objects key = some contentLength := by
    intro key' hobject
    cases ok with
    | false => exact hobject
    | true =>
      simp only [if_true, Bucket.delete, Function.update_apply] at hobject
      split at hobject
      · cases hobject
      · exact hobject
  cases call with
  | headObject read => rwa [advance_headObject] at h
  | deleteObject key' => exact hdelete key' h
  | purge keys cutoff count =>
    cases keys with
    | nil => exact h
    | cons first keys =>
      simp only [Call.advance] at h
      split at h
      · exact hdelete _ h
      · exact h
  | _ => exact h

/-- Fewer orphans and fewer objects do no harm. -/
theorem Swept.of_le (h : Swept files bucket call)
    (hrows : ∀ file ∈ files'.rows, file.status = .pending → file ∈ files.rows)
    (hobjects : ∀ key, bucket'.objects key ≠ none → bucket.objects key ≠ none) :
    Swept files' bucket' call := by
  cases call with
  | reject file contentLength => exact h
  | softDelete file =>
    by_contra hobject
    exact hobjects _ hobject h
  | purge keys cutoff count =>
    intro file hfile horphan hobject
    have hpending : file.status = .pending := (of_decide_eq_true horphan).1
    exact h file (hrows file hfile hpending) horphan (hobjects _ hobject)
  | _ => trivial

/-- **The next statement of a call**, when S3 does what it is asked for. -/
theorem Swept.advance (h : Swept files bucket call) (hstands : Stands files bucket now call)
    (hsizes : ∀ file ∈ files.rows, ∀ contentLength,
      bucket.objects file.key = some contentLength → contentLength = file.sizeBytes) :
    Swept (call.advance config now j true files bucket).1.1
      (call.advance config now j true files bucket).1.2
      (call.advance config now j true files bucket).2 := by
  cases call with
  | headObject file =>
    simp only [Call.advance, if_true]
    split
    · trivial
    · rename_i contentLength hobject
      rw [if_pos (hsizes file hstands.1 contentLength hobject)]
      trivial
  | purge keys cutoff count =>
    cases keys with
    | nil => trivial
    | cons key keys =>
      simp only [Call.advance, if_true]
      split
      · rename_i removed hget
        intro file hfile horphan hobject
        have hne : file.key ≠ removed := by
          rintro rfl
          exact hobject (Function.update_self _ _ _)
        have hold : bucket.objects file.key ≠ none := by
          simpa only [Bucket.delete, Function.update_of_ne hne] using hobject
        -- the key is still among those whose objects are to be deleted
        obtain ⟨k, hk⟩ := List.getElem?_of_mem (h file hfile horphan hold)
        refine List.mem_eraseIdx_iff_getElem?.2 ⟨k, ?_, hk⟩
        rintro rfl
        exact hne (Option.some.inj (hk.symm.trans hget))
      · exact h
  | _ => trivial

theorem Sized.beginWith (hs : Sized s) {outcome : Except Failure Call}
    (h : ∀ call, outcome = .ok call → Swept s.files s.bucket call) :
    Sized (s.beginWith outcome) := by
  cases outcome with
  | error failure => exact hs
  | ok call => exact ⟨hs.sizes, Pool.forall_mem_add hs.swept (h call rfl)⟩

theorem swept_confirmUpload {fileId uploaderId : Uuid}
    (h : confirmUpload config s.files fileId uploaderId = .ok call) :
    Swept s.files s.bucket call := by
  simp only [confirmUpload, Except.bind_eq_ok_iff] at h
  obtain ⟨file, -, hcall⟩ := h
  split at hcall
  · obtain rfl := Except.pure_eq_ok_iff.1 hcall
    trivial
  · cases hcall
  · obtain rfl := Except.pure_eq_ok_iff.1 hcall
    trivial

theorem swept_deleteFile {fileId uploaderId : Uuid}
    (hserved : Served config s (.deleteFile fileId uploaderId))
    (h : deleteFile s.files fileId uploaderId = .ok call) : Swept s.files s.bucket call := by
  simp only [deleteFile, Except.bind_eq_ok_iff, Outcome.orThrow_eq_ok_iff,
    Except.pure_eq_ok_iff] at h
  obtain ⟨file, hfind, rfl⟩ := h
  exact hserved file (Option.filter_eq_some_iff.1 hfind).1

theorem swept_purge : Swept s.files s.bucket (purgeOrphanedUploads s.files s.now) := by
  simp only [purgeOrphanedUploads]
  split
  · trivial
  · intro file hfile horphan _
    exact List.mem_map_of_mem (List.mem_filter.2 ⟨hfile, horphan⟩)

/-- A client puts what it has declared. -/
theorem Sized.put (hs : Sized s) {key : String} {contentLength : ℕ}
    (hfree : ∀ call ∈ s.calls, key ∉ call.keys s.files)
    (hdeclared : ∀ file ∈ s.files.rows, file.key = key → contentLength = file.sizeBytes) :
    Sized { s with bucket := s.bucket.put key contentLength } := by
  have hobjects : ∀ {key'}, key' ≠ key → (s.bucket.put key contentLength).objects key' =
      s.bucket.objects key' := fun hne => Function.update_of_ne hne _ _
  refine ⟨fun file hfile contentLength' hobject => ?_, fun call hcall => ?_⟩
  · by_cases hkey : file.key = key
    · have hput : (s.bucket.put key contentLength).objects file.key = some contentLength := by
        rw [hkey]
        exact Function.update_self key _ _
      rw [← Option.some.inj (hput.symm.trans hobject)]
      exact hdeclared file hfile hkey
    · exact hs.sizes file hfile _ ((hobjects hkey).symm.trans hobject)
  · have hswept := hs.swept call hcall
    cases call with
    | softDelete file =>
      have hne : file.key ≠ key := fun hkey => hfree _ hcall (List.mem_singleton.2 hkey.symm)
      exact (hobjects hne).trans hswept
    | purge keys cutoff count =>
      intro file hfile horphan hobject
      have hne : file.key ≠ key := by
        rintro rfl
        refine hfree _ hcall (List.mem_append_right _ ?_)
        exact List.mem_map_of_mem (List.mem_filter.2 ⟨hfile, horphan⟩)
      exact hswept file hfile horphan fun hnone => hobject ((hobjects hne).trans hnone)
    | _ => exact hswept

/-- A call goes on, and S3 does what it is asked for. -/
theorem Sized.advance (hs : Sized s) (hstanding : Standing s) (i j : ℕ) :
    Sized (step config s (.advance i j true)) := by
  simp only [Storage.step]
  split
  · rename_i call hcall
    have hmem := List.mem_of_getElem? hcall
    refine ⟨fun file hfile contentLength hobject => ?_, ?_⟩
    · -- the row declares what it has declared before
      have hdeclared : (file.key, file.sizeBytes) ∈
          s.files.rows.map fun file => (file.key, file.sizeBytes) := by
        rw [← map_advance (fun _ => rfl) fun _ => rfl]
        exact List.mem_map_of_mem hfile
      obtain ⟨old, hold, heq⟩ := List.mem_map.1 hdeclared
      obtain ⟨hkey, hsize⟩ := Prod.mk.inj heq
      rw [← hsize]
      exact hs.sizes old hold _ (hkey ▸ objects_of_advance hobject)
    · refine Pool.forall_mem_set (fun other hother => ?_)
        ((hs.swept call hmem).advance (hstanding.stands call hmem) hs.sizes)
      refine (hs.swept other hother).of_le (fun file hfile hpending => ?_) fun key hobject => ?_
      · exact mem_of_mem_advance hpending hfile
      · obtain ⟨contentLength, hsome⟩ := Option.ne_none_iff_exists'.1 hobject
        simp [objects_of_advance hsome]
  · exact hs

/-- **The invariant.** -/
theorem Sized.step (hs : Sized s) (hstanding : Standing s) (hserved : Served config s e) :
    Sized (step config s e) := by
  cases e with
  | presignUpload input uploaderId keyId newId =>
    simp only [Storage.step]
    split
    · rename_i files result hok
      have hinsert := (presignUpload_ok hok).2.1
      refine ⟨Table.forall_mem_insert hinsert hs.sizes fun contentLength hobject => ?_,
        fun call hcall => ?_⟩
      · rw [hserved] at hobject
        cases hobject
      · cases call with
        | purge keys cutoff count =>
          have hcutoff : cutoff ≤ s.now := (hstanding.stands _ hcall).1
          refine Table.forall_mem_insert hinsert (hs.swept _ hcall) fun horphan _ => ?_
          -- the new row is not old enough
          exact absurd (of_decide_eq_true horphan).2 (Nat.not_lt.2 hcutoff)
        | _ => exact hs.swept _ hcall
    · exact hs
  | put key contentLength =>
    exact hs.put hserved.1 fun file hfile hkey => (hserved.2 file hfile hkey).2
  | confirmUpload fileId uploaderId => exact hs.beginWith fun _ h => swept_confirmUpload h
  | deleteFile fileId uploaderId => exact hs.beginWith fun _ h => swept_deleteFile hserved h
  | purgeOrphanedUploads =>
    show Sized (s.beginWith (.ok (purgeOrphanedUploads s.files s.now)))
    refine hs.beginWith fun call h => ?_
    obtain rfl := Except.ok.inj h
    exact swept_purge
  | advance i j ok =>
    obtain rfl : ok = true := hserved
    exact hs.advance hstanding i j
  | tick duration => exact ⟨hs.sizes, hs.swept⟩

/-- **Only files without objects are marked.** -/
theorem Sized.reaches (hs : Sized s) (hstanding : Standing s) (hserved : Served config s e) :
    Reaches s e := by
  constructor
  · intro file hfile hmark
    cases e with
    | advance i j ok =>
      cases hcall : s.calls[i]? with
      | none => simp only [State.marking, hcall, Bool.false_eq_true] at hmark
      | some call =>
        have hmem := List.mem_of_getElem? hcall
        have hswept := hs.swept call hmem
        have hstands := hstanding.stands call hmem
        cases call with
        | reject read contentLength => exact hswept.elim
        | softDelete read =>
          simp only [State.marking, hcall] at hmark
          obtain rfl := Table.eq_of_key_eq s.files hfile hstands (of_decide_eq_true hmark)
          exact hswept
        | purge keys cutoff count =>
          cases keys with
          | nil =>
            simp only [State.marking, hcall] at hmark
            by_contra hobject
            exact List.not_mem_nil (hswept file hfile hmark hobject)
          | cons key keys => simp only [State.marking, hcall, Bool.false_eq_true] at hmark
        | _ => simp only [State.marking, hcall, Bool.false_eq_true] at hmark
    | _ => cases hmark
  · intro key hkey file hfile hfilekey
    cases e with
    | put key' contentLength =>
      obtain rfl := Option.some.inj hkey
      exact (hserved.2 file hfile hfilekey).1
    | _ => cases hkey

/-- **No object leaks in runs in which calls are alone and served.** -/
theorem reaches_of_served (objects : String → Option ℕ) (now : Time)
    (h : Meets (step config) (fun s e => Alone config s e ∧ Served config s e)
      (State.initial (Table.empty _) objects now) es) :
    Meets (step config) Reaches (State.initial (Table.empty _) objects now) es := by
  have hstep : ∀ s e, Standing s ∧ Sized s → Alone config s e ∧ Served config s e →
      Reaches s e ∧ Standing (step config s e) ∧ Sized (step config s e) := fun s e hs he =>
    ⟨hs.2.reaches hs.1 he.2, hs.1.step he.1, hs.2.step hs.1 he.2⟩
  have hstanding : Standing (State.initial (Table.empty _) objects now) :=
    standing_initial (by simp) objects now
  exact meets_of_kept hstep ⟨hstanding, nofun, nofun⟩ h

end Sweeps

namespace Sample

/-- The calls of the two runs without races are alone. -/
example : Meets (step config) (Alone config) start orderly := by decide +kernel

/-- An upload that is confirmed, and another one that is purged. -/
example : Meets (step bucketConfig)
    (fun s e => Alone bucketConfig s e ∧ Served bucketConfig s e) bare (presigned ++
      [.put "employee-avatar/1/50.png" 1000, .confirmUpload 51 1, .advance 0 0 true,
        .advance 0 0 true, .presignUpload input 1 60 61, .put "employee-avatar/1/60.png" 1000,
        .tick 90000000, .purgeOrphanedUploads, .advance 1 0 true, .advance 1 0 true]) := by
  decide +kernel

end Sample

end Storage

end OpsHub
