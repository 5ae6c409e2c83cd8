import OpsHub.Storage.StorageService

/-!
# Orphaned uploads

`purgeOrphanedUploads` selects rows that are pending.  An object that has been put by a client
stays within its reach as long as its row is pending, and is forgotten when the row is marked
`deleted` while the object is there: after a size mismatch, and at the end of a purge for every
object whose deletion has failed.

* `NoLeak`: the purge can still select every uploaded object whose file is not completed;
* `Reaches`: the condition on a step;
* `always_noLeak_iff`: no object leaks throughout a run exactly if the condition is met;
* `not_noLeak`: the two ways in which objects leak.
-/

namespace OpsHub

namespace Storage

open StorageService Runs

/-! ### The guarantee -/

/-- The client has put the object of the file, and no deletion of it has succeeded since. -/
def Uploaded (s : State) (file : StoredFile) : Prop := s.bucket.objects file.key ≠ none

/-- A purge at some later time selects the file as it is. -/
def Selectable (s : State) (file : StoredFile) : Prop :=
  ∃ duration, isOrphan (s.now + duration - orphanCutoff) file = true

/-- **The guarantee**: an uploaded object whose file is not completed stays selectable. -/
def NoLeak (s : State) : Prop :=
  ∀ file ∈ s.files.rows, file.status ≠ .completed → Uploaded s file → Selectable s file

/-! ### The condition -/

/-- The rows that an event marks `deleted`. -/
def State.marking (s : State) : Event → StoredFile → Bool
  | .advance i _ _ =>
    match s.calls[i]? with
    | some (.reject read _) => fun file => decide (file.id = read.id)
    | some (.softDelete read) => fun file => decide (file.id = read.id)
    | some (.purge [] cutoff _) => isOrphan cutoff
    | _ => fun _ => false
  | _ => fun _ => false

/-- The key under which the client puts an object. -/
def State.putting : Event → Option String
  | .put key _ => some key
  | _ => none

/-- The condition on a step. -/
structure Reaches (s : State) (e : Event) : Prop where
  /-- Only files without an object in the bucket are marked `deleted`. -/
  marking : ∀ file ∈ s.files.rows, s.marking e file = true → s.bucket.objects file.key = none
  /-- No object is put for a file that is deleted. -/
  putting : ∀ key ∈ State.putting e, ∀ file ∈ s.files.rows, file.key = key → file.status ≠ .deleted

instance (s : State) (e : Event) : Decidable (Reaches s e) :=
  decidable_of_iff
    ((∀ file ∈ s.files.rows, s.marking e file = true → s.bucket.objects file.key = none) ∧
      ∀ key ∈ State.putting e, ∀ file ∈ s.files.rows, file.key = key → file.status ≠ .deleted)
    ⟨fun h => ⟨h.1, h.2⟩, fun h => ⟨h.marking, h.putting⟩⟩

/-! ### Rows without objects -/

/-- The files that are deleted have no object in the bucket. -/
def Tracked (files : Table StoredFile.id) (bucket : Bucket) : Prop :=
  ∀ file ∈ files.rows, file.status = .deleted → bucket.objects file.key = none

/-- The purge can select the files that are pending. -/
theorem selectable_iff {s : State} {file : StoredFile} :
    Selectable s file ↔ file.status = .pending := by
  simp only [Selectable, isOrphan, decide_eq_true_eq]
  constructor
  · rintro ⟨duration, hpending, -⟩
    exact hpending
  · intro hpending
    refine ⟨file.createdAt + orphanCutoff + 1, hpending, ?_⟩
    have hlt : ∀ created now cutoff : ℕ, created < now + (created + cutoff + 1) - cutoff := by omega
    exact hlt _ _ _

theorem noLeak_iff {s : State} : NoLeak s ↔ Tracked s.files s.bucket := by
  simp only [NoLeak, Tracked, Uploaded, selectable_iff]
  refine forall₂_congr fun file _ => ?_
  cases file.status <;> simp

section Tracked

variable {files files' : Table StoredFile.id} {bucket : Bucket}

theorem tracked_markDeleted_iff {p : StoredFile → Bool} (h : Tracked files bucket) :
    Tracked (markDeleted files p) bucket ↔
      ∀ file ∈ files.rows, p file = true → bucket.objects file.key = none := by
  constructor
  · intro htracked file hfile hp
    exact htracked { file with status := .deleted }
      (mem_markDeleted.2 ⟨file, hfile, if_pos hp⟩) rfl
  · intro hnone x hx hdeleted
    obtain ⟨file, hfile, rfl⟩ := mem_markDeleted.1 hx
    by_cases hp : p file = true
    · rw [if_pos hp]
      exact hnone file hfile hp
    · rw [if_neg hp] at hdeleted ⊢
      exact h file hfile hdeleted

theorem tracked_insert {file : StoredFile} (hpending : file.status = .pending)
    (hinsert : files.insert file = some files') (h : Tracked files bucket) :
    Tracked files' bucket := by
  refine Table.forall_mem_insert hinsert h fun hdeleted => ?_
  rw [hpending] at hdeleted
  cases hdeleted

theorem tracked_put_iff {key : String} {contentLength : ℕ} (h : Tracked files bucket) :
    Tracked files (bucket.put key contentLength) ↔
      ∀ file ∈ files.rows, file.key = key → file.status ≠ .deleted := by
  constructor
  · rintro htracked file hfile rfl hdeleted
    have hnone := htracked file hfile hdeleted
    simp [Bucket.put] at hnone
  · intro hother file hfile hdeleted
    have hne : file.key ≠ key := fun hkey => hother file hfile hkey hdeleted
    simp only [Bucket.put, Function.update_apply, if_neg hne]
    exact h file hfile hdeleted

theorem tracked_markCompleted {fileId : Uuid} {now : Time} (h : Tracked files bucket) :
    Tracked (markCompleted files fileId now) bucket := by
  intro x hx hdeleted
  rcases mem_markCompleted hx with ⟨file, hfile, rfl⟩ | ⟨hold, -⟩
  · cases hdeleted
  · exact h x hold hdeleted

theorem tracked_delete {key : String} (h : Tracked files bucket) :
    Tracked files (bucket.delete key) := by
  intro file hfile hdeleted
  simp only [Bucket.delete, Function.update_apply]
  split
  · rfl
  · exact h file hfile hdeleted

end Tracked

/-! ### What a step keeps -/

section Steps

variable {config : StorageConfig} {s s' : State} {e : Event} {i j : ℕ} {ok : Bool} {call : Call}

/-- An event that marks no row and puts no object meets the condition. -/
theorem reaches_of_none (hmarking : ∀ file, s.marking e file = false)
    (hputting : State.putting e = none) : Reaches s e := by
  refine ⟨fun file _ hmark => ?_, fun key hkey => ?_⟩
  · rw [hmarking file] at hmark
    cases hmark
  · rw [hputting] at hkey
    cases hkey

/-- An event that marks rows. -/
theorem tracked_iff_of_marking (hs : Tracked s.files s.bucket) (hputting : State.putting e = none)
    (hfiles : s'.files = markDeleted s.files (s.marking e)) (hbucket : s'.bucket = s.bucket) :
    Tracked s'.files s'.bucket ↔ Reaches s e := by
  rw [hfiles, hbucket, tracked_markDeleted_iff hs]
  refine ⟨fun hmarking => ⟨hmarking, fun key hkey => ?_⟩, Reaches.marking⟩
  rw [hputting] at hkey
  cases hkey

/-- An event that marks no row and puts no object, and does not take the bucket further than a
deletion. -/
theorem tracked_iff_of_none (htracked : Tracked s'.files s'.bucket)
    (hmarking : ∀ file, s.marking e file = false) (hputting : State.putting e = none) :
    Tracked s'.files s'.bucket ↔ Reaches s e :=
  iff_of_true htracked (reaches_of_none hmarking hputting)

/-- The next deletion of a purge, or the marking that comes after the last. -/
theorem tracked_purge_iff (hs : Tracked s.files s.bucket) {keys : List String} {cutoff : Time}
    {count : ℕ} (hcall : s.calls[i]? = some (.purge keys cutoff count)) :
    Tracked (step config s (.advance i j ok)).files (step config s (.advance i j ok)).bucket ↔
      Reaches s (.advance i j ok) := by
  cases keys with
  | nil =>
    refine tracked_iff_of_marking hs rfl ?_ ?_
    · simp only [step, hcall, Call.advance, State.marking]
    · simp only [step, hcall, Call.advance]
  | cons key keys =>
    refine tracked_iff_of_none ?_ (fun file => by simp only [State.marking, hcall]) rfl
    simp only [step, hcall, Call.advance]
    cases (key :: keys)[j]? with
    | none => exact hs
    | some removed =>
      cases ok with
      | false => exact hs
      | true => exact tracked_delete hs

/-- The next statement or request of a call. -/
theorem tracked_advance_iff (hs : Tracked s.files s.bucket) (hcall : s.calls[i]? = some call) :
    Tracked (step config s (.advance i j ok)).files (step config s (.advance i j ok)).bucket ↔
      Reaches s (.advance i j ok) := by
  cases call with
  | headObject file =>
    have hsame := advance_headObject config s.now j ok s.files s.bucket file
    refine tracked_iff_of_none ?_ (fun file => by simp only [State.marking, hcall]) rfl
    simp only [step, hcall, hsame]
    exact hs
  | complete file =>
    refine tracked_iff_of_none ?_ (fun file => by simp only [State.marking, hcall]) rfl
    simp only [step, hcall, Call.advance]
    exact tracked_markCompleted hs
  | reject file contentLength =>
    refine tracked_iff_of_marking hs rfl ?_ ?_
    · simp only [step, hcall, Call.advance, State.marking]
    · simp only [step, hcall, Call.advance]
  | softDelete file =>
    refine tracked_iff_of_marking hs rfl ?_ ?_
    · simp only [step, hcall, Call.advance, State.marking]
    · simp only [step, hcall, Call.advance]
  | deleteObject key =>
    refine tracked_iff_of_none ?_ (fun file => by simp only [State.marking, hcall]) rfl
    simp only [step, hcall, Call.advance]
    cases ok with
    | false => exact hs
    | true => exact tracked_delete hs
  | purge keys cutoff count => exact tracked_purge_iff hs hcall
  | finished answer =>
    refine tracked_iff_of_none ?_ (fun file => by simp only [State.marking, hcall]) rfl
    simp only [step, hcall, Call.advance]
    exact hs

/-- The beginning of a call changes nothing. -/
theorem tracked_beginWith (hs : Tracked s.files s.bucket) (outcome : Except Failure Call) :
    Tracked (s.beginWith outcome).files (s.beginWith outcome).bucket := by
  cases outcome with
  | error failure => exact hs
  | ok call => exact hs

/-- **What a step keeps.** -/
theorem step_noLeak_iff (config : StorageConfig) (s : State) (e : Event) (hs : NoLeak s) :
    NoLeak (step config s e) ↔ Reaches s e := by
  rw [noLeak_iff] at hs ⊢
  cases e with
  | presignUpload input uploaderId keyId newId =>
    refine tracked_iff_of_none ?_ (fun _ => rfl) rfl
    simp only [step]
    split
    · rename_i files result hok
      exact tracked_insert rfl (presignUpload_ok hok).2.1 hs
    · exact hs
  | put key contentLength =>
    refine (tracked_put_iff hs).trans ⟨fun hother => ⟨fun file _ hmark => ?_, fun key' hkey => ?_⟩,
      fun hreaches => hreaches.putting key rfl⟩
    · cases hmark
    · rw [← Option.some.inj hkey]
      exact hother
  | confirmUpload fileId uploaderId =>
    exact tracked_iff_of_none (tracked_beginWith hs _) (fun _ => rfl) rfl
  | deleteFile fileId uploaderId =>
    exact tracked_iff_of_none (tracked_beginWith hs _) (fun _ => rfl) rfl
  | purgeOrphanedUploads =>
    exact tracked_iff_of_none (tracked_beginWith hs (.ok _)) (fun _ => rfl) rfl
  | tick duration => exact tracked_iff_of_none hs (fun _ => rfl) rfl
  | advance i j ok =>
    cases hcall : s.calls[i]? with
    | none =>
      refine tracked_iff_of_none ?_ (fun file => by simp only [State.marking, hcall]) rfl
      simp only [step, hcall]
      exact hs
    | some call => exact tracked_advance_iff hs hcall

end Steps

/-- **No object leaks throughout a run exactly if** files are marked `deleted` only when their
object is gone, and no object is put for a file that is deleted. -/
theorem always_noLeak_iff (config : StorageConfig) (objects : String → Option ℕ) (now : Time)
    (es : List Event) :
    (∀ fs, fs <+: es → NoLeak (run (step config) (State.initial (Table.empty _) objects now) fs)) ↔
      Meets (step config) Reaches (State.initial (Table.empty _) objects now) es := by
  refine always_iff_meets (step_noLeak_iff config) fun file hfile => ?_
  cases hfile

/-! ### Objects that leak -/

namespace Sample

/-- No CDN; the URLs do not matter here. -/
def bucketConfig : StorageConfig := ⟨"files", none, fun key _ _ => key, id, id⟩

/-- The avatar of employee 1 is presigned. -/
def presigned : List Event :=
  [.presignUpload ⟨"me.png", "image/png", 1000, "employee-avatar", none, none⟩ 1 50 51]

/-- The client puts another length than the declared one, and confirms. -/
def mismatched : List Event :=
  presigned ++ [.put "employee-avatar/1/50.png" 999, .confirmUpload 51 1, .advance 0 0 true,
    .advance 0 0 true]

/-- The client does not confirm; a day later the purge fails to delete the object. -/
def unpurged : List Event :=
  presigned ++ [.put "employee-avatar/1/50.png" 1000, .tick 90000000, .purgeOrphanedUploads,
    .advance 0 0 false, .advance 0 0 true]

/-- The bucket and the table are empty. -/
def bare : State := State.initial (Table.empty _) (fun _ => none) 0

/-- A row that is deleted while its object is there has leaked. -/
theorem not_noLeak_of_exists {s : State} (h : ∃ file ∈ s.files.rows,
    file.status = .deleted ∧ s.bucket.objects file.key ≠ none) : ¬ NoLeak s := by
  obtain ⟨file, hfile, hdeleted, hobject⟩ := h
  rw [noLeak_iff]
  exact fun htracked => hobject (htracked file hfile hdeleted)

/-- After a size mismatch, and after a purge that could not delete the object, no purge selects
the row again. -/
theorem not_noLeak :
    ¬ NoLeak (run (step bucketConfig) bare mismatched) ∧
      ¬ NoLeak (run (step bucketConfig) bare unpurged) :=
  ⟨not_noLeak_of_exists (by decide +kernel), not_noLeak_of_exists (by decide +kernel)⟩

/-- A confirmed upload, and a purge that deletes what it selects. -/
example : Meets (step bucketConfig) Reaches bare (presigned ++
    [.put "employee-avatar/1/50.png" 1000, .tick 90000000, .purgeOrphanedUploads,
      .advance 0 0 true, .advance 0 0 true]) := by decide +kernel

end Sample

end Storage

end OpsHub
