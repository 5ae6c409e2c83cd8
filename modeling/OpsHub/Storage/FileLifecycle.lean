import OpsHub.Storage.StorageService

/-!
# The lifecycle of a stored file

`confirmUpload`, `deleteFile` and `purgeOrphanedUploads` read the row of a file, talk to S3 and
write the status, whatever it has become in the meantime.

* `Available`: the service has not deleted the object of a completed file since it was put;
* `KeepsDeleted`: files that are deleted stay so;
* `Orderly`: the condition on a step;
* `always_available_iff`: both hold throughout a run exactly if it is orderly;
* `not_available`: two races in which they do not.
-/

namespace OpsHub

namespace Storage

open StorageService Runs

/-! ### The guarantee -/

/-- The service has not deleted the object of a completed file since it was put last. -/
def Available (s : State) : Prop :=
  ∀ file ∈ s.files.rows, file.status = .completed → s.bucket.removed file.key = false

instance (s : State) : Decidable (Available s) :=
  inferInstanceAs (Decidable (∀ file ∈ s.files.rows, _))

/-- The files that are deleted in one state are so in the other. -/
def KeepsDeleted (s s' : State) : Prop :=
  ∀ id file, s.files.find id = some file → file.status = .deleted →
    ∃ file', s'.files.find id = some file' ∧ file'.status = .deleted

theorem keepsDeleted_refl (s : State) : KeepsDeleted s s :=
  fun _ file hfind hdeleted => ⟨file, hfind, hdeleted⟩

theorem keepsDeleted_trans (s₁ s₂ s₃ : State) (h : KeepsDeleted s₁ s₂) (h' : KeepsDeleted s₂ s₃) :
    KeepsDeleted s₁ s₃ := by
  intro id file hfind hdeleted
  obtain ⟨file', hfind', hdeleted'⟩ := h id file hfind hdeleted
  exact h' id file' hfind' hdeleted'

/-! ### The condition -/

/-- The condition on a step. -/
structure Orderly (s : State) (e : Event) : Prop where
  /-- A file is set to `completed` only if it is not deleted, and its object is still there. -/
  completing : ∀ read ∈ s.completing e, ∀ file ∈ s.files.find read.id,
    file.status ≠ .deleted ∧ s.bucket.removed file.key = false
  /-- The object of a completed file is not deleted. -/
  removing : ∀ key ∈ s.removing e, ∀ file ∈ s.files.rows, file.key = key → file.status ≠ .completed

instance (s : State) (e : Event) : Decidable (Orderly s e) :=
  decidable_of_iff
    ((∀ read ∈ s.completing e, ∀ file ∈ s.files.find read.id,
        file.status ≠ .deleted ∧ s.bucket.removed file.key = false) ∧
      ∀ key ∈ s.removing e, ∀ file ∈ s.files.rows, file.key = key → file.status ≠ .completed)
    ⟨fun h => ⟨h.1, h.2⟩, fun h => ⟨h.completing, h.removing⟩⟩

/-! ### What a step keeps -/

section Steps

variable {s s' : State} {e : Event}

/-- An event that completes no file and deletes no object. -/
theorem orderly_of_none (hcompleting : s.completing e = none) (hremoving : s.removing e = none) :
    Orderly s e := by
  refine ⟨fun read hread => ?_, fun key hkey => ?_⟩
  · rw [hcompleting] at hread
    cases hread
  · rw [hremoving] at hkey
    cases hkey

/-- The rows and the bucket decide. -/
theorem kept_of_same (hfiles : s'.files = s.files) (hbucket : s'.bucket = s.bucket)
    (hs : Available s) : Available s' ∧ KeepsDeleted s s' := by
  refine ⟨?_, ?_⟩
  · rw [Available, hfiles, hbucket]
    exact hs
  · intro id file hfind hdeleted
    rw [hfiles]
    exact ⟨file, hfind, hdeleted⟩

theorem kept_of_presigned {file : StoredFile} {files : Table StoredFile.id}
    (hpending : file.status = .pending) (hinsert : s.files.insert file = some files)
    (hs : Available s) :
    Available { s with files := files } ∧ KeepsDeleted s { s with files := files } := by
  refine ⟨Table.forall_mem_insert hinsert hs fun hcompleted => ?_, fun id x hfind hdeleted => ?_⟩
  · rw [hpending] at hcompleted
    cases hcompleted
  · exact ⟨x, Table.find_insert_of_find hinsert hfind, hdeleted⟩

theorem kept_of_put (key : String) (contentLength : ℕ) (hs : Available s) :
    Available { s with bucket := s.bucket.put key contentLength } := by
  intro file hfile hcompleted
  simp only [Bucket.put, Function.update_apply]
  split
  · rfl
  · exact hs file hfile hcompleted

theorem kept_of_deleted (p : StoredFile → Bool) (calls : List Call) (hs : Available s) :
    Available { s with files := markDeleted s.files p, calls := calls } ∧
      KeepsDeleted s { s with files := markDeleted s.files p, calls := calls } := by
  refine ⟨fun x hx hcompleted => ?_, fun id file hfind hdeleted => ?_⟩
  · obtain ⟨file, hfile, rfl⟩ := mem_markDeleted.1 hx
    by_cases hp : p file = true
    · rw [if_pos hp] at hcompleted
      cases hcompleted
    · rw [if_neg hp] at hcompleted ⊢
      exact hs file hfile hcompleted
  · refine ⟨if p file then { file with status := .deleted } else file, ?_, ?_⟩
    · exact find_markDeleted.trans (congrArg (Option.map _) hfind)
    · split
      · rfl
      · exact hdeleted

/-- A file that is set to `completed` must not be deleted, and its object must still be there. -/
theorem kept_completed_iff (read : StoredFile) (calls : List Call) (hs : Available s) :
    (Available { s with files := markCompleted s.files read.id s.now, calls := calls } ∧
      KeepsDeleted s { s with files := markCompleted s.files read.id s.now, calls := calls }) ↔
    ∀ file ∈ s.files.find read.id, file.status ≠ .deleted ∧ s.bucket.removed file.key = false := by
  constructor
  · rintro ⟨havailable, hkeeps⟩ file hfile
    have hfind : (markCompleted s.files read.id s.now).find read.id =
        some { file with status := .completed, confirmedAt := some s.now } :=
      find_markCompleted_self.trans (congrArg (Option.map _) hfile)
    have hremoved := havailable _ (Table.mem_of_find hfind) rfl
    refine ⟨fun hdeleted => ?_, hremoved⟩
    obtain ⟨file', hfind', hdeleted'⟩ := hkeeps read.id file hfile hdeleted
    obtain rfl := Option.some.inj (hfind.symm.trans hfind')
    cases hdeleted'
  · intro hok
    refine ⟨fun x hx hcompleted => ?_, fun id file hfind hdeleted => ?_⟩
    · rcases mem_markCompleted hx with ⟨file, hfile, rfl⟩ | ⟨hold, -⟩
      · exact (hok file hfile).2
      · exact hs x hold hcompleted
    · have hne : id ≠ read.id := by
        rintro rfl
        exact (hok file hfind).1 hdeleted
      exact ⟨file, (find_markCompleted_ne hne).trans hfind, hdeleted⟩

/-- The object that is deleted must not be that of a completed file. -/
theorem kept_removed_iff (key : String) (calls : List Call) (hs : Available s) :
    Available { s with bucket := s.bucket.delete key, calls := calls } ↔
      ∀ file ∈ s.files.rows, file.key = key → file.status ≠ .completed := by
  constructor
  · rintro havailable file hfile rfl hcompleted
    have hkept := havailable file hfile hcompleted
    simp [Bucket.delete] at hkept
  · intro hok file hfile hcompleted
    have hne : file.key ≠ key := fun hkey => hok file hfile hkey hcompleted
    simp only [Bucket.delete, Function.update_apply, if_neg hne]
    exact hs file hfile hcompleted

/-- **What a step keeps.** -/
theorem step_kept_iff (config : StorageConfig) (s : State) (e : Event) (hs : Available s) :
    Available (step config s e) ∧ KeepsDeleted s (step config s e) ↔ Orderly s e := by
  have hstep := step_cases config s e
  generalize step config s e = s' at hstep
  cases hstep with
  | quiet hfiles hbucket hcompleting hremoving =>
    exact iff_of_true (kept_of_same hfiles hbucket hs) (orderly_of_none hcompleting hremoving)
  | presigned hpending hinsert =>
    exact iff_of_true (kept_of_presigned hpending hinsert hs) (orderly_of_none rfl rfl)
  | put key contentLength =>
    exact iff_of_true ⟨kept_of_put key contentLength hs, keepsDeleted_refl s⟩
      (orderly_of_none rfl rfl)
  | @deleted i j ok p calls hcompleting hremoving =>
    exact iff_of_true (kept_of_deleted p calls hs) (orderly_of_none hcompleting hremoving)
  | @completed i j ok read calls hcall =>
    have hcompleting : s.completing (.advance i j ok) = some read := by
      simp only [State.completing, hcall]
    have hremoving : s.removing (.advance i j ok) = none := by
      cases ok <;> simp only [State.removing, hcall]
    rw [kept_completed_iff read calls hs]
    constructor
    · intro hok
      refine ⟨fun read' hread => ?_, fun key hkey => ?_⟩
      · rw [hcompleting] at hread
        obtain rfl := Option.some.inj hread
        exact hok
      · rw [hremoving] at hkey
        cases hkey
    · exact fun horderly => horderly.completing read hcompleting
  | @removed i j key calls hcompleting hremoving =>
    have hkeeps : KeepsDeleted s { s with bucket := s.bucket.delete key, calls := calls } :=
      keepsDeleted_refl s
    rw [and_iff_left hkeeps, kept_removed_iff key calls hs]
    constructor
    · intro hok
      refine ⟨fun read hread => ?_, fun key' hkey => ?_⟩
      · rw [hcompleting] at hread
        cases hread
      · rw [hremoving] at hkey
        obtain rfl := Option.some.inj hkey
        exact hok
    · exact fun horderly => horderly.removing key hremoving

end Steps

/-- **Files are available and deleted files stay deleted throughout a run exactly if it is
orderly.** -/
theorem always_available_iff (config : StorageConfig) (files : Table StoredFile.id)
    (objects : String → Option ℕ) (now : Time) (es : List Event) :
    ((∀ fs, fs <+: es → Available (run (step config) (State.initial files objects now) fs)) ∧
      ∀ fs gs, fs <+: gs → gs <+: es →
        KeepsDeleted (run (step config) (State.initial files objects now) fs)
          (run (step config) (State.initial files objects now) gs)) ↔
      Meets (step config) Orderly (State.initial files objects now) es :=
  always_related_iff_meets keepsDeleted_refl keepsDeleted_trans (step_kept_iff config)
    (fun _ _ _ => rfl)

namespace Sample

/-- No CDN; the URLs do not matter here. -/
def config : StorageConfig := ⟨"files", none, fun key _ _ => key, id, id⟩

/-- The start. -/
def start : State := State.initial (Table.empty _) (fun _ => none) 0

/-- The avatar of employee 1. -/
def input : PresignUploadInput := ⟨"me.png", "image/png", 1000, "employee-avatar", none, none⟩

/-- Its key. -/
def key : String := "employee-avatar/1/50.png"

/-- The file is presigned, and the client puts it within the life of the URL. -/
def uploaded : List Event := [.presignUpload input 1 50 51, .tick 60000, .put key 1000]

/-- A day later the client confirms while the purge is running. -/
def purged : List Event :=
  uploaded ++ [.tick 86400000, .confirmUpload 51 1, .advance 0 0 true, .purgeOrphanedUploads,
    .advance 1 0 true, .advance 0 0 true, .advance 1 0 true]

/-- The client deletes the file while it is confirmed. -/
def deleted : List Event :=
  uploaded ++ [.confirmUpload 51 1, .advance 0 0 true, .deleteFile 51 1, .advance 1 0 true]

/-- Then the confirmation writes. -/
def revived : List Event := deleted ++ [.advance 0 0 true]

/-- The file is confirmed, and deleted later; another one is purged. -/
def orderly : List Event :=
  uploaded ++ [.confirmUpload 51 1, .advance 0 0 true, .advance 0 0 true, .deleteFile 51 1,
    .advance 1 0 true, .advance 1 0 true, .presignUpload input 1 60 61, .tick 90000000,
    .purgeOrphanedUploads, .advance 2 0 true, .advance 2 0 true]

/-- After the purge the file is completed, and its object is gone; and the deleted file has come
back to life. -/
theorem not_available :
    ¬ Available (run (step config) start purged) ∧
      ¬ KeepsDeleted (run (step config) start deleted) (run (step config) start revived) := by
  refine ⟨by decide +kernel, fun h => ?_⟩
  have hdeleted : (run (step config) start deleted).files.find 51 =
      some { newFile config input 1 50 51 0 with status := .deleted } := by decide +kernel
  have hrevived : (run (step config) start revived).files.find 51 =
      some { newFile config input 1 50 51 0 with
        status := .completed
        confirmedAt := some 60000 } := by decide +kernel
  obtain ⟨file, hfind, hstatus⟩ := h 51 _ hdeleted rfl
  obtain rfl := Option.some.inj (hrevived.symm.trans hfind)
  cases hstatus

/-- Nothing goes wrong when nobody races. -/
example : Meets (step config) Orderly start orderly := by decide +kernel

end Sample

end Storage

end OpsHub
