import Mathlib.Data.List.Induction
import OpsHub.Lib.Keyed
import OpsHub.Lib.Runs
import OpsHub.Notifications.Listing

/-!
# Read and unread notifications

`NotificationsController` lets users list, count and mark their notifications while the relay
inserts new ones.

* `InboxRow`, `insertRow`, `markRead`, `markAllRead`, `unreadCount`: rows with the time of reading,
  and the statements of the repository;
* `InboxRequest`, `serve`: the requests of all users, with their answers;
* `inbox_alone`: each user is answered as if there were no other, for every run;
* `mem_after_iff`: the rows are those that have been inserted, with the time of reading that the
  marks since then make;
* `foldl_readTime`: the time of the last mark of one, else of the first mark of all;
* `read_state`: a notification is unread exactly if its recipient has not marked it, nor all, since
  it was inserted, and the badge counts these.
-/

namespace OpsHub

/-- A row of `in_app_notifications`, with the time at which it has been read. -/
structure InboxRow extends NotificationRow where
  readAt : Option Time
  deriving DecidableEq, Repr

/-- `in_app_notifications`. -/
abbrev Inbox := Table (fun r : InboxRow => r.id)

namespace NotificationDrizzleRepository

/-! ### The statements -/

/-- The columns that `list` reads. -/
def notifications (table : Inbox) : Notifications :=
  ⟨table.rows.map InboxRow.toNotificationRow, by
    rw [List.map_map]
    exact table.nodup⟩

/-- The row that `create` inserts. -/
def newRow (n : InAppNotification) (createdAt : ℕ) : InboxRow where
  toInAppNotification := n
  isRead := false
  createdAt := createdAt
  readAt := none

/-- The insertion of `create`, with the unique index on `source_event_id`. -/
def insertRow (row : InboxRow) (table : Inbox) : Option Inbox :=
  if row.sourceEventId ≠ none ∧ ∃ r ∈ table.rows, r.sourceEventId = row.sourceEventId then none
  else table.insert row

/-- `set({ isRead: true, readAt: new Date() })`. -/
def read (now : Time) (r : InboxRow) : InboxRow := { r with isRead := true, readAt := some now }

theorem read_id (now : Time) (r : InboxRow) : (read now r).id = r.id := rfl

/-- `markRead`. -/
def markRead (id recipientId : Uuid) (now : Time) (table : Inbox) : Inbox :=
  table.updateWhere (fun r => decide (r.id = id ∧ r.recipientId = recipientId)) (read now)
    (read_id now)

/-- `markAllRead`. -/
def markAllRead (recipientId : Uuid) (now : Time) (table : Inbox) : Inbox :=
  table.updateWhere (fun r => decide (r.recipientId = recipientId ∧ r.isRead = false)) (read now)
    (read_id now)

/-- `unreadCount`. -/
def unreadCount (recipientId : Uuid) (table : Inbox) : ℕ :=
  table.rows.countP fun r => decide (r.recipientId = recipientId ∧ r.isRead = false)

end NotificationDrizzleRepository

namespace NotificationsController

open NotificationDrizzleRepository

/-! ### The requests -/

/-- An insertion of the relay, or a request of a user. -/
inductive InboxRequest
  | insert (n : InAppNotification) (createdAt : ℕ)
  | list (recipientId : Uuid) (answer : Paging.Sorter NewestFirst)
      (filters : NotificationListFilters)
  | unreadCount (recipientId : Uuid)
  | markRead (id recipientId : Uuid) (now : Time)
  | markAllRead (recipientId : Uuid) (now : Time)

/-- Whose notifications it is about. -/
def InboxRequest.recipientId : InboxRequest → Uuid
  | .insert n _ => n.recipientId
  | .list recipientId _ _ => recipientId
  | .unreadCount recipientId => recipientId
  | .markRead _ recipientId _ => recipientId
  | .markAllRead recipientId _ => recipientId

/-- What it is answered. -/
inductive InboxAnswer
  | inserted (ok : Bool)
  | page (result : Except Failure NotificationListResult)
  | count (count : ℕ)
  | noContent

/-- An insertion has failed. -/
def InboxAnswer.refused : InboxAnswer → Bool
  | .inserted ok => !ok
  | _ => false

/-- The table after a request, and the answer. -/
def serve (text : CursorText) (table : Inbox) : InboxRequest → Inbox × InboxAnswer
  | .insert n createdAt =>
    match insertRow (newRow n createdAt) table with
    | some table' => (table', .inserted true)
    | none => (table, .inserted false)
  | .list recipientId answer filters =>
    (table, .page (list text answer (notifications table) recipientId filters))
  | .unreadCount recipientId =>
    (table, .count (NotificationDrizzleRepository.unreadCount recipientId table))
  | .markRead id recipientId now =>
    (NotificationDrizzleRepository.markRead id recipientId now table, .noContent)
  | .markAllRead recipientId now =>
    (NotificationDrizzleRepository.markAllRead recipientId now table, .noContent)

/-- The table after some requests. -/
def after (text : CursorText) : Inbox → List InboxRequest → Inbox :=
  Runs.run fun table request => (serve text table request).1

/-! ### One user alone -/

/-- The notifications of a user. -/
def own (userId : Uuid) (table : Inbox) : List InboxRow :=
  table.rows.filter fun r => decide (r.recipientId = userId)

/-- The second table is that of the user alone. -/
def Alone (userId : Uuid) (table table' : Inbox) : Prop := table'.rows = own userId table

/-- A request of the user, or an insertion for them that has not been refused. -/
def Concerns (userId : Uuid) (x : InboxRequest × InboxAnswer) : Prop :=
  x.1.recipientId = userId ∧ x.2.refused = false

instance (userId : Uuid) : DecidablePred (Concerns userId) := fun _ =>
  inferInstanceAs (Decidable (_ ∧ _))

section Alone

variable {text : CursorText} {userId : Uuid} {table table' : Inbox} {request : InboxRequest}

/-- The page of the user. -/
theorem matching_alone (h : Alone userId table table') (isRead : Option Bool) :
    matching (notifications table') userId isRead =
      matching (notifications table) userId isRead := by
  show (table'.rows.map InboxRow.toNotificationRow).filter _ =
    (table.rows.map InboxRow.toNotificationRow).filter _
  rw [h, own, List.filter_map, List.filter_map, List.filter_filter]
  refine congrArg _ (List.filter_congr fun r _ => ?_)
  by_cases hr : r.recipientId = userId <;> simp [hr]

theorem list_alone (h : Alone userId table table') (answer : Paging.Sorter NewestFirst)
    (filters : NotificationListFilters) :
    list text answer (notifications table') userId filters =
      list text answer (notifications table) userId filters := by
  unfold list
  rw [matching_alone h]

theorem unreadCount_alone (h : Alone userId table table') :
    NotificationDrizzleRepository.unreadCount userId table' =
      NotificationDrizzleRepository.unreadCount userId table := by
  unfold NotificationDrizzleRepository.unreadCount
  rw [h, own, List.countP_filter]
  refine List.countP_congr fun r _ => ?_
  by_cases hr : r.recipientId = userId <;> simp [hr]

/-- A mark of the user. -/
theorem alone_updateWhere (h : Alone userId table table') {p : InboxRow → Bool} (now : Time) :
    Alone userId (table.updateWhere p (read now) (read_id now))
      (table'.updateWhere p (read now) (read_id now)) := by
  show table'.rows.map _ = (table.rows.map _).filter _
  rw [h, own, List.filter_map]
  refine congrArg _ (List.filter_congr fun r _ => ?_)
  show decide (r.recipientId = userId) =
    decide ((if p r then read now r else r).recipientId = userId)
  split <;> rfl

/-- A mark of somebody else. -/
theorem own_updateWhere {p : InboxRow → Bool} (now : Time)
    (hp : ∀ r, p r = true → r.recipientId ≠ userId) :
    own userId (table.updateWhere p (read now) (read_id now)) = own userId table :=
  Table.filter_updateWhere fun r hr => ⟨decide_eq_false (hp r hr), decide_eq_false (hp r hr)⟩

theorem insertRow_eq_some_iff {row : InboxRow} {table₁ : Inbox} :
    insertRow row table = some table₁ ↔
      (row.sourceEventId = none ∨ ∀ r ∈ table.rows, r.sourceEventId ≠ row.sourceEventId) ∧
        table.insert row = some table₁ := by
  unfold insertRow
  by_cases htaken : row.sourceEventId ≠ none ∧
      ∃ r ∈ table.rows, r.sourceEventId = row.sourceEventId
  · rw [if_pos htaken]
    obtain ⟨hsome, r, hr, heq⟩ := htaken
    simp only [reduceCtorEq, false_iff, not_and]
    rintro (hnone | hfree)
    · exact absurd hnone hsome
    · exact absurd heq (hfree r hr)
  · rw [if_neg htaken]
    refine (and_iff_right ?_).symm
    by_cases hnone : row.sourceEventId = none
    · exact Or.inl hnone
    · exact Or.inr fun r hr heq => htaken ⟨hnone, r, hr, heq⟩

/-- An insertion for the user is not refused by the smaller table. -/
theorem insert_alone (h : Alone userId table table') {row : InboxRow} {table₁ : Inbox}
    (hrow : row.recipientId = userId) (hins : insertRow row table = some table₁) :
    ∃ table₁', insertRow row table' = some table₁' ∧ Alone userId table₁ table₁' := by
  obtain ⟨hsource, hins⟩ := insertRow_eq_some_iff.1 hins
  obtain ⟨hfree, hrows⟩ := Table.insert_eq_some_iff.1 hins
  have hsub : ∀ r ∈ table'.rows, r ∈ table.rows := by
    intro r hr
    rw [h] at hr
    exact List.mem_of_mem_filter hr
  have hfree' : table'.find row.id = none :=
    Table.find_eq_none_iff.2 fun r hr => Table.find_eq_none_iff.1 hfree r (hsub r hr)
  obtain ⟨table₁', hins'⟩ := Table.exists_insert hfree'
  refine ⟨table₁', insertRow_eq_some_iff.2 ⟨?_, hins'⟩, ?_⟩
  · exact hsource.imp_right fun hfree r hr => hfree r (hsub r hr)
  · rw [Alone, (Table.insert_eq_some_iff.1 hins').2, own, hrows, List.filter_append, h, own]
    simp [hrow]

/-- **A request of the user** finds and leaves the user's own notifications. -/
theorem serve_alone (h : Alone userId table table')
    (hconcerns : Concerns userId (request, (serve text table request).2)) :
    (serve text table' request).2 = (serve text table request).2 ∧
      Alone userId (serve text table request).1 (serve text table' request).1 := by
  obtain ⟨rfl, hrefused⟩ := hconcerns
  cases request with
  | insert n createdAt =>
    simp only [serve] at hrefused ⊢
    cases hins : insertRow (newRow n createdAt) table with
    | none =>
      rw [hins] at hrefused
      cases hrefused
    | some table₁ =>
      obtain ⟨table₁', hins', halone⟩ := insert_alone h rfl hins
      rw [hins']
      exact ⟨rfl, halone⟩
  | list recipientId answer filters =>
    exact ⟨congrArg InboxAnswer.page (list_alone h answer filters), h⟩
  | unreadCount recipientId => exact ⟨congrArg InboxAnswer.count (unreadCount_alone h), h⟩
  | markRead id recipientId now => exact ⟨rfl, alone_updateWhere h now⟩
  | markAllRead recipientId now => exact ⟨rfl, alone_updateWhere h now⟩

/-- Any other request leaves them alone. -/
theorem own_serve (hconcerns : ¬ Concerns userId (request, (serve text table request).2)) :
    own userId (serve text table request).1 = own userId table := by
  cases request with
  | insert n createdAt =>
    simp only [serve] at hconcerns ⊢
    cases hins : insertRow (newRow n createdAt) table with
    | none => rfl
    | some table₁ =>
      rw [hins] at hconcerns
      have hne : n.recipientId ≠ userId := fun heq => hconcerns ⟨heq, rfl⟩
      obtain ⟨-, hins⟩ := insertRow_eq_some_iff.1 hins
      rw [own, (Table.insert_eq_some_iff.1 hins).2, List.filter_append, own]
      simp [newRow, hne]
  | list recipientId answer filters => rfl
  | unreadCount recipientId => rfl
  | markRead id recipientId now =>
    refine own_updateWhere now fun r hr heq => ?_
    obtain ⟨-, hrecipient⟩ := of_decide_eq_true hr
    exact hconcerns ⟨hrecipient.symm.trans heq, rfl⟩
  | markAllRead recipientId now =>
    refine own_updateWhere now fun r hr heq => ?_
    obtain ⟨hrecipient, -⟩ := of_decide_eq_true hr
    exact hconcerns ⟨hrecipient.symm.trans heq, rfl⟩

/-- The table with the notifications of a user only. -/
def only (userId : Uuid) (table : Inbox) : Inbox :=
  table.deleteWhere fun r => !decide (r.recipientId = userId)

/-- **Each user alone.**  In every run the requests of a user are answered as by a table on which
nobody else has ever worked, and from which the others' notifications have been taken away. -/
theorem inbox_alone (text : CursorText) (userId : Uuid) (table : Inbox)
    (requests : List InboxRequest) :
    Keyed.outputs (serve text) (only userId table)
        (((Keyed.outputs (serve text) table requests).filter
          (fun x => decide (Concerns userId x))).map Prod.fst) =
      (Keyed.outputs (serve text) table requests).filter (fun x => decide (Concerns userId x)) := by
  have hstart : Alone userId table (only userId table) := by
    show table.rows.filter _ = table.rows.filter _
    simp only [Bool.not_not]
  have hin : ∀ t t' request, Alone userId t t' →
      Concerns userId (request, (serve text t request).2) →
      (serve text t' request).2 = (serve text t request).2 ∧
        Alone userId (serve text t request).1 (serve text t' request).1 :=
    fun _ _ _ h hconcerns => serve_alone h hconcerns
  have hout : ∀ t t' request, Alone userId t t' →
      ¬ Concerns userId (request, (serve text t request).2) →
        Alone userId (serve text t request).1 t' :=
    fun _ _ _ h hconcerns => Eq.trans h (own_serve hconcerns).symm
  exact Keyed.outputs_replay hin hout hstart requests

end Alone

/-! ### Marks -/

/-- The request marks the notification. -/
def InboxRequest.Marks (id recipientId : Uuid) : InboxRequest → Prop
  | .markRead id' recipientId' _ => id' = id ∧ recipientId' = recipientId
  | .markAllRead recipientId' _ => recipientId' = recipientId
  | _ => False

/-- The time of a mark of the notification alone. -/
def InboxRequest.oneMarked (id recipientId : Uuid) : InboxRequest → Option Time
  | .markRead id' recipientId' now =>
    if id' = id ∧ recipientId' = recipientId then some now else none
  | _ => none

/-- The time of a mark of all notifications of the recipient. -/
def InboxRequest.allMarked (recipientId : Uuid) : InboxRequest → Option Time
  | .markAllRead recipientId' now => if recipientId' = recipientId then some now else none
  | _ => none

/-- The time of reading after a request: a mark of one notification counts anew, and a mark of all
only where there has been none. -/
def readTime (id recipientId : Uuid) (readAt : Option Time) : InboxRequest → Option Time
  | .markRead id' recipientId' now =>
    if id' = id ∧ recipientId' = recipientId then some now else readAt
  | .markAllRead recipientId' now =>
    if recipientId' = recipientId then readAt <|> some now else readAt
  | _ => readAt

/-- The row that was inserted, read at that time. -/
def aged (n : InAppNotification) (createdAt : ℕ) (readAt : Option Time) : InboxRow :=
  { newRow n createdAt with isRead := readAt.isSome, readAt := readAt }

/-- The row that a request inserts. -/
def insertedRow (table : Inbox) : InboxRequest → Option (InAppNotification × ℕ)
  | .insert n createdAt => (insertRow (newRow n createdAt) table).map fun _ => (n, createdAt)
  | _ => none

section Marks

variable {text : CursorText} {table : Inbox} {request : InboxRequest} {n : InAppNotification}
  {createdAt : ℕ} {readAt : Option Time}

theorem readTime_eq_none_iff {id recipientId : Uuid} :
    readTime id recipientId readAt request = none ↔
      readAt = none ∧ ¬ request.Marks id recipientId := by
  cases request with
  | markRead id' recipientId' now =>
    by_cases h : id' = id ∧ recipientId' = recipientId <;> simp [readTime, InboxRequest.Marks, h]
  | markAllRead recipientId' now =>
    by_cases h : recipientId' = recipientId <;> simp [readTime, InboxRequest.Marks, h]
  | _ => simp [readTime, InboxRequest.Marks]

theorem readTime_eq (id recipientId : Uuid) (readAt : Option Time) (request : InboxRequest) :
    readTime id recipientId readAt request =
      ((request.oneMarked id recipientId).or readAt).or (request.allMarked recipientId) := by
  cases request with
  | markRead id' recipientId' now =>
    by_cases h : id' = id ∧ recipientId' = recipientId <;>
      simp [readTime, InboxRequest.oneMarked, InboxRequest.allMarked, h]
  | markAllRead recipientId' now =>
    by_cases h : recipientId' = recipientId <;>
      simp [readTime, InboxRequest.oneMarked, InboxRequest.allMarked, h]
  | _ => simp [readTime, InboxRequest.oneMarked, InboxRequest.allMarked]

/-- **The time of reading** is that of the last mark of the notification alone, if there is one,
else that of the first mark of all. -/
theorem foldl_readTime (id recipientId : Uuid) (later : List InboxRequest) :
    later.foldl (readTime id recipientId) none =
      (later.reverse.findSome? (InboxRequest.oneMarked id recipientId)).or
        (later.findSome? (InboxRequest.allMarked recipientId)) := by
  induction later using List.reverseRecOn with
  | nil => rfl
  | append_singleton later request ih =>
    rw [List.foldl_append, List.foldl_cons, List.foldl_nil, readTime_eq, ih, List.reverse_append,
      List.reverse_singleton, List.singleton_append, List.findSome?_cons, List.findSome?_append,
      List.findSome?_singleton]
    cases request.oneMarked id recipientId with
    | some now => rfl
    | none => simp [Option.or_assoc]

/-- A notification is unread as long as there is no mark. -/
theorem foldl_readTime_eq_none_iff {id recipientId : Uuid} (later : List InboxRequest) :
    later.foldl (readTime id recipientId) none = none ↔
      ∀ request ∈ later, ¬ request.Marks id recipientId := by
  induction later using List.reverseRecOn with
  | nil => simp
  | append_singleton later request ih =>
    rw [List.foldl_append, List.foldl_cons, List.foldl_nil, readTime_eq_none_iff, ih,
      List.forall_mem_append, List.forall_mem_singleton]

/-- A mark of the repository, on one row. -/
theorem read_aged {p : InboxRow → Bool} {now : Time} {readAt' : Option Time}
    (h : readAt' = if p (aged n createdAt readAt) then some now else readAt) :
    (if p (aged n createdAt readAt) then read now (aged n createdAt readAt)
      else aged n createdAt readAt) = aged n createdAt readAt' := by
  rw [h]
  split <;> rfl

/-- **What a request does to a row.** -/
theorem mem_serve (h : ∀ r ∈ table.rows, ∃ n createdAt readAt, r = aged n createdAt readAt)
    (r : InboxRow) : r ∈ (serve text table request).1.rows ↔
      (∃ n createdAt readAt, aged n createdAt readAt ∈ table.rows ∧
        r = aged n createdAt (readTime n.id n.recipientId readAt request)) ∨
      ∃ x ∈ insertedRow table request, r = aged x.1 x.2 none := by
  have hsame : r ∈ table.rows ↔
      ∃ n createdAt readAt, aged n createdAt readAt ∈ table.rows ∧ r = aged n createdAt readAt := by
    constructor
    · intro hr
      obtain ⟨n, createdAt, readAt, rfl⟩ := h r hr
      exact ⟨n, createdAt, readAt, hr, rfl⟩
    · rintro ⟨n, createdAt, readAt, hmem, rfl⟩
      exact hmem
  have hupdate : ∀ {p : InboxRow → Bool} {now : Time}, (∀ n createdAt readAt,
      readTime n.id n.recipientId readAt request =
        if p (aged n createdAt readAt) then some now else readAt) →
      (r ∈ (table.updateWhere p (read now) (read_id now)).rows ↔
        ∃ n createdAt readAt, aged n createdAt readAt ∈ table.rows ∧
          r = aged n createdAt (readTime n.id n.recipientId readAt request)) := by
    intro p now hp
    rw [Table.mem_updateWhere]
    constructor
    · rintro ⟨old, hold, rfl⟩
      obtain ⟨n, createdAt, readAt, rfl⟩ := h old hold
      exact ⟨n, createdAt, readAt, hold, read_aged (hp n createdAt readAt)⟩
    · rintro ⟨n, createdAt, readAt, hmem, rfl⟩
      exact ⟨_, hmem, read_aged (hp n createdAt readAt)⟩
  cases request with
  | insert n createdAt =>
    simp only [serve, insertedRow]
    cases hins : insertRow (newRow n createdAt) table with
    | none => simpa [readTime] using hsame
    | some table₁ =>
      obtain ⟨-, hins⟩ := insertRow_eq_some_iff.1 hins
      rw [Table.mem_insert hins, hsame]
      simp only [Option.map_some, Option.mem_some_iff, exists_eq_left', readTime]
      rfl
  | list recipientId answer filters => simpa [serve, insertedRow, readTime] using hsame
  | unreadCount recipientId => simpa [serve, insertedRow, readTime] using hsame
  | markRead id recipientId now =>
    rw [serve, NotificationDrizzleRepository.markRead, hupdate]
    · simp [insertedRow]
    · intro n createdAt readAt
      refine if_congr ?_ rfl rfl
      rw [decide_eq_true_iff]
      exact and_congr eq_comm eq_comm
  | markAllRead recipientId now =>
    rw [serve, NotificationDrizzleRepository.markAllRead, hupdate]
    · simp [insertedRow]
    · intro n createdAt readAt
      by_cases hall : recipientId = n.recipientId
      · subst hall
        cases readAt <;> simp [readTime, aged, newRow]
      · simp [readTime, aged, newRow, hall, Ne.symm hall]

theorem aged_inj {n' : InAppNotification} {createdAt' : ℕ} {readAt' : Option Time}
    (h : aged n createdAt readAt = aged n' createdAt' readAt') :
    n = n' ∧ createdAt = createdAt' ∧ readAt = readAt' :=
  ⟨congrArg (fun r : InboxRow => r.toInAppNotification) h,
    congrArg (fun r : InboxRow => r.createdAt) h, congrArg InboxRow.readAt h⟩

/-- The row has been inserted, and marked as the requests since then say. -/
def InsertedAs (text : CursorText) (requests : List InboxRequest) (row : InboxRow) : Prop :=
  ∃ before n createdAt later, requests = before ++ .insert n createdAt :: later ∧
    (insertRow (newRow n createdAt) (after text (Table.empty _) before)).isSome = true ∧
    row = aged n createdAt (later.foldl (readTime n.id n.recipientId) none)

theorem after_append (text : CursorText) (requests : List InboxRequest) (request : InboxRequest) :
    after text (Table.empty _) (requests ++ [request]) =
      (serve text (after text (Table.empty _) requests) request).1 := by
  unfold after
  rw [Runs.run_append]
  rfl

/-- One request more. -/
theorem insertedAs_append {requests : List InboxRequest} {row : InboxRow} :
    InsertedAs text (requests ++ [request]) row ↔
      (∃ n createdAt readAt, InsertedAs text requests (aged n createdAt readAt) ∧
        row = aged n createdAt (readTime n.id n.recipientId readAt request)) ∨
      ∃ x ∈ insertedRow (after text (Table.empty _) requests) request, row = aged x.1 x.2 none := by
  constructor
  · rintro ⟨before, n, createdAt, later, heq, hins, rfl⟩
    rcases List.eq_nil_or_concat later with rfl | ⟨later, last, rfl⟩
    · -- it is the last request that has inserted the row
      obtain ⟨rfl, hlast⟩ := List.append_inj' heq rfl
      obtain rfl := List.singleton_inj.1 hlast
      obtain ⟨table₁, htable⟩ := Option.isSome_iff_exists.1 hins
      exact Or.inr ⟨(n, createdAt), by rw [insertedRow, htable]; rfl, rfl⟩
    · rw [List.concat_eq_append, ← List.cons_append, ← List.append_assoc] at heq
      obtain ⟨rfl, hlast⟩ := List.append_inj' heq rfl
      obtain rfl := List.singleton_inj.1 hlast
      refine Or.inl ⟨n, createdAt, _, ⟨before, n, createdAt, later, rfl, hins, rfl⟩, ?_⟩
      rw [List.concat_eq_append, List.foldl_append]
      rfl
  · rintro (⟨n, createdAt, readAt, ⟨before, n', createdAt', later, rfl, hins, haged⟩, rfl⟩ |
      ⟨x, hx, rfl⟩)
    · obtain ⟨rfl, rfl, rfl⟩ := aged_inj haged
      refine ⟨before, n, createdAt, later ++ [request], by simp, hins, ?_⟩
      rw [List.foldl_append]
      rfl
    · cases request with
      | insert n createdAt =>
        obtain ⟨table₁, htable, rfl⟩ := Option.map_eq_some_iff.1 hx
        exact ⟨requests, n, createdAt, [], rfl, by rw [htable]; rfl, rfl⟩
      | _ => cases hx

/-- **The inbox** after any requests of all users. -/
theorem mem_after_iff (text : CursorText) (requests : List InboxRequest) (row : InboxRow) :
    row ∈ (after text (Table.empty _) requests).rows ↔ InsertedAs text requests row := by
  induction requests using List.reverseRecOn generalizing row with
  | nil =>
    refine iff_of_false List.not_mem_nil ?_
    rintro ⟨before, n, createdAt, later, heq, -⟩
    exact absurd heq.symm (List.append_ne_nil_of_right_ne_nil _ (List.cons_ne_nil _ _))
  | append_singleton requests request ih =>
    have hrows : ∀ r ∈ (after text (Table.empty _) requests).rows,
        ∃ n createdAt readAt, r = aged n createdAt readAt := by
      intro r hr
      obtain ⟨-, n, createdAt, later, -, -, hrow⟩ := (ih r).1 hr
      exact ⟨n, createdAt, _, hrow⟩
    rw [after_append, mem_serve hrows, insertedAs_append]
    simp only [ih]

/-- What is in the inbox has been inserted, and is unread exactly if its recipient has not marked
it, nor all, since then; the time of reading is that of the last single mark, or of the first mark
of all before which there is none; and the badge counts what is unread. -/
structure ReadState (text : CursorText) (requests : List InboxRequest) (table : Inbox) : Prop where
  rows : ∀ row, row ∈ table.rows ↔ InsertedAs text requests row
  unread : ∀ before n createdAt later, requests = before ++ .insert n createdAt :: later →
    ∀ row ∈ table.rows, row.id = n.id →
      (insertRow (newRow n createdAt) (after text (Table.empty _) before)).isSome = true →
        (row.isRead = false ↔ ∀ request ∈ later, ¬ request.Marks n.id n.recipientId) ∧
          row.readAt = (later.reverse.findSome? (InboxRequest.oneMarked n.id n.recipientId)).or
            (later.findSome? (InboxRequest.allMarked n.recipientId))
  badge : ∀ userId, (serve text table (.unreadCount userId)).2 =
    .count (table.rows.countP fun row => decide (row.recipientId = userId ∧ row.readAt = none))

theorem isRead_aged : (aged n createdAt readAt).isRead = false ↔ readAt = none := by
  cases readAt <;> simp [aged]

/-- **Read and unread.** -/
theorem read_state (text : CursorText) (requests : List InboxRequest) :
    ReadState text requests (after text (Table.empty _) requests) where
  rows := mem_after_iff text requests
  unread before n createdAt later heq row hrow hid hins := by
    -- the insertion has left a row, which is the one with its id
    have haged := (mem_after_iff text requests _).2 ⟨before, n, createdAt, later, heq, hins, rfl⟩
    obtain rfl := Table.eq_of_key_eq _ hrow haged hid
    rw [isRead_aged, foldl_readTime_eq_none_iff]
    exact ⟨Iff.rfl, foldl_readTime n.id n.recipientId later⟩
  badge userId := by
    refine congrArg InboxAnswer.count (List.countP_congr fun row hrow => ?_)
    obtain ⟨-, n, createdAt, later, -, -, rfl⟩ := (mem_after_iff text requests row).1 hrow
    rw [decide_eq_true_iff, decide_eq_true_iff, isRead_aged]
    exact Iff.rfl

end Marks

end NotificationsController

end OpsHub
