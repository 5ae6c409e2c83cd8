import OpsHub.Lib.Base64
import OpsHub.Lib.Cursors
import OpsHub.Lib.Timestamps
import OpsHub.Notifications.InApp

/-!
# The list of notifications

`NotificationDrizzleRepository.list` pages through the notifications of a recipient by a cursor:
the date at which the last one shown was created.  PostgreSQL keeps microseconds of it, and a
`Date` milliseconds.

* `dateOf`, `CursorText`: what becomes of a timestamp on its way into a cursor and back;
* `list`, `followCursors`: one page, and following the cursors from none until `null`;
* `followCursors_eq`: these are pages by cursor;
* `partitioned_iff`: they show every notification once, in order, if and only if no border
  between two pages falls between notifications created in the same millisecond.
-/

namespace OpsHub

/-- A row of `in_app_notifications`; `createdAt` is in microseconds. -/
structure NotificationRow extends InAppNotification where
  isRead : Bool
  createdAt : ℕ
  deriving DecidableEq, Repr

/-- `in_app_notifications`. -/
abbrev Notifications := Table (fun r : NotificationRow => r.id)

/-- The `Date` that the driver makes of a timestamp. -/
def dateOf (microseconds : ℕ) : Time := microseconds / 1000

/-- `btoa(date.toISOString())`, and `new Date(atob(cursor))` of such a text. -/
structure CursorText where
  encode : Time → String
  decode : String → Time
  decode_encode : ∀ date, decode (encode date) = date
  encode_ne_empty : ∀ date, encode date ≠ ""

/-- `NotificationListFilters`. -/
structure NotificationListFilters where
  isRead : Option Bool
  limit : ℕ
  cursor : Option String
  deriving DecidableEq, Repr

/-- `NotificationListResult`. -/
structure NotificationListResult where
  items : List NotificationRow
  nextCursor : Option String
  deriving DecidableEq, Repr

namespace NotificationDrizzleRepository

/-- `desc(createdAt)`. -/
abbrev NewestFirst : NotificationRow → NotificationRow → Prop :=
  Paging.Desc NotificationRow.createdAt

/-- The notifications of the recipient, or the read or unread ones of them. -/
def matching (table : Notifications) (recipientId : Uuid) (isRead : Option Bool) :
    List NotificationRow :=
  table.rows.filter (fun r => decide (r.recipientId = recipientId ∧ ∀ b ∈ isRead, r.isRead = b))

/-- The condition on `createdAt`; an empty cursor counts as none. -/
def beforeCursor (text : CursorText) (cursor : Option String) (r : NotificationRow) : Bool :=
  match cursor.filter (fun c => decide (c ≠ "")) with
  | some c => decide (r.createdAt < text.decode c * 1000)
  | none => true

/-- `list`; `answer` is what the database makes of the `ORDER BY` clause. -/
def list (text : CursorText) (answer : Paging.Sorter NewestFirst) (table : Notifications)
    (recipientId : Uuid) (filters : NotificationListFilters) :
    Except Failure NotificationListResult := do
  let rows := (answer.sort ((matching table recipientId filters.isRead).filter
    (beforeCursor text filters.cursor))).take (filters.limit + 1)
  let hasMore := decide (filters.limit < rows.length)
  let items := rows.take filters.limit
  if hasMore then
    let last ← Outcome.orThrow
      (.error "Cannot read properties of undefined (reading 'createdAt')") items.getLast?
    pure ⟨items, some (text.encode (dateOf last.createdAt))⟩
  else pure ⟨items, none⟩

/-- The pages from a cursor on, until there is no next one. -/
def followCursors (text : CursorText) (answers : ℕ → Paging.Sorter NewestFirst)
    (table : Notifications) (recipientId : Uuid) (isRead : Option Bool) (limit : ℕ) :
    (fuel k : ℕ) → Option String → Option (List (List NotificationRow))
  | 0, _, _ => none
  | fuel + 1, k, cursor =>
    match list text (answers k) table recipientId ⟨isRead, limit, cursor⟩ with
    | .error _ => none
    | .ok ⟨items, none⟩ => some [items]
    | .ok ⟨items, some next⟩ =>
      (followCursors text answers table recipientId isRead limit fuel (k + 1) (some next)).map
        (items :: ·)

/-- Following the cursors from none ends, and shows every notification once, the newest first. -/
def Partitioned (text : CursorText) (answers : ℕ → Paging.Sorter NewestFirst)
    (table : Notifications) (recipientId : Uuid) (isRead : Option Bool) (limit : ℕ) : Prop :=
  ∃ fuel pages, followCursors text answers table recipientId isRead limit fuel 0 none = some pages ∧
    pages.flatten.Perm (matching table recipientId isRead) ∧ pages.flatten.Pairwise NewestFirst

variable {text : CursorText} {answer : Paging.Sorter NewestFirst}
  {answers : ℕ → Paging.Sorter NewestFirst} {table : Notifications} {recipientId : Uuid}
  {isRead : Option Bool} {limit : ℕ}

/-- A cursor stands for its date: the notifications before it are those of earlier
milliseconds. -/
theorem filter_beforeCursor (cursor : Option Time) (rows : List NotificationRow) :
    rows.filter (beforeCursor text (cursor.map text.encode)) =
      Paging.below (fun r => dateOf r.createdAt) rows cursor := by
  cases cursor with
  | none => exact List.filter_eq_self.2 fun _ _ => rfl
  | some date =>
    refine List.filter_congr fun r _ => ?_
    have hgiven : (some (text.encode date)).filter (fun c => decide (c ≠ "")) =
        some (text.encode date) := by simp [text.encode_ne_empty date]
    simp only [beforeCursor, Option.map_some, hgiven, text.decode_encode]
    exact decide_eq_decide.2 (Nat.div_lt_iff_lt_mul (by decide)).symm

/-- **One page** is a page by cursor. -/
theorem list_eq (cursor : Option Time) :
    list text answer table recipientId ⟨isRead, limit + 1, cursor.map text.encode⟩ =
      .ok ⟨(Paging.cursorPage answer (fun r => dateOf r.createdAt) (limit + 1)
          (matching table recipientId isRead) cursor).1,
        (Paging.cursorPage answer (fun r => dateOf r.createdAt) (limit + 1)
          (matching table recipientId isRead) cursor).2.map text.encode⟩ := by
  simp only [list, filter_beforeCursor, Paging.cursorPage]
  set found := (answer.sort (Paging.below (fun r => dateOf r.createdAt)
    (matching table recipientId isRead) cursor)).take (limit + 1 + 1) with hfound
  by_cases hmore : limit + 1 < found.length
  · have hne : found.take (limit + 1) ≠ [] := by
      refine List.ne_nil_of_length_pos ?_
      rw [List.length_take]
      omega
    rw [decide_eq_true hmore, if_pos rfl, if_pos hmore, List.getLast?_eq_some_getLast hne]
    rfl
  · rw [decide_eq_false hmore, if_neg (by decide), if_neg hmore]
    rfl

/-- **Following the cursors** is following the cursors of pages. -/
theorem followCursors_eq (fuel k : ℕ) (cursor : Option Time) :
    followCursors text answers table recipientId isRead (limit + 1) fuel k
        (cursor.map text.encode) =
      Paging.follow answers (fun r => dateOf r.createdAt) (limit + 1)
        (matching table recipientId isRead) fuel k cursor := by
  induction fuel generalizing k cursor with
  | zero => rfl
  | succ fuel ih =>
    rw [followCursors, Paging.follow, list_eq]
    cases (Paging.cursorPage (answers k) (fun r => dateOf r.createdAt) (limit + 1)
        (matching table recipientId isRead) cursor).2 with
    | none => rfl
    | some date => exact congrArg (Option.map (_ :: ·)) (ih (k + 1) (some date))

/-- The pages of `limit + 1` notifications. -/
theorem partitioned_succ_iff (text : CursorText) (answers : ℕ → Paging.Sorter NewestFirst)
    (table : Notifications) (recipientId : Uuid) (isRead : Option Bool) (limit : ℕ) :
    Partitioned text answers table recipientId isRead (limit + 1) ↔
      ∀ k, ¬ Paging.Splits (fun r => dateOf r.createdAt) (matching table recipientId isRead)
        (k * (limit + 1)) := by
  have hmono : ∀ a b : NotificationRow, a.createdAt ≤ b.createdAt →
      dateOf a.createdAt ≤ dateOf b.createdAt := fun _ _ hle => Nat.div_le_div_right hle
  rw [← Paging.exists_follow_iff (s := answers) hmono]
  have hfollow : ∀ fuel,
      followCursors text answers table recipientId isRead (limit + 1) fuel 0 none =
        Paging.follow answers (fun r => dateOf r.createdAt) (limit + 1)
          (matching table recipientId isRead) fuel 0 none :=
    fun fuel => followCursors_eq fuel 0 none
  simp only [Partitioned, hfollow]

/-- **The pages partition the notifications** if and only if no border between two pages falls
between notifications created in the same millisecond. -/
theorem partitioned_iff (text : CursorText) (answers : ℕ → Paging.Sorter NewestFirst)
    (table : Notifications) (recipientId : Uuid) (isRead : Option Bool) (limit : ℕ)
    (hlimit : 1 ≤ limit) :
    Partitioned text answers table recipientId isRead limit ↔
      ∀ k, ¬ Paging.Splits (fun r => dateOf r.createdAt) (matching table recipientId isRead)
        (k * limit) := by
  obtain ⟨limit, rfl⟩ := Nat.exists_eq_succ_of_ne_zero (Nat.pos_iff_ne_zero.1 hlimit)
  exact partitioned_succ_iff text answers table recipientId isRead limit

namespace ListingSample

/-- 1970-01-01, in milliseconds from the beginning of the year 0. -/
def epoch : ℕ := 86400000 * Timestamps.dayNumber 1970 1 1

/-- `date.toISOString()`; of a date after the year 9999 its number is kept instead. -/
def isoText (date : Time) : List Char :=
  if (Timestamps.partsOf (epoch + date)).year < 10000 then (Timestamps.partsOf (epoch + date)).text
  else '+' :: Nat.toDigits 10 date

/-- `new Date(text)`. -/
def newDate (text : List Char) : Time :=
  match Timestamps.read text with
  | some t => t.instant - epoch
  | none => Nat.ofDigitChars 10 (text.drop 1) 0

theorem newDate_isoText (date : Time) : newDate (isoText date) = date := by
  unfold isoText
  split
  · -- a date of four digits
    rename_i hyear
    let t : Timestamps.Stamp := ⟨_, Timestamps.valid_partsOf hyear⟩
    have hread : Timestamps.read (Timestamps.partsOf (epoch + date)).text = some t :=
      Timestamps.read_eq_some_iff.2 rfl
    have hinstant : t.instant = epoch + date := Timestamps.instant_partsOf (epoch + date)
    rw [newDate, hread]
    show t.instant - epoch = date
    rw [hinstant, Nat.add_sub_cancel_left]
  · have hsign : Timestamps.readDigits 4 ('+' :: Nat.toDigits 10 date) = none :=
      if_neg fun h => by simp at h
    have hread : Timestamps.read ('+' :: Nat.toDigits 10 date) = none := by
      simp only [Timestamps.read, Timestamps.readParts, hsign, Option.bind_eq_bind,
        Option.bind_none]
    rw [newDate, hread]
    exact Nat.ofDigitChars_ten_toDigits

theorem isoText_ne_nil (date : Time) : isoText date ≠ [] := by
  unfold isoText
  split
  · simp [Timestamps.Parts.text]
  · exact List.cons_ne_nil _ _

/-- `btoa` and `atob`; the texts of dates have no padding. -/
def cursorText : CursorText where
  encode date := String.ofList (Base64.encode (Utf8.bytes (isoText date)))
  decode text := newDate (Utf8.decode (Base64.decode text.toList))
  decode_encode date := by
    rw [String.toList_ofList, Base64.decode_encode, Utf8.decode_bytes, newDate_isoText]
  encode_ne_empty date heq := by
    refine isoText_ne_nil date ?_
    have hnil : Base64.encode (Utf8.bytes (isoText date)) = [] := by
      rw [← String.toList_ofList (l := Base64.encode _), heq]
      rfl
    rw [← Utf8.decode_bytes (isoText date), ← Base64.decode_encode (Utf8.bytes _), hnil]
    rfl

/-- The database answers by insertion. -/
def byInsertion : Paging.Sorter NewestFirst :=
  Paging.Sorter.insertion _ (fun a b => (Nat.le_total a.createdAt b.createdAt).symm)
    (fun _ _ _ hab hbc => Nat.le_trans hbc hab)

/-- A notification to user 7. -/
def notification (id : Uuid) (createdAt : ℕ) : NotificationRow where
  id := id
  recipientId := 7
  actorId := none
  type := "request.approved"
  title := "Your leave request was approved"
  body := ""
  resourceId := none
  sourceEventId := none
  outboxId := id
  isRead := false
  createdAt := createdAt

/-- Two notifications, at the given microseconds. -/
def notifications (first second : ℕ) : Notifications :=
  ⟨[notification 1 first, notification 2 second], by simp [notification]⟩

/-- Two notifications in different milliseconds, one to a page. -/
theorem partitioned_apart :
    Partitioned cursorText (fun _ => byInsertion) (notifications 2500 1700) 7 none 1 := by
  refine (partitioned_iff cursorText (fun _ => byInsertion) (notifications 2500 1700) 7 none 1
    le_rfl).2 fun k hsplits => ?_
  have hinside := hsplits.inside
  have hlength : (matching (notifications 2500 1700) 7 none).length = 2 := by decide
  obtain rfl : k = 1 := by omega
  revert hsplits
  decide

/-- Two notifications in the same millisecond, one to a page: the older one is never shown. -/
theorem not_partitioned_together :
    ¬ Partitioned cursorText (fun _ => byInsertion) (notifications 1700 1200) 7 none 1 := by
  intro h
  exact (partitioned_succ_iff cursorText (fun _ => byInsertion) (notifications 1700 1200) 7 none
    0).1 h 1 (by decide)

end ListingSample

end NotificationDrizzleRepository

end OpsHub
