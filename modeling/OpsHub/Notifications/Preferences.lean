import OpsHub.Notifications.InApp

/-!
# Notification preferences

`NotificationPreferencesService` over `notification_preferences`: one row for each user and type,
with a flag for each channel; the row of the type `*` is a master switch.

* `isEnabled`: the row of the type, else the one of `*`, else enabled;
* `isInAppEnabled_eq`: the in-app relay asks this service;
* `isEnabled_upsert`: what an upsert makes of the answer for a channel;
* `upsertFrame_iff`: an upsert that names one channel leaves the other alone if and only if there
  is a row of the type already, or no wildcard row that disables the other channel.
-/

namespace OpsHub

/-- `NotificationChannel`. -/
inductive NotificationChannel
  | in_app
  | email
  deriving DecidableEq, Repr

/-- The channel besides this one. -/
def NotificationChannel.other : NotificationChannel → NotificationChannel
  | .in_app => .email
  | .email => .in_app

/-- A row of `notification_preferences`. -/
structure PreferenceRow where
  id : Uuid
  userId : Uuid
  type : String
  inApp : Bool
  email : Bool
  updatedAt : Time
  deriving DecidableEq, Repr

namespace PreferenceRow

/-- The columns of `uq_notif_pref_user_type`. -/
def userType (r : PreferenceRow) : Uuid × String := (r.userId, r.type)

/-- `channel === 'in_app' ? row.inApp : row.email`. -/
def flag (r : PreferenceRow) : NotificationChannel → Bool
  | .in_app => r.inApp
  | .email => r.email

/-- The columns that the in-app relay asks for. -/
def inAppView (r : PreferenceRow) : NotificationPreference := ⟨r.userId, r.type, r.inApp⟩

end PreferenceRow

/-- `notification_preferences`. -/
abbrev PreferenceTable := Table PreferenceRow.userType

/-- `UpsertPreferenceInput`. -/
structure UpsertPreferenceInput where
  userId : Uuid
  type : String
  inApp : Option Bool
  email : Option Bool
  deriving DecidableEq, Repr

namespace UpsertPreferenceInput

/-- An input that names one channel. -/
def only (userId : Uuid) (type : String) (value : Bool) :
    NotificationChannel → UpsertPreferenceInput
  | .in_app => ⟨userId, type, some value, none⟩
  | .email => ⟨userId, type, none, some value⟩

/-- What the input says about a channel. -/
def named (input : UpsertPreferenceInput) : NotificationChannel → Option Bool
  | .in_app => input.inApp
  | .email => input.email

end UpsertPreferenceInput

/-! ### The repository -/

namespace NotificationPreferenceDrizzleRepository

/-- `findForCheck`. -/
def findForCheck (t : PreferenceTable) (userId : Uuid) (type : String) : List PreferenceRow :=
  t.rows.filter (fun r => decide (r.userId = userId ∧ r.type ∈ [type, "*"]))

/-- The row that `upsert` inserts. -/
def insertedRow (input : UpsertPreferenceInput) (newId : Uuid) (now : Time) : PreferenceRow where
  id := newId
  userId := input.userId
  type := input.type
  inApp := input.inApp.getD true
  email := input.email.getD true
  updatedAt := now

/-- The `set` of the conflict clause. -/
def updatedRow (input : UpsertPreferenceInput) (now : Time) (r : PreferenceRow) : PreferenceRow :=
  { r with inApp := input.inApp.getD r.inApp, email := input.email.getD r.email, updatedAt := now }

theorem updatedRow_userType (input : UpsertPreferenceInput) (now : Time) (r : PreferenceRow) :
    (updatedRow input now r).userType = r.userType := rfl

/-- `upsert`: a row with the user and the type is updated, else one is inserted. -/
def upsert (t : PreferenceTable) (input : UpsertPreferenceInput) (newId : Uuid) (now : Time) :
    Except Failure (PreferenceTable × PreferenceRow) := do
  Outcome.require (input.type.length ≤ 100)
    (.error "value too long for type character varying(100)")
  match t.find (input.userId, input.type) with
  | some r =>
    pure (t.update (input.userId, input.type) (updatedRow input now)
      (updatedRow_userType input now), updatedRow input now r)
  | none =>
    let t' ← Outcome.orThrow (Failure.duplicateKey "notification_preferences")
      (t.insert (insertedRow input newId now))
    pure (t', insertedRow input newId now)

end NotificationPreferenceDrizzleRepository

/-! ### The service -/

namespace NotificationPreferencesService

open NotificationPreferenceDrizzleRepository

/-- `isEnabled` on the rows that `findForCheck` has returned. -/
def enabledBy (rows : List PreferenceRow) (type : String) (channel : NotificationChannel) : Bool :=
  match rows.find? (fun r => decide (r.type = type)) with
  | some specific => specific.flag channel
  | none =>
    match rows.find? (fun r => decide (r.type = "*")) with
    | some wildcard => wildcard.flag channel
    | none => true

/-- `isEnabled`. -/
def isEnabled (t : PreferenceTable) (userId : Uuid) (type : String)
    (channel : NotificationChannel) : Bool :=
  enabledBy (findForCheck t userId type) type channel

/-- `isInAppEnabled`. -/
def isInAppEnabled (t : PreferenceTable) (userId : Uuid) (type : String) : Bool :=
  isEnabled t userId type .in_app

/-- `isEmailEnabled`. -/
def isEmailEnabled (t : PreferenceTable) (userId : Uuid) (type : String) : Bool :=
  isEnabled t userId type .email

/-- An upsert that names one channel goes through, makes the answer for that channel the value,
and leaves the answer for the other one as it was. -/
def UpsertFrame (t : PreferenceTable) (userId : Uuid) (type : String)
    (channel : NotificationChannel) (value : Bool) : Prop :=
  ∀ newId now, ∃ t' row,
    upsert t (UpsertPreferenceInput.only userId type value channel) newId now = .ok (t', row) ∧
      isEnabled t' userId type channel = value ∧
      isEnabled t' userId type channel.other = isEnabled t userId type channel.other

/-- The wildcard row of the user, if there is one, does not disable the channel. -/
def WildcardEnables (t : PreferenceTable) (userId : Uuid) (channel : NotificationChannel) : Prop :=
  ∀ wildcard ∈ t.find (userId, "*"), wildcard.flag channel = true

variable {t t' : PreferenceTable} {userId newId : Uuid} {type : String} {now : Time}
  {channel : NotificationChannel} {input : UpsertPreferenceInput} {row : PreferenceRow}

/-! ### Lookups -/

/-- Looking for one of the types that were asked for finds the row of the user with it. -/
theorem find_findForCheck {ty : String} (hty : ty ∈ [type, "*"]) :
    (findForCheck t userId type).find? (fun r => decide (r.type = ty)) = t.find (userId, ty) := by
  unfold findForCheck Table.find
  rw [List.find?_filter]
  congr 1
  funext r
  rw [decide_eq_decide, decide_eq_true_iff, decide_eq_true_iff]
  constructor
  · rintro ⟨⟨huser, -⟩, htype⟩
    exact Prod.ext huser htype
  · intro h
    obtain ⟨huser, htype⟩ := Prod.mk.inj h
    exact ⟨⟨huser, htype ▸ hty⟩, htype⟩

/-- The answer for a channel: the row of the type, else the wildcard row, else enabled. -/
theorem isEnabled_eq (t : PreferenceTable) (userId : Uuid) (type : String)
    (channel : NotificationChannel) :
    isEnabled t userId type channel =
      (((t.find (userId, type)).or (t.find (userId, "*"))).map (·.flag channel)).getD true := by
  unfold isEnabled enabledBy
  rw [find_findForCheck List.mem_cons_self,
    find_findForCheck (List.mem_cons_of_mem _ List.mem_cons_self)]
  cases t.find (userId, type) with
  | some specific => rfl
  | none =>
    cases t.find (userId, "*") with
    | some wildcard => rfl
    | none => rfl

/-- The in-app relay asks the service. -/
theorem isInAppEnabled_eq (t : PreferenceTable) (userId : Uuid) (type : String) :
    OpsHub.isInAppEnabled (t.rows.map PreferenceRow.inAppView) userId type =
      isInAppEnabled t userId type := by
  have hrows : (t.rows.map PreferenceRow.inAppView).filter
      (fun p => decide (p.userId = userId ∧ (p.type = type ∨ p.type = "*"))) =
      (findForCheck t userId type).map PreferenceRow.inAppView := by
    rw [List.filter_map, findForCheck]
    refine congrArg (List.map _) (List.filter_congr fun r _ => ?_)
    rw [Function.comp_apply, decide_eq_decide, List.mem_pair]
    exact Iff.rfl
  have hfind : ∀ ty, ((findForCheck t userId type).map PreferenceRow.inAppView).find?
      (fun p => decide (p.type = ty)) =
      ((findForCheck t userId type).find? (fun r => decide (r.type = ty))).map
        PreferenceRow.inAppView := fun ty => List.find?_map
  unfold OpsHub.isInAppEnabled isInAppEnabled isEnabled enabledBy
  simp only [hrows, hfind]
  cases hspecific : (findForCheck t userId type).find? (fun r => decide (r.type = type)) with
  | some specific => rfl
  | none =>
    cases hwildcard : (findForCheck t userId type).find? (fun r => decide (r.type = "*")) with
    | some wildcard => rfl
    | none => rfl

/-! ### Upserts -/

/-- What an upsert that goes through does. -/
theorem upsert_ok (h : upsert t input newId now = .ok (t', row)) :
    (∃ r, t.find (input.userId, input.type) = some r ∧ row = updatedRow input now r ∧
      t' = t.update (input.userId, input.type) (updatedRow input now)
        (updatedRow_userType input now)) ∨
    (t.find (input.userId, input.type) = none ∧ row = insertedRow input newId now ∧
      t.insert (insertedRow input newId now) = some t') := by
  simp only [upsert, Except.bind_eq_ok_iff] at h
  obtain ⟨-, -, h⟩ := h
  cases hfind : t.find (input.userId, input.type) with
  | some r =>
    rw [hfind] at h
    obtain ⟨rfl, rfl⟩ := Prod.mk.inj (Except.pure_eq_ok_iff.1 h)
    exact Or.inl ⟨r, rfl, rfl, rfl⟩
  | none =>
    simp only [hfind, Except.bind_eq_ok_iff, Outcome.orThrow_eq_ok_iff,
      Except.pure_eq_ok_iff] at h
    obtain ⟨t'', hinsert, h⟩ := h
    obtain ⟨rfl, rfl⟩ := Prod.mk.inj h
    exact Or.inr ⟨rfl, rfl, hinsert⟩

/-- After an upsert the row that it returns is the row of the user and the type. -/
theorem find_upsert (h : upsert t input newId now = .ok (t', row)) :
    t'.find (input.userId, input.type) = some row := by
  obtain ⟨r, hfind, rfl, rfl⟩ | ⟨-, rfl, hinsert⟩ := upsert_ok h
  · rw [Table.find_update_self, hfind]
    rfl
  · exact Table.find_insert_self hinsert

/-- The flags of the row that an upsert leaves: a channel that is not named keeps its flag, and a
new row enables it. -/
theorem flag_upsert (h : upsert t input newId now = .ok (t', row)) :
    row.flag channel = (input.named channel).getD
      (((t.find (input.userId, input.type)).map (·.flag channel)).getD true) := by
  obtain ⟨r, hfind, rfl, -⟩ | ⟨hfind, rfl, -⟩ := upsert_ok h
  · rw [hfind]
    cases channel with
    | in_app => rfl
    | email => rfl
  · rw [hfind]
    cases channel with
    | in_app => rfl
    | email => rfl

/-- **What an upsert makes of the answer for a channel.** -/
theorem isEnabled_upsert (h : upsert t input newId now = .ok (t', row)) :
    isEnabled t' input.userId input.type channel = (input.named channel).getD
      (((t.find (input.userId, input.type)).map (·.flag channel)).getD true) := by
  rw [isEnabled_eq, find_upsert h, Option.some_or, Option.map_some, Option.getD_some]
  exact flag_upsert h

/-- An upsert goes through exactly if the type fits its column. -/
theorem upsert_ok_iff : (∃ t' row, upsert t input newId now = .ok (t', row)) ↔
    input.type.length ≤ 100 := by
  constructor
  · rintro ⟨t', row, h⟩
    simp only [upsert, Except.bind_eq_ok_iff, Outcome.require_eq_ok_iff] at h
    obtain ⟨-, hlength, -⟩ := h
    exact hlength
  · intro hlength
    unfold upsert
    rw [Outcome.require, if_pos hlength]
    cases hfind : t.find (input.userId, input.type) with
    | some r => exact ⟨_, _, rfl⟩
    | none =>
      have hnew : t.find (insertedRow input newId now).userType = none := hfind
      obtain ⟨t', hinsert⟩ := Table.exists_insert hnew
      refine ⟨t', insertedRow input newId now, ?_⟩
      simp only [hinsert]
      rfl

/-! ### The channel that is not named -/

theorem only_named (userId : Uuid) (type : String) (value : Bool) (channel : NotificationChannel) :
    (UpsertPreferenceInput.only userId type value channel).named channel = some value ∧
      (UpsertPreferenceInput.only userId type value channel).named channel.other = none ∧
      (UpsertPreferenceInput.only userId type value channel).userId = userId ∧
      (UpsertPreferenceInput.only userId type value channel).type = type := by
  cases channel with
  | in_app => exact ⟨rfl, rfl, rfl, rfl⟩
  | email => exact ⟨rfl, rfl, rfl, rfl⟩

/-- An upsert that names one channel makes the answer for it the value; the answer for the other
one is the flag of the row of the type, or `true` if there was none. -/
theorem isEnabled_upsert_only {value : Bool}
    (h : upsert t (UpsertPreferenceInput.only userId type value channel) newId now =
      .ok (t', row)) :
    isEnabled t' userId type channel = value ∧
      isEnabled t' userId type channel.other =
        ((t.find (userId, type)).map (·.flag channel.other)).getD true := by
  obtain ⟨hnamed, hother, huser, htype⟩ := only_named userId type value channel
  have hanswer : ∀ channel', isEnabled t' userId type channel' =
      ((UpsertPreferenceInput.only userId type value channel).named channel').getD
        (((t.find (userId, type)).map (·.flag channel')).getD true) := by
    intro channel'
    have hupsert : isEnabled t' _ _ channel' = _ := isEnabled_upsert h
    rwa [huser, htype] at hupsert
  refine ⟨?_, ?_⟩
  · rw [hanswer, hnamed]
    rfl
  · rw [hanswer, hother]
    rfl

/-- The answer is kept if there is a row of the type, or if the wildcard row does not disable the
channel. -/
theorem flag_eq_isEnabled_iff :
    ((t.find (userId, type)).map (·.flag channel)).getD true = isEnabled t userId type channel ↔
      (t.find (userId, type)).isSome ∨ WildcardEnables t userId channel := by
  rw [isEnabled_eq, WildcardEnables]
  cases t.find (userId, type) with
  | some specific => simp
  | none =>
    cases t.find (userId, "*") with
    | none => simp
    | some wildcard =>
      show true = wildcard.flag channel ↔ _
      simp

/-- **The frame of an upsert that names one channel.** -/
theorem upsertFrame_iff (t : PreferenceTable) (userId : Uuid) (type : String)
    (channel : NotificationChannel) (value : Bool) :
    UpsertFrame t userId type channel value ↔ type.length ≤ 100 ∧
      ((t.find (userId, type)).isSome ∨ WildcardEnables t userId channel.other) := by
  obtain ⟨-, -, -, htype⟩ := only_named userId type value channel
  constructor
  · intro h
    obtain ⟨t', row, hok, -, hkept⟩ := h 0 0
    have hlength := upsert_ok_iff.1 ⟨t', row, hok⟩
    rw [htype] at hlength
    rw [(isEnabled_upsert_only hok).2] at hkept
    exact ⟨hlength, flag_eq_isEnabled_iff.1 hkept⟩
  · rintro ⟨hlength, hkept⟩ newId now
    rw [← htype] at hlength
    obtain ⟨t', row, hok⟩ : ∃ t' row, upsert t _ newId now = .ok (t', row) :=
      upsert_ok_iff.2 hlength
    obtain ⟨hvalue, hother⟩ := isEnabled_upsert_only hok
    exact ⟨t', row, hok, hvalue, hother.trans (flag_eq_isEnabled_iff.2 hkept)⟩

/-- With the email switch of `*` off, turning the in-app notifications of a type off turns its
emails on. -/
theorem not_upsertFrame :
    ¬ UpsertFrame (⟨[⟨1, 7, "*", true, false, 0⟩], List.nodup_singleton _⟩ : PreferenceTable) 7
      "request.approved" .in_app false := by
  intro h
  obtain ⟨t', row, hok, -, hkept⟩ := h 2 1
  obtain ⟨rfl, -⟩ := Prod.mk.inj (Except.ok.inj hok.symm)
  exact absurd hkept (by decide)

end NotificationPreferencesService

end OpsHub
