import OpsHub.Notifications.Preferences
import OpsHub.Outbox.Relays

/-!
# Emails to users who have turned them off

The schema documents `recipient_id` of `email_outbox` as what the preferences are looked up with
before an email is sent.  `EmailSchedulerService.schedule` does not write the column, and
`EmailRelayService` neither selects it nor asks `NotificationPreferencesService`.

* `MailSystem`, `MailEvent`, `step`: the relay, the users and their preferences, all of which
  change at any time;
* `OptedOut`: the addressee is a known user who has turned the emails of this type off;
* `honoured_iff`: exactly when no such email is sent, whatever the mail service and the database
  answer;
* `not_honoured`: one email.
-/

namespace OpsHub

/-- `EmailTemplateName`. -/
def emailTemplateNames : List String :=
  ["access-request.submitted", "access-request.approved", "access-request.denied",
    "asset.assigned", "offboarding.complete"]

/-- `processRow`, with what the mail service answers: there is a rendering for the templates of the
registry only. -/
def EmailRelayService.sending (p : Pattern EmailData Unit) : Pattern EmailData Unit :=
  p.withProcessRow fun row =>
    if row.data.template ∈ emailTemplateNames then p.processRow row
    else .error "fn is not a function"

/-- An event of the relay. -/
def EmailRelayService.event : RelayEvent EmailData Unit EmailData Unit →
    RelayEvent EmailData Unit EmailData Unit
  | .finish i p => .finish i (sending p)
  | e => e

/-- A user, as far as emails find one. -/
structure MailUser where
  id : Uuid
  email : String
  deriving DecidableEq, Repr

/-- An email that the mail service has accepted, and whether its addressee had turned emails of its
type off when it was sent. -/
structure SentEmail where
  row : FetchedRow EmailData
  optedOut : Bool
  deriving DecidableEq, Repr

/-- The tables, the runs of the relay, and the emails that have been sent. -/
structure MailSystem where
  relay : RelaySystem EmailData Unit EmailData
  users : List MailUser := []
  preferences : PreferenceTable := Table.empty _
  sent : List SentEmail := []

/-- What can happen. -/
inductive MailEvent
  /-- A run of the relay begins or ends, or an email is scheduled. -/
  | relay (e : RelayEvent EmailData Unit EmailData Unit)
  | upsert (input : UpsertPreferenceInput) (newId : Uuid) (now : Time)
  | reset (userId : Uuid) (type : String)
  /-- Users come, go, or get other addresses. -/
  | users (users : List MailUser)

namespace MailSystem

/-- Nothing has been scheduled. -/
def initial : MailSystem := { relay := RelaySystem.initial ⟨Table.empty _, ()⟩ }

/-- The addressee is a known user who has turned the emails of this type off.  The code has no table
from templates to the types of the preferences; `typeOf` is any. -/
def OptedOut (typeOf : String → String) (s : MailSystem) (row : FetchedRow EmailData) : Prop :=
  ∃ u ∈ s.users, u.email = row.data.to ∧
    NotificationPreferencesService.isEmailEnabled s.preferences u.id (typeOf row.data.template) =
      false

instance (typeOf : String → String) (s : MailSystem) (row : FetchedRow EmailData) :
    Decidable (s.OptedOut typeOf row) :=
  inferInstanceAs (Decidable (∃ u ∈ s.users, u.email = row.data.to ∧
    NotificationPreferencesService.isEmailEnabled s.preferences u.id (typeOf row.data.template) =
      false))

/-- The emails that the mail service accepts: the rows that are handed to `processRow` and do not
make it throw. -/
def accepted (s : MailSystem) : RelayEvent EmailData Unit EmailData Unit → List (FetchedRow EmailData)
  | .finish i p =>
    match s.relay.batches[i]? with
    | some batch =>
      (EmailRelayService.relay.finish (EmailRelayService.sending p).env batch []
        s.relay.db).world.filter (fun row => ((EmailRelayService.sending p).processRow row).isOk)
    | none => []
  | _ => []

/-- The state after an event. -/
def step (typeOf : String → String) (s : MailSystem) : MailEvent → MailSystem
  | .relay e =>
    { s with
      relay := RelaySystem.step EmailRelayService.relay s.relay (EmailRelayService.event e)
      sent := s.sent ++
        (s.accepted e).map (fun row => ⟨row, decide (s.OptedOut typeOf row)⟩) }
  | .upsert input newId now =>
    match NotificationPreferenceDrizzleRepository.upsert s.preferences input newId now with
    | .ok (preferences, _) => { s with preferences := preferences }
    | .error _ => s
  | .reset userId type =>
    { s with
      preferences := s.preferences.deleteWhere
        (fun r => decide (r.userId = userId ∧ r.type = type)) }
  | .users users => { s with users := users }

/-- No email has been sent to a user who had turned it off. -/
def Honoured (s : MailSystem) : Prop := ∀ x ∈ s.sent, x.optedOut = false

instance (s : MailSystem) : Decidable s.Honoured :=
  inferInstanceAs (Decidable (∀ x ∈ s.sent, x.optedOut = false))

/-- Every statement goes through, and the mail service accepts every email. -/
def allWell : Pattern EmailData Unit where
  processRow _ := .ok none
  markSent _ := .ok ()
  markFailed _ := .ok ()
  commit := .ok ()
  markedAt _ := 0

/-- What happens, apart from what the mail service and the database answer to a run. -/
def call : MailEvent → MailEvent
  | .relay (.finish i _) => .relay (.finish i allWell)
  | e => e

/-- The same, with other answers. -/
def Alike (e e' : MailEvent) : Prop := call e = call e'

/-- A run that ends has no email of the registry in its batch to a user who has turned it off. -/
def Clear (typeOf : String → String) (s : MailSystem) : MailEvent → Prop
  | .relay (.finish i _) =>
    ∀ batch, s.relay.batches[i]? = some batch → ∀ row ∈ batch,
      row.data.template ∈ emailTemplateNames → ¬ s.OptedOut typeOf row
  | _ => True

variable {typeOf : String → String} {s : MailSystem} {e e' : MailEvent}

/-- What is sent is in the batch, and of a template of the registry. -/
theorem mem_accepted {i : ℕ} {p : Pattern EmailData Unit} {row : FetchedRow EmailData}
    (h : row ∈ s.accepted (.finish i p)) :
    ∃ batch, s.relay.batches[i]? = some batch ∧ row ∈ batch ∧
      row.data.template ∈ emailTemplateNames := by
  simp only [accepted] at h
  split at h
  · rename_i batch hbatch
    obtain ⟨hrow, hok⟩ := List.mem_filter.1 h
    rw [AbstractOutboxRelay.finish_world, List.nil_append] at hrow
    refine ⟨batch, hbatch, Pattern.mem_of_mem_processedRows _ hrow, ?_⟩
    by_contra htemplate
    have hthrows : (EmailRelayService.sending p).processRow row = .error "fn is not a function" :=
      if_neg htemplate
    rw [hthrows] at hok
    exact Bool.false_ne_true hok
  · exact absurd h List.not_mem_nil

/-- When all goes well, no row takes the run along. -/
theorem not_aborts_allWell (row : FetchedRow EmailData) :
    (EmailRelayService.sending allWell).aborts row = false := by
  unfold Pattern.aborts
  have hmarked : (EmailRelayService.sending allWell).markFailed row.id = .ok () := rfl
  rw [hmarked]
  split
  · rename_i h
    cases h
  · rfl

/-- Then every email of a template of the registry is sent. -/
theorem mem_accepted_allWell {i : ℕ} {batch : List (FetchedRow EmailData)}
    (hbatch : s.relay.batches[i]? = some batch) {row : FetchedRow EmailData} (hrow : row ∈ batch)
    (htemplate : row.data.template ∈ emailTemplateNames) :
    row ∈ s.accepted (.finish i allWell) := by
  simp only [accepted, hbatch]
  rw [AbstractOutboxRelay.finish_world, List.nil_append,
    Pattern.processedRows_of_not_aborts _ fun row _ => not_aborts_allWell row]
  have hok : (EmailRelayService.sending allWell).processRow row = .ok none := if_pos htemplate
  exact List.mem_filter.2 ⟨hrow, by rw [hok]; rfl⟩

/-- Scheduling, preferences and users send nothing, and a clear run nothing that is turned off. -/
theorem Honoured.step (h : s.Honoured) (hclear : s.Clear typeOf e) :
    (MailSystem.step typeOf s e).Honoured := by
  cases e with
  | relay e =>
    intro x hx
    rcases List.mem_append.1 hx with hx | hx
    · exact h x hx
    · obtain ⟨row, hrow, rfl⟩ := List.mem_map.1 hx
      cases e with
      | finish i p =>
        obtain ⟨batch, hbatch, hmem, htemplate⟩ := mem_accepted hrow
        exact decide_eq_false (hclear batch hbatch row hmem htemplate)
      | fetch now => exact absurd hrow List.not_mem_nil
      | enqueue id data dueAt => exact absurd hrow List.not_mem_nil
      | rejoin joined => exact absurd hrow List.not_mem_nil
  | upsert input newId now =>
    simp only [MailSystem.step]
    split
    · exact h
    · exact h
  | reset userId type => exact h
  | users users => exact h

/-- What no answer of the mail service makes wrong is clear. -/
theorem clear_of_honoured (h : ∀ e', Alike e e' → (step typeOf s e').Honoured) :
    s.Clear typeOf e := by
  cases e with
  | relay e =>
    cases e with
    | finish i p =>
      intro batch hbatch row hrow htemplate hopted
      have hsent := h (.relay (.finish i allWell)) rfl
      have haccepted : row ∈ s.accepted (.finish i allWell) :=
        mem_accepted_allWell hbatch hrow htemplate
      have hflag := hsent ⟨row, decide (s.OptedOut typeOf row)⟩
        (List.mem_append_right _ (List.mem_map_of_mem haccepted))
      exact of_decide_eq_false hflag hopted
    | fetch now => trivial
    | enqueue id data dueAt => trivial
    | rejoin joined => trivial
  | upsert input newId now => trivial
  | reset userId type => trivial
  | users users => trivial

/-- **Exactly when no email is sent to a user who has turned it off**, whatever the mail service
and the database answer: when no run of the relay has such an email in its batch. -/
theorem honoured_iff (typeOf : String → String) (es : List MailEvent) :
    (∀ es', List.Forall₂ Alike es es' → ∀ fs, fs <+: es' →
      (Runs.run (step typeOf) initial fs).Honoured) ↔
      ∀ es', List.Forall₂ Alike es es' → Runs.Meets (step typeOf) (Clear typeOf) initial es' := by
  have htrans : ∀ a b c, Alike a b → Alike b c → Alike a c := fun _ _ _ h h' => Eq.trans h h'
  have hkeep : ∀ s e, Honoured s → s.Clear typeOf e → (step typeOf s e).Honoured :=
    fun _ _ h hclear => h.step hclear
  have hinitial : Honoured initial := fun _ hx => absurd hx List.not_mem_nil
  exact Runs.always_alike_iff_meets htrans hkeep (fun _ _ _ h => clear_of_honoured h) hinitial

/-- Ann has turned the emails about assigned assets off; one is scheduled, and sent. -/
theorem not_honoured :
    ¬ (Runs.run (step id) initial
      [.users [⟨7, "ann@example.com"⟩], .upsert ⟨7, "asset.assigned", none, some false⟩ 1 0,
        .relay (.enqueue 2 ⟨"ann@example.com", "asset.assigned", "\x7b\x7d", none⟩ 5),
        .relay (.fetch 6 fun _ => false), .relay (.finish 0 allWell)]).Honoured := by
  decide

end MailSystem

end OpsHub
