import OpsHub.Domain.Ownership
import OpsHub.Lib.Timestamps

/-!
# The two checks of a shift

A shift starts before it ends.  `CreateShiftLogSchema` compares the two texts of a request, and
`createShiftLog` the two instants that `new Date` makes of them.

* `DatetimeSchema`, `CreateShiftLogDto`: two texts that `z.string().datetime()` accepts;
* `refine` and `createShift`: the check of the schema, and the route behind it;
* `Confused`: the two texts are in the same minute, and one goes on where the other ends, or they
  part behind the milliseconds, or `new Date` takes their fractions for something else;
* `agree_iff`: the checks agree on every pair that is not `Confused`, and on no other;
  `confused_iff`: what that is for fractions that are taken for what they are;
  `agree_of_length_eq`: on pairs of one precision they do;
* `not_agree`: half a second is no shift for the schema.
-/

namespace OpsHub

open Timestamps Numerals

/-- `z.string().datetime()`: what it accepts are instants in UTC. -/
structure DatetimeSchema where
  accepts : String → Bool
  utc : ∀ text, accepts text = true → (read text.toList).isSome = true

namespace DatetimeSchema

variable (datetime : DatetimeSchema)

/-- The parts of a text that is accepted. -/
def stamp (text : { text : String // datetime.accepts text = true }) : Stamp :=
  (read text.1.toList).get (datetime.utc text.1 text.2)

/-- `new Date(text)`, as V8 has it; instants are counted from the year 0. -/
def newDate (text : { text : String // datetime.accepts text = true }) : Time :=
  (datetime.stamp text).instant

theorem text_stamp (text : { text : String // datetime.accepts text = true }) :
    text.1.toList = (datetime.stamp text).text :=
  read_eq_some_iff.1 (Option.some_get _).symm

end DatetimeSchema

/-- `CreateShiftLogDto`: the fields of `CreateShiftLogSchema`, each accepted by itself. -/
structure CreateShiftLogDto (datetime : DatetimeSchema) where
  shiftType : ShiftType
  startsAt : { text : String // datetime.accepts text = true }
  endsAt : { text : String // datetime.accepts text = true }
  note : Option String := none

/-- An issue of a schema. -/
structure SchemaIssue where
  path : List String
  message : String
  deriving DecidableEq, Repr

namespace CreateShiftLogDto

variable {datetime : DatetimeSchema} (dto : CreateShiftLogDto datetime)

/-- The refinement of `CreateShiftLogSchema`. -/
def refine : Except SchemaIssue Unit :=
  Outcome.require (dto.startsAt.1 < dto.endsAt.1)
    ⟨["endsAt"], "startsAt must be before endsAt"⟩

/-- `WorkforceController.createShift`, behind the schema. -/
def createShift (user : Actor) (newId : Uuid) (shiftLogs : Table ShiftLog.id) :
    Except Failure (Table ShiftLog.id) :=
  WorkforceService.createShiftLog
    { shiftType := dto.shiftType
      startsAt := datetime.newDate dto.startsAt
      endsAt := datetime.newDate dto.endsAt
      note := dto.note } user newId shiftLogs

/-- The check of `createShiftLog` has failed. -/
def rejected : Except Failure (Table ShiftLog.id) :=
  .error (.preconditionFailed "PRECONDITION_FAILED" "startsAt must be before endsAt")

/-- The two texts agree up to the minute, and what they say of the seconds is misread. -/
def Confused : Prop :=
  SameMinute (datetime.stamp dto.startsAt).toParts (datetime.stamp dto.endsAt).toParts ∧
    Misread (datetime.stamp dto.startsAt).clock (datetime.stamp dto.endsAt).clock

/-- Unless a fraction of more than nine digits begins with a zero, this means that the start goes on
where the end has ended; that the end goes on, with more than zeros, where the start has ended; or
that they part behind the milliseconds, at a smaller digit of the start. -/
theorem confused_iff (hstart : ¬ Shifted (datetime.stamp dto.startsAt).clock.tail)
    (hend : ¬ Shifted (datetime.stamp dto.endsAt).clock.tail) :
    dto.Confused ↔
      SameMinute (datetime.stamp dto.startsAt).toParts (datetime.stamp dto.endsAt).toParts ∧
        Misjudged 4 (datetime.stamp dto.startsAt).clock (datetime.stamp dto.endsAt).clock :=
  and_congr_right fun _ => misread_iff_misjudged hstart hend

theorem refine_eq_ok_iff :
    dto.refine = .ok () ↔
      (datetime.stamp dto.startsAt).text < (datetime.stamp dto.endsAt).text := by
  rw [refine, Outcome.require_eq_ok_iff, String.lt_iff, datetime.text_stamp, datetime.text_stamp]

/-- The service looks at the instants, and at nothing else before it writes. -/
theorem createShift_ne_rejected_iff (user : Actor) (newId : Uuid) (shiftLogs : Table ShiftLog.id) :
    dto.createShift user newId shiftLogs ≠ rejected ↔
      (datetime.stamp dto.startsAt).instant < (datetime.stamp dto.endsAt).instant := by
  unfold createShift WorkforceService.createShiftLog Outcome.require
  by_cases hlt : datetime.newDate dto.startsAt < datetime.newDate dto.endsAt
  · refine iff_of_true (fun h => ?_) hlt
    rw [if_pos hlt] at h
    cases hinsert : shiftLogs.insert
        { id := newId, employeeId := user.sub, shiftType := dto.shiftType,
          startsAt := datetime.newDate dto.startsAt, endsAt := datetime.newDate dto.endsAt,
          note := dto.note } <;>
      simp [rejected, hinsert, Outcome.orThrow, bind, Except.bind, Failure.preconditionFailed,
        Failure.duplicateKey] at h
  · refine iff_of_false (fun h => h ?_) hlt
    rw [if_neg hlt]
    rfl

/-- **The two checks** agree on a pair of texts exactly if it is not confused. -/
theorem agree_iff (user : Actor) (newId : Uuid) (shiftLogs : Table ShiftLog.id) :
    (dto.refine = .ok () ↔ dto.createShift user newId shiftLogs ≠ rejected) ↔ ¬ dto.Confused := by
  rw [refine_eq_ok_iff, createShift_ne_rejected_iff]
  exact Stamp.text_lt_iff_instant_lt_iff _ _

/-- Texts that are equally precise, down to milliseconds at most, are judged alike. -/
theorem agree_of_length_eq (user : Actor) (newId : Uuid) (shiftLogs : Table ShiftLog.id)
    (hlength : (datetime.stamp dto.startsAt).clock.length =
      (datetime.stamp dto.endsAt).clock.length)
    (hmillis : (datetime.stamp dto.startsAt).clock.length ≤ 4) :
    dto.refine = .ok () ↔ dto.createShift user newId shiftLogs ≠ rejected := by
  have hshort : ∀ {clock : List ℕ}, clock.length ≤ 4 → ¬ Shifted clock.tail := by
    intro clock hclock hshifted
    have hnine := hshifted.1
    rw [List.length_tail] at hnine
    omega
  refine (dto.agree_iff user newId shiftLogs).2 fun hconfused => ?_
  have hmisjudged := ((dto.confused_iff (hshort hmillis) (hshort (hlength ▸ hmillis))).1 hconfused).2
  exact not_misjudged_of_length hlength hmillis hmisjudged

namespace Sample

/-- All instants in UTC are accepted. -/
def anyInstant : DatetimeSchema := ⟨fun text => (read text.toList).isSome, fun _ h => h⟩

def midnight : { text : String // anyInstant.accepts text = true } :=
  ⟨"2024-01-01T00:00:00Z", by decide +kernel⟩

/-- Half a second later. -/
def later : { text : String // anyInstant.accepts text = true } :=
  ⟨"2024-01-01T00:00:00.500Z", by decide +kernel⟩

/-- Half a second of work. -/
def short : CreateShiftLogDto anyInstant := ⟨.night, midnight, later, none⟩

/-- And backwards. -/
def backwards : CreateShiftLogDto anyInstant := ⟨.night, later, midnight, none⟩

/-- A fraction with thirteen digits, which `new Date` takes for 123 milliseconds. -/
def shifted : { text : String // anyInstant.accepts text = true } :=
  ⟨"2024-01-01T00:00:00.0001234567890Z", by decide +kernel⟩

def fiftieth : { text : String // anyInstant.accepts text = true } :=
  ⟨"2024-01-01T00:00:00.050Z", by decide +kernel⟩

/-- Fifty milliseconds of work, less a bit. -/
def early : CreateShiftLogDto anyInstant := ⟨.night, shifted, fiftieth, none⟩

/-- The schema has it the other way round, and the service in the last case. -/
theorem not_agree :
    ¬ (short.refine = .ok () ↔
      short.createShift ⟨1, "one@example.com"⟩ 1 (Table.empty _) ≠ rejected) ∧
    ¬ (backwards.refine = .ok () ↔
      backwards.createShift ⟨1, "one@example.com"⟩ 1 (Table.empty _) ≠ rejected) ∧
    ¬ (early.refine = .ok () ↔
      early.createShift ⟨1, "one@example.com"⟩ 1 (Table.empty _) ≠ rejected) := by
  have hinstant : (anyInstant.stamp midnight).instant < (anyInstant.stamp later).instant := by
    decide +kernel
  have hshifted : (anyInstant.stamp fiftieth).instant < (anyInstant.stamp shifted).instant := by
    decide +kernel
  have htext : later.1 < midnight.1 := by decide +kernel
  have hearly : shifted.1 < fiftieth.1 := by decide +kernel
  have hshort : short.refine ≠ .ok () := by decide +kernel
  have hbackwards : backwards.refine = .ok () := Outcome.require_eq_ok_iff.2 htext
  refine ⟨fun h => ?_, fun h => ?_, fun h => ?_⟩
  · exact hshort (h.2 ((short.createShift_ne_rejected_iff _ _ _).2 hinstant))
  · have hlt := (backwards.createShift_ne_rejected_iff _ _ _).1 (h.1 hbackwards)
    exact Nat.lt_asymm hinstant hlt
  · have hlt := (early.createShift_ne_rejected_iff _ _ _).1
      (h.1 (Outcome.require_eq_ok_iff.2 hearly))
    exact Nat.lt_asymm hshifted hlt

end Sample

end CreateShiftLogDto

end OpsHub
