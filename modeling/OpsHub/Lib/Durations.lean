import OpsHub.Lib.Doubles
import Mathlib.Data.List.TakeDrop
import Mathlib.Data.List.TakeWhile
import Mathlib.Tactic.Common
import Mathlib.Tactic.Ring

/-!
# Durations as text

The grammar of the package `ms`: an optional sign, a decimal number, spaces, and an optional
unit in either case; a bare number counts milliseconds, which are computed in doubles.

* `DurationText`: the parts of such a text, `Valid` ones, and the milliseconds they stand for;
* `parseDuration`: the reader, and `parseDuration_eq_some_iff`: it accepts exactly the texts of
  valid parts, and returns the parts.
-/

/-- The number that digits stand for. -/
def digitsValue (ds : List Char) : ℕ := ds.foldl (fun n c => 10 * n + (c.toNat - '0'.toNat)) 0

/-! ### The parts of a duration -/

/-- The milliseconds in a unit. -/
def unitMilliseconds (unit : String) : Option ℕ :=
  if unit ∈ ["years", "year", "yrs", "yr", "y"] then some 31557600000
  else if unit ∈ ["weeks", "week", "w"] then some 604800000
  else if unit ∈ ["days", "day", "d"] then some 86400000
  else if unit ∈ ["hours", "hour", "hrs", "hr", "h"] then some 3600000
  else if unit ∈ ["minutes", "minute", "mins", "min", "m"] then some 60000
  else if unit ∈ ["seconds", "second", "secs", "sec", "s"] then some 1000
  else if unit ∈ ["milliseconds", "millisecond", "msecs", "msec", "ms"] then some 1
  else none

/-- The milliseconds in a unit as it is written: in either case, or left out. -/
def writtenUnit (unit : List Char) : Option ℕ :=
  if unit = [] then some 1 else unitMilliseconds (String.ofList (unit.map Char.toLower))

/-- The parts of a duration. -/
structure DurationText where
  negative : Bool
  whole : List Char
  fraction : Option (List Char)
  spaces : ℕ
  unit : List Char
  deriving DecidableEq, Repr

namespace DurationText

open Doubles

/-- The point and the digits behind it. -/
def fractionText : Option (List Char) → List Char
  | none => []
  | some ds => '.' :: ds

/-- The text after the sign. -/
def unsigned (t : DurationText) : List Char :=
  t.whole ++ (fractionText t.fraction ++ (List.replicate t.spaces ' ' ++ t.unit))

/-- The text. -/
def text (t : DurationText) : List Char :=
  if t.negative then '-' :: t.unsigned else t.unsigned

/-- The parts are those of a duration. -/
structure Valid (t : DurationText) : Prop where
  whole : ∀ c ∈ t.whole, c.isDigit = true
  fraction : ∀ ds ∈ t.fraction, ds ≠ [] ∧ ∀ c ∈ ds, c.isDigit = true
  number : t.fraction = none → t.whole ≠ []
  unit : writtenUnit t.unit ≠ none

/-- The number before the unit. -/
def number (t : DurationText) : ℚ :=
  let digits := t.whole ++ t.fraction.getD []
  (if t.negative then -(digitsValue digits : ℚ) else digitsValue digits) /
    10 ^ (t.fraction.getD []).length

/-- The milliseconds that the duration stands for: its number, read by `parseFloat`, times the
unit. -/
def milliseconds (t : DurationText) : ℚ :=
  double (double t.number * ((writtenUnit t.unit).getD 0 : ℕ))

/-- The seconds that the duration stands for. -/
def seconds (t : DurationText) : ℚ := double (t.milliseconds / 1000)

end DurationText

/-! ### The reader -/

/-- The spaces and the unit. -/
def parseUnit (negative : Bool) (whole : List Char) (fraction : Option (List Char))
    (cs : List Char) : Option DurationText :=
  let spaces := cs.takeWhile (fun c => decide (c = ' '))
  let unit := cs.dropWhile (fun c => decide (c = ' '))
  if writtenUnit unit = none then none else some ⟨negative, whole, fraction, spaces.length, unit⟩

/-- The rest after the whole part of the number. -/
def parseFraction (negative : Bool) (whole cs : List Char) : Option DurationText :=
  match cs with
  | '.' :: cs =>
    let fraction := cs.takeWhile Char.isDigit
    if fraction = [] then none
    else parseUnit negative whole (some fraction) (cs.dropWhile Char.isDigit)
  | cs => if whole = [] then none else parseUnit negative whole none cs

/-- The rest after the sign. -/
def parseNumber (negative : Bool) (cs : List Char) : Option DurationText :=
  parseFraction negative (cs.takeWhile Char.isDigit) (cs.dropWhile Char.isDigit)

/-- The parts of a duration, `/^(-?(?:\d+)?\.?\d+) *(unit)?$/i`. -/
def parseDuration (cs : List Char) : Option DurationText :=
  match cs with
  | '-' :: cs => parseNumber true cs
  | cs => parseNumber false cs

/-! ### Characters -/

theorem isAlpha_iff {c : Char} : c.isAlpha = true ↔
    (65 ≤ c.toNat ∧ c.toNat ≤ 90) ∨ (97 ≤ c.toNat ∧ c.toNat ≤ 122) := by
  show (decide (c.val ≥ 'A'.val ∧ c.val ≤ 'Z'.val) ||
    (decide (c.val ≥ 'a'.val) && decide (c.val ≤ 'z'.val))) = true ↔ _
  rw [Bool.or_eq_true, Bool.and_eq_true, decide_eq_true_iff, decide_eq_true_iff,
    decide_eq_true_iff]
  exact Iff.rfl

theorem isDigit_iff {c : Char} : c.isDigit = true ↔ 48 ≤ c.toNat ∧ c.toNat ≤ 57 := by
  show (decide (c.val ≥ '0'.val) && decide (c.val ≤ '9'.val)) = true ↔ _
  rw [Bool.and_eq_true, decide_eq_true_iff, decide_eq_true_iff]
  exact Iff.rfl

theorem isDigit_eq_false_of_isAlpha {c : Char} (h : c.isAlpha = true) : c.isDigit = false := by
  have hletter := isAlpha_iff.1 h
  refine Bool.eq_false_iff.2 fun hdigit => ?_
  have hbounds := isDigit_iff.1 hdigit
  omega

/-- A character whose small form is a small letter is a letter. -/
theorem isAlpha_of_isLower_toLower {c : Char} (h : c.toLower.isLower = true) :
    c.isAlpha = true := by
  unfold Char.toLower at h
  split at h
  · rename_i hupper
    exact isAlpha_iff.2 (Or.inl hupper)
  · show (_ || c.isLower) = true
    rw [h, Bool.or_true]

/-! ### Units -/

/-- The names of the units. -/
def unitNames : List String :=
  ["years", "year", "yrs", "yr", "y", "weeks", "week", "w", "days", "day", "d", "hours", "hour",
    "hrs", "hr", "h", "minutes", "minute", "mins", "min", "m", "seconds", "second", "secs", "sec",
    "s", "milliseconds", "millisecond", "msecs", "msec", "ms"]

theorem mem_unitNames {unit : String} (h : unitMilliseconds unit ≠ none) : unit ∈ unitNames := by
  by_contra hnone
  simp only [unitNames, List.mem_cons, not_or] at hnone
  simp [unitMilliseconds, hnone] at h

/-- The units are written in small letters. -/
theorem isLower_of_mem_unitNames {unit : String} (h : unit ∈ unitNames) :
    ∀ c ∈ unit.toList, c.isLower = true := by
  have hall : unitNames.all (fun unit => unit.toList.all Char.isLower) = true := by decide
  exact List.all_eq_true.1 (List.all_eq_true.1 hall unit h)

/-- A unit consists of letters. -/
theorem isAlpha_of_writtenUnit {unit : List Char} (h : writtenUnit unit ≠ none) :
    ∀ c ∈ unit, c.isAlpha = true := by
  intro c hc
  have hne : unit ≠ [] := List.ne_nil_of_mem hc
  rw [writtenUnit, if_neg hne] at h
  have hlower := isLower_of_mem_unitNames (mem_unitNames h)
  rw [String.toList_ofList] at hlower
  exact isAlpha_of_isLower_toLower (hlower _ (List.mem_map_of_mem hc))

/-! ### Texts of valid parts are read -/

/-- The reader of a class of characters stops at the first character of another class. -/
theorem takeWhile_dropWhile_append {p : Char → Bool} {ds rest : List Char}
    (hds : ∀ c ∈ ds, p c = true) (hrest : ∀ c ∈ rest.head?, p c = false) :
    (ds ++ rest).takeWhile p = ds ∧ (ds ++ rest).dropWhile p = rest := by
  rw [List.takeWhile_append_of_pos hds, List.dropWhile_append_of_pos hds]
  cases rest with
  | nil => simp
  | cons c rest =>
    have hc : p c = false := hrest c rfl
    rw [List.takeWhile_cons_of_neg (by simp [hc]), List.dropWhile_cons_of_neg (by simp [hc]),
      List.append_nil]
    exact ⟨rfl, rfl⟩

namespace DurationText

variable {t : DurationText}

/-- What comes after the number. -/
def suffix (t : DurationText) : List Char := List.replicate t.spaces ' ' ++ t.unit

/-- The number is followed by no digit. -/
theorem Valid.isDigit_suffix (h : t.Valid) : ∀ c ∈ t.suffix.head?, c.isDigit = false := by
  intro c hc
  rcases List.mem_append.1 (List.mem_of_mem_head? hc) with hc | hc
  · rw [List.eq_of_mem_replicate hc]
    decide
  · exact isDigit_eq_false_of_isAlpha (isAlpha_of_writtenUnit h.unit c hc)

/-- The whole part is followed by no digit. -/
theorem Valid.isDigit_rest (h : t.Valid) :
    ∀ c ∈ (fractionText t.fraction ++ t.suffix).head?, c.isDigit = false := by
  cases hfraction : t.fraction with
  | none => exact h.isDigit_suffix
  | some ds =>
    intro c hc
    obtain rfl : '.' = c := Option.some.inj hc
    decide

theorem parseUnit_suffix (h : t.Valid) :
    parseUnit t.negative t.whole t.fraction t.suffix = some t := by
  have hunit : ∀ c ∈ t.unit.head?, decide (c = ' ') = false := by
    intro c hc
    have halpha := isAlpha_of_writtenUnit h.unit c (List.mem_of_mem_head? hc)
    refine decide_eq_false fun hspace => ?_
    rw [hspace] at halpha
    exact absurd halpha (by decide)
  have hspaces : ∀ c ∈ List.replicate t.spaces ' ', decide (c = ' ') = true :=
    fun c hc => decide_eq_true (List.eq_of_mem_replicate hc)
  obtain ⟨htake, hdrop⟩ := takeWhile_dropWhile_append hspaces hunit
  simp only [parseUnit, suffix, htake, hdrop, if_neg h.unit, List.length_replicate]

theorem parseFraction_rest (h : t.Valid) :
    parseFraction t.negative t.whole (fractionText t.fraction ++ t.suffix) = some t := by
  cases hfraction : t.fraction with
  | none =>
    have hpoint : ∀ cs, t.suffix ≠ '.' :: cs := by
      intro cs hcs
      have hmem : '.' ∈ t.suffix := hcs ▸ List.mem_cons_self
      rcases List.mem_append.1 hmem with hmem | hmem
      · exact absurd (List.eq_of_mem_replicate hmem) (by decide)
      · exact absurd (isAlpha_of_writtenUnit h.unit '.' hmem) (by decide)
    have hread := parseUnit_suffix h
    rw [hfraction] at hread
    show parseFraction t.negative t.whole t.suffix = some t
    unfold parseFraction
    split
    · rename_i cs hcs
      exact absurd hcs (hpoint cs)
    · rw [if_neg (h.number hfraction)]
      exact hread
  | some ds =>
    obtain ⟨hne, hdigits⟩ := h.fraction ds hfraction
    obtain ⟨htake, hdrop⟩ := takeWhile_dropWhile_append hdigits h.isDigit_suffix
    have hread := parseUnit_suffix h
    rw [hfraction] at hread
    show parseFraction t.negative t.whole ('.' :: (ds ++ t.suffix)) = some t
    simp only [parseFraction, htake, hdrop, if_neg hne]
    exact hread

theorem parseNumber_unsigned (h : t.Valid) : parseNumber t.negative t.unsigned = some t := by
  obtain ⟨htake, hdrop⟩ := takeWhile_dropWhile_append h.whole h.isDigit_rest
  have hunsigned : t.unsigned = t.whole ++ (fractionText t.fraction ++ t.suffix) := rfl
  rw [parseNumber, hunsigned, htake, hdrop]
  exact parseFraction_rest h

/-- The first character after the sign is a digit or the point. -/
theorem Valid.unsigned_cons (h : t.Valid) :
    ∃ c cs, t.unsigned = c :: cs ∧ (c.isDigit = true ∨ c = '.') := by
  cases hwhole : t.whole with
  | cons c cs =>
    refine ⟨c, cs ++ (fractionText t.fraction ++ t.suffix), ?_, Or.inl ?_⟩
    · show t.whole ++ _ = _
      rw [hwhole]
      rfl
    · exact h.whole c (hwhole ▸ List.mem_cons_self)
  | nil =>
    cases hfraction : t.fraction with
    | none => exact absurd hwhole (h.number hfraction)
    | some ds =>
      refine ⟨'.', ds ++ t.suffix, ?_, Or.inr rfl⟩
      show t.whole ++ (fractionText t.fraction ++ _) = _
      rw [hwhole, hfraction]
      rfl

/-- **The text of valid parts** is read as those parts. -/
theorem parseDuration_text (h : t.Valid) : parseDuration t.text = some t := by
  have hread := parseNumber_unsigned h
  cases hnegative : t.negative with
  | true =>
    rw [hnegative] at hread
    rw [text, hnegative, if_pos rfl]
    exact hread
  | false =>
    rw [hnegative] at hread
    obtain ⟨c, cs, hcons, hc⟩ := h.unsigned_cons
    rw [text, hnegative, if_neg (by decide)]
    unfold parseDuration
    split
    · rename_i cs' hcs'
      obtain ⟨rfl, -⟩ := List.cons.inj (hcons.symm.trans hcs')
      exact absurd hc (by decide)
    · exact hread

end DurationText

/-! ### What is read is the text of valid parts -/

variable {negative : Bool} {whole cs : List Char} {fraction : Option (List Char)}
  {t : DurationText}

theorem parseUnit_eq_some (h : parseUnit negative whole fraction cs = some t) :
    t.negative = negative ∧ t.whole = whole ∧ t.fraction = fraction ∧ t.suffix = cs ∧
      writtenUnit t.unit ≠ none := by
  simp only [parseUnit] at h
  split at h
  · cases h
  · rename_i hunit
    obtain rfl := Option.some.inj h
    refine ⟨rfl, rfl, rfl, ?_, hunit⟩
    have hspaces : List.replicate (cs.takeWhile (fun c => decide (c = ' '))).length ' ' =
        cs.takeWhile (fun c => decide (c = ' ')) := by
      refine (List.eq_replicate_iff.2 ⟨rfl, fun c hc => ?_⟩).symm
      simpa using List.mem_takeWhile_imp hc
    rw [DurationText.suffix, hspaces]
    exact List.takeWhile_append_dropWhile

theorem parseFraction_eq_some (h : parseFraction negative whole cs = some t)
    (hwhole : ∀ c ∈ whole, c.isDigit = true) :
    t.Valid ∧ t.negative = negative ∧ t.whole = whole ∧
      DurationText.fractionText t.fraction ++ t.suffix = cs := by
  unfold parseFraction at h
  split at h
  · rename_i cs
    simp only at h
    split at h
    · cases h
    · rename_i hne
      obtain ⟨hnegative, rfl, hfraction, hsuffix, hunit⟩ := parseUnit_eq_some h
      refine ⟨⟨hwhole, ?_, ?_, hunit⟩, hnegative, rfl, ?_⟩
      · intro ds hds
        rw [hfraction] at hds
        obtain rfl := Option.some.inj hds
        exact ⟨hne, fun c hc => List.mem_takeWhile_imp hc⟩
      · intro hnone
        rw [hfraction] at hnone
        cases hnone
      · rw [hfraction, hsuffix]
        show '.' :: (cs.takeWhile Char.isDigit ++ cs.dropWhile Char.isDigit) = '.' :: cs
        rw [List.takeWhile_append_dropWhile]
  · split at h
    · cases h
    · rename_i hne
      obtain ⟨hnegative, rfl, hfraction, hsuffix, hunit⟩ := parseUnit_eq_some h
      refine ⟨⟨hwhole, ?_, fun _ => hne, hunit⟩, hnegative, rfl, ?_⟩
      · intro ds hds
        rw [hfraction] at hds
        cases hds
      · rw [hfraction, hsuffix]
        rfl

theorem parseNumber_eq_some (h : parseNumber negative cs = some t) :
    t.Valid ∧ t.negative = negative ∧ t.unsigned = cs := by
  obtain ⟨hvalid, hnegative, hwhole, hrest⟩ :=
    parseFraction_eq_some h fun c hc => List.mem_takeWhile_imp hc
  refine ⟨hvalid, hnegative, ?_⟩
  show t.whole ++ (DurationText.fractionText t.fraction ++ t.suffix) = cs
  rw [hwhole, hrest, List.takeWhile_append_dropWhile]

/-- **What the reader accepts.** -/
theorem parseDuration_eq_some_iff : parseDuration cs = some t ↔ t.Valid ∧ t.text = cs := by
  constructor
  · intro h
    unfold parseDuration at h
    split at h
    · obtain ⟨hvalid, hnegative, rfl⟩ := parseNumber_eq_some h
      refine ⟨hvalid, ?_⟩
      rw [DurationText.text, hnegative, if_pos rfl]
    · obtain ⟨hvalid, hnegative, rfl⟩ := parseNumber_eq_some h
      refine ⟨hvalid, ?_⟩
      rw [DurationText.text, hnegative, if_neg (by decide)]
  · rintro ⟨hvalid, rfl⟩
    exact DurationText.parseDuration_text hvalid

example : (parseDuration "-1.5 Hours".toList).map DurationText.milliseconds = some (-5400000) := by
  decide +kernel
