import Mathlib.Data.Nat.Find
import OpsHub.Lib.Durations
import OpsHub.Lib.Numerals

/-!
# Timestamps

Instants in UTC as texts, `YYYY-MM-DDTHH:MM:SS.sssZ`: the seconds and their fraction may be left
out, and the fraction may have any number of digits.  Milliseconds are counted from the beginning of
the year 0 of the Gregorian calendar, so that no instant is negative.  They are read as V8 does: the
first three digits of the fraction, but of a fraction of more than nine digits only nine count, from
its first digit other than zero on.

* `dayNumber`, `dayNumber_lt_iff`: days are numbered in the order of year, month and day;
  `exists_isDay`: every number is that of a day;
* `Stamp`: the parts of a timestamp, each in its range; `text` and `read`, `read_eq_some_iff`;
* `readMilliseconds`, `readMilliseconds_eq`: the milliseconds, and the digits that they are;
* `partsOf`, `instant_partsOf`: the parts of an instant, and the instant of some parts;
* `text_lt_iff_instant_lt_iff`: the order of the texts is that of the instants, unless
  the timestamps are in the same minute and their seconds are misread.
-/

namespace Timestamps

open Numerals

/-! ### The calendar -/

/-- Periods one after another, each of some length. -/
theorem add_lt_add_iff {start length : ℕ → ℕ} (hstart : ∀ a, start a + length a ≤ start (a + 1))
    {a b r s : ℕ} (hr : r < length a) (hs : s < length b) :
    start a + r < start b + s ↔ a < b ∨ a = b ∧ r < s := by
  have hle : ∀ a c, start a + length a ≤ start (a + 1 + c) := by
    intro a c
    induction c with
    | zero => exact hstart a
    | succ c ih => exact Nat.le_trans ih (Nat.le_trans (Nat.le_add_right _ _) (hstart _))
  rcases Nat.lt_trichotomy a b with hlt | rfl | hlt
  · obtain ⟨c, rfl⟩ := Nat.exists_eq_add_of_lt hlt
    have := hle a c
    rw [Nat.add_right_comm] at this
    omega
  · omega
  · obtain ⟨c, rfl⟩ := Nat.exists_eq_add_of_lt hlt
    have := hle b c
    rw [Nat.add_right_comm] at this
    omega

def isLeap (year : ℕ) : Bool :=
  decide (year % 4 = 0 ∧ (year % 100 ≠ 0 ∨ year % 400 = 0))

/-- Months are counted from 1. -/
def daysInMonth (year : ℕ) : ℕ → ℕ
  | 0 => 0
  | 2 => if isLeap year then 29 else 28
  | 4 => 30
  | 6 => 30
  | 9 => 30
  | 11 => 30
  | _ => 31

theorem daysInMonth_le (year month : ℕ) : daysInMonth year month ≤ 31 := by
  unfold daysInMonth
  split <;> first | omega | (split <;> omega)

/-- The days of the year before a month. -/
def daysBeforeMonth (year : ℕ) : ℕ → ℕ
  | 0 => 0
  | month + 1 => daysBeforeMonth year month + daysInMonth year month

def daysInYear (year : ℕ) : ℕ := if isLeap year then 366 else 365

/-- The days before a year. -/
def daysBeforeYear (year : ℕ) : ℕ :=
  365 * year + (year + 3) / 4 - (year + 99) / 100 + (year + 399) / 400

/-- The days before a day of the calendar. -/
def dayNumber (year month day : ℕ) : ℕ :=
  daysBeforeYear year + (daysBeforeMonth year month + (day - 1))

theorem daysBeforeYear_succ (year : ℕ) :
    daysBeforeYear (year + 1) = daysBeforeYear year + daysInYear year := by
  have hfour : (year + 1 + 3) / 4 = (year + 3) / 4 + if year % 4 = 0 then 1 else 0 := by
    split <;> omega
  have hhundred :
      (year + 1 + 99) / 100 = (year + 99) / 100 + if year % 100 = 0 then 1 else 0 := by
    split <;> omega
  have hfourHundred :
      (year + 1 + 399) / 400 = (year + 399) / 400 + if year % 400 = 0 then 1 else 0 := by
    split <;> omega
  have hle : (year + 99) / 100 ≤ 365 * year := by omega
  have hmod : year % 400 = 0 → year % 100 = 0 := by omega
  have hmod' : year % 100 = 0 → year % 4 = 0 := by omega
  unfold daysBeforeYear daysInYear isLeap
  rw [hfour, hhundred, hfourHundred]
  generalize (year + 3) / 4 = a at *
  generalize (year + 99) / 100 = b at *
  generalize (year + 399) / 400 = c at *
  by_cases h4 : year % 4 = 0
  · by_cases h100 : year % 100 = 0
    · by_cases h400 : year % 400 = 0
      · simp only [h4, h100, h400, if_true, ne_eq, not_true_eq_false, or_true, and_self,
          decide_true]
        omega
      · simp only [h4, h100, h400, if_true, if_false, ne_eq, not_true_eq_false, or_self, and_false,
          decide_false, Bool.false_eq_true]
        omega
    · have h400 : ¬ year % 400 = 0 := fun h => h100 (hmod h)
      simp only [h4, h100, h400, if_true, if_false, ne_eq, not_false_eq_true, true_or, and_self,
        decide_true]
      omega
  · have h100 : ¬ year % 100 = 0 := fun h => h4 (hmod' h)
    have h400 : ¬ year % 400 = 0 := fun h => h100 (hmod h)
    simp only [h4, h100, h400, if_false, false_and, decide_false, Bool.false_eq_true]
    omega

theorem daysBeforeMonth_thirteen (year : ℕ) : daysBeforeMonth year 13 = daysInYear year := by
  unfold daysInYear
  cases h : isLeap year <;> simp [daysBeforeMonth, daysInMonth, h]

theorem daysBeforeMonth_mono (year : ℕ) {m n : ℕ} (h : m ≤ n) :
    daysBeforeMonth year m ≤ daysBeforeMonth year n := by
  induction h with
  | refl => exact Nat.le_refl _
  | step _ ih => exact Nat.le_trans ih (Nat.le_add_right _ _)

/-- A day of the calendar. -/
structure IsDay (year month day : ℕ) : Prop where
  month_le : month ≤ 12
  day_pos : 0 < day
  day_le : day ≤ daysInMonth year month

theorem IsDay.lt_daysInYear {year month day : ℕ} (h : IsDay year month day) :
    daysBeforeMonth year month + (day - 1) < daysInYear year := by
  have hmono := daysBeforeMonth_mono year (Nat.succ_le_succ h.month_le)
  rw [daysBeforeMonth_thirteen, daysBeforeMonth] at hmono
  have hpos := h.day_pos
  have hle := h.day_le
  omega

/-- **The calendar** is in order. -/
theorem dayNumber_lt_iff {y m d y' m' d' : ℕ} (h : IsDay y m d) (h' : IsDay y' m' d') :
    dayNumber y m d < dayNumber y' m' d' ↔ y < y' ∨ y = y' ∧ (m < m' ∨ m = m' ∧ d < d') := by
  have hpos := h.day_pos
  have hpos' := h'.day_pos
  have hle := h.day_le
  have hle' := h'.day_le
  rw [dayNumber, dayNumber, add_lt_add_iff (fun y => Nat.le_of_eq (daysBeforeYear_succ y).symm)
    h.lt_daysInYear h'.lt_daysInYear]
  refine or_congr_right (and_congr_right fun hyear => ?_)
  subst hyear
  rw [@add_lt_add_iff (daysBeforeMonth y) (daysInMonth y) (fun m => Nat.le_refl _) m m' (d - 1)
    (d' - 1) (by omega) (by omega)]
  omega

/-! ### The day with a number -/

/-- The year of a day. -/
def yearOf (n : ℕ) : ℕ := Nat.findGreatest (fun year => daysBeforeYear year ≤ n) (n / 365)

/-- The month of a day of a year. -/
def monthOf (year n : ℕ) : ℕ := Nat.findGreatest (fun month => daysBeforeMonth year month ≤ n) 12

theorem daysBeforeYear_yearOf_le (n : ℕ) : daysBeforeYear (yearOf n) ≤ n :=
  @Nat.findGreatest_spec 0 (fun year => daysBeforeYear year ≤ n) _ (n / 365) (Nat.zero_le _)
    (Nat.zero_le n)

theorem lt_daysBeforeYear_yearOf (n : ℕ) : n < daysBeforeYear (yearOf n + 1) := by
  by_cases hle : yearOf n + 1 ≤ n / 365
  · exact Nat.lt_of_not_le (Nat.findGreatest_is_greatest (P := fun year => daysBeforeYear year ≤ n)
      (Nat.lt_succ_self _) hle)
  · have hyears : 365 * (yearOf n + 1) ≤ daysBeforeYear (yearOf n + 1) := by
      unfold daysBeforeYear
      omega
    omega

theorem daysBeforeMonth_monthOf_le (year n : ℕ) : daysBeforeMonth year (monthOf year n) ≤ n :=
  @Nat.findGreatest_spec 0 (fun month => daysBeforeMonth year month ≤ n) _ 12 (Nat.zero_le _)
    (Nat.zero_le n)

theorem lt_daysBeforeMonth_monthOf {year n : ℕ} (h : n < daysInYear year) :
    n < daysBeforeMonth year (monthOf year n + 1) := by
  have hmonth : monthOf year n ≤ 12 := Nat.findGreatest_le 12
  by_cases hlast : monthOf year n = 12
  · rw [hlast, daysBeforeMonth_thirteen]
    exact h
  · exact Nat.lt_of_not_le (Nat.findGreatest_is_greatest
      (P := fun month => daysBeforeMonth year month ≤ n) (Nat.lt_succ_self _)
      (Nat.lt_of_le_of_ne hmonth hlast))

/-- **Every number** is that of a day. -/
theorem exists_isDay (n : ℕ) : let r := n - daysBeforeYear (yearOf n)
    let day := r - daysBeforeMonth (yearOf n) (monthOf (yearOf n) r) + 1
    IsDay (yearOf n) (monthOf (yearOf n) r) day ∧
      dayNumber (yearOf n) (monthOf (yearOf n) r) day = n := by
  intro r day
  have hyear := daysBeforeYear_yearOf_le n
  have hnext := lt_daysBeforeYear_yearOf n
  rw [daysBeforeYear_succ] at hnext
  have hr : r < daysInYear (yearOf n) := by omega
  have hmonth := daysBeforeMonth_monthOf_le (yearOf n) r
  have hend := lt_daysBeforeMonth_monthOf hr
  rw [daysBeforeMonth] at hend
  refine ⟨⟨Nat.findGreatest_le 12, Nat.succ_pos _, ?_⟩, ?_⟩
  · omega
  · rw [dayNumber]
    omega

/-! ### Timestamps -/

/-- The parts of a timestamp: the clock is the seconds and the digits of their fraction, as far as
they are given. -/
structure Parts where
  year : ℕ
  month : ℕ
  day : ℕ
  hour : ℕ
  minute : ℕ
  clock : List ℕ
  deriving DecidableEq, Repr

/-- The seconds are below 60, and behind them are digits. -/
def ClockValid (clock : List ℕ) : Prop :=
  (∀ s ∈ clock.head?, s < 60) ∧ ∀ d ∈ clock.tail, d < 10

instance (clock : List ℕ) : Decidable (ClockValid clock) :=
  inferInstanceAs (Decidable ((∀ s ∈ clock.head?, s < 60) ∧ ∀ d ∈ clock.tail, d < 10))

instance (year month day : ℕ) : Decidable (IsDay year month day) :=
  decidable_of_iff (month ≤ 12 ∧ 0 < day ∧ day ≤ daysInMonth year month)
    ⟨fun h => ⟨h.1, h.2.1, h.2.2⟩, fun h => ⟨h.month_le, h.day_pos, h.day_le⟩⟩

/-- Every part is in its range. -/
def Parts.Valid (p : Parts) : Prop :=
  p.year < 10000 ∧ IsDay p.year p.month p.day ∧ p.hour < 24 ∧ p.minute < 60 ∧ ClockValid p.clock

instance (p : Parts) : Decidable p.Valid :=
  inferInstanceAs (Decidable (p.year < 10000 ∧ IsDay p.year p.month p.day ∧ p.hour < 24 ∧
    p.minute < 60 ∧ ClockValid p.clock))

/-- A timestamp. -/
structure Stamp extends Parts where
  valid : toParts.Valid

/-! ### Milliseconds -/

/-- The number of a numeral, as `ReadUnsignedNumeral` has it: zeros in front are skipped, and of the
digits behind them only nine are read. -/
def readUnsignedNumeral (u : List ℕ) : ℕ := value ((u.dropWhile fun d => d == 0).take 9)

/-- `ReadMilliseconds`: the length is that of the numeral with its zeros, up to nine. -/
def readMilliseconds (u : List ℕ) : ℕ :=
  let n := readUnsignedNumeral u
  if u.length = 1 then n * 100
  else if u.length = 2 then n * 10
  else n / 10 ^ (min u.length 9 - 3)

/-- A fraction of more than nine digits that begins with a zero. -/
def Shifted (u : List ℕ) : Prop := 9 < u.length ∧ u.head? = some 0

instance : DecidablePred Shifted := fun u =>
  inferInstanceAs (Decidable (9 < u.length ∧ u.head? = some 0))

/-- The digits that a fraction is taken for: nine, with zeros in front if there are fewer behind its
own ones, or as it stands. -/
def taken (u : List ℕ) : List ℕ := if Shifted u then fixed 9 (readUnsignedNumeral u) else u

theorem taken_of_not_shifted {u : List ℕ} (h : ¬ Shifted u) : taken u = u := if_neg h

theorem lt_of_mem_taken {u : List ℕ} {d : ℕ} (hu : ∀ d ∈ u, d < 10) (h : d ∈ taken u) : d < 10 := by
  unfold taken at h
  split at h
  · exact lt_of_mem_fixed h
  · exact hu d h

theorem readUnsignedNumeral_lt {u : List ℕ} (hu : ∀ d ∈ u, d < 10) :
    readUnsignedNumeral u < 10 ^ 9 := by
  have hmem : ∀ d ∈ (u.dropWhile fun d => d == 0).take 9, d < 10 := fun d hd =>
    hu d ((List.dropWhile_suffix _).mem (List.mem_of_mem_take hd))
  exact Nat.lt_of_lt_of_le (value_lt_pow hmem)
    (Nat.pow_le_pow_right (by decide) (List.length_take_le _ _))

/-- A numeral of up to nine digits is read as it is. -/
theorem readUnsignedNumeral_of_length_le {u : List ℕ} (h : u.length ≤ 9) :
    readUnsignedNumeral u = value u := by
  have hlength := Nat.le_trans (List.dropWhile_suffix (fun d => d == 0)).length_le h
  rw [readUnsignedNumeral, List.take_of_length_le hlength, value_dropWhile_zero]

/-- **The milliseconds** are the first three digits of what the fraction is taken for. -/
theorem readMilliseconds_eq {u : List ℕ} (hu : ∀ d ∈ u, d < 10) :
    readMilliseconds u = value (trunc 3 (taken u)) := by
  unfold taken
  by_cases hlength : u.length ≤ 9
  · have hshifted : ¬ Shifted u := fun h => Nat.not_lt.2 hlength h.1
    rw [if_neg hshifted, readMilliseconds, readUnsignedNumeral_of_length_le hlength]
    rcases u with _ | ⟨d, _ | ⟨e, _ | ⟨f, u⟩⟩⟩
    · rfl
    · simp only [List.length_singleton, if_true, value, trunc, List.foldl_cons, List.foldl_nil]
      omega
    · simp only [List.length_cons, List.length_nil, value, trunc, List.foldl_cons,
        List.foldl_nil, Nat.zero_add, Nat.reduceAdd, Nat.reduceEqDiff, if_true, if_false]
      omega
    · have hthree : 3 ≤ (d :: e :: f :: u).length := Nat.le_add_left _ _
      rw [value_trunc hu hthree, if_neg (by omega), if_neg (by omega), Nat.min_eq_left hlength]
  · have hnine : min u.length 9 = 9 := Nat.min_eq_right (by omega)
    rw [readMilliseconds, if_neg (by omega), if_neg (by omega), hnine]
    by_cases hshifted : Shifted u
    · have hfixed := @value_trunc (fixed 9 (readUnsignedNumeral u)) 3 (fun d => lt_of_mem_fixed)
        (by rw [length_fixed]; decide)
      rw [if_pos hshifted, hfixed, value_fixed (readUnsignedNumeral_lt hu), length_fixed]
    · -- the numeral begins with a digit other than zero
      rw [if_neg hshifted]
      cases u with
      | nil => exact absurd (Nat.zero_le 9) hlength
      | cons d u =>
        have hd : (d == 0) = false := by
          rw [beq_eq_false_iff_ne]
          rintro rfl
          exact hshifted ⟨Nat.lt_of_not_le hlength, rfl⟩
        have hmem : ∀ e ∈ (d :: u).take 9, e < 10 := fun e he => hu e (List.mem_of_mem_take he)
        have htake : ((d :: u).take 9).length = 9 := by
          rw [List.length_take, Nat.min_comm, hnine]
        have htrunc : trunc 3 ((d :: u).take 9) = trunc 3 (d :: u) := by
          rcases u with _ | ⟨e, _ | ⟨f, u⟩⟩
          · exact absurd (show 1 ≤ 9 by decide) hlength
          · exact absurd (show 2 ≤ 9 by decide) hlength
          · rfl
        have hvalue := value_trunc hmem (show 3 ≤ _ by rw [htake]; decide)
        rw [readUnsignedNumeral, List.dropWhile_cons_of_neg (by simp [hd]), ← htrunc, hvalue, htake]

/-- The seconds and milliseconds of a clock, in milliseconds. -/
def clockMilliseconds : List ℕ → ℕ
  | [] => 0
  | s :: fraction => s * 1000 + readMilliseconds fraction

/-- What a clock is taken for. -/
def takenClock : List ℕ → List ℕ
  | [] => []
  | s :: fraction => s :: taken fraction

theorem ClockValid.takenClock {clock : List ℕ} (h : ClockValid clock) :
    ClockValid (takenClock clock) := by
  cases clock with
  | nil => exact h
  | cons s fraction => exact ⟨h.1, fun d hd => lt_of_mem_taken h.2 hd⟩

theorem ClockValid.milliseconds_eq {clock : List ℕ} (h : ClockValid clock) :
    clockMilliseconds clock = value (trunc 4 (Timestamps.takenClock clock)) := by
  cases clock with
  | nil => rfl
  | cons s fraction =>
    have hfraction : readMilliseconds fraction = value (trunc 3 (taken fraction)) :=
      readMilliseconds_eq h.2
    have hdigits := foldl_eq (trunc 3 (taken fraction)) s
    rw [length_trunc, ← hfraction] at hdigits
    show s * 10 ^ 3 + readMilliseconds fraction =
      (trunc 3 (taken fraction)).foldl (fun n d => 10 * n + d) (10 * 0 + s)
    rw [Nat.mul_zero, Nat.zero_add, hdigits]

/-- Milliseconds from the beginning of the year 0. -/
def Parts.instant (p : Parts) : ℕ :=
  ((dayNumber p.year p.month p.day * 24 + p.hour) * 60 + p.minute) * 60000 +
    clockMilliseconds p.clock

/-- `toISOString`: the parts of an instant, with milliseconds. -/
def partsOf (t : ℕ) : Parts :=
  let n := t / 86400000
  let r := n - daysBeforeYear (yearOf n)
  { year := yearOf n
    month := monthOf (yearOf n) r
    day := r - daysBeforeMonth (yearOf n) (monthOf (yearOf n) r) + 1
    hour := t / 3600000 % 24
    minute := t / 60000 % 60
    clock := t / 1000 % 60 :: fixed 3 (t % 1000) }

theorem valid_partsOf {t : ℕ} (h : (partsOf t).year < 10000) : (partsOf t).Valid := by
  refine ⟨h, (exists_isDay (t / 86400000)).1, Nat.mod_lt _ (by decide), Nat.mod_lt _ (by decide),
    fun s hs => ?_, fun d hd => lt_of_mem_fixed hd⟩
  rw [← Option.some.inj hs]
  exact Nat.mod_lt _ (by decide)

/-- An instant is that of its parts. -/
theorem instant_partsOf (t : ℕ) : (partsOf t).instant = t := by
  have hday := (exists_isDay (t / 86400000)).2
  have hmilliseconds : readMilliseconds (fixed 3 (t % 1000)) = t % 1000 := by
    have hlt : t % 1000 < 10 ^ 3 := Nat.mod_lt t (by decide)
    have hlength : (fixed 3 (t % 1000)).length = 3 := length_fixed 3 _
    rw [readMilliseconds, readUnsignedNumeral_of_length_le (by omega), value_fixed hlt, hlength,
      if_neg (by decide), if_neg (by decide)]
    exact Nat.div_one _
  rw [Parts.instant]
  dsimp only [partsOf, clockMilliseconds]
  rw [hday, hmilliseconds]
  omega

/-! ### The order of instants -/

/-- The timestamps are the same up to the minute. -/
@[mk_iff] structure SameMinute (p q : Parts) : Prop where
  year : p.year = q.year
  month : p.month = q.month
  day : p.day = q.day
  hour : p.hour = q.hour
  minute : p.minute = q.minute

/-- The order of the minutes. -/
def MinuteBefore (p q : Parts) : Prop :=
  p.year < q.year ∨ p.year = q.year ∧ (p.month < q.month ∨ p.month = q.month ∧
    (p.day < q.day ∨ p.day = q.day ∧ (p.hour < q.hour ∨ p.hour = q.hour ∧ p.minute < q.minute)))

theorem ClockValid.value_lt {clock : List ℕ} (h : ClockValid clock) :
    value (trunc 4 clock) < 60000 := by
  have hsecond : clock.headD 0 < 60 := by
    cases clock with
    | nil => decide
    | cons s fraction => exact h.1 s rfl
  have hfraction := value_lt_pow fun d (hd : d ∈ trunc 3 clock.tail) => lt_of_mem_trunc h.2 hd
  rw [length_trunc] at hfraction
  rw [trunc_succ, value, List.foldl_cons, foldl_eq, length_trunc]
  omega

theorem value_trunc_lt_iff {u v : List ℕ} (hu : ClockValid u) (hv : ClockValid v) :
    value (trunc 4 u) < value (trunc 4 v) ↔ trunc 4 u < trunc 4 v := by
  have hlength : (trunc 3 u.tail).length = (trunc 3 v.tail).length := by
    rw [length_trunc, length_trunc]
  rw [trunc_succ 3 u, trunc_succ 3 v, value, value, List.foldl_cons, List.foldl_cons,
    foldl_lt_iff hlength (fun d => lt_of_mem_trunc hu.2) (fun d => lt_of_mem_trunc hv.2),
    List.cons_lt_cons_iff]
  simp

/-- Timestamps are ordered by their minutes, and then by what their clocks are taken for. -/
theorem Stamp.instant_lt_iff (a b : Stamp) : a.instant < b.instant ↔
    MinuteBefore a.toParts b.toParts ∨ SameMinute a.toParts b.toParts ∧
      trunc 4 (takenClock a.clock) < trunc 4 (takenClock b.clock) := by
  obtain ⟨-, hday, hhour, hminute, hclock⟩ := a.valid
  obtain ⟨-, hday', hhour', hminute', hclock'⟩ := b.valid
  have hvalue := hclock.takenClock.value_lt
  have hvalue' := hclock'.takenClock.value_lt
  have hdays := dayNumber_lt_iff hday hday'
  have hdays' := dayNumber_lt_iff hday' hday
  rw [← value_trunc_lt_iff hclock.takenClock hclock'.takenClock]
  have hinstant : a.instant < b.instant ↔
      dayNumber a.year a.month a.day < dayNumber b.year b.month b.day ∨
        ¬ dayNumber b.year b.month b.day < dayNumber a.year a.month a.day ∧
          (a.hour < b.hour ∨ a.hour = b.hour ∧ (a.minute < b.minute ∨ a.minute = b.minute ∧
            value (trunc 4 (takenClock a.clock)) < value (trunc 4 (takenClock b.clock)))) := by
    unfold Parts.instant
    rw [hclock.milliseconds_eq, hclock'.milliseconds_eq]
    omega
  rw [hinstant, hdays, hdays', MinuteBefore, sameMinute_iff]
  omega

/-! ### Texts -/

/-- A number with `k` digits. -/
def digits (k n : ℕ) : List Char := (fixed k n).map Nat.digitChar

/-- The end of a timestamp. -/
def clockText : List ℕ → List Char
  | [] => ['Z']
  | [s] => ':' :: (digits 2 s ++ ['Z'])
  | s :: d :: fraction => ':' :: (digits 2 s ++ '.' :: ((d :: fraction).map Nat.digitChar ++ ['Z']))

def Parts.text (p : Parts) : List Char :=
  digits 4 p.year ++ '-' :: (digits 2 p.month ++ '-' :: (digits 2 p.day ++ 'T' ::
    (digits 2 p.hour ++ ':' :: (digits 2 p.minute ++ clockText p.clock))))

/-- The digit that a character stands for. -/
def digitOf (c : Char) : ℕ := c.toNat - '0'.toNat

theorem digitOf_digitChar {d : ℕ} (h : d < 10) : digitOf d.digitChar = d := by
  have hall : ∀ d < 10, digitOf d.digitChar = d := by decide
  exact hall d h

theorem digitChar_lt_iff (a b : ℕ) (ha : a < 10) (hb : b < 10) :
    a.digitChar < b.digitChar ↔ a < b := by
  have hall : ∀ a < 10, ∀ b < 10, a.digitChar < b.digitChar ↔ a < b := by decide
  exact hall a ha b hb

theorem digitChar_inj (a b : ℕ) (ha : a < 10) (hb : b < 10) (h : a.digitChar = b.digitChar) :
    a = b := by
  rw [← digitOf_digitChar ha, h, digitOf_digitChar hb]

theorem map_digitOf {u : List ℕ} (h : ∀ d ∈ u, d < 10) :
    (u.map Nat.digitChar).map digitOf = u := by
  rw [List.map_map]
  exact (List.map_congr_left fun d hd => digitOf_digitChar (h d hd)).trans (List.map_id u)

theorem value_digits {k n : ℕ} (h : n < 10 ^ k) : value ((digits k n).map digitOf) = n := by
  rw [digits, map_digitOf fun d => lt_of_mem_fixed, value_fixed h]

@[simp] theorem length_digits (k n : ℕ) : (digits k n).length = k := by
  rw [digits, List.length_map, length_fixed]

/-- Numbers with the same number of digits are ordered as they are written. -/
theorem digits_append_lt_iff {k m n : ℕ} {u v : List Char} (hm : m < 10 ^ k) (hn : n < 10 ^ k) :
    digits k m ++ u < digits k n ++ v ↔ m < n ∨ m = n ∧ u < v := by
  have hlength : (digits k m).length = (digits k n).length := by
    rw [length_digits, length_digits]
  have hlt : digits k m < digits k n ↔ m < n := by
    rw [digits, digits, map_lt_map_iff digitChar_lt_iff digitChar_inj (fun d => lt_of_mem_fixed)
      (fun d => lt_of_mem_fixed), fixed_lt_iff hm hn]
  have heq : digits k m = digits k n ↔ m = n := by
    constructor
    · intro h
      rw [← value_digits hm, h, value_digits hn]
    · rintro rfl
      rfl
  rw [append_lt_append_iff hlength, hlt, heq]

/-- The `Z` comes after all digits. -/
theorem map_digitChar_append_lt_iff {u v : List ℕ} (hu : ∀ d ∈ u, d < 10) (hv : ∀ d ∈ v, d < 10) :
    u.map Nat.digitChar ++ ['Z'] < v.map Nat.digitChar ++ ['Z'] ↔ EndLast u v := by
  have hZ : ∀ d < 10, d.digitChar < 'Z' ∧ ¬ 'Z' < d.digitChar ∧ 'Z' ≠ d.digitChar := by decide
  induction u generalizing v with
  | nil =>
    cases v with
    | nil => simp [EndLast]
    | cons e v =>
      have he := hZ e (hv e List.mem_cons_self)
      simp [EndLast, List.cons_lt_cons_iff, he.2.1, he.2.2]
  | cons d u ih =>
    cases v with
    | nil =>
      have hd := hZ d (hu d List.mem_cons_self)
      simp [EndLast, List.cons_lt_cons_iff, hd.1]
    | cons e v =>
      rw [List.forall_mem_cons] at hu hv
      have heq : d.digitChar = e.digitChar ↔ d = e :=
        ⟨digitChar_inj d e hu.1 hv.1, congrArg Nat.digitChar⟩
      rw [List.map_cons, List.map_cons, List.cons_append, List.cons_append,
        List.cons_lt_cons_iff, digitChar_lt_iff d e hu.1 hv.1, heq, EndLast]
      exact or_congr_right (and_congr_right fun _ => ih hu.2 hv.2)

theorem clockText_lt_iff {u v : List ℕ} (hu : ClockValid u) (hv : ClockValid v) :
    clockText u < clockText v ↔ EndLast u v := by
  have hsecond : ∀ {s t : ℕ} {x y : List Char}, s < 60 → t < 60 →
      (digits 2 s ++ x < digits 2 t ++ y ↔ s < t ∨ s = t ∧ x < y) := fun hs ht =>
    digits_append_lt_iff (Nat.lt_trans hs (by decide)) (Nat.lt_trans ht (by decide))
  have hcolon : ':' < 'Z' ∧ ¬ 'Z' < ':' ∧ 'Z' ≠ ':' := by decide
  have hpoint : '.' < 'Z' ∧ ¬ 'Z' < '.' ∧ 'Z' ≠ '.' := by decide
  rcases u with _ | ⟨s, _ | ⟨d, u⟩⟩ <;> rcases v with _ | ⟨t, _ | ⟨e, v⟩⟩
  · simp [clockText, EndLast]
  · simp [clockText, EndLast, List.cons_lt_cons_iff, hcolon]
  · simp [clockText, EndLast, List.cons_lt_cons_iff, hcolon]
  · simp [clockText, EndLast, List.cons_lt_cons_iff, hcolon]
  · simp [clockText, EndLast, hsecond (hu.1 s rfl) (hv.1 t rfl)]
  · simp [clockText, EndLast, List.cons_lt_cons_iff, hsecond (hu.1 s rfl) (hv.1 t rfl), hpoint]
  · simp [clockText, EndLast, List.cons_lt_cons_iff, hcolon]
  · simp [clockText, EndLast, List.cons_lt_cons_iff, hsecond (hu.1 s rfl) (hv.1 t rfl), hpoint]
  · have hfraction := @map_digitChar_append_lt_iff (d :: u) (e :: v) hu.2 hv.2
    rw [clockText, clockText, List.cons_lt_cons_iff, hsecond (hu.1 s rfl) (hv.1 t rfl),
      List.cons_lt_cons_iff, hfraction]
    simp [EndLast]

theorem Stamp.text_lt_iff (a b : Stamp) : a.text < b.text ↔
    MinuteBefore a.toParts b.toParts ∨
      SameMinute a.toParts b.toParts ∧ EndLast a.clock b.clock := by
  obtain ⟨hyear, hday, hhour, hminute, hclock⟩ := a.valid
  obtain ⟨hyear', hday', hhour', hminute', hclock'⟩ := b.valid
  have htwo : ∀ {m n : ℕ} {x y : List Char}, m < 100 → n < 100 →
      (digits 2 m ++ x < digits 2 n ++ y ↔ m < n ∨ m = n ∧ x < y) :=
    fun hm hn => digits_append_lt_iff (k := 2) hm hn
  have hmonth := hday.month_le
  have hmonth' := hday'.month_le
  have hdays := Nat.le_trans hday.day_le (daysInMonth_le a.year a.month)
  have hdays' := Nat.le_trans hday'.day_le (daysInMonth_le b.year b.month)
  rw [MinuteBefore, sameMinute_iff, Parts.text, Parts.text,
    digits_append_lt_iff (k := 4) hyear hyear', List.cons_lt_cons_iff,
    htwo (by omega) (by omega), List.cons_lt_cons_iff, htwo (by omega) (by omega),
    List.cons_lt_cons_iff, htwo (by omega) (by omega), List.cons_lt_cons_iff,
    htwo (by omega) (by omega), clockText_lt_iff hclock hclock']
  simp only [Char.lt_irrefl, false_or, true_and, lex_assoc]

/-- Two clocks are misread: what they are taken for is misjudged, or is as texts in another order
than the clocks; if both, the two mistakes make up for each other. -/
def Misread (u v : List ℕ) : Prop :=
  Xor (Misjudged 4 (takenClock u) (takenClock v))
    (¬ (EndLast u v ↔ EndLast (takenClock u) (takenClock v)))

theorem misread_iff {u v : List ℕ} :
    (EndLast u v ↔ trunc 4 (takenClock u) < trunc 4 (takenClock v)) ↔ ¬ Misread u v := by
  have htaken := @endLast_iff_lt_iff (takenClock u) (takenClock v) 4
  unfold Misread Xor
  tauto

/-- As long as no fraction of more than nine digits begins with a zero, clocks are taken for what
they are. -/
theorem misread_iff_misjudged {u v : List ℕ} (hu : ¬ Shifted u.tail) (hv : ¬ Shifted v.tail) :
    Misread u v ↔ Misjudged 4 u v := by
  have htaken : ∀ {w : List ℕ}, ¬ Shifted w.tail → takenClock w = w := by
    intro w hw
    cases w with
    | nil => rfl
    | cons s fraction => exact congrArg (s :: ·) (taken_of_not_shifted hw)
  simp [Misread, Xor, htaken hu, htaken hv]

/-- **Texts and instants**: they are in the same order, unless the timestamps are in the same minute
and their clocks are misread. -/
theorem Stamp.text_lt_iff_instant_lt_iff (a b : Stamp) :
    (a.text < b.text ↔ a.instant < b.instant) ↔
      ¬ (SameMinute a.toParts b.toParts ∧ Misread a.clock b.clock) := by
  rw [a.text_lt_iff, a.instant_lt_iff]
  have hbefore : MinuteBefore a.toParts b.toParts → ¬ SameMinute a.toParts b.toParts := by
    rintro hbefore ⟨hyear, hmonth, hday, hhour, hminute⟩
    unfold MinuteBefore at hbefore
    omega
  have hclock := @misread_iff a.clock b.clock
  by_cases hsame : SameMinute a.toParts b.toParts
  · have hnot : ¬ MinuteBefore a.toParts b.toParts := fun h => hbefore h hsame
    simp only [hnot, hsame, true_and, false_or]
    exact hclock
  · simp [hsame]

/-! ### Reading -/

/-- Read `k` digits. -/
def readDigits (k : ℕ) (cs : List Char) : Option (ℕ × List Char) :=
  if (cs.take k).length = k ∧ (cs.take k).all Char.isDigit = true then
    some (value ((cs.take k).map digitOf), cs.drop k)
  else none

/-- Read a character. -/
def readChar (c : Char) : List Char → Option (List Char)
  | [] => none
  | d :: cs => if d = c then some cs else none

/-- Read the fraction of the seconds, and the `Z`. -/
def readFraction (cs : List Char) : Option (List ℕ) :=
  if cs.takeWhile Char.isDigit ≠ [] ∧ cs.dropWhile Char.isDigit = ['Z'] then
    some ((cs.takeWhile Char.isDigit).map digitOf)
  else none

/-- Read the end of a timestamp. -/
def readClock (cs : List Char) : Option (List ℕ) :=
  if cs = ['Z'] then some []
  else do
    let cs ← readChar ':' cs
    let (s, cs) ← readDigits 2 cs
    if cs = ['Z'] then some [s]
    else do
      let cs ← readChar '.' cs
      let fraction ← readFraction cs
      some (s :: fraction)

/-- Read the parts of a timestamp. -/
def readParts (cs : List Char) : Option Parts := do
  let (year, cs) ← readDigits 4 cs
  let cs ← readChar '-' cs
  let (month, cs) ← readDigits 2 cs
  let cs ← readChar '-' cs
  let (day, cs) ← readDigits 2 cs
  let cs ← readChar 'T' cs
  let (hour, cs) ← readDigits 2 cs
  let cs ← readChar ':' cs
  let (minute, cs) ← readDigits 2 cs
  let clock ← readClock cs
  some ⟨year, month, day, hour, minute, clock⟩

/-- Read a timestamp. -/
def read (cs : List Char) : Option Stamp :=
  match readParts cs with
  | none => none
  | some p => if h : p.Valid then some ⟨p, h⟩ else none

theorem digitOf_lt {c : Char} (h : c.isDigit = true) : digitOf c < 10 := by
  have hbounds := isDigit_iff.1 h
  show c.toNat - 48 < 10
  omega

theorem digitChar_digitOf {c : Char} (h : c.isDigit = true) : (digitOf c).digitChar = c := by
  have hlt := digitOf_lt h
  have hbounds := isDigit_iff.1 h
  have hnat : ∀ d < 10, d.digitChar.toNat = d + 48 := by decide
  refine Char.toNat_inj.1 ?_
  rw [hnat _ hlt]
  show c.toNat - 48 + 48 = c.toNat
  omega

theorem map_digitChar {ds : List Char} (h : ∀ c ∈ ds, c.isDigit = true) :
    (ds.map digitOf).map Nat.digitChar = ds := by
  rw [List.map_map]
  exact (List.map_congr_left fun c hc => digitChar_digitOf (h c hc)).trans (List.map_id ds)

theorem lt_of_mem_map_digitOf {ds : List Char} (h : ∀ c ∈ ds, c.isDigit = true) {d : ℕ}
    (hd : d ∈ ds.map digitOf) : d < 10 := by
  obtain ⟨c, hc, rfl⟩ := List.mem_map.1 hd
  exact digitOf_lt (h c hc)

theorem isDigit_of_mem_map {u : List ℕ} (h : ∀ d ∈ u, d < 10) {c : Char}
    (hc : c ∈ u.map Nat.digitChar) : c.isDigit = true := by
  obtain ⟨d, hd, rfl⟩ := List.mem_map.1 hc
  rw [Nat.isDigit_digitChar]
  exact decide_eq_true (h d hd)

theorem readDigits_eq_some_iff {k n : ℕ} {cs rest : List Char} :
    readDigits k cs = some (n, rest) ↔ n < 10 ^ k ∧ cs = digits k n ++ rest := by
  unfold readDigits
  constructor
  · intro h
    by_cases hds : (cs.take k).length = k ∧ (cs.take k).all Char.isDigit = true
    · rw [if_pos hds] at h
      obtain ⟨rfl, rfl⟩ := Prod.mk.inj (Option.some.inj h)
      have hdigit := List.all_eq_true.1 hds.2
      have hlt : ∀ d ∈ (cs.take k).map digitOf, d < 10 := fun d => lt_of_mem_map_digitOf hdigit
      have hlength : ((cs.take k).map digitOf).length = k := by rw [List.length_map, hds.1]
      have hpow := value_lt_pow hlt
      have hfixed := fixed_value hlt
      rw [hlength] at hpow hfixed
      refine ⟨hpow, ?_⟩
      rw [digits, hfixed, map_digitChar hdigit, List.take_append_drop]
    · rw [if_neg hds] at h
      cases h
  · rintro ⟨hn, rfl⟩
    have hlength := length_digits k n
    have htake : (digits k n ++ rest).take k = digits k n := List.take_left' hlength
    have hdrop : (digits k n ++ rest).drop k = rest := List.drop_left' hlength
    have hdigit : (digits k n).all Char.isDigit = true :=
      List.all_eq_true.2 fun c => isDigit_of_mem_map fun d => lt_of_mem_fixed
    rw [htake, hdrop, if_pos ⟨hlength, hdigit⟩, value_digits hn]

theorem readChar_eq_some_iff {c : Char} {cs rest : List Char} :
    readChar c cs = some rest ↔ cs = c :: rest := by
  cases cs with
  | nil => simp [readChar]
  | cons d cs =>
    by_cases h : d = c <;> simp [readChar, h]

theorem readChar_cons (c : Char) (cs : List Char) : readChar c (c :: cs) = some cs := if_pos rfl

theorem readFraction_eq_some_iff {cs : List Char} {u : List ℕ} :
    readFraction cs = some u ↔
      u ≠ [] ∧ (∀ d ∈ u, d < 10) ∧ cs = u.map Nat.digitChar ++ ['Z'] := by
  unfold readFraction
  constructor
  · intro h
    by_cases hds : cs.takeWhile Char.isDigit ≠ [] ∧ cs.dropWhile Char.isDigit = ['Z']
    · rw [if_pos hds] at h
      obtain rfl := Option.some.inj h
      have hdigit : ∀ c ∈ cs.takeWhile Char.isDigit, c.isDigit = true := fun c hc =>
        List.mem_takeWhile_imp hc
      refine ⟨by simpa using hds.1, fun d => lt_of_mem_map_digitOf hdigit, ?_⟩
      rw [map_digitChar hdigit, ← hds.2, List.takeWhile_append_dropWhile]
    · rw [if_neg hds] at h
      cases h
  · rintro ⟨hne, hlt, rfl⟩
    obtain ⟨htake, hdrop⟩ := @takeWhile_dropWhile_append Char.isDigit (u.map Nat.digitChar) ['Z']
      (fun c => isDigit_of_mem_map hlt) (fun c hc => by obtain rfl := Option.some.inj hc; rfl)
    rw [htake, hdrop, map_digitOf hlt, if_pos ⟨by simpa using hne, rfl⟩]

theorem eq_clockText_of_readClock {cs : List Char} {u : List ℕ} (h : readClock cs = some u) :
    cs = clockText u := by
  unfold readClock at h
  by_cases hZ : cs = ['Z']
  · rw [if_pos hZ] at h
    obtain rfl := Option.some.inj h
    exact hZ
  · rw [if_neg hZ] at h
    simp only [Option.bind_eq_bind, Option.bind_eq_some_iff] at h
    obtain ⟨cs₁, hcolon, ⟨s, cs₂⟩, hsecond, h⟩ := h
    obtain rfl := readChar_eq_some_iff.1 hcolon
    obtain ⟨-, rfl⟩ := readDigits_eq_some_iff.1 hsecond
    by_cases hwhole : cs₂ = ['Z']
    · rw [if_pos hwhole] at h
      obtain rfl := Option.some.inj h
      rw [hwhole]
      rfl
    · rw [if_neg hwhole] at h
      simp only [Option.bind_eq_some_iff] at h
      obtain ⟨cs₃, hpoint, fraction, hfraction, h⟩ := h
      obtain rfl := readChar_eq_some_iff.1 hpoint
      obtain ⟨hne, -, rfl⟩ := readFraction_eq_some_iff.1 hfraction
      obtain rfl := Option.some.inj h
      cases fraction with
      | nil => exact absurd rfl hne
      | cons d fraction => rfl

theorem readClock_clockText {u : List ℕ} (h : ClockValid u) : readClock (clockText u) = some u := by
  have hsecond : ∀ {s : ℕ} {rest : List Char}, s < 60 →
      readDigits 2 (digits 2 s ++ rest) = some (s, rest) := fun hs =>
    readDigits_eq_some_iff.2 ⟨Nat.lt_trans hs (by decide), rfl⟩
  rcases u with _ | ⟨s, _ | ⟨d, fraction⟩⟩
  · rfl
  · have hread := @hsecond s ['Z'] (h.1 s rfl)
    simp [readClock, clockText, readChar, hread]
  · have hread := @hsecond s ('.' :: ((d :: fraction).map Nat.digitChar ++ ['Z'])) (h.1 s rfl)
    have hfraction : readFraction ((d :: fraction).map Nat.digitChar ++ ['Z']) =
        some (d :: fraction) :=
      readFraction_eq_some_iff.2 ⟨List.cons_ne_nil _ _, h.2, rfl⟩
    simp only [List.map_cons, List.cons_append] at hread hfraction
    simp [readClock, clockText, readChar, hread, hfraction]

theorem eq_text_of_readParts {cs : List Char} {p : Parts} (h : readParts cs = some p) :
    cs = p.text := by
  simp only [readParts, Option.bind_eq_bind, Option.bind_eq_some_iff, Prod.exists,
    readDigits_eq_some_iff, readChar_eq_some_iff] at h
  obtain ⟨year, _, ⟨-, rfl⟩, _, rfl, month, _, ⟨-, rfl⟩, _, rfl, day, _, ⟨-, rfl⟩, _, rfl, hour, _,
    ⟨-, rfl⟩, _, rfl, minute, _, ⟨-, rfl⟩, clock, hclock, hp⟩ := h
  obtain rfl := Option.some.inj hp
  rw [eq_clockText_of_readClock hclock]
  rfl

theorem readParts_text {p : Parts} (h : p.Valid) : readParts p.text = some p := by
  obtain ⟨hyear, hday, hhour, hminute, hclock⟩ := h
  have htwo : ∀ {n : ℕ} {rest : List Char}, n < 100 →
      readDigits 2 (digits 2 n ++ rest) = some (n, rest) := fun hn =>
    readDigits_eq_some_iff.2 ⟨hn, rfl⟩
  have hfour : ∀ {rest : List Char},
      readDigits 4 (digits 4 p.year ++ rest) = some (p.year, rest) :=
    readDigits_eq_some_iff.2 ⟨hyear, rfl⟩
  have hmonth := hday.month_le
  have hdays := Nat.le_trans hday.day_le (daysInMonth_le p.year p.month)
  simp only [readParts, Parts.text, hfour, htwo (show p.month < 100 by omega),
    htwo (show p.day < 100 by omega), htwo (show p.hour < 100 by omega),
    htwo (show p.minute < 100 by omega), readChar_cons, readClock_clockText hclock,
    Option.bind_eq_bind, Option.bind_some]

/-- **The reader** accepts exactly the texts of timestamps. -/
theorem read_eq_some_iff {cs : List Char} {t : Stamp} : read cs = some t ↔ cs = t.text := by
  unfold read
  constructor
  · intro h
    cases hparts : readParts cs with
    | none =>
      rw [hparts] at h
      cases h
    | some p =>
      rw [hparts] at h
      by_cases hvalid : p.Valid
      · simp only [hvalid, dite_true, Option.some.injEq] at h
        obtain rfl := h
        exact eq_text_of_readParts hparts
      · simp [hvalid] at h
  · rintro rfl
    rw [readParts_text t.valid]
    simp [t.valid]

end Timestamps
