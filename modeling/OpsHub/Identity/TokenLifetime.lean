import OpsHub.Identity.AccessTokens
import OpsHub.Lib.Durations
import OpsHub.RateLimit.RateLimitGuard

/-!
# The reported lifetime of an access token

`AuthService.parseExpiryToSeconds` reads `JWT_ACCESS_EXPIRY` for the `expiresIn` that a login
reports; the signer reads the same text by the grammar of `ms` for the `exp` of the token.  Both
compute in doubles.

* `parseExpiryToSeconds`, `timespan`: the two readers; a library signs `ByMs` if its `exp` is that
  of `timespan`;
* `parseExpiryToSeconds_short`, `parseExpiryToSeconds_of_not_short`: what is reported of a text
  that the signer accepts;
* `carries_iff`, `carries_quarter_iff`: which seconds are added without loss to every time;
* `reportsLifetime_iff`: the two agree if and only if the text is a number of seconds, minutes,
  hours or days in the short form that doubles are fine enough for, or stands for the fifteen
  minutes that are reported of every other text.
-/

namespace OpsHub

open Doubles

/-! ### The two readers -/

namespace AuthService

/-- The seconds in a unit that `parseExpiryToSeconds` knows. -/
def unitSeconds : Char → Option ℕ
  | 's' => some 1
  | 'm' => some 60
  | 'h' => some 3600
  | 'd' => some 86400
  | _ => none

/-- `/^(\d+)(s|m|h|d)$/`: the digits, and the seconds in the unit. -/
def matchExpiry (cs : List Char) : Option (List Char × ℕ) :=
  match cs.takeWhile Char.isDigit, cs.dropWhile Char.isDigit with
  | d :: ds, [unit] => (unitSeconds unit).map fun seconds => (d :: ds, seconds)
  | _, _ => none

/-- `parseExpiryToSeconds`. -/
def parseExpiryToSeconds (expiry : String) : ℚ :=
  match matchExpiry (jsTrim expiry.toList) with
  | some (digits, seconds) => double (double (digitsValue digits) * seconds)
  | none => Sessions.sessionRevokeTtl

end AuthService

namespace Jsonwebtoken

/-- `ms(text)`: the milliseconds; longer texts are refused. -/
def ms (text : String) : Option ℚ :=
  if 100 < text.length then none
  else (parseDuration text.toList).map DurationText.milliseconds

/-- `timespan`: the `exp` of a token that is issued at `iat`. -/
def timespan (expiresIn : String) (iat : ℕ) : Option ℤ :=
  (ms expiresIn).map fun milliseconds => ⌊double (iat + double (milliseconds / 1000))⌋

end Jsonwebtoken

/-- The last second in the range of `Date`. -/
def lastSecond : ℕ := 8640000000000

/-- The library reads an `expiresIn` by the grammar of `ms`. -/
def JwtLibrary.ByMs (lib : JwtLibrary) : Prop :=
  ∀ expiresIn iat, iat ≤ lastSecond → lib.timespan expiresIn iat = Jsonwebtoken.timespan expiresIn iat

namespace TokenLifetime

open AuthService Jsonwebtoken

/-! ### Agreement -/

/-- What a login reports is the time from `iat` to `exp`, whenever the signer accepts the text. -/
def ReportsLifetime (lib : JwtLibrary) (expiry : String) : Prop :=
  ∀ iat ≤ lastSecond, ∀ exp, lib.timespan expiry iat = some exp →
    parseExpiryToSeconds expiry = exp - iat

/-- The text is a number with one of the four units, in the short form, which makes so many
seconds. -/
def Short (expiry : String) (seconds : ℕ) : Prop :=
  ∃ digits unit k, expiry.toList = digits ++ [unit] ∧ digits ≠ [] ∧
    (∀ c ∈ digits, c.isDigit = true) ∧ unitSeconds unit = some k ∧ seconds = digitsValue digits * k

/-- The signer accepts the text, and reads these parts. -/
structure Reads (expiry : String) (t : DurationText) : Prop where
  length : expiry.length ≤ 100
  valid : t.Valid
  text : t.text = expiry.toList

/-- Doubles are fine enough for so many seconds, which the signer has as `c`: the sum with no time
is beyond `2 ^ 53`, and `c` is the same number, or one above it where the sums are below `2 ^ 52`. -/
structure Fine (seconds : ℕ) (c : ℚ) : Prop where
  sum_le : seconds + lastSecond ≤ 2 ^ 53
  le : seconds ≤ c
  eq_or : c = seconds ∨ seconds + lastSecond ≤ 2 ^ 52

/-- At least 900 seconds, and less than 901 by more than the sum with any time is rounded up. -/
def QuarterOfAnHour (c : ℚ) : Prop := 900 ≤ c ∧ c < 901 - 1 / 2048

/-- What a text has to be. -/
def Agreed (expiry : String) (c : ℚ) : Prop :=
  (∃ seconds, Short expiry seconds ∧ Fine seconds c) ∨
    (∀ seconds, ¬ Short expiry seconds) ∧ QuarterOfAnHour c

variable {expiry : String} {cs digits : List Char} {unit : Char} {t : DurationText}

theorem matchExpiry_eq_some_iff {seconds : ℕ} : matchExpiry cs = some (digits, seconds) ↔
    ∃ unit, cs = digits ++ [unit] ∧ digits ≠ [] ∧ (∀ c ∈ digits, c.isDigit = true) ∧
      unitSeconds unit = some seconds := by
  constructor
  · intro h
    unfold matchExpiry at h
    split at h
    · rename_i d ds unit htake hdrop
      obtain ⟨seconds', hunit, heq⟩ := Option.map_eq_some_iff.1 h
      obtain ⟨rfl, rfl⟩ := Prod.mk.inj heq
      refine ⟨unit, ?_, List.cons_ne_nil _ _, fun c hc => ?_, hunit⟩
      · rw [← htake, ← hdrop, List.takeWhile_append_dropWhile]
      · exact List.mem_takeWhile_imp (htake ▸ hc)
    · cases h
  · rintro ⟨unit, rfl, hne, hdigits, hunit⟩
    have hstop : ∀ c ∈ [unit].head?, c.isDigit = false := by
      intro c hc
      obtain rfl := Option.some.inj hc
      unfold unitSeconds at hunit
      split at hunit
      all_goals first | decide | cases hunit
    obtain ⟨htake, hdrop⟩ := takeWhile_dropWhile_append hdigits hstop
    obtain ⟨d, ds, rfl⟩ := List.exists_cons_of_ne_nil hne
    simp only [matchExpiry, htake, hdrop, hunit, Option.map_some]

/-- The units of the short form are units of the grammar, too. -/
theorem unitSeconds_spec {k : ℕ} (h : unitSeconds unit = some k) :
    1 ≤ k ∧ unit.isAlpha = true ∧ writtenUnit [unit] = some (1000 * k) := by
  unfold unitSeconds at h
  split at h
  all_goals first
    | cases h
      exact ⟨by decide, by decide, by decide⟩
    | cases h

/-! ### White space around a text -/

/-- What `trim` removes is white space. -/
theorem exists_jsTrim (cs : List Char) : ∃ before after, cs = before ++ jsTrim cs ++ after ∧
    (∀ c ∈ before, jsWhiteSpace c = true) ∧ ∀ c ∈ after, jsWhiteSpace c = true := by
  have hrest : (cs.dropWhile jsWhiteSpace).reverse =
      (cs.dropWhile jsWhiteSpace).reverse.takeWhile jsWhiteSpace ++ (jsTrim cs).reverse := by
    rw [jsTrim, List.reverse_reverse, List.takeWhile_append_dropWhile]
  refine ⟨cs.takeWhile jsWhiteSpace,
    ((cs.dropWhile jsWhiteSpace).reverse.takeWhile jsWhiteSpace).reverse, ?_,
    fun c hc => List.mem_takeWhile_imp hc,
    fun c hc => List.mem_takeWhile_imp (List.mem_reverse.1 hc)⟩
  have hsplit := congrArg List.reverse hrest
  rw [List.reverse_reverse, List.reverse_append, List.reverse_reverse] at hsplit
  rw [List.append_assoc, ← hsplit, List.takeWhile_append_dropWhile]

/-- A text that neither begins nor ends with white space is not changed. -/
theorem jsTrim_eq_self (hhead : ∀ c ∈ cs.head?, jsWhiteSpace c = false)
    (hlast : ∀ c ∈ cs.getLast?, jsWhiteSpace c = false) : jsTrim cs = cs := by
  obtain ⟨before, after, hcs, hbefore, hafter⟩ := exists_jsTrim cs
  have hnoBefore : before = [] := by
    cases before with
    | nil => rfl
    | cons c before =>
      have hc : cs.head? = some c := by rw [hcs]; rfl
      have hspace : jsWhiteSpace c = true := hbefore c List.mem_cons_self
      rw [hhead c hc] at hspace
      cases hspace
  have hnoAfter : after = [] := by
    rcases List.eq_nil_or_concat after with rfl | ⟨after', c, rfl⟩
    · rfl
    · have hc : cs.getLast? = some c := by
        rw [hcs, List.concat_eq_append, ← List.append_assoc, List.getLast?_concat]
      have hspace : jsWhiteSpace c = true := hafter c (by simp)
      rw [hlast c hc] at hspace
      cases hspace
  rw [hnoBefore, hnoAfter, List.nil_append, List.append_nil] at hcs
  exact hcs.symm

/-! ### Texts that the signer accepts -/

theorem jsWhiteSpace_eq_false_of_isAlpha {c : Char} (h : c.isAlpha = true) :
    jsWhiteSpace c = false := by
  have hletter := isAlpha_iff.1 h
  simp only [jsWhiteSpace, Bool.or_eq_false_iff, Bool.and_eq_false_iff, decide_eq_false_iff_not,
    beq_eq_false_iff_ne]
  omega

theorem jsWhiteSpace_eq_false_of_isDigit {c : Char} (h : c.isDigit = true) :
    jsWhiteSpace c = false := by
  have hbounds := isDigit_iff.1 h
  simp only [jsWhiteSpace, Bool.or_eq_false_iff, Bool.and_eq_false_iff, decide_eq_false_iff_not,
    beq_eq_false_iff_ne]
  omega

/-- The first character of a duration is no white space. -/
theorem jsWhiteSpace_head (h : t.Valid) : ∀ c ∈ t.text.head?, jsWhiteSpace c = false := by
  intro c hc
  rw [DurationText.text] at hc
  cases hnegative : t.negative with
  | true =>
    rw [hnegative, if_pos rfl] at hc
    obtain rfl : '-' = c := Option.some.inj hc
    decide
  | false =>
    obtain ⟨c', cs, hcons, hfirst⟩ := h.unsigned_cons
    rw [hnegative, if_neg (by decide), hcons] at hc
    obtain rfl : c' = c := Option.some.inj hc
    rcases hfirst with hdigit | rfl
    · exact jsWhiteSpace_eq_false_of_isDigit hdigit
    · decide

/-- A duration with a unit ends with a letter. -/
theorem exists_getLast?_text (hvalid : t.Valid) (hunit : t.unit ≠ []) :
    ∃ c, t.text.getLast? = some c ∧ c.isAlpha = true := by
  have hlast : t.text.getLast? = t.unit.getLast? := by
    have hunsigned : t.unsigned = t.whole ++ (DurationText.fractionText t.fraction ++
      List.replicate t.spaces ' ') ++ t.unit := by
      simp only [DurationText.unsigned, List.append_assoc]
    rw [DurationText.text, hunsigned]
    split
    · rw [← List.cons_append, List.getLast?_append_of_ne_nil _ hunit]
    · rw [List.getLast?_append_of_ne_nil _ hunit]
  refine ⟨t.unit.getLast hunit, ?_, ?_⟩
  · rw [hlast, List.getLast?_eq_some_getLast hunit]
  · exact isAlpha_of_writtenUnit hvalid.unit _ (List.getLast_mem hunit)

/-- Without a unit there is no letter. -/
theorem isAlpha_of_unit_eq_nil (hvalid : t.Valid) (hunit : t.unit = []) :
    ∀ c ∈ t.text, c.isAlpha = false := by
  have hdigit : ∀ c : Char, c.isDigit = true → c.isAlpha = false := by
    intro c hc
    cases halpha : c.isAlpha with
    | false => rfl
    | true =>
      rw [isDigit_eq_false_of_isAlpha halpha] at hc
      cases hc
  have hunsigned : ∀ c ∈ t.unsigned, c.isAlpha = false := by
    intro c hc
    rw [DurationText.unsigned, hunit, List.append_nil] at hc
    rcases List.mem_append.1 hc with hc | hc
    · exact hdigit c (hvalid.whole c hc)
    · rcases List.mem_append.1 hc with hc | hc
      · cases hfraction : t.fraction with
        | none =>
          rw [hfraction] at hc
          cases hc
        | some ds =>
          rw [hfraction] at hc
          rcases List.mem_cons.1 hc with rfl | hc
          · decide
          · exact hdigit c ((hvalid.fraction ds hfraction).2 c hc)
      · rw [List.eq_of_mem_replicate hc]
        decide
  intro c hc
  rw [DurationText.text] at hc
  split at hc
  · rcases List.mem_cons.1 hc with rfl | hc
    · decide
    · exact hunsigned c hc
  · exact hunsigned c hc

/-- A duration with a unit has no white space around it. -/
theorem jsTrim_text (hvalid : t.Valid) (hunit : t.unit ≠ []) : jsTrim t.text = t.text := by
  obtain ⟨c, hlast, hc⟩ := exists_getLast?_text hvalid hunit
  refine jsTrim_eq_self (jsWhiteSpace_head hvalid) fun c' hc' => ?_
  obtain rfl : c = c' := Option.some.inj (hlast.symm.trans hc')
  exact jsWhiteSpace_eq_false_of_isAlpha hc

/-- **What the login reads of a text that the signer accepts**: white space does not matter. -/
theorem matchExpiry_jsTrim (hvalid : t.Valid) (digits : List Char) (seconds : ℕ)
    (h : matchExpiry (jsTrim t.text) = some (digits, seconds)) : jsTrim t.text = t.text := by
  obtain ⟨unit, htrim, -, -, hseconds⟩ := matchExpiry_eq_some_iff.1 h
  have halpha := (unitSeconds_spec hseconds).2.1
  by_cases hunit : t.unit = []
  · obtain ⟨before, after, htext, -, -⟩ := exists_jsTrim t.text
    have hmem : unit ∈ t.text := by
      rw [htext, htrim]
      simp
    rw [isAlpha_of_unit_eq_nil hvalid hunit unit hmem] at halpha
    cases halpha
  · exact jsTrim_text hvalid hunit

/-! ### Sums in doubles -/

section Sums

variable {c x : ℚ} {n r seconds : ℕ}

theorem natCast_le_double (hn : n ≤ 2 ^ 53) (h : (n : ℚ) ≤ x) : (n : ℚ) ≤ double x := by
  have hmono := double_mono (Nat.cast_nonneg n) h
  rwa [double_natCast hn] at hmono

/-- `c` seconds are carried as `r` seconds: so much is between any time and the sum. -/
def Carries (c : ℚ) (r : ℕ) : Prop :=
  ∀ iat ≤ lastSecond, ⌊double (iat + c)⌋ = ((iat + r : ℕ) : ℤ)

theorem Carries.floor_eq (h : Carries c r) (hc : IsDouble c) : ⌊c⌋ = (r : ℤ) := by
  have hzero := h 0 (Nat.zero_le _)
  rwa [Nat.cast_zero, zero_add, Nat.zero_add, hc.double_eq] at hzero

/-- **A quarter of an hour** is carried exactly if it is not rounded up with the last times. -/
theorem carries_quarter_iff (hc : IsDouble c) : Carries c 900 ↔ QuarterOfAnHour c := by
  constructor
  · intro h
    have hfloor := (Int.floor_eq_iff.1 (h.floor_eq hc)).1
    refine ⟨by exact_mod_cast hfloor, ?_⟩
    by_contra hge
    have hround : double (8640000000901 - 1 / 2048) = 8640000000901 := by decide +kernel
    have hmono : double (8640000000901 - 1 / 2048) ≤ double ((lastSecond : ℚ) + c) := by
      refine double_mono (by norm_num) ?_
      rw [lastSecond]
      push_cast
      linarith
    have hlast := (Int.floor_eq_iff.1 (h lastSecond (Nat.le_refl _))).2
    rw [hround] at hmono
    rw [lastSecond] at hlast hmono
    push_cast at hlast hmono
    linarith
  · rintro ⟨hge, hlt⟩ iat hiat
    have hiat' : (iat : ℚ) ≤ 8640000000000 := by exact_mod_cast hiat
    have hsum : (0 : ℚ) ≤ iat + c := by linarith [(Nat.cast_nonneg iat : (0 : ℚ) ≤ iat)]
    rw [Int.floor_eq_iff]
    constructor
    · refine natCast_le_double ?_ ?_
      · rw [lastSecond] at hiat
        omega
      · push_cast
        linarith
    · have herror := (abs_le.1 (@abs_double_sub_le (iat + c) 42 hsum (by norm_num; linarith))).2
      norm_num at herror
      push_cast
      linarith

/-- Beyond `2 ^ 53` there are no odd doubles. -/
theorem not_carries_of_large (h : 2 ^ 53 < r + lastSecond) : ¬ Carries c r := by
  intro hcarries
  have hlast : 0 < lastSecond := by decide
  obtain ⟨iat, hiat, hlarge, hodd⟩ : ∃ iat ≤ lastSecond, 2 ^ 53 ≤ iat + r ∧ (iat + r) % 2 = 1 := by
    rcases Nat.mod_two_eq_zero_or_one (r + lastSecond) with heven | hodd
    · exact ⟨lastSecond - 1, Nat.sub_le _ _, by omega, by omega⟩
    · exact ⟨lastSecond, Nat.le_refl _, by omega, by omega⟩
  have hfloor := hcarries iat hiat
  have hle : ((iat + r : ℕ) : ℚ) ≤ double (iat + c) := by
    exact_mod_cast (Int.floor_eq_iff.1 hfloor).1
  have hsum : (2 : ℚ) ^ (52 + 1 : ℤ) ≤ double (iat + c) := by
    refine le_trans ?_ hle
    exact_mod_cast hlarge
  obtain ⟨j, hj⟩ := (isDouble_double _).exists_eq_mul hsum
  have heven : double (iat + c) = ((2 * j : ℤ) : ℚ) := by
    rw [hj]
    push_cast
    ring
  rw [heven, Int.floor_intCast] at hfloor
  omega

/-- Between `2 ^ 52` and `2 ^ 53`, a sum with a half is rounded to an even integer. -/
theorem not_carries_of_lt (hsum : 2 ^ 52 < seconds + lastSecond) (hc : IsDouble c)
    (h : (seconds : ℚ) < c) : ¬ Carries c seconds := by
  intro hcarries
  have hfloor := (Int.floor_eq_iff.1 (hcarries.floor_eq hc)).2
  rcases Nat.lt_or_ge seconds (2 ^ 52) with hlt | hge
  · -- the first sum that is odd, and above `2 ^ 52`
    have hseconds : 2 ^ 51 ≤ seconds := by
      rw [lastSecond] at hsum
      omega
    have hlarge : (2 : ℚ) ^ (52 + -1 : ℤ) ≤ c := by
      have hpow : (2 : ℚ) ^ (52 + -1 : ℤ) = (2 ^ 51 : ℕ) := by norm_num
      rw [hpow]
      exact (Nat.cast_le.2 hseconds).trans h.le
    obtain ⟨j, hj⟩ := hc.exists_eq_mul hlarge
    rw [zpow_neg_one] at hj
    have hhalf : (seconds : ℚ) + 1 / 2 ≤ c := by
      have hint : ((2 * seconds : ℕ) : ℤ) < j := by
        have hcast : ((2 * seconds : ℕ) : ℚ) < j := by
          push_cast
          linarith
        exact_mod_cast hcast
      have hcast : ((2 * seconds + 1 : ℕ) : ℚ) ≤ j := by exact_mod_cast hint
      push_cast at hcast
      linarith
    obtain ⟨iat, hiat⟩ : ∃ iat, iat + seconds = 2 ^ 52 + 1 :=
      ⟨2 ^ 52 + 1 - seconds, by omega⟩
    have hsumCast : (iat : ℚ) + seconds = 4503599627370497 := by exact_mod_cast hiat
    have hround : double (4503599627370497 + 1 / 2) = 4503599627370498 := by decide +kernel
    have hmono : double (4503599627370497 + 1 / 2) ≤ double (iat + c) :=
      double_mono (by norm_num) (by linarith)
    have hlast := (Int.floor_eq_iff.1 (hcarries iat (by omega))).2
    rw [hiat] at hlast
    rw [hround] at hmono
    push_cast at hlast
    linarith
  · have hlarge : (2 : ℚ) ^ (52 + 0 : ℤ) ≤ c := by
      refine le_trans ?_ h.le
      exact_mod_cast hge
    obtain ⟨j, hj⟩ := hc.exists_eq_mul hlarge
    rw [zpow_zero, mul_one] at hj
    rw [hj] at h hfloor
    have hint : (seconds : ℤ) < j := by exact_mod_cast h
    have hcast : ((seconds + 1 : ℤ) : ℚ) ≤ j := by exact_mod_cast hint
    push_cast at hcast hfloor
    linarith

/-- **Seconds of the short form** are carried exactly if doubles are fine enough for them. -/
theorem carries_iff (hc : IsDouble c) (hhalf : seconds + lastSecond ≤ 2 ^ 52 → c ≤ seconds + 1 / 2)
    (hsmall : seconds + lastSecond ≤ 2 ^ 53 → r = seconds)
    (hlarge : 2 ^ 53 < seconds + lastSecond → 2 ^ 53 < r + lastSecond) :
    Carries c r ↔ Fine seconds c := by
  rcases Nat.lt_or_ge (2 ^ 53) (seconds + lastSecond) with hgt | hle
  · refine iff_of_false (not_carries_of_large (hlarge hgt)) fun hfine => ?_
    exact Nat.not_le.2 hgt hfine.sum_le
  · obtain rfl := hsmall hle
    constructor
    · intro hcarries
      have hfloor : (r : ℚ) ≤ c := by
        exact_mod_cast (Int.floor_eq_iff.1 (hcarries.floor_eq hc)).1
      refine ⟨hle, hfloor, ?_⟩
      by_contra hneither
      obtain ⟨hne, hsum⟩ := not_or.1 hneither
      exact not_carries_of_lt (Nat.not_le.1 hsum) hc (lt_of_le_of_ne hfloor (Ne.symm hne)) hcarries
    · rintro ⟨-, hge, heq⟩ iat hiat
      have hsum : iat + r ≤ 2 ^ 53 := by omega
      rw [Int.floor_eq_iff]
      refine ⟨natCast_le_double hsum (by push_cast; linarith), ?_⟩
      rcases heq with heq | hsum
      · rw [heq, ← Nat.cast_add, double_natCast hsum]
        exact_mod_cast Nat.lt_succ_self (iat + r)
      · have hmono : double (iat + c) ≤ double ((iat + r : ℕ) + 1 / 2) := by
          refine double_mono ?_ ?_
          · linarith [(Nat.cast_nonneg iat : (0 : ℚ) ≤ iat), (Nat.cast_nonneg r : (0 : ℚ) ≤ r)]
          · push_cast
            linarith [hhalf hsum]
        rcases Nat.lt_or_ge (iat + r) (2 ^ 52) with hlt | hge
        · rw [double_natCast_add_half hlt] at hmono
          push_cast at hmono ⊢
          linarith
        · -- the last sum, with a half that is cut off
          have hlast : iat + r = 2 ^ 52 := by omega
          have hround : double (4503599627370496 + 1 / 2) = 4503599627370496 := by decide +kernel
          have hcast : ((iat + r : ℕ) : ℚ) = 4503599627370496 := by
            rw [hlast]
            norm_num
          rw [hcast, hround] at hmono
          push_cast at hcast ⊢
          linarith

end Sums

/-! ### The seconds of both -/

/-- The signer adds the seconds of the parts that it reads, without their fraction. -/
theorem timespan_eq_some_iff {iat : ℕ} {exp : ℤ} :
    timespan expiry iat = some exp ↔ ∃ t, Reads expiry t ∧ exp = ⌊double (iat + t.seconds)⌋ := by
  unfold timespan ms
  constructor
  · intro h
    split at h
    · cases h
    · rename_i hlength
      obtain ⟨milliseconds, hms, rfl⟩ := Option.map_eq_some_iff.1 h
      obtain ⟨t, ht, rfl⟩ := Option.map_eq_some_iff.1 hms
      obtain ⟨hvalid, htext⟩ := parseDuration_eq_some_iff.1 ht
      exact ⟨t, ⟨not_lt.1 hlength, hvalid, htext⟩, rfl⟩
  · rintro ⟨t, ht, rfl⟩
    rw [if_neg (not_lt.2 ht.length), parseDuration_eq_some_iff.2 ⟨ht.valid, ht.text⟩]
    rfl

/-- A text is read in one way. -/
theorem Reads.unique {t' : DurationText} (h : Reads expiry t) (hvalid : t'.Valid)
    (htext : t'.text = expiry.toList) : t = t' := by
  have hread := parseDuration_eq_some_iff.2 ⟨h.valid, h.text⟩
  rw [parseDuration_eq_some_iff.2 ⟨hvalid, htext⟩] at hread
  exact (Option.some.inj hread).symm

/-- The parts of a text in the short form. -/
def shortText (digits : List Char) (unit : Char) : DurationText := ⟨false, digits, none, 0, [unit]⟩

theorem valid_shortText {k : ℕ} (hne : digits ≠ []) (hdigits : ∀ c ∈ digits, c.isDigit = true)
    (hunit : unitSeconds unit = some k) : (shortText digits unit).Valid where
  whole := hdigits
  fraction ds hds := by cases hds
  number _ := hne
  unit := by
    show writtenUnit [unit] ≠ none
    rw [(unitSeconds_spec hunit).2.2]
    exact Option.some_ne_none _

/-- The signer's seconds of the short form. -/
theorem seconds_shortText {k : ℕ} (hunit : unitSeconds unit = some k) :
    (shortText digits unit).seconds =
      double (double (double (digitsValue digits) * (1000 * k : ℕ)) / 1000) := by
  have hnumber : (shortText digits unit).number = digitsValue digits := by
    show (digitsValue (digits ++ []) : ℚ) / 10 ^ 0 = _
    rw [List.append_nil, pow_zero, div_one]
  rw [DurationText.seconds, DurationText.milliseconds, hnumber]
  show double (double (_ * ((writtenUnit [unit]).getD 0 : ℕ)) / 1000) = _
  rw [(unitSeconds_spec hunit).2.2, Option.getD_some]

section Readings

variable {n k : ℕ}

/-- What a login reports of the short form is an integer, and up to `2 ^ 53` the right one. -/
theorem reported_spec (hk : 1 ≤ k) : ∃ r : ℕ, double (double n * k) = r ∧
    (n * k + lastSecond ≤ 2 ^ 53 → r = n * k) ∧
    (2 ^ 53 < n * k + lastSecond → 2 ^ 53 < r + lastSecond) := by
  have hn : n ≤ n * k := Nat.le_mul_of_pos_right n hk
  have hlast : 0 < lastSecond := by decide
  rcases Nat.lt_or_ge (2 ^ 53) (n * k) with hgt | hle
  · obtain ⟨m, hm, hlarge⟩ := exists_double_natCast n
    obtain ⟨r, hr, hlarge'⟩ := exists_double_natCast (m * k)
    refine ⟨r, by rw [hm, ← Nat.cast_mul, hr], fun h => by omega, fun _ => ?_⟩
    have hmk : 2 ^ 53 ≤ m * k := by
      rcases Nat.lt_or_ge n (2 ^ 53) with hlt | hge
      · -- the number is exact
        obtain rfl : n = m := by exact_mod_cast (double_natCast hlt.le).symm.trans hm
        exact hgt.le
      · exact Nat.le_trans (hlarge hge) (Nat.le_mul_of_pos_right m hk)
    have hr' := hlarge' hmk
    omega
  · refine ⟨n * k, ?_, fun _ => rfl, id⟩
    rw [double_natCast (Nat.le_trans hn hle), ← Nat.cast_mul, double_natCast hle]

/-- Below `2 ^ 52` the signer has at most half a second more. -/
theorem seconds_le (hk : 1 ≤ k) (h : n * k + lastSecond ≤ 2 ^ 52) :
    double (double (double n * (1000 * k : ℕ)) / 1000) ≤ (n * k : ℕ) + 1 / 2 := by
  have hn : n ≤ n * k := Nat.le_mul_of_pos_right n hk
  have hlast : 0 < lastSecond := by decide
  have hlt : n * k < 2 ^ 52 := by omega
  have hnonneg : (0 : ℚ) ≤ (n : ℚ) * (1000 * k : ℕ) := by positivity
  have hvalue : (n : ℚ) * (1000 * k : ℕ) = 1000 * (n * k : ℕ) := by
    push_cast
    ring
  have hbound : ((n * k : ℕ) : ℚ) < 2 ^ 52 := by exact_mod_cast hlt
  have herror := (abs_le.1 (@abs_double_sub_le _ 61 hnonneg (by
    rw [hvalue]
    norm_num at hbound ⊢
    linarith))).2
  rw [double_natCast (show n ≤ 2 ^ 53 by omega), ← double_natCast_add_half hlt]
  refine double_mono (div_nonneg (double_nonneg hnonneg) (by norm_num)) ?_
  rw [div_le_iff₀ (by norm_num)]
  rw [hvalue] at herror ⊢
  norm_num at herror
  push_cast
  linarith

/-- Up to `2 ^ 53` milliseconds the signer has the same seconds. -/
theorem seconds_eq (hk : 1 ≤ k) (h : 1000 * (n * k) ≤ 2 ^ 53) :
    double (double (double n * (1000 * k : ℕ)) / 1000) = (n * k : ℕ) := by
  have hn : n ≤ n * k := Nat.le_mul_of_pos_right n hk
  have hvalue : (n : ℚ) * (1000 * k : ℕ) = (1000 * (n * k) : ℕ) := by
    push_cast
    ring
  have hquotient : ((1000 * (n * k) : ℕ) : ℚ) / 1000 = (n * k : ℕ) := by
    push_cast
    ring
  rw [double_natCast (show n ≤ 2 ^ 53 by omega), hvalue, double_natCast h, hquotient,
    double_natCast (by omega)]

end Readings

/-- What a login reports of the short form. -/
theorem parseExpiryToSeconds_short {k : ℕ} (htext : expiry.toList = digits ++ [unit])
    (hne : digits ≠ []) (hdigits : ∀ c ∈ digits, c.isDigit = true)
    (hunit : unitSeconds unit = some k) :
    parseExpiryToSeconds expiry = double (double (digitsValue digits) * k) := by
  have hmatch : matchExpiry expiry.toList = some (digits, k) :=
    matchExpiry_eq_some_iff.2 ⟨unit, htext, hne, hdigits, hunit⟩
  have htrim : jsTrim expiry.toList = expiry.toList := by
    have hshort : (shortText digits unit).text = expiry.toList := htext.symm
    rw [← hshort]
    exact jsTrim_text (valid_shortText hne hdigits hunit) (List.cons_ne_nil unit [])
  rw [parseExpiryToSeconds, htrim, hmatch]

/-- Of any other text that the signer accepts, fifteen minutes are reported. -/
theorem parseExpiryToSeconds_of_not_short (hshort : ∀ seconds, ¬ Short expiry seconds)
    (h : Reads expiry t) : parseExpiryToSeconds expiry = 900 := by
  rw [parseExpiryToSeconds]
  cases hmatch : matchExpiry (jsTrim expiry.toList) with
  | none => rfl
  | some result =>
    obtain ⟨digits, k⟩ := result
    have htrim : jsTrim expiry.toList = expiry.toList := by
      rw [← h.text] at hmatch ⊢
      exact matchExpiry_jsTrim h.valid digits k hmatch
    rw [htrim] at hmatch
    obtain ⟨unit, hexpiry, hne, hdigits, hunit⟩ := matchExpiry_eq_some_iff.1 hmatch
    exact absurd ⟨digits, unit, k, hexpiry, hne, hdigits, hunit, rfl⟩ (hshort _)

/-! ### Agreement -/

/-- A text that is read is reported as it is carried. -/
theorem reports_iff_carries {lib : JwtLibrary} (hlib : lib.ByMs) (h : Reads expiry t) {r : ℕ}
    (hreported : parseExpiryToSeconds expiry = r) :
    ReportsLifetime lib expiry ↔ Carries t.seconds r := by
  refine forall₂_congr fun iat hiat => ?_
  have hspan : timespan expiry iat = some ⌊double (iat + t.seconds)⌋ :=
    timespan_eq_some_iff.2 ⟨t, h, rfl⟩
  simp only [hlib expiry iat hiat, hspan, Option.some.injEq, forall_eq', hreported]
  generalize ⌊double (iat + t.seconds)⌋ = exp
  constructor
  · intro heq
    have hcast : ((exp : ℤ) : ℚ) = ((iat + r : ℕ) : ℤ) := by
      push_cast
      linarith
    exact_mod_cast hcast
  · rintro rfl
    push_cast
    ring

/-- **The reported lifetime is the real one** if and only if the text has the short form, for
seconds that doubles are fine enough for, or stands for the fifteen minutes that are reported of
every other text. -/
theorem reportsLifetime_iff (lib : JwtLibrary) (hlib : lib.ByMs) (expiry : String) :
    ReportsLifetime lib expiry ↔ ∀ t, Reads expiry t → Agreed expiry t.seconds := by
  by_cases hread : ∃ t, Reads expiry t
  · obtain ⟨t, ht⟩ := hread
    have hone : (∀ t', Reads expiry t' → Agreed expiry t'.seconds) ↔ Agreed expiry t.seconds := by
      refine ⟨fun h => h t ht, fun h t' ht' => ?_⟩
      rwa [ht'.unique ht.valid ht.text]
    have hdouble : IsDouble t.seconds := isDouble_double _
    rw [hone]
    by_cases hshort : ∃ seconds, Short expiry seconds
    · obtain ⟨seconds, digits, unit, k, htext, hne, hdigits, hunit, rfl⟩ := hshort
      have hk := (unitSeconds_spec hunit).1
      obtain ⟨r, hr, hsmall, hlarge⟩ := @reported_spec (digitsValue digits) k hk
      have hreported := parseExpiryToSeconds_short htext hne hdigits hunit
      obtain rfl := ht.unique (valid_shortText hne hdigits hunit) htext.symm
      rw [reports_iff_carries hlib ht (hreported.trans hr),
        carries_iff hdouble (fun h => by rw [seconds_shortText hunit]; exact seconds_le hk h)
          hsmall hlarge]
      constructor
      · exact fun hfine => Or.inl ⟨_, ⟨digits, unit, k, htext, hne, hdigits, hunit, rfl⟩, hfine⟩
      · rintro (⟨seconds, ⟨digits', unit', k', htext', -, -, hunit', rfl⟩, hfine⟩ | ⟨hnone, -⟩)
        · -- there is one short form only
          obtain ⟨rfl, hlast⟩ := List.append_inj' (htext.symm.trans htext') rfl
          obtain rfl := (List.cons.inj hlast).1
          obtain rfl := Option.some.inj (hunit.symm.trans hunit')
          exact hfine
        · exact absurd ⟨digits, unit, k, htext, hne, hdigits, hunit, rfl⟩ (hnone _)
    · have hnone : ∀ seconds, ¬ Short expiry seconds := not_exists.1 hshort
      have hreported := parseExpiryToSeconds_of_not_short hnone ht
      rw [reports_iff_carries hlib ht (r := 900) (by rw [hreported]; norm_num),
        carries_quarter_iff hdouble, Agreed, or_iff_right (fun h => hshort ⟨_, h.choose_spec.1⟩),
        and_iff_right hnone]
  · refine iff_of_true (fun iat hiat exp hexp => ?_) fun t ht => absurd ⟨t, ht⟩ hread
    rw [hlib expiry iat hiat] at hexp
    obtain ⟨t, ht, -⟩ := timespan_eq_some_iff.1 hexp
    exact absurd ⟨t, ht⟩ hread

/-- Doubles are fine enough for all lifetimes up to `2 ^ 53` milliseconds. -/
theorem reportsLifetime_of_short {lib : JwtLibrary} (hlib : lib.ByMs) {seconds : ℕ}
    (hshort : Short expiry seconds) (hle : 1000 * seconds ≤ 2 ^ 53) : ReportsLifetime lib expiry := by
  refine (reportsLifetime_iff lib hlib expiry).2 fun t ht => Or.inl ⟨seconds, hshort, ?_⟩
  obtain ⟨digits, unit, k, htext, hne, hdigits, hunit, rfl⟩ := hshort
  obtain rfl := ht.unique (valid_shortText hne hdigits hunit) htext.symm
  have hc : (shortText digits unit).seconds = _ := seconds_shortText hunit
  rw [seconds_eq (unitSeconds_spec hunit).1 hle] at hc
  refine ⟨?_, hc.ge, Or.inl hc⟩
  rw [lastSecond]
  omega

/-- A token that the library has signed lives as long as is reported. -/
theorem reported_of_signAsync {lib : JwtLibrary} {env : JwtEnv} {now : Time} {claims : JwtClaims}
    {token : String} {payload : JwtPayload} (hreports : ReportsLifetime lib env.accessExpiry)
    (hnow : now / 1000 ≤ lastSecond)
    (h : signAsync lib (JwtModule.options env) now claims = some (token, payload)) :
    parseExpiryToSeconds env.accessExpiry = payload.exp - payload.iat := by
  obtain ⟨exp, hexp, rfl, -⟩ := AccessTokens.signAsync_eq_some_iff.1 h
  exact hreports _ hnow exp hexp

namespace Sample

/-- A library that reads by the grammar of `ms`. -/
def library : JwtLibrary := { AccessTokens.Sample.library [] with timespan := timespan }

theorem byMs_library : library.ByMs := fun _ _ _ => rfl

end Sample

/-- Fifteen minutes are reported of a text in the short form, and of one that stands for them. -/
theorem reportsLifetime_minutes :
    ReportsLifetime Sample.library "15m" ∧ ReportsLifetime Sample.library "900.5 secs" := by
  constructor
  · refine (reportsLifetime_iff Sample.library Sample.byMs_library "15m").2 fun t ht => ?_
    have hdigits : ∀ c ∈ ['1', '5'], c.isDigit = true := List.all_eq_true.1 rfl
    obtain rfl := ht.unique (valid_shortText (List.cons_ne_nil _ _) hdigits
      (show unitSeconds 'm' = some 60 from rfl)) rfl
    have hseconds : (shortText ['1', '5'] 'm').seconds = (900 : ℕ) := by decide +kernel
    refine Or.inl ⟨900, ⟨['1', '5'], 'm', 60, rfl, List.cons_ne_nil _ _, hdigits, rfl, rfl⟩, ?_⟩
    exact ⟨by decide, hseconds.ge, Or.inl hseconds⟩
  · refine (reportsLifetime_iff Sample.library Sample.byMs_library "900.5 secs").2 fun t ht => ?_
    have hread : parseDuration "900.5 secs".toList =
        some ⟨false, ['9', '0', '0'], some ['5'], 1, ['s', 'e', 'c', 's']⟩ := by decide +kernel
    obtain ⟨hvalid, htext⟩ := parseDuration_eq_some_iff.1 hread
    obtain rfl := ht.unique hvalid htext
    refine Or.inr ⟨?_, by decide +kernel, by decide +kernel⟩
    rintro seconds ⟨digits, unit, k, htext, -, hdigits, -, -⟩
    -- there is a point before the last character
    obtain ⟨hinit, -⟩ := List.append_inj'
      (show ['9', '0', '0', '.', '5', ' ', 's', 'e', 'c'] ++ ['s'] = digits ++ [unit] from htext) rfl
    exact absurd (hdigits '.' (hinit ▸ by decide)) (by decide)

/-- A week is reported as fifteen minutes, and so is a second more. -/
theorem not_reportsLifetime_week :
    ¬ ReportsLifetime Sample.library "1w" ∧ ¬ ReportsLifetime Sample.library "900.9999999s" := by
  constructor
  · intro h
    have hsame := h 0 (Nat.zero_le _) 604800 (by decide +kernel)
    exact absurd hsame (by decide +kernel)
  · intro h
    have hsame := h 1700000000 (by decide) 1700000901 (by decide +kernel)
    exact absurd hsame (by decide +kernel)

end TokenLifetime

end OpsHub
