import Mathlib.Data.List.Basic
import Mathlib.Tactic.Common
import OpsHub.Lib.Utf16

/-!
# Base64 for URLs

Bytes as characters that stand for six bits each, without padding.  The decoder looks at the last
eight bits of each code unit, up to a `=`; it takes the alphabet of Base64 as well, and passes over
what is in neither.

* `digit`, `value`: the two alphabets;
* `sextets`, `octets`: bytes in groups of six bits, and back, `octets_sextets`;
* `readable`: what the decoder looks at;
* `encode`, `decode`, `decode_encode`;
* `White`, `decode_filter`: white space does not count;
* `urlSafe_of_mem_encode`: the characters of an encoded text stand for themselves in a URL.
-/

namespace Base64

/-- The character for six bits. -/
def digit (n : ℕ) : Char :=
  if n < 26 then Char.ofNat (65 + n)
  else if n < 52 then Char.ofNat (71 + n)
  else if n < 62 then Char.ofNat (n - 4)
  else if n = 62 then '-'
  else '_'

/-- The six bits of a character of either alphabet. -/
def value (c : Char) : Option ℕ :=
  if 'A' ≤ c ∧ c ≤ 'Z' then some (c.toNat - 65)
  else if 'a' ≤ c ∧ c ≤ 'z' then some (c.toNat - 71)
  else if '0' ≤ c ∧ c ≤ '9' then some (c.toNat + 4)
  else if c = '-' ∨ c = '+' then some 62
  else if c = '_' ∨ c = '/' then some 63
  else none

/-- Letters, digits, and the two signs that are not reserved in a URL. -/
def UrlSafe (c : Char) : Prop := c.isAlphanum = true ∨ c = '-' ∨ c = '_'

instance : DecidablePred UrlSafe := fun c =>
  inferInstanceAs (Decidable (c.isAlphanum = true ∨ c = '-' ∨ c = '_'))

theorem value_digit : ∀ n < 64, value (digit n) = some n := by decide

theorem urlSafe_digit : ∀ n < 64, UrlSafe (digit n) := by decide

/-- Bytes in groups of six bits; a last group that is not full is filled with zeros. -/
def sextets : List UInt8 → List ℕ
  | a :: b :: c :: rest =>
    a.toNat / 4 :: (a.toNat % 4 * 16 + b.toNat / 16) :: (b.toNat % 16 * 4 + c.toNat / 64) ::
      c.toNat % 64 :: sextets rest
  | [a, b] => [a.toNat / 4, a.toNat % 4 * 16 + b.toNat / 16, b.toNat % 16 * 4]
  | [a] => [a.toNat / 4, a.toNat % 4 * 16]
  | [] => []

/-- The whole bytes in groups of six bits. -/
def octets : List ℕ → List UInt8
  | p :: q :: r :: s :: rest =>
    UInt8.ofNat (p * 4 + q / 16) :: UInt8.ofNat (q % 16 * 16 + r / 4) ::
      UInt8.ofNat (r % 4 * 64 + s) :: octets rest
  | [p, q, r] => [UInt8.ofNat (p * 4 + q / 16), UInt8.ofNat (q % 16 * 16 + r / 4)]
  | [p, q] => [UInt8.ofNat (p * 4 + q / 16)]
  | _ => []

/-- The text of some bytes. -/
def encode (bs : List UInt8) : List Char := (sextets bs).map digit

/-- What the decoder looks at. -/
def readable (cs : List Char) : List Char :=
  ((cs.flatMap Utf16.units).map fun unit => Char.ofNat (unit % 256)).takeWhile fun c =>
    decide (c ≠ '=')

/-- The bytes of a text. -/
def decode (cs : List Char) : List UInt8 := octets ((readable cs).filterMap value)

/-- White space. -/
def White (c : Char) : Prop := c = ' ' ∨ c = '\t' ∨ c = '\n' ∨ c = '\r'

instance : DecidablePred White := fun c =>
  inferInstanceAs (Decidable (c = ' ' ∨ c = '\t' ∨ c = '\n' ∨ c = '\r'))

theorem sextets_lt (bs : List UInt8) : ∀ n ∈ sextets bs, n < 64 := by
  fun_induction sextets bs with
  | case1 a b c rest ih =>
    have ha := a.toNat_lt
    have hb := b.toNat_lt
    have hc := c.toNat_lt
    simp only [List.mem_cons, forall_eq_or_imp]
    exact ⟨by omega, by omega, by omega, by omega, ih⟩
  | case2 a b =>
    have ha := a.toNat_lt
    have hb := b.toNat_lt
    simp only [List.mem_cons, List.not_mem_nil, or_false, forall_eq_or_imp, forall_eq]
    omega
  | case3 a =>
    have ha := a.toNat_lt
    simp only [List.mem_cons, List.not_mem_nil, or_false, forall_eq_or_imp, forall_eq]
    omega
  | case4 => exact fun n hn => absurd hn List.not_mem_nil

/-- A byte is read back from a number that is equal to it. -/
theorem ofNat_eq {a : UInt8} {n : ℕ} (h : n = a.toNat) : UInt8.ofNat n = a := by
  rw [h, UInt8.ofNat_toNat]

/-- **The bytes come back.** -/
theorem octets_sextets (bs : List UInt8) : octets (sextets bs) = bs := by
  fun_induction sextets bs with
  | case1 a b c rest ih =>
    have ha := a.toNat_lt
    have hb := b.toNat_lt
    have hc := c.toNat_lt
    rw [octets, ofNat_eq (a := a) (by omega), ofNat_eq (a := b) (by omega),
      ofNat_eq (a := c) (by omega), ih]
  | case2 a b =>
    have ha := a.toNat_lt
    have hb := b.toNat_lt
    rw [octets, ofNat_eq (a := a) (by omega), ofNat_eq (a := b) (by omega)]
  | case3 a =>
    have ha := a.toNat_lt
    rw [octets, ofNat_eq (a := a) (by omega)]
  | case4 => rfl

theorem filterMap_value_digit {l : List ℕ} (h : ∀ n ∈ l, n < 64) :
    (l.map digit).filterMap value = l := by
  rw [List.filterMap_map]
  have hvalue : ∀ n ∈ l, (value ∘ digit) n = some n := fun n hn => value_digit n (h n hn)
  rw [List.filterMap_congr hvalue, List.filterMap_some]

theorem readable_cons {c : Char} (hbyte : c.toNat < 256) (hpad : c ≠ '=') (cs : List Char) :
    readable (c :: cs) = c :: readable cs := by
  have hunits : Utf16.units c = [c.toNat] := Utf16.units_of_lt (by omega)
  have hsame : Char.ofNat (c.toNat % 256) = c := by
    rw [Nat.mod_eq_of_lt hbyte]
    exact Char.ofNat_toNat c
  rw [readable, List.flatMap_cons, hunits, List.singleton_append, List.map_cons, hsame,
    List.takeWhile_cons_of_pos (by simpa using hpad), readable]

theorem readable_eq_self {cs : List Char} (h : ∀ c ∈ cs, c.toNat < 256 ∧ c ≠ '=') :
    readable cs = cs := by
  induction cs with
  | nil => rfl
  | cons c cs ih =>
    obtain ⟨hc, hcs⟩ := List.forall_mem_cons.1 h
    rw [readable_cons hc.1 hc.2, ih hcs]

theorem digit_readable : ∀ n < 64, (digit n).toNat < 256 ∧ digit n ≠ '=' := by decide

/-- **The round trip.** -/
theorem decode_encode (bs : List UInt8) : decode (encode bs) = bs := by
  have hreadable : readable (encode bs) = encode bs := by
    refine readable_eq_self fun c hc => ?_
    obtain ⟨n, hn, rfl⟩ := List.mem_map.1 hc
    exact digit_readable n (sextets_lt bs n hn)
  rw [decode, hreadable, encode, filterMap_value_digit (sextets_lt bs), octets_sextets]

/-- What is put in front of two texts does not make a difference. -/
theorem filterMap_readable_cons (c : Char) {cs ds : List Char}
    (h : (readable cs).filterMap value = (readable ds).filterMap value) :
    (readable (c :: cs)).filterMap value = (readable (c :: ds)).filterMap value := by
  unfold readable at h ⊢
  simp only [List.flatMap_cons, List.map_append, List.takeWhile_append]
  split
  · rw [List.filterMap_append, List.filterMap_append, h]
  · rfl

/-- **White space does not count.** -/
theorem decode_filter (cs : List Char) : decode (cs.filter fun c => ¬ White c) = decode cs := by
  unfold decode
  refine congrArg octets ?_
  induction cs with
  | nil => rfl
  | cons c cs ih =>
    by_cases hwhite : White c
    · have hskip : c.toNat < 256 ∧ c ≠ '=' ∧ value c = none := by
        rcases hwhite with rfl | rfl | rfl | rfl <;> decide
      rw [List.filter_cons_of_neg (by simpa using hwhite), readable_cons hskip.1 hskip.2.1,
        List.filterMap_cons_none hskip.2.2, ih]
    · rw [List.filter_cons_of_pos (by simpa using hwhite)]
      exact filterMap_readable_cons c ih

theorem urlSafe_of_mem_encode {bs : List UInt8} {c : Char} (h : c ∈ encode bs) : UrlSafe c := by
  obtain ⟨n, hn, rfl⟩ := List.mem_map.1 h
  exact urlSafe_digit n (sextets_lt bs n hn)

end Base64
