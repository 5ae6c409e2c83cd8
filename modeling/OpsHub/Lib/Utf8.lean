import Mathlib.Data.List.Basic
import Mathlib.Tactic.Common

/-!
# UTF-8

The decoder for bytes of any origin: where they are not UTF-8 it puts the replacement character, one
for as many bytes as could have been the beginning of a character.

* `Pending`, `start`, `step`: what the decoder expects, and what it does with a byte;
* `decode`: the characters of a list of bytes;
* `decode_bytes`: characters are read back from their bytes;
* `length_bytes_le_of_sublist`: what is left out of a text is missing from its bytes.
-/

namespace Utf8

/-- The bytes of a text. -/
def bytes (cs : List Char) : List UInt8 := cs.flatMap String.utf8EncodeChar

/-- U+FFFD. -/
def replacement : Char := Char.ofNat 0xfffd

/-- What is expected in the middle of a character: how many bytes, the bits so far, and the bounds of
the next byte. -/
structure Pending where
  needed : ℕ := 0
  bits : ℕ := 0
  lower : ℕ := 0x80
  upper : ℕ := 0xbf

/-- A byte at the beginning of a character. -/
def start (b : ℕ) : List Char × Pending :=
  if b < 0x80 then ([Char.ofNat b], {})
  else if 0xc2 ≤ b ∧ b ≤ 0xdf then ([], { needed := 1, bits := b - 0xc0 })
  else if 0xe0 ≤ b ∧ b ≤ 0xef then
    ([], { needed := 2, bits := b - 0xe0
           lower := if b = 0xe0 then 0xa0 else 0x80
           upper := if b = 0xed then 0x9f else 0xbf })
  else if 0xf0 ≤ b ∧ b ≤ 0xf4 then
    ([], { needed := 3, bits := b - 0xf0
           lower := if b = 0xf0 then 0x90 else 0x80
           upper := if b = 0xf4 then 0x8f else 0xbf })
  else ([replacement], {})

/-- Any byte; one that does not continue its character begins another. -/
def step (p : Pending) (b : ℕ) : List Char × Pending :=
  if p.needed = 0 then start b
  else if p.lower ≤ b ∧ b ≤ p.upper then
    if p.needed = 1 then ([Char.ofNat (p.bits * 64 + b % 64)], {})
    else ([], { needed := p.needed - 1, bits := p.bits * 64 + b % 64 })
  else (replacement :: (start b).1, (start b).2)

/-- The characters from some state of the decoder on. -/
def decodeFrom (p : Pending) : List UInt8 → List Char
  | [] => if p.needed = 0 then [] else [replacement]
  | b :: bs => (step p b.toNat).1 ++ decodeFrom (step p b.toNat).2 bs

/-- The characters of some bytes. -/
def decode (bs : List UInt8) : List Char := decodeFrom {} bs

/-! ### Whole characters -/

section Characters

variable {b n v : ℕ} {p : Pending} {bs : List UInt8}

theorem decodeFrom_ofNat (h : b < 256) :
    decodeFrom p (UInt8.ofNat b :: bs) = (step p b).1 ++ decodeFrom (step p b).2 bs := by
  rw [decodeFrom, UInt8.toNat_ofNat_of_lt' h]

/-- The byte that ends a character. -/
theorem step_last {bits lower upper : ℕ} (hlower : lower ≤ b) (hupper : b ≤ upper) :
    step ⟨1, bits, lower, upper⟩ b = ([Char.ofNat (bits * 64 + b % 64)], {}) := by
  simp [step, hlower, hupper]

/-- A byte in the middle of a character. -/
theorem step_middle {bits lower upper : ℕ} (hlower : lower ≤ b) (hupper : b ≤ upper) :
    step ⟨n + 2, bits, lower, upper⟩ b =
      ([], { needed := n + 1, bits := bits * 64 + b % 64 }) := by
  simp [step, hlower, hupper]

theorem decodeFrom_one (h : v < 0x80) :
    decodeFrom {} (UInt8.ofNat v :: bs) = Char.ofNat v :: decodeFrom {} bs := by
  rw [decodeFrom_ofNat (by omega)]
  simp [step, start, h]

theorem decodeFrom_two (hlow : 0x80 ≤ v) (hhigh : v ≤ 0x7ff) :
    decodeFrom {} (UInt8.ofNat (v / 64 % 0x20 + 0xc0) :: UInt8.ofNat (v % 0x40 + 0x80) :: bs) =
      Char.ofNat v :: decodeFrom {} bs := by
  have hstart : step {} (v / 64 % 0x20 + 0xc0) = ([], { needed := 1, bits := v / 64 }) := by
    have hnot : ¬ v / 64 % 0x20 + 0xc0 < 0x80 := by omega
    have hin : 0xc2 ≤ v / 64 % 0x20 + 0xc0 ∧ v / 64 % 0x20 + 0xc0 ≤ 0xdf := by omega
    have hbits : v / 64 % 0x20 + 0xc0 - 0xc0 = v / 64 := by omega
    rw [step, if_pos rfl, start, if_neg hnot, if_pos hin, hbits]
  have hvalue : v / 64 * 64 + (v % 0x40 + 0x80) % 64 = v := by omega
  rw [decodeFrom_ofNat (by omega), hstart, decodeFrom_ofNat (by omega),
    step_last (by omega) (by omega), hvalue]
  rfl

theorem decodeFrom_three (hlow : 0x800 ≤ v) (hhigh : v ≤ 0xffff)
    (hvalid : v < 0xd800 ∨ 0xdfff < v) :
    decodeFrom {} (UInt8.ofNat (v / 4096 % 0x10 + 0xe0) :: UInt8.ofNat (v / 64 % 0x40 + 0x80) ::
        UInt8.ofNat (v % 0x40 + 0x80) :: bs) = Char.ofNat v :: decodeFrom {} bs := by
  have hstart : step {} (v / 4096 % 0x10 + 0xe0) =
      ([], { needed := 2, bits := v / 4096
             lower := if v / 4096 % 0x10 + 0xe0 = 0xe0 then 0xa0 else 0x80
             upper := if v / 4096 % 0x10 + 0xe0 = 0xed then 0x9f else 0xbf }) := by
    have hnot : ¬ v / 4096 % 0x10 + 0xe0 < 0x80 := by omega
    have hnot' : ¬ (0xc2 ≤ v / 4096 % 0x10 + 0xe0 ∧ v / 4096 % 0x10 + 0xe0 ≤ 0xdf) := by omega
    have hin : 0xe0 ≤ v / 4096 % 0x10 + 0xe0 ∧ v / 4096 % 0x10 + 0xe0 ≤ 0xef := by omega
    have hbits : v / 4096 % 0x10 + 0xe0 - 0xe0 = v / 4096 := by omega
    rw [step, if_pos rfl, start, if_neg hnot, if_neg hnot', if_pos hin, hbits]
  have hvalue : (v / 4096 * 64 + (v / 64 % 0x40 + 0x80) % 64) * 64 + (v % 0x40 + 0x80) % 64 = v := by
    omega
  rw [decodeFrom_ofNat (by omega), hstart, decodeFrom_ofNat (by omega),
    step_middle (by split <;> omega) (by split <;> omega), decodeFrom_ofNat (by omega),
    step_last (by omega) (by omega), hvalue]
  rfl

theorem decodeFrom_four (hlow : 0x10000 ≤ v) (hhigh : v < 0x110000) :
    decodeFrom {} (UInt8.ofNat (v / 262144 % 0x08 + 0xf0) ::
        UInt8.ofNat (v / 4096 % 0x40 + 0x80) :: UInt8.ofNat (v / 64 % 0x40 + 0x80) ::
        UInt8.ofNat (v % 0x40 + 0x80) :: bs) = Char.ofNat v :: decodeFrom {} bs := by
  have hstart : step {} (v / 262144 % 0x08 + 0xf0) =
      ([], { needed := 3, bits := v / 262144
             lower := if v / 262144 % 0x08 + 0xf0 = 0xf0 then 0x90 else 0x80
             upper := if v / 262144 % 0x08 + 0xf0 = 0xf4 then 0x8f else 0xbf }) := by
    have hnot : ¬ v / 262144 % 0x08 + 0xf0 < 0x80 := by omega
    have hnot' : ¬ (0xc2 ≤ v / 262144 % 0x08 + 0xf0 ∧ v / 262144 % 0x08 + 0xf0 ≤ 0xdf) := by omega
    have hnot'' : ¬ (0xe0 ≤ v / 262144 % 0x08 + 0xf0 ∧ v / 262144 % 0x08 + 0xf0 ≤ 0xef) := by omega
    have hin : 0xf0 ≤ v / 262144 % 0x08 + 0xf0 ∧ v / 262144 % 0x08 + 0xf0 ≤ 0xf4 := by omega
    have hbits : v / 262144 % 0x08 + 0xf0 - 0xf0 = v / 262144 := by omega
    rw [step, if_pos rfl, start, if_neg hnot, if_neg hnot', if_neg hnot'', if_pos hin, hbits]
  have hvalue : ((v / 262144 * 64 + (v / 4096 % 0x40 + 0x80) % 64) * 64 +
      (v / 64 % 0x40 + 0x80) % 64) * 64 + (v % 0x40 + 0x80) % 64 = v := by omega
  rw [decodeFrom_ofNat (by omega), hstart, decodeFrom_ofNat (by omega),
    step_middle (by split <;> omega) (by split <;> omega), decodeFrom_ofNat (by omega),
    step_middle (by omega) (by omega), decodeFrom_ofNat (by omega),
    step_last (by omega) (by omega), hvalue]
  rfl

end Characters

/-- A character is read back from its bytes, whatever follows. -/
theorem decodeFrom_utf8EncodeChar (c : Char) (bs : List UInt8) :
    decodeFrom {} (String.utf8EncodeChar c ++ bs) = c :: decodeFrom {} bs := by
  have hvalid : c.val.toNat < 0xd800 ∨ 0xdfff < c.val.toNat ∧ c.val.toNat < 0x110000 := c.valid
  have hc : Char.ofNat c.val.toNat = c := Char.ofNat_toNat c
  unfold String.utf8EncodeChar
  dsimp only
  split
  · rw [List.singleton_append, decodeFrom_one (by omega), hc]
  · split
    · rw [List.cons_append, List.singleton_append, decodeFrom_two (by omega) (by omega), hc]
    · split
      · rw [List.cons_append, List.cons_append, List.singleton_append,
          decodeFrom_three (by omega) (by omega) (by omega), hc]
      · rw [List.cons_append, List.cons_append, List.cons_append, List.singleton_append,
          decodeFrom_four (by omega) (by omega), hc]

theorem decode_bytes (cs : List Char) : decode (bytes cs) = cs := by
  induction cs with
  | nil => rfl
  | cons c cs ih =>
    show decodeFrom {} (String.utf8EncodeChar c ++ bytes cs) = c :: cs
    rw [decodeFrom_utf8EncodeChar]
    exact congrArg (c :: ·) ih

/-! ### Lengths -/

theorem bytes_append (cs ds : List Char) : bytes (cs ++ ds) = bytes cs ++ bytes ds :=
  List.flatMap_append

theorem bytes_cons (c : Char) (cs : List Char) :
    bytes (c :: cs) = String.utf8EncodeChar c ++ bytes cs := rfl

theorem bytes_injective {cs ds : List Char} (h : bytes cs = bytes ds) : cs = ds := by
  rw [← decode_bytes cs, h, decode_bytes]

theorem length_bytes_cons (c : Char) (cs : List Char) :
    (bytes (c :: cs)).length = c.utf8Size + (bytes cs).length := by
  rw [bytes_cons, List.length_append, String.length_utf8EncodeChar]

theorem length_bytes_append (cs ds : List Char) :
    (bytes (cs ++ ds)).length = (bytes cs).length + (bytes ds).length := by
  rw [bytes_append, List.length_append]

/-- What is left out is missing. -/
theorem length_bytes_le_of_sublist {cs ds : List Char} (h : cs.Sublist ds) :
    (bytes cs).length ≤ (bytes ds).length ∧
      ((bytes cs).length = (bytes ds).length → cs = ds) := by
  induction h with
  | slnil => exact ⟨Nat.le_refl _, fun _ => rfl⟩
  | cons c _ ih =>
    have hpos := c.utf8Size_pos
    rw [length_bytes_cons]
    exact ⟨by omega, fun heq => by omega⟩
  | cons_cons c _ ih =>
    rw [length_bytes_cons, length_bytes_cons]
    exact ⟨by omega, fun heq => by rw [ih.2 (by omega)]⟩

end Utf8
