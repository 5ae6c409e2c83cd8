import Mathlib.Data.List.Basic
import Mathlib.Tactic.Common
import OpsHub.Lib.Utf8

/-!
# UTF-16

The code units of a text, and its beginnings as they are stored in UTF-8.

* `units`, `units_of_lt`;
* `take`: some number of code units; of a pair that is cut, half is left, for which the replacement
  character is stored;
* `length_units_take_le`, `take_of_length_le`: what is left is not too long, and all that fits.
-/

namespace Utf16

/-- The code units of a character. -/
def units (c : Char) : List ℕ :=
  if c.toNat < 0x10000 then [c.toNat]
  else [0xd800 + (c.toNat - 0x10000) / 0x400, 0xdc00 + (c.toNat - 0x10000) % 0x400]

/-- The first code units of a text. -/
def take : ℕ → List Char → List Char
  | _, [] => []
  | n, c :: cs =>
    if (units c).length ≤ n then c :: take (n - (units c).length) cs
    else if n = 0 then []
    else [Utf8.replacement]

theorem units_of_lt {c : Char} (h : c.toNat < 0x10000) : units c = [c.toNat] := if_pos h

/-- **What is left is not too long.** -/
theorem length_units_take_le (n : ℕ) (cs : List Char) : ((take n cs).flatMap units).length ≤ n := by
  induction cs generalizing n with
  | nil => exact Nat.zero_le n
  | cons c cs ih =>
    rw [take]
    split
    · rename_i hfits
      have hrest := ih (n - (units c).length)
      rw [List.flatMap_cons, List.length_append]
      omega
    · split
      · exact Nat.zero_le n
      · rename_i hn
        exact Nat.pos_of_ne_zero hn

/-- **What fits is left as it is.** -/
theorem take_of_length_le {n : ℕ} {cs : List Char} (h : (cs.flatMap units).length ≤ n) :
    take n cs = cs := by
  induction cs generalizing n with
  | nil => rfl
  | cons c cs ih =>
    rw [List.flatMap_cons, List.length_append] at h
    have hfits : (units c).length ≤ n := by omega
    rw [take, if_pos hfits, ih (by omega)]

end Utf16
