import Mathlib.Data.List.Basic
import Mathlib.Data.Nat.Notation
import Mathlib.Tactic.Common

/-!
# JSON texts

Values, the text that `JSON.stringify` writes for a value, and the parser that `JSON.parse` is.
Numbers are those of any type with a notation (`NumberNotation`).

* `render`, `stringify`: the text of a value, without white space;
* `parseValue`, `parse`: the parser, on fuel, of which the length of the text is enough;
* `parse_stringify`: the text of a value is read as that value;
* `stringify_ne_empty`: no text is empty.
-/

/-- A JSON value; the members of an object stand in their order. -/
inductive Json (ν : Type)
  | null
  | bool (b : Bool)
  | num (n : ν)
  | str (s : String)
  | arr (items : List (Json ν))
  | obj (members : List (String × Json ν))

/-- The characters of numbers. -/
def numeral (c : Char) : Bool :=
  c.isDigit || c == '-' || c == '+' || c == '.' || c == 'e' || c == 'E'

/-- How numbers are written and read. -/
class NumberNotation (ν : Type) where
  print : ν → List Char
  read : List Char → Option ν
  read_print : ∀ n, read (print n) = some n
  print_ne_nil : ∀ n, print n ≠ []
  numeral_of_mem : ∀ n, ∀ c ∈ print n, numeral c = true

/-- Natural numbers in decimal notation. -/
instance : NumberNotation ℕ where
  print := Nat.toDigits 10
  read cs := if cs ≠ [] ∧ cs.all Char.isDigit = true then some (Nat.ofDigitChars 10 cs 0) else none
  read_print n := by
    have hdigits : (Nat.toDigits 10 n).all Char.isDigit = true :=
      List.all_eq_true.2 fun c hc => Nat.isDigit_of_mem_toDigits (by decide) (by decide) hc
    rw [if_pos ⟨Nat.toDigits_ne_nil, hdigits⟩, Nat.ofDigitChars_ten_toDigits]
  print_ne_nil _ := Nat.toDigits_ne_nil
  numeral_of_mem n c hc := by
    have hdigit : c.isDigit = true := Nat.isDigit_of_mem_toDigits (by decide) (by decide) hc
    simp [numeral, hdigit]

namespace Json

/-! ### Strings -/

/-- A hexadecimal digit. -/
def hexDigit (n : ℕ) : Char := if n < 10 then Char.ofNat (48 + n) else Char.ofNat (87 + n)

/-- The value of a hexadecimal digit. -/
def hexValue (c : Char) : Option ℕ :=
  if '0' ≤ c ∧ c ≤ '9' then some (c.toNat - 48)
  else if 'a' ≤ c ∧ c ≤ 'f' then some (c.toNat - 87)
  else if 'A' ≤ c ∧ c ≤ 'F' then some (c.toNat - 55)
  else none

/-- A character in a string: quotes, backslashes and control characters are escaped. -/
def escape (c : Char) : List Char :=
  if c = '"' then ['\\', '"']
  else if c = '\\' then ['\\', '\\']
  else if c = '\x08' then ['\\', 'b']
  else if c = '\x0c' then ['\\', 'f']
  else if c = '\n' then ['\\', 'n']
  else if c = '\r' then ['\\', 'r']
  else if c = '\t' then ['\\', 't']
  else if c.toNat < 32 then
    ['\\', 'u', '0', '0', hexDigit (c.toNat / 16), hexDigit (c.toNat % 16)]
  else [c]

/-- A string with its closing quote. -/
def renderString (s : List Char) : List Char := s.flatMap escape ++ ['"']

/-- Four hexadecimal digits. -/
def codeUnit : List Char → Option (ℕ × List Char)
  | a :: b :: c :: d :: rest => do
    let a ← hexValue a
    let b ← hexValue b
    let c ← hexValue c
    let d ← hexValue d
    pure (4096 * a + 256 * b + 16 * c + d, rest)
  | _ => none

/-- The second half of a pair of surrogates. -/
def lowSurrogate : List Char → Option (ℕ × List Char)
  | '\\' :: 'u' :: rest =>
    (codeUnit rest).filter fun unit => 0xDC00 ≤ unit.1 && unit.1 < 0xE000
  | _ => none

/-- The character after `\u`; a lone surrogate becomes the replacement character. -/
def unicodeEscape (cs : List Char) : Option (Char × List Char) :=
  (codeUnit cs).map fun unit =>
    if 0xD800 ≤ unit.1 ∧ unit.1 < 0xDC00 then
      match lowSurrogate unit.2 with
      | some low =>
        (Char.ofNat (0x10000 + (unit.1 - 0xD800) * 0x400 + (low.1 - 0xDC00)), low.2)
      | none => ('\uFFFD', unit.2)
    else if 0xDC00 ≤ unit.1 ∧ unit.1 < 0xE000 then ('\uFFFD', unit.2)
    else (Char.ofNat unit.1, unit.2)

/-- The character after a backslash. -/
def parseEscape : List Char → Option (Char × List Char)
  | [] => none
  | e :: rest =>
    if e = '"' ∨ e = '\\' ∨ e = '/' then some (e, rest)
    else if e = 'b' then some ('\x08', rest)
    else if e = 'f' then some ('\x0c', rest)
    else if e = 'n' then some ('\n', rest)
    else if e = 'r' then some ('\r', rest)
    else if e = 't' then some ('\t', rest)
    else if e = 'u' then unicodeEscape rest
    else none

/-- A string after its opening quote. -/
def parseString : ℕ → List Char → Option (List Char × List Char)
  | 0, _ => none
  | _ + 1, [] => none
  | n + 1, c :: rest =>
    if c = '"' then some ([], rest)
    else if c = '\\' then
      (parseEscape rest).bind fun x => (parseString n x.2).map fun s => (x.1 :: s.1, s.2)
    else if c.toNat < 32 then none
    else (parseString n rest).map fun s => (c :: s.1, s.2)

theorem hexValue_hexDigit : ∀ n, n < 16 → hexValue (hexDigit n) = some n := by decide

/-- One character is read as it has been written. -/
theorem parseString_escape (c : Char) (n : ℕ) (rest : List Char) :
    parseString (n + 1) (escape c ++ rest) =
      (parseString n rest).map fun s => (c :: s.1, s.2) := by
  by_cases hquote : c = '"'
  · subst hquote
    rfl
  by_cases hslash : c = '\\'
  · subst hslash
    rfl
  by_cases hbackspace : c = '\x08'
  · subst hbackspace
    rfl
  by_cases hfeed : c = '\x0c'
  · subst hfeed
    rfl
  by_cases hline : c = '\n'
  · subst hline
    rfl
  by_cases hreturn : c = '\r'
  · subst hreturn
    rfl
  by_cases htab : c = '\t'
  · subst htab
    rfl
  rw [escape, if_neg hquote, if_neg hslash, if_neg hbackspace, if_neg hfeed, if_neg hline,
    if_neg hreturn, if_neg htab]
  by_cases hcontrol : c.toNat < 32
  · rw [if_pos hcontrol]
    have hhigh := hexValue_hexDigit (c.toNat / 16) (by omega)
    have hlow := hexValue_hexDigit (c.toNat % 16) (by omega)
    have hzero : hexValue '0' = some 0 := by decide
    have hn : 4096 * 0 + 256 * 0 + 16 * (c.toNat / 16) + c.toNat % 16 = c.toNat := by omega
    have hunit : codeUnit ('0' :: '0' :: hexDigit (c.toNat / 16) :: hexDigit (c.toNat % 16) :: rest) =
        some (c.toNat, rest) := by
      simp only [codeUnit, hzero, hhigh, hlow, Option.bind_eq_bind, Option.bind_some, hn]
      rfl
    simp only [List.cons_append, List.nil_append, parseString, parseEscape, unicodeEscape, hunit]
    simp [show ¬ 0xD800 ≤ c.toNat by omega, show ¬ 0xDC00 ≤ c.toNat by omega, Char.ofNat_toNat]
  · simp only [if_neg hcontrol, List.singleton_append, parseString, if_neg hquote, if_neg hslash]

/-- Nothing is written as the empty text. -/
theorem escape_ne_nil (c : Char) : escape c ≠ [] := by
  intro hnil
  have hread := parseString_escape c 1 ['"']
  rw [hnil] at hread
  cases hread

/-- A string is read as it has been written. -/
theorem parseString_render (s : List Char) {n : ℕ} (hn : s.length < n) (rest : List Char) :
    parseString n (renderString s ++ rest) = some (s, rest) := by
  induction s generalizing n with
  | nil =>
    obtain ⟨n, rfl⟩ := Nat.exists_eq_succ_of_ne_zero (Nat.ne_of_gt hn)
    simp [renderString, parseString]
  | cons c s ih =>
    obtain ⟨n, rfl⟩ := Nat.exists_eq_succ_of_ne_zero (Nat.ne_of_gt (Nat.zero_lt_of_lt hn))
    have htail := ih (Nat.lt_of_succ_lt_succ hn)
    simp only [renderString, List.flatMap_cons, List.append_assoc] at htail ⊢
    rw [parseString_escape, htail]
    rfl

theorem length_lt_renderString (s : List Char) : s.length < (renderString s).length := by
  induction s with
  | nil => decide
  | cons c s ih =>
    have hpos : 0 < (escape c).length := List.length_pos_iff.2 (escape_ne_nil c)
    simp only [renderString, List.flatMap_cons, List.length_append, List.length_cons] at ih ⊢
    omega

/-! ### Values -/

section Values

variable {ν : Type} [NumberNotation ν]

mutual

/-- The text of a value. -/
def render : Json ν → List Char
  | .null => ['n', 'u', 'l', 'l']
  | .bool true => ['t', 'r', 'u', 'e']
  | .bool false => ['f', 'a', 'l', 's', 'e']
  | .num n => NumberNotation.print n
  | .str s => '"' :: renderString s.toList
  | .arr items => '[' :: renderItems items
  | .obj members => '\x7b' :: renderMembers members

/-- The items of an array with its closing bracket. -/
def renderItems : List (Json ν) → List Char
  | [] => [']']
  | [v] => render v ++ [']']
  | v :: w :: items => render v ++ ',' :: renderItems (w :: items)

/-- The members of an object with its closing brace. -/
def renderMembers : List (String × Json ν) → List Char
  | [] => ['\x7d']
  | [(k, v)] => '"' :: renderString k.toList ++ ':' :: render v ++ ['\x7d']
  | (k, v) :: m :: members =>
    '"' :: renderString k.toList ++ ':' :: render v ++ ',' :: renderMembers (m :: members)

end

/-- White space between tokens. -/
def whiteSpace (c : Char) : Bool := c == ' ' || c == '\t' || c == '\n' || c == '\r'

/-- The text after white space. -/
def skip (cs : List Char) : List Char := cs.dropWhile whiteSpace

/-- A number. -/
def parseNumber (cs : List Char) : Option (Json ν × List Char) :=
  (NumberNotation.read (cs.takeWhile numeral)).map fun n => (.num n, cs.dropWhile numeral)

mutual

/-- A value, and what follows it. -/
def parseValue : ℕ → List Char → Option (Json ν × List Char)
  | 0, _ => none
  | n + 1, cs =>
    match skip cs with
    | 'n' :: 'u' :: 'l' :: 'l' :: rest => some (.null, rest)
    | 't' :: 'r' :: 'u' :: 'e' :: rest => some (.bool true, rest)
    | 'f' :: 'a' :: 'l' :: 's' :: 'e' :: rest => some (.bool false, rest)
    | '"' :: rest => (parseString n rest).map fun s => (.str (String.ofList s.1), s.2)
    | '[' :: rest =>
      match skip rest with
      | ']' :: rest' => some (.arr [], rest')
      | _ => (parseItems n rest).map fun l => (.arr l.1, l.2)
    | '\x7b' :: rest =>
      match skip rest with
      | '\x7d' :: rest' => some (.obj [], rest')
      | _ => (parseMembers n rest).map fun l => (.obj l.1, l.2)
    | rest => parseNumber rest

/-- The items of an array that is not empty, after its opening bracket. -/
def parseItems : ℕ → List Char → Option (List (Json ν) × List Char)
  | 0, _ => none
  | n + 1, cs =>
    (parseValue n cs).bind fun v =>
      match skip v.2 with
      | ',' :: rest => (parseItems n rest).map fun l => (v.1 :: l.1, l.2)
      | ']' :: rest => some ([v.1], rest)
      | _ => none

/-- The members of an object that is not empty, after its opening brace. -/
def parseMembers : ℕ → List Char → Option (List (String × Json ν) × List Char)
  | 0, _ => none
  | n + 1, cs =>
    match skip cs with
    | '"' :: rest =>
      (parseString n rest).bind fun k =>
        match skip k.2 with
        | ':' :: rest' =>
          (parseValue n rest').bind fun v =>
            match skip v.2 with
            | ',' :: rest'' =>
              (parseMembers n rest'').map fun l => ((String.ofList k.1, v.1) :: l.1, l.2)
            | '\x7d' :: rest'' => some ([(String.ofList k.1, v.1)], rest'')
            | _ => none
        | _ => none
    | _ => none

end

/-- The text of a value, as `JSON.stringify` writes it. -/
def stringify (v : Json ν) : String := String.ofList (render v)

/-- The value of a text that is one value, as `JSON.parse` reads it. -/
def parse (text : String) : Option (Json ν) :=
  match parseValue (text.toList.length + 1) text.toList with
  | some (v, rest) => if skip rest = [] then some v else none
  | none => none

/-! ### Reading what has been written -/

theorem skip_cons {c : Char} (h : whiteSpace c = false) (cs : List Char) :
    skip (c :: cs) = c :: cs := List.dropWhile_cons_of_neg (by simp [h])

/-- A numeral is no other token. -/
theorem numeral_ne {c : Char} (h : numeral c = true) :
    whiteSpace c = false ∧ c ≠ 'n' ∧ c ≠ 't' ∧ c ≠ 'f' ∧ c ≠ '"' ∧ c ≠ '[' ∧ c ≠ ']' ∧
      c ≠ '\x7b' ∧ c ≠ '\x7d' := by
  refine ⟨?_, ?_, ?_, ?_, ?_, ?_, ?_, ?_, ?_⟩
  · by_contra hspace
    simp only [whiteSpace, Bool.not_eq_false, Bool.or_eq_true, beq_iff_eq] at hspace
    rcases hspace with ((rfl | rfl) | rfl) | rfl <;> exact absurd h (by decide)
  all_goals
    rintro rfl
    exact absurd h (by decide)

/-- The text of a value begins with a character that is neither white space nor a bracket that
closes. -/
theorem render_eq_cons (v : Json ν) :
    ∃ c cs, render v = c :: cs ∧ whiteSpace c = false ∧ c ≠ ']' ∧ c ≠ '\x7d' := by
  cases v with
  | null => exact ⟨_, _, rfl, by decide⟩
  | bool b => cases b <;> exact ⟨_, _, rfl, by decide⟩
  | str s => exact ⟨_, _, rfl, by decide⟩
  | arr items => exact ⟨_, _, rfl, by decide⟩
  | obj members => exact ⟨_, _, rfl, by decide⟩
  | num n =>
    obtain ⟨c, cs, hprint⟩ := List.exists_cons_of_ne_nil (NumberNotation.print_ne_nil n)
    have hnumeral := numeral_ne (NumberNotation.numeral_of_mem n c (hprint ▸ List.mem_cons_self))
    exact ⟨c, cs, hprint, hnumeral.1, hnumeral.2.2.2.2.2.2.1, hnumeral.2.2.2.2.2.2.2.2⟩

theorem length_render_pos (v : Json ν) : 0 < (render v).length := by
  obtain ⟨c, cs, h, -⟩ := render_eq_cons v
  rw [h]
  exact Nat.succ_pos _

/-- The text after a number does not go on with the number. -/
def Ends (rest : List Char) : Prop := ∀ c ∈ rest.head?, numeral c = false

theorem ends_cons {c : Char} (h : numeral c = false) (rest : List Char) : Ends (c :: rest) := by
  intro d hd
  rwa [← Option.some.inj hd]

theorem parseNumber_print (n : ν) {rest : List Char} (h : Ends rest) :
    parseNumber (NumberNotation.print n ++ rest) = some (.num n, rest) := by
  have hall : ∀ c ∈ NumberNotation.print n, numeral c = true := NumberNotation.numeral_of_mem n
  have htake : rest.takeWhile numeral = [] ∧ rest.dropWhile numeral = rest := by
    cases rest with
    | nil => exact ⟨rfl, rfl⟩
    | cons c cs => simp [h c rfl]
  rw [parseNumber, List.takeWhile_append_of_pos hall, List.dropWhile_append_of_pos hall, htake.1,
    htake.2, List.append_nil, NumberNotation.read_print]
  rfl

/-- A number is read by the last branch. -/
theorem parseValue_print (n : ν) (k : ℕ) {rest : List Char} (h : Ends rest) :
    parseValue (k + 1) (NumberNotation.print n ++ rest) = some (.num n, rest) := by
  obtain ⟨c, cs, hprint⟩ := List.exists_cons_of_ne_nil (NumberNotation.print_ne_nil n)
  obtain ⟨hspace, h1, h2, h3, h4, h5, -, h6, -⟩ :=
    numeral_ne (NumberNotation.numeral_of_mem n c (hprint ▸ List.mem_cons_self))
  have hnumber := parseNumber_print n h
  rw [hprint, List.cons_append] at hnumber ⊢
  rw [parseValue, skip_cons hspace]
  split <;> simp_all

theorem renderItems_eq_cons (v : Json ν) (items : List (Json ν)) :
    ∃ c cs, renderItems (v :: items) = c :: cs ∧ whiteSpace c = false ∧ c ≠ ']' := by
  obtain ⟨c, cs, h, hspace, hne, -⟩ := render_eq_cons v
  cases items with
  | nil => exact ⟨c, cs ++ [']'], by rw [renderItems, h]; rfl, hspace, hne⟩
  | cons w items => exact ⟨c, _, by rw [renderItems, h]; rfl, hspace, hne⟩

theorem renderMembers_eq_cons (m : String × Json ν) (members : List (String × Json ν)) :
    ∃ cs, renderMembers (m :: members) = '"' :: cs := by
  cases members with
  | nil => exact ⟨_, rfl⟩
  | cons m' members => exact ⟨_, rfl⟩

/-- An array that is not empty. -/
theorem parseValue_arr {n : ℕ} {c : Char} {cs : List Char} (hspace : whiteSpace c = false)
    (hne : c ≠ ']') : parseValue (n + 1) ('[' :: c :: cs) =
      (parseItems (ν := ν) n (c :: cs)).map fun l => (.arr l.1, l.2) := by
  have hskip : skip ('[' :: c :: cs) = '[' :: c :: cs := skip_cons (by decide) _
  simp [parseValue, hskip, skip_cons hspace, hne]

/-- An object that is not empty. -/
theorem parseValue_obj {n : ℕ} {cs : List Char} :
    parseValue (n + 1) ('\x7b' :: '"' :: cs) =
      (parseMembers (ν := ν) n ('"' :: cs)).map fun l => (.obj l.1, l.2) := by
  simp [parseValue, skip, whiteSpace]

mutual

/-- **The round trip**: with as much fuel as the text is long, a value is read from its text. -/
theorem parseValue_render : ∀ (v : Json ν) (n : ℕ) (rest : List Char), (render v).length ≤ n →
    Ends rest → parseValue (n + 1) (render v ++ rest) = some (v, rest)
  | .null, n, rest, _, _ => by simp [render, parseValue, skip, whiteSpace]
  | .bool true, n, rest, _, _ => by simp [render, parseValue, skip, whiteSpace]
  | .bool false, n, rest, _, _ => by simp [render, parseValue, skip, whiteSpace]
  | .num m, n, rest, _, hrest => by
    rw [render]
    exact parseValue_print m n hrest
  | .str s, n, rest, hn, _ => by
    have hlength := length_lt_renderString s.toList
    simp only [render, List.length_cons] at hn
    have hstring := parseString_render s.toList (n := n) (by omega) rest
    simp [render, parseValue, skip, whiteSpace, hstring]
  | .arr [], n, rest, _, _ => by
    simp [render, renderItems, parseValue, skip, whiteSpace]
  | .arr (v :: items), n, rest, hn, _ => by
    simp only [render, List.length_cons] at hn
    obtain ⟨n, rfl⟩ := Nat.exists_eq_add_of_le' (Nat.le_of_add_left_le hn)
    have hitems := parseItems_render (v :: items) (List.cons_ne_nil v items) n rest (by omega)
    obtain ⟨c, cs, hcons, hspace, hne⟩ := renderItems_eq_cons v items
    rw [hcons, List.cons_append] at hitems
    rw [render, hcons, List.cons_append, List.cons_append, parseValue_arr hspace hne, hitems]
    rfl
  | .obj [], n, rest, _, _ => by
    simp [render, renderMembers, parseValue, skip, whiteSpace]
  | .obj ((k, v) :: members), n, rest, hn, _ => by
    simp only [render, List.length_cons] at hn
    obtain ⟨n, rfl⟩ := Nat.exists_eq_add_of_le' (Nat.le_of_add_left_le hn)
    have hmembers := parseMembers_render ((k, v) :: members) (List.cons_ne_nil _ _) n rest
      (by omega)
    obtain ⟨cs, hcons⟩ := renderMembers_eq_cons (k, v) members
    rw [hcons, List.cons_append] at hmembers
    rw [render, hcons, List.cons_append, List.cons_append, parseValue_obj, hmembers]
    rfl

theorem parseItems_render : ∀ (items : List (Json ν)), items ≠ [] → ∀ (n : ℕ) (rest : List Char),
    (renderItems items).length ≤ n →
    parseItems (n + 1) (renderItems items ++ rest) = some (items, rest)
  | [], hne, _, _, _ => absurd rfl hne
  | [v], _, n, rest, hn => by
    simp only [renderItems, List.length_append, List.length_singleton] at hn
    obtain ⟨n, rfl⟩ := Nat.exists_eq_add_of_le' (Nat.le_of_add_left_le hn)
    have hv := parseValue_render v n (']' :: rest) (by omega) (ends_cons (by decide) rest)
    rw [renderItems, List.append_assoc, List.singleton_append, parseItems, hv]
    simp [skip, whiteSpace]
  | v :: w :: items, _, n, rest, hn => by
    have hpos := length_render_pos v
    simp only [renderItems, List.length_append, List.length_cons] at hn
    obtain ⟨n, rfl⟩ := Nat.exists_eq_add_of_le' (show 1 ≤ n by omega)
    have hv := parseValue_render v n (',' :: (renderItems (w :: items) ++ rest)) (by omega)
      (ends_cons (by decide) _)
    have hitems := parseItems_render (w :: items) (List.cons_ne_nil w items) n rest (by omega)
    rw [renderItems, List.append_assoc, List.cons_append, parseItems, hv]
    simp [skip, whiteSpace, hitems]

theorem parseMembers_render : ∀ (members : List (String × Json ν)), members ≠ [] →
    ∀ (n : ℕ) (rest : List Char), (renderMembers members).length ≤ n →
    parseMembers (n + 1) (renderMembers members ++ rest) = some (members, rest)
  | [], hne, _, _, _ => absurd rfl hne
  | [(k, v)], _, n, rest, hn => by
    have hkey := length_lt_renderString k.toList
    simp only [renderMembers, List.length_append, List.length_cons, List.length_nil] at hn
    obtain ⟨n, rfl⟩ := Nat.exists_eq_add_of_le' (show 1 ≤ n by omega)
    have hk := parseString_render k.toList (n := n + 1) (by omega)
      (':' :: (render v ++ '\x7d' :: rest))
    have hv := parseValue_render v n ('\x7d' :: rest) (by omega) (ends_cons (by decide) rest)
    simp only [renderMembers, List.cons_append, List.append_assoc, List.nil_append]
    rw [parseMembers]
    simp [skip, whiteSpace, hk, hv]
  | (k, v) :: (k', w) :: members, _, n, rest, hn => by
    have hkey := length_lt_renderString k.toList
    simp only [renderMembers, List.length_append, List.length_cons] at hn
    obtain ⟨n, rfl⟩ := Nat.exists_eq_add_of_le' (show 1 ≤ n by omega)
    have hk := parseString_render k.toList (n := n + 1) (by omega)
      (':' :: (render v ++ ',' :: (renderMembers ((k', w) :: members) ++ rest)))
    have hv := parseValue_render v n (',' :: (renderMembers ((k', w) :: members) ++ rest)) (by omega)
      (ends_cons (by decide) _)
    have hmembers := parseMembers_render ((k', w) :: members) (List.cons_ne_nil _ _) n rest (by omega)
    simp only [renderMembers, List.cons_append, List.append_assoc]
    rw [parseMembers]
    simp [skip, whiteSpace, hk, hv, hmembers]

end

/-- **The text of a value is read as that value.** -/
theorem parse_stringify (v : Json ν) : parse (stringify v) = some v := by
  have hvalue := parseValue_render v (render v).length [] (Nat.le_refl _) (fun _ h => (nomatch h))
  rw [List.append_nil] at hvalue
  rw [parse, stringify, String.toList_ofList, hvalue]
  rfl

/-- **No text is empty.** -/
theorem stringify_ne_empty (v : Json ν) : stringify v ≠ "" := by
  intro h
  have hlength := congrArg (fun s : String => s.toList.length) h
  simp only [stringify, String.toList_ofList] at hlength
  exact absurd hlength (Nat.ne_of_gt (length_render_pos v))

end Values

end Json
