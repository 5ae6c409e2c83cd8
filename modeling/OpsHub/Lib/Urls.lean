import Mathlib.Data.List.Basic
import Mathlib.Data.List.DropRight
import Mathlib.Data.List.Infix
import Mathlib.Tactic.Common
import OpsHub.Lib.Json
import OpsHub.Lib.Utf8

/-!
# Paths of URLs

What a URL parser makes of the text of a URL over `http` or `https`: blanks at the ends are dropped,
and tabs and line breaks everywhere; the path ends at the first `?` or `#`; its segments are
separated by `/` or `\`; dot segments, which may be percent-encoded, are removed; and characters
outside a set are percent-encoded.

* `percentEncode`, `percentDecode`: bytes as `%41`, and back; a `%` that begins no byte is an error;
* `normalise`: the removal of dot segments, `normalise_eq_append` where there are none;
* `urlPath`: the path of a URL;
* `Plain`, `decodes_iff`: the texts that come back when the path of a URL is decoded.
-/

namespace Urls

open Json (hexValue)
open Utf8 (bytes bytes_injective length_bytes_cons length_bytes_append length_bytes_le_of_sublist)

/-! ### Percent encoding -/

/-- The characters of a path that are encoded. -/
def isEncoded (c : Char) : Bool :=
  decide (c.toNat ≤ 0x1F) || decide (0x7E < c.toNat) ||
    decide (c.toNat ∈ [0x20, 0x22, 0x23, 0x3C, 0x3E, 0x3F, 0x5E, 0x60, 0x7B, 0x7D])

def upperHex (n : ℕ) : Char := if n < 10 then Char.ofNat (48 + n) else Char.ofNat (55 + n)

/-- A byte as `%41`. -/
def encodeByte (b : UInt8) : List Char :=
  ['%', upperHex (b.toNat / 16), upperHex (b.toNat % 16)]

def encodeChar (c : Char) : List Char :=
  if isEncoded c then (String.utf8EncodeChar c).flatMap encodeByte else [c]

def percentEncode (cs : List Char) : List Char := cs.flatMap encodeChar

/-- The bytes that a text stands for. -/
def percentDecode : List Char → Option (List UInt8)
  | [] => some []
  | c :: cs =>
    if c = '%' then
      match cs with
      | a :: b :: rest => do
        let x ← hexValue a
        let y ← hexValue b
        let bs ← percentDecode rest
        some (UInt8.ofNat (16 * x + y) :: bs)
      | _ => none
    else (percentDecode cs).map (String.utf8EncodeChar c ++ ·)

theorem percentDecode_cons {c : Char} (h : c ≠ '%') (cs : List Char) :
    percentDecode (c :: cs) = (percentDecode cs).map (String.utf8EncodeChar c ++ ·) := by
  rw [percentDecode.eq_def]
  exact if_neg h

theorem percentDecode_percent (a b : Char) (rest : List Char) :
    percentDecode ('%' :: a :: b :: rest) = (hexValue a).bind fun x => (hexValue b).bind fun y =>
      (percentDecode rest).map (UInt8.ofNat (16 * x + y) :: ·) := by
  rw [percentDecode.eq_def]
  show (hexValue a).bind _ = _
  cases hexValue a with
  | none => rfl
  | some x =>
    cases hexValue b with
    | none => rfl
    | some y => cases percentDecode rest <;> rfl

theorem exists_of_percentDecode_percent {t : List Char} {bs : List UInt8}
    (h : percentDecode ('%' :: t) = some bs) : ∃ a b rest, t = a :: b :: rest := by
  rcases t with _ | ⟨a, _ | ⟨b, rest⟩⟩
  · cases h
  · cases h
  · exact ⟨a, b, rest, rfl⟩

theorem hexValue_upperHex : ∀ n < 16, hexValue (upperHex n) = some n := by decide

theorem percentDecode_encodeByte (b : UInt8) (rest : List Char) :
    percentDecode (encodeByte b ++ rest) = (percentDecode rest).map (b :: ·) := by
  have hlt := b.toNat_lt
  have hhigh := hexValue_upperHex (b.toNat / 16) (by omega)
  have hlow := hexValue_upperHex (b.toNat % 16) (by omega)
  have hbyte : UInt8.ofNat (16 * (b.toNat / 16) + b.toNat % 16) = b := by
    rw [Nat.div_add_mod]
    exact UInt8.ofNat_toNat
  rw [encodeByte, List.cons_append, List.cons_append, List.cons_append, List.nil_append,
    percentDecode_percent, hhigh, hlow, Option.bind_some, Option.bind_some, hbyte]

theorem percentDecode_encodeBytes (bs : List UInt8) (rest : List Char) :
    percentDecode (bs.flatMap encodeByte ++ rest) = (percentDecode rest).map (bs ++ ·) := by
  induction bs with
  | nil => simp
  | cons b bs ih =>
    rw [List.flatMap_cons, List.append_assoc, percentDecode_encodeByte, ih, Option.map_map]
    rfl

theorem percentDecode_encodeChar {c : Char} (h : c ≠ '%') (rest : List Char) :
    percentDecode (encodeChar c ++ rest) =
      (percentDecode rest).map (String.utf8EncodeChar c ++ ·) := by
  unfold encodeChar
  by_cases hencoded : isEncoded c = true
  · rw [if_pos hencoded, percentDecode_encodeBytes]
  · rw [if_neg hencoded, List.singleton_append, percentDecode_cons h]

/-- A text without `%` comes back. -/
theorem percentDecode_percentEncode {cs : List Char} (h : '%' ∉ cs) :
    percentDecode (percentEncode cs) = some (bytes cs) := by
  induction cs with
  | nil => rfl
  | cons c cs ih =>
    rw [List.mem_cons, not_or] at h
    rw [percentEncode, List.flatMap_cons, percentDecode_encodeChar (Ne.symm h.1), ← percentEncode,
      ih h.2]
    rfl

/-- Hexadecimal digits stand for themselves. -/
theorem eq_cons_of_percentEncode {cs t : List Char} {a : Char} {x : ℕ}
    (h : percentEncode cs = a :: t) (ha : hexValue a = some x) :
    ∃ ds, cs = a :: ds ∧ t = percentEncode ds := by
  cases cs with
  | nil => cases h
  | cons c cs =>
    rw [percentEncode, List.flatMap_cons, ← percentEncode, encodeChar] at h
    by_cases hencoded : isEncoded c = true
    · rw [if_pos hencoded] at h
      cases hbytes : String.utf8EncodeChar c with
      | nil => exact absurd hbytes String.utf8EncodeChar_ne_nil
      | cons b bs =>
        rw [hbytes, List.flatMap_cons, encodeByte] at h
        obtain ⟨rfl, -⟩ := List.cons.inj h
        cases ha
    · rw [if_neg hencoded] at h
      obtain ⟨rfl, rfl⟩ := List.cons.inj h
      exact ⟨cs, rfl, rfl⟩

/-- A `%` makes a text shorter, if it comes back at all. -/
theorem length_le_of_percentDecode {cs : List Char} {bs : List UInt8}
    (h : percentDecode (percentEncode cs) = some bs) :
    bs.length ≤ (bytes cs).length ∧ ('%' ∈ cs → bs.length < (bytes cs).length) := by
  induction hn : cs.length using Nat.strongRecOn generalizing cs bs with
  | ind n ih =>
    cases cs with
    | nil =>
      obtain rfl := Option.some.inj h
      exact ⟨Nat.le_refl _, fun hmem => by cases hmem⟩
    | cons c cs =>
      by_cases hc : c = '%'
      · subst hc
        have hpercent : percentEncode ('%' :: cs) = '%' :: percentEncode cs := rfl
        rw [hpercent] at h
        obtain ⟨a, b, rest, htail⟩ := exists_of_percentDecode_percent h
        rw [htail, percentDecode_percent] at h
        simp only [Option.bind_eq_some_iff, Option.map_eq_some_iff] at h
        obtain ⟨x, hx, y, hy, bs', hbs, rfl⟩ := h
        obtain ⟨ds, rfl, hds⟩ := eq_cons_of_percentEncode htail hx
        obtain ⟨es, rfl, rfl⟩ := eq_cons_of_percentEncode hds.symm hy
        have hlength : es.length < n := by
          simp only [List.length_cons] at hn
          omega
        have hle := (ih es.length hlength hbs rfl).1
        have ha := a.utf8Size_pos
        have hb := b.utf8Size_pos
        have hpos := ('%').utf8Size_pos
        rw [length_bytes_cons, length_bytes_cons, length_bytes_cons, List.length_cons]
        exact ⟨by omega, fun _ => by omega⟩
      · rw [percentEncode, List.flatMap_cons, percentDecode_encodeChar hc, ← percentEncode] at h
        obtain ⟨bs', hbs, rfl⟩ := Option.map_eq_some_iff.1 h
        have hlength : cs.length < n := by
          rw [List.length_cons] at hn
          omega
        obtain ⟨hle, hlt⟩ := ih cs.length hlength hbs rfl
        rw [length_bytes_cons, List.length_append, String.length_utf8EncodeChar]
        refine ⟨by omega, fun hmem => ?_⟩
        rcases List.mem_cons.1 hmem with heq | htail
        · exact absurd heq.symm hc
        · have := hlt htail
          omega

/-! ### Segments -/

def isSeparator (c : Char) : Bool := decide (c = '/' ∨ c = '\\')

/-- The segments of a path. -/
def segments (cs : List Char) : List (List Char) := cs.splitOnP isSeparator

/-- Segments as a path. -/
def join : List (List Char) → List Char
  | [] => []
  | [s] => s
  | s :: t :: segs => s ++ '/' :: join (t :: segs)

/-- `.`, also percent-encoded. -/
def singleDots : List (List Char) := [".", "%2e", "%2E"].map String.toList

/-- `..`, also percent-encoded. -/
def doubleDots : List (List Char) :=
  ["..", ".%2e", ".%2E", "%2e.", "%2E.", "%2e%2e", "%2e%2E", "%2E%2e", "%2E%2E"].map String.toList

def isSingleDot (s : List Char) : Bool := decide (s ∈ singleDots)

def isDoubleDot (s : List Char) : Bool := decide (s ∈ doubleDots)

/-- Remove the dot segments from the segments that follow some others. -/
def normalise : List (List Char) → List (List Char) → List (List Char)
  | path, [] => path
  | path, s :: segs =>
    if isDoubleDot s then
      if segs = [] then path.dropLast ++ [[]] else normalise path.dropLast segs
    else if isSingleDot s then if segs = [] then path ++ [[]] else normalise path segs
    else normalise (path ++ [s]) segs

/-- The segment is neither. -/
def isPlainSegment (s : List Char) : Bool := !isDoubleDot s && !isSingleDot s

/-- Dot segments begin with a dot or with `%`. -/
theorem isPlainSegment_of_head {s : List Char} (h : ∀ c ∈ s.head?, c ≠ '.' ∧ c ≠ '%') :
    isPlainSegment s = true := by
  have hdots : ∀ t ∈ singleDots ++ doubleDots, t.head? = some '.' ∨ t.head? = some '%' := by
    decide +kernel
  have hnot : s ∉ singleDots ++ doubleDots := by
    intro hmem
    rcases hdots s hmem with hdot | hpercent
    · exact (h '.' hdot).1 rfl
    · exact (h '%' hpercent).2 rfl
  rw [List.mem_append, not_or] at hnot
  rw [isPlainSegment, isDoubleDot, isSingleDot, decide_eq_false hnot.1, decide_eq_false hnot.2]
  rfl

/-- A path has a first segment. -/
theorem exists_segments_eq_cons (cs : List Char) : ∃ s segs, segments cs = s :: segs :=
  List.exists_cons_of_ne_nil (List.splitOnP_ne_nil isSeparator cs)

theorem segments_cons_of_isSeparator {c : Char} (hc : isSeparator c = true) (cs : List Char) :
    segments (c :: cs) = [] :: segments cs := by
  rw [segments, List.splitOnP_cons_eq_if_modifyHead, if_pos hc]
  rfl

/-- Any other character is put in front of the first segment. -/
theorem segments_cons {c : Char} (hc : isSeparator c = false) {cs s : List Char}
    {segs : List (List Char)} (h : segments cs = s :: segs) :
    segments (c :: cs) = (c :: s) :: segs := by
  rw [segments] at h
  rw [segments, List.splitOnP_cons_eq_if_modifyHead, hc, h]
  rfl

/-- A segment in front of a separator. -/
theorem segments_append_cons {s cs : List Char} {c : Char} (hs : ∀ d ∈ s, isSeparator d = false)
    (hc : isSeparator c = true) : segments (s ++ c :: cs) = s :: segments cs :=
  List.splitOnP_append_cons_of_forall_mem hs c hc cs

/-- A text in front of the first separator. -/
theorem segments_append {s cs : List Char} (hs : ∀ d ∈ s, isSeparator d = false) :
    segments (s ++ cs) = (segments cs).modifyHead (s ++ ·) := by
  induction s with
  | nil =>
    obtain ⟨t, segs, hsegs⟩ := exists_segments_eq_cons cs
    rw [List.nil_append, hsegs]
    rfl
  | cons d s ih =>
    rw [List.forall_mem_cons] at hs
    obtain ⟨t, segs, hsegs⟩ := exists_segments_eq_cons cs
    have htail := ih hs.2
    rw [hsegs, List.modifyHead_cons] at htail
    rw [List.cons_append, segments_cons hs.1 htail, hsegs]
    rfl

/-- Segments consist of characters of the text. -/
theorem mem_of_mem_segments {cs s : List Char} (hs : s ∈ segments cs) {c : Char} (hc : c ∈ s) :
    c ∈ cs := by
  induction cs generalizing s with
  | nil =>
    rw [List.mem_singleton.1 hs] at hc
    cases hc
  | cons d cs ih =>
    by_cases hd : isSeparator d = true
    · rw [segments_cons_of_isSeparator hd] at hs
      rcases List.mem_cons.1 hs with rfl | hs
      · cases hc
      · exact List.mem_cons_of_mem d (ih hs hc)
    · rw [Bool.not_eq_true] at hd
      obtain ⟨t, segs, hsegs⟩ := exists_segments_eq_cons cs
      rw [segments_cons hd hsegs] at hs
      rcases List.mem_cons.1 hs with rfl | hs
      · rcases List.mem_cons.1 hc with rfl | hc
        · exact List.mem_cons_self
        · exact List.mem_cons_of_mem d (ih (by rw [hsegs]; exact List.mem_cons_self) hc)
      · exact List.mem_cons_of_mem d (ih (by rw [hsegs]; exact List.mem_cons_of_mem t hs) hc)

theorem normalise_eq_append {segs : List (List Char)} (h : ∀ s ∈ segs, isPlainSegment s = true)
    (path : List (List Char)) : normalise path segs = path ++ segs := by
  induction segs generalizing path with
  | nil => simp [normalise]
  | cons s segs ih =>
    rw [List.forall_mem_cons] at h
    have hs := h.1
    rw [isPlainSegment, Bool.and_eq_true, Bool.not_eq_true', Bool.not_eq_true'] at hs
    rw [normalise, hs.1, hs.2, if_neg (by simp), if_neg (by simp), ih h.2, List.append_assoc]
    rfl

theorem normalise_ne_nil (path : List (List Char)) (s : List Char) (segs : List (List Char)) :
    normalise path (s :: segs) ≠ [] := by
  induction segs generalizing path s with
  | nil =>
    rw [normalise]
    split
    · simp
    · split <;> simp [normalise]
  | cons t segs ih =>
    rw [normalise]
    split
    · rw [if_neg (List.cons_ne_nil t segs)]
      exact ih _ _
    · split
      · rw [if_neg (List.cons_ne_nil t segs)]
        exact ih _ _
      · exact ih _ _

/-- The bytes of segments, each with its separator. -/
def weight (segs : List (List Char)) : ℕ := (bytes (segs.flatMap fun s => '/' :: s)).length

theorem weight_append (path segs : List (List Char)) :
    weight (path ++ segs) = weight path + weight segs := by
  rw [weight, List.flatMap_append, length_bytes_append]
  rfl

theorem weight_singleton (s : List Char) : weight [s] = 1 + (bytes s).length := by
  rw [weight, List.flatMap_singleton, length_bytes_cons]
  rfl

theorem weight_cons (s : List Char) (segs : List (List Char)) :
    weight (s :: segs) = 1 + (bytes s).length + weight segs := by
  rw [← List.singleton_append, weight_append, weight_singleton]

theorem weight_dropLast_le (path : List (List Char)) : weight path.dropLast ≤ weight path := by
  rcases List.eq_nil_or_concat path with rfl | ⟨path, s, rfl⟩
  · exact Nat.le_refl _
  · rw [List.concat_eq_append, List.dropLast_concat, weight_append]
    exact Nat.le_add_right _ _

theorem one_add_length_bytes_join (s : List Char) (segs : List (List Char)) :
    1 + (bytes (join (s :: segs))).length = weight (s :: segs) := by
  induction segs generalizing s with
  | nil => rw [join, weight_singleton]
  | cons t segs ih =>
    have hslash : ('/').utf8Size = 1 := by decide
    rw [join, length_bytes_append, length_bytes_cons, weight_cons, ← ih t, hslash]
    omega

/-- Dot segments are not empty. -/
theorem length_pos_of_dots {s : List Char} (h : isPlainSegment s = false) :
    0 < (bytes s).length := by
  cases s with
  | nil => cases h
  | cons c s =>
    rw [length_bytes_cons]
    have := c.utf8Size_pos
    omega

/-- Removing dot segments makes a path shorter. -/
theorem weight_normalise_le (path segs : List (List Char)) :
    weight (normalise path segs) ≤ weight path + weight segs ∧
      ((∃ s ∈ segs, isPlainSegment s = false) →
        weight (normalise path segs) < weight path + weight segs) := by
  induction segs generalizing path with
  | nil => simp [normalise, weight, bytes]
  | cons s segs ih =>
    have hdrop := weight_dropLast_le path
    have hempty : weight [[]] = 1 := rfl
    rw [weight_cons, normalise]
    by_cases hdouble : isDoubleDot s = true
    · have hpos := @length_pos_of_dots s (by simp [isPlainSegment, hdouble])
      rw [if_pos hdouble]
      by_cases hlast : segs = []
      · subst hlast
        rw [if_pos rfl, weight_append, hempty]
        exact ⟨by omega, fun _ => by omega⟩
      · have hle := (ih path.dropLast).1
        rw [if_neg hlast]
        exact ⟨by omega, fun _ => by omega⟩
    · rw [if_neg hdouble]
      by_cases hsingle : isSingleDot s = true
      · have hpos := @length_pos_of_dots s (by simp [isPlainSegment, hsingle])
        rw [if_pos hsingle]
        by_cases hlast : segs = []
        · subst hlast
          rw [if_pos rfl, weight_append, hempty]
          exact ⟨by omega, fun _ => by omega⟩
        · have hle := (ih path).1
          rw [if_neg hlast]
          exact ⟨by omega, fun _ => by omega⟩
      · rw [if_neg hsingle]
        obtain ⟨hle, hlt⟩ := ih (path ++ [s])
        rw [weight_append, weight_singleton] at hle hlt
        refine ⟨by omega, fun h => ?_⟩
        obtain ⟨t, ht, hdots⟩ := h
        rcases List.mem_cons.1 ht with rfl | htail
        · rw [isPlainSegment, Bool.and_eq_false_iff] at hdots
          simp [hdouble, hsingle] at hdots
        · have := hlt ⟨t, htail, hdots⟩
          omega

/-- Every separator becomes a slash. -/
theorem join_segments (cs : List Char) :
    join (segments cs) = cs.map fun c => if isSeparator c then '/' else c := by
  induction cs with
  | nil => rfl
  | cons c cs ih =>
    obtain ⟨s, segs, hsegs⟩ := exists_segments_eq_cons cs
    rw [List.map_cons, ← ih, hsegs]
    by_cases hc : isSeparator c = true
    · rw [if_pos hc, segments_cons_of_isSeparator hc, hsegs]
      rfl
    · rw [if_neg hc, segments_cons (Bool.eq_false_iff.2 hc) hsegs]
      cases segs <;> rfl

theorem length_bytes_join_segments (cs : List Char) :
    (bytes (join (segments cs))).length = (bytes cs).length := by
  rw [join_segments]
  induction cs with
  | nil => rfl
  | cons c cs ih =>
    rw [List.map_cons, length_bytes_cons, length_bytes_cons, ih]
    by_cases hc : isSeparator c = true
    · rw [if_pos hc]
      rcases of_decide_eq_true hc with rfl | rfl <;> rfl
    · rw [if_neg hc]

/-- A path without backslashes is that of its segments. -/
theorem join_segments_eq_self_iff {cs : List Char} : join (segments cs) = cs ↔ '\\' ∉ cs := by
  rw [join_segments]
  induction cs with
  | nil => simp
  | cons c cs ih =>
    rw [List.map_cons, List.cons.injEq, ih, List.mem_cons, not_or]
    refine and_congr_left fun _ => ?_
    by_cases hbackslash : c = '\\'
    · subst hbackslash
      exact iff_of_false (by decide) fun h => h rfl
    · by_cases hslash : c = '/'
      · subst hslash
        decide
      · simp [isSeparator, hslash, hbackslash, Ne.symm hbackslash]

theorem percentEncode_join (segs : List (List Char)) :
    join (segs.map percentEncode) = percentEncode (join segs) := by
  induction segs with
  | nil => rfl
  | cons s segs ih =>
    cases segs with
    | nil => rfl
    | cons t segs =>
      have hslash : encodeChar '/' = ['/'] := by decide
      rw [List.map_cons, List.map_cons, join, ← List.map_cons, ih, join, percentEncode,
        percentEncode, percentEncode, List.flatMap_append, List.flatMap_cons, hslash]
      rfl

/-! ### URLs -/

/-- A control character or a space. -/
def isBlank (c : Char) : Bool := decide (c.toNat ≤ 0x20)

/-- A tab or a line break. -/
def isTabOrNewline (c : Char) : Bool := decide (c = '\t' ∨ c = '\n' ∨ c = '\r')

/-- What a URL parser drops. -/
def clean (cs : List Char) : List Char :=
  ((cs.dropWhile isBlank).rdropWhile isBlank).filter fun c => !isTabOrNewline c

/-- The path ends. -/
def endsPath (c : Char) : Bool := decide (c = '?' ∨ c = '#')

/-- What follows the authority. -/
def afterAuthority (cs : List Char) : Option (List Char) :=
  if "https://".toList <+: cs then
    some ((cs.drop 8).dropWhile fun c => !(isSeparator c || endsPath c))
  else if "http://".toList <+: cs then
    some ((cs.drop 7).dropWhile fun c => !(isSeparator c || endsPath c))
  else none

/-- The path of a URL, as its segments. -/
def urlPath (url : List Char) : Option (List (List Char)) :=
  (afterAuthority (clean url)).map fun cs =>
    (normalise [] (segments ((cs.takeWhile fun c => !endsPath c).drop 1))).map percentEncode

/-- A scheme and an authority. -/
structure Origin where
  secure : Bool
  authority : List Char
  nonempty : authority ≠ []
  plain : ∀ c ∈ authority, isBlank c = false ∧ isSeparator c = false ∧ endsPath c = false

/-- The text of an origin. -/
def Origin.text (o : Origin) : List Char :=
  (if o.secure then "https://" else "http://").toList ++ o.authority

/-- The texts of paths that mean themselves. -/
structure Plain (cs : List Char) : Prop where
  chars : ∀ c ∈ cs, endsPath c = false ∧ isTabOrNewline c = false ∧ c ≠ '\\' ∧ c ≠ '%'
  last : ∀ c ∈ cs.getLast?, isBlank c = false
  segments : ∀ s ∈ segments cs, isPlainSegment s = true

/-- What is left of a path when its URL is read. -/
def readPath (cs : List Char) : List Char :=
  ((cs.rdropWhile isBlank).filter fun c => !isTabOrNewline c).takeWhile fun c => !endsPath c

theorem afterAuthority_origin (o : Origin) (cs : List Char) :
    afterAuthority (o.text ++ '/' :: cs) = some ('/' :: cs) := by
  have hslash : (!(isSeparator '/' || endsPath '/')) = false := rfl
  have hauthority : (o.authority ++ '/' :: cs).dropWhile
      (fun c => !(isSeparator c || endsPath c)) = '/' :: cs := by
    rw [List.dropWhile_append_of_pos fun c hc => by simp [(o.plain c hc).2],
      List.dropWhile_cons_of_neg (by simp [hslash])]
  unfold Origin.text
  cases o.secure with
  | true =>
    show afterAuthority ("https://".toList ++ o.authority ++ '/' :: cs) = _
    rw [List.append_assoc, afterAuthority, if_pos (List.prefix_append _ _)]
    exact congrArg some hauthority
  | false =>
    show afterAuthority ("http://".toList ++ o.authority ++ '/' :: cs) = _
    have hhttps : ¬ "https://".toList <+: "http://".toList ++ (o.authority ++ '/' :: cs) := by
      intro h
      have hfifth := h.take 5
      simp at hfifth
    rw [List.append_assoc, afterAuthority, if_neg hhttps, if_pos (List.prefix_append _ _)]
    exact congrArg some hauthority

/-- The end of a list is dropped up to an element that stays. -/
theorem rdropWhile_append_cons {p : Char → Bool} {x : Char} (hx : ¬ p x = true)
    (cs ds : List Char) : (cs ++ x :: ds).rdropWhile p = cs ++ x :: ds.rdropWhile p := by
  induction ds using List.reverseRecOn with
  | nil => rw [List.rdropWhile_concat_neg p cs x hx, List.rdropWhile_nil]
  | append_singleton ds d ih =>
    rw [← List.cons_append, ← List.append_assoc]
    by_cases hd : p d = true
    · rw [List.rdropWhile_concat_pos p _ d hd, List.rdropWhile_concat_pos p ds d hd, ih]
    · rw [List.rdropWhile_concat_neg p _ d hd, List.rdropWhile_concat_neg p ds d hd,
        List.append_assoc]
      rfl

theorem Origin.not_blank (o : Origin) : ∀ c ∈ o.text, isBlank c = false := by
  intro c hc
  rcases List.mem_append.1 hc with hscheme | hauthority
  · have hall : ∀ b : Bool, (if b then "https://" else "http://").toList.all
        (fun c => !isBlank c) = true := by decide
    simpa using List.all_eq_true.1 (hall o.secure) c hscheme
  · exact (o.plain c hauthority).1

theorem isTabOrNewline_eq_false {c : Char} (h : isBlank c = false) : isTabOrNewline c = false := by
  refine Bool.eq_false_iff.2 fun htab => ?_
  rcases of_decide_eq_true htab with rfl | rfl | rfl <;> cases h

theorem clean_origin (o : Origin) (cs : List Char) : clean (o.text ++ '/' :: cs) =
    o.text ++ '/' :: (cs.rdropWhile isBlank).filter fun c => !isTabOrNewline c := by
  have hhead : (o.text ++ '/' :: cs).dropWhile isBlank = o.text ++ '/' :: cs := by
    unfold Origin.text
    cases o.secure <;> rfl
  have htext : o.text.filter (fun c => !isTabOrNewline c) = o.text :=
    List.filter_eq_self.2 fun c hc => by rw [isTabOrNewline_eq_false (o.not_blank c hc)]; rfl
  rw [clean, hhead, rdropWhile_append_cons (by decide), List.filter_append, htext,
    List.filter_cons_of_pos (by decide)]

/-- **The path of a URL** over an origin. -/
theorem urlPath_origin (o : Origin) (cs : List Char) : urlPath (o.text ++ '/' :: cs) =
    some ((normalise [] (segments (readPath cs))).map percentEncode) := by
  rw [urlPath, clean_origin, afterAuthority_origin, Option.map_some,
    List.takeWhile_cons_of_pos (by decide)]
  rfl

theorem readPath_sublist (cs : List Char) : (readPath cs).Sublist cs :=
  ((List.takeWhile_sublist _).trans List.filter_sublist).trans (List.rdropWhile_prefix _ _).sublist

theorem Plain.readPath_eq {cs : List Char} (h : Plain cs) : readPath cs = cs := by
  have hblank : cs.rdropWhile isBlank = cs := by
    refine List.rdropWhile_eq_self_iff.2 fun hne => ?_
    exact Bool.eq_false_iff.1 (h.last _ (List.getLast?_eq_some_getLast hne))
  have htab : cs.filter (fun c => !isTabOrNewline c) = cs :=
    List.filter_eq_self.2 fun c hc => by rw [(h.chars c hc).2.1]; rfl
  rw [readPath, hblank, htab]
  exact List.takeWhile_eq_self_iff.2 fun c hc => by rw [(h.chars c hc).1]; rfl

theorem Plain.normalise_eq {cs : List Char} (h : Plain cs) :
    normalise [] (Urls.segments cs) = Urls.segments cs :=
  normalise_eq_append h.segments []

/-- What is read as it stands ends and contains nothing that is dropped. -/
theorem of_readPath_eq {cs : List Char} (h : readPath cs = cs) :
    (∀ c ∈ cs, endsPath c = false ∧ isTabOrNewline c = false) ∧
      ∀ c ∈ cs.getLast?, isBlank c = false := by
  have hfilter :
      (readPath cs).Sublist ((cs.rdropWhile isBlank).filter fun c => !isTabOrNewline c) :=
    List.takeWhile_sublist _
  have hblank : cs.rdropWhile isBlank = cs := by
    refine (List.rdropWhile_prefix _ _).sublist.antisymm ?_
    rw [h] at hfilter
    exact hfilter.trans List.filter_sublist
  constructor
  · intro c hc
    rw [h] at hfilter
    have hends : (!endsPath c) = true := by
      rw [← h] at hc
      exact @List.mem_takeWhile_imp _ (fun c => !endsPath c) _ _ hc
    have htab := (List.mem_filter.1 (hfilter.subset hc)).2
    exact ⟨by simpa using hends, by simpa using htab⟩
  · intro c hc
    obtain ⟨hne, rfl⟩ := List.mem_getLast?_eq_getLast hc
    exact Bool.eq_false_iff.2 (List.rdropWhile_eq_self_iff.1 hblank hne)

theorem length_join_normalise_le (cs : List Char) :
    (bytes (join (normalise [] (segments cs)))).length ≤ (bytes cs).length ∧
      ((∃ s ∈ segments cs, isPlainSegment s = false) →
        (bytes (join (normalise [] (segments cs)))).length < (bytes cs).length) := by
  obtain ⟨hle, hlt⟩ := weight_normalise_le [] (segments cs)
  have hempty : weight [] = 0 := rfl
  have hsame := length_bytes_join_segments cs
  obtain ⟨s, segs, hsegs⟩ := exists_segments_eq_cons cs
  obtain ⟨t, path, hpath⟩ := List.exists_cons_of_ne_nil (normalise_ne_nil [] s segs)
  have hbefore := one_add_length_bytes_join s segs
  have hafter := one_add_length_bytes_join t path
  rw [hsegs] at hle hlt hsame ⊢
  rw [hpath] at hle hlt ⊢
  refine ⟨by omega, fun hdots => ?_⟩
  have := hlt hdots
  omega

/-- **Paths that come back**: the path of a URL is decoded to the text it has been built from
exactly if the text is plain. -/
theorem decodes_iff (o : Origin) (cs : List Char) :
    ((urlPath (o.text ++ '/' :: cs)).bind fun segs => percentDecode (join segs)) =
      some (bytes cs) ↔ Plain cs := by
  rw [urlPath_origin, Option.bind_some, percentEncode_join]
  constructor
  · intro h
    obtain ⟨hdecode, hpercent⟩ := length_le_of_percentDecode h
    obtain ⟨hread, heq⟩ := length_bytes_le_of_sublist (readPath_sublist cs)
    obtain ⟨hle, hdots⟩ := length_join_normalise_le (readPath cs)
    -- nothing has been dropped, or the result would be shorter
    have hreadPath : readPath cs = cs := heq (by omega)
    have hplain : ∀ s ∈ segments cs, isPlainSegment s = true := by
      intro s hs
      by_contra hnot
      have := hdots ⟨s, by rw [hreadPath]; exact hs, Bool.eq_false_iff.2 hnot⟩
      omega
    rw [hreadPath, normalise_eq_append hplain, List.nil_append] at h hpercent
    rw [hreadPath] at hread
    have hnot : '%' ∉ join (segments cs) := fun hmem => by
      have := hpercent hmem
      rw [length_bytes_join_segments] at this
      omega
    rw [percentDecode_percentEncode hnot, Option.some.injEq] at h
    have hjoin := bytes_injective h
    rw [hjoin] at hnot
    obtain ⟨hchars, hlast⟩ := of_readPath_eq hreadPath
    refine ⟨fun c hc => ⟨(hchars c hc).1, (hchars c hc).2, ?_, ?_⟩, hlast, hplain⟩
    · rintro rfl
      exact join_segments_eq_self_iff.1 hjoin hc
    · rintro rfl
      exact hnot hc
  · intro h
    have hpercent : '%' ∉ cs := fun hmem => (h.chars '%' hmem).2.2.2 rfl
    have hbackslash : '\\' ∉ cs := fun hmem => (h.chars '\\' hmem).2.2.1 rfl
    rw [h.readPath_eq, h.normalise_eq, join_segments_eq_self_iff.2 hbackslash,
      percentDecode_percentEncode hpercent]

end Urls
