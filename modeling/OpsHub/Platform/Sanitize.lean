import OpsHub.Lib.Brackets

/-!
# Sanitising strings

`sanitizeString` replaces script blocks, the tags of a list, and event handlers by nothing, one
pattern after the other, and trims the rest.  The patterns have the flags `g`, `i` and `s`.

* `scriptBlock`, `dangerousTag`, `eventHandler`: the patterns;
* `sanitizeString`; `Strips`: none of the patterns matches in the result, and another pass changes
  nothing;
* `marks`: the input, with a mark on every character that is taken out;
* `strips_iff`: a result is clean exactly if no stretch of the input becomes a match when matches
  inside it or right before it are taken out;
* `strips_of_flat`: it is if the input has no tag in another one and no `=`.
-/

namespace OpsHub

namespace Sanitize

open Regex Regex.Pattern

/-! ### The patterns -/

/-- `\s`; these are also the characters that `trim` strips. -/
def isSpace (c : Char) : Bool :=
  decide (c.toNat ∈ [9, 10, 11, 12, 13, 32, 160, 5760, 8232, 8233, 8239, 8287, 12288, 65279]) ||
    decide (8192 ≤ c.toNat ∧ c.toNat ≤ 8202)

/-- `\w`. -/
def isWord (c : Char) : Bool := c.isAlphanum || c == '_'

/-- A character. -/
def char (c : Char) : Pattern Char := one fun d => d == c

/-- Any number of other characters. -/
def others (c : Char) : Pattern Char := many true fun d => d != c

/-- `\s*`. -/
def spaces : Pattern Char := many true isSpace

/-- A word of small letters, whatever the case. -/
def literal (text : String) : Pattern Char :=
  chain (text.toList.map fun c => one fun d => d.toLower == c)

/-- A character in quotes of the kind with this code. -/
def quoted (code : ℕ) : Pattern Char :=
  chain [char (Char.ofNat code), others (Char.ofNat code), char (Char.ofNat code)]

/-- `<\s*script[^>]*>.*?<\s*\/\s*script>`. -/
def scriptBlock : Pattern Char :=
  chain [char '<', spaces, literal "script", others '>', char '>', many false fun _ => true,
    char '<', spaces, char '/', spaces, literal "script", char '>']

/-- `<\s*\/?(?:script|iframe|object|embed|form|input|textarea|style)\b[^>]*>`. -/
def dangerousTag : Pattern Char :=
  chain [char '<', spaces, optional (char '/'),
    choice (["script", "iframe", "object", "embed", "form", "input", "textarea"].map literal)
      (literal "style"),
    boundary, others '>', char '>']

/-- `\bon\w+\s*=\s*(?:"[^"]*"|'[^']*'|[^\s>]+)`; the quotes have the codes 34 and 39. -/
def eventHandler : Pattern Char :=
  chain [boundary, literal "on", plus isWord, spaces, char '=', spaces,
    choice [quoted 34, quoted 39] (plus fun c => !isSpace c && c != '>')]

/-- The patterns, in the order in which they are applied. -/
def patterns : List (Pattern Char) := [scriptBlock, dangerousTag, eventHandler]

end Sanitize

open Regex Sanitize

/-- `text.replace(pattern, '')`. -/
def replaceAll (p : Pattern Char) (text : List Char) : List Char :=
  removeAll isWord p false 0 text

/-- `sanitizeString`. -/
def sanitizeString (input : String) : String :=
  String.ofList (trim isSpace
    (replaceAll eventHandler (replaceAll dangerousTag (replaceAll scriptBlock input.toList))))

namespace Sanitize

/-! ### The property -/

/-- None of the patterns matches anywhere. -/
def Clean (text : String) : Prop := ∀ p ∈ patterns, ¬ Found isWord p false text.toList

/-- The result is clean, and stays as it is. -/
def Strips (input : String) : Prop :=
  Clean (sanitizeString input) ∧ sanitizeString (sanitizeString input) = sanitizeString input

/-- The input, with a mark on every character that is taken out. -/
def marks (input : String) : List (Char × Bool) :=
  markTrim isSpace (markAll isWord patterns (input.toList.map fun c => (c, false)))

variable {input : String}

/-- The marks stand on the characters of the input. -/
theorem map_fst_marks (input : String) : (marks input).map Prod.fst = input.toList := by
  have h : Takes (input.toList.map fun c => (c, false)) (marks input) :=
    takes_markAll.trans takes_markTrim
  rw [h.map_fst, List.map_map]
  exact List.map_id _

/-- The characters without a mark are the result. -/
theorem kept_marks (input : String) : kept (marks input) = (sanitizeString input).toList := by
  rw [marks, kept_markTrim, kept_markAll, kept_map, sanitizeString, String.toList_ofList]
  rfl

/-- The patterns do not match the empty text, and do not look beyond their matches. -/
theorem patterns_spec : ∀ p ∈ patterns, p.nullable = false ∧ p.closed = true := by
  decide +kernel

/-- A clean text without spaces at its ends stays as it is. -/
theorem sanitizeString_of_clean (hclean : Clean input)
    (htrim : trim isSpace input.toList = input.toList) : sanitizeString input = input := by
  have hsame : ∀ p ∈ patterns, replaceAll p input.toList = input.toList :=
    fun p hp => removeAll_eq_self (hclean p hp)
  have hblock := hsame scriptBlock (by simp [patterns])
  have htag := hsame dangerousTag (by simp [patterns])
  have hhandler := hsame eventHandler (by simp [patterns])
  rw [sanitizeString, hblock, htag, hhandler, htrim, String.ofList_toList]

/-- The result has no spaces at its ends. -/
theorem trim_sanitizeString :
    trim isSpace (sanitizeString input).toList = (sanitizeString input).toList := by
  rw [sanitizeString, String.toList_ofList]
  exact trim_trim

theorem strips_iff_clean : Strips input ↔ Clean (sanitizeString input) :=
  ⟨fun h => h.1, fun h => ⟨h, sanitizeString_of_clean h trim_sanitizeString⟩⟩

/-- **The result is clean, and stays as it is**, exactly if no stretch `w` of the input becomes a
match of a pattern when characters are taken out of it or right before it. -/
theorem strips_iff (input : String) :
    Strips input ↔ ∀ p ∈ patterns, ∀ a w b, marks input = a ++ w ++ b → ¬ Untouched a w →
      ¬ Matches isWord p (after isWord false (kept a)) (kept w) (kept b) := by
  have h : Takes (markAll isWord patterns (input.toList.map fun c => (c, false))) (marks input) :=
    takes_markTrim
  rw [strips_iff_clean, Clean, ← kept_marks]
  exact clean_iff patterns_spec h

/-! ### Tags that are not nested -/

section Flat

open Regex.Pattern

/-- The tag that a script block begins with. -/
def scriptHead : List (Pattern Char) :=
  [char '<', spaces, literal "script", others '>', char '>']

/-- The tag that it ends with. -/
def scriptTail : List (Pattern Char) :=
  [char '<', spaces, char '/', spaces, literal "script", char '>']

theorem segment_scriptHead : Segment '<' '>' isWord (chain scriptHead) :=
  @segment_chain _ '<' '>' isWord [spaces, literal "script", others '>'] _ _ (by simp) (by simp)
    (by decide +kernel) (by decide +kernel)

theorem segment_scriptTail : Segment '<' '>' isWord (chain scriptTail) :=
  @segment_chain _ '<' '>' isWord [spaces, char '/', spaces, literal "script"] _ _ (by simp)
    (by simp) (by decide +kernel) (by decide +kernel)

theorem segment_dangerousTag : Segment '<' '>' isWord dangerousTag :=
  @segment_chain _ '<' '>' isWord [spaces, optional (char '/'),
    choice (["script", "iframe", "object", "embed", "form", "input", "textarea"].map literal)
      (literal "style"), boundary, others '>'] _ _ (by simp) (by simp) (by decide +kernel)
    (by decide +kernel)

theorem between_scriptBlock :
    Between isWord (chain scriptHead) (chain scriptTail) scriptBlock :=
  between_chain segment_scriptHead segment_scriptTail

/-- An event handler has an equals sign. -/
theorem mem_of_eventHandler {prev : Bool} {u t : List Char}
    (h : Matches isWord eventHandler prev u t) : '=' ∈ u := by
  have hsplit : Matches isWord (chain ([boundary, literal "on", plus isWord, spaces] ++
      [char '=', spaces, choice [quoted 34, quoted 39] (plus fun c => !isSpace c && c != '>')]))
      prev u t := h
  obtain ⟨v, w, rfl, -, ⟨_, w', rfl, ⟨c, rfl, hc⟩, -⟩⟩ := matches_chain_append.1 hsplit
  have hequals : c = '=' := by simpa using hc
  exact List.mem_append_right _ (hequals ▸ List.mem_cons_self)

/-- **Tags that are not nested** are taken out for good, if there is no equals sign. -/
theorem strips_of_flat (hflat : Flat '<' '>' false input.toList) (hequals : '=' ∉ input.toList) :
    Strips input := by
  have hne : '>' ≠ '<' := by decide
  have hblock := between_scriptBlock.delimited segment_scriptHead segment_scriptTail
  have hblock' := between_scriptBlock.stable hne segment_scriptHead segment_scriptTail
  have htag := segment_dangerousTag.delimited
  have htag' := segment_dangerousTag.stable hne
  have hnull : ∀ p ∈ patterns, p.nullable = false := fun p hp => (patterns_spec p hp).1
  -- the first pass leaves no script block, and the second one no tag of the list
  have hcut₁ : Cut '<' '>' input.toList (replaceAll scriptBlock input.toList) :=
    cut_removeAll hblock
  have hflat₁ := hflat.of_cut hne hcut₁
  have hcut₂ : Cut '<' '>' (replaceAll scriptBlock input.toList)
      (replaceAll dangerousTag (replaceAll scriptBlock input.toList)) := cut_removeAll htag
  have hfree₁ : ¬ Found isWord scriptBlock false (replaceAll scriptBlock input.toList) :=
    not_found_removeAll (hnull _ (by simp [patterns])) hblock hblock' hflat
  have hfree₂ : ¬ Found isWord scriptBlock false
      (replaceAll dangerousTag (replaceAll scriptBlock input.toList)) :=
    not_found_of_cut hne hblock hblock' hcut₂ hflat₁ hfree₁
  have hfree₃ : ¬ Found isWord dangerousTag false
      (replaceAll dangerousTag (replaceAll scriptBlock input.toList)) :=
    not_found_removeAll (hnull _ (by simp [patterns])) htag htag' hflat₁
  -- there is nothing for the third pass
  have hnone : ∀ l, l ⊆ input.toList → ∀ prev, ¬ Found isWord eventHandler prev l := by
    rintro l hl prev ⟨pre, u, t, rfl, hm⟩
    exact hequals (hl (List.mem_append_left t (List.mem_append_right pre (mem_of_eventHandler hm))))
  have hsubset := List.Subset.trans hcut₂.subset hcut₁.subset
  have hthird := removeAll_eq_self (hnone _ hsubset false)
  rw [strips_iff_clean, Clean, sanitizeString, String.toList_ofList, replaceAll, hthird]
  intro p hp hfound
  rcases List.mem_cons.1 hp with rfl | hp
  · refine hfree₂ (hfound.of_infix isInfix_trim fun prev u t hm prev' t' => ?_)
    exact (between_scriptBlock prev' u t').2 ((between_scriptBlock prev u t).1 hm)
  rcases List.mem_cons.1 hp with rfl | hp
  · exact hfree₃ (hfound.of_infix isInfix_trim fun prev u t hm => (segment_dangerousTag prev u t hm).2)
  · obtain rfl := List.mem_singleton.1 hp
    exact hnone _ (List.Subset.trans isInfix_trim.subset hsubset) false hfound

example : Strips "1 < 2 > 0 <form>a<script>b</script>c" :=
  strips_of_flat (by decide) (by decide)

end Flat

/-- A tag inside a tag. -/
def nested : String := "<scr<script>ipt>"

/-- What is left of a tag inside a tag is a tag, which another pass takes out. -/
theorem not_strips_nested : sanitizeString nested = "<script>" ∧
    sanitizeString (sanitizeString nested) = "" ∧ ¬ Strips nested := by
  have hresult : sanitizeString nested = "<script>" := by decide +kernel
  have hagain : sanitizeString "<script>" = "" := by decide +kernel
  refine ⟨hresult, by rw [hresult, hagain], fun h => ?_⟩
  have hsame := h.2
  rw [hresult, hagain] at hsame
  exact absurd hsame (by decide)

end Sanitize

end OpsHub
