import Mathlib.Data.List.Forall2
import OpsHub.Lib.Regex

/-!
# Removing what patterns match

`removeAll` takes all matches of a pattern out of a list of characters, as `replace` with the flag
`g` does.  To speak of where something has been taken out, every character of the input carries a
mark, and nothing changes its place.

* `removeAll`, `Found`, `removeAll_eq_self`;
* `mark`, `kept_mark`: the same with marks; `markWhile`, `markTrim`: the ends of a list;
* `Takes`, `Takes.stretch`: an untouched stretch is one of every earlier stage;
* `not_matches_of_untouched`: what is left has no untouched stretch that matches;
* `clean_iff`: it has no match at all exactly if no match has come about by taking out something
  inside it or right before it.
-/

namespace Regex

variable {α : Type*} (word : α → Bool)

/-! ### Removals -/

/-- The list without the matches of a pattern, after `skip` characters of a match. -/
def removeAll (p : Pattern α) : Bool → ℕ → List α → List α
  | _, _, [] => []
  | _, skip + 1, c :: l => removeAll p (word c) skip l
  | prev, 0, c :: l =>
    match first word p prev (c :: l) with
    | some (n + 1) => removeAll p (word c) n l
    | _ => c :: removeAll p (word c) 0 l

/-- The pattern matches somewhere. -/
def Found (p : Pattern α) (prev : Bool) (l : List α) : Prop :=
  ∃ pre u t, l = pre ++ u ++ t ∧ Matches word p (after word prev pre) u t

/-- The characters that have not been taken out. -/
def kept (l : List (α × Bool)) : List α := (l.filter (fun x => !x.2)).map Prod.fst

/-- The same removal, with a mark on what has been taken out. -/
def mark (p : Pattern α) : Bool → ℕ → List (α × Bool) → List (α × Bool)
  | _, _, [] => []
  | prev, skip, (c, true) :: l => (c, true) :: mark p prev skip l
  | _, skip + 1, (c, false) :: l => (c, true) :: mark p (word c) skip l
  | prev, 0, (c, false) :: l =>
    match first word p prev (c :: kept l) with
    | some (n + 1) => (c, true) :: mark p (word c) n l
    | _ => (c, false) :: mark p (word c) 0 l

/-- The removals of several patterns, one after the other. -/
def markAll (ps : List (Pattern α)) (l : List (α × Bool)) : List (α × Bool) :=
  ps.foldl (fun l p => mark word p false 0 l) l

/-- The characters of a class at the beginning are taken out. -/
def markWhile (cls : α → Bool) : List (α × Bool) → List (α × Bool)
  | [] => []
  | (c, true) :: l => (c, true) :: markWhile cls l
  | (c, false) :: l => if cls c then (c, true) :: markWhile cls l else (c, false) :: l

/-- The characters of a class at both ends. -/
def trim (cls : α → Bool) (l : List α) : List α :=
  ((l.dropWhile cls).reverse.dropWhile cls).reverse

/-- They are taken out. -/
def markTrim (cls : α → Bool) (l : List (α × Bool)) : List (α × Bool) :=
  (markWhile cls (markWhile cls l).reverse).reverse

variable {word} {p : Pattern α} {ps : List (Pattern α)} {prev : Bool} {skip : ℕ} {cls : α → Bool}
  {l u t : List α} {a w b x y z : List (α × Bool)}

/-- A list without a match stays as it is. -/
theorem removeAll_eq_self (h : ¬ Found word p prev l) : removeAll word p prev 0 l = l := by
  induction l generalizing prev with
  | nil => rfl
  | cons c l ih =>
    have hrest : ¬ Found word p (word c) l := by
      rintro ⟨pre, u, t, rfl, hm⟩
      exact h ⟨c :: pre, u, t, rfl, hm⟩
    rw [removeAll]
    cases hfirst : first word p prev (c :: l) with
    | none => rw [ih hrest]
    | some n =>
      cases n with
      | zero => rw [ih hrest]
      | succ n =>
        have hmem : n + 1 ∈ run word p prev (c :: l) := List.mem_of_head? hfirst
        have hle := le_length_of_mem_run hmem
        have hm : Matches word p prev ((c :: l).take (n + 1)) ((c :: l).drop (n + 1)) := by
          rw [← length_mem_run_iff, List.take_append_drop, List.length_take_of_le hle]
          exact hmem
        refine absurd ⟨[], _, _, ?_, hm⟩ h
        rw [List.nil_append, List.take_append_drop]

theorem dropWhile_eq_self_iff : l.dropWhile cls = l ↔ ∀ c ∈ l.head?, cls c = false := by
  cases l with
  | nil => simp
  | cons c l =>
    by_cases hc : cls c = true
    · have hne : l.dropWhile cls ≠ c :: l := fun heq =>
        absurd ((List.dropWhile_sublist cls).length_le) (by rw [heq]; simp)
      rw [List.dropWhile_cons_of_pos hc]
      simp [hc, hne]
    · rw [List.dropWhile_cons_of_neg hc]
      simpa using hc

theorem head?_dropWhile {c : α} (h : c ∈ (l.dropWhile cls).head?) : cls c = false := by
  induction l with
  | nil => cases h
  | cons d l ih =>
    by_cases hd : cls d = true
    · rw [List.dropWhile_cons_of_pos hd] at h
      exact ih h
    · rw [List.dropWhile_cons_of_neg hd] at h
      obtain rfl := Option.some.inj h
      exact Bool.eq_false_iff.2 hd

/-- What is left is a part of the list. -/
theorem isInfix_trim : trim cls l <:+: l := by
  have hback : (l.dropWhile cls).reverse.dropWhile cls <:+ (l.dropWhile cls).reverse :=
    List.dropWhile_suffix cls
  rw [← List.reverse_prefix, List.reverse_reverse] at hback
  exact hback.isInfix.trans (List.dropWhile_suffix cls).isInfix

/-- A match that does not depend on what is around it is one in every list that has the part. -/
theorem Found.of_infix {l' : List α} (hl : l' <:+: l)
    (hfree : ∀ prev u t, Matches word p prev u t → ∀ prev' t', Matches word p prev' u t')
    (h : Found word p prev l') {prev' : Bool} : Found word p prev' l := by
  obtain ⟨x, y, rfl⟩ := hl
  obtain ⟨pre, u, t, rfl, hm⟩ := h
  exact ⟨x ++ pre, u, t ++ y, by simp, hfree _ _ _ hm _ _⟩

/-- The ends are clean afterwards. -/
theorem trim_trim : trim cls (trim cls l) = trim cls l := by
  have hback : (trim cls l).reverse.dropWhile cls = (trim cls l).reverse := by
    rw [trim, List.reverse_reverse]
    exact dropWhile_eq_self_iff.2 fun c hc => head?_dropWhile hc
  have hfront : (trim cls l).dropWhile cls = trim cls l := by
    refine dropWhile_eq_self_iff.2 fun c hc => ?_
    -- what is taken off at the end leaves the first character
    obtain ⟨gs, hgs⟩ : trim cls l <+: l.dropWhile cls := by
      have hsuffix : (l.dropWhile cls).reverse.dropWhile cls <:+ (l.dropWhile cls).reverse :=
        List.dropWhile_suffix cls
      rw [trim, ← List.reverse_suffix, List.reverse_reverse]
      exact hsuffix
    refine head?_dropWhile (l := l) ?_
    rw [← hgs, List.head?_append, Option.mem_def.1 hc]
    rfl
  rw [trim, hfront, hback, List.reverse_reverse]

/-! ### Marks -/

@[simp] theorem kept_nil : kept ([] : List (α × Bool)) = [] := rfl

@[simp] theorem kept_cons_true (c : α) (x : List (α × Bool)) :
    kept ((c, true) :: x) = kept x := rfl

@[simp] theorem kept_cons_false (c : α) (x : List (α × Bool)) :
    kept ((c, false) :: x) = c :: kept x := rfl

@[simp] theorem kept_append (x y : List (α × Bool)) : kept (x ++ y) = kept x ++ kept y := by
  rw [kept, kept, kept, List.filter_append, List.map_append]

@[simp] theorem kept_reverse (x : List (α × Bool)) : kept x.reverse = (kept x).reverse := by
  rw [kept, kept, List.filter_reverse, List.map_reverse]

/-- Two parts of what is kept are what is kept of two parts. -/
theorem exists_of_kept_append (h : kept x = u ++ t) :
    ∃ a b, x = a ++ b ∧ kept a = u ∧ kept b = t := by
  obtain ⟨m₁, m₂, hfilter, rfl, rfl⟩ := List.map_eq_append_iff.1 h
  obtain ⟨a, b, rfl, rfl, rfl⟩ := List.filter_eq_append_iff.1 hfilter
  exact ⟨a, b, rfl, rfl, rfl⟩

/-- **The marks** are on what `removeAll` takes out. -/
theorem kept_mark : kept (mark word p prev skip x) = removeAll word p prev skip (kept x) := by
  induction x generalizing prev skip with
  | nil => cases skip <;> rfl
  | cons c x ih =>
    obtain ⟨c, taken⟩ := c
    cases taken with
    | true =>
      rw [mark, kept_cons_true, kept_cons_true]
      exact ih
    | false =>
      cases skip with
      | succ skip =>
        rw [mark, kept_cons_true, kept_cons_false, removeAll]
        exact ih
      | zero =>
        rw [mark, kept_cons_false, removeAll]
        cases first word p prev (c :: kept x) with
        | none => exact congrArg (c :: ·) ih
        | some n =>
          cases n with
          | zero => exact congrArg (c :: ·) ih
          | succ n => exact ih

theorem kept_markAll : kept (markAll word ps x) =
    ps.foldl (fun l p => removeAll word p false 0 l) (kept x) := by
  induction ps generalizing x with
  | nil => rfl
  | cons p ps ih =>
    rw [List.foldl_cons, ← kept_mark]
    exact ih

/-- Nothing has been taken out yet. -/
theorem kept_map (l : List α) : kept (l.map fun c => (c, false)) = l := by
  induction l with
  | nil => rfl
  | cons c l ih => rw [List.map_cons, kept_cons_false, ih]

theorem kept_markWhile : kept (markWhile cls x) = (kept x).dropWhile cls := by
  induction x with
  | nil => rfl
  | cons c x ih =>
    obtain ⟨c, taken⟩ := c
    cases taken with
    | true => exact ih
    | false =>
      rw [markWhile, kept_cons_false]
      by_cases hc : cls c = true
      · rw [if_pos hc, List.dropWhile_cons_of_pos hc]
        exact ih
      · rw [if_neg hc, List.dropWhile_cons_of_neg hc, kept_cons_false]

theorem kept_markTrim : kept (markTrim cls x) = trim cls (kept x) := by
  rw [markTrim, kept_reverse, kept_markWhile, kept_reverse, kept_markWhile, trim]

/-! ### Stages -/

/-- More may have been taken out, and nothing has been put back. -/
def Takes (x y : List (α × Bool)) : Prop :=
  List.Forall₂ (fun c d => d.1 = c.1 ∧ (c.2 = true → d.2 = true)) x y

theorem Takes.refl (x : List (α × Bool)) : Takes x x :=
  List.forall₂_same.2 fun _ _ => ⟨rfl, id⟩

theorem Takes.trans (h : Takes x y) (h' : Takes y z) : Takes x z := by
  induction h generalizing z with
  | nil => exact h'
  | cons hcd _ ih =>
    cases h' with
    | cons hde hrest =>
      exact List.Forall₂.cons ⟨hde.1.trans hcd.1, fun hc => hde.2 (hcd.2 hc)⟩ (ih hrest)

theorem takes_mark : Takes x (mark word p prev skip x) := by
  induction x generalizing prev skip with
  | nil => cases skip <;> exact List.Forall₂.nil
  | cons c x ih =>
    obtain ⟨c, taken⟩ := c
    cases taken with
    | true => exact List.Forall₂.cons ⟨rfl, id⟩ ih
    | false =>
      cases skip with
      | succ skip => exact List.Forall₂.cons ⟨rfl, fun h => by cases h⟩ ih
      | zero =>
        rw [mark]
        split
        · exact List.Forall₂.cons ⟨rfl, fun h => by cases h⟩ ih
        · exact List.Forall₂.cons ⟨rfl, id⟩ ih

/-- The marks stand on the characters of the input. -/
theorem Takes.map_fst (h : Takes x y) : y.map Prod.fst = x.map Prod.fst := by
  induction h with
  | nil => rfl
  | cons hcd _ ih => rw [List.map_cons, List.map_cons, hcd.1, ih]

theorem takes_markAll : Takes x (markAll word ps x) := by
  induction ps generalizing x with
  | nil => exact Takes.refl x
  | cons p ps ih => exact takes_mark.trans ih

theorem takes_markWhile : Takes x (markWhile cls x) := by
  induction x with
  | nil => exact List.Forall₂.nil
  | cons c x ih =>
    obtain ⟨c, taken⟩ := c
    cases taken with
    | true => exact List.Forall₂.cons ⟨rfl, id⟩ ih
    | false =>
      rw [markWhile]
      split
      · exact List.Forall₂.cons ⟨rfl, fun h => by cases h⟩ ih
      · exact Takes.refl _

theorem Takes.reverse (h : Takes x y) : Takes x.reverse y.reverse := List.forall₂_reverse_iff.2 h

theorem takes_markTrim : Takes x (markTrim cls x) := by
  have hfront : Takes x (markWhile cls x) := takes_markWhile
  have hback : Takes (markWhile cls x).reverse (markWhile cls (markWhile cls x).reverse) :=
    takes_markWhile
  have h := (hfront.reverse.trans hback).reverse
  rwa [List.reverse_reverse] at h

/-! ### Untouched stretches -/

/-- Nothing has been taken out of the stretch `w`, nor right before it. -/
def Untouched (a w : List (α × Bool)) : Prop :=
  (∀ c ∈ a.getLast?, c.2 = false) ∧ ∀ c ∈ w, c.2 = false

/-- What has been kept was there before. -/
theorem Takes.eq_of_kept (h : Takes x y) (hy : ∀ c ∈ y, c.2 = false) : x = y := by
  induction h with
  | nil => rfl
  | @cons c d x y hcd _ ih =>
    have hd : d.2 = false := hy d List.mem_cons_self
    have hc : c = d := by
      refine Prod.ext hcd.1.symm ?_
      cases hctaken : c.2 with
      | false => exact hd.symm
      | true =>
        rw [hcd.2 hctaken] at hd
        cases hd
    rw [hc, ih fun c hc => hy c (List.mem_cons_of_mem d hc)]

/-- **An untouched stretch** was there before, at the same place. -/
theorem Takes.stretch (h : Takes x (a ++ w ++ b)) (hu : Untouched a w) :
    ∃ a' b', x = a' ++ w ++ b' ∧ a'.length = a.length ∧ Untouched a' w ∧
      after word prev (kept a') = after word prev (kept a) := by
  rw [List.append_assoc] at h
  have ha : Takes (x.take a.length) a := List.forall₂_take_append x a (w ++ b) h
  have hwb : Takes (x.drop a.length) (w ++ b) := List.forall₂_drop_append x a (w ++ b) h
  have hw := Takes.eq_of_kept (List.forall₂_take_append _ w b hwb) hu.2
  refine ⟨x.take a.length, (x.drop a.length).drop w.length, ?_, ha.length_eq, ?_⟩
  · have hback : w ++ (x.drop a.length).drop w.length = x.drop a.length := by
      conv_rhs => rw [← List.take_append_drop w.length (x.drop a.length), hw]
    rw [List.append_assoc, hback, List.take_append_drop]
  · rcases List.eq_nil_or_concat' a with rfl | ⟨a₀, d, rfl⟩
    · rw [List.length_nil, List.take_zero]
      exact ⟨hu, rfl⟩
    · -- the last character before the stretch is the same one
      have hd : d.2 = false := hu.1 d (by simp)
      have hlast := Takes.eq_of_kept (List.forall₂_drop_append _ a₀ [d] ha)
        (List.forall_mem_singleton.2 hd)
      have hsplit := List.take_append_drop a₀.length (x.take (a₀ ++ [d]).length)
      rw [hlast] at hsplit
      rw [← hsplit]
      obtain ⟨c, taken⟩ := d
      obtain rfl : taken = false := hd
      exact ⟨⟨by simp, hu.2⟩, by simp⟩

/-- The marks of two parts. -/
theorem mark_append (x y : List (α × Bool)) : ∃ x' skip', x'.length = x.length ∧
    mark word p prev skip (x ++ y) = x' ++ mark word p (after word prev (kept x)) skip' y := by
  induction x generalizing prev skip with
  | nil => exact ⟨[], skip, rfl, rfl⟩
  | cons c x ih =>
    obtain ⟨c, taken⟩ := c
    cases taken with
    | true =>
      obtain ⟨x', skip', hlength, hmark⟩ := @ih prev skip
      exact ⟨(c, true) :: x', skip', congrArg (· + 1) hlength, congrArg ((c, true) :: ·) hmark⟩
    | false =>
      rw [kept_cons_false, after_cons, List.cons_append]
      have hnext : ∀ m taken, ∃ x' skip', x'.length = x.length + 1 ∧
          (c, taken) :: mark word p (word c) m (x ++ y) =
            x' ++ mark word p (after word (word c) (kept x)) skip' y := by
        intro m taken
        obtain ⟨x', skip', hlength, hmark⟩ := @ih (word c) m
        exact ⟨(c, taken) :: x', skip', congrArg (· + 1) hlength,
          congrArg ((c, taken) :: ·) hmark⟩
      cases skip with
      | succ skip => exact hnext skip true
      | zero =>
        rw [mark]
        split
        · exact hnext _ true
        · exact hnext 0 false

/-- **A removal** leaves no untouched stretch that matches. -/
theorem not_matches_of_mark (hnull : p.nullable = false) (hclosed : p.closed = true)
    (h : mark word p prev 0 x = a ++ w ++ b) (hu : Untouched a w) :
    ¬ Matches word p (after word prev (kept a)) (kept w) (kept b) := by
  intro hm
  have htakes : Takes x (a ++ w ++ b) := h ▸ takes_mark
  obtain ⟨a', b', rfl, hlength, -, hafter⟩ := @Takes.stretch _ word prev _ _ _ _ htakes hu
  obtain ⟨x', skip', hlength', hmark⟩ := @mark_append _ word p prev 0 a' (w ++ b')
  rw [List.append_assoc, hmark, List.append_assoc] at h
  have hrest := (List.append_inj h (hlength'.trans hlength)).2
  cases w with
  | nil => exact not_matches_nil hnull hm
  | cons c w =>
    obtain ⟨c, taken⟩ := c
    obtain rfl : taken = false := hu.2 _ List.mem_cons_self
    -- the engine would have taken a match out here
    have hmatch :
        Matches word p (after word prev (kept a')) (kept ((c, false) :: w)) (kept b') := by
      rw [hafter]
      exact hm.of_closed hclosed
    obtain ⟨n, hfirst⟩ := exists_first hnull hmatch
    rw [← kept_append] at hfirst
    cases skip' with
    | succ skip => cases (List.cons.inj hrest).1
    | zero =>
      rw [List.cons_append, kept_cons_false] at hfirst
      rw [List.cons_append, mark, hfirst] at hrest
      cases (List.cons.inj hrest).1

/-- **Several removals** leave none either, whatever is taken out besides. -/
theorem not_matches_of_untouched (hps : ∀ p ∈ ps, p.nullable = false ∧ p.closed = true)
    (hp : p ∈ ps) (h : Takes (markAll word ps x) (a ++ w ++ b)) (hu : Untouched a w) :
    ¬ Matches word p (after word false (kept a)) (kept w) (kept b) := by
  induction ps generalizing x with
  | nil => cases hp
  | cons q ps ih =>
    rcases List.mem_cons.1 hp with rfl | hp
    · intro hm
      obtain ⟨hnull, hclosed⟩ := hps p List.mem_cons_self
      have htakes : Takes (mark word p false 0 x) (a ++ w ++ b) := takes_markAll.trans h
      obtain ⟨a', b', hmark, -, hu', hafter⟩ := @Takes.stretch _ word false _ _ _ _ htakes hu
      refine not_matches_of_mark hnull hclosed hmark hu' ?_
      rw [hafter]
      exact hm.of_closed hclosed
    · exact ih (fun p hp => hps p (List.mem_cons_of_mem q hp)) hp h

/-- **What is left has no match at all** exactly if no stretch has become a match by what has been
taken out of it or right before it. -/
theorem clean_iff (hps : ∀ p ∈ ps, p.nullable = false ∧ p.closed = true)
    (h : Takes (markAll word ps x) z) :
    (∀ p ∈ ps, ¬ Found word p false (kept z)) ↔ ∀ p ∈ ps, ∀ a w b, z = a ++ w ++ b →
      ¬ Untouched a w → ¬ Matches word p (after word false (kept a)) (kept w) (kept b) := by
  constructor
  · rintro hclean p hp a w b rfl - hm
    refine hclean p hp ⟨kept a, kept w, kept b, ?_, hm⟩
    rw [kept_append, kept_append]
  · rintro hjoined p hp ⟨pre, u, t, hkept, hm⟩
    obtain ⟨aw, b, rfl, haw, rfl⟩ := exists_of_kept_append hkept
    obtain ⟨a, w, rfl, rfl, rfl⟩ := exists_of_kept_append haw
    by_cases hu : Untouched a w
    · exact not_matches_of_untouched hps hp h hu hm
    · exact hjoined p hp a w b rfl hu hm

end Regex
