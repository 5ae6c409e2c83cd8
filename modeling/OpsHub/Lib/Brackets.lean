import OpsHub.Lib.Removal

/-!
# Brackets that are not nested

Taking matches out of a text may join what is around them to a new match.  It does not if all
matches begin with an opening and end with a closing bracket, and the brackets of the text are not
nested: what is taken out of such a text lies outside of the brackets that are left.

* `Flat`: no bracket is opened within another one;
* `Cut`, `cut_removeAll`: a list without some of its stretches from an opening to a closing bracket;
* `Cut.segment`: an opening bracket that is left has what followed it up to its closing bracket;
* `Stable`: patterns whose matches in a cut list are matches in the list, and
  `not_found_removeAll`, `not_found_of_cut`: a removal of one leaves no match, and later cuts make
  none;
* `Segment`, `Between`: pairs of brackets, and what lies from one pair to another.
-/

namespace Regex

variable {α : Type*} (left right : α)

/-- No bracket is opened within another one; `inside` says whether one is open already. -/
def Flat [DecidableEq α] : Bool → List α → Prop
  | _, [] => True
  | inside, c :: l =>
    if c = left then inside = false ∧ Flat true l
    else if c = right then Flat false l
    else Flat inside l

instance decidableFlat [DecidableEq α] : ∀ inside l, Decidable (Flat left right inside l)
  | _, [] => isTrue trivial
  | inside, c :: l =>
    haveI := decidableFlat true l
    haveI := decidableFlat false l
    haveI := decidableFlat inside l
    inferInstanceAs (Decidable (if c = left then inside = false ∧ Flat left right true l
      else if c = right then Flat left right false l else Flat left right inside l))

/-- The second list is the first one without some stretches from an opening to a closing
bracket. -/
inductive Cut : List α → List α → Prop
  | nil : Cut [] []
  | keep (c : α) {l l' : List α} (h : Cut l l') : Cut (c :: l) (c :: l')
  | drop (u : List α) {l l' : List α} (h : Cut l l') : Cut (left :: u ++ right :: l) l'

variable {left right} {inside : Bool} {l l' u v w pre post : List α} {c : α}

/-! ### Flat lists -/

section Flat

variable [DecidableEq α]

/-- The rest of a flat list is flat. -/
theorem Flat.tail (h : Flat left right inside (c :: l)) : ∃ inside', Flat left right inside' l := by
  rw [Flat] at h
  split at h
  · exact ⟨true, h.2⟩
  · split at h
    · exact ⟨false, h⟩
    · exact ⟨inside, h⟩

theorem Flat.drop (h : Flat left right inside (u ++ l)) : ∃ inside', Flat left right inside' l := by
  induction u generalizing inside with
  | nil => exact ⟨inside, h⟩
  | cons c u ih =>
    obtain ⟨inside', h'⟩ := Flat.tail h
    exact ih h'

theorem Flat.of_left (h : Flat left right inside (left :: l)) :
    inside = false ∧ Flat left right true l := by
  rwa [Flat, if_pos rfl] at h

theorem Flat.of_right (hne : right ≠ left) (h : Flat left right inside (right :: l)) :
    Flat left right false l := by
  rwa [Flat, if_neg hne, if_pos rfl] at h

/-- No bracket is open after a closing one. -/
theorem Flat.after_right (hne : right ≠ left) (h : Flat left right inside (u ++ right :: l)) :
    Flat left right false l := by
  obtain ⟨inside', h'⟩ := h.drop
  exact h'.of_right hne

/-! ### Cuts -/

/-- A flat list stays flat when it is cut. -/
theorem Flat.of_cut (hne : right ≠ left) (hcut : Cut left right l l')
    (h : Flat left right inside l) : Flat left right inside l' := by
  induction hcut generalizing inside with
  | nil => trivial
  | keep c _ ih =>
    rw [Flat] at h ⊢
    split
    · rename_i hc
      rw [if_pos hc] at h
      exact ⟨h.1, ih h.2⟩
    · rename_i hc
      rw [if_neg hc] at h
      split
      · rename_i hc'
        rw [if_pos hc'] at h
        exact ih h
      · rename_i hc'
        rw [if_neg hc'] at h
        exact ih h
  | drop u _ ih =>
    -- no bracket is open before the stretch, and none after it
    obtain ⟨rfl, hrest⟩ := h.of_left
    exact ih (hrest.after_right hne)

omit [DecidableEq α] in
/-- Cuts add nothing. -/
theorem Cut.subset (hcut : Cut left right l l') : l' ⊆ l := by
  induction hcut with
  | nil => exact List.Subset.refl _
  | keep c _ ih => exact List.cons_subset_cons c ih
  | drop u _ ih =>
    intro c hc
    exact List.mem_append_right _ (List.mem_cons_of_mem _ (ih hc))

/-- **Within a bracket** nothing is cut. -/
theorem Cut.of_inside (hne : right ≠ left) (hcut : Cut left right l (w ++ right :: post))
    (h : Flat left right true l) (hw : right ∉ w) :
    ∃ post', l = w ++ right :: post' ∧ Cut left right post' post ∧ Flat left right false post' := by
  induction w generalizing l with
  | nil =>
    cases hcut with
    | keep c hcut => exact ⟨_, rfl, hcut, h.of_right hne⟩
    | drop u hcut => cases h.of_left.1
  | cons c w ih =>
    cases hcut with
    | @keep _ l _ hcut =>
      have hleft : c ≠ left := by
        rintro rfl
        cases h.of_left.1
      have hright : c ≠ right := fun hc => hw (hc ▸ List.mem_cons_self)
      rw [Flat, if_neg hleft, if_neg hright] at h
      obtain ⟨post', rfl, hpost, hflat⟩ := ih hcut h fun hmem => hw (List.mem_cons_of_mem c hmem)
      exact ⟨post', rfl, hpost, hflat⟩
    | drop u hcut => cases h.of_left.1

/-- **A pair of brackets that is left** was there before, with all that is between them. -/
theorem Cut.segment (hne : right ≠ left)
    (hcut : Cut left right l (pre ++ left :: w ++ right :: post))
    (h : Flat left right inside l) (hw : right ∉ w) :
    ∃ pre' post', l = pre' ++ left :: w ++ right :: post' ∧ Cut left right post' post ∧
      Flat left right false post' := by
  generalize hx : pre ++ left :: w ++ right :: post = x at hcut
  induction hcut generalizing inside pre with
  | nil => simp at hx
  | @keep c l l' hcut ih =>
    cases pre with
    | nil =>
      obtain ⟨rfl, rfl⟩ := List.cons.inj hx
      obtain ⟨post', rfl, hpost, hflat⟩ := hcut.of_inside hne h.of_left.2 hw
      exact ⟨[], post', rfl, hpost, hflat⟩
    | cons d pre =>
      obtain ⟨rfl, hrest⟩ := List.cons.inj hx
      obtain ⟨inside', h'⟩ := h.tail
      obtain ⟨pre', post', rfl, hpost, hflat⟩ := ih h' hrest
      exact ⟨d :: pre', post', rfl, hpost, hflat⟩
  | @drop u l l' hcut ih =>
    obtain ⟨pre', post', rfl, hpost, hflat⟩ := ih (h.after_right hne) hx
    exact ⟨left :: u ++ right :: pre', post', by simp, hpost, hflat⟩

end Flat

/-! ### Patterns -/

variable (left right) (word : α → Bool)

/-- All matches begin with an opening and end with a closing bracket. -/
def Delimited (p : Pattern α) : Prop :=
  ∀ prev u t, Matches word p prev u t → ∃ w, u = left :: w ++ [right]

/-- What matches behind an opening bracket in a cut list does so in the list. -/
def Stable [DecidableEq α] (p : Pattern α) : Prop :=
  ∀ l l', Flat left right true l → Cut left right l l' → ∀ prev u t, left :: l' = u ++ t →
    Matches word p prev u t → ∀ prev', ∃ u' t', left :: l = u' ++ t' ∧ Matches word p prev' u' t'

variable {left right word} {p : Pattern α} {prev prev' : Bool} {n : ℕ}

/-- After the rest of a match. -/
theorem removeAll_skip : ∃ prev', removeAll word p prev n l = removeAll word p prev' 0 (l.drop n) := by
  induction n generalizing prev l with
  | zero => exact ⟨prev, rfl⟩
  | succ n ih =>
    cases l with
    | nil => exact ⟨prev, rfl⟩
    | cons c l => exact @ih l (word c)

/-- The next character is kept, or a match is taken out. -/
theorem removeAll_cons (p : Pattern α) (prev : Bool) (c : α) (l : List α) :
    (removeAll word p prev 0 (c :: l) = c :: removeAll word p (word c) 0 l ∧
        ∀ n, first word p prev (c :: l) ≠ some (n + 1)) ∨
      ∃ u t prev', c :: l = u ++ t ∧ Matches word p prev u t ∧
        removeAll word p prev 0 (c :: l) = removeAll word p prev' 0 t := by
  cases hfirst : first word p prev (c :: l) with
  | none => exact Or.inl ⟨by rw [removeAll, hfirst], fun n => (Option.some_ne_none _).symm⟩
  | some n =>
    cases n with
    | zero => exact Or.inl ⟨by rw [removeAll, hfirst], fun n h => by cases h⟩
    | succ n =>
      have hmem : n + 1 ∈ run word p prev (c :: l) := List.mem_of_head? hfirst
      have hle := le_length_of_mem_run hmem
      obtain ⟨prev', hskip⟩ := @removeAll_skip _ l word p (word c) n
      refine Or.inr ⟨_, _, prev', (List.take_append_drop (n + 1) (c :: l)).symm, ?_, ?_⟩
      · rw [← length_mem_run_iff, List.take_append_drop, List.length_take_of_le hle]
        exact hmem
      · rw [removeAll, hfirst]
        exact hskip

/-- A removal cuts. -/
theorem cut_removeAll (hd : Delimited left right word p) :
    Cut left right l (removeAll word p prev 0 l) := by
  induction hn : l.length using Nat.strongRecOn generalizing l prev with
  | _ n ih =>
    cases l with
    | nil => exact Cut.nil
    | cons c l =>
      rcases removeAll_cons p prev c l with ⟨hkeep, -⟩ | ⟨u, t, prev', heq, hm, hdrop⟩
      · rw [hkeep]
        exact (ih _ (by rw [← hn]; exact Nat.lt_succ_self _) rfl).keep c
      · obtain ⟨w, rfl⟩ := hd _ _ _ hm
        have hlt : t.length < n := by
          rw [← hn, heq]
          simp
          omega
        have hcut : Cut left right t (removeAll word p prev' 0 t) := ih t.length hlt rfl
        rw [hdrop, heq]
        simpa using hcut.drop w

variable [DecidableEq α]

/-- **A removal leaves no match** in a flat list. -/
theorem not_found_removeAll (hnull : p.nullable = false) (hd : Delimited left right word p)
    (hs : Stable left right word p) (h : Flat left right inside l) :
    ¬ Found word p prev' (removeAll word p prev 0 l) := by
  rintro ⟨pre, u, t, hresult, hm⟩
  induction hn : l.length using Nat.strongRecOn generalizing l prev prev' pre inside with
  | _ n ih =>
    cases l with
    | nil =>
      obtain ⟨-, rfl⟩ := List.append_eq_nil_iff.1 (List.append_eq_nil_iff.1 hresult.symm).1
      exact not_matches_nil hnull hm
    | cons c l =>
      rcases removeAll_cons p prev c l with ⟨hkeep, hnone⟩ | ⟨v, t', prev'', heq, hmatch, hdrop⟩
      · rw [hkeep] at hresult
        cases pre with
        | nil =>
          -- the match would have been one before
          obtain ⟨w, rfl⟩ := hd _ _ _ hm
          obtain rfl : c = left := (List.cons.inj hresult).1
          obtain ⟨u', t', hl, hm'⟩ := hs l _ h.of_left.2 (cut_removeAll hd) _ _ _ hresult hm prev
          obtain ⟨n, hfirst⟩ := exists_first hnull hm'
          exact hnone n (hl ▸ hfirst)
        | cons d pre =>
          obtain ⟨rfl, hrest⟩ := List.cons.inj hresult
          obtain ⟨inside', h'⟩ := h.tail
          exact ih l.length (by rw [← hn]; exact Nat.lt_succ_self _) h' _ hrest hm rfl
      · obtain ⟨w, rfl⟩ := hd _ _ _ hmatch
        rw [heq] at h hn
        obtain ⟨inside', h'⟩ := h.drop
        refine ih t'.length ?_ h' _ (hdrop.symm.trans hresult) hm rfl
        rw [← hn]
        simp
        omega

/-- **A cut makes no match.** -/
theorem not_found_of_cut (hne : right ≠ left) (hd : Delimited left right word p)
    (hs : Stable left right word p) (hcut : Cut left right l l') (h : Flat left right inside l)
    (hfree : ¬ Found word p prev l) : ¬ Found word p prev' l' := by
  rintro ⟨pre, u, t, hl', hm⟩
  induction hcut generalizing inside prev prev' pre with
  | nil =>
    obtain ⟨w, rfl⟩ := hd _ _ _ hm
    simp at hl'
  | @keep c l l' hcut ih =>
    cases pre with
    | nil =>
      obtain ⟨w, rfl⟩ := hd _ _ _ hm
      obtain rfl : c = left := (List.cons.inj hl').1
      obtain ⟨u', t', hl, hm'⟩ := hs l l' h.of_left.2 hcut _ _ _ hl' hm prev
      exact hfree ⟨[], u', t', hl, hm'⟩
    | cons d pre =>
      obtain ⟨rfl, hrest⟩ := List.cons.inj hl'
      obtain ⟨inside', h'⟩ := h.tail
      have hfree' : ¬ Found word p (word c) l := by
        rintro ⟨pre', u', t', rfl, hm'⟩
        exact hfree ⟨c :: pre', u', t', rfl, hm'⟩
      exact ih h' hfree' _ hrest hm
  | @drop v l l' hcut ih =>
    have hfree' : ¬ Found word p (after word prev (left :: v ++ [right])) l := by
      rintro ⟨pre', u', t', rfl, hm'⟩
      refine hfree ⟨left :: v ++ right :: pre', u', t', by simp, ?_⟩
      simpa using hm'
    exact ih (h.after_right hne) hfree' _ hl' hm

/-! ### Pairs of brackets -/

variable (left right word)

/-- All matches are pairs of brackets without a closing one inside, whatever is around them. -/
def Segment (p : Pattern α) : Prop :=
  ∀ prev u t, Matches word p prev u t → (∃ w, u = left :: w ++ [right] ∧ right ∉ w) ∧
    ∀ prev' t', Matches word p prev' u t'

/-- All matches begin with a match of `p` and end with one of `q`. -/
def Between (p q r : Pattern α) : Prop :=
  ∀ prev u t, Matches word r prev u t ↔
    ∃ a m b, u = a ++ m ++ b ∧ Matches word p false a [] ∧ Matches word q false b []

variable {left right word} {q r : Pattern α} {ps qs : List (Pattern α)} {opens closes : α → Bool}

omit [DecidableEq α] in
/-- A pattern between two brackets. -/
theorem segment_chain (hopens : ∀ c, opens c = true → c = left)
    (hcloses : ∀ c, closes c = true → c = right) (havoids : (Pattern.chain ps).avoids right = true)
    (hclosed : (Pattern.chain (.one opens :: (ps ++ [.one closes]))).closed = true) :
    Segment left right word (Pattern.chain (.one opens :: (ps ++ [.one closes]))) := by
  intro prev u t hm
  refine ⟨?_, fun prev' t' => (hm.of_one prev').of_closed hclosed⟩
  obtain ⟨_, v, rfl, ⟨c, rfl, hc⟩, hrest⟩ := hm
  obtain ⟨w, _, rfl, hw, ⟨_, _, rfl, ⟨d, rfl, hd⟩, rfl⟩⟩ := matches_chain_append.1 hrest
  obtain rfl := hopens c hc
  obtain rfl := hcloses d hd
  exact ⟨w, by simp, not_mem_of_avoids havoids hw⟩

omit [DecidableEq α] in
theorem Segment.delimited (h : Segment left right word p) : Delimited left right word p := by
  intro prev u t hm
  obtain ⟨⟨w, rfl, -⟩, -⟩ := h prev u t hm
  exact ⟨w, rfl⟩

theorem Segment.stable (hne : right ≠ left) (h : Segment left right word p) :
    Stable left right word p := by
  intro l l' hflat hcut prev u t hl' hm prev'
  obtain ⟨⟨w, rfl, hw⟩, hfree⟩ := h prev u t hm
  obtain rfl : l' = w ++ right :: t := by simpa using hl'
  obtain ⟨t', rfl, -, -⟩ := hcut.of_inside hne hflat hw
  exact ⟨left :: w ++ [right], t', by simp, hfree prev' t'⟩

omit [DecidableEq α] in
/-- What begins with a pair of brackets and ends with one. -/
theorem between_chain (hp : Segment left right word (Pattern.chain ps))
    (hq : Segment left right word (Pattern.chain qs)) : Between word (Pattern.chain ps)
      (Pattern.chain qs) (Pattern.chain (ps ++ .many false (fun _ => true) :: qs)) := by
  intro prev u t
  constructor
  · intro hm
    obtain ⟨a, _, rfl, ha, ⟨m, b, rfl, -, hb⟩⟩ := matches_chain_append.1 hm
    exact ⟨a, m, b, by simp, (hp _ _ _ ha).2 false [], (hq _ _ _ hb).2 false []⟩
  · rintro ⟨a, m, b, rfl, ha, hb⟩
    refine matches_chain_append.2 ⟨a, m ++ b, by simp, (hp _ _ _ ha).2 _ _, m, b, rfl, ?_, ?_⟩
    · exact fun _ _ => rfl
    · exact (hq _ _ _ hb).2 _ _

omit [DecidableEq α] in
theorem Between.delimited (h : Between word p q r) (hp : Segment left right word p)
    (hq : Segment left right word q) : Delimited left right word r := by
  intro prev u t hm
  obtain ⟨a, m, b, rfl, ha, hb⟩ := (h prev u t).1 hm
  obtain ⟨⟨v, rfl, -⟩, -⟩ := hp _ _ _ ha
  obtain ⟨⟨w, rfl, -⟩, -⟩ := hq _ _ _ hb
  exact ⟨v ++ right :: m ++ left :: w, by simp⟩

theorem Between.stable (hne : right ≠ left) (h : Between word p q r)
    (hp : Segment left right word p) (hq : Segment left right word q) :
    Stable left right word r := by
  intro l l' hflat hcut prev u t hl' hm prev'
  obtain ⟨a, m, b, rfl, ha, hb⟩ := (h prev u t).1 hm
  obtain ⟨⟨v, rfl, hv⟩, -⟩ := hp _ _ _ ha
  obtain ⟨⟨w, rfl, hw⟩, -⟩ := hq _ _ _ hb
  obtain rfl : l' = v ++ right :: (m ++ left :: w ++ right :: t) := by simpa using hl'
  obtain ⟨rest, rfl, hrest, hflat'⟩ := hcut.of_inside hne hflat hv
  obtain ⟨m', t', rfl, -, -⟩ := hrest.segment hne hflat' hw
  exact ⟨left :: v ++ [right] ++ m' ++ (left :: w ++ [right]), t', by simp,
    (h prev' _ t').2 ⟨_, m', _, rfl, ha, hb⟩⟩

end Regex
