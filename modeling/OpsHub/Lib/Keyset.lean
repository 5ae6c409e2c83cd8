import Mathlib.Data.List.Perm.Basic
import Mathlib.Data.List.Sort
import Mathlib.Tactic.Common

/-!
# Walks by key

Rows in a strict order of their keys are read page by page, each page from the key of the last row of
the page before.  The table may change between the pages.

* `rowsAfter`, `page`: a page is fetched with one row more than it shows, and has a key for the next
  page exactly if that row is there;
* `walk`: the pages, until one has no key; the `k`-th one is read from the table `tables k`;
* `walk_sorted`: whatever happens to the table, no row is shown twice, and the order is kept;
* `mem_walk`: a row that is there all the time is shown;
* `exists_walk`: a table that stays as it is is shown as it is.
-/

namespace Keyset

variable {α κ : Type*} (after : κ → κ → Prop) [DecidableRel after] (key : α → κ)

/-- The rows after a key; without one, all rows. -/
def rowsAfter (t : List α) : Option κ → List α
  | none => t
  | some c => t.filter (fun r => decide (after c (key r)))

/-- A page of `n` rows, and the key for the next one. -/
def page (n : ℕ) (t : List α) (c : Option κ) : List α × Option κ :=
  let found := (rowsAfter after key t c).take (n + 1)
  (found.take n, if n < found.length then (found.take n).getLast?.map key else none)

/-- The pages, until there is no key for another one. -/
def walk (tables : ℕ → List α) (n : ℕ) : (fuel k : ℕ) → Option κ → Option (List (List α))
  | 0, _, _ => none
  | fuel + 1, k, c =>
    match (page after key n (tables k) c).2 with
    | none => some [(page after key n (tables k) c).1]
    | some c' => (walk tables n fuel (k + 1) (some c')).map ((page after key n (tables k) c).1 :: ·)

/-- The rows are in the order of their keys. -/
def Sorted (t : List α) : Prop := t.Pairwise (fun a b => after (key a) (key b))

/-- A row comes after a key, if there is one. -/
def After (r : α) (c : Option κ) : Prop := ∀ c' ∈ c, after c' (key r)

variable {after key} {tables : ℕ → List α} {t l : List α} {n fuel k : ℕ} {c : Option κ} {r a : α}

theorem mem_rowsAfter : r ∈ rowsAfter after key t c ↔ r ∈ t ∧ After after key r c := by
  cases c with
  | none => simp [rowsAfter, After]
  | some c => simp [rowsAfter, After]

omit [DecidableRel after] in
theorem Sorted.sublist (h : Sorted after key t) (hl : l.Sublist t) : Sorted after key l :=
  List.Pairwise.sublist hl h

theorem sorted_rowsAfter (h : Sorted after key t) : Sorted after key (rowsAfter after key t c) := by
  cases c with
  | none => exact h
  | some c => exact h.sublist List.filter_sublist

/-- **The cases of a page**: it shows all that is left, or its key is that of its last row, after which
the rest comes. -/
theorem page_cases (h : Sorted after key t) (c : Option κ) :
    (page after key (n + 1) t c = (rowsAfter after key t c, none)) ∨
      ∃ shown last rest, rowsAfter after key t c = shown ++ last :: rest ∧ rest ≠ [] ∧
        page after key (n + 1) t c = (shown ++ [last], some (key last)) ∧
        ∀ r ∈ rest, after (key last) (key r) := by
  generalize hrows : rowsAfter after key t c = rows
  have hsorted : Sorted after key rows := hrows ▸ sorted_rowsAfter h
  rcases Nat.lt_or_ge (n + 1) rows.length with hlt | hle
  · refine Or.inr ⟨rows.take n, rows[n], rows.drop (n + 1), ?_, ?_, ?_, ?_⟩
    · rw [List.getElem_cons_drop, List.take_append_drop]
    · exact List.ne_nil_of_length_pos (by rw [List.length_drop]; omega)
    · have hshown : rows.take n ++ [rows[n]] = rows.take (n + 1) :=
        (List.take_succ_eq_append_getElem (by omega)).symm
      have htake : (rows.take (n + 1 + 1)).take (n + 1) = rows.take (n + 1) := by
        rw [List.take_take, Nat.min_eq_left (Nat.le_succ _)]
      have hmore : n + 1 < (rows.take (n + 1 + 1)).length := by
        rw [List.length_take]
        omega
      simp only [page, hrows, htake, if_pos hmore]
      rw [← hshown, List.getLast?_concat]
      rfl
    · -- the rows are in order
      have hpair : (rows[n] :: rows.drop (n + 1)).Pairwise (fun a b => after (key a) (key b)) := by
        rw [List.getElem_cons_drop]
        exact hsorted.sublist (List.drop_sublist _ _)
      exact (List.pairwise_cons.1 hpair).1
  · refine Or.inl ?_
    have hall : rows.take (n + 1 + 1) = rows := List.take_of_length_le (by omega)
    simp only [page, hrows, hall, if_neg (Nat.not_lt.2 hle), List.take_of_length_le hle]

/-! ### Walks -/

section Walks

variable (htrans : ∀ x y z, after x y → after y z → after x z)

omit [DecidableRel after] in
include htrans in
/-- What comes after the last row of a page comes after the key of the page. -/
theorem After.trans (h : After after key a c) (hr : after (key a) (key r)) : After after key r c :=
  fun c' hc' => htrans _ _ _ (h c' hc') hr

include htrans in
/-- **No row is shown twice**, whatever happens to the table between the pages. -/
theorem walk_sorted (hsorted : ∀ j, Sorted after key (tables j)) {pages : List (List α)}
    (h : walk after key tables (n + 1) fuel k c = some pages) :
    Sorted after key pages.flatten ∧
      ∀ r ∈ pages.flatten, After after key r c ∧ ∃ j, k ≤ j ∧ r ∈ tables j := by
  induction fuel generalizing k c pages with
  | zero => cases h
  | succ fuel ih =>
    have hrows : ∀ r ∈ rowsAfter after key (tables k) c,
        After after key r c ∧ ∃ j, k ≤ j ∧ r ∈ tables j :=
      fun r hr => ⟨(mem_rowsAfter.1 hr).2, k, Nat.le_refl k, (mem_rowsAfter.1 hr).1⟩
    rw [walk] at h
    rcases page_cases (n := n) (hsorted k) c with hpage | ⟨shown, last, rest, hsplit, -, hpage, -⟩
    · rw [hpage] at h
      obtain rfl := Option.some.inj h
      rw [List.flatten_singleton]
      exact ⟨sorted_rowsAfter (hsorted k), hrows⟩
    · rw [hpage] at h
      obtain ⟨pages', hpages', rfl⟩ := Option.map_eq_some_iff.1 h
      obtain ⟨hlater, hmem⟩ := ih hpages'
      have hfirst : Sorted after key (shown ++ [last]) := by
        have hall := sorted_rowsAfter (c := c) (hsorted k)
        rw [hsplit] at hall
        exact hall.sublist (List.Sublist.append_left (List.singleton_sublist.2
          List.mem_cons_self) shown)
      have hshown : ∀ r ∈ shown ++ [last], r ∈ rowsAfter after key (tables k) c := by
        intro r hr
        rw [hsplit]
        rcases List.mem_append.1 hr with hr | hr
        · exact List.mem_append_left _ hr
        · rw [List.mem_singleton.1 hr]
          exact List.mem_append_right _ List.mem_cons_self
      have hlast := hshown last (List.mem_append_right _ (List.mem_singleton.2 rfl))
      rw [List.flatten_cons]
      refine ⟨List.pairwise_append.2 ⟨hfirst, hlater, fun a ha b hb => ?_⟩, fun r hr => ?_⟩
      · have hb' : after (key last) (key b) := (hmem b hb).1 (key last) rfl
        rcases List.mem_append.1 ha with ha | ha
        · exact htrans _ _ _ ((List.pairwise_append.1 hfirst).2.2 a ha last
            (List.mem_singleton.2 rfl)) hb'
        · rw [List.mem_singleton.1 ha]
          exact hb'
      · rcases List.mem_append.1 hr with hr | hr
        · exact hrows r (hshown r hr)
        · obtain ⟨hafter, j, hj, hin⟩ := hmem r hr
          exact ⟨After.trans htrans (hrows last hlast).1 (hafter (key last) rfl), j, by omega, hin⟩

/-- **A row that is there all the time is shown**, whatever happens to the others. -/
theorem mem_walk (hsorted : ∀ j, Sorted after key (tables j)) {pages : List (List α)}
    (h : walk after key tables (n + 1) fuel k c = some pages) (hr : ∀ j, k ≤ j → r ∈ tables j)
    (hafter : After after key r c) : r ∈ pages.flatten := by
  induction fuel generalizing k c pages with
  | zero => cases h
  | succ fuel ih =>
    have hmem : r ∈ rowsAfter after key (tables k) c :=
      mem_rowsAfter.2 ⟨hr k (Nat.le_refl k), hafter⟩
    rw [walk] at h
    rcases page_cases (n := n) (hsorted k) c with hpage | ⟨shown, last, rest, hsplit, -, hpage, hrest⟩
    · rw [hpage] at h
      obtain rfl := Option.some.inj h
      rw [List.flatten_singleton]
      exact hmem
    · rw [hpage] at h
      obtain ⟨pages', hpages', rfl⟩ := Option.map_eq_some_iff.1 h
      rw [List.flatten_cons]
      rw [hsplit] at hmem
      rcases List.mem_append.1 hmem with hin | hin
      · exact List.mem_append_left _ (List.mem_append_left _ hin)
      · rcases List.mem_cons.1 hin with rfl | hin
        · exact List.mem_append_left _ (List.mem_append_right _ (List.mem_singleton.2 rfl))
        · refine List.mem_append_right _ (ih hpages' (fun j hj => hr j (by omega)) fun c' hc' => ?_)
          rw [← Option.some.inj hc']
          exact hrest r hin

include htrans in
/-- The rows after the last row of a page. -/
theorem rowsAfter_last (hirrefl : ∀ x, ¬ after x x) (hsorted : Sorted after key t)
    {shown rest : List α} (hsplit : rowsAfter after key t c = shown ++ a :: rest) :
    rowsAfter after key t (some (key a)) = rest := by
  have hpair : Sorted after key (shown ++ a :: rest) := hsplit ▸ sorted_rowsAfter hsorted
  obtain ⟨-, hrest, hcross⟩ := List.pairwise_append.1 hpair
  have ha : After after key a c :=
    (mem_rowsAfter.1 (hsplit ▸ List.mem_append_right shown List.mem_cons_self)).2
  -- what comes after the row comes after the cursor
  have hfilter : rowsAfter after key t (some (key a)) =
      (rowsAfter after key t c).filter (fun r => decide (after (key a) (key r))) := by
    cases c with
    | none => rfl
    | some c =>
      simp only [rowsAfter, List.filter_filter]
      refine List.filter_congr fun r _ => ?_
      by_cases hr : after (key a) (key r)
      · simp [hr, After.trans htrans ha hr c rfl]
      · simp [hr]
  have hbefore : ∀ r ∈ shown, ¬ decide (after (key a) (key r)) = true := fun r hr hdec =>
    hirrefl _ (htrans _ _ _ (hcross r hr a List.mem_cons_self) (of_decide_eq_true hdec))
  have hall : rest.filter (fun r => decide (after (key a) (key r))) = rest :=
    List.filter_eq_self.2 fun r hr => decide_eq_true ((List.pairwise_cons.1 hrest).1 r hr)
  rw [hfilter, hsplit, List.filter_append, List.filter_eq_nil_iff.2 hbefore, List.nil_append,
    List.filter_cons, if_neg (by simp [hirrefl]), hall]

include htrans in
/-- **A table that stays as it is** is shown as it is, with enough fuel. -/
theorem exists_walk (hirrefl : ∀ x, ¬ after x x) (hsorted : Sorted after key t)
    (hfuel : (rowsAfter after key t c).length < fuel) :
    ∃ pages, walk after key (fun _ => t) (n + 1) fuel k c = some pages ∧
      pages.flatten = rowsAfter after key t c := by
  induction fuel generalizing k c with
  | zero => exact absurd hfuel (Nat.not_lt_zero _)
  | succ fuel ih =>
    rw [walk]
    rcases page_cases (n := n) hsorted c with hpage | ⟨shown, last, rest, hsplit, -, hpage, -⟩
    · rw [hpage]
      exact ⟨_, rfl, List.flatten_singleton⟩
    · have hrows := rowsAfter_last htrans hirrefl hsorted hsplit
      have hless : (rowsAfter after key t (some (key last))).length < fuel := by
        rw [hrows]
        rw [hsplit, List.length_append, List.length_cons] at hfuel
        omega
      obtain ⟨pages, hpages, hflatten⟩ := ih (k := k + 1) hless
      rw [hpage]
      refine ⟨(shown ++ [last]) :: pages, by simp only [hpages, Option.map_some], ?_⟩
      rw [List.flatten_cons, hflatten, hrows, hsplit, List.append_assoc, List.singleton_append]

end Walks

end Keyset
