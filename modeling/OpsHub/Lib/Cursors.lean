import OpsHub.Lib.Paging

/-!
# Pages by cursor

A page is fetched with one row more than it shows; if that row is there, the next page is asked
for by a cursor, the `coarse` value of the last row shown, and consists of rows below it.  The
rows are ordered by `key`, which may be finer than what the cursor keeps of it.

* `cursorPage`, `follow`: one page, and following the cursors until there is none;
* `splits_append`, `splits_iff_lt_countP`: borders between pages;
* `follow_spec`: following the cursors ends, and gives every row once, in order, exactly if no
  border falls between rows with the same coarse value.
-/

namespace Paging

variable {α κ ι : Type*} [LinearOrder κ] [LinearOrder ι] {key : α → κ} {coarse : α → ι}

/-- The rows below the cursor; without one, all rows. -/
def below (coarse : α → ι) (rows : List α) : Option ι → List α
  | none => rows
  | some c => rows.filter (fun r => decide (coarse r < c))

/-- A page of `n` rows, and the cursor for the next one. -/
def cursorPage (s : Sorter (Desc key)) (coarse : α → ι) (n : ℕ) (rows : List α)
    (cursor : Option ι) : List α × Option ι :=
  let found := (s.sort (below coarse rows cursor)).take (n + 1)
  let items := found.take n
  (items, if n < found.length then items.getLast?.map coarse else none)

/-- Follow the cursors until there is none; `s k` answers the query for page `k`. -/
def follow (s : ℕ → Sorter (Desc key)) (coarse : α → ι) (n : ℕ) (rows : List α) :
    (fuel k : ℕ) → Option ι → Option (List (List α))
  | 0, _, _ => none
  | fuel + 1, k, cursor =>
    match (cursorPage (s k) coarse n rows cursor).2 with
    | none => some [(cursorPage (s k) coarse n rows cursor).1]
    | some c => (follow s coarse n rows fuel (k + 1) (some c)).map
        ((cursorPage (s k) coarse n rows cursor).1 :: ·)

/-! ### One page -/

section Page

variable {s : Sorter (Desc key)} {n : ℕ} {rows : List α} {cursor : Option ι}

/-- A page that shows everything has no cursor. -/
theorem cursorPage_of_le (h : (below coarse rows cursor).length ≤ n) :
    cursorPage s coarse n rows cursor = (s.sort (below coarse rows cursor), none) := by
  have hlength : (s.sort (below coarse rows cursor)).length ≤ n :=
    (s.perm _).length_eq.le.trans h
  have hall : (s.sort (below coarse rows cursor)).take (n + 1) = s.sort (below coarse rows cursor) :=
    List.take_of_length_le (hlength.trans (Nat.le_succ n))
  simp only [cursorPage, hall, if_neg (not_lt.2 hlength), List.take_of_length_le hlength]

/-- A page that leaves rows has the cursor of its last row. -/
theorem cursorPage_of_lt (h : n + 1 < (below coarse rows cursor).length) :
    ∃ a, (s.sort (below coarse rows cursor))[n]? = some a ∧
      cursorPage s coarse (n + 1) rows cursor =
        ((s.sort (below coarse rows cursor)).take (n + 1), some (coarse a)) := by
  have hlength : n + 1 < (s.sort (below coarse rows cursor)).length :=
    (s.perm _).length_eq.symm ▸ h
  have hn : n < (s.sort (below coarse rows cursor)).length := Nat.lt_of_succ_lt hlength
  have hmore : n + 1 < ((s.sort (below coarse rows cursor)).take (n + 1 + 1)).length := by
    rw [List.length_take]
    omega
  have hitems : ((s.sort (below coarse rows cursor)).take (n + 1 + 1)).take (n + 1) =
      (s.sort (below coarse rows cursor)).take (n + 1) := by
    rw [List.take_take, Nat.min_eq_left (Nat.le_succ _)]
  have hlast : ((s.sort (below coarse rows cursor)).take (n + 1)).getLast? =
      some (s.sort (below coarse rows cursor))[n] := by
    rw [List.getLast?_eq_getElem?, List.length_take_of_le hlength.le, Nat.add_sub_cancel,
      List.getElem?_take_of_lt (Nat.lt_succ_self n), List.getElem?_eq_getElem hn]
  refine ⟨_, List.getElem?_eq_getElem hn, ?_⟩
  simp only [cursorPage, if_pos hmore, hitems, hlast, Option.map_some]

end Page

/-! ### Borders -/

section Borders

variable {rows rows' l l₁ l₂ : List α} {n m : ℕ} {a : α}

theorem splits_congr (h : rows.Perm rows') : Splits coarse rows m ↔ Splits coarse rows' m := by
  unfold Splits
  simp only [h.mem_iff, h.countP_eq]

/-- A border after rows that are all above the rest is one of the rest. -/
theorem splits_append (h : ∀ a ∈ l₁, ∀ b ∈ l₂, coarse b < coarse a) :
    Splits coarse (l₁ ++ l₂) (l₁.length + m) ↔ Splits coarse l₂ m := by
  have hcount : ∀ r ∈ l₂,
      (l₁ ++ l₂).countP (fun x => decide (coarse r < coarse x)) =
          l₁.length + l₂.countP (fun x => decide (coarse r < coarse x)) ∧
        (l₁ ++ l₂).countP (fun x => decide (coarse r ≤ coarse x)) =
          l₁.length + l₂.countP (fun x => decide (coarse r ≤ coarse x)) := by
    intro r hr
    have hlt : ∀ a ∈ l₁, decide (coarse r < coarse a) = true :=
      fun a ha => decide_eq_true (h a ha r hr)
    have hle : ∀ a ∈ l₁, decide (coarse r ≤ coarse a) = true :=
      fun a ha => decide_eq_true (h a ha r hr).le
    rw [List.countP_append, List.countP_append, List.countP_eq_length.2 hlt,
      List.countP_eq_length.2 hle]
    exact ⟨rfl, rfl⟩
  constructor
  · rintro ⟨r, hr, hlt, hle⟩
    rcases List.mem_append.1 hr with hr | hr
    · -- the rows at or above one of the first part are in the first part
      have hnone : ∀ b ∈ l₂, ¬ decide (coarse r ≤ coarse b) = true :=
        fun b hb hsat => absurd (of_decide_eq_true hsat) (not_le.2 (h r hr b hb))
      rw [List.countP_append, List.countP_eq_zero.2 hnone] at hle
      have hfew := List.countP_le_length (p := fun x => decide (coarse r ≤ coarse x)) (l := l₁)
      omega
    · obtain ⟨hcountLt, hcountLe⟩ := hcount r hr
      exact ⟨r, hr, by omega, by omega⟩
  · rintro ⟨r, hr, hlt, hle⟩
    obtain ⟨hcountLt, hcountLe⟩ := hcount r hr
    exact ⟨r, List.mem_append_right _ hr, by omega, by omega⟩

/-- The rows at or above the last row of a page are at least those of the page. -/
theorem lt_countP (hl : l.Pairwise (Desc coarse)) (ha : l[n]? = some a) :
    n < l.countP (fun x => decide (coarse a ≤ coarse x)) :=
  (sat_iff_lt (pairwise_le hl (coarse a)) ha).1 (decide_eq_true le_rfl)

/-- A border splits ties exactly if there are more of them. -/
theorem splits_iff_lt_countP (hl : l.Pairwise (Desc coarse)) (ha : l[n]? = some a) :
    Splits coarse l (n + 1) ↔ n + 1 < l.countP (fun x => decide (coarse a ≤ coarse x)) := by
  constructor
  · rintro ⟨r, -, hlt, hle⟩
    -- the row before the border has the value that is split
    have hnotlt := (sat_iff_lt (pairwise_lt hl (coarse r)) ha).1.mt (by omega)
    have hsame : coarse a ≤ coarse r := not_lt.1 fun hgt => hnotlt (decide_eq_true hgt)
    refine hle.trans_le (List.countP_mono_left fun x _ hx => ?_)
    exact decide_eq_true (hsame.trans (of_decide_eq_true hx))
  · intro hlt
    refine ⟨a, List.mem_of_getElem? ha, ?_, hlt⟩
    by_contra hge
    have hsat := (sat_iff_lt (pairwise_lt hl (coarse a)) ha).2 (by omega)
    exact lt_irrefl _ (of_decide_eq_true hsat)

/-- The rows below the last row of a page are those after it. -/
theorem filter_lt_eq_drop (hl : l.Pairwise (Desc coarse)) :
    l.filter (fun x => decide (coarse x < coarse a)) =
      l.drop (l.countP (fun x => decide (coarse a ≤ coarse x))) := by
  rw [← filter_not_eq_drop (pairwise_le hl (coarse a))]
  refine List.filter_congr fun x _ => ?_
  rw [← decide_not, decide_eq_decide, not_le]

/-- **A border that splits no ties**: the rows below the last row of the page are the rest, and
the borders of the rest are the later borders. -/
theorem rest_of_not_splits (hl : l.Pairwise (Desc coarse)) (ha : l[n]? = some a)
    (h : ¬ Splits coarse l (n + 1)) :
    l.filter (fun x => decide (coarse x < coarse a)) = l.drop (n + 1) ∧
      ((∀ k, ¬ Splits coarse l (k * (n + 1))) ↔
        ∀ k, ¬ Splits coarse (l.drop (n + 1)) (k * (n + 1))) := by
  have hcount : l.countP (fun x => decide (coarse a ≤ coarse x)) = n + 1 :=
    le_antisymm (not_lt.1 ((splits_iff_lt_countP hl ha).not.1 h)) (lt_countP hl ha)
  have hrest := filter_lt_eq_drop (a := a) hl
  rw [hcount] at hrest
  have hfirst : l.filter (fun x => decide (coarse a ≤ coarse x)) = l.take (n + 1) := by
    rw [filter_eq_take (pairwise_le hl (coarse a)), hcount]
  have habove : ∀ x ∈ l.take (n + 1), ∀ y ∈ l.drop (n + 1), coarse y < coarse x := by
    intro x hx y hy
    rw [← hfirst] at hx
    rw [← hrest] at hy
    exact (of_decide_eq_true (List.mem_filter.1 hy).2).trans_le
      (of_decide_eq_true (List.mem_filter.1 hx).2)
  have hlength : (l.take (n + 1)).length = n + 1 :=
    List.length_take_of_le (List.getElem?_eq_some_iff.1 ha).1
  have hshift : ∀ k, Splits coarse l ((k + 1) * (n + 1)) ↔
      Splits coarse (l.drop (n + 1)) (k * (n + 1)) := by
    intro k
    have happend := splits_append (m := k * (n + 1)) habove
    rw [List.take_append_drop, hlength] at happend
    rw [Nat.succ_mul, Nat.add_comm]
    exact happend
  refine ⟨hrest, fun hall k => (hshift k).not.1 (hall (k + 1)), fun hall k => ?_⟩
  cases k with
  | zero =>
    rw [Nat.zero_mul]
    exact fun hsplits => absurd hsplits.inside.1 (Nat.lt_irrefl 0)
  | succ k => exact (hshift k).not.2 (hall k)

end Borders

/-! ### Following the cursors -/

section Follow

variable {s : ℕ → Sorter (Desc key)} {rows : List α} {n : ℕ}

/-- The rows below a row that is below the cursor. -/
theorem below_some {cursor : Option ι} {a : α} (ha : a ∈ below coarse rows cursor) :
    below coarse rows (some (coarse a)) =
      (below coarse rows cursor).filter (fun x => decide (coarse x < coarse a)) := by
  cases cursor with
  | none => rfl
  | some c =>
    have hlt : coarse a < c := of_decide_eq_true (List.mem_filter.1 ha).2
    show rows.filter _ = (rows.filter _).filter _
    rw [List.filter_filter]
    refine List.filter_congr fun x _ => ?_
    rw [← Bool.decide_and, decide_eq_decide]
    exact (and_iff_left_of_imp fun hx => hx.trans hlt).symm

/-- A longer way leads to the same pages. -/
theorem follow_mono {fuel fuel' k : ℕ} {cursor : Option ι} {pages : List (List α)}
    (h : follow s coarse n rows fuel k cursor = some pages) (hle : fuel ≤ fuel') :
    follow s coarse n rows fuel' k cursor = some pages := by
  induction fuel generalizing fuel' k cursor pages with
  | zero => cases h
  | succ fuel ih =>
    obtain ⟨fuel', rfl⟩ := Nat.exists_eq_succ_of_ne_zero (Nat.zero_lt_of_lt hle).ne'
    rw [follow] at h ⊢
    cases hnext : (cursorPage (s k) coarse n rows cursor).2 with
    | none =>
      rw [hnext] at h
      exact h
    | some c =>
      simp only [hnext, Option.map_eq_some_iff] at h ⊢
      obtain ⟨rest, hrest, rfl⟩ := h
      exact ⟨rest, ih hrest (Nat.le_of_succ_le_succ hle), rfl⟩

/-- A first part that stays in its place. -/
theorem append_perm_iff {Q : α → α → Prop} {l₁ l₂ l : List α} (h : (l₁ ++ l₂).Pairwise Q) :
    ((l₁ ++ l).Perm (l₁ ++ l₂) ∧ (l₁ ++ l).Pairwise Q) ↔ l.Perm l₂ ∧ l.Pairwise Q := by
  rw [List.perm_append_left_iff]
  refine and_congr_right fun hperm => ⟨fun hl => (List.pairwise_append.1 hl).2.1, fun hl => ?_⟩
  obtain ⟨hfirst, -, hcross⟩ := List.pairwise_append.1 h
  exact List.pairwise_append.2
    ⟨hfirst, hl, fun a ha b hb => hcross a ha b (hperm.mem_iff.1 hb)⟩

/-- A page that ends among rows with one value of the cursor: those after it are lost. -/
theorem not_perm_of_splits {found l rest : List α} {a : α} (hperm : l.Perm found)
    (hl : l.Pairwise (Desc coarse)) (ha : l[n]? = some a)
    (hmem : ∀ r ∈ rest, r ∈ found.filter (fun x => decide (coarse x < coarse a)))
    (hsplits : Splits coarse l (n + 1)) : ¬ (l.take (n + 1) ++ rest).Perm found := by
  intro hall
  -- too many rows have the value of the last row of the page
  have hmany := (splits_iff_lt_countP hl ha).1 hsplits
  have hnone : ∀ r ∈ rest, ¬ decide (coarse a ≤ coarse r) = true := fun r hr hsat =>
    absurd (of_decide_eq_true (List.mem_filter.1 (hmem r hr)).2)
      (not_lt.2 (of_decide_eq_true hsat))
  have hfew := List.countP_le_length (p := fun x => decide (coarse a ≤ coarse x))
    (l := l.take (n + 1))
  rw [hperm.countP_eq, ← hall.countP_eq, List.countP_append, List.countP_eq_zero.2 hnone] at hmany
  rw [List.length_take] at hfew
  omega

/-- The step from one page to the next: `rest` are the rows of the pages that follow the page
with the last row `a`. -/
theorem next_page_iff {found l rest : List α} {a : α}
    (hmono : ∀ a b, key a ≤ key b → coarse a ≤ coarse b) (hperm : l.Perm found)
    (hl : l.Pairwise (Desc key)) (ha : l[n]? = some a)
    (hmem : ∀ r ∈ rest, r ∈ found.filter (fun x => decide (coarse x < coarse a)))
    (hrest : (rest.Perm (found.filter (fun x => decide (coarse x < coarse a))) ∧
        rest.Pairwise (Desc key)) ↔
      ∀ k, ¬ Splits coarse (found.filter (fun x => decide (coarse x < coarse a))) (k * (n + 1))) :
    ((l.take (n + 1) ++ rest).Perm found ∧ (l.take (n + 1) ++ rest).Pairwise (Desc key)) ↔
      ∀ k, ¬ Splits coarse found (k * (n + 1)) := by
  have hcoarse : l.Pairwise (Desc coarse) := hl.imp (hmono _ _)
  by_cases hsplits : Splits coarse l (n + 1)
  · refine iff_of_false ?_ fun h => ?_
    · exact fun hall => not_perm_of_splits hperm hcoarse ha hmem hsplits hall.1
    · refine h 1 ((splits_congr hperm).1 ?_)
      rw [Nat.one_mul]
      exact hsplits
  · obtain ⟨hdrop, hborders⟩ := rest_of_not_splits hcoarse ha hsplits
    have hfound : (found.filter (fun x => decide (coarse x < coarse a))).Perm (l.drop (n + 1)) :=
      (hperm.symm.filter _).trans (List.Perm.of_eq hdrop)
    have hsplit : l.take (n + 1) ++ l.drop (n + 1) = l := List.take_append_drop _ _
    have hpages : (l.take (n + 1) ++ rest).Perm found ↔
        (l.take (n + 1) ++ rest).Perm (l.take (n + 1) ++ l.drop (n + 1)) := by
      rw [hsplit]
      exact ⟨fun h => h.trans hperm.symm, fun h => h.trans hperm⟩
    calc ((l.take (n + 1) ++ rest).Perm found ∧ (l.take (n + 1) ++ rest).Pairwise (Desc key))
        ↔ rest.Perm (l.drop (n + 1)) ∧ rest.Pairwise (Desc key) := by
          rw [hpages]
          exact append_perm_iff (hsplit.symm ▸ hl)
      _ ↔ rest.Perm (found.filter (fun x => decide (coarse x < coarse a))) ∧
            rest.Pairwise (Desc key) :=
          and_congr_left' ⟨fun h => h.trans hfound.symm, fun h => h.trans hfound⟩
      _ ↔ ∀ k, ¬ Splits coarse (l.drop (n + 1)) (k * (n + 1)) := by
          rw [hrest]
          exact forall_congr' fun k => (splits_congr hfound).not
      _ ↔ ∀ k, ¬ Splits coarse found (k * (n + 1)) := by
          rw [← hborders]
          exact forall_congr' fun k => (splits_congr hperm).not

/-- **Following the cursors** from any cursor ends.  The pages are the rows below the cursor, in
order, exactly if no border falls between rows with the same coarse value. -/
theorem follow_spec (hmono : ∀ a b, key a ≤ key b → coarse a ≤ coarse b) (fuel k : ℕ)
    (cursor : Option ι) (hfuel : (below coarse rows cursor).length < fuel) :
    ∃ pages, follow s coarse (n + 1) rows fuel k cursor = some pages ∧
      (∀ r ∈ pages.flatten, r ∈ below coarse rows cursor) ∧
      ((pages.flatten.Perm (below coarse rows cursor) ∧ pages.flatten.Pairwise (Desc key)) ↔
        ∀ k, ¬ Splits coarse (below coarse rows cursor) (k * (n + 1))) := by
  induction fuel generalizing k cursor with
  | zero => exact absurd hfuel (Nat.not_lt_zero _)
  | succ fuel ih =>
    have hperm := (s k).perm (below coarse rows cursor)
    have hsorted := (s k).sorted (below coarse rows cursor)
    rcases Nat.lt_or_ge (n + 1) (below coarse rows cursor).length with hmore | hall
    · obtain ⟨a, ha, hpage⟩ := cursorPage_of_lt (s := s k) hmore
      have haR := hperm.mem_iff.1 (List.mem_of_getElem? ha)
      have hbelow := below_some haR
      have hless : (below coarse rows (some (coarse a))).length <
          (below coarse rows cursor).length := by
        rw [hbelow, List.length_filter_lt_length_iff_exists]
        exact ⟨a, haR, by simp⟩
      obtain ⟨rest, hrest, hmem, hiff⟩ := ih (k + 1) (some (coarse a)) (by omega)
      refine ⟨((s k).sort (below coarse rows cursor)).take (n + 1) :: rest, ?_, ?_, ?_⟩
      · rw [follow, hpage]
        simp only [hrest, Option.map_some]
      · intro r hr
        rw [List.flatten_cons] at hr
        rcases List.mem_append.1 hr with hr | hr
        · exact hperm.mem_iff.1 (List.mem_of_mem_take hr)
        · have hr' := hmem r hr
          rw [hbelow] at hr'
          exact (List.mem_filter.1 hr').1
      · rw [List.flatten_cons]
        exact next_page_iff hmono hperm hsorted ha (hbelow ▸ hmem) (hbelow ▸ hiff)
    · -- the page shows everything
      have hpage := cursorPage_of_le (s := s k) hall
      refine ⟨[(s k).sort (below coarse rows cursor)], ?_, ?_, ?_⟩
      · rw [follow, hpage]
      · intro r hr
        rw [List.flatten_singleton] at hr
        exact hperm.mem_iff.1 hr
      · rw [List.flatten_singleton]
        refine iff_of_true ⟨hperm, hsorted⟩ fun k hsplits => ?_
        obtain ⟨hpos, hlt⟩ := hsplits.inside
        cases k with
        | zero => exact absurd hpos (by omega)
        | succ k =>
          rw [Nat.succ_mul] at hlt
          omega

/-- **Pages by cursor** end, and give every row once, in order, if and only if no border falls
between rows with the same coarse value. -/
theorem exists_follow_iff (hmono : ∀ a b, key a ≤ key b → coarse a ≤ coarse b) :
    (∃ fuel pages, follow s coarse (n + 1) rows fuel 0 none = some pages ∧
      pages.flatten.Perm rows ∧ pages.flatten.Pairwise (Desc key)) ↔
      ∀ k, ¬ Splits coarse rows (k * (n + 1)) := by
  obtain ⟨pages, hpages, -, hiff⟩ : ∃ pages,
      follow s coarse (n + 1) rows (rows.length + 1) 0 none = some pages ∧ _ :=
    follow_spec hmono (rows.length + 1) 0 none (Nat.lt_succ_self _)
  refine Iff.trans ⟨?_, fun h => ⟨_, pages, hpages, h⟩⟩ hiff
  rintro ⟨fuel, pages', hpages', hall⟩
  have hlong := follow_mono hpages (Nat.le_max_left (rows.length + 1) fuel)
  rw [follow_mono hpages' (Nat.le_max_right (rows.length + 1) fuel)] at hlong
  obtain rfl := Option.some.inj hlong
  exact hall

end Follow

end Paging
