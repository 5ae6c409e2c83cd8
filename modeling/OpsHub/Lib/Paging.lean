import Mathlib.Data.List.Flatten
import Mathlib.Data.List.Perm.Basic
import Mathlib.Data.List.Sort
import Mathlib.Order.Basic
import Mathlib.Tactic.Common

/-!
# Pages of an ordered query

A query with `ORDER BY key DESC` may return rows with the same key in any order, and in another
order the next time.  The pages with `LIMIT n OFFSET k * n` of such queries put together are the
rows, each once, exactly if no border between two pages falls between rows with the same key.

* `Sorter`: a way to answer an `ORDER BY` clause;
* `filter_eq_take`, `sat_iff_lt`: what a condition on the key says about positions;
* `page`, `pages`, `Splits`;
* `take_perm_of_not_splits`: the rows before a border that splits no ties are the same ones
  however ties are ordered; `exists_swapped`: before one that does, they need not be;
* `pages_perm_iff`: the equivalence.
-/

namespace Paging

variable {α κ : Type*}

/-! ### Sorting -/

/-- A way to put lists into an order. -/
structure Sorter (r : α → α → Prop) where
  sort : List α → List α
  perm : ∀ l, (sort l).Perm l
  sorted : ∀ l, (sort l).Pairwise r

/-- The order of `ORDER BY key DESC`. -/
def Desc [LE κ] (key : α → κ) (a b : α) : Prop := key b ≤ key a

instance [LE κ] [DecidableLE κ] (key : α → κ) : DecidableRel (Desc key) := fun a b =>
  inferInstanceAs (Decidable (key b ≤ key a))

/-- Insertion is one way. -/
def Sorter.insertion (r : α → α → Prop) [DecidableRel r] (htotal : ∀ a b, r a b ∨ r b a)
    (htrans : ∀ a b c, r a b → r b c → r a c) : Sorter r where
  sort := List.insertionSort r
  perm := List.perm_insertionSort r
  sorted l :=
    haveI : Std.Total r := ⟨htotal⟩
    haveI : IsTrans α r := ⟨htrans⟩
    List.pairwise_insertionSort r l

/-- Another way, which differs on one list. -/
def Sorter.replace [DecidableEq α] {r : α → α → Prop} (s : Sorter r) (rows l : List α)
    (hperm : l.Perm rows) (hsorted : l.Pairwise r) : Sorter r where
  sort l' := if l' = rows then l else s.sort l'
  perm l' := by
    split
    · rename_i heq
      exact heq ▸ hperm
    · exact s.perm l'
  sorted l' := by
    split
    · exact hsorted
    · exact s.sorted l'

theorem Sorter.sort_replace [DecidableEq α] {r : α → α → Prop} (s : Sorter r) {rows l : List α}
    (hperm : l.Perm rows) (hsorted : l.Pairwise r) :
    (s.replace rows l hperm hsorted).sort rows = l := if_pos rfl

/-! ### Prefixes of a sorted list -/

section Prefix

variable {l : List α} {p : α → Bool} {i : ℕ} {a : α}

/-- If whatever comes before an element with the property has it too, the elements with the
property are a prefix. -/
theorem filter_eq_take (h : l.Pairwise (fun a b => p b = true → p a = true)) :
    l.filter p = l.take (l.countP p) := by
  induction l with
  | nil => rfl
  | cons a l ih =>
    obtain ⟨hhead, htail⟩ := List.pairwise_cons.1 h
    by_cases ha : p a = true
    · rw [List.filter_cons_of_pos ha, List.countP_cons_of_pos ha, List.take_succ_cons, ih htail]
    · have hnone : ∀ b ∈ l, ¬ p b = true := fun b hb hpb => ha (hhead b hb hpb)
      rw [List.filter_cons_of_neg ha, List.countP_cons_of_neg ha, List.countP_eq_zero.2 hnone,
        List.take_zero, List.filter_eq_nil_iff.2 hnone]

/-- The elements without the property come after it. -/
theorem filter_not_eq_drop (h : l.Pairwise (fun a b => p b = true → p a = true)) :
    l.filter (fun a => !p a) = l.drop (l.countP p) := by
  induction l with
  | nil => rfl
  | cons a l ih =>
    obtain ⟨hhead, htail⟩ := List.pairwise_cons.1 h
    by_cases ha : p a = true
    · rw [List.filter_cons_of_neg (by simp [ha]), List.countP_cons_of_pos ha, List.drop_succ_cons,
        ih htail]
    · have hnone : ∀ b ∈ a :: l, ¬ p b = true := by
        intro b hb hpb
        rcases List.mem_cons.1 hb with rfl | hb
        · exact ha hpb
        · exact ha (hhead b hb hpb)
      rw [List.countP_eq_zero.2 hnone, List.drop_zero]
      exact List.filter_eq_self.2 fun b hb => by simpa using hnone b hb

/-- The positions of the elements with the property. -/
theorem sat_iff_lt (h : l.Pairwise (fun a b => p b = true → p a = true)) (ha : l[i]? = some a) :
    p a = true ↔ i < l.countP p := by
  induction l generalizing i with
  | nil => cases ha
  | cons b l ih =>
    obtain ⟨hhead, htail⟩ := List.pairwise_cons.1 h
    by_cases hb : p b = true
    · cases i with
      | zero =>
        obtain rfl : b = a := by simpa using ha
        rw [List.countP_cons_of_pos hb]
        exact iff_of_true hb (Nat.succ_pos _)
      | succ i =>
        rw [List.countP_cons_of_pos hb, ih htail (by simpa using ha)]
        exact Nat.succ_lt_succ_iff.symm
    · have hnone : ∀ c ∈ b :: l, ¬ p c = true := by
        intro c hc hpc
        rcases List.mem_cons.1 hc with rfl | hc
        · exact hb hpc
        · exact hb (hhead c hc hpc)
      rw [List.countP_eq_zero.2 hnone]
      exact iff_of_false (hnone a (List.mem_of_getElem? ha)) (Nat.not_lt_zero i)

end Prefix

/-! ### Pages -/

/-- The page `k` of `n` rows, `LIMIT n OFFSET k * n`. -/
def page (n k : ℕ) (l : List α) : List α := (l.drop (k * n)).take n

/-- The first `m` pages put together; each query has its own answer. -/
def pages (n m : ℕ) (answer : ℕ → List α) : List α := (List.range m).flatMap fun k => page n k (answer k)

theorem take_add_page (n k : ℕ) (l : List α) : l.take ((k + 1) * n) = l.take (k * n) ++ page n k l := by
  rw [page, Nat.succ_mul, List.take_add]

theorem mem_page {n k i : ℕ} {l : List α} {a : α} (ha : l[k * n + i]? = some a) (hi : i < n) :
    a ∈ page n k l := by
  refine List.mem_of_getElem? (i := i) ?_
  rw [page, List.getElem?_take_of_lt hi, List.getElem?_drop]
  exact ha

section Ties

variable [LinearOrder κ] {key : α → κ} {rows l l' : List α} {m : ℕ}

/-- The border after `m` rows falls between rows with the same key. -/
def Splits (key : α → κ) (rows : List α) (m : ℕ) : Prop :=
  ∃ r ∈ rows, rows.countP (fun x => decide (key r < key x)) < m ∧
    m < rows.countP (fun x => decide (key r ≤ key x))

instance (key : α → κ) (rows : List α) (m : ℕ) : Decidable (Splits key rows m) :=
  inferInstanceAs (Decidable (∃ r ∈ rows, rows.countP (fun x => decide (key r < key x)) < m ∧
    m < rows.countP (fun x => decide (key r ≤ key x))))

/-- A border that splits ties lies inside. -/
theorem Splits.inside (h : Splits key rows m) : 0 < m ∧ m < rows.length := by
  obtain ⟨r, -, hlt, hle⟩ := h
  exact ⟨Nat.zero_lt_of_lt hlt, hle.trans_le List.countP_le_length⟩

theorem pairwise_le (h : l.Pairwise (Desc key)) (c : κ) :
    l.Pairwise (fun a b => decide (c ≤ key b) = true → decide (c ≤ key a) = true) :=
  h.imp fun hab hb => decide_eq_true (le_trans (of_decide_eq_true hb) hab)

theorem pairwise_lt (h : l.Pairwise (Desc key)) (c : κ) :
    l.Pairwise (fun a b => decide (c < key b) = true → decide (c < key a) = true) :=
  h.imp fun hab hb => decide_eq_true (lt_of_lt_of_le (of_decide_eq_true hb) hab)

/-- A border inside that splits no ties comes after the rows from some key on. -/
theorem exists_countP_eq (hl : l.Pairwise (Desc key)) (hperm : l.Perm rows) (hm : 0 < m)
    (hlength : m ≤ rows.length) (h : ¬ Splits key rows m) :
    ∃ c, rows.countP (fun x => decide (c ≤ key x)) = m := by
  obtain ⟨i, rfl⟩ := Nat.exists_eq_succ_of_ne_zero hm.ne'
  have hi : i < l.length := hperm.length_eq ▸ hlength
  have hget : l[i]? = some l[i] := List.getElem?_eq_getElem hi
  refine ⟨key l[i], le_antisymm ?_ ?_⟩
  · by_contra hgt
    refine h ⟨l[i], hperm.mem_iff.1 (List.getElem_mem hi), ?_, not_le.1 hgt⟩
    rw [← hperm.countP_eq]
    by_contra hge
    have hsat := (sat_iff_lt (pairwise_lt hl (key l[i])) hget).2 (by omega)
    exact lt_irrefl _ (of_decide_eq_true hsat)
  · have hlt := (sat_iff_lt (pairwise_le hl (key l[i])) hget).1 (decide_eq_true le_rfl)
    rw [hperm.countP_eq] at hlt
    exact hlt

/-- **A border that splits no ties** has the same rows before it, however ties are ordered. -/
theorem take_perm_of_not_splits (hl : l.Pairwise (Desc key)) (hperm : l.Perm rows)
    (hl' : l'.Pairwise (Desc key)) (hperm' : l'.Perm rows) (h : ¬ Splits key rows m) :
    (l.take m).Perm (l'.take m) := by
  rcases Nat.eq_zero_or_pos m with rfl | hm
  · rw [List.take_zero, List.take_zero]
  rcases Nat.lt_or_ge rows.length m with hlong | hlength
  · rw [List.take_of_length_le (hperm.length_eq.le.trans hlong.le),
      List.take_of_length_le (hperm'.length_eq.le.trans hlong.le)]
    exact hperm.trans hperm'.symm
  obtain ⟨c, hc⟩ := exists_countP_eq hl hperm hm hlength h
  have htake : ∀ l : List α, l.Pairwise (Desc key) → l.Perm rows →
      l.filter (fun x => decide (c ≤ key x)) = l.take m := by
    intro l hl hperm
    rw [filter_eq_take (pairwise_le hl c), hperm.countP_eq, hc]
  rw [← htake l hl hperm, ← htake l' hl' hperm']
  exact (hperm.trans hperm'.symm).filter _

/-- **A border that splits ties** has two rows with the same key at its sides, and there is an
order in which they have changed places. -/
theorem exists_swapped (hl : l.Pairwise (Desc key)) (hperm : l.Perm rows) (h : Splits key rows m) :
    ∃ (l' : List α) (a : α), l'.Perm rows ∧ l'.Pairwise (Desc key) ∧ l[m - 1]? = some a ∧
      l'[m]? = some a := by
  have hinside := h.inside
  obtain ⟨r, -, hlt, hle⟩ := h
  rw [← hperm.countP_eq] at hlt hle
  have hlength : m < l.length := hperm.length_eq.symm ▸ hinside.2
  obtain ⟨i, rfl⟩ := Nat.exists_eq_succ_of_ne_zero hinside.1.ne'
  have hi : i < l.length := Nat.lt_of_succ_lt hlength
  have hsplit : l = l.take i ++ l[i] :: l[i + 1] :: l.drop (i + 2) := by
    rw [← List.drop_eq_getElem_cons hlength, ← List.drop_eq_getElem_cons hi,
      List.take_append_drop]
  have hkey : ∀ j (hj : j < l.length), i ≤ j → j ≤ i + 1 → key l[j] = key r := by
    intro j hj hij hji
    have hget : l[j]? = some l[j] := List.getElem?_eq_getElem hj
    have hnotlt := (sat_iff_lt (pairwise_lt hl (key r)) hget).not.2 (by omega)
    have hsat := (sat_iff_lt (pairwise_le hl (key r)) hget).2 (by omega)
    exact le_antisymm (not_lt.1 fun hgt => hnotlt (decide_eq_true hgt)) (of_decide_eq_true hsat)
  have hsame : key l[i] = key l[i + 1] :=
    (hkey i hi le_rfl (Nat.le_succ i)).trans (hkey (i + 1) hlength (Nat.le_succ i) le_rfl).symm
  refine ⟨l.take i ++ l[i + 1] :: l[i] :: l.drop (i + 2), l[i], ?_, ?_,
    List.getElem?_eq_getElem hi, ?_⟩
  · refine List.Perm.trans ?_ hperm
    conv_rhs => rw [hsplit]
    exact (List.Perm.swap _ _ _).append_left _
  · -- the order of the keys is what it was
    have hkeys : (l.take i ++ l[i + 1] :: l[i] :: l.drop (i + 2)).map key = l.map key := by
      conv_rhs => rw [hsplit]
      simp only [List.map_append, List.map_cons, hsame]
    have hsorted : (l.map key).Pairwise (fun a b => b ≤ a) := List.pairwise_map.2 hl
    rw [← hkeys] at hsorted
    exact (List.pairwise_map (R := fun a b => b ≤ a)).1 hsorted
  · have htake : (l.take i).length = i := List.length_take_of_le hi.le
    rw [List.getElem?_append_right (by omega), htake, Nat.succ_eq_add_one, Nat.add_sub_cancel_left]
    rfl

/-! ### All pages -/

/-- If no border splits ties, a page has the same rows however they are ordered. -/
theorem page_perm {n k : ℕ} (hl : l.Pairwise (Desc key)) (hperm : l.Perm rows)
    (hl' : l'.Pairwise (Desc key)) (hperm' : l'.Perm rows) (h : ∀ k, ¬ Splits key rows (k * n)) :
    (page n k l).Perm (page n k l') := by
  have hnext := take_perm_of_not_splits hl hperm hl' hperm' (h (k + 1))
  have hbefore := take_perm_of_not_splits hl hperm hl' hperm' (h k)
  rw [take_add_page, take_add_page] at hnext
  exact (List.perm_append_left_iff _).1 (hnext.trans (hbefore.symm.append_right _))

/-- The pages of one answer. -/
theorem pages_const (n m : ℕ) (l : List α) : pages n m (fun _ => l) = l.take (m * n) := by
  induction m with
  | zero => rw [Nat.zero_mul, List.take_zero]; rfl
  | succ m ih =>
    rw [take_add_page, ← ih, pages, pages, List.range_succ, List.flatMap_append,
      List.flatMap_singleton]

/-- **The pages are the rows, each once,** however the answers order ties, if and only if no
border between two pages splits ties. -/
theorem pages_perm_iff {n m : ℕ} (s : Sorter (Desc key)) (hnodup : rows.Nodup) (hn : 0 < n)
    (hm : rows.length ≤ m * n) :
    (∀ sorter : ℕ → Sorter (Desc key),
      (pages n m fun k => (sorter k).sort rows).Perm rows) ↔ ∀ k, ¬ Splits key rows (k * n) := by
  classical
  constructor
  · intro h k hsplits
    obtain ⟨l', a, hperm', hl', ha, ha'⟩ :=
      exists_swapped (s.sorted rows) (s.perm rows) hsplits
    obtain ⟨k, rfl⟩ := Nat.exists_eq_succ_of_ne_zero
      (Nat.pos_of_mul_pos_right hsplits.inside.1).ne'
    have hk : k + 1 < m := by
      have hlt := hsplits.inside.2.trans_le hm
      exact Nat.lt_of_mul_lt_mul_right hlt
    -- the page `k` ends with `a`, and the page `k + 1` begins with it
    let sorter : ℕ → Sorter (Desc key) :=
      Function.update (fun _ => s) (k + 1) (s.replace rows l' hperm' hl')
    have hfirst : (sorter k).sort rows = s.sort rows := by
      rw [show sorter k = s from Function.update_of_ne (Nat.lt_succ_self k).ne _ _]
    have hsecond : (sorter (k + 1)).sort rows = l' := by
      rw [show sorter (k + 1) = s.replace rows l' hperm' hl' from Function.update_self _ _ _,
        Sorter.sort_replace]
    have hpages := (h sorter).nodup_iff.2 hnodup
    have hdisjoint := List.pairwise_iff_getElem.1 (List.nodup_flatMap.1 hpages).2 k (k + 1)
      (by rw [List.length_range]; omega) (by rw [List.length_range]; omega) (Nat.lt_succ_self k)
    simp only [List.getElem_range, Function.onFun, hfirst, hsecond] at hdisjoint
    refine hdisjoint (a := a) (mem_page (i := n - 1) ?_ (by omega)) (mem_page (i := 0) ha' hn)
    rw [← ha]
    congr 1
    rw [Nat.succ_mul]
    omega
  · intro h sorter
    have hpages : (pages n m fun k => (sorter k).sort rows).Perm (pages n m fun _ => s.sort rows) :=
      List.Perm.flatMap_left _ fun k _ => page_perm ((sorter k).sorted rows) ((sorter k).perm rows)
        (s.sorted rows) (s.perm rows) h
    rw [pages_const, List.take_of_length_le ((s.perm rows).length_eq.le.trans hm)] at hpages
    exact hpages.trans (s.perm rows)

end Ties

end Paging
