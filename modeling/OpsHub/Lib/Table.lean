import Mathlib.Data.List.Nodup
import Mathlib.Tactic.Common

/-!
# Tables with a primary key

A table is a list of rows in which no two rows have the same key.  The uniqueness
is a field of the structure, so that a table that breaks it cannot be built: an
insertion that would is refused, and an update has to keep the key.

* `find`, `insert`, `updateWhere`, `update`, `deleteWhere`: the statements of a
  database on one table;
* `eq_of_key_eq`, `eq_of_map_eq`: rows are told apart by what keeps their keys;
* `lt_foldr`: a number that no row has yet;
* `mem_rows_iff_find` relates the two ways of speaking about a row;
* `insertAll`: an insertion of several rows, `rows_insertAll`, `exists_insertAll`;
* `find_*`, `mem_*` and `countP_insert`: what each statement does
  to lookups, to membership and to the number of rows with a property;
* `Unique` and `findBy`: unique indexes, which may leave rows out, and lookups by them.
-/

/-- A table whose rows are identified by `key`. -/
structure Table {κ ρ : Type*} (key : ρ → κ) where
  rows : List ρ
  nodup : (rows.map key).Nodup

namespace Table

variable {κ ρ : Type*} {key : ρ → κ}

/-- The table without rows. -/
def empty (key : ρ → κ) : Table key := ⟨[], List.nodup_nil⟩

@[simp] theorem rows_empty : (empty key).rows = [] := rfl

theorem eq_of_rows_eq {t t' : Table key} (h : t.rows = t'.rows) : t = t' := by
  obtain ⟨rows, hnodup⟩ := t
  obtain ⟨rows', hnodup'⟩ := t'
  obtain rfl : rows = rows' := h
  rfl

/-- Two rows of a table with the same key are the same row. -/
theorem eq_of_key_eq (t : Table key) {r r' : ρ} (hr : r ∈ t.rows) (hr' : r' ∈ t.rows)
    (h : key r = key r') : r = r' :=
  List.inj_on_of_nodup_map t.nodup hr hr' h

/-- A view of rows that keeps their keys tells lists of them apart. -/
theorem eq_of_map_eq {β : Type*} (t : Table key) {f : ρ → β}
    (hf : ∀ r r', f r = f r' → key r = key r') {l l' : List ρ} (hl : ∀ r ∈ l, r ∈ t.rows)
    (hl' : ∀ r ∈ l', r ∈ t.rows) (h : l.map f = l'.map f) : l = l' := by
  induction l generalizing l' with
  | nil => exact (List.map_eq_nil_iff.1 h.symm).symm
  | cons r l ih =>
    cases l' with
    | nil => cases h
    | cons r' l' =>
      rw [List.map_cons, List.map_cons, List.cons.injEq] at h
      rw [List.forall_mem_cons] at hl hl'
      rw [t.eq_of_key_eq hl.1 hl'.1 (hf r r' h.1), ih hl.2 hl'.2 h.2]

/-- A number that is larger than that of every row. -/
theorem lt_foldr (number : ρ → ℕ) (rows : List ρ) :
    ∀ r ∈ rows, number r < rows.foldr (fun r n => number r + n + 1) 0 := by
  induction rows with
  | nil => exact fun r hr => absurd hr List.not_mem_nil
  | cons r' rows ih =>
    intro r hr
    rw [List.foldr_cons]
    rcases List.mem_cons.1 hr with rfl | hr
    · exact Nat.lt_succ_of_le (Nat.le_add_right _ _)
    · exact Nat.lt_succ_of_le (Nat.le_trans (Nat.le_of_lt (ih r hr)) (Nat.le_add_left _ _))

variable [DecidableEq κ]

/-- The row with key `k`. -/
def find (t : Table key) (k : κ) : Option ρ := t.rows.find? (fun r => decide (key r = k))

/-- Insert a row; refused when its key is taken. -/
def insert (t : Table key) (r : ρ) : Option (Table key) :=
  if h : key r ∈ t.rows.map key then none
  else some ⟨t.rows ++ [r], by
    rw [List.map_append, List.nodup_append]
    refine ⟨t.nodup, by simp, ?_⟩
    intro a ha b hb
    rw [List.map_singleton, List.mem_singleton] at hb
    subst hb
    exact fun hab => h (hab ▸ ha)⟩

/-- Replace every row that meets `p` by its image under a map that keeps the key. -/
def updateWhere (t : Table key) (p : ρ → Bool) (f : ρ → ρ) (hf : ∀ r, key (f r) = key r) :
    Table key :=
  ⟨t.rows.map (fun r => if p r then f r else r), by
    have hkey : (key ∘ fun r => if p r then f r else r) = key := by
      funext r
      simp only [Function.comp_apply]
      split
      · exact hf r
      · rfl
    rw [List.map_map, hkey]
    exact t.nodup⟩

omit [DecidableEq κ] in
/-- An update that no row meets. -/
theorem updateWhere_eq_self {t : Table key} {p : ρ → Bool} {f : ρ → ρ}
    {hf : ∀ r, key (f r) = key r} (h : ∀ r ∈ t.rows, p r = false) : t.updateWhere p f hf = t := by
  refine eq_of_rows_eq ((List.map_congr_left fun r hr => ?_).trans (List.map_id t.rows))
  rw [h r hr]
  rfl

omit [DecidableEq κ] in
/-- The rows with a property that the updated rows neither have before nor after. -/
theorem filter_updateWhere {t : Table key} {p q : ρ → Bool} {f : ρ → ρ}
    {hf : ∀ r, key (f r) = key r} (h : ∀ r, p r = true → q r = false ∧ q (f r) = false) :
    (t.updateWhere p f hf).rows.filter q = t.rows.filter q := by
  show (t.rows.map fun r => if p r then f r else r).filter q = t.rows.filter q
  induction t.rows with
  | nil => rfl
  | cons r rows ih =>
    rw [List.map_cons, List.filter_cons, List.filter_cons, ih]
    by_cases hp : p r = true
    · rw [if_pos hp, (h r hp).1, (h r hp).2]
      rfl
    · rw [if_neg hp]

/-- Replace the row with key `k` by its image under a map that keeps the key. -/
def update (t : Table key) (k : κ) (f : ρ → ρ) (hf : ∀ r, key (f r) = key r) : Table key :=
  t.updateWhere (fun r => decide (key r = k)) f hf

/-- Remove every row that meets `p`. -/
def deleteWhere (t : Table key) (p : ρ → Bool) : Table key :=
  ⟨t.rows.filter (fun r => !p r), t.nodup.sublist (List.filter_sublist.map key)⟩

/-! ### Lookup and membership -/

theorem key_of_find {t : Table key} {k : κ} {r : ρ} (h : t.find k = some r) : key r = k := by
  unfold find at h
  simpa using List.find?_some h

theorem mem_of_find {t : Table key} {k : κ} {r : ρ} (h : t.find k = some r) : r ∈ t.rows :=
  List.mem_of_find?_eq_some h

theorem find_of_mem {t : Table key} {r : ρ} (hr : r ∈ t.rows) : t.find (key r) = some r := by
  have hsome : (t.find (key r)).isSome := List.find?_isSome.2 ⟨r, hr, decide_eq_true rfl⟩
  obtain ⟨r', hr'⟩ := Option.isSome_iff_exists.1 hsome
  rw [hr', t.eq_of_key_eq (mem_of_find hr') hr (key_of_find hr')]

theorem mem_rows_iff_find {t : Table key} {r : ρ} : r ∈ t.rows ↔ t.find (key r) = some r :=
  ⟨find_of_mem, mem_of_find⟩

theorem find_eq_some_iff {t : Table key} {k : κ} {r : ρ} :
    t.find k = some r ↔ r ∈ t.rows ∧ key r = k :=
  ⟨fun h => ⟨mem_of_find h, key_of_find h⟩, fun h => h.2 ▸ find_of_mem h.1⟩

theorem find_eq_none_iff {t : Table key} {k : κ} :
    t.find k = none ↔ ∀ r ∈ t.rows, key r ≠ k := by
  simp [find, List.find?_eq_none]

@[simp] theorem find_empty (k : κ) : (empty key).find k = none := rfl

/-! ### Updates -/

omit [DecidableEq κ] in
theorem mem_updateWhere {t : Table key} {p : ρ → Bool} {f : ρ → ρ}
    {hf : ∀ r, key (f r) = key r} {x : ρ} :
    x ∈ (t.updateWhere p f hf).rows ↔ ∃ r ∈ t.rows, (if p r then f r else r) = x := by
  simp [updateWhere]

omit [DecidableEq κ] in
/-- What an update leaves as it is in every row. -/
theorem map_updateWhere {β : Type*} {t : Table key} {p : ρ → Bool} {f : ρ → ρ}
    {hf : ∀ r, key (f r) = key r} {g : ρ → β} (h : ∀ r, g (f r) = g r) :
    (t.updateWhere p f hf).rows.map g = t.rows.map g := by
  show (t.rows.map fun r => if p r then f r else r).map g = _
  rw [List.map_map]
  refine List.map_congr_left fun r _ => ?_
  simp only [Function.comp_apply]
  split
  · exact h r
  · rfl

omit [DecidableEq κ] in
/-- An update that closes the rows it changes: the rows that are open afterwards have not been
changed. -/
theorem mem_updateWhere_open {t : Table key} {p : ρ → Bool} {f : ρ → ρ}
    (hf : ∀ r, key (f r) = key r) {o : ρ → Prop} {x : ρ} (hclosed : ∀ r, ¬ o (f r))
    (h : x ∈ (t.updateWhere p f hf).rows) (hx : o x) : x ∈ t.rows ∧ p x = false := by
  obtain ⟨r, hr, rfl⟩ := mem_updateWhere.1 h
  by_cases hp : p r = true
  · rw [if_pos hp] at hx
    exact absurd hx (hclosed r)
  · rw [if_neg hp]
    exact ⟨hr, Bool.eq_false_iff.2 hp⟩

/-- What an update does to a lookup. -/
theorem find_updateWhere (t : Table key) (p : ρ → Bool) (f : ρ → ρ)
    (hf : ∀ r, key (f r) = key r) (k : κ) :
    (t.updateWhere p f hf).find k = (t.find k).map (fun r => if p r then f r else r) := by
  have hkey : ∀ r, key (if p r then f r else r) = key r := by
    intro r
    split
    · exact hf r
    · rfl
  simp only [find, updateWhere, List.find?_map, Function.comp_def, hkey]

theorem find_update_self (t : Table key) (k : κ) (f : ρ → ρ) (hf : ∀ r, key (f r) = key r) :
    (t.update k f hf).find k = (t.find k).map f := by
  rw [update, find_updateWhere]
  cases h : t.find k with
  | none => rfl
  | some r => simp [key_of_find h]

theorem find_update_ne (t : Table key) {k k' : κ} (h : k' ≠ k) (f : ρ → ρ)
    (hf : ∀ r, key (f r) = key r) : (t.update k f hf).find k' = t.find k' := by
  rw [update, find_updateWhere]
  cases hr : t.find k' with
  | none => rfl
  | some r => simp [key_of_find hr, h]

/-- A row of the updated table is the changed row or an untouched one. -/
theorem mem_update {t : Table key} {k : κ} {f : ρ → ρ} {hf : ∀ r, key (f r) = key r} {x : ρ}
    (h : x ∈ (t.update k f hf).rows) :
    (∃ r, t.find k = some r ∧ x = f r) ∨ (x ∈ t.rows ∧ key x ≠ k) := by
  obtain ⟨r, hr, rfl⟩ := mem_updateWhere.1 h
  by_cases hk : key r = k
  · refine Or.inl ⟨r, find_eq_some_iff.2 ⟨hr, hk⟩, ?_⟩
    simp [hk]
  · refine Or.inr ?_
    simpa [hk] using hr

/-- The rows with a property that an update does not touch: they stay as they are exactly if the
updated row is not one of them, or is not changed. -/
theorem filter_update_eq_iff {t : Table key} {k : κ} {q : ρ → Bool} {f : ρ → ρ}
    {hf : ∀ r, key (f r) = key r} (hq : ∀ r, q (f r) = q r) :
    (t.update k f hf).rows.filter q = t.rows.filter q ↔ ∀ r ∈ t.find k, q r = true → f r = r := by
  have hkept : (q ∘ fun r => if decide (key r = k) then f r else r) = q := by
    funext r
    simp only [Function.comp_apply]
    split
    · exact hq r
    · rfl
  have hmap : (t.update k f hf).rows.filter q =
      (t.rows.filter q).map (fun r => if decide (key r = k) then f r else r) := by
    rw [update, updateWhere, List.filter_map, hkept]
  rw [hmap]
  constructor
  · intro heq r hr hqr
    have hmem : r ∈ t.rows.filter q := List.mem_filter.2 ⟨mem_of_find hr, hqr⟩
    have hsame := List.map_inj_left.1 (heq.trans (List.map_id _).symm) r hmem
    rwa [if_pos (decide_eq_true (key_of_find hr))] at hsame
  · intro h
    refine (List.map_congr_left fun r hr => ?_).trans (List.map_id _)
    obtain ⟨hmem, hqr⟩ := List.mem_filter.1 hr
    by_cases hk : key r = k
    · rw [if_pos (decide_eq_true hk)]
      exact h r (hk ▸ find_of_mem hmem) hqr
    · rw [if_neg (by simpa using hk)]
      rfl

theorem mem_update_of_mem {t : Table key} {k : κ} {f : ρ → ρ} {hf : ∀ r, key (f r) = key r}
    {r : ρ} (h : r ∈ t.rows) : (if key r = k then f r else r) ∈ (t.update k f hf).rows := by
  refine mem_updateWhere.2 ⟨r, h, ?_⟩
  simp

/-- What holds of all rows holds after an update exactly if it holds of the changed row. -/
theorem forall_mem_update_iff {t : Table key} {k : κ} {f : ρ → ρ} {hf : ∀ r, key (f r) = key r}
    {P : ρ → Prop} (h : ∀ r ∈ t.rows, P r) :
    (∀ r ∈ (t.update k f hf).rows, P r) ↔ ∀ r ∈ t.find k, P (f r) := by
  constructor
  · intro hall r hr
    have hmem := @mem_update_of_mem _ _ _ _ t k f hf r (mem_of_find hr)
    rw [if_pos (key_of_find hr)] at hmem
    exact hall _ hmem
  · intro hself x hx
    rcases mem_update hx with ⟨r, hr, rfl⟩ | ⟨hx, -⟩
    · exact hself r hr
    · exact h x hx

/-! ### Insertions -/

theorem insert_eq_some_iff {t t' : Table key} {r : ρ} :
    t.insert r = some t' ↔ t.find (key r) = none ∧ t'.rows = t.rows ++ [r] := by
  rw [find_eq_none_iff]
  unfold insert
  split
  · rename_i h
    obtain ⟨r', hr', hk⟩ := List.mem_map.1 h
    simp only [reduceCtorEq, false_iff, not_and]
    exact fun hne _ => hne r' hr' hk
  · rename_i h
    have hfree : ∀ r' ∈ t.rows, key r' ≠ key r := fun r' hr' hk =>
      h (List.mem_map.2 ⟨r', hr', hk⟩)
    rw [Option.some.injEq]
    constructor
    · rintro rfl
      exact ⟨hfree, rfl⟩
    · rintro ⟨-, hrows⟩
      obtain ⟨rows', nodup'⟩ := t'
      subst hrows
      rfl

/-- A row whose key is free can be inserted. -/
theorem exists_insert {t : Table key} {r : ρ} (h : t.find (key r) = none) :
    ∃ t', t.insert r = some t' := by
  cases hinsert : t.insert r with
  | some t' => exact ⟨t', rfl⟩
  | none =>
    unfold insert at hinsert
    split at hinsert
    · rename_i hmem
      obtain ⟨r', hr', hk⟩ := List.mem_map.1 hmem
      exact absurd hk (find_eq_none_iff.1 h r' hr')
    · cases hinsert

theorem exists_insert_iff {t : Table key} {r : ρ} :
    (∃ t', t.insert r = some t') ↔ t.find (key r) = none :=
  ⟨fun ⟨_, hinsert⟩ => (insert_eq_some_iff.1 hinsert).1, exists_insert⟩

theorem mem_insert {t t' : Table key} {r x : ρ} (h : t.insert r = some t') :
    x ∈ t'.rows ↔ x ∈ t.rows ∨ x = r := by
  rw [(insert_eq_some_iff.1 h).2, List.mem_append, List.mem_singleton]

/-- What holds of all rows holds after an insertion if it holds of the new one. -/
theorem forall_mem_insert {t t' : Table key} {r : ρ} {P : ρ → Prop} (h : t.insert r = some t')
    (ht : ∀ x ∈ t.rows, P x) (hr : P r) : ∀ x ∈ t'.rows, P x := by
  intro x hx
  rcases (mem_insert h).1 hx with hx | rfl
  · exact ht x hx
  · exact hr

theorem find_insert_self {t t' : Table key} {r : ρ} (h : t.insert r = some t') :
    t'.find (key r) = some r :=
  find_eq_some_iff.2 ⟨(mem_insert h).2 (Or.inr rfl), rfl⟩

theorem find_insert_ne {t t' : Table key} {r : ρ} {k : κ} (h : t.insert r = some t')
    (hk : k ≠ key r) : t'.find k = t.find k := by
  simp [find, (insert_eq_some_iff.1 h).2, List.find?_append, Ne.symm hk]

/-- A row that could be looked up before an insertion still can. -/
theorem find_insert_of_find {t t' : Table key} {r x : ρ} {k : κ} (h : t.insert r = some t')
    (hx : t.find k = some x) : t'.find k = some x := by
  obtain ⟨hmem, hk⟩ := find_eq_some_iff.1 hx
  exact find_eq_some_iff.2 ⟨(mem_insert h).2 (Or.inl hmem), hk⟩

/-- Insert several rows with one statement; refused when one of their keys is taken. -/
def insertAll (t : Table key) : List ρ → Option (Table key)
  | [] => some t
  | r :: rs => (t.insert r).bind fun t' => insertAll t' rs

/-- The rows are appended. -/
theorem rows_insertAll {t t' : Table key} {rs : List ρ} (h : t.insertAll rs = some t') :
    t'.rows = t.rows ++ rs := by
  induction rs generalizing t with
  | nil =>
    obtain rfl : t = t' := Option.some.inj h
    exact (List.append_nil _).symm
  | cons r rs ih =>
    obtain ⟨t₁, hinsert, hrest⟩ := Option.bind_eq_some_iff.1 h
    rw [ih hrest, (insert_eq_some_iff.1 hinsert).2, List.append_assoc, List.singleton_append]

/-- Rows with free keys that differ are inserted. -/
theorem exists_insertAll {t : Table key} {rs : List ρ} (hfree : ∀ r ∈ rs, t.find (key r) = none)
    (hnodup : (rs.map key).Nodup) : ∃ t', t.insertAll rs = some t' := by
  induction rs generalizing t with
  | nil => exact ⟨t, rfl⟩
  | cons r rs ih =>
    rw [List.map_cons, List.nodup_cons] at hnodup
    obtain ⟨t₁, hinsert⟩ := exists_insert (hfree r List.mem_cons_self)
    have hfree' : ∀ x ∈ rs, t₁.find (key x) = none := by
      intro x hx
      have hne : key x ≠ key r := fun heq => hnodup.1 (heq ▸ List.mem_map_of_mem hx)
      rw [find_insert_ne hinsert hne]
      exact hfree x (List.mem_cons_of_mem _ hx)
    obtain ⟨t', ht'⟩ := ih hfree' hnodup.2
    exact ⟨t', Option.bind_eq_some_iff.2 ⟨t₁, hinsert, ht'⟩⟩

/-- A row that could be looked up before still can. -/
theorem find_insertAll_of_find {t t' : Table key} {rs : List ρ} {x : ρ} {k : κ}
    (h : t.insertAll rs = some t') (hx : t.find k = some x) : t'.find k = some x := by
  induction rs generalizing t with
  | nil =>
    obtain rfl : t = t' := Option.some.inj h
    exact hx
  | cons r rs ih =>
    obtain ⟨t₁, hinsert, hrest⟩ := Option.bind_eq_some_iff.1 h
    exact ih hrest (find_insert_of_find hinsert hx)

/-- Lookups find what was there before, and the inserted rows. -/
theorem find_insertAll_cases {t t' : Table key} {rs : List ρ} {k : κ}
    (h : t.insertAll rs = some t') :
    t'.find k = t.find k ∨ t.find k = none ∧ ∃ r ∈ rs, t'.find k = some r := by
  induction rs generalizing t with
  | nil =>
    obtain rfl : t = t' := Option.some.inj h
    exact Or.inl rfl
  | cons r rs ih =>
    obtain ⟨t₁, hinsert, hrest⟩ := Option.bind_eq_some_iff.1 h
    by_cases hk : k = key r
    · subst hk
      have hfind := find_insertAll_of_find hrest (find_insert_self hinsert)
      exact Or.inr ⟨(insert_eq_some_iff.1 hinsert).1, r, List.mem_cons_self, hfind⟩
    · rw [← find_insert_ne hinsert hk]
      rcases ih hrest with hkept | ⟨hnone, x, hx, hfind⟩
      · exact Or.inl hkept
      · exact Or.inr ⟨hnone, x, List.mem_cons_of_mem _ hx, hfind⟩

/-- The rows with a property that the inserted row does not have. -/
theorem filter_insert {t t' : Table key} {r : ρ} {q : ρ → Bool} (h : t.insert r = some t')
    (hq : q r = false) : t'.rows.filter q = t.rows.filter q := by
  rw [(insert_eq_some_iff.1 h).2, List.filter_append, List.filter_singleton, hq]
  exact List.append_nil _

/-! ### Deletions -/

omit [DecidableEq κ] in
theorem mem_deleteWhere {t : Table key} {p : ρ → Bool} {x : ρ} :
    x ∈ (t.deleteWhere p).rows ↔ x ∈ t.rows ∧ p x = false := by
  simp [deleteWhere]

theorem deleteWhere_mem_nil (t : Table key) :
    t.deleteWhere (fun r => decide (key r ∈ [])) = t :=
  eq_of_rows_eq (List.filter_eq_self.2 fun r _ => by simp)

/-- Rows deleted by their keys, the first of them before the others. -/
theorem deleteWhere_mem_cons (t : Table key) (k : κ) (ks : List κ) :
    (t.deleteWhere fun r => decide (key r = k)).deleteWhere (fun r => decide (key r ∈ ks)) =
      t.deleteWhere (fun r => decide (key r ∈ k :: ks)) := by
  refine eq_of_rows_eq ?_
  simp only [deleteWhere, List.filter_filter]
  refine List.filter_congr fun r _ => ?_
  by_cases hk : key r = k
  · simp [hk]
  · simp [hk]

/-! ### Counting rows -/

theorem countP_insert {t t' : Table key} {r : ρ} (q : ρ → Bool) (h : t.insert r = some t') :
    t'.rows.countP q = t.rows.countP q + if q r then 1 else 0 := by
  simp [(insert_eq_some_iff.1 h).2, List.countP_append, List.countP_cons]

/-- Leaving out one row changes the number of rows with a property by that row only. -/
theorem countP_except {t : Table key} {r : ρ} (q : ρ → Bool) (hr : r ∈ t.rows) :
    t.rows.countP (fun x => q x && decide (key x ≠ key r)) + (if q r then 1 else 0) =
      t.rows.countP q := by
  obtain ⟨rows, nodup⟩ := t
  simp only at hr ⊢
  induction rows with
  | nil => cases hr
  | cons a rows ih =>
    rw [List.map_cons, List.nodup_cons] at nodup
    rcases List.mem_cons.1 hr with rfl | hmem
    · -- the row is the head, and the tail has no row with its key
      have htail : rows.countP (fun x => q x && decide (key x ≠ key r)) = rows.countP q := by
        refine List.countP_congr fun x hx => ?_
        have hne : key x ≠ key r := fun hk => nodup.1 (List.mem_map.2 ⟨x, hx, hk⟩)
        simp [hne]
      rw [List.countP_cons, List.countP_cons, htail]
      simp
    · have hne : key a ≠ key r := fun hk => nodup.1 (hk ▸ List.mem_map.2 ⟨r, hmem, rfl⟩)
      have := ih nodup.2 hmem
      simp only [List.countP_cons, hne, ne_eq, not_false_eq_true, decide_true,
        Bool.and_true] at this ⊢
      omega

/-! ### Unique indexes -/

section Indexes

variable {ι : Type*} [DecidableEq ι] {t : Table key} {g : ρ → Option ι}

omit [DecidableEq κ] [DecidableEq ι] in
/-- No two rows share a value of `g`; rows without a value do not count. -/
def Unique (t : Table key) (g : ρ → Option ι) : Prop :=
  ∀ r ∈ t.rows, ∀ r' ∈ t.rows, g r ≠ none → g r = g r' → key r = key r'

instance (t : Table key) (g : ρ → Option ι) : Decidable (t.Unique g) :=
  inferInstanceAs (Decidable (∀ r ∈ t.rows, ∀ r' ∈ t.rows, g r ≠ none → g r = g r' → key r = key r'))

/-- The first row with the index value `i`. -/
def findBy (t : Table key) (g : ρ → Option ι) (i : ι) : Option ρ :=
  t.rows.find? (fun r => decide (g r = some i))

omit [DecidableEq κ] in
theorem findBy_spec {i : ι} {r : ρ} (h : t.findBy g i = some r) : r ∈ t.rows ∧ g r = some i := by
  unfold findBy at h
  refine ⟨List.mem_of_find?_eq_some h, ?_⟩
  simpa using List.find?_some h

omit [DecidableEq κ] in
theorem findBy_eq_none_iff {i : ι} : t.findBy g i = none ↔ ∀ r ∈ t.rows, g r ≠ some i := by
  simp [findBy, List.find?_eq_none]

omit [DecidableEq κ] [DecidableEq ι] in
/-- Two rows with the same value of a unique index are the same row. -/
theorem Unique.eq {i : ι} {r r' : ρ} (h : t.Unique g) (hr : r ∈ t.rows) (hr' : r' ∈ t.rows)
    (hi : g r = some i) (hi' : g r' = some i) : r = r' := by
  refine t.eq_of_key_eq hr hr' (h r hr r' hr' ?_ (hi.trans hi'.symm))
  simp [hi]

omit [DecidableEq κ] in
/-- A row is found by its value of a unique index. -/
theorem Unique.findBy_of_mem {i : ι} {r : ρ} (h : t.Unique g) (hr : r ∈ t.rows)
    (hi : g r = some i) : t.findBy g i = some r := by
  cases hfind : t.findBy g i with
  | none => exact absurd hi (findBy_eq_none_iff.1 hfind r hr)
  | some r' =>
    obtain ⟨hr', hi'⟩ := findBy_spec hfind
    rw [h.eq hr' hr hi' hi]

omit [DecidableEq κ] [DecidableEq ι] in
/-- An update that leaves the index alone keeps it unique. -/
theorem Unique.updateWhere {p : ρ → Bool} {f : ρ → ρ} {hf : ∀ r, key (f r) = key r}
    (h : t.Unique g) (hg : ∀ r, g (f r) = g r) : (t.updateWhere p f hf).Unique g := by
  have hkept : ∀ r, g (if p r then f r else r) = g r ∧ key (if p r then f r else r) = key r := by
    intro r
    split
    · exact ⟨hg r, hf r⟩
    · exact ⟨rfl, rfl⟩
  intro x hx x' hx' hne heq
  obtain ⟨r, hr, rfl⟩ := mem_updateWhere.1 hx
  obtain ⟨r', hr', rfl⟩ := mem_updateWhere.1 hx'
  rw [(hkept r).1] at hne
  rw [(hkept r).1, (hkept r').1] at heq
  rw [(hkept r).2, (hkept r').2]
  exact h r hr r' hr' hne heq

omit [DecidableEq ι] in
/-- So does a new row whose value, if it has one, is new. -/
theorem Unique.insert {t' : Table key} {r : ρ} (h : t.Unique g) (hins : t.insert r = some t')
    (hnew : g r ≠ none → ∀ x ∈ t.rows, g x ≠ g r) : t'.Unique g := by
  intro x hx x' hx' hne heq
  rcases (mem_insert hins).1 hx with hx | rfl
  · rcases (mem_insert hins).1 hx' with hx' | rfl
    · exact h x hx x' hx' hne heq
    · exact absurd heq (hnew (heq ▸ hne) x hx)
  · rcases (mem_insert hins).1 hx' with hx' | rfl
    · exact absurd heq.symm (hnew hne x' hx')
    · rfl

end Indexes

end Table
