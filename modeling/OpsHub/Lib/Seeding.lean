import OpsHub.Lib.OnConflict

/-!
# Rows that are inserted where they are missing

A statement with several rows, `INSERT … ON CONFLICT (columns) DO NOTHING`, is carried out row by
row, and as a whole or not at all.

* `insertAllDoNothing`: the rows after the statement;
* `Seeded indexes seed rows rows'`: rows of a kind have been added, and no other row has the entry
  of one of them; `Seeded.trans`, `seeded_insertAll` and `seeded_insertRow`;
* `Seeded.eq_of_clash`: the unique indexes are obeyed as before;
* `present_insertAll`, `exists_of_insertAll`: each row is there, or one with its entry;
* `insertAll_quiet`, `insertAll_of_column`: nothing happens if each of them was;
* `exists_insertAll`: the statement is carried out if no index but the target is in its way.
-/

namespace UniqueIndex

variable {ρ ι : Type*}

/-- The rows after the statement. -/
def insertAllDoNothing [DecidableEq ι] (indexes : List (UniqueIndex ρ ι))
    (clause : Option ConflictTarget) :
    List ρ → List ρ → Except InsertFailure (List ρ)
  | rows, [] => .ok rows
  | rows, r :: rs => do
    let added ← insertDoNothing indexes clause rows r
    insertAllDoNothing indexes clause (rows ++ added) rs

/-- The rows after an insertion without a clause. -/
def insertRow [DecidableEq ι] (indexes : List (UniqueIndex ρ ι)) (rows : List ρ) (r : ρ) :
    Except InsertFailure (List ρ) :=
  if Conflicts indexes rows r then .error .duplicateKey else .ok (rows ++ [r])

/-- Rows of the kind `seed` have been added; none of them has an entry of another row. -/
def Seeded (indexes : List (UniqueIndex ρ ι)) (seed : ρ → Prop) (rows rows' : List ρ) : Prop :=
  ∃ added, rows' = rows ++ added ∧ (∀ r ∈ added, seed r) ∧
    ∀ before r after, added = before ++ r :: after → ¬ Conflicts indexes (rows ++ before) r

variable {indexes : List (UniqueIndex ρ ι)} {clause : Option ConflictTarget}
  {rows rows' rows'' rs : List ρ} {r : ρ} {seed seed' : ρ → Prop}

/-! ### What has been added -/

theorem Seeded.refl (indexes : List (UniqueIndex ρ ι)) (seed : ρ → Prop) (rows : List ρ) :
    Seeded indexes seed rows rows := by
  refine ⟨[], (List.append_nil rows).symm, fun r hr => absurd hr List.not_mem_nil, ?_⟩
  intro before r after h
  simp at h

theorem Seeded.mono (h : Seeded indexes seed rows rows') (hseed : ∀ r, seed r → seed' r) :
    Seeded indexes seed' rows rows' := by
  obtain ⟨added, hrows, hadded, hfree⟩ := h
  exact ⟨added, hrows, fun r hr => hseed r (hadded r hr), hfree⟩

theorem Seeded.trans (h : Seeded indexes seed rows rows') (h' : Seeded indexes seed rows' rows'') :
    Seeded indexes seed rows rows'' := by
  obtain ⟨added, rfl, hadded, hfree⟩ := h
  obtain ⟨added', rfl, hadded', hfree'⟩ := h'
  refine ⟨added ++ added', List.append_assoc _ _ _, ?_, fun before r after hsplit => ?_⟩
  · exact List.forall_mem_append.2 ⟨hadded, hadded'⟩
  · -- the row is among the first or among the later ones
    rcases List.append_eq_append_iff.1 hsplit with ⟨mid, rfl, hmid⟩ | ⟨mid, rfl, hmid⟩
    · rw [← List.append_assoc]
      exact hfree' mid r after hmid
    · cases mid with
      | nil => simpa using hfree' [] r after hmid.symm
      | cons x mid =>
        obtain ⟨rfl, -⟩ := List.cons.inj hmid
        exact hfree before r mid rfl

theorem Seeded.mem (h : Seeded indexes seed rows rows') (hr : r ∈ rows) : r ∈ rows' := by
  obtain ⟨added, rfl, -⟩ := h
  exact List.mem_append_left added hr

theorem Seeded.mem_or (h : Seeded indexes seed rows rows') (hr : r ∈ rows') : r ∈ rows ∨ seed r := by
  obtain ⟨added, rfl, hadded, -⟩ := h
  exact (List.mem_append.1 hr).imp_right (hadded r)

/-- The rows after those that were there. -/
theorem Seeded.forall_mem_drop (h : Seeded indexes seed rows rows') :
    ∀ r ∈ rows'.drop rows.length, seed r := by
  obtain ⟨added, rfl, hadded, -⟩ := h
  rwa [List.drop_left]

/-- One more row. -/
theorem seeded_append (hr : seed r) (hfree : ¬ Conflicts indexes rows r) :
    Seeded indexes seed rows (rows ++ [r]) := by
  refine ⟨[r], rfl, by simpa using hr, fun before x after h => ?_⟩
  cases before with
  | nil =>
    obtain ⟨rfl, -⟩ := List.cons.inj h
    rwa [List.append_nil]
  | cons y before => simp at h

variable [DecidableEq ι]

theorem seeded_insertRow (h : insertRow indexes rows r = .ok rows') (hr : seed r) :
    Seeded indexes seed rows rows' := by
  unfold insertRow at h
  split at h
  · cases h
  · rename_i hfree
    cases h
    exact seeded_append hr hfree

/-- What one row adds. -/
theorem insertDoNothing_cases {added : List ρ}
    (h : insertDoNothing indexes clause rows r = .ok added) :
    (added = [] ∧ Conflicts (arbiters indexes clause) rows r) ∨
      added = [r] ∧ ¬ Conflicts indexes rows r := by
  unfold insertDoNothing at h
  split at h
  · cases h
  · split at h
    · rename_i hconflict
      cases h
      exact Or.inl ⟨rfl, hconflict⟩
    · split at h
      · cases h
      · rename_i hfree
        cases h
        exact Or.inr ⟨rfl, hfree⟩

/-- The statement adds rows of its own, where they are missing. -/
theorem seeded_insertAll (h : insertAllDoNothing indexes clause rows rs = .ok rows')
    (hrs : ∀ r ∈ rs, seed r) : Seeded indexes seed rows rows' := by
  induction rs generalizing rows with
  | nil =>
    cases h
    exact Seeded.refl indexes seed _
  | cons r rs ih =>
    rw [List.forall_mem_cons] at hrs
    rw [insertAllDoNothing] at h
    cases hone : insertDoNothing indexes clause rows r with
    | error e =>
      rw [hone] at h
      cases h
    | ok added =>
      rw [hone] at h
      have hrest := ih h hrs.2
      rcases insertDoNothing_cases hone with ⟨rfl, -⟩ | ⟨rfl, hfree⟩
      · rwa [List.append_nil] at hrest
      · exact (seeded_append hrs.1 hfree).trans hrest

/-- After the statement each row is there, or one with an entry of it. -/
theorem present_insertAll (h : insertAllDoNothing indexes clause rows rs = .ok rows')
    (hr : r ∈ rs) : r ∈ rows' ∨ Conflicts (arbiters indexes clause) rows' r := by
  induction rs generalizing rows with
  | nil => cases hr
  | cons r' rs ih =>
    rw [insertAllDoNothing] at h
    cases hone : insertDoNothing indexes clause rows r' with
    | error e =>
      rw [hone] at h
      cases h
    | ok added =>
      rw [hone] at h
      rcases List.mem_cons.1 hr with rfl | hr
      · have hseeded : Seeded indexes (fun _ => True) (rows ++ added) rows' :=
          seeded_insertAll h fun _ _ => trivial
        have hkept : ∀ x ∈ rows ++ added, x ∈ rows' := fun x hx => hseeded.mem hx
        rcases insertDoNothing_cases hone with ⟨rfl, i, hi, x, hx, hclash⟩ | ⟨rfl, -⟩
        · exact Or.inr ⟨i, hi, x, hkept x (List.mem_append_left _ hx), hclash⟩
        · exact Or.inl (hkept r (List.mem_append_right rows List.mem_cons_self))
      · exact ih h hr

/-- In the words of the column that the target is about. -/
theorem exists_of_insertAll {κ : Type*} {f : ρ → κ}
    (hf : ∀ i ∈ arbiters indexes clause, ∀ x y, i.Clash x y → f x = f y)
    (h : insertAllDoNothing indexes clause rows rs = .ok rows') (hr : r ∈ rs) :
    ∃ x ∈ rows', f x = f r := by
  rcases present_insertAll h hr with hr | ⟨i, hi, x, hx, hclash⟩
  · exact ⟨r, hr, rfl⟩
  · exact ⟨x, hx, hf i hi x r hclash⟩

/-- Nothing happens if every row is there already. -/
theorem insertAll_quiet (haccepted : Accepted indexes clause)
    (h : ∀ r ∈ rs, Conflicts (arbiters indexes clause) rows r) :
    insertAllDoNothing indexes clause rows rs = .ok rows := by
  induction rs with
  | nil => rfl
  | cons r rs ih =>
    rw [List.forall_mem_cons] at h
    have hone : insertDoNothing indexes clause rows r = .ok [] := by
      rw [insertDoNothing, if_neg (not_not.2 haccepted), if_pos h.1]
    rw [insertAllDoNothing, hone]
    show insertAllDoNothing indexes clause (rows ++ []) rs = _
    rw [List.append_nil]
    exact ih h.2

/-- In the words of a column of the target. -/
theorem insertAll_of_column {κ : Type*} {f : ρ → κ} {i : UniqueIndex ρ ι}
    (hi : i ∈ arbiters indexes clause) (hf : ∀ x y, f x = f y → i.Clash x y)
    (h : ∀ r ∈ rs, ∃ x ∈ rows, f x = f r) : insertAllDoNothing indexes clause rows rs = .ok rows := by
  refine insertAll_quiet (Or.inr (List.ne_nil_of_mem hi)) fun r hr => ?_
  obtain ⟨x, hx, hsame⟩ := h r hr
  exact ⟨i, hi, x, hx, hf x r hsame⟩

omit [DecidableEq ι] in
/-- An index that the rows have obeyed is obeyed. -/
theorem Seeded.eq_of_clash {i : UniqueIndex ρ ι} (h : Seeded indexes seed rows rows')
    (hi : i ∈ indexes) (hrows : ∀ a ∈ rows, ∀ b ∈ rows, i.Clash a b → a = b) {a b : ρ}
    (ha : a ∈ rows') (hb : b ∈ rows') (hclash : i.Clash a b) : a = b := by
  obtain ⟨added, rfl, -, hfree⟩ := h
  have hsymm : i.Clash b a := ⟨hclash.2 ▸ hclash.1, hclash.2.symm⟩
  -- an added row does not clash with a row that was there before it
  have hbefore : ∀ before r after x, added = before ++ r :: after → x ∈ rows ++ before →
      ¬ i.Clash x r := fun before r after x hsplit hx hclash =>
    hfree before r after hsplit ⟨i, hi, x, hx, hclash⟩
  rcases List.mem_append.1 ha with ha | ha
  · rcases List.mem_append.1 hb with hb | hb
    · exact hrows a ha b hb hclash
    · obtain ⟨before, after, hsplit⟩ := List.append_of_mem hb
      exact absurd hclash (hbefore before b after a hsplit (List.mem_append_left _ ha))
  · obtain ⟨before, after, hsplit⟩ := List.append_of_mem ha
    rw [hsplit, ← List.append_assoc] at hb
    rcases List.mem_append.1 hb with hb | hb
    · exact absurd hsymm (hbefore before a after b hsplit hb)
    · rcases List.mem_cons.1 hb with rfl | hb
      · rfl
      · obtain ⟨mid, after', rfl⟩ := List.append_of_mem hb
        refine absurd hclash (hbefore (before ++ a :: mid) b after' a ?_ ?_)
        · rw [hsplit, List.append_assoc, List.cons_append]
        · simp

/-- The statement is carried out if the rows can clash with others in the target only. -/
theorem exists_insertAll (haccepted : Accepted indexes clause)
    (hrows : ∀ r ∈ rs, ∀ x ∈ rows, ∀ i ∈ indexes, i.Clash x r → i ∈ arbiters indexes clause)
    (hrs : rs.Pairwise fun x r => ∀ i ∈ indexes, i.Clash x r → i ∈ arbiters indexes clause) :
    ∃ rows', insertAllDoNothing indexes clause rows rs = .ok rows' := by
  induction rs generalizing rows with
  | nil => exact ⟨rows, rfl⟩
  | cons r rs ih =>
    rw [List.pairwise_cons] at hrs
    rw [List.forall_mem_cons] at hrows
    have hone : ∃ added, insertDoNothing indexes clause rows r = .ok added ∧
        ∀ x ∈ added, x = r := by
      rw [insertDoNothing, if_neg (not_not.2 haccepted)]
      by_cases hconflict : Conflicts (arbiters indexes clause) rows r
      · exact ⟨[], if_pos hconflict, fun x hx => absurd hx List.not_mem_nil⟩
      · have hfree : ¬ Conflicts indexes rows r := by
          rintro ⟨i, hi, x, hx, hclash⟩
          exact hconflict ⟨i, hrows.1 x hx i hi hclash, x, hx, hclash⟩
        exact ⟨[r], by rw [if_neg hconflict, if_neg hfree], by simp⟩
    obtain ⟨added, hadded, hself⟩ := hone
    have hrows' : ∀ x ∈ rs, ∀ y ∈ rows ++ added, ∀ i ∈ indexes, i.Clash y x →
        i ∈ arbiters indexes clause := by
      intro x hx y hy
      rcases List.mem_append.1 hy with hy | hy
      · exact hrows.2 x hx y hy
      · rw [hself y hy]
        exact hrs.1 x hx
    obtain ⟨rows', hrest⟩ := ih hrows' hrs.2
    exact ⟨rows', by rw [insertAllDoNothing, hadded]; exact hrest⟩

end UniqueIndex
