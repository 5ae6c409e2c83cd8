import Mathlib.Data.List.Perm.Subperm
import OpsHub.Lib.Runs
import OpsHub.Lib.Table

/-!
# Purges

A table is purged of rows that no query asks for any more.  The purged table is compared with the
one that is never purged.

* `Purged dead t p`: the rows of `t` are those of `p` in their order, except for some that are dead;
* `Purged.insert`, `Purged.updateWhere`, `Purged.deleteWhere`, `Purged.deleteWhere_left` and
  `Purged.deleteWhere_right`: the statements keep that;
* `Purged.filter_eq`: a query for rows that are not dead has the same answer;
* `exists_order`: so it has in the orders in which a database may return rows;
* `Runs.run_quiet`: the simulation rule for events that only one of two systems sees.
-/

namespace Runs

variable {σ τ ε : Type*} {step : σ → ε → σ} {step' : τ → ε → τ}

/-- **The simulation rule.**  The second system skips the quiet events; what relates the states is
kept by a quiet event of the first, and by the other events of both. -/
theorem run_quiet {R : σ → τ → Prop} {quiet : ε → Bool} {dom : ε → Prop} {ok : τ → ε → Prop}
    (hquiet : ∀ s t e, R s t → dom e → quiet e = true → R (step s e) t)
    (hstep : ∀ s t e, R s t → dom e → quiet e = false → ok t e → R (step s e) (step' t e))
    {s : σ} {t : τ} {es : List ε} (h : R s t) (hdom : ∀ e ∈ es, dom e)
    (hok : Meets step' ok t (es.filter (fun e => !quiet e))) :
    R (run step s es) (run step' t (es.filter (fun e => !quiet e))) := by
  induction es generalizing s t with
  | nil => exact h
  | cons e es ih =>
    obtain ⟨hdom, hrest⟩ := List.forall_mem_cons.1 hdom
    cases he : quiet e with
    | true =>
      rw [List.filter_cons_of_neg (by simp [he])] at hok ⊢
      exact ih (hquiet s t e h hdom he) hrest hok
    | false =>
      rw [List.filter_cons_of_pos (by simp [he])] at hok ⊢
      exact ih (hstep s t e h hdom he hok.1) hrest hok.2

end Runs

namespace Table

/-- Lists with the same answer to a query have it in corresponding orders. -/
theorem exists_order {α : Type*} {l l' rows : List α} {q : α → Bool}
    (h : l.filter q = l'.filter q) (hrows : rows.Perm l) :
    ∃ rows', List.Perm rows' l' ∧ rows'.filter q = rows.filter q := by
  refine ⟨rows.filter q ++ l'.filter (fun a => !q a), ?_, ?_⟩
  · have hsame : (rows.filter q).Perm (l'.filter q) := h ▸ hrows.filter q
    exact (hsame.append_right _).trans (List.filter_append_perm q l')
  · have hnone : (l'.filter (fun a => !q a)).filter q = [] :=
      List.filter_eq_nil_iff.2 fun a ha => by simpa using (List.mem_filter.1 ha).2
    rw [List.filter_append, hnone, List.append_nil, List.filter_filter]
    simp

variable {κ ρ : Type*} {key : ρ → κ}

/-- The rows of `p`, except for some that are dead. -/
structure Purged (dead : ρ → Prop) (t p : Table key) : Prop where
  sublist : t.rows.Sublist p.rows
  dead : ∀ r ∈ p.rows, r ∈ t.rows ∨ dead r

namespace Purged

variable {dead dead' : ρ → Prop} {t p t' p' : Table key} {r : ρ} {q : ρ → Bool}

theorem refl (dead : ρ → Prop) (t : Table key) : Purged dead t t :=
  ⟨List.Sublist.refl _, fun _ hr => Or.inl hr⟩

theorem mono (h : Purged dead t p) (hdead : ∀ r, dead r → dead' r) : Purged dead' t p :=
  ⟨h.sublist, fun r hr => (h.dead r hr).imp_right (hdead r)⟩

/-- Dead rows may be removed. -/
theorem deleteWhere_left (h : Purged dead t p) (hq : ∀ r, q r = true → dead r) :
    Purged dead (t.deleteWhere q) p := by
  refine ⟨List.filter_sublist.trans h.sublist, fun r hr => ?_⟩
  rcases h.dead r hr with hr | hr
  · by_cases hqr : q r = true
    · exact Or.inr (hq r hqr)
    · exact Or.inl (List.mem_filter.2 ⟨hr, by simp [hqr]⟩)
  · exact Or.inr hr

/-- A deletion on both sides. -/
theorem deleteWhere (h : Purged dead t p) (q : ρ → Bool) :
    Purged dead (t.deleteWhere q) (p.deleteWhere q) := by
  refine ⟨h.sublist.filter _, fun r hr => ?_⟩
  obtain ⟨hr, hq⟩ := List.mem_filter.1 hr
  exact (h.dead r hr).imp_left fun hr => List.mem_filter.2 ⟨hr, hq⟩

/-- A deletion of rows that have been removed before. -/
theorem deleteWhere_right (h : Purged dead t p) (hq : ∀ r ∈ t.rows, q r = false) :
    Purged dead t (p.deleteWhere q) := by
  have hself : t.rows.filter (fun r => !q r) = t.rows :=
    List.filter_eq_self.2 fun r hr => by simp [hq r hr]
  have hboth := h.deleteWhere q
  refine ⟨?_, fun r hr => (hboth.dead r hr).imp_left fun hr => (List.mem_filter.1 hr).1⟩
  rw [← hself]
  exact hboth.sublist

/-- An update by a map that leaves the dead dead. -/
theorem updateWhere (h : Purged dead t p) {f : ρ → ρ} (hf : ∀ r, key (f r) = key r)
    (hdead : ∀ r, dead r → q r = true → dead (f r)) :
    Purged dead (t.updateWhere q f hf) (p.updateWhere q f hf) := by
  refine ⟨h.sublist.map _, fun r hr => ?_⟩
  obtain ⟨old, hold, rfl⟩ := mem_updateWhere.1 hr
  rcases h.dead old hold with hin | hin
  · exact Or.inl (mem_updateWhere.2 ⟨old, hin, rfl⟩)
  · refine Or.inr ?_
    by_cases hq : q old = true
    · rw [if_pos hq]
      exact hdead old hin hq
    · rw [if_neg hq]
      exact hin

/-- A query that asks for no dead row. -/
theorem filter_eq (h : Purged dead t p) (hq : ∀ r, dead r → q r = false) :
    t.rows.filter q = p.rows.filter q := by
  have hnodup : (p.rows.filter q).Nodup := (List.Nodup.of_map key p.nodup).filter q
  refine (h.sublist.filter q).eq_of_length_le ?_
  refine (List.subperm_of_subset hnodup fun r hr => ?_).length_le
  obtain ⟨hr, hqr⟩ := List.mem_filter.1 hr
  rcases h.dead r hr with hin | hin
  · exact List.mem_filter.2 ⟨hin, hqr⟩
  · rw [hq r hin] at hqr
    exact absurd hqr Bool.false_ne_true

variable [DecidableEq κ]

theorem find_eq_none (h : Purged dead t p) {k : κ} (hnone : p.find k = none) : t.find k = none :=
  find_eq_none_iff.2 fun r hr => find_eq_none_iff.1 hnone r (h.sublist.subset hr)

theorem find_of_find (h : Purged dead t p) {k : κ} (hr : t.find k = some r) : p.find k = some r := by
  obtain ⟨hmem, hkey⟩ := find_eq_some_iff.1 hr
  exact find_eq_some_iff.2 ⟨h.sublist.subset hmem, hkey⟩

/-- An insertion that the other table takes. -/
theorem insert (h : Purged dead t p) (hins : p.insert r = some p') :
    ∃ t', t.insert r = some t' ∧ Purged dead t' p' := by
  obtain ⟨hnone, hrows⟩ := insert_eq_some_iff.1 hins
  obtain ⟨t', ht'⟩ := exists_insert (h.find_eq_none hnone)
  refine ⟨t', ht', ?_, fun x hx => ?_⟩
  · rw [(insert_eq_some_iff.1 ht').2, hrows]
    exact h.sublist.append (List.Sublist.refl [r])
  · rcases (mem_insert hins).1 hx with hx | rfl
    · exact (h.dead x hx).imp_left fun hx => (mem_insert ht').2 (Or.inl hx)
    · exact Or.inl ((mem_insert ht').2 (Or.inr rfl))

end Purged

end Table
