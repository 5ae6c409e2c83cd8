import OpsHub.Lib.Table

/-!
# Tables without conflicts

A symmetric relation says which rows of a table exclude each other.

* `Free clash t`: no two rows of `t` do;
* `Free.insert`: a row that excludes none keeps a table free;
* `Free.update`: so does a change of one row that makes it exclude no other row anew.
-/

namespace Conflicts

variable {κ ρ : Type*} {key : ρ → κ} {clash : ρ → ρ → Prop} {t t' : Table key}

/-- No two rows of the table exclude each other. -/
def Free (clash : ρ → ρ → Prop) (t : Table key) : Prop :=
  ∀ r ∈ t.rows, ∀ r' ∈ t.rows, key r ≠ key r' → ¬ clash r r'

variable [DecidableEq κ]

/-- **Insertion.** -/
theorem Free.insert {r : ρ} (hsymm : ∀ a b, clash a b → clash b a) (h : Free clash t)
    (hinsert : t.insert r = some t') (hr : ∀ x ∈ t.rows, ¬ clash r x) : Free clash t' := by
  intro a ha b hb hne
  rcases (Table.mem_insert hinsert).1 ha with ha | rfl
  · rcases (Table.mem_insert hinsert).1 hb with hb | rfl
    · exact h a ha b hb hne
    · exact fun hclash => hr a ha (hsymm a b hclash)
  · rcases (Table.mem_insert hinsert).1 hb with hb | rfl
    · exact hr b hb
    · exact absurd rfl hne

/-- **A change of one row**: what the row excludes after it, it excluded before, or it excludes no
other row. -/
theorem Free.update {k : κ} {f : ρ → ρ} (hf : ∀ r, key (f r) = key r)
    (hsymm : ∀ a b, clash a b → clash b a) (h : Free clash t)
    (hrow : ∀ r, t.find k = some r →
      (∀ x, clash (f r) x → clash r x) ∨ ∀ x ∈ t.rows, key x ≠ k → ¬ clash (f r) x) :
    Free clash (t.update k f hf) := by
  -- a changed row against one that is not
  have hone : ∀ r, t.find k = some r → ∀ x ∈ t.rows, key x ≠ k → ¬ clash (f r) x := by
    intro r hr x hx hxk
    rcases hrow r hr with hkeep | hnone
    · have hne : key r ≠ key x := (Table.key_of_find hr).symm ▸ hxk.symm
      exact fun hclash => h r (Table.mem_of_find hr) x hx hne (hkeep x hclash)
    · exact hnone x hx hxk
  intro a ha b hb hne
  rcases Table.mem_update ha with ⟨r, hr, rfl⟩ | ⟨ha, hak⟩
  · rcases Table.mem_update hb with ⟨r', hr', rfl⟩ | ⟨hb, hbk⟩
    · rw [hr] at hr'
      rw [Option.some.inj hr'] at hne
      exact absurd rfl hne
    · exact hone r hr b hb hbk
  · rcases Table.mem_update hb with ⟨r', hr', rfl⟩ | ⟨hb, hbk⟩
    · exact fun hclash => hone r' hr' a ha hak (hsymm a (f r') hclash)
    · exact h a ha b hb hne

end Conflicts
