import Mathlib.Algebra.BigOperators.Group.List.Lemmas
import Mathlib.Algebra.GroupWithZero.Nat
import OpsHub.Lib.Runs
import OpsHub.Lib.Table

/-!
# Potentials

What the steps of a run cost is paid from a potential that the steps refill.

* `total`: what the steps of a run amount to;
* `potential_add_total_le`: the potential at the end and the total cost are at most the potential
  at the beginning and the total gain;
* `Table.weight`, `weight_update`, `weight_insert`: the rows of a table, weighed, as a potential.
-/

namespace Runs

variable {σ ε : Type*} (step : σ → ε → σ)

/-- What the steps of a run amount to. -/
def total (f : σ → ε → ℕ) : σ → List ε → ℕ
  | _, [] => 0
  | s, e :: es => f s e + total f (step s e) es

variable {step}

/-- A multiple. -/
theorem total_mul (n : ℕ) (f : σ → ε → ℕ) (s : σ) (es : List ε) :
    total step (fun s e => n * f s e) s es = n * total step f s es := by
  induction es generalizing s with
  | nil => rfl
  | cons e es ih => rw [total, total, ih, Nat.mul_add]

/-- Counted events. -/
theorem total_count (p : ε → Bool) (s : σ) (es : List ε) :
    total step (fun _ e => if p e then 1 else 0) s es = es.countP p := by
  induction es generalizing s with
  | nil => rfl
  | cons e es ih => rw [total, ih, List.countP_cons, Nat.add_comm]

/-- **The potential rule.** -/
theorem potential_add_total_le {inv : σ → Prop} {ok : σ → ε → Prop} {potential : σ → ℕ}
    {cost gain : σ → ε → ℕ} (hinv : ∀ s e, inv s → ok s e → inv (step s e))
    (hpay : ∀ s e, inv s → ok s e → potential (step s e) + cost s e ≤ potential s + gain s e)
    {s : σ} {es : List ε} (h : inv s) (hok : Meets step ok s es) :
    potential (run step s es) + total step cost s es ≤ potential s + total step gain s es := by
  induction es generalizing s with
  | nil => exact Nat.le_refl _
  | cons e es ih =>
    have hfirst := hpay s e h hok.1
    have hrest := ih (hinv s e h hok.1) hok.2
    rw [run_cons, total, total]
    omega

end Runs

namespace Table

variable {κ ρ : Type*} [DecidableEq κ] {key : ρ → κ}

/-- The weight of the rows of a table. -/
def weight (w : ρ → ℕ) (t : Table key) : ℕ := (t.rows.map w).sum

/-- A sum over rows of which one is changed. -/
theorem sum_map_change {w : ρ → ℕ} {rows : List ρ} {k : κ} {r : ρ} {f : ρ → ρ} (hr : r ∈ rows)
    (hkey : key r = k) (hnodup : (rows.map key).Nodup) :
    (rows.map fun x => w (if decide (key x = k) then f x else x)).sum + w r =
      (rows.map w).sum + w (f r) := by
  induction rows with
  | nil => cases hr
  | cons x rows ih =>
    rw [List.map_cons, List.nodup_cons] at hnodup
    simp only [List.map_cons, List.sum_cons]
    rcases List.mem_cons.1 hr with rfl | hr
    · -- the other rows have other keys
      have hrest : (rows.map fun x => w (if decide (key x = k) then f x else x)) = rows.map w := by
        refine List.map_congr_left fun x hx => ?_
        have hne : ¬ key x = k := fun heq =>
          hnodup.1 (List.mem_map.2 ⟨x, hx, heq.trans hkey.symm⟩)
        rw [if_neg (by simpa using hne)]
      rw [hrest, if_pos (by simpa using hkey)]
      omega
    · have hne : ¬ key x = k := fun heq =>
        hnodup.1 (List.mem_map.2 ⟨r, hr, hkey.trans heq.symm⟩)
      have hrest := ih hr hnodup.2
      rw [if_neg (by simpa using hne)]
      omega

/-- What an update does to the weight. -/
theorem weight_update {w : ρ → ℕ} {t : Table key} {k : κ} {r : ρ} (hr : t.find k = some r)
    {f : ρ → ρ} (hf : ∀ r, key (f r) = key r) :
    (t.update k f hf).weight w + w r = t.weight w + w (f r) := by
  have hsum := sum_map_change (w := w) (f := f) (mem_of_find hr) (key_of_find hr) t.nodup
  rw [weight, weight, update, updateWhere, List.map_map]
  exact hsum

/-- What an insertion does to the weight. -/
theorem weight_insert {w : ρ → ℕ} {t t' : Table key} {r : ρ} (h : t.insert r = some t') :
    t'.weight w = t.weight w + w r := by
  rw [weight, weight, (insert_eq_some_iff.1 h).2, List.map_append, List.sum_append]
  rfl

end Table
