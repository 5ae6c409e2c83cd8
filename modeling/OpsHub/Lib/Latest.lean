import Mathlib.Data.List.MinMax

/-!
# Stamped writes out of order

A log of writes to one register, each with a stamp, in the order in which they were carried out.

* `value`: what the register holds;
* `LatestWins`: it is what the write of the largest stamp says;
* `latestWins_append_iff`: this stays so exactly if a write that comes late changes nothing.
-/

namespace Latest

variable {ι α : Type*}

/-- What has been written last. -/
def value (log : List (ι × α)) : Option α := log.getLast?.map Prod.snd

@[simp] theorem value_nil : value ([] : List (ι × α)) = none := rfl

@[simp] theorem value_append (log : List (ι × α)) (w : ι × α) :
    value (log ++ [w]) = some w.2 := by
  simp [value]

variable [LinearOrder ι] {log : List (ι × α)} {w : ι × α}

/-- The register holds what the write of the largest stamp says. -/
def LatestWins (log : List (ι × α)) : Prop :=
  ∀ w ∈ log, (∀ w' ∈ log, w'.1 ≤ w.1) → value log = some w.2

theorem latestWins_nil : LatestWins ([] : List (ι × α)) := fun _ hw => by cases hw

/-- One of the writes has the largest stamp. -/
theorem exists_largest (hw : w ∈ log) : ∃ m ∈ log, ∀ w' ∈ log, w'.1 ≤ m.1 := by
  obtain ⟨m, hm⟩ : ∃ m, log.argmax Prod.fst = some m := by
    refine Option.ne_none_iff_exists'.1 fun hnone => ?_
    rw [List.argmax_eq_none] at hnone
    rw [hnone] at hw
    cases hw
  exact ⟨m, List.argmax_mem hm, fun w' hw' => List.le_of_mem_argmax hw' hm⟩

/-- **The rule.** A write with a stamp of its own keeps the latest one winning exactly if it says
what the register holds when there are writes of larger stamps. -/
theorem latestWins_append_iff (h : LatestWins log) (hfresh : ∀ w' ∈ log, w'.1 ≠ w.1) :
    LatestWins (log ++ [w]) ↔ ∀ w' ∈ log, w.1 < w'.1 → value log = some w.2 := by
  constructor
  · intro hwins w' hw' hlt
    -- the write of the largest stamp wins before and after
    obtain ⟨m, hm, hmax⟩ := exists_largest hw'
    have hafter : value (log ++ [w]) = some m.2 := by
      refine hwins m (List.mem_append_left _ hm) fun x hx => ?_
      rcases List.mem_append.1 hx with hx | hx
      · exact hmax x hx
      · rw [List.mem_singleton.1 hx]
        exact hlt.le.trans (hmax w' hw')
    rw [value_append] at hafter
    rw [h m hm hmax, hafter]
  · intro hlate m hm hmax
    rw [value_append]
    rcases List.mem_append.1 hm with hm | hm
    · have hlt : w.1 < m.1 :=
        lt_of_le_of_ne (hmax w (List.mem_append_right _ (List.mem_singleton.2 rfl)))
          (hfresh m hm).symm
      rw [← hlate m hm hlt]
      exact h m hm fun x hx => hmax x (List.mem_append_left _ hx)
    · rw [List.mem_singleton.1 hm]

end Latest
