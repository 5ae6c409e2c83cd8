import Mathlib.Data.List.Basic
import Mathlib.Tactic.Common

/-!
# Machines on a keyed store

A request of the machine has a key; what it answers and what it stores depends on what is
stored under its key, and it stores nothing under another key (`Local`).

* `outputs`: the requests of a run with their answers;
* `outputs_filter`: requests that share no key with the others are answered as if the others
  were not there;
* `outputs_replay`: the rule for requests that are told apart by their answers, and for two states
  that need only be related;
* `length_le_or_one_key`: what a cap for each key says about the whole.
-/

namespace Keyed

variable {σ κ ν ρ β : Type*}

/-- A step looks at and writes what is stored under the key of its request only. -/
structure Local (get : σ → κ → ν) (key : ρ → κ) (step : σ → ρ → σ × β) : Prop where
  frame : ∀ s r k, k ≠ key r → get (step s r).1 k = get s k
  answer : ∀ s s' r, get s (key r) = get s' (key r) → (step s r).2 = (step s' r).2
  store : ∀ s s' r, get s (key r) = get s' (key r) →
    get (step s r).1 (key r) = get (step s' r).1 (key r)

/-- The requests of a run, each with its answer. -/
def outputs (step : σ → ρ → σ × β) (s : σ) : List ρ → List (ρ × β)
  | [] => []
  | r :: rs => (r, (step s r).2) :: outputs step (step s r).1 rs

theorem outputs_append (step : σ → ρ → σ × β) (s : σ) (rs rs' : List ρ) :
    outputs step s (rs ++ rs') =
      outputs step s rs ++ outputs step (rs.foldl (fun s r => (step s r).1) s) rs' := by
  induction rs generalizing s with
  | nil => rfl
  | cons r rs ih => exact congrArg (_ :: ·) (ih _)

theorem fst_mem_of_mem_outputs {step : σ → ρ → σ × β} {s : σ} {rs : List ρ} {x : ρ × β}
    (h : x ∈ outputs step s rs) : x.1 ∈ rs := by
  induction rs generalizing s with
  | nil => cases h
  | cons r rs ih =>
    rcases List.mem_cons.1 h with rfl | h
    · exact List.mem_cons_self
    · exact List.mem_cons_of_mem r (ih h)

theorem map_fst_outputs (step : σ → ρ → σ × β) (s : σ) (rs : List ρ) :
    (outputs step s rs).map Prod.fst = rs := by
  induction rs generalizing s with
  | nil => rfl
  | cons r rs ih => exact congrArg (r :: ·) (ih _)

variable {get : σ → κ → ν} {key : ρ → κ} {step : σ → ρ → σ × β}

/-- Stores that agree on the keys of the requests with a property answer these alike, with or
without the others. -/
theorem Local.outputs_filter_of_agree (h : Local get key step) {p : ρ → Prop} [DecidablePred p]
    {rs : List ρ} (hkeys : ∀ r ∈ rs, ∀ r' ∈ rs, p r → ¬ p r' → key r ≠ key r') {s s' : σ}
    (hagree : ∀ r ∈ rs, p r → get s (key r) = get s' (key r)) :
    (outputs step s rs).filter (fun x => decide (p x.1)) =
      outputs step s' (rs.filter (fun r => decide (p r))) := by
  induction rs generalizing s s' with
  | nil => rfl
  | cons r rs ih =>
    have hkeys' : ∀ r ∈ rs, ∀ r' ∈ rs, p r → ¬ p r' → key r ≠ key r' :=
      fun x hx y hy => hkeys x (List.mem_cons_of_mem r hx) y (List.mem_cons_of_mem r hy)
    by_cases hp : p r
    · -- both machines serve the request, and agree after it
      have hsame := hagree r List.mem_cons_self hp
      rw [List.filter_cons, if_pos (decide_eq_true hp), outputs, outputs, List.filter_cons,
        if_pos (decide_eq_true hp), h.answer s s' r hsame]
      refine congrArg _ (ih hkeys' fun x hx hpx => ?_)
      by_cases hk : key x = key r
      · rw [hk]
        exact h.store s s' r hsame
      · rw [h.frame s r _ hk, h.frame s' r _ hk]
        exact hagree x (List.mem_cons_of_mem r hx) hpx
    · -- the request is one of the others, and writes under another key
      have hnot : ¬ decide (p r) = true := fun hd => hp (of_decide_eq_true hd)
      rw [List.filter_cons, if_neg hnot, outputs, List.filter_cons, if_neg hnot]
      refine ih hkeys' fun x hx hpx => ?_
      have hne : key x ≠ key r := hkeys x (List.mem_cons_of_mem r hx) r List.mem_cons_self hpx hp
      rw [h.frame s r _ hne]
      exact hagree x (List.mem_cons_of_mem r hx) hpx

/-- **No interference.**  Requests that share no key with the others are answered as if the
others were not there. -/
theorem Local.outputs_filter (h : Local get key step) {p : ρ → Prop} [DecidablePred p] {s : σ}
    {rs : List ρ} (hkeys : ∀ r ∈ rs, ∀ r' ∈ rs, p r → ¬ p r' → key r ≠ key r') :
    (outputs step s rs).filter (fun x => decide (p x.1)) =
      outputs step s (rs.filter (fun r => decide (p r))) :=
  h.outputs_filter_of_agree hkeys fun _ _ _ => rfl

/-- **Replaying a part of a run.**  The requests with a property, which may depend on their answers,
are answered alike by a machine that gets no others, if they keep the two machines related and the
others do not disturb that. -/
theorem outputs_replay {R : σ → σ → Prop} {p : ρ × β → Prop} [DecidablePred p]
    (hin : ∀ s s' r, R s s' → p (r, (step s r).2) →
      (step s' r).2 = (step s r).2 ∧ R (step s r).1 (step s' r).1)
    (hout : ∀ s s' r, R s s' → ¬ p (r, (step s r).2) → R (step s r).1 s')
    {s s' : σ} (h : R s s') (rs : List ρ) :
    outputs step s' (((outputs step s rs).filter (fun x => decide (p x))).map Prod.fst) =
      (outputs step s rs).filter (fun x => decide (p x)) := by
  induction rs generalizing s s' with
  | nil => rfl
  | cons r rs ih =>
    rw [outputs, List.filter_cons]
    by_cases hp : p (r, (step s r).2)
    · obtain ⟨hanswer, hR⟩ := hin s s' r h hp
      rw [if_pos (decide_eq_true hp), List.map_cons, outputs, hanswer, ih hR]
    · rw [if_neg (by rwa [decide_eq_true_iff])]
      exact ih (hout s s' r h hp)

/-! ### Caps for each key -/

section Caps

variable {α : Type*} [DecidableEq κ] {l : List α} {f : α → κ} {ok : α → Bool} {limit : ℕ}

/-- What is passed for two keys is no more than what is passed in all. -/
theorem countP_add_countP_le {k k' : κ} (hne : k ≠ k') :
    l.countP (fun a => ok a && decide (f a = k)) + l.countP (fun a => ok a && decide (f a = k')) ≤
      l.countP ok := by
  rw [List.countP_eq_countP_filter_add l ok (fun a => decide (f a = k)), List.countP_filter,
    List.countP_filter]
  refine Nat.add_le_add_left (List.countP_mono_left fun a _ ha => ?_) _
  rw [Bool.and_eq_true, decide_eq_true_eq] at ha
  rw [ha.1, ha.2, decide_eq_false (Ne.symm hne)]
  rfl

/-- When for each key as many are passed as there are, up to a limit, and no more than the limit
are passed in all, then there are no more in all, or all have one key. -/
theorem length_le_or_one_key (hlimit : 1 ≤ limit)
    (hcap : ∀ k, l.countP (fun a => ok a && decide (f a = k)) =
      min limit (l.countP (fun a => decide (f a = k))))
    (hall : l.countP ok ≤ limit) : l.length ≤ limit ∨ ∀ a ∈ l, ∀ b ∈ l, f a = f b := by
  have hpos : ∀ a ∈ l, 1 ≤ l.countP (fun b => decide (f b = f a)) := fun a ha =>
    List.countP_pos_iff.2 ⟨a, ha, decide_eq_true rfl⟩
  by_cases hfull : ∃ a ∈ l, limit ≤ l.countP (fun b => decide (f b = f a))
  · -- a key that has used up its limit leaves no room for another one
    obtain ⟨a, ha, hfull⟩ := hfull
    have hone : ∀ b ∈ l, f b = f a := by
      intro b hb
      by_contra hne
      have hsum : l.countP (fun c => ok c && decide (f c = f b)) +
          l.countP (fun c => ok c && decide (f c = f a)) ≤ l.countP ok := countP_add_countP_le hne
      rw [hcap, hcap, Nat.min_eq_left hfull] at hsum
      have hb' := hpos b hb
      omega
    exact Or.inr fun b hb c hc => (hone b hb).trans (hone c hc).symm
  · -- no key has, and all are passed
    refine Or.inl (Nat.le_trans (Nat.le_of_eq (List.countP_eq_length.2 fun a ha => ?_).symm) hall)
    have hroom : l.countP (fun b => decide (f b = f a)) < limit :=
      Nat.lt_of_not_le fun h => hfull ⟨a, ha, h⟩
    have hsame := hcap (f a)
    rw [Nat.min_eq_right (Nat.le_of_lt hroom), ← List.countP_filter,
      List.countP_eq_length_filter (p := fun b => decide (f b = f a)), List.countP_eq_length] at hsame
    exact hsame a (List.mem_filter.2 ⟨ha, decide_eq_true rfl⟩)

end Caps

end Keyed
