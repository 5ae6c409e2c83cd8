import Mathlib.Data.List.Basic
import Mathlib.Tactic.Common

/-!
# Regular expressions

Patterns with greedy and lazy repetitions of a class of characters, and with word boundaries, as
backtracking engines match them.

* `Pattern`, `Matches`: which stretches a pattern matches, given whether the character before is
  one of a word, and what comes after the stretch;
* `run`: the engine, with the lengths of all matches at a place in the order of its preferences;
  `length_mem_run_iff`: it finds exactly the stretches that match;
* `nullable`, `closed`, `avoids`: patterns that do not match the empty stretch, patterns for which
  it does not matter what comes after, and those whose matches lack a character
  (`not_matches_nil`, `Matches.of_closed`, `not_mem_of_avoids`);
* `chain`, `choice`, `optional`, `plus`: the usual combinations.
-/

namespace Regex

/-- A pattern over characters of type `α`. -/
inductive Pattern (α : Type*)
  | empty
  /-- One character of a class. -/
  | one (cls : α → Bool)
  /-- Any number of characters of a class, preferably many, or preferably few. -/
  | many (greedy : Bool) (cls : α → Bool)
  /-- The border of a word. -/
  | boundary
  | seq (p q : Pattern α)
  /-- One of two patterns, preferably the first. -/
  | alt (p q : Pattern α)

namespace Pattern

variable {α : Type*}

/-- One pattern after the other. -/
def chain (ps : List (Pattern α)) : Pattern α := ps.foldr seq empty

/-- The first pattern that matches; `p` is the last one. -/
def choice (ps : List (Pattern α)) (p : Pattern α) : Pattern α := ps.foldr alt p

/-- The pattern, or nothing. -/
def optional (p : Pattern α) : Pattern α := alt p empty

/-- At least one character of a class, preferably many. -/
def plus (cls : α → Bool) : Pattern α := seq (one cls) (many true cls)

/-- The pattern may match the empty stretch. -/
def nullable : Pattern α → Bool
  | empty => true
  | one _ => false
  | many _ _ => true
  | boundary => true
  | seq p q => p.nullable && q.nullable
  | alt p q => p.nullable || q.nullable

/-- It does not matter what comes after the stretch. -/
def closed : Pattern α → Bool
  | empty => true
  | one _ => true
  | many _ _ => true
  | boundary => false
  | seq p q => q.closed && (p.closed || !q.nullable)
  | alt p q => p.closed && q.closed

/-- No match has this character. -/
def avoids (c : α) : Pattern α → Bool
  | empty => true
  | one cls => !cls c
  | many _ cls => !cls c
  | boundary => true
  | seq p q => p.avoids c && q.avoids c
  | alt p q => p.avoids c && q.avoids c

end Pattern

open Pattern

variable {α : Type*} (word : α → Bool)

/-- Whether the last character of a stretch is one of a word, or the character before it. -/
def after : Bool → List α → Bool
  | prev, [] => prev
  | _, c :: u => after (word c) u

@[simp] theorem after_nil (prev : Bool) : after word prev [] = prev := rfl

@[simp] theorem after_cons (prev : Bool) (c : α) (u : List α) :
    after word prev (c :: u) = after word (word c) u := rfl

@[simp] theorem after_append (prev : Bool) (u v : List α) :
    after word prev (u ++ v) = after word (after word prev u) v := by
  induction u generalizing prev with
  | nil => rfl
  | cons c u ih => exact ih (word c)

/-- The place between the two is the border of a word. -/
def Boundary (prev : Bool) (t : List α) : Prop := prev ≠ t.head?.any word

instance (prev : Bool) (t : List α) : Decidable (Boundary word prev t) :=
  inferInstanceAs (Decidable (prev ≠ t.head?.any word))

/-- The pattern matches the stretch `u`, which `t` follows. -/
def Matches : Pattern α → Bool → List α → List α → Prop
  | .empty, _, u, _ => u = []
  | .one cls, _, u, _ => ∃ c, u = [c] ∧ cls c = true
  | .many _ cls, _, u, _ => ∀ c ∈ u, cls c = true
  | .boundary, prev, u, t => u = [] ∧ Boundary word prev t
  | .seq p q, prev, u, t => ∃ u₁ u₂, u = u₁ ++ u₂ ∧ Matches p prev u₁ (u₂ ++ t) ∧
      Matches q (after word prev u₁) u₂ t
  | .alt p q, prev, u, t => Matches p prev u t ∨ Matches q prev u t

/-- The lengths of the matches at a place, in the order in which the engine tries them. -/
def run : Pattern α → Bool → List α → List ℕ
  | .empty, _, _ => [0]
  | .one cls, _, l => if l.head?.any cls then [1] else []
  | .many greedy cls, _, l =>
    let lengths := List.range ((l.takeWhile cls).length + 1)
    if greedy then lengths.reverse else lengths
  | .boundary, prev, l => if Boundary word prev l then [0] else []
  | .seq p q, prev, l => (run p prev l).flatMap fun n =>
      (run q (after word prev (l.take n)) (l.drop n)).map fun m => n + m
  | .alt p q, prev, l => run p prev l ++ run q prev l

/-- The match that the engine takes. -/
def first (p : Pattern α) (prev : Bool) (l : List α) : Option ℕ := (run word p prev l).head?

variable {word} {p q : Pattern α} {prev : Bool} {u t t' l : List α} {n : ℕ} {cls : α → Bool}

/-! ### The engine -/

theorem le_length_takeWhile_iff (hn : n ≤ l.length) :
    n ≤ (l.takeWhile cls).length ↔ ∀ c ∈ l.take n, cls c = true := by
  induction l generalizing n with
  | nil => simpa using hn
  | cons c l ih =>
    cases n with
    | zero => simp
    | succ n =>
      by_cases hc : cls c = true
      · rw [List.takeWhile_cons_of_pos hc, List.length_cons, List.take_succ_cons,
          Nat.succ_le_succ_iff, ih (Nat.le_of_succ_le_succ hn)]
        simp [hc]
      · rw [List.takeWhile_cons_of_neg hc, List.take_succ_cons]
        simp [hc]

theorem mem_run_many {greedy : Bool} :
    n ∈ run word (.many greedy cls) prev l ↔ n ≤ (l.takeWhile cls).length := by
  cases greedy with
  | true =>
    simp only [run, if_true, List.mem_reverse, List.mem_range]
    exact Nat.lt_succ_iff
  | false =>
    simp only [run, Bool.false_eq_true, if_false, List.mem_range]
    exact Nat.lt_succ_iff

/-- A match does not go beyond the end. -/
theorem le_length_of_mem_run (h : n ∈ run word p prev l) : n ≤ l.length := by
  induction p generalizing prev l n with
  | empty =>
    obtain rfl : n = 0 := by simpa [run] using h
    exact Nat.zero_le _
  | one cls =>
    cases l with
    | nil => simp [run] at h
    | cons c l =>
      by_cases hc : cls c = true
      · obtain rfl : n = 1 := by simpa [run, hc] using h
        exact Nat.succ_le_succ (Nat.zero_le _)
      · simp [run, hc] at h
  | many greedy cls => exact Nat.le_trans (mem_run_many.1 h) (List.takeWhile_sublist cls).length_le
  | boundary =>
    by_cases hb : Boundary word prev l
    · obtain rfl : n = 0 := by simpa [run, hb] using h
      exact Nat.zero_le _
    · simp [run, hb] at h
  | seq p q ihp ihq =>
    obtain ⟨a, ha, hrest⟩ := List.mem_flatMap.1 h
    obtain ⟨b, hb, rfl⟩ := List.mem_map.1 hrest
    have hfirst := ihp ha
    have hsecond := ihq hb
    rw [List.length_drop] at hsecond
    omega
  | alt p q ihp ihq =>
    rcases List.mem_append.1 h with h | h
    · exact ihp h
    · exact ihq h

/-- **The engine** finds exactly the stretches that match. -/
theorem length_mem_run_iff : u.length ∈ run word p prev (u ++ t) ↔ Matches word p prev u t := by
  induction p generalizing prev u t with
  | empty => simp [run, Matches]
  | one cls =>
    cases u with
    | nil => by_cases hc : t.head?.any cls = true <;> simp [run, Matches, hc]
    | cons c u =>
      by_cases hc : cls c = true
      · have hone : (c :: u).length ∈ run word (.one cls) prev (c :: u ++ t) ↔ u = [] := by
          simp [run, hc]
        refine hone.trans ⟨fun hu => ⟨c, by rw [hu], hc⟩, ?_⟩
        rintro ⟨_, hu, -⟩
        exact (List.cons.inj hu).2
      · have hnone : (c :: u).length ∉ run word (.one cls) prev (c :: u ++ t) := by
          simp [run, hc]
        refine iff_of_false hnone ?_
        rintro ⟨_, hu, hd⟩
        rw [← (List.cons.inj hu).1] at hd
        exact hc hd
  | many greedy cls =>
    have hle : u.length ≤ (u ++ t).length := by simp
    rw [mem_run_many, le_length_takeWhile_iff hle, List.take_left]
    rfl
  | boundary =>
    by_cases hu : u = []
    · subst hu
      by_cases hb : Boundary word prev t <;> simp [run, Matches, hb]
    · by_cases hb : Boundary word prev (u ++ t) <;> simp [run, Matches, hu, hb]
  | seq p q ihp ihq =>
    constructor
    · intro h
      obtain ⟨a, ha, hb⟩ := List.mem_flatMap.1 h
      obtain ⟨b, hb, hlength⟩ := List.mem_map.1 hb
      have hle : a ≤ u.length := by omega
      have hu : u = u.take a ++ u.drop a := (List.take_append_drop a u).symm
      rw [List.take_append_of_le_length hle, List.drop_append_of_le_length hle] at hb
      have hlast : b = (u.drop a).length := by rw [List.length_drop]; omega
      have hfirst : a = (u.take a).length := (List.length_take_of_le hle).symm
      refine ⟨u.take a, u.drop a, hu, ihp.1 ?_, ihq.1 ?_⟩
      · rw [← hfirst, ← List.append_assoc, ← hu]
        exact ha
      · rw [← hlast]
        exact hb
    · rintro ⟨u₁, u₂, rfl, hp, hq⟩
      refine List.mem_flatMap.2 ⟨u₁.length, ?_, List.mem_map.2 ⟨u₂.length, ?_, ?_⟩⟩
      · rw [List.append_assoc]
        exact ihp.2 hp
      · rw [List.append_assoc, List.take_left, List.drop_left]
        exact ihq.2 hq
      · exact List.length_append.symm
  | alt p q ihp ihq =>
    rw [run, List.mem_append, ihp, ihq]
    rfl

/-! ### The empty stretch, and what comes after -/

theorem not_matches_nil (h : p.nullable = false) : ¬ Matches word p prev [] t := by
  induction p generalizing prev t with
  | empty => cases h
  | one cls => simp [Matches]
  | many greedy cls => cases h
  | boundary => cases h
  | seq p q ihp ihq =>
    rintro ⟨u₁, u₂, hu, hp, hq⟩
    obtain ⟨rfl, rfl⟩ := List.append_eq_nil_iff.1 hu.symm
    rcases Bool.and_eq_false_iff.1 h with hnull | hnull
    · exact ihp hnull hp
    · exact ihq hnull hq
  | alt p q ihp ihq =>
    obtain ⟨hp, hq⟩ := Bool.or_eq_false_iff.1 h
    rintro (hm | hm)
    · exact ihp hp hm
    · exact ihq hq hm

/-- Only the first character of what comes after matters. -/
theorem Matches.of_head (hm : Matches word p prev u t) (h : t.head? = t'.head?) :
    Matches word p prev u t' := by
  induction p generalizing prev u t t' with
  | empty => exact hm
  | one cls => exact hm
  | many greedy cls => exact hm
  | boundary =>
    refine ⟨hm.1, ?_⟩
    rw [Boundary, ← h]
    exact hm.2
  | seq p q ihp ihq =>
    obtain ⟨u₁, u₂, rfl, hp, hq⟩ := hm
    refine ⟨u₁, u₂, rfl, ihp hp ?_, ihq hq h⟩
    rw [List.head?_append, List.head?_append, h]
  | alt p q ihp ihq => exact hm.imp (fun hp => ihp hp h) (fun hq => ihq hq h)

/-- **A closed pattern** matches whatever comes after. -/
theorem Matches.of_closed (hm : Matches word p prev u t) (h : p.closed = true) :
    Matches word p prev u t' := by
  induction p generalizing prev u t t' with
  | empty => exact hm
  | one cls => exact hm
  | many greedy cls => exact hm
  | boundary => cases h
  | seq p q ihp ihq =>
    obtain ⟨u₁, u₂, rfl, hp, hq⟩ := hm
    obtain ⟨hqclosed, hrest⟩ := Bool.and_eq_true_iff.1 h
    refine ⟨u₁, u₂, rfl, ?_, ihq hq hqclosed⟩
    rcases Bool.or_eq_true_iff.1 hrest with hpclosed | hnull
    · exact ihp hp hpclosed
    · -- the second stretch is not empty, and its first character is what the first one meets
      cases u₂ with
      | nil => exact absurd hq (not_matches_nil (by simpa using hnull))
      | cons c u₂ => exact hp.of_head rfl
  | alt p q ihp ihq =>
    obtain ⟨hpclosed, hqclosed⟩ := Bool.and_eq_true_iff.1 h
    exact hm.imp (fun hp => ihp hp hpclosed) (fun hq => ihq hq hqclosed)

/-- What comes before does not matter to a pattern that begins with a character. -/
theorem Matches.of_one (hm : Matches word (.seq (.one cls) q) prev u t) (prev' : Bool) :
    Matches word (.seq (.one cls) q) prev' u t := by
  obtain ⟨_, u₂, rfl, ⟨c, rfl, hc⟩, hq⟩ := hm
  exact ⟨[c], u₂, rfl, ⟨c, rfl, hc⟩, hq⟩

theorem not_mem_of_avoids {c : α} (h : p.avoids c = true) (hm : Matches word p prev u t) :
    c ∉ u := by
  induction p generalizing prev u t with
  | empty =>
    obtain rfl := hm
    exact List.not_mem_nil
  | one cls =>
    obtain ⟨d, rfl, hd⟩ := hm
    intro hmem
    rw [← List.mem_singleton.1 hmem] at hd
    simp [avoids, hd] at h
  | many greedy cls =>
    intro hmem
    simp [avoids, hm c hmem] at h
  | boundary =>
    obtain ⟨rfl, -⟩ := hm
    exact List.not_mem_nil
  | seq p q ihp ihq =>
    obtain ⟨u₁, u₂, rfl, hp, hq⟩ := hm
    obtain ⟨hap, haq⟩ := Bool.and_eq_true_iff.1 h
    exact fun hmem => (List.mem_append.1 hmem).elim (ihp hap hp) (ihq haq hq)
  | alt p q ihp ihq =>
    obtain ⟨hap, haq⟩ := Bool.and_eq_true_iff.1 h
    exact hm.elim (ihp hap) (ihq haq)

/-- A chain of two chains. -/
theorem matches_chain_append {ps qs : List (Pattern α)} :
    Matches word (chain (ps ++ qs)) prev u t ↔ ∃ u₁ u₂, u = u₁ ++ u₂ ∧
      Matches word (chain ps) prev u₁ (u₂ ++ t) ∧
        Matches word (chain qs) (after word prev u₁) u₂ t := by
  induction ps generalizing prev u with
  | nil =>
    constructor
    · exact fun hm => ⟨[], u, rfl, rfl, hm⟩
    · rintro ⟨_, u₂, rfl, rfl, hm⟩
      exact hm
  | cons p ps ih =>
    constructor
    · rintro ⟨v, _, rfl, hp, hrest⟩
      obtain ⟨u₁, u₂, rfl, hps, hqs⟩ := ih.1 hrest
      refine ⟨v ++ u₁, u₂, by simp, ⟨v, u₁, rfl, ?_, hps⟩, ?_⟩
      · rwa [← List.append_assoc]
      · rwa [after_append]
    · rintro ⟨_, u₂, rfl, ⟨v, u₁, rfl, hp, hps⟩, hqs⟩
      rw [after_append] at hqs
      refine ⟨v, u₁ ++ u₂, by simp, ?_, ih.2 ⟨u₁, u₂, rfl, hps, hqs⟩⟩
      rwa [List.append_assoc]

/-- A match at a place, if there is one, is not empty. -/
theorem exists_first (hnull : p.nullable = false) (hm : Matches word p prev u t) :
    ∃ n, first word p prev (u ++ t) = some (n + 1) := by
  have hmem := length_mem_run_iff.2 hm
  unfold first
  cases hrun : run word p prev (u ++ t) with
  | nil =>
    rw [hrun] at hmem
    cases hmem
  | cons n ns =>
    have hn : n ∈ run word p prev (u ++ t) := by
      rw [hrun]
      exact List.mem_cons_self
    cases n with
    | zero =>
      have hempty : Matches word p prev [] (u ++ t) := length_mem_run_iff.1 hn
      exact absurd hempty (not_matches_nil hnull)
    | succ n => exact ⟨n, rfl⟩

end Regex
