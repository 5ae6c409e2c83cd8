import Mathlib.Data.List.Basic
import Mathlib.Data.List.Chain
import Mathlib.Data.List.Nodup
import Mathlib.Tactic.Common

/-!
# A resource shared by its users

The first user orders the resource, and the last one to leave gives it back; a user that finds an
entry joins without an order.  Orders are carried out one after the other.  An order for the
resource may fail; its user learns the outcome some time after it, and is entered then.

* `Shared`, `step`: the users, the orders that are out, and the outcomes not learnt yet;
* `Wired`: the invariant;
* `Kept`: nobody has found the entry gone, and when nothing is out the resource is held exactly if
  there are users, all of whom are entered;
* `kept_step_iff`: the steps that keep it;
* `settled_step`: when nothing is out, nothing is, as long as a user stays.
-/

/-- A shared resource. -/
@[ext]
structure Shared (η : Type*) where
  /-- The entry. -/
  users : Option (List η) := none
  held : Bool := false
  /-- The orders that are out: `some u` for the resource, by `u`, and `none` to give it back. -/
  orders : List (Option η) := []
  /-- The outcomes that users have not learnt yet. -/
  answers : List (η × Bool) := []
  /-- Who has been entered and has not left. -/
  live : List η := []
  /-- Somebody has learnt that the order went well, and found the entry gone. -/
  crashed : Bool := false

namespace Shared

variable {η : Type*} [DecidableEq η]

/-- What can happen. -/
inductive Event (η : Type*)
  | join (u : η)
  | leave (u : η)
  /-- The oldest order is carried out. -/
  | answer (ok : Bool)
  /-- The oldest outcome is learnt. -/
  | resume

/-- A user is entered. -/
def enter (s : Shared η) (u : η) : Shared η :=
  match s.users with
  | some us => { s with users := some (us.insert u), live := s.live.insert u }
  | none => { s with crashed := true }

/-- A user comes. -/
def join (s : Shared η) (u : η) : Shared η :=
  match s.users with
  | some _ => s.enter u
  | none => { s with users := some [], orders := s.orders ++ [some u] }

/-- A user leaves. -/
def leave (s : Shared η) (u : η) : Shared η :=
  match s.users with
  | some us =>
    if us.erase u = [] then
      { s with users := none, orders := s.orders ++ [none], live := s.live.erase u }
    else { s with users := some (us.erase u), live := s.live.erase u }
  | none => { s with live := s.live.erase u }

/-- The oldest order is carried out. -/
def answer (s : Shared η) (ok : Bool) : Shared η :=
  match s.orders with
  | some u :: orders =>
    { s with orders := orders, held := ok || s.held, answers := s.answers ++ [(u, ok)] }
  | none :: orders => { s with orders := orders, held := false }
  | [] => s

/-- The oldest outcome is learnt. -/
def resume (s : Shared η) : Shared η :=
  match s.answers with
  | (u, ok) :: answers =>
    if ok then { s with answers := answers }.enter u else { s with answers := answers }
  | [] => s

/-- The state after an event. -/
def step (s : Shared η) : Event η → Shared η
  | .join u => s.join u
  | .leave u => s.leave u
  | .answer ok => s.answer ok
  | .resume => s.resume

/-- Nothing is out. -/
def Settled (s : Shared η) : Prop := s.orders = [] ∧ s.answers = []

/-- Nobody has found the entry gone.  When nothing is out, the resource is held exactly if there
are users, and the entry is theirs. -/
structure Kept (s : Shared η) : Prop where
  sound : s.crashed = false
  held : Settled s → (s.held = true ↔ s.live ≠ [])
  entry : Settled s → s.users = if s.live = [] then none else some s.live

/-- The invariant. -/
structure Wired (s : Shared η) : Prop where
  live : s.live = s.users.getD []
  nodup : s.live.Nodup
  last : ∀ o ∈ s.orders.getLast?, (o.isSome = true ↔ s.users.isSome = true)
  chain : s.orders.IsChain (fun a b => a.isSome ≠ b.isSome)
  free : ∀ o ∈ s.orders.head?, o.isSome = true → s.held = false
  back : s.orders = [] → s.users = none → s.held = false
  outcome : s.orders = [] → s.users.isSome = true → ∀ a ∈ s.answers.getLast?, s.held = a.2

/-- Who learns that an order went well finds an entry; who learns that it failed does not, unless
something else is out. -/
def Fits (s : Shared η) : Event η → Prop
  | .resume =>
    match s.answers with
    | (_, true) :: _ => s.users.isSome = true
    | (_, false) :: answers => s.users.isSome = true → s.orders = [] → answers ≠ []
    | [] => True
  | _ => True

variable {s : Shared η} {u : η} {e : Event η}

omit [DecidableEq η] in
theorem wired_init : Wired ({} : Shared η) where
  live := rfl
  nodup := List.nodup_nil
  last _ h := absurd h (by simp)
  chain := List.isChain_nil
  free _ h := absurd h (by simp)
  back _ _ := rfl
  outcome _ h := absurd h Bool.false_ne_true

omit [DecidableEq η] in
theorem kept_init : Kept ({} : Shared η) where
  sound := rfl
  held _ := ⟨fun h => absurd h Bool.false_ne_true, fun h => absurd rfl h⟩
  entry _ := rfl

/-! ### The invariant -/

section Orders

omit [DecidableEq η]

/-- An order that changes whether there is an entry alternates with the last one. -/
theorem Wired.chain_append (h : Wired s) {o : Option η} (ho : o.isSome ≠ s.users.isSome) :
    (s.orders ++ [o]).IsChain (fun a b => a.isSome ≠ b.isSome) := by
  refine List.isChain_append.2 ⟨h.chain, List.isChain_singleton _, fun a ha b hb heq => ?_⟩
  obtain rfl : o = b := Option.some.inj hb
  exact ho (heq ▸ Bool.eq_iff_iff.2 (h.last a ha))

/-- It is not carried out while the resource is held, if it is for the resource. -/
theorem Wired.free_append (h : Wired s) {o : Option η} (ho : o.isSome ≠ s.users.isSome) :
    ∀ x ∈ (s.orders ++ [o]).head?, x.isSome = true → s.held = false := by
  intro x hx hsome
  cases horders : s.orders with
  | nil =>
    rw [horders, List.nil_append] at hx
    obtain rfl : o = x := Option.some.inj hx
    rw [hsome] at ho
    exact h.back horders (Option.not_isSome_iff_eq_none.1 (Ne.symm ho))
  | cons o' orders =>
    refine h.free x ?_ hsome
    rw [horders] at hx ⊢
    exact hx

theorem append_order_ne_nil (orders : List (Option η)) (o : Option η) : orders ++ [o] ≠ [] :=
  List.append_ne_nil_of_right_ne_nil _ (List.cons_ne_nil _ _)

theorem Wired.live_eq (h : Wired s) {us : List η} (hus : s.users = some us) : s.live = us := by
  rw [h.live, hus]
  rfl

theorem Wired.live_eq_nil (h : Wired s) (hnone : s.users = none) : s.live = [] := by
  rw [h.live, hnone]
  rfl

theorem mem_getLast?_cons {α : Type*} {a x : α} {l : List α} (h : a ∈ l.getLast?) :
    a ∈ (x :: l).getLast? := by
  rw [List.getLast?_cons, Option.mem_def.1 h]
  rfl

end Orders

theorem Wired.enter (h : Wired s) (u : η) : Wired (s.enter u) := by
  unfold Shared.enter
  split
  · rename_i us hus
    refine ⟨?_, h.nodup.insert, fun o ho => ?_, h.chain, h.free, fun _ hnone => ?_,
      fun horders _ => h.outcome horders (by rw [hus]; rfl)⟩
    · rw [h.live_eq hus]
      rfl
    · rw [h.last o ho, hus]
      exact Iff.rfl
    · cases hnone
  · exact ⟨h.live, h.nodup, h.last, h.chain, h.free, h.back, h.outcome⟩

theorem Wired.join (h : Wired s) (u : η) : Wired (s.join u) := by
  unfold Shared.join
  split
  · exact h.enter u
  · rename_i hnone
    have ho : (some u).isSome ≠ s.users.isSome := by
      rw [hnone]
      exact Bool.false_ne_true.symm
    refine ⟨h.live_eq_nil hnone, h.nodup, fun o ho => ?_, h.chain_append ho, h.free_append ho,
      fun horders => absurd horders (append_order_ne_nil _ _),
      fun horders => absurd horders (append_order_ne_nil _ _)⟩
    rw [List.getLast?_concat] at ho
    rw [← Option.some.inj ho]
    exact Iff.rfl

theorem Wired.leave (h : Wired s) (u : η) : Wired (s.leave u) := by
  unfold Shared.leave
  split
  · rename_i us hus
    split
    · rename_i hempty
      have ho : (none : Option η).isSome ≠ s.users.isSome := by
        rw [hus]
        exact Bool.false_ne_true
      refine ⟨?_, h.nodup.erase u, fun o ho => ?_, h.chain_append ho, h.free_append ho,
        fun horders => absurd horders (append_order_ne_nil _ _),
        fun horders => absurd horders (append_order_ne_nil _ _)⟩
      · rw [h.live_eq hus, hempty]
        rfl
      · rw [List.getLast?_concat] at ho
        rw [← Option.some.inj ho]
        exact Iff.rfl
    · refine ⟨?_, h.nodup.erase u, fun o ho => ?_, h.chain, h.free, fun _ hnone => ?_,
        fun horders _ => h.outcome horders (by rw [hus]; rfl)⟩
      · rw [h.live_eq hus]
        rfl
      · rw [h.last o ho, hus]
        exact Iff.rfl
      · cases hnone
  · rename_i hnone
    refine ⟨?_, h.nodup.erase u, h.last, h.chain, h.free, h.back, h.outcome⟩
    rw [h.live_eq_nil hnone, hnone]
    rfl

omit [DecidableEq η] in
theorem Wired.answer (h : Wired s) (ok : Bool) : Wired (s.answer ok) := by
  unfold Shared.answer
  split
  · rename_i u orders horders
    have hchain := h.chain
    rw [horders, List.isChain_cons] at hchain
    have hfree : s.held = false := h.free (some u) (by rw [horders]; rfl) rfl
    refine ⟨h.live, h.nodup, fun o ho => h.last o ?_, hchain.2, fun o ho hsome => ?_,
      fun hnil hnone => ?_, fun _ _ a ha => ?_⟩
    · rw [horders]
      exact mem_getLast?_cons ho
    · exact absurd hsome.symm (hchain.1 o ho)
    · obtain rfl : orders = [] := hnil
      have hlast := h.last (some u) (by rw [horders]; rfl)
      rw [Option.isSome_eq_false_iff.2 (Option.isNone_iff_eq_none.2 hnone)] at hlast
      exact absurd (hlast.1 rfl) Bool.false_ne_true
    · rw [List.getLast?_concat] at ha
      rw [← Option.some.inj ha, hfree, Bool.or_false]
  · rename_i orders horders
    have hchain := h.chain
    rw [horders, List.isChain_cons] at hchain
    refine ⟨h.live, h.nodup, fun o ho => h.last o ?_, hchain.2, fun _ _ _ => rfl, fun _ _ => rfl,
      fun hnil hsome => ?_⟩
    · rw [horders]
      exact mem_getLast?_cons ho
    · obtain rfl : orders = [] := hnil
      have hlast := h.last none (by rw [horders]; rfl)
      exact absurd (hlast.2 hsome) Bool.false_ne_true
  · exact h

omit [DecidableEq η] in
/-- An outcome that is learnt is no longer out. -/
theorem Wired.tail_answers (h : Wired s) {a : η × Bool} {answers : List (η × Bool)}
    (hanswers : s.answers = a :: answers) : Wired { s with answers := answers } := by
  refine ⟨h.live, h.nodup, h.last, h.chain, h.free, h.back, fun hnil hsome x hx => ?_⟩
  refine h.outcome hnil hsome x ?_
  rw [hanswers]
  exact mem_getLast?_cons hx

theorem Wired.resume (h : Wired s) : Wired s.resume := by
  unfold Shared.resume
  split
  · rename_i u ok answers hanswers
    split
    · exact (h.tail_answers hanswers).enter u
    · exact h.tail_answers hanswers
  · exact h

theorem Wired.step (h : Wired s) (e : Event η) : Wired (s.step e) := by
  cases e with
  | join u => exact h.join u
  | leave u => exact h.leave u
  | answer ok => exact h.answer ok
  | resume => exact h.resume

/-! ### What keeps it -/

/-- A user is entered while the resource is held. -/
theorem Wired.kept_enter (h : Wired s) (hsound : s.crashed = false) (hsome : s.users.isSome = true)
    (hheld : Settled s → s.held = true) (u : η) : Kept (s.enter u) := by
  obtain ⟨us, hus⟩ := Option.isSome_iff_exists.1 hsome
  have henter : s.enter u = { s with users := some (us.insert u), live := s.live.insert u } := by
    rw [Shared.enter, hus]
  have hne : s.live.insert u ≠ [] := List.ne_nil_of_mem List.mem_insert_self
  rw [henter]
  refine ⟨hsound, fun hsettled => ⟨fun _ => hne, fun _ => hheld hsettled⟩, fun _ => ?_⟩
  rw [if_neg hne, h.live_eq hus]

omit [DecidableEq η] in
/-- With an entry and nothing out, the resource is held. -/
theorem Kept.held_of_users (h : Kept s) (hsome : s.users.isSome = true) (hsettled : Settled s) :
    s.live ≠ [] ∧ s.held = true := by
  have hne : s.live ≠ [] := by
    intro hnil
    rw [h.entry hsettled, if_pos hnil] at hsome
    exact Bool.false_ne_true hsome
  exact ⟨hne, (h.held hsettled).2 hne⟩

theorem Wired.kept_join (hw : Wired s) (h : Kept s) (u : η) : Kept (s.join u) := by
  unfold Shared.join
  split
  · rename_i us hus
    have hsome : s.users.isSome = true := by
      rw [hus]
      rfl
    exact hw.kept_enter h.sound hsome (fun hsettled => (h.held_of_users hsome hsettled).2) u
  · exact ⟨h.sound, fun hsettled => absurd hsettled.1 (append_order_ne_nil _ _),
      fun hsettled => absurd hsettled.1 (append_order_ne_nil _ _)⟩

theorem Wired.kept_leave (hw : Wired s) (h : Kept s) (u : η) : Kept (s.leave u) := by
  unfold Shared.leave
  split
  · rename_i us hus
    split
    · exact ⟨h.sound, fun hsettled => absurd hsettled.1 (append_order_ne_nil _ _),
        fun hsettled => absurd hsettled.1 (append_order_ne_nil _ _)⟩
    · rename_i hne
      have hlive := hw.live_eq hus
      refine ⟨h.sound, fun hsettled => ⟨fun _ => ?_, fun _ => ?_⟩, fun _ => ?_⟩
      · rw [hlive]
        exact hne
      · exact (h.held_of_users (by rw [hus]; rfl) hsettled).2
      · rw [hlive, if_neg hne]
  · rename_i hnone
    have hlive := hw.live_eq_nil hnone
    refine ⟨h.sound, fun hsettled => ?_, fun hsettled => ?_⟩
    · have hheld := h.held hsettled
      rw [hlive] at hheld
      rw [hlive]
      exact hheld
    · rw [hlive]
      exact hnone

omit [DecidableEq η] in
theorem Wired.kept_answer (hw : Wired s) (h : Kept s) (ok : Bool) : Kept (s.answer ok) := by
  unfold Shared.answer
  split
  · exact ⟨h.sound, fun hsettled => absurd hsettled.2 (List.append_ne_nil_of_right_ne_nil _
      (List.cons_ne_nil _ _)), fun hsettled => absurd hsettled.2
        (List.append_ne_nil_of_right_ne_nil _ (List.cons_ne_nil _ _))⟩
  · rename_i orders horders
    -- the last one has given the resource back
    have hnone : orders = [] → s.users = none := by
      rintro rfl
      have hlast := hw.last none (by rw [horders]; rfl)
      exact Option.not_isSome_iff_eq_none.1 fun hsome => Bool.false_ne_true (hlast.2 hsome)
    refine ⟨h.sound, fun hsettled => ?_, fun hsettled => ?_⟩
    · rw [hw.live_eq_nil (hnone hsettled.1)]
      exact ⟨fun hheld => absurd hheld Bool.false_ne_true, fun hne => absurd rfl hne⟩
    · rw [hw.live_eq_nil (hnone hsettled.1)]
      exact hnone hsettled.1
  · exact h

/-- Learning the outcome of an order. -/
theorem Wired.kept_resume_iff (hw : Wired s) (h : Kept s) : Kept s.resume ↔ Fits s .resume := by
  unfold Shared.resume Fits
  cases hanswers : s.answers with
  | nil => exact iff_of_true h trivial
  | cons a answers =>
    obtain ⟨u, ok⟩ := a
    have hrest := hw.tail_answers hanswers
    -- the outcome is the last one
    have hheld : s.users.isSome = true → Settled { s with answers := answers } → s.held = ok := by
      intro hsome hsettled
      refine hw.outcome hsettled.1 hsome (u, ok) ?_
      obtain rfl : answers = [] := hsettled.2
      rw [hanswers]
      rfl
    cases ok with
    | true =>
      constructor
      · intro hkept
        by_contra hnone
        have hcrashed : ({ s with answers := answers }.enter u).crashed = true := by
          rw [Shared.enter, Option.not_isSome_iff_eq_none.1 hnone]
        have hsound : ({ s with answers := answers }.enter u).crashed = false := hkept.sound
        rw [hcrashed] at hsound
        exact Bool.false_ne_true hsound.symm
      · exact fun hsome => hrest.kept_enter h.sound hsome (hheld hsome) u
    | false =>
      constructor
      · rintro hkept hsome hnil rfl
        have hsettled : Settled { s with answers := [] } := ⟨hnil, rfl⟩
        have htrue : s.held = true := (Kept.held_of_users hkept hsome hsettled).2
        rw [hheld hsome hsettled] at htrue
        exact Bool.false_ne_true htrue
      · intro hfits
        have hnone : Settled { s with answers := answers } → s.users = none := fun hsettled =>
          Option.not_isSome_iff_eq_none.1 fun hsome => hfits hsome hsettled.1 hsettled.2
        refine ⟨h.sound, fun hsettled => ?_, fun hsettled => ?_⟩
        · show s.held = true ↔ s.live ≠ []
          rw [hw.live_eq_nil (hnone hsettled), hw.back hsettled.1 (hnone hsettled)]
          exact ⟨fun hheld => absurd hheld Bool.false_ne_true, fun hne => absurd rfl hne⟩
        · show s.users = if s.live = [] then none else some s.live
          rw [hw.live_eq_nil (hnone hsettled)]
          exact hnone hsettled

/-- **Exactly which steps keep it.** -/
theorem kept_step_iff (hw : Wired s) (h : Kept s) (e : Event η) : Kept (s.step e) ↔ Fits s e := by
  cases e with
  | join u => exact iff_of_true (hw.kept_join h u) trivial
  | leave u => exact iff_of_true (hw.kept_leave h u) trivial
  | answer ok => exact iff_of_true (hw.kept_answer h ok) trivial
  | resume => exact hw.kept_resume_iff h

/-- **When nothing is out, nothing is**, as long as a user stays. -/
theorem settled_step (hw : Wired s) (hsettled : Settled s) (hu : u ∈ s.live)
    (hstays : u ∈ (s.step e).live) : Settled (s.step e) := by
  have hsome : ∃ us, s.users = some us := by
    cases hus : s.users with
    | none =>
      rw [hw.live_eq_nil hus] at hu
      exact absurd hu List.not_mem_nil
    | some us => exact ⟨us, rfl⟩
  obtain ⟨us, hus⟩ := hsome
  cases e with
  | join v =>
    simp only [step, join, hus, enter]
    exact hsettled
  | leave v =>
    simp only [step, leave, hus] at hstays ⊢
    split at hstays
    · rename_i hempty
      rw [hw.live_eq hus, hempty] at hstays
      exact absurd hstays List.not_mem_nil
    · rename_i hne
      rw [if_neg hne]
      exact hsettled
  | answer ok =>
    simp only [step, answer, hsettled.1]
    exact hsettled
  | resume =>
    simp only [step, resume, hsettled.2]
    exact hsettled

end Shared
