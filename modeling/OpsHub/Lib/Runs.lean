import Mathlib.Data.List.Basic
import Mathlib.Data.List.Forall2
import Mathlib.Tactic.Common

/-!
# Runs of a step function

A system is given by a total step function `step : σ → ε → σ`: an event that the
system refuses leaves the state as it is.  A run is a finite list of events.

* `run step s es` is the state after the events `es`;
* `Meets step ok s es` says that every event of the run meets the condition `ok`
  in the state it is applied to;
* `run_induction` is the invariant rule, and `run_related` the rule for a relation
  between the first and the last state of a run;
* `always_iff_meets`: a property that a step keeps exactly under a condition holds in
  every state passed on the way exactly in the runs that meet the condition;
  `always_related_iff_meets` adds a relation between the states, `always_stepwise_iff_meets` one
  between each state and the next, `always_alike_iff_meets` is about events whose outcome is open.
-/

namespace Runs

variable {σ ε : Type*} (step : σ → ε → σ)

/-- The state after the events `es`. -/
def run (s : σ) (es : List ε) : σ := es.foldl step s

@[simp] theorem run_nil (s : σ) : run step s [] = s := rfl

@[simp] theorem run_cons (s : σ) (e : ε) (es : List ε) :
    run step s (e :: es) = run step (step s e) es := rfl

theorem run_append (s : σ) (es fs : List ε) :
    run step s (es ++ fs) = run step (run step s es) fs := by
  simp [run, List.foldl_append]

/-- Every event of the run meets `ok` in the state it is applied to. -/
def Meets (ok : σ → ε → Prop) : σ → List ε → Prop
  | _, [] => True
  | s, e :: es => ok s e ∧ Meets ok (step s e) es

variable {step} {ok ok' : σ → ε → Prop}

instance decidableMeets [∀ s e, Decidable (ok s e)] :
    ∀ s es, Decidable (Meets step ok s es)
  | _, [] => isTrue trivial
  | s, e :: es =>
    haveI := decidableMeets (step s e) es
    inferInstanceAs (Decidable (ok s e ∧ Meets step ok (step s e) es))

theorem meets_append {s : σ} {es fs : List ε} :
    Meets step ok s (es ++ fs) ↔ Meets step ok s es ∧ Meets step ok (run step s es) fs := by
  induction es generalizing s with
  | nil => simp [Meets]
  | cons e es ih => simp [Meets, ih, and_assoc]

/-- Two conditions are met together exactly if each of them is. -/
theorem meets_and {s : σ} {es : List ε} :
    Meets step (fun s e => ok s e ∧ ok' s e) s es ↔ Meets step ok s es ∧ Meets step ok' s es := by
  induction es generalizing s with
  | nil => simp [Meets]
  | cons e es ih =>
    simp only [Meets, ih]
    exact and_and_and_comm

/-- Equivalent conditions are met by the same runs. -/
theorem meets_congr (h : ∀ s e, ok s e ↔ ok' s e) {s : σ} {es : List ε} :
    Meets step ok s es ↔ Meets step ok' s es := by
  induction es generalizing s with
  | nil => exact Iff.rfl
  | cons e es ih => exact and_congr (h s e) ih

/-- The same for conditions that are equivalent in the states with an invariant. -/
theorem meets_congr_within {inv : σ → Prop} (hinv : ∀ s e, inv s → inv (step s e))
    (h : ∀ s e, inv s → (ok s e ↔ ok' s e)) {s : σ} {es : List ε} (hs : inv s) :
    Meets step ok s es ↔ Meets step ok' s es := by
  induction es generalizing s with
  | nil => exact Iff.rfl
  | cons e es ih => exact and_congr (h s e hs) (ih (hinv s e hs))

/-- A run that meets a condition does so up to every state that it passes. -/
theorem Meets.of_prefix {s : σ} {es fs : List ε} (h : Meets step ok s es) (hfs : fs <+: es) :
    Meets step ok s fs := by
  obtain ⟨gs, rfl⟩ := hfs
  exact (meets_append.1 h).1

/-- Every run meets a condition that always holds. -/
theorem meets_of_forall (h : ∀ s e, ok s e) (s : σ) (es : List ε) : Meets step ok s es := by
  induction es generalizing s with
  | nil => trivial
  | cons e es ih => exact ⟨h s e, ih (step s e)⟩

/-- A run meets a condition on its events alone if each of them does. -/
theorem meets_of_mem {dom : ε → Prop} {es : List ε} (h : ∀ e ∈ es, dom e) (s : σ) :
    Meets step (fun _ e => dom e) s es := by
  induction es generalizing s with
  | nil => trivial
  | cons e es ih =>
    exact ⟨h e List.mem_cons_self, ih (fun e' he' => h e' (List.mem_cons_of_mem e he')) _⟩

/-- **The invariant rule.** What one event preserves, a whole run preserves. -/
theorem run_induction {inv : σ → Prop} (hstep : ∀ s e, inv s → ok s e → inv (step s e))
    {s : σ} {es : List ε} (h : inv s) (hok : Meets step ok s es) : inv (run step s es) := by
  induction es generalizing s with
  | nil => exact h
  | cons e es ih => exact ih (hstep s e h hok.1) hok.2

/-- A run that meets a condition meets another one as well, if an invariant that events with the
first condition preserve gives the second. -/
theorem meets_of_kept {inv : σ → Prop} (hstep : ∀ s e, inv s → ok s e → ok' s e ∧ inv (step s e))
    {s : σ} {es : List ε} (h : inv s) (hok : Meets step ok s es) : Meets step ok' s es := by
  induction es generalizing s with
  | nil => trivial
  | cons e es ih =>
    obtain ⟨hok', hinv⟩ := hstep s e h hok.1
    exact ⟨hok', ih hinv hok.2⟩

/-- The invariant rule without a condition on the events. -/
theorem run_invariant {inv : σ → Prop} (hstep : ∀ s e, inv s → inv (step s e))
    {s : σ} (h : inv s) (es : List ε) : inv (run step s es) :=
  have htriv : Meets step (fun _ _ => True) s es := meets_of_forall (fun _ _ => trivial) s es
  run_induction (fun s e hs _ => hstep s e hs) h htriv

/-- The invariant rule with the help of an invariant that holds in every run. -/
theorem run_induction_within {aux inv : σ → Prop} (haux : ∀ s e, aux s → aux (step s e))
    (hstep : ∀ s e, aux s → inv s → ok s e → inv (step s e))
    {s : σ} {es : List ε} (hs : aux s) (h : inv s) (hok : Meets step ok s es) :
    inv (run step s es) := by
  have hboth : ∀ s e, aux s ∧ inv s → ok s e → aux (step s e) ∧ inv (step s e) :=
    fun s e hse he => ⟨haux s e hse.1, hstep s e hse.1 hse.2 he⟩
  exact (run_induction hboth ⟨hs, h⟩ hok).2

/-- The same without a condition on the events. -/
theorem run_invariant_within {aux inv : σ → Prop} (haux : ∀ s e, aux s → aux (step s e))
    (hstep : ∀ s e, aux s → inv s → inv (step s e)) {s : σ} (hs : aux s) (h : inv s)
    (es : List ε) : inv (run step s es) :=
  have htriv : Meets step (fun _ _ => True) s es := meets_of_forall (fun _ _ => trivial) s es
  run_induction_within haux (fun s e hs h _ => hstep s e hs h) hs h htriv

/-- A relation that is reflexive and transitive and holds across every event of an
invariant state holds across a whole run. -/
theorem run_related {inv : σ → Prop} {R : σ → σ → Prop} (hrefl : ∀ s, R s s)
    (htrans : ∀ a b c, R a b → R b c → R a c)
    (hstep : ∀ s e, inv s → ok s e → inv (step s e) ∧ R s (step s e))
    {s : σ} {es : List ε} (h : inv s) (hok : Meets step ok s es) : R s (run step s es) := by
  induction es generalizing s with
  | nil => exact hrefl s
  | cons e es ih =>
    obtain ⟨hinv, hR⟩ := hstep s e h hok.1
    exact htrans _ _ _ hR (ih hinv hok.2)

/-- What a step keeps exactly under a condition, with the help of an invariant that it keeps as
well then, holds in every state that a run passes exactly if every event of the run meets the
condition; `dom` says which events can happen. -/
theorem always_iff_meets_within {dom : σ → ε → Prop} {aux inv : σ → Prop}
    (hstep : ∀ s e, dom s e → aux s → inv s → (inv (step s e) ↔ ok s e))
    (haux : ∀ s e, dom s e → aux s → inv s → ok s e → aux (step s e))
    {s : σ} {es : List ε} (hdom : Meets step dom s es) (haux' : aux s) (h : inv s) :
    (∀ fs, fs <+: es → inv (run step s fs)) ↔ Meets step ok s es := by
  induction es generalizing s with
  | nil => exact ⟨fun _ => trivial, fun _ fs hfs => by rw [List.prefix_nil.1 hfs]; exact h⟩
  | cons e es ih =>
    obtain ⟨he, hes⟩ := hdom
    constructor
    · intro halways
      have hnext : inv (step s e) :=
        halways [e] ((List.prefix_cons_inj e).2 List.nil_prefix)
      have hok := (hstep s e he haux' h).1 hnext
      refine ⟨hok, (ih hes (haux s e he haux' h hok) hnext).1 fun fs hfs => ?_⟩
      exact halways (e :: fs) ((List.prefix_cons_inj e).2 hfs)
    · rintro ⟨hok, hmeets⟩ fs hfs
      rcases List.prefix_cons_iff.1 hfs with rfl | ⟨gs, rfl, hgs⟩
      · exact h
      · exact (ih hes (haux s e he haux' h hok) ((hstep s e he haux' h).2 hok)).2 hmeets gs hgs

/-- The rule for events that can happen in every state. -/
theorem always_iff_meets_of {dom : ε → Prop} {aux inv : σ → Prop}
    (hstep : ∀ s e, dom e → aux s → inv s → (inv (step s e) ↔ ok s e))
    (haux : ∀ s e, dom e → aux s → inv s → ok s e → aux (step s e))
    {s : σ} {es : List ε} (hdom : ∀ e ∈ es, dom e) (haux' : aux s) (h : inv s) :
    (∀ fs, fs <+: es → inv (run step s fs)) ↔ Meets step ok s es :=
  always_iff_meets_within (fun s e => hstep s e) (fun s e => haux s e) (meets_of_mem hdom s) haux' h

/-- The rule without an invariant besides. -/
theorem always_iff_meets {inv : σ → Prop} (hstep : ∀ s e, inv s → (inv (step s e) ↔ ok s e))
    {s : σ} {es : List ε} (h : inv s) :
    (∀ fs, fs <+: es → inv (run step s fs)) ↔ Meets step ok s es :=
  @always_iff_meets_of σ ε step ok (fun _ => True) (fun _ => True) inv
    (fun s e _ _ hs => hstep s e hs) (fun _ _ _ _ _ _ => trivial) s es (fun _ _ => trivial) trivial h

/-- The rule for a property of states together with a reflexive and transitive relation between
the states that a run passes. -/
theorem always_related_iff_meets {inv : σ → Prop} {R : σ → σ → Prop} (hrefl : ∀ s, R s s)
    (htrans : ∀ a b c, R a b → R b c → R a c)
    (hstep : ∀ s e, inv s → (inv (step s e) ∧ R s (step s e) ↔ ok s e))
    {s : σ} {es : List ε} (h : inv s) :
    ((∀ fs, fs <+: es → inv (run step s fs)) ∧
      ∀ fs gs, fs <+: gs → gs <+: es → R (run step s fs) (run step s gs)) ↔
        Meets step ok s es := by
  induction es generalizing s with
  | nil =>
    refine iff_of_true ⟨fun fs hfs => ?_, fun fs gs hfs hgs => ?_⟩ trivial
    · rw [List.prefix_nil.1 hfs]
      exact h
    · obtain rfl := List.prefix_nil.1 hgs
      rw [List.prefix_nil.1 hfs]
      exact hrefl s
  | cons e es ih =>
    constructor
    · rintro ⟨halways, hrelated⟩
      have hfirst : [e] <+: e :: es := (List.prefix_cons_inj e).2 List.nil_prefix
      have hnext : inv (step s e) := halways [e] hfirst
      have hok := (hstep s e h).1 ⟨hnext, hrelated [] [e] List.nil_prefix hfirst⟩
      refine ⟨hok, (ih hnext).1 ⟨fun fs hfs => ?_, fun fs gs hfs hgs => ?_⟩⟩
      · exact halways (e :: fs) ((List.prefix_cons_inj e).2 hfs)
      · exact hrelated (e :: fs) (e :: gs) ((List.prefix_cons_inj e).2 hfs)
          ((List.prefix_cons_inj e).2 hgs)
    · rintro ⟨hok, hmeets⟩
      obtain ⟨hnext, hR⟩ := (hstep s e h).2 hok
      obtain ⟨halways, hrelated⟩ := (ih hnext).2 hmeets
      refine ⟨fun fs hfs => ?_, fun fs gs hfs hgs => ?_⟩
      · rcases List.prefix_cons_iff.1 hfs with rfl | ⟨fs', rfl, hfs'⟩
        · exact h
        · exact halways fs' hfs'
      · rcases List.prefix_cons_iff.1 hgs with rfl | ⟨gs', rfl, hgs'⟩
        · rw [List.prefix_nil.1 hfs]
          exact hrefl s
        · rcases List.prefix_cons_iff.1 hfs with rfl | ⟨fs', rfl, hfs'⟩
          · exact htrans _ _ _ hR (hrelated [] gs' List.nil_prefix hgs')
          · exact hrelated fs' gs' hfs' hgs'

/-- The rule for a property of states together with a relation between each state and the next. -/
theorem always_stepwise_iff_meets {inv : σ → Prop} {R : σ → σ → Prop}
    (hstep : ∀ s e, inv s → (inv (step s e) ∧ R s (step s e) ↔ ok s e))
    {s : σ} {es : List ε} (h : inv s) :
    ((∀ fs, fs <+: es → inv (run step s fs)) ∧
      ∀ fs e, fs ++ [e] <+: es → R (run step s fs) (step (run step s fs) e)) ↔
        Meets step ok s es := by
  induction es generalizing s with
  | nil =>
    refine iff_of_true ⟨fun fs hfs => ?_, fun fs e hfs => ?_⟩ trivial
    · rw [List.prefix_nil.1 hfs]
      exact h
    · exact absurd (List.prefix_nil.1 hfs) (List.append_ne_nil_of_right_ne_nil _ (by simp))
  | cons e es ih =>
    constructor
    · rintro ⟨halways, hrelated⟩
      have hfirst : [e] <+: e :: es := (List.prefix_cons_inj e).2 List.nil_prefix
      have hnext : inv (step s e) := halways [e] hfirst
      refine ⟨(hstep s e h).1 ⟨hnext, hrelated [] e hfirst⟩, (ih hnext).1 ⟨fun fs hfs => ?_, ?_⟩⟩
      · exact halways (e :: fs) ((List.prefix_cons_inj e).2 hfs)
      · intro fs e' hfs
        exact hrelated (e :: fs) e' ((List.prefix_cons_inj e).2 hfs)
    · rintro ⟨hok, hmeets⟩
      obtain ⟨hnext, hR⟩ := (hstep s e h).2 hok
      obtain ⟨halways, hrelated⟩ := (ih hnext).2 hmeets
      refine ⟨fun fs hfs => ?_, fun fs e' hfs => ?_⟩
      · rcases List.prefix_cons_iff.1 hfs with rfl | ⟨gs, rfl, hgs⟩
        · exact h
        · exact halways gs hgs
      · cases fs with
        | nil =>
          obtain ⟨rfl, -⟩ := List.cons_prefix_cons.1 hfs
          exact hR
        | cons e₀ fs =>
          obtain ⟨rfl, hrest⟩ := List.cons_prefix_cons.1 hfs
          exact hrelated fs e' hrest

/-- **The rule for events whose outcome is open.**  `alike` relates an event to the same event with
other outcomes.  If a condition keeps a property, and every outcome keeps it only under the
condition, then the property holds in every state that is passed, whatever the outcomes, exactly
if the condition is met, whatever the outcomes. -/
theorem always_alike_iff_meets {alike : ε → ε → Prop} {inv : σ → Prop}
    (htrans : ∀ a b c, alike a b → alike b c → alike a c)
    (hkeep : ∀ s e, inv s → ok s e → inv (step s e))
    (honly : ∀ s e, inv s → (∀ e', alike e e' → inv (step s e')) → ok s e)
    {s : σ} {es : List ε} (h : inv s) :
    (∀ es', List.Forall₂ alike es es' → ∀ fs, fs <+: es' → inv (run step s fs)) ↔
      ∀ es', List.Forall₂ alike es es' → Meets step ok s es' := by
  induction es generalizing s with
  | nil =>
    refine iff_of_true (fun es' hes' fs hfs => ?_) fun es' hes' => ?_
    · rw [List.forall₂_nil_left_iff.1 hes'] at hfs
      rw [List.prefix_nil.1 hfs]
      exact h
    · rw [List.forall₂_nil_left_iff.1 hes']
      trivial
  | cons e es ih =>
    constructor
    · intro halways es' hes'
      obtain ⟨e', fs, he', hfs, rfl⟩ := List.forall₂_cons_left_iff.1 hes'
      have hnext : ∀ x, alike e x → inv (step s x) := fun x hx =>
        halways (x :: fs) (List.Forall₂.cons hx hfs) [x] ((List.prefix_cons_inj x).2 List.nil_prefix)
      refine ⟨honly s e' h fun x hx => hnext x (htrans e e' x he' hx), ?_⟩
      refine (ih (hnext e' he')).1 (fun gs hgs ks hks => ?_) fs hfs
      exact halways (e' :: gs) (List.Forall₂.cons he' hgs) (e' :: ks)
        ((List.prefix_cons_inj e').2 hks)
    · intro hmeets es' hes' gs hgs
      obtain ⟨e', fs, he', hfs, rfl⟩ := List.forall₂_cons_left_iff.1 hes'
      have hrest : ∀ ks, List.Forall₂ alike es ks → Meets step ok (step s e') ks := fun ks hks =>
        (hmeets (e' :: ks) (List.Forall₂.cons he' hks)).2
      have hnext := hkeep s e' h (hmeets (e' :: fs) hes').1
      rcases List.prefix_cons_iff.1 hgs with rfl | ⟨ks, rfl, hks⟩
      · exact h
      · exact (ih hnext).2 hrest fs hfs ks hks

end Runs
