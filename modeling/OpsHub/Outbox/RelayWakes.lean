import OpsHub.Lib.Runs

/-!
# Wake-ups of a relay

The two flags of `AbstractOutboxRelay.relay` on one instance: `isRelaying` turns a call away
while a run is under way, `wakeOnComplete` makes the end of that run call `relay` once more
through `setImmediate`.

* `RelayInstance.step`: calls, continuations, and the progress of a run, whose transaction may
  fail before or after the fetch;
* `Awake`: the invariant; a call that no fetch has followed has a run or a wake-up to come;
* `relay_wakes`: at most one run is under way, and in a quiescent state the last attempt to
  fetch is more recent than every call;
* `not_fetchedSince`: a transaction that cannot be opened ends the attempt without a fetch.
-/

namespace OpsHub

/-- How far a run is: `opening` until its transaction is open, then `active`. -/
inductive RunPhase
  | opening
  | active
  deriving DecidableEq, Repr

/-- What the statements about wake-ups speak of: the calls of `relay`, the fetches, and the runs
that have ended before their fetch. -/
inductive RelayMark
  | call
  | fetch
  | unopened
  deriving DecidableEq, Repr

/-- An instance of a relay: its flags, the continuations that `setImmediate` holds, the runs
under way, and the log of what has happened. -/
structure RelayInstance where
  isRelaying : Bool := false
  wakeOnComplete : Bool := false
  immediates : ℕ := 0
  runs : List RunPhase := []
  log : List RelayMark := []
  deriving DecidableEq, Repr

/-- What can happen to an instance. -/
inductive WakeEvent
  /-- A cron tick or a wake signal calls `relay`. -/
  | call
  /-- A continuation of `setImmediate` calls `relay`. -/
  | immediate
  /-- The transaction of the `i`-th run is open: `fetchBatch`. -/
  | fetch (i : ℕ)
  /-- The transaction of the `i`-th run has committed or failed: the `finally` block. -/
  | settle (i : ℕ)
  deriving DecidableEq, Repr

namespace RelayInstance

/-- `relay`, up to the beginning of its transaction. -/
def relay (s : RelayInstance) : RelayInstance :=
  let s := { s with log := s.log ++ [RelayMark.call] }
  if s.isRelaying then { s with wakeOnComplete := true }
  else { s with isRelaying := true, runs := s.runs ++ [RunPhase.opening] }

/-- The `finally` block. -/
def finallyBlock (s : RelayInstance) : RelayInstance :=
  let s := { s with isRelaying := false }
  if s.wakeOnComplete then { s with wakeOnComplete := false, immediates := s.immediates + 1 }
  else s

/-- The next state. -/
def step (s : RelayInstance) : WakeEvent → RelayInstance
  | .call => s.relay
  | .immediate =>
    if s.immediates = 0 then s else relay { s with immediates := s.immediates - 1 }
  | .fetch i =>
    match s.runs[i]? with
    | some .opening => { s with runs := s.runs.set i .active, log := s.log ++ [.fetch] }
    | _ => s
  | .settle i =>
    match s.runs[i]? with
    | some .opening => finallyBlock { s with runs := s.runs.eraseIdx i, log := s.log ++ [.unopened] }
    | some .active => finallyBlock { s with runs := s.runs.eraseIdx i }
    | none => s

/-- No batch is running and no continuation is pending. -/
def Quiescent (s : RelayInstance) : Prop := s.runs = [] ∧ s.immediates = 0

instance : DecidablePred Quiescent := fun s =>
  inferInstanceAs (Decidable (s.runs = [] ∧ s.immediates = 0))

/-- A fetch has started after every call. -/
def FetchedSince (log : List RelayMark) : Prop :=
  ∀ before after, log = before ++ .call :: after → .fetch ∈ after

/-- A run has fetched, or has failed to open its transaction, after every call. -/
def AttemptedSince (log : List RelayMark) : Prop :=
  ∀ before after, log = before ++ .call :: after → .fetch ∈ after ∨ .unopened ∈ after

/-- The invariant: the flag says whether there is a run, of which there is one at most, and a
call that is the last thing in the log has a run that is yet to fetch, or a wake-up. -/
structure Awake (s : RelayInstance) : Prop where
  runs : (s.isRelaying = true ∧ ∃ phase, s.runs = [phase]) ∨ (s.isRelaying = false ∧ s.runs = [])
  wake : s.wakeOnComplete = true → s.isRelaying = true
  called : s.log.getLast? = some .call →
    s.runs = [.opening] ∨ s.wakeOnComplete = true ∨ s.immediates ≠ 0

theorem Awake.initial : Awake {} := by
  constructor
  · exact Or.inr ⟨rfl, rfl⟩
  · intro h
    cases h
  · intro h
    cases h

theorem Awake.relay {s : RelayInstance}
    (hruns : (s.isRelaying = true ∧ ∃ phase, s.runs = [phase]) ∨
      (s.isRelaying = false ∧ s.runs = [])) : Awake s.relay := by
  unfold RelayInstance.relay
  rcases hruns with ⟨hflag, phase, hphase⟩ | ⟨hflag, hnone⟩
  · -- the call is turned away, and the run will wake the relay
    simp only [hflag, if_true]
    exact ⟨Or.inl ⟨rfl, phase, hphase⟩, fun _ => rfl, fun _ => Or.inr (Or.inl rfl)⟩
  · simp only [hflag, Bool.false_eq_true, if_false, hnone, List.nil_append]
    exact ⟨Or.inl ⟨rfl, _, rfl⟩, fun _ => rfl, fun _ => Or.inl rfl⟩

/-- After a run the flag is down, and a wake-up that has come in meanwhile is pending. -/
theorem Awake.finallyBlock {s : RelayInstance} (hnone : s.runs = [])
    (hcalled : s.log.getLast? = some .call → s.wakeOnComplete = true ∨ s.immediates ≠ 0) :
    Awake s.finallyBlock := by
  unfold RelayInstance.finallyBlock
  by_cases hwake : s.wakeOnComplete = true
  · simp only [hwake, if_true]
    refine ⟨Or.inr ⟨rfl, hnone⟩, fun h => ?_, fun _ => Or.inr (Or.inr (Nat.succ_ne_zero _))⟩
    cases h
  · simp only [hwake]
    refine ⟨Or.inr ⟨rfl, hnone⟩, fun h => ?_, fun h => ?_⟩
    · cases h
    · exact Or.inr (Or.inr ((hcalled h).resolve_left hwake))

theorem getLast?_concat_ne {m : RelayMark} (log : List RelayMark) (h : m ≠ .call) :
    (log ++ [m]).getLast? ≠ some .call := by
  rw [List.getLast?_concat]
  exact fun heq => h (Option.some.inj heq)

/-- **No call is forgotten**, step by step. -/
theorem Awake.step {s : RelayInstance} (h : Awake s) (e : WakeEvent) : Awake (s.step e) := by
  cases e with
  | call => exact Awake.relay h.runs
  | immediate =>
    simp only [RelayInstance.step]
    split
    · exact h
    · exact Awake.relay h.runs
  | fetch i =>
    simp only [RelayInstance.step]
    split
    · rename_i hopening
      rcases h.runs with ⟨hflag, phase, hphase⟩ | ⟨-, hnone⟩
      · refine ⟨Or.inl ⟨hflag, ?_⟩, h.wake, fun hlast => ?_⟩
        · cases i with
          | zero => exact ⟨.active, by simp [hphase]⟩
          | succ i => simp [hphase] at hopening
        · exact absurd hlast (getLast?_concat_ne _ (by decide))
      · simp [hnone] at hopening
    · exact h
  | settle i =>
    have herase : ∀ phase, s.runs[i]? = some phase → s.runs = [phase] ∧ s.runs.eraseIdx i = [] := by
      intro phase hi
      rcases h.runs with ⟨-, phase', hphase⟩ | ⟨-, hnone⟩
      · cases i with
        | zero =>
          obtain rfl : phase' = phase := by simpa [hphase] using hi
          exact ⟨hphase, by simp [hphase]⟩
        | succ i => simp [hphase] at hi
      · simp [hnone] at hi
    simp only [RelayInstance.step]
    split
    · rename_i hopening
      refine Awake.finallyBlock (herase _ hopening).2 fun hlast => ?_
      exact absurd hlast (getLast?_concat_ne _ (by decide))
    · rename_i hactive
      -- the fetch of this run is in the past: a later call has set the flag
      obtain ⟨hone, hnone⟩ := herase _ hactive
      refine Awake.finallyBlock hnone fun hlast => ?_
      rcases h.called hlast with hopening | hwake | himmediate
      · rw [hone] at hopening
        cases hopening
      · exact Or.inl hwake
      · exact Or.inr himmediate
    · exact h

/-- In a log that does not end with a call, something follows every call. -/
theorem getLast?_mem_of_call {log before after : List RelayMark} {m : RelayMark}
    (hlast : log.getLast? = some m) (hm : m ≠ .call) (h : log = before ++ .call :: after) :
    m ∈ after := by
  subst h
  rw [List.getLast?_append_of_ne_nil _ (List.cons_ne_nil _ _), List.getLast?_cons] at hlast
  cases hafter : after.getLast? with
  | none =>
    rw [hafter] at hlast
    exact absurd (Option.some.inj hlast).symm hm
  | some m' =>
    rw [hafter] at hlast
    obtain rfl : m' = m := Option.some.inj hlast
    exact List.mem_of_getLast? hafter

/-- What the invariant says about a quiescent state. -/
theorem Awake.quiescent {s : RelayInstance} (h : Awake s) (hq : s.Quiescent) :
    AttemptedSince s.log ∧ (s.log.getLast? ≠ some .unopened → FetchedSince s.log) := by
  have hlast : s.log.getLast? ≠ some .call := by
    intro hcall
    rcases h.called hcall with hopening | hwake | himmediate
    · rw [hq.1] at hopening
      cases hopening
    · rcases h.runs with ⟨-, phase, hphase⟩ | ⟨hflag, -⟩
      · rw [hq.1] at hphase
        cases hphase
      · rw [h.wake hwake] at hflag
        cases hflag
    · exact himmediate hq.2
  cases hlog : s.log.getLast? with
  | none =>
    have hnil : s.log = [] := List.getLast?_eq_none_iff.1 hlog
    rw [hnil]
    exact ⟨fun before after hsplit => by simp at hsplit,
      fun _ before after hsplit => by simp at hsplit⟩
  | some m =>
    cases m with
    | call => exact absurd hlog hlast
    | fetch =>
      have hfetched : FetchedSince s.log := fun _ _ hsplit =>
        getLast?_mem_of_call hlog (by decide) hsplit
      exact ⟨fun before after hsplit => Or.inl (hfetched before after hsplit), fun _ => hfetched⟩
    | unopened =>
      refine ⟨fun _ _ hsplit => Or.inr (getLast?_mem_of_call hlog (by decide) hsplit), fun hne => ?_⟩
      exact absurd rfl hne

/-- **A relay loses no wake-up and does not overlap with itself**: at most one run is under way,
and in a quiescent state a run has fetched, or has failed to open its transaction, after every
call; unless it has failed so, the last fetch has started after every call. -/
theorem relay_wakes (es : List WakeEvent) :
    (Runs.run step {} es).runs.length ≤ 1 ∧
      ((Runs.run step {} es).Quiescent →
        AttemptedSince (Runs.run step {} es).log ∧
          ((Runs.run step {} es).log.getLast? ≠ some .unopened →
            FetchedSince (Runs.run step {} es).log)) := by
  have hawake : Awake (Runs.run step {} es) :=
    Runs.run_invariant (fun _ e hs => hs.step e) Awake.initial es
  refine ⟨?_, fun hq => hawake.quiescent hq⟩
  rcases hawake.runs with ⟨-, phase, hphase⟩ | ⟨-, hnone⟩
  · rw [hphase]
    exact Nat.le_refl 1
  · rw [hnone]
    exact Nat.zero_le 1

namespace Sample

/-- A call comes in during a run, whose end wakes the relay: the second run fetches after both. -/
theorem relay_wakes_twice :
    FetchedSince (Runs.run step {}
      [.call, .fetch 0, .call, .settle 0, .immediate, .fetch 0, .settle 0]).log :=
  ((relay_wakes [.call, .fetch 0, .call, .settle 0, .immediate, .fetch 0, .settle 0]).2
    (by decide)).2 (by decide)

/-- **A transaction that cannot be opened**: the relay is quiescent, and nothing has been fetched
since it was called. -/
theorem not_fetchedSince :
    (Runs.run step {} [.call, .settle 0]).Quiescent ∧
      ¬ FetchedSince (Runs.run step {} [.call, .settle 0]).log :=
  ⟨by decide, fun h => absurd (h [] [.unopened] rfl) (by decide)⟩

end Sample

end RelayInstance

end OpsHub
