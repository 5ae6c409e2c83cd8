import OpsHub.Ai.AiService
import OpsHub.Lib.Pool
import OpsHub.Lib.Runs

/-!
# The resolution of compliance findings

`ComplianceService.resolveFinding` and `acknowledgeFinding`.  Both test a copy of the finding
that they read in one step, and update the row by its id alone in a later one; the steps of
other calls come in between.

* `ComplianceDrizzleRepository`: the two statements that write findings;
* `ComplianceState`, `step`: the machine;
* `Derived`: resolver and time of resolution go with the status, in every run
  (`step_derived`);
* `FinalKept`: what is resolved, or accepted as a risk, stays so;
* `always_final_iff`: it does exactly if no write finds its finding settled since the call has
  read it, in another way.
-/

namespace OpsHub

/-! ### Findings -/

/-- `resolved` or `risk_accepted`. -/
def FindingStatus.Final (status : FindingStatus) : Prop :=
  status = .resolved ∨ status = .riskAccepted

instance : DecidablePred FindingStatus.Final := fun status =>
  inferInstanceAs (Decidable (status = .resolved ∨ status = .riskAccepted))

/-- A row of `compliance_findings` with all columns. -/
structure FindingRow extends ComplianceFinding where
  softwareVersion : Option String
  resolvedBy : Option Uuid := none
  resolutionNote : Option String := none
  resolvedAt : Option Time := none
  deriving DecidableEq, Repr

/-- `compliance_findings`. -/
abbrev Findings := Table (fun r : FindingRow => r.id)

/-- `CreateFindingInput`. -/
structure CreateFindingInput where
  assetId : Option Uuid := none
  employeeId : Option Uuid := none
  softwareName : String
  softwareVersion : Option String := none
  severity : FindingSeverity
  source : String
  detectedAt : Option Time := none

namespace ComplianceDrizzleRepository

/-- The row that `createFinding` inserts. -/
def newFinding (input : CreateFindingInput) (now : Time) (newId : Uuid) : FindingRow where
  id := newId
  assetId := input.assetId
  employeeId := input.employeeId
  softwareName := input.softwareName
  softwareVersion := input.softwareVersion
  severity := input.severity
  source := input.source
  detectedAt := input.detectedAt.getD now

/-- `createFinding`. -/
def createFinding (input : CreateFindingInput) (now : Time) (newId : Uuid) (findings : Findings) :
    Except Failure Findings :=
  Outcome.orThrow (.duplicateKey "compliance_findings")
    (findings.insert (newFinding input now newId))

/-- The columns that `setFindingStatus` sets. -/
def statusSet (status : FindingStatus) (resolvedBy : Option Uuid) (note : Option String)
    (now : Time) (r : FindingRow) : FindingRow :=
  { r with
    status := status
    resolvedBy := if status.Final then resolvedBy else none
    resolutionNote := note
    resolvedAt := if status.Final then some now else none }

theorem id_statusSet (status : FindingStatus) (resolvedBy : Option Uuid) (note : Option String)
    (now : Time) (r : FindingRow) : (statusSet status resolvedBy note now r).id = r.id := rfl

/-- `setFindingStatus`: the table, and the row returned. -/
def setFindingStatus (id : Uuid) (status : FindingStatus) (resolvedBy : Option Uuid)
    (note : Option String) (now : Time) (findings : Findings) : Findings × Option FindingRow :=
  let updated := findings.update id (statusSet status resolvedBy note now)
    (id_statusSet status resolvedBy note now)
  (updated, updated.find id)

end ComplianceDrizzleRepository

namespace ComplianceService

/-- `getFinding`. -/
def getFinding (findings : Findings) (id : Uuid) : Except Failure FindingRow :=
  Outcome.orThrow (.notFound "FINDING_NOT_FOUND" "Finding not found") (findings.find id)

/-- `resolveFinding`, before its update, with the copy that it has tested. -/
def resolveFinding (findings : Findings) (id : Uuid) : Except Failure FindingRow := do
  let finding ← getFinding findings id
  Outcome.require (¬ finding.status.Final)
    (.preconditionFailed "FINDING_ALREADY_RESOLVED" "Finding is already resolved")
  pure finding

/-- `acknowledgeFinding`, before its update, with the copy that it has tested. -/
def acknowledgeFinding (findings : Findings) (id : Uuid) : Except Failure FindingRow := do
  let finding ← getFinding findings id
  Outcome.require (finding.status = .open)
    (.preconditionFailed "PRECONDITION_FAILED" "Only open findings can be acknowledged")
  pure finding

section Tests

variable {findings : Findings} {id : Uuid} {finding : FindingRow}

/-- The guard of `resolveFinding`. -/
theorem resolveFinding_eq_ok_iff :
    resolveFinding findings id = .ok finding ↔
      findings.find id = some finding ∧ ¬ finding.status.Final :=
  Outcome.orThrow_require_eq_ok_iff

/-- The guard of `acknowledgeFinding`. -/
theorem acknowledgeFinding_eq_ok_iff :
    acknowledgeFinding findings id = .ok finding ↔
      findings.find id = some finding ∧ finding.status = .open :=
  Outcome.orThrow_require_eq_ok_iff

end Tests

end ComplianceService

/-! ### The machine -/

/-- A call that has passed its test. -/
inductive FindingCall
  | resolve (id : Uuid) (note : Option String) (riskAccepted : Bool) (actor : Actor)
  | acknowledge (id : Uuid) (actor : Actor)
  | finished
  deriving DecidableEq, Repr

/-- The arguments of `setFindingStatus`. -/
structure StatusUpdate where
  id : Uuid
  status : FindingStatus
  resolvedBy : Option Uuid
  note : Option String
  deriving DecidableEq, Repr

/-- What a call has still to write. -/
def FindingCall.update : FindingCall → Option StatusUpdate
  | .resolve id note riskAccepted actor =>
    some ⟨id, if riskAccepted then .riskAccepted else .resolved, some actor.sub, note⟩
  | .acknowledge id _ => some ⟨id, .acknowledged, none, none⟩
  | .finished => none

/-- The update itself. -/
def StatusUpdate.run (u : StatusUpdate) (now : Time) (findings : Findings) : Findings :=
  (ComplianceDrizzleRepository.setFindingStatus u.id u.status u.resolvedBy u.note now findings).1

theorem StatusUpdate.run_eq (u : StatusUpdate) (now : Time) (findings : Findings) :
    u.run now findings = findings.update u.id
      (ComplianceDrizzleRepository.statusSet u.status u.resolvedBy u.note now)
      (ComplianceDrizzleRepository.id_statusSet u.status u.resolvedBy u.note now) := rfl

/-- A call writes what is stored already. -/
def StatusUpdate.Repeats (u : StatusUpdate) (r : FindingRow) : Prop :=
  u.status = r.status ∧ u.resolvedBy = r.resolvedBy ∧ u.note = r.resolutionNote

/-- A call in flight, with the copy of the finding that it has tested. -/
structure PendingFindingCall where
  finding : FindingRow
  call : FindingCall
  deriving DecidableEq, Repr

/-- What a call has read when it passed its test: its finding, which was not settled. -/
def PendingFindingCall.Guarded (pending : PendingFindingCall) : Prop :=
  ∀ u, pending.call.update = some u →
    pending.finding.id = u.id ∧ ¬ pending.finding.status.Final

/-- The findings, and the calls in flight. -/
structure ComplianceState where
  findings : Findings := Table.empty _
  calls : List PendingFindingCall := []

/-- A new finding, the test of a call, or the write of one. -/
inductive FindingEvent
  | create (input : CreateFindingInput) (now : Time) (newId : Uuid)
  | resolve (id : Uuid) (note : Option String) (riskAccepted : Bool) (actor : Actor)
  | acknowledge (id : Uuid) (actor : Actor)
  | write (i : ℕ) (now : Time)

namespace ComplianceState

/-- A call goes on when its test has passed. -/
def beginWith (s : ComplianceState) (test : Except Failure FindingRow) (call : FindingCall) :
    ComplianceState :=
  match test with
  | .ok finding => { s with calls := s.calls ++ [⟨finding, call⟩] }
  | .error _ => s

/-- The state after a step. -/
def step (s : ComplianceState) : FindingEvent → ComplianceState
  | .create input now newId =>
    { s with
      findings := Outcome.commit s.findings
        (ComplianceDrizzleRepository.createFinding input now newId s.findings) }
  | .resolve id note riskAccepted actor =>
    s.beginWith (ComplianceService.resolveFinding s.findings id)
      (.resolve id note riskAccepted actor)
  | .acknowledge id actor =>
    s.beginWith (ComplianceService.acknowledgeFinding s.findings id) (.acknowledge id actor)
  | .write i now =>
    match s.calls[i]? with
    | some pending =>
      match pending.call.update with
      | some u =>
        { findings := u.run now s.findings
          calls := s.calls.set i ⟨pending.finding, .finished⟩ }
      | none => s
    | none => s

/-! ### The properties -/

/-- Resolver and time of resolution are there exactly if the finding is settled. -/
def Derived (s : ComplianceState) : Prop :=
  ∀ r ∈ s.findings.rows, (r.resolvedBy ≠ none ↔ r.status.Final) ∧
    (r.resolvedAt ≠ none ↔ r.status.Final)

/-- What is settled in `s` has the same status, resolver and note in `s'`. -/
def FinalKept (s s' : ComplianceState) : Prop :=
  ∀ r ∈ s.findings.rows, r.status.Final → ∃ r' ∈ s'.findings.rows, r'.id = r.id ∧
    r'.status = r.status ∧ r'.resolvedBy = r.resolvedBy ∧ r'.resolutionNote = r.resolutionNote

/-- The finding of a call has been settled since the call has read it. -/
def Overtaken (s : ComplianceState) (pending : PendingFindingCall) : Prop :=
  ¬ pending.finding.status.Final ∧
    ∃ r, s.findings.find pending.finding.id = some r ∧ r.status.Final

/-- A call whose finding has been settled since it has read it does not write, unless it repeats
what is stored. -/
def NotOvertaken (s : ComplianceState) : FindingEvent → Prop
  | .write i _ => ∀ pending, s.calls[i]? = some pending → ∀ u, pending.call.update = some u →
      s.Overtaken pending → ∀ r, s.findings.find u.id = some r → StatusUpdate.Repeats u r
  | _ => True

/-- The invariant: what is derived is as it should be, and the calls in flight have passed their
tests. -/
structure Tested (s : ComplianceState) : Prop where
  derived : Derived s
  guarded : ∀ pending ∈ s.calls, pending.Guarded

variable {s s' s'' : ComplianceState}

theorem finalKept_refl (s : ComplianceState) : FinalKept s s :=
  fun r hr _ => ⟨r, hr, rfl, rfl, rfl, rfl⟩

theorem FinalKept.trans (h : FinalKept s s') (h' : FinalKept s' s'') : FinalKept s s'' := by
  intro r hr hfinal
  obtain ⟨r', hr', hid, hstatus, hby, hnote⟩ := h r hr hfinal
  obtain ⟨r'', hr'', hid', hstatus', hby', hnote'⟩ := h' r' hr' (hstatus.symm ▸ hfinal)
  exact ⟨r'', hr'', hid'.trans hid, hstatus'.trans hstatus, hby'.trans hby, hnote'.trans hnote⟩

/-! ### What a step does -/

@[simp] theorem findings_beginWith (s : ComplianceState) (test : Except Failure FindingRow)
    (call : FindingCall) : (s.beginWith test call).findings = s.findings := by
  cases test <;> rfl

/-- **What a step does to the findings**: nothing, an insertion, or the update of a call. -/
theorem step_cases (s : ComplianceState) (e : FindingEvent) :
    ((s.step e).findings = s.findings ∧ ∀ i now, e = .write i now →
        ∀ pending, s.calls[i]? = some pending → pending.call.update = none) ∨
      (∃ input now newId, e = .create input now newId ∧ s.findings.insert
        (ComplianceDrizzleRepository.newFinding input now newId) = some (s.step e).findings) ∨
      ∃ i now pending u, e = .write i now ∧ s.calls[i]? = some pending ∧
        pending.call.update = some u ∧ (s.step e).findings = u.run now s.findings := by
  cases e with
  | create input now newId =>
    simp only [step, ComplianceDrizzleRepository.createFinding]
    cases hins : s.findings.insert (ComplianceDrizzleRepository.newFinding input now newId) with
    | none => exact Or.inl ⟨rfl, by simp⟩
    | some findings => exact Or.inr (Or.inl ⟨input, now, newId, rfl, hins⟩)
  | resolve id note riskAccepted actor => exact Or.inl ⟨findings_beginWith s _ _, by simp⟩
  | acknowledge id actor => exact Or.inl ⟨findings_beginWith s _ _, by simp⟩
  | write i now =>
    simp only [step]
    cases hcall : s.calls[i]? with
    | none =>
      refine Or.inl ⟨rfl, ?_⟩
      rintro j now' heq pending hpending
      cases heq
      cases hcall.symm.trans hpending
    | some pending =>
      cases hu : pending.call.update with
      | none =>
        refine Or.inl ⟨by simp only [hu], ?_⟩
        rintro j now' heq pending' hpending
        cases heq
        obtain rfl := Option.some.inj (hcall.symm.trans hpending)
        exact hu
      | some u =>
        refine Or.inr (Or.inr ⟨i, now, pending, u, rfl, hcall, hu, ?_⟩)
        simp only [hu]

/-- **The guards.**  A call in flight was there before, or has just read a finding that was not
settled. -/
theorem guarded_step (s : ComplianceState) (e : FindingEvent)
    (h : ∀ pending ∈ s.calls, pending.Guarded) : ∀ pending ∈ (s.step e).calls, pending.Guarded := by
  -- a call whose test has passed
  have hbegin : ∀ {test : Except Failure FindingRow} {call : FindingCall},
      (∀ finding, test = .ok finding → PendingFindingCall.Guarded ⟨finding, call⟩) →
      ∀ pending ∈ (s.beginWith test call).calls, pending.Guarded := by
    intro test call htest
    cases test with
    | error failure => exact h
    | ok finding => exact Pool.forall_mem_add h (htest finding rfl)
  cases e with
  | create input now newId => exact h
  | resolve id note riskAccepted actor =>
    refine hbegin fun finding htest u hu => ?_
    obtain ⟨hfind, hguard⟩ := ComplianceService.resolveFinding_eq_ok_iff.1 htest
    have hid : finding.id = id := (Table.find_eq_some_iff.1 hfind).2
    obtain rfl := Option.some.inj hu
    exact ⟨hid, hguard⟩
  | acknowledge id actor =>
    refine hbegin fun finding htest u hu => ?_
    obtain ⟨hfind, hopen⟩ := ComplianceService.acknowledgeFinding_eq_ok_iff.1 htest
    have hid : finding.id = id := (Table.find_eq_some_iff.1 hfind).2
    obtain rfl := Option.some.inj hu
    refine ⟨hid, ?_⟩
    rw [hopen]
    decide
  | write i now =>
    simp only [step]
    split
    · split
      · exact Pool.forall_mem_set h fun u hu => by cases hu
      · exact h
    · exact h

/-- A call in flight that finds its finding settled has been overtaken. -/
theorem overtaken_of_final {pending : PendingFindingCall} {u : StatusUpdate} {r : FindingRow}
    (hguarded : pending.Guarded) (hu : pending.call.update = some u)
    (hr : s.findings.find u.id = some r) (hfinal : r.status.Final) : s.Overtaken pending := by
  obtain ⟨hid, hopen⟩ := hguarded u hu
  exact ⟨hopen, r, hid ▸ hr, hfinal⟩

/-- While the row is as the call has read it, the call is not overtaken. -/
theorem not_overtaken_of_find {pending : PendingFindingCall}
    (h : s.findings.find pending.finding.id = some pending.finding) : ¬ s.Overtaken pending := by
  rintro ⟨hopen, r, hr, hfinal⟩
  obtain rfl := Option.some.inj (h.symm.trans hr)
  exact hopen hfinal

/-- A call that settles its finding names the resolver. -/
theorem FindingCall.resolvedBy_update {call : FindingCall} {u : StatusUpdate}
    (h : call.update = some u) (hfinal : u.status.Final) : u.resolvedBy ≠ none := by
  cases call with
  | resolve id note riskAccepted actor =>
    obtain rfl := Option.some.inj h
    exact Option.some_ne_none actor.sub
  | acknowledge id actor =>
    obtain rfl := Option.some.inj h
    rcases hfinal with hfinal | hfinal
    · cases hfinal
    · cases hfinal
  | finished => cases h

/-- **The derived columns.**  Every step keeps them. -/
theorem step_derived (s : ComplianceState) (e : FindingEvent) (h : Derived s) :
    Derived (s.step e) := by
  unfold Derived
  rcases step_cases s e with ⟨heq, -⟩ | ⟨input, now, newId, -, hins⟩ |
    ⟨i, now, pending, u, -, -, hu, heq⟩
  · rw [heq]
    exact h
  · refine Table.forall_mem_insert hins h ?_
    simp [ComplianceDrizzleRepository.newFinding, FindingStatus.Final]
  · rw [heq, u.run_eq]
    intro r hr
    rcases Table.mem_update hr with ⟨old, hold, rfl⟩ | ⟨hr, -⟩
    · have hby := FindingCall.resolvedBy_update hu
      simp only [ComplianceDrizzleRepository.statusSet]
      by_cases hfinal : u.status.Final
      · simp [hfinal, hby hfinal]
      · simp [hfinal]
    · exact h r hr

/-- An update keeps a settled finding exactly if it writes what is stored already. -/
theorem finalKept_run_iff (u : StatusUpdate) (now : Time) (h : s'.findings = u.run now s.findings) :
    FinalKept s s' ↔ ∀ r, s.findings.find u.id = some r → r.status.Final →
      StatusUpdate.Repeats u r := by
  have hrows := h.trans (u.run_eq now s.findings)
  constructor
  · intro hkept r hr hfinal
    obtain ⟨r', hr', hid, hstatus, hby, hnote⟩ := hkept r (Table.mem_of_find hr) hfinal
    -- the row with this id is the updated one
    have hfind := Table.find_of_mem hr'
    rw [hid, Table.key_of_find hr, hrows, Table.find_update_self, hr] at hfind
    obtain rfl := Option.some.inj hfind
    have hset : u.status = r.status := hstatus
    refine ⟨hset, ?_, hnote⟩
    rw [← hby]
    exact (if_pos (hset.symm ▸ hfinal)).symm
  · intro hagrees r hr hfinal
    by_cases hid : r.id = u.id
    · have hfind : s.findings.find u.id = some r := hid ▸ Table.find_of_mem hr
      obtain ⟨hset, hby, hnote⟩ := hagrees r hfind hfinal
      refine ⟨_, Table.mem_of_find (r := ComplianceDrizzleRepository.statusSet u.status
        u.resolvedBy u.note now r) (k := u.id) ?_, rfl, hset, ?_, hnote⟩
      · rw [hrows, Table.find_update_self, hfind]
        rfl
      · exact (if_pos (hset.symm ▸ hfinal)).trans hby
    · refine ⟨r, Table.mem_of_find (k := r.id) ?_, rfl, rfl, rfl, rfl⟩
      rw [hrows, Table.find_update_ne _ hid]
      exact Table.find_of_mem hr

/-- **The step lemma.**  A step keeps what is settled exactly if its call has not been
overtaken. -/
theorem step_finalKept_iff (s : ComplianceState) (e : FindingEvent) (h : Tested s) :
    FinalKept s (s.step e) ↔ s.NotOvertaken e := by
  rcases step_cases s e with ⟨heq, hnone⟩ | ⟨input, now, newId, rfl, hins⟩ |
    ⟨i, now, pending, u, rfl, hpending, hu, heq⟩
  · refine iff_of_true (fun r hr _ => ⟨r, heq.symm ▸ hr, rfl, rfl, rfl, rfl⟩) ?_
    cases e with
    | write i now =>
      intro pending hpending u hu
      rw [hnone i now rfl pending hpending] at hu
      cases hu
    | create input now newId => trivial
    | resolve id note riskAccepted actor => trivial
    | acknowledge id actor => trivial
  · refine iff_of_true (fun r hr _ => ?_) trivial
    exact ⟨r, (Table.mem_insert hins).2 (Or.inl hr), rfl, rfl, rfl, rfl⟩
  · have hguarded := h.guarded pending (List.mem_of_getElem? hpending)
    rw [finalKept_run_iff u now heq]
    constructor
    · intro hagrees pending' hpending' u' hu' hovertaken r hr
      obtain rfl := Option.some.inj (hpending.symm.trans hpending')
      obtain rfl := Option.some.inj (hu.symm.trans hu')
      obtain ⟨-, r', hr', hfinal⟩ := hovertaken
      obtain rfl := Option.some.inj (((hguarded u hu).1 ▸ hr').symm.trans hr)
      exact hagrees r' hr hfinal
    · intro hnot r hr hfinal
      exact hnot pending hpending u hu (overtaken_of_final hguarded hu hr hfinal) r hr

/-! ### Runs -/

theorem tested_init : Tested {} where
  derived r hr := by cases hr
  guarded pending hpending := by cases hpending

theorem tested_step (s : ComplianceState) (e : FindingEvent) (h : Tested s) : Tested (s.step e) where
  derived := step_derived s e h.derived
  guarded := guarded_step s e h.guarded

/-- **Resolution is final** in a run exactly if no call whose finding has been settled since it
has read it writes something else; resolver and time go with the status in every state. -/
theorem always_final_iff (es : List FindingEvent) :
    ((∀ fs, fs <+: es → Derived (Runs.run step {} fs)) ∧
      ∀ fs gs, fs <+: gs → gs <+: es → FinalKept (Runs.run step {} fs) (Runs.run step {} gs)) ↔
      Runs.Meets step NotOvertaken {} es := by
  have htested : ∀ fs, Tested (Runs.run step {} fs) := Runs.run_invariant tested_step tested_init
  have hderived : (∀ fs, fs <+: es → Derived (Runs.run step {} fs)) ↔
      ∀ fs, fs <+: es → Tested (Runs.run step {} fs) :=
    iff_of_true (fun fs _ => (htested fs).derived) fun fs _ => htested fs
  rw [hderived]
  refine Runs.always_related_iff_meets finalKept_refl (fun _ _ _ => FinalKept.trans) ?_ tested_init
  exact fun s e h => (and_iff_right (tested_step s e h)).trans (step_finalKept_iff s e h)

/-! ### Two calls on one finding -/

namespace Overlap

/-- An acknowledgement has read the open finding 1 when it is resolved, and writes after that. -/
def events : List FindingEvent :=
  [.create { softwareName := "torrent", severity := .high, source := "intune" } 0 1,
    .acknowledge 1 ⟨2, "user2@example.com"⟩,
    .resolve 1 (some "removed") false ⟨3, "user3@example.com"⟩,
    .write 1 10]

/-- The state in which the finding is resolved. -/
def resolved : ComplianceState := Runs.run step {} events

/-- The state after the other write. -/
def reopened : ComplianceState := Runs.run step {} (events ++ [.write 0 20])

end Overlap

/-- A later write takes the resolution back: the finding is only acknowledged, and neither its
resolver nor its note is there any more. -/
theorem not_finalKept : ¬ FinalKept Overlap.resolved Overlap.reopened := by
  intro h
  obtain ⟨r', hr', -, hstatus, -⟩ := h _ (List.mem_singleton.2 rfl) (by decide)
  obtain rfl := List.mem_singleton.1 hr'
  exact absurd hstatus (by decide)

end ComplianceState

end OpsHub
