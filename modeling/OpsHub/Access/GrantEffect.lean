import OpsHub.Access.RoleSync

/-!
# Does `assignRole` take effect as asked

`assign` returns an equivalent assignment if there is one, with the expiry that this one has; the
requested expiry is then not stored.

* `GivesRole`: an assignment gives a role on a resource at an instant;
* `TakesEffect`: the grantee has the role in the requested scope up to the requested expiry, and
  afterwards only by another assignment;
* `AsAsked`: the condition, a comparison of expiries;
* `takesEffect_iff`: the grant takes effect as asked exactly under it;
* `not_takesEffect`: an expired assignment stands in the way of its renewal.
-/

namespace OpsHub

namespace GrantEffect

open AuthzService Authz Generic GrantCover

/-! ### The property -/

/-- The assignment gives the role to the grantee, on a resource and at an instant. -/
structure GivesRole (input : AssignRoleInput) (resource : ResourceAttrs) (t : Time)
    (a : UserRoleAssignment) : Prop where
  user : a.userId = input.userId
  role : a.roleId = input.roleId
  scope : ScopeEvaluator.matchers ⟨a.scopeType, a.scopeId⟩ resource a.userId = true
  unexpired : Unexpired t a

/-- The assignment has the columns that `findEquivalent` asks for. -/
def Equivalent (input : AssignRoleInput) (a : UserRoleAssignment) : Prop :=
  inputIndex (content a) = inputIndex input

instance (input : AssignRoleInput) : DecidablePred (Equivalent input) := fun a =>
  inferInstanceAs (Decidable (inputIndex (content a) = inputIndex input))

/-- Another assignment than the one asked for.  `counts` says whether an equivalent one that has
been there before counts as another. -/
def Another (counts : Bool) (input : AssignRoleInput) (a : UserRoleAssignment) : Prop :=
  counts = true ∨ ¬Equivalent input a

/-- **The grant takes effect as asked**, from its return on: before the requested expiry the
grantee has the role in the requested scope, and afterwards only where another assignment that
has been there before gives it. -/
def TakesEffect (counts : Bool) (tables tables' : Tables) (now' : Time) (input : AssignRoleInput) :
    Prop :=
  ∀ resource t, now' ≤ t →
    ScopeEvaluator.matchers ⟨input.scopeType, input.scopeId⟩ resource input.userId = true →
      (t ∈ before input.expiresAt →
        ∃ a ∈ tables'.userRoleAssignments.rows, GivesRole input resource t a) ∧
      (t ∉ before input.expiresAt →
        (∃ a ∈ tables'.userRoleAssignments.rows, GivesRole input resource t a) →
          ∃ a ∈ tables.userRoleAssignments.rows,
            Another counts input a ∧ GivesRole input resource t a)

/-! ### The condition -/

/-- The assignment gives the role in the requested scope, up to its expiry. -/
structure CoversScope (input : AssignRoleInput) (a : UserRoleAssignment) : Prop where
  user : a.userId = input.userId
  role : a.roleId = input.roleId
  scope : ScopeEvaluator.matchers ⟨a.scopeType, a.scopeId⟩ (exemplar input) a.userId = true

instance (input : AssignRoleInput) : DecidablePred (CoversScope input) := fun a =>
  decidable_of_iff (a.userId = input.userId ∧ a.roleId = input.roleId ∧
      ScopeEvaluator.matchers ⟨a.scopeType, a.scopeId⟩ (exemplar input) a.userId = true)
    ⟨fun h => ⟨h.1, h.2.1, h.2.2⟩, fun h => ⟨h.user, h.role, h.scope⟩⟩

/-- The expiry comes no earlier than another. -/
def Outlasts (expiresAt expiresAt' : Option Time) : Prop := ∀ e ∈ expiresAt, ∃ e' ∈ expiresAt', e' ≤ e

instance (expiresAt expiresAt' : Option Time) : Decidable (Outlasts expiresAt expiresAt') :=
  inferInstanceAs (Decidable (∀ e ∈ expiresAt, ∃ e' ∈ expiresAt', e' ≤ e))

/-- The assignment lasts beyond the requested expiry, and beyond the return of the call. -/
def Overruns (input : AssignRoleInput) (now' : Time) (a : UserRoleAssignment) : Prop :=
  ∃ e ∈ input.expiresAt, ∀ e' ∈ a.expiresAt, e < e' ∧ now' < e'

instance (input : AssignRoleInput) (now' : Time) : DecidablePred (Overruns input now') := fun a =>
  inferInstanceAs (Decidable (∃ e ∈ input.expiresAt, ∀ e' ∈ a.expiresAt, e < e' ∧ now' < e'))

/-- There is no equivalent assignment; or one of those that are there lasts as long as asked, or
the requested expiry is past, and, if an equivalent assignment does not count as another, one that
lasts longer has another at its side. -/
def AsAsked (counts : Bool) (tables : Tables) (now' : Time) (input : AssignRoleInput) : Prop :=
  RoleAssignmentDrizzleRepository.findEquivalent tables input = none ∨
    ((∃ e ∈ input.expiresAt, e ≤ now') ∨ ∃ a ∈ tables.userRoleAssignments.rows,
      CoversScope input a ∧ Outlasts a.expiresAt input.expiresAt) ∧
    (counts = false → ∀ a ∈ tables.userRoleAssignments.rows, Equivalent input a →
      Overruns input now' a → ∃ a' ∈ tables.userRoleAssignments.rows,
        ¬Equivalent input a' ∧ CoversScope input a' ∧ Outlasts a'.expiresAt a.expiresAt)

instance (counts : Bool) (tables : Tables) (now' : Time) (input : AssignRoleInput) :
    Decidable (AsAsked counts tables now' input) :=
  inferInstanceAs (Decidable (_ ∨ ((_ ∨ _) ∧ (counts = false → _))))

/-! ### One assignment at one instant -/

section Gives

variable {input : AssignRoleInput} {resource : ResourceAttrs} {t now' : Time}
  {a a' : UserRoleAssignment} {expiresAt : Option Time}

/-- An assignment of the whole scope gives the role on each resource of it. -/
theorem CoversScope.gives (h : CoversScope input a) (ht : Unexpired t a)
    (hresource : ScopeEvaluator.matchers ⟨input.scopeType, input.scopeId⟩ resource
      input.userId = true) : GivesRole input resource t a :=
  ⟨h.user, h.role, matchers_of_exemplar h.scope hresource, ht⟩

/-- The exemplar of the scope decides about the whole scope. -/
theorem GivesRole.covers (h : GivesRole input (exemplar input) t a) : CoversScope input a :=
  ⟨h.user, h.role, h.scope⟩

theorem outlasts_iff {expiresAt' : Option Time} :
    Outlasts expiresAt expiresAt' ↔ before expiresAt' ⊆ before expiresAt := before_subset_iff.symm

/-- An equivalent assignment has the requested scope. -/
theorem Equivalent.covers (h : Equivalent input a)
    (hscope : ScopeEvaluator.matchers ⟨input.scopeType, input.scopeId⟩ (exemplar input)
      input.userId = true) : CoversScope input a := by
  simp only [Equivalent, inputIndex, content, Prod.mk.injEq] at h
  obtain ⟨huser, hrole, htype, hid⟩ := h
  refine ⟨huser, hrole, ?_⟩
  rw [htype, hid, huser]
  exact hscope

/-- The row that the call inserts. -/
theorem covers_row (newId : Uuid)
    (hscope : ScopeEvaluator.matchers ⟨input.scopeType, input.scopeId⟩ (exemplar input)
      input.userId = true) : CoversScope input (RoleAssignmentDrizzleRepository.row input newId) :=
  Equivalent.covers rfl hscope

end Gives

/-! ### The two outcomes of the call -/

section Outcomes

variable {counts : Bool} {tables tables' : Tables} {now' : Time} {input : AssignRoleInput}

/-- A row has been inserted. -/
theorem takesEffect_of_inserted {newId : Uuid}
    (hscope : ScopeEvaluator.matchers ⟨input.scopeType, input.scopeId⟩ (exemplar input)
      input.userId = true)
    (hnone : RoleAssignmentDrizzleRepository.findEquivalent tables input = none)
    (hrows : tables'.userRoleAssignments.rows =
      tables.userRoleAssignments.rows ++ [RoleAssignmentDrizzleRepository.row input newId]) :
    TakesEffect counts tables tables' now' input := by
  intro resource t _ hresource
  rw [hrows]
  refine ⟨fun ht => ?_, ?_⟩
  · refine ⟨_, List.mem_append_right _ List.mem_cons_self, ?_⟩
    exact (covers_row newId hscope).gives ht hresource
  · rintro hlate ⟨a, ha, hgives⟩
    rcases List.mem_append.1 ha with ha | ha
    · exact ⟨a, ha, Or.inr (findEquivalent_eq_none_iff.1 hnone a ha), hgives⟩
    · -- the new row has expired
      obtain rfl := List.mem_singleton.1 ha
      exact absurd hgives.unexpired hlate

/-- The expiries of all assignments. -/
def expiries (tables : Tables) : List (Option Time) :=
  tables.userRoleAssignments.rows.map UserRoleAssignment.expiresAt

/-- If the role is there up to the requested expiry, one assignment gives it so long. -/
theorem exists_outlasting
    (hscope : ScopeEvaluator.matchers ⟨input.scopeType, input.scopeId⟩ (exemplar input)
      input.userId = true)
    (hrows : tables'.userRoleAssignments.rows = tables.userRoleAssignments.rows)
    (h : TakesEffect counts tables tables' now' input) (hlive : now' ∈ before input.expiresAt) :
    ∃ a ∈ tables.userRoleAssignments.rows,
      CoversScope input a ∧ Outlasts a.expiresAt input.expiresAt := by
  obtain ⟨t, hnow, ht, hgeneric⟩ := exists_generic_before hlive (expiries tables)
  obtain ⟨a, ha, hgives⟩ := (h (exemplar input) t hnow hscope).1 ht
  rw [hrows] at ha
  refine ⟨a, ha, hgives.covers, outlasts_iff.2 ?_⟩
  exact hgeneric _ (List.mem_map_of_mem ha) hgives.unexpired

/-- If an equivalent assignment that lasts longer does not count, one of the others lasts as long. -/
theorem exists_other
    (hscope : ScopeEvaluator.matchers ⟨input.scopeType, input.scopeId⟩ (exemplar input)
      input.userId = true)
    (hrows : tables'.userRoleAssignments.rows = tables.userRoleAssignments.rows)
    (h : TakesEffect false tables tables' now' input) {a : UserRoleAssignment}
    (ha : a ∈ tables.userRoleAssignments.rows) (hequivalent : Equivalent input a)
    (hoverruns : Overruns input now' a) :
    ∃ a' ∈ tables.userRoleAssignments.rows,
      ¬Equivalent input a' ∧ CoversScope input a' ∧ Outlasts a'.expiresAt a.expiresAt := by
  obtain ⟨e, he, hlater⟩ := hoverruns
  have hlive : max e now' ∈ before a.expiresAt := fun e' he' =>
    max_lt (hlater e' he').1 (hlater e' he').2
  obtain ⟨t, hstart, ht, hgeneric⟩ := exists_generic_before hlive (expiries tables)
  have hpast : t ∉ before input.expiresAt :=
    not_mem_before_iff.2 ⟨e, he, (le_max_left e now').trans hstart⟩
  obtain ⟨-, hafter⟩ := h (exemplar input) t ((le_max_right e now').trans hstart) hscope
  have hgiven := (hequivalent.covers hscope).gives ht hscope
  obtain ⟨a', ha', hother, hgives⟩ := hafter hpast ⟨a, hrows ▸ ha, hgiven⟩
  have hnot : ¬Equivalent input a' := hother.resolve_left Bool.false_ne_true
  refine ⟨a', ha', hnot, hgives.covers, outlasts_iff.2 ?_⟩
  exact hgeneric _ (List.mem_map_of_mem ha') hgives.unexpired

/-- The rows are as before: what is there decides. -/
theorem takesEffect_iff_of_kept
    (hscope : ScopeEvaluator.matchers ⟨input.scopeType, input.scopeId⟩ (exemplar input)
      input.userId = true)
    (hrows : tables'.userRoleAssignments.rows = tables.userRoleAssignments.rows) :
    TakesEffect counts tables tables' now' input ↔
      ((∃ e ∈ input.expiresAt, e ≤ now') ∨ ∃ a ∈ tables.userRoleAssignments.rows,
        CoversScope input a ∧ Outlasts a.expiresAt input.expiresAt) ∧
      (counts = false → ∀ a ∈ tables.userRoleAssignments.rows, Equivalent input a →
        Overruns input now' a → ∃ a' ∈ tables.userRoleAssignments.rows,
          ¬Equivalent input a' ∧ CoversScope input a' ∧ Outlasts a'.expiresAt a.expiresAt) := by
  constructor
  · intro h
    constructor
    · by_cases hlive : now' ∈ before input.expiresAt
      · exact Or.inr (exists_outlasting hscope hrows h hlive)
      · exact Or.inl (not_mem_before_iff.1 hlive)
    · rintro rfl a ha hequivalent hoverruns
      exact exists_other hscope hrows h ha hequivalent hoverruns
  · rintro ⟨hlasts, hothers⟩ resource t hnow hresource
    rw [hrows]
    constructor
    · intro ht
      rcases hlasts with ⟨e, he, hle⟩ | ⟨a, ha, hcovers, houtlasts⟩
      · exact absurd (ht e he) (Nat.not_lt.2 (hle.trans hnow))
      · exact ⟨a, ha, hcovers.gives (outlasts_iff.1 houtlasts ht) hresource⟩
    · rintro hpast ⟨a, ha, hgives⟩
      by_cases hanother : Another counts input a
      · exact ⟨a, ha, hanother, hgives⟩
      · -- an equivalent assignment, which does not count
        obtain ⟨hcounts, hequivalent⟩ := not_or.1 hanother
        obtain ⟨e, he, hle⟩ := not_mem_before_iff.1 hpast
        have hoverruns : Overruns input now' a := ⟨e, he, fun e' he' =>
          ⟨hle.trans_lt (hgives.unexpired e' he'), hnow.trans_lt (hgives.unexpired e' he')⟩⟩
        obtain ⟨a', ha', hnot, hcovers, houtlasts⟩ := hothers (Bool.eq_false_iff.2 hcounts) a ha
          (not_not.1 hequivalent) hoverruns
        exact ⟨a', ha', Or.inr hnot, hcovers.gives (outlasts_iff.1 houtlasts hgives.unexpired) hresource⟩

end Outcomes

/-! ### The call -/

section Call

variable {store store' : Store} {now now' : Time} {statements : List Statement}
  {command : AssignRoleCommand} {actor : Uuid} {input : AssignRoleInput}

/-- **The grant takes effect as asked exactly under the condition.** -/
theorem takesEffect_iff (counts : Bool)
    (hstart : AuthzAdminService.assignRole store.tables command actor = .ok statements)
    (hinput : AuthzAdminService.assignInput command actor = .ok input)
    (hdone : Completes now store statements now' store') :
    TakesEffect counts store.tables store'.tables now' input ↔
      AsAsked counts store.tables now' input := by
  obtain ⟨input', hinput', -, -, hrows⟩ := assigned_of_completes hstart hdone
  obtain rfl : input' = input := Except.ok.inj (hinput'.symm.trans hinput)
  obtain ⟨-, -, -, hscope⟩ := assignInput_ok hinput
  rcases hrows with ⟨hfound, hrows⟩ | ⟨hnone, newId, hrows⟩
  · rw [takesEffect_iff_of_kept hscope hrows, AsAsked, or_iff_right hfound]
  · exact iff_of_true (takesEffect_of_inserted hscope hnone hrows) (Or.inl hnone)

end Call

/-! ### A grant that is not renewed -/

namespace Renewal

/-- The role of an auditor; employee 4 holds it everywhere and employee 1 until an instant. -/
def tables : Tables :=
  { Tables.empty with
    roles := [⟨5, "auditor", "Auditor", true, 0⟩]
    rolePermissions := [⟨5, "audit.read"⟩]
    userRoleAssignments := ⟨[⟨7, 1, 5, .global, none, 4, some 1000⟩,
      ⟨8, 4, 5, .global, none, 4, none⟩], by decide⟩ }

/-- Nothing is in the cache. -/
def start : Store := ⟨tables, TtlCache.empty⟩

/-- The role for employee 1, everywhere and for ever. -/
def command : AssignRoleCommand := { userId := 1, roleId := 5 }

/-- The input of `assign`. -/
def input : AssignRoleInput := ⟨1, 5, .global, none, 4, none⟩

/-- The first statement of the call. -/
def statements : List Statement :=
  [.getJson 4 (.assignRole command 4 ⟨5, "auditor", "Auditor", true, 0, ["audit.read"]⟩)]

/-- The store after the call. -/
def after (now : Time) : Store := (complete now 11 8 start statements).getD start

/-- The role for employee 3, who does not hold it. -/
def fresh : AssignRoleCommand := { userId := 3, roleId := 5, expiresAt := some 3000 }

/-- The first statement of that call. -/
def freshStatements : List Statement :=
  [.getJson 4 (.assignRole fresh 4 ⟨5, "auditor", "Auditor", true, 0, ["audit.read"]⟩)]

end Renewal

open Renewal in
/-- A new grant takes effect as asked. -/
theorem takesEffect_fresh : TakesEffect false start.tables
    ((complete 2000 11 8 start freshStatements).getD start).tables 2000
      ⟨3, 5, .global, none, 4, some 3000⟩ := by
  have hstart : AuthzAdminService.assignRole start.tables fresh 4 = .ok freshStatements := by decide
  have hinput : AuthzAdminService.assignInput fresh 4 = .ok ⟨3, 5, .global, none, 4, some 3000⟩ := by
    decide
  exact (takesEffect_iff false hstart hinput (completes_of_complete 11 8 rfl)).2 (by decide)

open Renewal in
/-- **An expired assignment is kept as it is, and the grantee does not have the role.** -/
theorem not_takesEffect :
    AuthzAdminService.assignRole start.tables command 4 = .ok statements ∧
      Completes 2000 start statements 2000 (after 2000) ∧
        ¬TakesEffect true start.tables (after 2000).tables 2000 input ∧
          ¬TakesEffect false start.tables (after 2000).tables 2000 input := by
  have hrows : (after 2000).tables.userRoleAssignments.rows =
      start.tables.userRoleAssignments.rows := by decide
  have hscope : ScopeEvaluator.matchers ⟨input.scopeType, input.scopeId⟩ (exemplar input)
      input.userId = true := by decide
  refine ⟨by decide, completes_of_complete 11 8 rfl, fun h => ?_, fun h => ?_⟩
  · exact absurd ((takesEffect_iff_of_kept hscope hrows).1 h).1 (by decide)
  · exact absurd ((takesEffect_iff_of_kept hscope hrows).1 h).1 (by decide)

end GrantEffect

end OpsHub
