import OpsHub.Access.Authz
import OpsHub.Lib.Generic

/-!
# What `assignRole` hands out

`assertCanGrantRole` compares the keys of permissions, `check` compares permissions, scopes and
expiries.  This module says when the two agree: what the grantee gets is a set of permissions,
resources and instants (`extent`), and it has a generic point for each permission of the role,
so that one finite comparison of assignments decides about all resources and instants.

* `Authz.Completes`: a call that nothing overtakes;
* `assigned_of_completes`: what a completed `assignRole` has done;
* `HandsOutNoMore`: the grantee gets nothing that the actor does not have;
* `handsOutNoMore_iff`: this is so exactly if some assignment covers each permission of the role
  at the granted scope and for as long;
* `not_handsOutNoMore`: a permission that is held in one team can be granted everywhere.
-/

namespace OpsHub

namespace Authz

/-! ### Calls that nothing overtakes -/

/-- The statements of a call succeed one after another, while the clock goes on. -/
inductive Completes : Time → Store → List Statement → Time → Store → Prop
  | nil (now : Time) (store : Store) : Completes now store [] now store
  | cons {now now' now'' : Time} {store store' store'' : Store} {statement : Statement}
      {next rest : List Statement} (newId : Uuid) (hnow : now ≤ now')
      (hexec : exec now' newId store statement = (store', .ok next))
      (hrest : Completes now' store' (next ++ rest) now'' store'') :
      Completes now store (statement :: rest) now'' store''

/-- The call, run to its end at one instant, if it succeeds with so many statements. -/
def complete (now : Time) (newId : Uuid) : ℕ → Store → List Statement → Option Store
  | _, store, [] => some store
  | 0, _, _ :: _ => none
  | n + 1, store, statement :: rest =>
    match exec now newId store statement with
    | (store', .ok next) => complete now newId n store' (next ++ rest)
    | (_, .error _) => none

/-- The store with other assignments. -/
def Store.withAssignments (store : Store) (table : Table UserRoleAssignment.id) : Store :=
  { store with tables := { store.tables with userRoleAssignments := table } }

section Completes

variable {now now' : Time} {store store' : Store} {statements rest : List Statement}

theorem completes_of_complete (newId : Uuid) (n : ℕ)
    (h : complete now newId n store statements = some store') :
    Completes now store statements now store' := by
  induction n generalizing store statements with
  | zero =>
    cases statements with
    | nil =>
      obtain rfl := Option.some.inj h
      exact .nil now store
    | cons statement rest => cases h
  | succ n ih =>
    cases statements with
    | nil =>
      obtain rfl := Option.some.inj h
      exact .nil now store
    | cons statement rest =>
      unfold complete at h
      split at h
      · rename_i store₁ next hexec
        exact .cons newId (Nat.le_refl now) hexec (ih h)
      · cases h

theorem Completes.inv {statement : Statement}
    (h : Completes now store (statement :: rest) now' store') :
    ∃ now₁ newId store₁ next, exec now₁ newId store statement = (store₁, .ok next) ∧
      Completes now₁ store₁ (next ++ rest) now' store' := by
  cases h with
  | cons newId hnow hexec hrest => exact ⟨_, newId, _, _, hexec, hrest⟩

/-- `settle` leaves the assignments alone, and the user without an entry in the cache. -/
theorem Completes.of_settle {userId : Uuid} (h : Completes now store (settle userId) now' store') :
    store'.tables.userRoleAssignments = store.tables.userRoleAssignments ∧
      store'.tables.rolePermissions = store.tables.rolePermissions ∧
        ∀ t, store'.permissions.get t userId = none := by
  obtain ⟨now₁, newId₁, store₁, next₁, hselect, h⟩ := h.inv
  obtain ⟨rfl, hnext₁⟩ := Prod.mk.inj hselect
  obtain rfl := Except.ok.inj hnext₁
  obtain ⟨now₂, newId₂, store₂, next₂, hupdate, h⟩ := h.inv
  obtain ⟨rfl, hnext₂⟩ := Prod.mk.inj hupdate
  obtain rfl := Except.ok.inj hnext₂
  obtain ⟨now₃, newId₃, store₃, next₃, hinvalidate, h⟩ := h.inv
  obtain ⟨rfl, hnext₃⟩ := Prod.mk.inj hinvalidate
  obtain rfl := Except.ok.inj hnext₃
  cases h with
  | nil => exact ⟨rfl, rfl, fun t => TtlCache.get_del_self _ _ _⟩

/-- A grant that is not there yet. -/
theorem Completes.of_grant {input : AssignRoleInput}
    (hfind : RoleAssignmentDrizzleRepository.findEquivalent store.tables input = none)
    (h : Completes now store (.findEquivalent input :: rest) now' store') :
    ∃ now₁ newId table,
      store.tables.userRoleAssignments.insert
        (RoleAssignmentDrizzleRepository.row input newId) = some table ∧
      Completes now₁ (store.withAssignments table) rest now' store' := by
  obtain ⟨now₁, newId₁, store₁, next₁, hexec, h⟩ := h.inv
  simp only [exec, hfind] at hexec
  obtain ⟨rfl, hnext₁⟩ := Prod.mk.inj hexec
  obtain rfl := Except.ok.inj hnext₁
  obtain ⟨now₂, newId₂, store₂, next₂, hinsert, h⟩ := h.inv
  simp only [exec] at hinsert
  cases hrow : RoleAssignmentDrizzleRepository.insert input newId₂ store.tables with
  | ok tables =>
    simp only [hrow] at hinsert
    obtain ⟨rfl, hnext₂⟩ := Prod.mk.inj hinsert
    obtain rfl := Except.ok.inj hnext₂
    obtain ⟨table, hinserted, rfl⟩ := insert_ok hrow
    exact ⟨now₂, newId₂, table, hinserted, h⟩
  | error e =>
    simp only [hrow] at hinsert
    cases (Prod.mk.inj hinsert).2

/-- The assignment is there already, or it has been inserted. -/
theorem Completes.of_assign {input : AssignRoleInput} {userId : Uuid}
    (h : Completes now store (.findEquivalent input :: settle userId) now' store') :
    store'.tables.rolePermissions = store.tables.rolePermissions ∧
      (∀ t, store'.permissions.get t userId = none) ∧
      ((RoleAssignmentDrizzleRepository.findEquivalent store.tables input ≠ none ∧
          store'.tables.userRoleAssignments.rows = store.tables.userRoleAssignments.rows) ∨
        (RoleAssignmentDrizzleRepository.findEquivalent store.tables input = none ∧
          ∃ newId, store'.tables.userRoleAssignments.rows =
            store.tables.userRoleAssignments.rows ++
              [RoleAssignmentDrizzleRepository.row input newId])) := by
  cases hequivalent : RoleAssignmentDrizzleRepository.findEquivalent store.tables input with
  | some a =>
    obtain ⟨now₁, newId, store₁, next, hfind, h⟩ := h.inv
    simp only [exec, hequivalent] at hfind
    obtain ⟨rfl, hnext⟩ := Prod.mk.inj hfind
    obtain rfl := Except.ok.inj hnext
    obtain ⟨hassignments, hcarried, hcache⟩ := h.of_settle
    exact ⟨hcarried, hcache, Or.inl ⟨by simp, congrArg Table.rows hassignments⟩⟩
  | none =>
    obtain ⟨now₁, newId, table, hinserted, h⟩ := h.of_grant hequivalent
    obtain ⟨hassignments, hcarried, hcache⟩ := h.of_settle
    refine ⟨hcarried, hcache, Or.inr ⟨rfl, newId, ?_⟩⟩
    rw [hassignments]
    exact (Table.insert_eq_some_iff.1 hinserted).2

/-- `resolve` returns what is in the cache or in the database. -/
theorem Completes.of_resolve {userId : Uuid} {caller : Caller}
    (h : Completes now store [.getJson userId caller] now' store') :
    ∃ now₁ store₁ effective statements, store₁.tables = store.tables ∧
      caller.resume effective = .ok statements ∧ Completes now₁ store₁ statements now' store' := by
  obtain ⟨now₁, newId₁, store₁, next₁, hget, h⟩ := h.inv
  simp only [exec] at hget
  cases hcache : store.permissions.get now₁ userId with
  | some cached =>
    simp only [hcache] at hget
    obtain ⟨rfl, hresume⟩ := Prod.mk.inj hget
    rw [List.append_nil] at h
    exact ⟨now₁, store, cached, next₁, rfl, hresume, h⟩
  | none =>
    simp only [hcache] at hget
    obtain ⟨rfl, hnext₁⟩ := Prod.mk.inj hget
    obtain rfl := Except.ok.inj hnext₁
    obtain ⟨now₂, newId₂, store₂, next₂, hselect, h⟩ := h.inv
    obtain ⟨rfl, hnext₂⟩ := Prod.mk.inj hselect
    obtain rfl := Except.ok.inj hnext₂
    obtain ⟨now₃, newId₃, store₃, next₃, hset, h⟩ := h.inv
    obtain ⟨rfl, hresume⟩ := Prod.mk.inj hset
    have hrest : Completes now₃ _ (next₃ ++ []) now' store' := h
    rw [List.append_nil] at hrest
    refine ⟨now₃, _, _, next₃, ?_, hresume, hrest⟩
    rfl

/-- **What a completed `assignRole` has done.** -/
theorem assigned_of_completes {command : AssignRoleCommand} {actor : Uuid}
    (hstart : AuthzAdminService.assignRole store.tables command actor = .ok statements)
    (hdone : Completes now store statements now' store') :
    ∃ input, AuthzAdminService.assignInput command actor = .ok input ∧
      store'.tables.rolePermissions = store.tables.rolePermissions ∧
      (∀ t, store'.permissions.get t command.userId = none) ∧
      ((RoleAssignmentDrizzleRepository.findEquivalent store.tables input ≠ none ∧
          store'.tables.userRoleAssignments.rows = store.tables.userRoleAssignments.rows) ∨
        (RoleAssignmentDrizzleRepository.findEquivalent store.tables input = none ∧
          ∃ newId, store'.tables.userRoleAssignments.rows =
            store.tables.userRoleAssignments.rows ++
              [RoleAssignmentDrizzleRepository.row input newId])) := by
  simp only [AuthzAdminService.assignRole, Except.bind_eq_ok_iff, Outcome.orThrow_eq_ok_iff,
    Except.pure_eq_ok_iff] at hstart
  obtain ⟨role, -, rfl⟩ := hstart
  obtain ⟨now₁, store₁, effective, next, htables, hresume, hdone⟩ := hdone.of_resolve
  obtain ⟨-, input, hinput, rfl⟩ := resume_assignRole_ok hresume
  refine ⟨input, hinput, ?_⟩
  rw [← htables]
  exact hdone.of_assign

end Completes

end Authz

namespace GrantCover

open AuthzService Authz Generic

/-! ### What a user holds -/

/-- What `check` answers for a user of whom nothing is in the cache. -/
def Holds (tables : Tables) (now : Time) (userId : Uuid) (permission : PermissionKey)
    (resource : ResourceAttrs) : Prop :=
  answer (effective tables now userId) permission (some resource) (some userId) = true

instance (tables : Tables) (now : Time) (userId : Uuid) (permission : PermissionKey)
    (resource : ResourceAttrs) : Decidable (Holds tables now userId permission resource) :=
  inferInstanceAs (Decidable (_ = true))

/-- The user holds every permission everywhere. -/
def HoldsGlobalWildcard (tables : Tables) (now : Time) (userId : Uuid) : Prop :=
  ∃ a ∈ assignments tables now userId, a.scopeType = .global ∧
    ⟨a.roleId, wildcardPermission⟩ ∈ tables.rolePermissions

instance (tables : Tables) (now : Time) (userId : Uuid) :
    Decidable (HoldsGlobalWildcard tables now userId) :=
  inferInstanceAs (Decidable (∃ a ∈ assignments tables now userId, _))

/-- The permissions, resources and instants for which an assignment gives its user access. -/
def extent (tables : Tables) (a : UserRoleAssignment) :
    Set ((PermissionKey × ResourceAttrs) × Time) :=
  ({permission | Carries tables a.roleId permission} ×ˢ
    {resource | ScopeEvaluator.matchers ⟨a.scopeType, a.scopeId⟩ resource a.userId = true}) ×ˢ
      before a.expiresAt

section Holds

variable {tables tables' : Tables} {now : Time} {userId : Uuid} {permission : PermissionKey}
  {resource : ResourceAttrs}

/-- A user holds what the extents of their assignments hold together. -/
theorem holds_iff : Holds tables now userId permission resource ↔
    ∃ a ∈ tables.userRoleAssignments.rows, a.userId = userId ∧
      ((permission, resource), now) ∈ extent tables a := by
  rw [Holds, answer_effective_iff]
  constructor
  · rintro ⟨a, ha, hcarried, hmatch⟩
    obtain ⟨hrow, rfl, hexpiry⟩ := mem_assignments.1 ha
    exact ⟨a, hrow, rfl, ⟨hcarried, hmatch⟩, hexpiry⟩
  · rintro ⟨a, hrow, rfl, ⟨hcarried, hmatch⟩, hexpiry⟩
    exact ⟨a, mem_assignments.2 ⟨hrow, rfl, hexpiry⟩, hcarried, hmatch⟩

theorem extent_congr (h : tables'.rolePermissions = tables.rolePermissions)
    (a : UserRoleAssignment) : extent tables' a = extent tables a := by
  simp only [extent, Carries, h]

end Holds

/-- The grantee gets nothing that the actor does not have there and then. -/
def HandsOutNoMore (store store' : Store) (now' : Time) (grantee actor : Uuid) : Prop :=
  ∀ permission resource t, now' ≤ t →
    store'.check t grantee permission (some resource) (some grantee) = true →
    ¬ Holds store.tables t grantee permission resource → Holds store.tables t actor permission resource

/-! ### The condition -/

/-- The resource that has the attributes only that the granted scope asks for. -/
def exemplar (input : AssignRoleInput) : ResourceAttrs :=
  match input.scopeType with
  | .global => { }
  | .self => { ownerId := some input.userId }
  | .team => { teamId := input.scopeId }
  | .dept => { deptId := input.scopeId }
  | .region => { region := input.scopeId }

/-- The assignment covers a permission in the granted scope and up to the granted expiry. -/
structure Covers (tables : Tables) (input : AssignRoleInput) (permission : PermissionKey)
    (a : UserRoleAssignment) : Prop where
  holder : a.userId = input.userId ∨ a.userId = input.grantedBy
  carries : Carries tables a.roleId permission
  scope : ScopeEvaluator.matchers ⟨a.scopeType, a.scopeId⟩ (exemplar input) a.userId = true
  lasts : ∀ e ∈ a.expiresAt, ∃ e' ∈ input.expiresAt, e' ≤ e

instance (tables : Tables) (input : AssignRoleInput) (permission : PermissionKey) :
    DecidablePred (Covers tables input permission) := fun a =>
  decidable_of_iff
    ((a.userId = input.userId ∨ a.userId = input.grantedBy) ∧ Carries tables a.roleId permission ∧
      ScopeEvaluator.matchers ⟨a.scopeType, a.scopeId⟩ (exemplar input) a.userId = true ∧
      ∀ e ∈ a.expiresAt, ∃ e' ∈ input.expiresAt, e' ≤ e)
    ⟨fun h => ⟨h.1, h.2.1, h.2.2.1, h.2.2.2⟩, fun h => ⟨h.holder, h.carries, h.scope, h.lasts⟩⟩

/-- The grant is there already, or it is not in force, or each permission of the role is covered
by an assignment of the grantee or of the actor. -/
def KeepsWithin (tables : Tables) (now' : Time) (input : AssignRoleInput) : Prop :=
  RoleAssignmentDrizzleRepository.findEquivalent tables input ≠ none ∨
    (∃ e ∈ input.expiresAt, e ≤ now') ∨
    ∀ p ∈ tables.rolePermissions, p.roleId = input.roleId →
      ∃ a ∈ tables.userRoleAssignments.rows, Covers tables input p.permissionKey a

instance (tables : Tables) (now' : Time) (input : AssignRoleInput) :
    Decidable (KeepsWithin tables now' input) :=
  inferInstanceAs (Decidable (_ ∨ _ ∨ _))

/-! ### Generic points of a grant -/

section Generic

variable {tables : Tables} {input : AssignRoleInput} {command : AssignRoleCommand} {actor : Uuid}

/-- A permission of a role is generic for what the role gets by it. -/
theorem generic_permission {ι : Type} (role : ι → Uuid) (p : PermissionKey) :
    Generic {q | q = p ∨ p = wildcardPermission} (fun i => {q | Carries tables (role i) q}) p := by
  refine ⟨Or.inl rfl, fun i hi q hq => ?_⟩
  rcases hq with rfl | rfl
  · exact hi
  · rcases hi with hwild | hwild
    · exact Or.inr hwild
    · exact Or.inr hwild

/-- A scope that covers the exemplar covers whatever the granted scope covers. -/
theorem matchers_of_exemplar {grant : Scope} {user : Uuid} {resource : ResourceAttrs}
    (h : ScopeEvaluator.matchers grant (exemplar input) user = true)
    (hresource : ScopeEvaluator.matchers ⟨input.scopeType, input.scopeId⟩ resource
      input.userId = true) : ScopeEvaluator.matchers grant resource user = true := by
  obtain ⟨type, id⟩ := grant
  cases type <;> cases htype : input.scopeType <;>
    simp_all [ScopeEvaluator.matchers, exemplar]
  -- both scopes name the same team, department or region
  all_goals exact h.2 ▸ h.1

/-- The input of `assign`; the granted scope covers its exemplar. -/
theorem assignInput_ok (h : AuthzAdminService.assignInput command actor = .ok input) :
    input.userId = command.userId ∧ input.roleId = command.roleId ∧ input.grantedBy = actor ∧
      ScopeEvaluator.matchers ⟨input.scopeType, input.scopeId⟩ (exemplar input) input.userId =
        true := by
  simp only [AuthzAdminService.assignInput, Except.bind_eq_ok_iff, Outcome.require_eq_ok_iff,
    Except.pure_eq_ok_iff] at h
  obtain ⟨-, hscope, rfl⟩ := h
  refine ⟨rfl, rfl, rfl, ?_⟩
  cases htype : command.scopeType.getD .global <;>
    simp_all [ScopeEvaluator.matchers, exemplar]
  all_goals
    intro hnone
    simp [hnone] at hscope

/-- What the grantee gets from `now` on by one permission of the role. -/
def piece (input : AssignRoleInput) (now : Time) (p : PermissionKey) :
    Set ((PermissionKey × ResourceAttrs) × Time) :=
  ({q | q = p ∨ p = wildcardPermission} ×ˢ
    {resource | ScopeEvaluator.matchers ⟨input.scopeType, input.scopeId⟩ resource
      input.userId = true}) ×ˢ ({t | now ≤ t} ∩ before input.expiresAt)

/-- The assignments of the grantee and of the actor. -/
abbrev Holding (tables : Tables) (input : AssignRoleInput) : Type :=
  {a : UserRoleAssignment // a ∈ tables.userRoleAssignments.rows ∧
    (a.userId = input.userId ∨ a.userId = input.grantedBy)}

/-- **One comparison decides**: a permission of the role is covered on all resources and at all
instants by the assignments of the grantee and of the actor if one of them covers it. -/
theorem piece_subset_iff {now : Time}
    (hscope : ScopeEvaluator.matchers ⟨input.scopeType, input.scopeId⟩ (exemplar input)
      input.userId = true) (hlive : now ∈ before input.expiresAt) (p : PermissionKey) :
    piece input now p ⊆ ⋃ a : Holding tables input, extent tables a.1 ↔
      ∃ a ∈ tables.userRoleAssignments.rows, Covers tables input p a := by
  obtain ⟨t, hnow, ht, hgeneric⟩ := exists_generic_before hlive
    (tables.userRoleAssignments.rows.map UserRoleAssignment.expiresAt)
  have hinstant : Generic ({t | now ≤ t} ∩ before input.expiresAt)
      (fun a : Holding tables input => before a.1.expiresAt) t :=
    ⟨⟨hnow, ht⟩, fun a ha =>
      Set.inter_subset_right.trans (hgeneric _ (List.mem_map_of_mem a.2.1) ha)⟩
  have hresource : Generic
      {resource | ScopeEvaluator.matchers ⟨input.scopeType, input.scopeId⟩ resource
        input.userId = true}
      (fun a : Holding tables input => {resource | ScopeEvaluator.matchers
        ⟨a.1.scopeType, a.1.scopeId⟩ resource a.1.userId = true}) (exemplar input) :=
    ⟨hscope, fun a ha resource hresource => matchers_of_exemplar ha hresource⟩
  have hpoint : Generic (piece input now p)
      (fun a : Holding tables input => extent tables a.1) ((p, exemplar input), t) :=
    ((generic_permission _ p).prod hresource).prod hinstant
  rw [hpoint.subset_iUnion_iff]
  constructor
  · rintro ⟨⟨a, hrow, hholder⟩, ⟨hcarried, hmatch⟩, hlate⟩
    have hlasts := before_subset_iff.1 (hgeneric _ (List.mem_map_of_mem hrow) hlate)
    exact ⟨a, hrow, hholder, hcarried, hmatch, hlasts⟩
  · rintro ⟨a, hrow, hcovers⟩
    exact ⟨⟨a, hrow, hcovers.holder⟩, ⟨hcovers.carries, hcovers.scope⟩,
      before_subset_iff.2 hcovers.lasts ht⟩

end Generic

/-! ### The guarantee -/

section Guarantee

variable {store store' : Store} {now now' : Time} {statements : List Statement}
  {command : AssignRoleCommand} {actor : Uuid} {input : AssignRoleInput}

/-- Without a new row the grantee gets nothing. -/
theorem handsOutNoMore_of_rows_eq {grantee : Uuid}
    (hcarried : store'.tables.rolePermissions = store.tables.rolePermissions)
    (hcache : ∀ t, store'.permissions.get t grantee = none)
    (hrows : store'.tables.userRoleAssignments.rows = store.tables.userRoleAssignments.rows) :
    HandsOutNoMore store store' now' grantee actor := by
  intro permission resource t _ hcheck hnew
  refine absurd ?_ hnew
  rw [Store.check, Store.resolve, hcache] at hcheck
  obtain ⟨a, hrow, huser, hextent⟩ := holds_iff.1 hcheck
  rw [hrows] at hrow
  rw [extent_congr hcarried] at hextent
  exact holds_iff.2 ⟨a, hrow, huser, hextent⟩

/-- With a new row the grantee gets no more than the actor has if each piece of it is covered. -/
theorem handsOutNoMore_iff_piece {newId : Uuid}
    (hcarried : store'.tables.rolePermissions = store.tables.rolePermissions)
    (hcache : ∀ t, store'.permissions.get t input.userId = none)
    (hrows : store'.tables.userRoleAssignments.rows = store.tables.userRoleAssignments.rows ++
      [RoleAssignmentDrizzleRepository.row input newId]) :
    HandsOutNoMore store store' now' input.userId input.grantedBy ↔
      ∀ p, ⟨input.roleId, p⟩ ∈ store.tables.rolePermissions →
        piece input now' p ⊆ ⋃ a : Holding store.tables input, extent store.tables a.1 := by
  have hcheck : ∀ t permission resource,
      store'.check t input.userId permission (some resource) (some input.userId) = true ↔
        Holds store'.tables t input.userId permission resource := by
    intro t permission resource
    rw [Store.check, Store.resolve, hcache]
    rfl
  constructor
  · rintro h p hp ⟨⟨q, resource⟩, t⟩ ⟨⟨hq, hmatch⟩, hnow, ht⟩
    have hcarries : Carries store.tables input.roleId q := by
      rcases hq with rfl | rfl
      · exact Or.inl hp
      · exact Or.inr hp
    have hgot : Holds store'.tables t input.userId q resource := by
      refine holds_iff.2 ⟨RoleAssignmentDrizzleRepository.row input newId, ?_, rfl, ?_⟩
      · rw [hrows]
        exact List.mem_append_right _ (List.mem_singleton_self _)
      · rw [extent_congr hcarried]
        exact ⟨⟨hcarries, hmatch⟩, ht⟩
    -- what the user had already is covered by their own assignment, the rest by one of the actor
    by_cases hold : Holds store.tables t input.userId q resource
    · obtain ⟨a, hrow, huser, hextent⟩ := holds_iff.1 hold
      exact Set.mem_iUnion.2 ⟨⟨a, hrow, Or.inl huser⟩, hextent⟩
    · obtain ⟨a, hrow, huser, hextent⟩ :=
        holds_iff.1 (h q resource t hnow ((hcheck t q resource).2 hgot) hold)
      exact Set.mem_iUnion.2 ⟨⟨a, hrow, Or.inr huser⟩, hextent⟩
  · intro h permission resource t hnow hgot hnew
    obtain ⟨a, hrow, huser, hextent⟩ := holds_iff.1 ((hcheck t permission resource).1 hgot)
    rw [extent_congr hcarried] at hextent
    rw [hrows, List.mem_append, List.mem_singleton] at hrow
    rcases hrow with hrow | rfl
    · exact absurd (holds_iff.2 ⟨a, hrow, huser, hextent⟩) hnew
    · -- the new row, by one of the permissions of its role
      obtain ⟨⟨hcarries, hmatch⟩, ht⟩ := hextent
      have hpiece : ∃ p, ⟨input.roleId, p⟩ ∈ store.tables.rolePermissions ∧
          ((permission, resource), t) ∈ piece input now' p := by
        rcases hcarries with hp | hp
        · exact ⟨permission, hp, ⟨Or.inl rfl, hmatch⟩, hnow, ht⟩
        · exact ⟨wildcardPermission, hp, ⟨Or.inr rfl, hmatch⟩, hnow, ht⟩
      obtain ⟨p, hp, hx⟩ := hpiece
      obtain ⟨⟨a, hrow, huser | huser⟩, hextent⟩ := Set.mem_iUnion.1 (h p hp hx)
      · exact absurd (holds_iff.2 ⟨a, hrow, huser, hextent⟩) hnew
      · exact holds_iff.2 ⟨a, hrow, huser, hextent⟩

/-- **What `assignRole` hands out** is covered by what the actor has, on every resource and at
every instant from its return on, exactly if the grant is there already, or is not in force, or
each permission of the role is covered by one assignment. -/
theorem handsOutNoMore_iff
    (hstart : AuthzAdminService.assignRole store.tables command actor = .ok statements)
    (hinput : AuthzAdminService.assignInput command actor = .ok input)
    (hdone : Completes now store statements now' store') :
    HandsOutNoMore store store' now' command.userId actor ↔
      KeepsWithin store.tables now' input := by
  obtain ⟨input', hinput', hcarried, hcache, hrows⟩ := assigned_of_completes hstart hdone
  obtain rfl : input' = input := Except.ok.inj (hinput'.symm.trans hinput)
  obtain ⟨huser, -, hactor, hscope⟩ := assignInput_ok hinput
  rw [← huser] at hcache ⊢
  rw [← hactor]
  rcases hrows with ⟨hequivalent, hrows⟩ | ⟨hequivalent, newId, hrows⟩
  · exact iff_of_true (handsOutNoMore_of_rows_eq hcarried hcache hrows) (Or.inl hequivalent)
  · rw [handsOutNoMore_iff_piece hcarried hcache hrows]
    by_cases hlive : now' ∈ before input'.expiresAt
    · have hnotExpired : ¬ ∃ e ∈ input'.expiresAt, e ≤ now' := fun ⟨e, he, hle⟩ =>
        Nat.not_lt.2 hle (hlive e he)
      rw [KeepsWithin, or_iff_right (not_not.2 hequivalent), or_iff_right hnotExpired]
      constructor
      · rintro h ⟨roleId, p⟩ hp rfl
        exact (piece_subset_iff hscope hlive p).1 (h p hp)
      · intro h p hp
        exact (piece_subset_iff hscope hlive p).2 (h ⟨input'.roleId, p⟩ hp rfl)
    · -- the grant has expired, and no piece of it is left
      have hexpired : ∃ e ∈ input'.expiresAt, e ≤ now' := by
        by_contra hnone
        exact hlive fun e he => Nat.lt_of_not_le fun hle => hnone ⟨e, he, hle⟩
      refine iff_of_true (fun p _ => ?_) (Or.inr (Or.inl hexpired))
      rintro ⟨⟨q, resource⟩, t⟩ ⟨-, hnow, ht⟩
      obtain ⟨e, he, hle⟩ := hexpired
      have hlt : t < e := ht e he
      exact absurd (hnow.trans_lt hlt) (Nat.not_lt.2 hle)

end Guarantee

/-! ### Grants that go further -/

namespace Sample

/-- The role of a team lead; employee 2 holds it in one team, employee 3 until an instant, and
employee 4 everywhere. -/
def tables : Tables :=
  { Tables.empty with
    roles := [⟨5, "team-lead", "Team lead", false, 0⟩]
    rolePermissions := [⟨5, "asset.read"⟩, ⟨5, "role.assign"⟩]
    userRoleAssignments := ⟨[⟨7, 2, 5, .team, some "network", 9, none⟩,
      ⟨8, 3, 5, .global, none, 9, some 1000⟩, ⟨10, 4, 5, .global, none, 9, none⟩], by decide⟩ }

/-- Nothing is in the cache. -/
def start : Store := ⟨tables, TtlCache.empty⟩

/-- The role for employee 1, everywhere and for ever. -/
def everywhere : AssignRoleCommand := { userId := 1, roleId := 5 }

/-- The role for employee 1, in one team and for a while. -/
def inTeam : AssignRoleCommand :=
  { userId := 1, roleId := 5, scopeType := some .team, scopeId := some "network",
    expiresAt := some 1000 }

/-- The first statement of the call. -/
def statements (command : AssignRoleCommand) (actor : Uuid) : List Statement :=
  [.getJson actor (.assignRole command actor
    ⟨5, "team-lead", "Team lead", false, 0, ["asset.read", "role.assign"]⟩)]

/-- The store after the call. -/
def after (command : AssignRoleCommand) (actor : Uuid) : Store :=
  (complete 0 11 8 start (statements command actor)).getD start

/-- The actor has no global `*`, and the grantee gets more than the actor has. -/
def Oversteps (actor : Uuid) : Prop :=
  ¬ HoldsGlobalWildcard start.tables 0 actor ∧
    AuthzAdminService.assignRole start.tables everywhere actor =
      .ok (statements everywhere actor) ∧
    Completes 0 start (statements everywhere actor) 0 (after everywhere actor) ∧
    ¬ HandsOutNoMore start (after everywhere actor) 0 1 actor

end Sample

open Sample in
/-- The guarantee for a grant in one team and for a while by somebody who holds the role
everywhere. -/
theorem handsOutNoMore_inTeam :
    HandsOutNoMore start (after inTeam 4) 0 1 4 := by
  have hdone : Completes 0 start (statements inTeam 4) 0 (after inTeam 4) :=
    completes_of_complete 11 8 rfl
  have hinput : AuthzAdminService.assignInput inTeam 4 =
      .ok ⟨1, 5, .team, some "network", 4, some 1000⟩ := by decide
  have hstart : AuthzAdminService.assignRole start.tables inTeam 4 = .ok (statements inTeam 4) := by
    decide
  exact (handsOutNoMore_iff hstart hinput hdone).2 (by decide)

open Sample in
/-- Who holds a role in one team, or for a while, can grant it everywhere and for ever. -/
theorem not_handsOutNoMore : Oversteps 2 ∧ Oversteps 3 := by
  refine ⟨⟨by decide, by decide, ?_, fun h => ?_⟩, ⟨by decide, by decide, ?_, fun h => ?_⟩⟩
  · exact completes_of_complete 11 8 rfl
  · -- outside the team
    exact absurd (h "asset.read" { } 0 (Nat.le_refl _) (by decide) (by decide)) (by decide)
  · exact completes_of_complete 11 8 rfl
  · -- when the actor's own assignment has expired
    exact absurd (h "asset.read" { } 1000 (by decide) (by decide) (by decide)) (by decide)

end GrantCover

end OpsHub
