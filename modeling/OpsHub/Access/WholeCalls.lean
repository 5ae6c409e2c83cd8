import OpsHub.Access.Administration

/-!
# Whole calls

A call of `AuthzAdminService` that nothing overtakes: its statements are executed one after
another at one instant, and each may draw an id for the row that it inserts.

* `Authz.drive`: the call with a list of ids, one for each statement;
* `Authz.Whole`: the ids suffice, and none of them is in use when it is drawn;
* `Authz.Finishes`: the same as a relation, which the following lemmas take apart;
* `Finishes.of_settle`, `of_grant`, `of_revoke`, `of_resolve`: what the statements do;
* `Finishes.of_grants`, `of_revokes`: the two loops of `syncUserRolesByKeys`;
* `CanFinish`: a call that can be run to its end.
-/

namespace OpsHub

namespace Authz

open Runs

/-- The next statement of a call. -/
def advanceCall (now : Time) (call : Store × List Statement) (newId : Uuid) :
    Store × List Statement :=
  advance now newId call.1 call.2

/-- The call with these ids: the store, and the statements that are left. -/
def drive (now : Time) (newIds : List Uuid) (store : Store) (statements : List Statement) :
    Store × List Statement :=
  run (advanceCall now) (store, statements) newIds

/-- No assignment has the id. -/
def Unused (call : Store × List Statement) (newId : Uuid) : Prop :=
  call.1.tables.userRoleAssignments.find newId = none

instance (call : Store × List Statement) (newId : Uuid) : Decidable (Unused call newId) :=
  inferInstanceAs (Decidable (_ = none))

/-- The call comes to its end with these ids, and each of them is unused when it is drawn. -/
def Whole (now : Time) (newIds : List Uuid) (store : Store) (statements : List Statement) : Prop :=
  (drive now newIds store statements).2 = [] ∧
    Meets (advanceCall now) Unused (store, statements) newIds

instance (now : Time) (newIds : List Uuid) (store : Store) (statements : List Statement) :
    Decidable (Whole now newIds store statements) :=
  inferInstanceAs (Decidable (_ ∧ _))

/-- The statements are executed to the end, or to the first that throws. -/
inductive Finishes (now : Time) : Store → List Statement → Store → Prop
  | nil (store : Store) : Finishes now store [] store
  | cons {store store' store'' : Store} {statement : Statement} {next rest : List Statement}
      (newId : Uuid) (hunused : store.tables.userRoleAssignments.find newId = none)
      (hexec : exec now newId store statement = (store', .ok next))
      (hrest : Finishes now store' (next ++ rest) store'') :
      Finishes now store (statement :: rest) store''
  | thrown {store store' : Store} {statement : Statement} {rest : List Statement}
      {failure : Failure} (newId : Uuid)
      (hunused : store.tables.userRoleAssignments.find newId = none)
      (hexec : exec now newId store statement = (store', .error failure)) :
      Finishes now store (statement :: rest) store'

section Finishes

variable {now : Time} {newIds : List Uuid} {store store' : Store}
  {statement : Statement} {statements rest : List Statement}

/-- A call that has ended stays as it is. -/
theorem drive_nil (now : Time) (newIds : List Uuid) (store : Store) :
    drive now newIds store [] = (store, []) := by
  induction newIds with
  | nil => rfl
  | cons newId newIds ih => exact ih

/-- **A whole call finishes.** -/
theorem finishes_drive (h : Whole now newIds store statements) :
    Finishes now store statements (drive now newIds store statements).1 := by
  induction newIds generalizing store statements with
  | nil =>
    obtain rfl : statements = [] := h.1
    exact .nil store
  | cons newId newIds ih =>
    cases statements with
    | nil =>
      rw [drive_nil]
      exact .nil store
    | cons statement rest =>
      obtain ⟨hend, hunused, hrest⟩ := h
      have hdrive : drive now (newId :: newIds) store (statement :: rest) =
          drive now newIds (advance now newId store (statement :: rest)).1
            (advance now newId store (statement :: rest)).2 := rfl
      rw [hdrive] at hend ⊢
      cases hexec : exec now newId store statement with
      | mk store₁ outcome =>
        have hnext := ih ⟨hend, hrest⟩
        cases outcome with
        | ok next =>
          rw [advance, hexec] at hnext ⊢
          exact .cons newId hunused hexec hnext
        | error failure =>
          rw [advance, hexec] at hnext ⊢
          simp only [drive_nil]
          exact .thrown newId hunused hexec

/-- The first statement of a call. -/
theorem Finishes.inv (h : Finishes now store (statement :: rest) store') :
    ∃ newId, store.tables.userRoleAssignments.find newId = none ∧
      ((∃ store₁ next, exec now newId store statement = (store₁, .ok next) ∧
          Finishes now store₁ (next ++ rest) store') ∨
        ∃ failure, exec now newId store statement = (store', .error failure)) := by
  cases h with
  | cons newId hunused hexec hrest => exact ⟨newId, hunused, Or.inl ⟨_, _, hexec, hrest⟩⟩
  | thrown newId hunused hexec => exact ⟨newId, hunused, Or.inr ⟨_, hexec⟩⟩

/-- A statement that does the same whatever id is drawn, and does not throw. -/
theorem Finishes.step {store₁ : Store} {next : List Statement}
    (h : Finishes now store (statement :: rest) store')
    (hexec : ∀ newId, exec now newId store statement = (store₁, .ok next)) :
    Finishes now store₁ (next ++ rest) store' := by
  obtain ⟨newId, -, ⟨store₂, next₂, hexec₂, hrest⟩ | ⟨failure, hexec₂⟩⟩ := h.inv
  · obtain ⟨rfl, hnext⟩ := Prod.mk.inj ((hexec newId).symm.trans hexec₂)
    obtain rfl := Except.ok.inj hnext
    exact hrest
  · cases (Prod.mk.inj ((hexec newId).symm.trans hexec₂)).2

/-- `syncEmployeeRoleClaims` at the end of a call. -/
theorem Finishes.of_settle {userId : Uuid} (h : Finishes now store (settle userId) store') :
    store'.tables = RoleAssignmentDrizzleRepository.storeRoleKeys userId
      (RoleAssignmentDrizzleRepository.roleKeys store.tables now userId) now store.tables := by
  have hselected := h.step fun _ => rfl
  have hupdated := hselected.step fun _ => rfl
  have hinvalidated := hupdated.step fun _ => rfl
  cases hinvalidated with
  | nil => rfl

theorem Finishes.of_revoke {id : Uuid} (h : Finishes now store (.revoke id :: rest) store') :
    Finishes now { store with tables := RoleAssignmentDrizzleRepository.revoke id store.tables }
      rest store' :=
  h.step fun _ => rfl

/-- `assign` of an existing role: the assignment is there already, or it is inserted. -/
theorem Finishes.of_grant {input : AssignRoleInput}
    (hrole : ∃ role ∈ store.tables.roles, role.id = input.roleId)
    (h : Finishes now store (.findEquivalent input :: rest) store') :
    (RoleAssignmentDrizzleRepository.findEquivalent store.tables input ≠ none ∧
        Finishes now store rest store') ∨
      ∃ newId userRoleAssignments, store.tables.userRoleAssignments.find newId = none ∧
        RoleAssignmentDrizzleRepository.findEquivalent store.tables input = none ∧
        userRoleAssignments.rows = store.tables.userRoleAssignments.rows ++
          [RoleAssignmentDrizzleRepository.row input newId] ∧
        Finishes now { store with
          tables := { store.tables with userRoleAssignments := userRoleAssignments } } rest store' := by
  cases hfind : RoleAssignmentDrizzleRepository.findEquivalent store.tables input with
  | some a =>
    have hexec : ∀ newId, exec now newId store (.findEquivalent input) = (store, .ok []) :=
      fun newId => by simp only [exec, hfind]
    exact Or.inl ⟨by simp, h.step hexec⟩
  | none =>
    have hexec : ∀ newId,
        exec now newId store (.findEquivalent input) = (store, .ok [.insert input]) :=
      fun newId => by simp only [exec, hfind]
    obtain ⟨newId, hunused, hcase⟩ := (h.step hexec).inv
    obtain ⟨userRoleAssignments, hrow⟩ := Table.exists_insert
      (r := RoleAssignmentDrizzleRepository.row input newId) hunused
    have hok : RoleAssignmentDrizzleRepository.insert input newId store.tables =
        .ok { store.tables with userRoleAssignments := userRoleAssignments } := by
      simp only [RoleAssignmentDrizzleRepository.insert, Except.bind_eq_ok_iff,
        Outcome.require_eq_ok_iff, Outcome.orThrow_eq_ok_iff, Except.pure_eq_ok_iff]
      exact ⟨(), hrole, (), hfind, userRoleAssignments, hrow, rfl⟩
    refine Or.inr ⟨newId, userRoleAssignments, hunused, rfl,
      (Table.insert_eq_some_iff.1 hrow).2, ?_⟩
    rcases hcase with ⟨store₁, next, hexec, hrest⟩ | ⟨failure, hexec⟩
    · simp only [exec, hok] at hexec
      obtain ⟨rfl, hnext⟩ := Prod.mk.inj hexec
      obtain rfl := Except.ok.inj hnext
      exact hrest
    · simp only [exec, hok] at hexec
      cases (Prod.mk.inj hexec).2

/-- `resolve` at one instant. -/
theorem Finishes.of_resolve {userId : Uuid} {caller : Caller}
    (h : Finishes now store [.getJson userId caller] store') :
    (∃ store₁ next, store₁.tables = store.tables ∧
        caller.resume (store.resolve now userId) = .ok next ∧ Finishes now store₁ next store') ∨
      ((∃ failure, caller.resume (store.resolve now userId) = .error failure) ∧
        store'.tables = store.tables) := by
  cases hget : store.permissions.get now userId with
  | some cached =>
    have hresolve : store.resolve now userId = cached := by rw [Store.resolve, hget]; rfl
    rw [hresolve]
    obtain ⟨newId, -, ⟨store₁, next, hexec, hrest⟩ | ⟨failure, hexec⟩⟩ := h.inv
    · simp only [exec, hget] at hexec
      obtain ⟨rfl, hnext⟩ := Prod.mk.inj hexec
      rw [List.append_nil] at hrest
      exact Or.inl ⟨store, next, rfl, hnext, hrest⟩
    · simp only [exec, hget] at hexec
      obtain ⟨rfl, hfailure⟩ := Prod.mk.inj hexec
      exact Or.inr ⟨⟨failure, hfailure⟩, rfl⟩
  | none =>
    have hresolve : store.resolve now userId = AuthzService.effective store.tables now userId := by
      rw [Store.resolve, hget]
      rfl
    rw [hresolve]
    have hexec : ∀ newId,
        exec now newId store (.getJson userId caller) = (store, .ok [.select userId caller]) :=
      fun newId => by simp only [exec, hget]
    have hset := (h.step hexec).step fun _ => rfl
    obtain ⟨newId, -, ⟨store₁, next, hexec, hrest⟩ | ⟨failure, hexec⟩⟩ := hset.inv
    · obtain ⟨rfl, hnext⟩ := Prod.mk.inj hexec
      have hrest' : Finishes now _ (next ++ []) store' := hrest
      rw [List.append_nil] at hrest'
      refine Or.inl ⟨_, next, ?_, hnext, hrest'⟩
      rfl
    · obtain ⟨rfl, hfailure⟩ := Prod.mk.inj hexec
      refine Or.inr ⟨⟨failure, hfailure⟩, ?_⟩
      rfl

/-- The grants of `syncUserRolesByKeys`: new rows have been added, after which all of them are
there. -/
theorem Finishes.of_grants {inputs : List AssignRoleInput}
    (hroles : ∀ input ∈ inputs, ∃ role ∈ store.tables.roles, role.id = input.roleId)
    (h : Finishes now store (inputs.map .findEquivalent ++ rest) store') :
    ∃ (userRoleAssignments : Table UserRoleAssignment.id) (news : List UserRoleAssignment),
      userRoleAssignments.rows = store.tables.userRoleAssignments.rows ++ news ∧
      (∀ a ∈ news, store.tables.userRoleAssignments.find a.id = none ∧
        ∃ input ∈ inputs, a.userId = input.userId) ∧
      (∀ input ∈ inputs, ∃ a ∈ userRoleAssignments.rows,
        RoleAssignmentDrizzleRepository.grantIndex a =
          some (input.userId, input.roleId, input.scopeType, input.scopeId)) ∧
      Finishes now { store with
        tables := { store.tables with userRoleAssignments := userRoleAssignments } } rest store' := by
  induction inputs generalizing store with
  | nil => exact ⟨_, [], (List.append_nil _).symm, by simp, by simp, h⟩
  | cons input inputs ih =>
    have hrole := hroles input List.mem_cons_self
    have hrest : ∀ i ∈ inputs, ∃ role ∈ store.tables.roles, role.id = i.roleId :=
      fun i hi => hroles i (List.mem_cons_of_mem _ hi)
    rcases h.of_grant hrole with ⟨hfound, hnext⟩ | ⟨newId, added, hunused, -, hadded, hnext⟩
    · -- the assignment is there already
      obtain ⟨a, ha⟩ := Option.ne_none_iff_exists'.1 hfound
      obtain ⟨harow, hindex⟩ := Table.findBy_spec ha
      obtain ⟨table, news, hrows, hnews, hthere, hdone⟩ := ih hrest hnext
      refine ⟨table, news, hrows, fun b hb => ?_, fun i hi => ?_, hdone⟩
      · obtain ⟨hfree, i, hi, huser⟩ := hnews b hb
        exact ⟨hfree, i, List.mem_cons_of_mem _ hi, huser⟩
      · rcases List.mem_cons.1 hi with rfl | hi
        · refine ⟨a, ?_, hindex⟩
          rw [hrows]
          exact List.mem_append_left _ harow
        · exact hthere i hi
    · have hdone := fun hr => ih hr hnext
      obtain ⟨table, news, hrows, hnews, hthere, hdone⟩ := hdone hrest
      simp only [hadded, List.append_assoc, List.singleton_append] at hrows
      refine ⟨table, _ :: news, hrows, fun b hb => ?_, fun i hi => ?_, hdone⟩
      · rcases List.mem_cons.1 hb with rfl | hb
        · exact ⟨hunused, input, List.mem_cons_self, rfl⟩
        · obtain ⟨hfree, i, hi, huser⟩ := hnews b hb
          refine ⟨Table.find_eq_none_iff.2 fun r hr => ?_, i, List.mem_cons_of_mem _ hi, huser⟩
          refine Table.find_eq_none_iff.1 hfree r ?_
          show r ∈ added.rows
          rw [hadded]
          exact List.mem_append_left _ hr
      · rcases List.mem_cons.1 hi with rfl | hi
        · refine ⟨RoleAssignmentDrizzleRepository.row i newId, ?_, rfl⟩
          rw [hrows]
          exact List.mem_append_right _ List.mem_cons_self
        · exact hthere i hi

/-- The revocations of `syncUserRolesByKeys`. -/
theorem Finishes.of_revokes {ids : List Uuid}
    (h : Finishes now store (ids.map .revoke ++ rest) store') :
    Finishes now { store with
      tables := { store.tables with
        userRoleAssignments := store.tables.userRoleAssignments.deleteWhere
          (fun a => decide (a.id ∈ ids)) } } rest store' := by
  induction ids generalizing store with
  | nil =>
    rw [Table.deleteWhere_mem_nil]
    exact h
  | cons id ids ih =>
    have hrest := ih h.of_revoke
    simp only [RoleAssignmentDrizzleRepository.revoke, Table.deleteWhere_mem_cons] at hrest
    exact hrest

end Finishes

/-! ### Every call ends -/

/-- The call can be run to its end from every store. -/
def CanFinish (now : Time) (statements : List Statement) : Prop :=
  ∀ store, ∃ newIds, Whole now newIds store statements

/-- The statement is followed by at most two others whatever it finds, and does not resolve
permissions. -/
def Statement.Short : Statement → Prop
  | .getJson _ _ => False
  | .select _ _ => False
  | .setJson _ _ _ => False
  | .listForUser _ _ _ => False
  | _ => True

section CanFinish

variable {now : Time} {statement : Statement} {statements rest : List Statement}

theorem exists_unused (store : Store) :
    ∃ newId, store.tables.userRoleAssignments.find newId = none := by
  have hbound : ∀ rows : List UserRoleAssignment, ∃ n, ∀ a ∈ rows, a.id < n := by
    intro rows
    induction rows with
    | nil => exact ⟨0, fun a ha => absurd ha List.not_mem_nil⟩
    | cons a rows ih =>
      obtain ⟨n, hn⟩ := ih
      refine ⟨max (a.id + 1) n, fun b hb => ?_⟩
      rcases List.mem_cons.1 hb with rfl | hb
      · exact lt_of_lt_of_le (Nat.lt_succ_self _) (le_max_left _ _)
      · exact lt_of_lt_of_le (hn b hb) (le_max_right _ _)
  obtain ⟨n, hn⟩ := hbound store.tables.userRoleAssignments.rows
  exact ⟨n, Table.find_eq_none_iff.2 fun a ha => (hn a ha).ne⟩

theorem canFinish_nil : CanFinish now [] := fun _ => ⟨[], rfl, trivial⟩

/-- A call can finish if it can after its first statement. -/
theorem canFinish_cons
    (h : ∀ store newId, CanFinish now (advance now newId store (statement :: rest)).2) :
    CanFinish now (statement :: rest) := by
  intro store
  obtain ⟨newId, hunused⟩ := exists_unused store
  obtain ⟨newIds, hend, hmeets⟩ := h store newId (advance now newId store (statement :: rest)).1
  exact ⟨newId :: newIds, hend, hunused, hmeets⟩

/-- What follows a statement that can throw or be the last. -/
theorem canFinish_advance {store : Store} {newId : Uuid}
    (h : ∀ next, (exec now newId store statement).2 = .ok next → CanFinish now (next ++ rest)) :
    CanFinish now (advance now newId store (statement :: rest)).2 := by
  rw [advance]
  split
  · rename_i store' next hexec
    exact h next (by rw [hexec])
  · exact canFinish_nil

theorem canFinish_short_cons (hshort : statement.Short) (hrest : CanFinish now rest) :
    CanFinish now (statement :: rest) := by
  refine canFinish_cons fun store newId => canFinish_advance fun next hnext => ?_
  cases statement with
  | getJson userId caller => exact hshort.elim
  | select userId caller => exact hshort.elim
  | setJson userId effective caller => exact hshort.elim
  | listForUser userId roleKeys actor => exact hshort.elim
  | findEquivalent input =>
    simp only [exec] at hnext
    split at hnext
    · obtain rfl := Except.ok.inj hnext
      exact hrest
    · obtain rfl := Except.ok.inj hnext
      refine canFinish_cons fun store newId => canFinish_advance fun next hnext => ?_
      simp only [exec] at hnext
      split at hnext
      · obtain rfl := Except.ok.inj hnext
        exact hrest
      · cases hnext
  | insert input =>
    simp only [exec] at hnext
    split at hnext
    · obtain rfl := Except.ok.inj hnext
      exact hrest
    · cases hnext
  | revoke id =>
    obtain rfl := Except.ok.inj hnext
    exact hrest
  | selectKeys userId =>
    obtain rfl := Except.ok.inj hnext
    refine canFinish_cons fun store newId => canFinish_advance fun next hnext => ?_
    obtain rfl := Except.ok.inj hnext
    exact hrest
  | updateRoles userId keys =>
    obtain rfl := Except.ok.inj hnext
    exact hrest
  | invalidate userId =>
    obtain rfl := Except.ok.inj hnext
    exact hrest

theorem canFinish_short (h : ∀ x ∈ statements, x.Short) : CanFinish now statements := by
  induction statements with
  | nil => exact canFinish_nil
  | cons statement rest ih =>
    exact canFinish_short_cons (h statement List.mem_cons_self)
      (ih fun x hx => h x (List.mem_cons_of_mem _ hx))

theorem short_settle (userId : Uuid) : ∀ x ∈ settle userId, x.Short := by
  intro x hx
  simp only [settle, List.mem_cons, List.not_mem_nil, or_false] at hx
  rcases hx with rfl | rfl <;> trivial

theorem short_reconcile (tables : Tables) (userId : Uuid) (roleKeys : List String) (actor : Uuid) :
    ∀ x ∈ reconcile tables userId roleKeys actor, x.Short := by
  intro x hx
  simp only [reconcile, List.mem_append, List.mem_map] at hx
  rcases hx with (⟨roleId, -, rfl⟩ | ⟨a, -, rfl⟩) | hx
  · trivial
  · trivial
  · exact short_settle userId x hx

theorem short_resume {caller : Caller} {effective : EffectivePermissions} {next : List Statement}
    (h : caller.resume effective = .ok next) : ∀ x ∈ next, x.Short := by
  cases caller with
  | check =>
    obtain rfl := Except.ok.inj h
    exact List.forall_mem_nil _
  | assignRole command actor role =>
    obtain ⟨-, input, -, rfl⟩ := resume_assignRole_ok h
    exact List.forall_mem_cons.2 ⟨trivial, short_settle _⟩

theorem canFinish_getJson (userId : Uuid) (caller : Caller) :
    CanFinish now [.getJson userId caller] := by
  have hresume : ∀ {effective next}, caller.resume effective = .ok next →
      CanFinish now (next ++ []) := by
    intro effective next hnext
    rw [List.append_nil]
    exact canFinish_short (short_resume hnext)
  refine canFinish_cons fun store newId => canFinish_advance fun next hnext => ?_
  simp only [exec] at hnext
  split at hnext
  · exact hresume hnext
  · obtain rfl := Except.ok.inj hnext
    refine canFinish_cons fun store newId => canFinish_advance fun next hnext => ?_
    obtain rfl := Except.ok.inj hnext
    exact canFinish_cons fun store newId => canFinish_advance fun next hnext => hresume hnext

theorem canFinish_listForUser (userId : Uuid) (roleKeys : List String) (actor : Uuid) :
    CanFinish now [.listForUser userId roleKeys actor] := by
  refine canFinish_cons fun store newId => canFinish_advance fun next hnext => ?_
  obtain rfl := Except.ok.inj hnext
  rw [List.append_nil]
  exact canFinish_short (short_reconcile _ _ _ _)

end CanFinish

end Authz

end OpsHub
