import Mathlib.Data.Nat.Pairing
import OpsHub.Access.Seed

/-!
# Seeding again

The seed may be run on tables that earlier runs have left behind, finished or not.

* `advance_settled`: when everything is there, a statement changes nothing;
* `Settled`, `settled_step`: so do the statements of any number of runs;
* `exists_advance`, `finishes`: a run that is left alone is not refused;
* `seed_settles`: a new run finishes, and nothing changes after it.
-/

namespace OpsHub

namespace Seed

variable {t t' : SeedTables} {d : Defaults} {stage next : Stage} {userId roleId : Uuid}
  {s : SeedState} {i : ℕ}

/-! ### After a run has finished -/

/-- The keys of the roles and the addresses of the employees are unique. -/
structure Keyed (t : SeedTables) : Prop where
  roles : ∀ a ∈ t.roles, ∀ b ∈ t.roles, a.key = b.key → a = b
  employees : ∀ a ∈ t.employees, ∀ b ∈ t.employees, a.email = b.email → a = b

theorem Keyed.grown (h : Keyed t) (hgrown : Grown t t') : Keyed t' where
  roles a ha b hb hkey := by
    refine hgrown.roles.eq_of_clash (i := roleKeyIndex) ?_ ?_ ha hb (role_clash.2 hkey)
    · exact List.mem_cons_of_mem _ List.mem_cons_self
    · exact fun a ha b hb hclash => h.roles a ha b hb (role_clash.1 hclash)
  employees a ha b hb hemail := by
    refine hgrown.employees.eq_of_clash (i := emailIndex) ?_ ?_ ha hb (employee_clash.2 hemail)
    · exact List.mem_cons_of_mem _ List.mem_cons_self
    · exact fun a ha b hb hclash => h.employees a ha b hb (employee_clash.1 hclash)

/-- What belongs together has been assigned. -/
theorem assigned_of_owed (hkeyed : Keyed t) (hcomplete : Complete t)
    (h : Owed t userId roleId) : Assigned t userId roleId := by
  obtain ⟨e, he, row, hrow, hemail, rfl, k, hk, role, hrole, hkey, rfl⟩ := h
  obtain ⟨row', hrow', hemail', hroles⟩ := hcomplete.assignments e he
  obtain ⟨role', hrole', hkey', hnil | hassigned⟩ := hroles k hk
  · cases hnil
  · rwa [hkeyed.employees row hrow row' hrow' (hemail.trans hemail'.symm),
      hkeyed.roles role hrole role' hrole' (hkey.trans hkey'.symm)]

/-- The run stands before an insertion at its end. -/
def Stage.Inserts : Stage → Prop
  | .insertAssignment _ _ _ _ => True
  | _ => False

theorem permissions_quiet (h : HasPermissions t) :
    UniqueIndex.insertAllDoNothing [permissionIndex] (some ⟨["key"], none⟩) t.permissions
      permissions = .ok t.permissions := by
  refine UniqueIndex.insertAll_of_column (i := permissionIndex) ?_ (fun _ _ => permission_clash.2) h
  rw [permission_arbiters]
  exact List.mem_cons_self

theorem roles_quiet (d : Defaults) (h : HasRolePermissions t) :
    UniqueIndex.insertAllDoNothing roleIndexes (some ⟨["key"], none⟩) t.roles (roleRows d) =
      .ok t.roles := by
  refine UniqueIndex.insertAll_of_column (i := roleKeyIndex) ?_ (fun _ _ => role_clash.2) ?_
  · rw [role_arbiters]
    exact List.mem_cons_self
  · intro role hrole
    obtain ⟨r, hr, hkey, -⟩ := mem_roleRows hrole
    obtain ⟨role', hrole', hkey', -⟩ := h r hr
    exact ⟨role', hrole', hkey'.trans hkey.symm⟩

theorem rolePermissions_quiet {ids : List (String × Uuid)} (hkeyed : Keyed t)
    (hids : RoleIds t ids) (h : HasRolePermissions t) :
    UniqueIndex.insertAllDoNothing [rolePermissionIndex]
      (some ⟨["role_id", "permission_key"], none⟩) t.rolePermissions (rolePermValues ids) =
        .ok t.rolePermissions := by
  refine UniqueIndex.insertAll_of_column (i := rolePermissionIndex) ?_
    (fun _ _ => rolePermission_clash.2) fun rp hrp => ⟨rp, ?_, rfl⟩
  · rw [rolePermission_arbiters]
    exact List.mem_cons_self
  · obtain ⟨r, hr, hid, hp⟩ := mem_rolePermValues.1 hrp
    obtain ⟨role, hrole, hkey, hroleId⟩ := hids.2 r.key rp.roleId hid
    obtain ⟨role', hrole', hkey', hpermissions⟩ := h r hr
    obtain rfl := hkeyed.roles role hrole role' hrole' (hkey.trans hkey'.symm)
    have hmem := hpermissions rp.permissionKey hp
    rwa [hroleId] at hmem

theorem employees_quiet (d : Defaults) (h : HasAssignments t []) :
    UniqueIndex.insertAllDoNothing employeeIndexes (some ⟨["email"], none⟩) t.employees
      (employeeRows d) = .ok t.employees := by
  refine UniqueIndex.insertAll_of_column (i := emailIndex) ?_ (fun _ _ => employee_clash.2) ?_
  · rw [employee_arbiters]
    exact List.mem_cons_self
  · intro row hrow
    obtain ⟨e, he, hemail, -⟩ := mem_employeeRows hrow
    obtain ⟨row', hrow', hemail', -⟩ := h e he
    exact ⟨row', hrow', hemail'.trans hemail.symm⟩

/-- A second assignment is refused. -/
theorem insertRow_assigned {a : UserRoleAssignment} (h : Assigned t a.userId a.roleId)
    (htype : a.scopeType = .global) (hid : a.scopeId = none) :
    UniqueIndex.insertRow assignmentIndexes t.userRoleAssignments a = .error .duplicateKey := by
  obtain ⟨x, hx, huser, hrole, hxtype, hxid⟩ := h
  refine if_pos ⟨globalIndex, List.mem_cons_of_mem _ List.mem_cons_self, x, hx, ?_⟩
  simp [UniqueIndex.Clash, globalIndex, huser, hrole, htype, hxtype, hid, hxid]

/-- A statement that finds everything there changes nothing; only the insertion of an assignment
fails then. -/
theorem advance_settled (d : Defaults) (hkeyed : Keyed t) (hcomplete : Complete t)
    (h : Reached t stage) :
    (∃ next, advance d t stage = some (t, next) ∧ ¬ next.Inserts) ∨
      stage.Inserts ∧ advance d t stage = none := by
  cases stage with
  | insertPermissions =>
    refine Or.inl ⟨.insertRoles, ?_, id⟩
    rw [advance, permissions_quiet hcomplete.permissions]
    rfl
  | insertRoles =>
    refine Or.inl ⟨.selectRoles, ?_, id⟩
    rw [advance, roles_quiet d hcomplete.rolePermissions]
    rfl
  | selectRoles =>
    refine Or.inl ⟨_, rfl, ?_⟩
    split <;> exact id
  | insertRolePermissions ids =>
    refine Or.inl ⟨.insertEmployees ids, ?_, id⟩
    have hnone : References t (t.rolePermissions.drop t.rolePermissions.length) := by
      rw [List.drop_length]
      exact fun rp hrp => absurd hrp List.not_mem_nil
    rw [advance, rolePermissions_quiet hkeyed h.2 hcomplete.rolePermissions]
    exact if_pos hnone
  | insertEmployees ids =>
    refine Or.inl ⟨.selectEmployees ids, ?_, id⟩
    rw [advance, employees_quiet d hcomplete.assignments]
    rfl
  | selectEmployees ids => exact Or.inl ⟨_, rfl, id⟩
  | selectAssignment adminId todo =>
    cases todo with
    | nil => exact Or.inl ⟨.done, rfl, id⟩
    | cons g todo =>
      have hassigned := assigned_of_owed hkeyed hcomplete (h.owed g List.mem_cons_self)
      exact Or.inl ⟨.selectAssignment adminId todo, by rw [advance, if_pos hassigned], id⟩
  | insertAssignment adminId userId roleId todo =>
    have hassigned := assigned_of_owed hkeyed hcomplete (h.owed _ List.mem_cons_self)
    refine Or.inr ⟨trivial, ?_⟩
    rw [advance, insertRow_assigned hassigned rfl rfl]
    rfl
  | done => exact Or.inl ⟨.done, rfl, id⟩

/-- The invariant after a run has finished: the tables stay, and run `i` does not fail, unless it is
stopped. -/
structure Settled (t : SeedTables) (i : ℕ) (unstopped : Prop) (s : SeedState) : Prop where
  tables : s.tables = t
  reached : ∀ stage, some stage ∈ s.runs → Reached t stage
  running : unstopped → i < s.runs.length →
    ∃ stage, Pool.running s.runs i = some stage ∧ ¬ stage.Inserts

variable {unstopped : Prop}

/-- Another run ends. -/
theorem Settled.set_none {j : ℕ} (h : Settled t i unstopped s) (hij : unstopped → i ≠ j) :
    Settled t i unstopped { s with runs := s.runs.set j none } := by
  refine ⟨h.tables, fun stage hstage => ?_, fun hun hi => ?_⟩
  · rcases List.mem_or_eq_of_mem_set hstage with hstage | heq
    · exact h.reached stage hstage
    · cases heq
  · dsimp only at hi ⊢
    rw [List.length_set] at hi
    rw [Pool.running_set_none, if_neg (hij hun)]
    exact h.running hun hi

theorem settled_step (hkeyed : Keyed t) (hcomplete : Complete t) (h : Settled t i unstopped s)
    {e : SeedEvent} (he : unstopped → e ≠ .stop i) : Settled t i unstopped (step s e) := by
  cases e with
  | start =>
    refine ⟨h.tables, fun stage hstage => ?_, fun hun hi => ?_⟩
    · rcases List.mem_append.1 hstage with hstage | hstage
      · exact h.reached stage hstage
      · obtain rfl := Option.some.inj (List.mem_singleton.1 hstage)
        trivial
    · show ∃ stage, Pool.running (s.runs ++ [some .insertPermissions]) i = some stage ∧ _
      rw [Pool.running_append]
      by_cases hnew : i = s.runs.length
      · exact ⟨.insertPermissions, if_pos hnew, id⟩
      · rw [if_neg hnew]
        have hlength : i < (s.runs ++ [some Stage.insertPermissions]).length := hi
        rw [List.length_append, List.length_singleton] at hlength
        exact h.running hun (by omega)
  | advance j d =>
    unfold step
    dsimp only
    split
    · exact h
    · rename_i stage hrunning
      have hreached := h.reached stage (Pool.mem_of_running hrunning)
      rw [h.tables]
      rcases advance_settled d hkeyed hcomplete hreached with
        ⟨next, hadvance, hnext⟩ | ⟨hinserts, hadvance⟩
      · simp only [hadvance]
        refine ⟨rfl, fun stage' hstage' => ?_, fun hun hi => ?_⟩
        · rcases List.mem_or_eq_of_mem_set hstage' with hstage' | heq
          · exact h.reached stage' hstage'
          · obtain rfl := Option.some.inj heq
            exact (advance_spec hreached hadvance).2
        · dsimp only at hi ⊢
          rw [List.length_set] at hi
          rw [Pool.running_set hrunning]
          by_cases hij : i = j
          · exact ⟨next, if_pos hij, hnext⟩
          · rw [if_neg hij]
            exact h.running hun hi
      · -- the run that fails is not run `i`
        have hij : unstopped → i ≠ j := by
          rintro hun rfl
          obtain ⟨stage', hrunning', hnot⟩ := h.running hun (Pool.running_lt hrunning)
          obtain rfl := Option.some.inj (hrunning.symm.trans hrunning')
          exact hnot hinserts
        simp only [hadvance]
        exact h.tables ▸ h.set_none hij
  | stop j =>
    refine h.set_none fun hun hij => he hun ?_
    rw [hij]

/-! ### A run that is left alone -/

/-- The ids are new. -/
structure Fresh (d : ℕ → Defaults) (t : SeedTables) : Prop where
  distinct : ∀ k i k' i', (d k).id i = (d k').id i' → k = k' ∧ i = i'
  roles : ∀ k i, ∀ r ∈ t.roles, r.id ≠ (d k).id i
  employees : ∀ k i, ∀ e ∈ t.employees, e.id ≠ (d k).id i
  assignments : ∀ k i, ∀ a ∈ t.userRoleAssignments, a.id ≠ (d k).id i

/-- The statements of one run. -/
def alone (d : ℕ → Defaults) : ℕ → SeedTables → Stage → Option (SeedTables × Stage)
  | 0, t, stage => some (t, stage)
  | n + 1, t, stage => (advance (d 0) t stage).bind fun r => alone (fun k => d (k + 1)) n r.1 r.2

/-- The run finishes. -/
def Finishes (d : ℕ → Defaults) (t : SeedTables) (stage : Stage) : Prop :=
  ∃ n t', alone d n t stage = some (t', .done)

theorem Finishes.step {d : ℕ → Defaults} (hadvance : advance (d 0) t stage = some (t', next))
    (h : Finishes (fun k => d (k + 1)) t' next) : Finishes d t stage := by
  obtain ⟨n, t'', hn⟩ := h
  exact ⟨n + 1, t'', by rw [alone, hadvance]; exact hn⟩

section Ids

variable {d : ℕ → Defaults}

/-- The ids of the later statements are new when the rows have got ids of the first. -/
theorem Fresh.tail (h : Fresh d t)
    (hroles : ∀ r ∈ t'.roles, r ∈ t.roles ∨ ∃ i, r.id = (d 0).id i)
    (hemployees : ∀ e ∈ t'.employees, e ∈ t.employees ∨ ∃ i, e.id = (d 0).id i)
    (hassignments : ∀ a ∈ t'.userRoleAssignments,
      a ∈ t.userRoleAssignments ∨ ∃ i, a.id = (d 0).id i) : Fresh (fun k => d (k + 1)) t' := by
  have hne : ∀ k i j, (d 0).id j ≠ (d (k + 1)).id i := fun k i j heq =>
    absurd (h.distinct 0 j (k + 1) i heq).1 (Nat.succ_ne_zero k).symm
  refine ⟨fun k i k' i' heq => ?_, fun k i r hr => ?_, fun k i e he => ?_, fun k i a ha => ?_⟩
  · obtain ⟨hk, hi⟩ := h.distinct (k + 1) i (k' + 1) i' heq
    exact ⟨Nat.succ.inj hk, hi⟩
  · rcases hroles r hr with hr | ⟨j, hj⟩
    · exact h.roles (k + 1) i r hr
    · exact hj ▸ hne k i j
  · rcases hemployees e he with he | ⟨j, hj⟩
    · exact h.employees (k + 1) i e he
    · exact hj ▸ hne k i j
  · rcases hassignments a ha with ha | ⟨j, hj⟩
    · exact h.assignments (k + 1) i a ha
    · exact hj ▸ hne k i j

/-- No row has been added that has an id. -/
theorem Fresh.skip (h : Fresh d t) (hroles : t'.roles = t.roles)
    (hemployees : t'.employees = t.employees)
    (hassignments : t'.userRoleAssignments = t.userRoleAssignments) :
    Fresh (fun k => d (k + 1)) t' := by
  refine h.tail (fun r hr => Or.inl ?_) (fun e he => Or.inl ?_) fun a ha => Or.inl ?_
  · rwa [← hroles]
  · rwa [← hemployees]
  · rwa [← hassignments]

theorem exists_insertPermissions (t : SeedTables) :
    ∃ rows, UniqueIndex.insertAllDoNothing [permissionIndex] (some ⟨["key"], none⟩) t.permissions
      permissions = .ok rows := by
  refine UniqueIndex.exists_insertAll ?_ ?_ (List.pairwise_of_forall fun x r => ?_)
  · exact Or.inr (by rw [permission_arbiters]; exact List.cons_ne_nil _ _)
  · rw [permission_arbiters]
    exact fun r _ x _ i hi _ => hi
  · rw [permission_arbiters]
    exact fun i hi _ => hi

theorem exists_insertRolePermissions (t : SeedTables) (ids : List (String × Uuid)) :
    ∃ rows, UniqueIndex.insertAllDoNothing [rolePermissionIndex]
      (some ⟨["role_id", "permission_key"], none⟩) t.rolePermissions (rolePermValues ids) =
        .ok rows := by
  refine UniqueIndex.exists_insertAll ?_ ?_ (List.pairwise_of_forall fun x r => ?_)
  · exact Or.inr (by rw [rolePermission_arbiters]; exact List.cons_ne_nil _ _)
  · rw [rolePermission_arbiters]
    exact fun r _ x _ i hi _ => hi
  · rw [rolePermission_arbiters]
    exact fun i hi _ => hi

/-- The ids of the rows of one statement differ. -/
theorem pairwise_mapIdx {α ρ : Type} {l : List α} {f : ℕ → α → ρ} {R : ρ → ρ → Prop}
    (h : ∀ i j a b, i < j → R (f i a) (f j b)) : (l.mapIdx f).Pairwise R := by
  rw [List.pairwise_iff_getElem]
  intro i j hi hj hij
  rw [List.getElem_mapIdx, List.getElem_mapIdx]
  exact h i j _ _ hij

theorem exists_insertRoles (h : Fresh d t) :
    ∃ rows, UniqueIndex.insertAllDoNothing roleIndexes (some ⟨["key"], none⟩) t.roles
      (roleRows (d 0)) = .ok rows := by
  have hkey : ∀ x r : Role, x.id ≠ r.id → ∀ i ∈ roleIndexes, i.Clash x r →
      i ∈ UniqueIndex.arbiters roleIndexes (some ⟨["key"], none⟩) := by
    intro x r hne i hi hclash
    rw [role_arbiters]
    rcases List.mem_cons.1 hi with rfl | hi
    · exact absurd (Sum.inr.inj (Option.some.inj hclash.2)) hne
    · exact hi
  refine UniqueIndex.exists_insertAll ?_ (fun r hr x hx => hkey x r ?_) ?_
  · exact Or.inr (by rw [role_arbiters]; exact List.cons_ne_nil _ _)
  · obtain ⟨i, hi, rfl⟩ := List.mem_mapIdx.1 hr
    exact h.roles 0 i x hx
  · refine pairwise_mapIdx fun i j a b hij => hkey _ _ fun heq => ?_
    exact absurd (h.distinct 0 i 0 j heq).2 (Nat.ne_of_lt hij)

theorem exists_insertEmployees (h : Fresh d t) :
    ∃ rows, UniqueIndex.insertAllDoNothing employeeIndexes (some ⟨["email"], none⟩) t.employees
      (employeeRows (d 0)) = .ok rows := by
  have hemail : ∀ x r : EmployeeRow, x.id ≠ r.id → r.entraOid = none → ∀ i ∈ employeeIndexes,
      i.Clash x r → i ∈ UniqueIndex.arbiters employeeIndexes (some ⟨["email"], none⟩) := by
    intro x r hne hoid i hi hclash
    rw [employee_arbiters]
    rcases List.mem_cons.1 hi with rfl | hi
    · exact absurd (Sum.inr.inj (Option.some.inj hclash.2)) hne
    · rcases List.mem_cons.1 hi with rfl | hi
      · exact List.mem_cons_self
      · -- an employee without an oid is left out of the last index
        obtain rfl := List.mem_singleton.1 hi
        refine absurd (hclash.2.trans ?_) hclash.1
        simp [hoid]
  refine UniqueIndex.exists_insertAll ?_ (fun r hr x hx => ?_) ?_
  · exact Or.inr (by rw [employee_arbiters]; exact List.cons_ne_nil _ _)
  · obtain ⟨i, hi, rfl⟩ := List.mem_mapIdx.1 hr
    exact hemail x _ (h.employees 0 i x hx) rfl
  · refine pairwise_mapIdx fun i j a b hij => hemail _ _ (fun heq => ?_) rfl
    exact absurd (h.distinct 0 i 0 j heq).2 (Nat.ne_of_lt hij)

/-- A new assignment is not refused. -/
theorem insertRow_new (h : Fresh d t) (hassigned : ¬ Assigned t userId roleId) (grantedBy : Uuid) :
    let a : UserRoleAssignment :=
      ⟨(d 0).id 0, userId, roleId, .global, none, grantedBy, none⟩
    UniqueIndex.insertRow assignmentIndexes t.userRoleAssignments a =
      .ok (t.userRoleAssignments ++ [a]) := by
  intro a
  refine if_neg ?_
  rintro ⟨i, hi, x, hx, hclash⟩
  simp only [assignmentIndexes, List.mem_cons, List.not_mem_nil, or_false] at hi
  rcases hi with rfl | rfl | rfl
  · exact h.assignments 0 0 x hx (Sum.inl.inj (Option.some.inj hclash.2))
  · have hentry : globalIndex.entry a = some (.inr (userId, roleId, .global, none)) := rfl
    have hx' := hclash.2.trans hentry
    simp only [globalIndex, Option.ite_none_right_eq_some, Option.some.injEq, Sum.inr.injEq,
      Prod.mk.injEq, and_true] at hx'
    exact hassigned ⟨x, hx, hx'.2.1, hx'.2.2.1, hx'.2.2.2, hx'.1⟩
  · exact hclash.1 (hclash.2.trans rfl)

/-- The loops at the end. -/
theorem finishes_loop {adminId : Option Uuid} {todo : List (Uuid × Uuid)} (hfresh : Fresh d t)
    (h : Ending t adminId todo) : Finishes d t (.selectAssignment adminId todo) := by
  induction todo generalizing d t with
  | nil => exact ⟨1, t, rfl⟩
  | cons g todo ih =>
    obtain ⟨userId, roleId⟩ := g
    have hskip : Fresh (fun k => d (k + 1)) t := hfresh.skip rfl rfl rfl
    by_cases hassigned : Assigned t userId roleId
    · have hadvance : advance (d 0) t (.selectAssignment adminId ((userId, roleId) :: todo)) =
          some (t, .selectAssignment adminId todo) := by rw [advance, if_pos hassigned]
      exact Finishes.step hadvance (ih hskip (h.tail hassigned))
    · have hselect : advance (d 0) t (.selectAssignment adminId ((userId, roleId) :: todo)) =
          some (t, .insertAssignment adminId userId roleId todo) := by rw [advance, if_neg hassigned]
      obtain ⟨e, he, row, hrow, hemail, hid, k, hk, role, hrole, hkey, hroleId⟩ :=
        h.owed (userId, roleId) List.mem_cons_self
      have hinsert : advance (d 1) t (.insertAssignment adminId userId roleId todo) =
          some ({ t with userRoleAssignments := t.userRoleAssignments ++
            [⟨(d 1).id 0, userId, roleId, .global, none, adminId.getD userId, none⟩] },
            .selectAssignment adminId todo) := by
        rw [advance, insertRow_new hskip hassigned]
        exact if_pos ⟨role, hrole, hroleId⟩
      have hreached : Reached t (.insertAssignment adminId userId roleId todo) := h
      have hending := (advance_spec hreached hinsert).2
      refine Finishes.step hselect (Finishes.step hinsert (ih (hskip.tail ?_ ?_ ?_) hending))
      · exact fun r hr => Or.inl hr
      · exact fun e he => Or.inl he
      · intro a ha
        rcases List.mem_append.1 ha with ha | ha
        · exact Or.inl ha
        · obtain rfl := List.mem_singleton.1 ha
          exact Or.inr ⟨0, rfl⟩

/-- The foreign keys of the values. -/
theorem references_values {ids : List (String × Uuid)} {rows : List RolePermission}
    (hpermissions : HasPermissions t) (hids : RoleIds t ids)
    (hrows : UniqueIndex.insertAllDoNothing [rolePermissionIndex]
      (some ⟨["role_id", "permission_key"], none⟩) t.rolePermissions (rolePermValues ids) =
        .ok rows) : References t (rows.drop t.rolePermissions.length) := by
  refine UniqueIndex.Seeded.forall_mem_drop (UniqueIndex.seeded_insertAll hrows fun rp hrp => ?_)
  obtain ⟨r, hr, hid, hp⟩ := mem_rolePermValues.1 hrp
  obtain ⟨role, hrole, -, hroleId⟩ := hids.2 r.key rp.roleId hid
  obtain ⟨p, hmem, hkey⟩ := permissions_of_roles r hr rp.permissionKey hp
  obtain ⟨q, hq, hqkey⟩ := hpermissions p hmem
  exact ⟨⟨role, hrole, hroleId⟩, q, hq, hqkey.trans hkey⟩

/-- How many statements come before the loops. -/
def Stage.rank : Stage → ℕ
  | .insertPermissions => 6
  | .insertRoles => 5
  | .selectRoles => 4
  | .insertRolePermissions _ => 3
  | .insertEmployees _ => 2
  | .selectEmployees _ => 1
  | _ => 0

/-- A statement before the loops is carried out. -/
theorem exists_advance (hfresh : Fresh d t) (h : Reached t stage) (hrank : 0 < stage.rank) :
    ∃ t' next, advance (d 0) t stage = some (t', next) ∧ Fresh (fun k => d (k + 1)) t' ∧
      next.rank < stage.rank ∧ ¬ next.Inserts := by
  cases stage with
  | insertPermissions =>
    obtain ⟨rows, hrows⟩ := exists_insertPermissions t
    refine ⟨{ t with permissions := rows }, .insertRoles, ?_, hfresh.skip rfl rfl rfl, ?_, id⟩
    · rw [advance, hrows]
      rfl
    · decide
  | insertRoles =>
    obtain ⟨rows, hrows⟩ := exists_insertRoles hfresh
    refine ⟨{ t with roles := rows }, .selectRoles, ?_, ?_, by decide, id⟩
    · rw [advance, hrows]
      rfl
    · have hids : ∀ r ∈ roleRows (d 0), ∃ i, r.id = (d 0).id i := fun r hr => by
        obtain ⟨i, hi, rfl⟩ := List.mem_mapIdx.1 hr
        exact ⟨i, rfl⟩
      refine hfresh.tail (fun r hr => ?_) (fun e he => Or.inl he) fun a ha => Or.inl ha
      exact (UniqueIndex.seeded_insertAll hrows hids).mem_or hr
  | selectRoles =>
    refine ⟨t, _, rfl, hfresh.skip rfl rfl rfl, ?_, ?_⟩
    · split <;> simp [Stage.rank]
    · split <;> exact id
  | insertRolePermissions ids =>
    obtain ⟨rows, hrows⟩ := exists_insertRolePermissions t ids
    refine ⟨{ t with rolePermissions := rows }, .insertEmployees ids, ?_,
      hfresh.skip rfl rfl rfl, by simp [Stage.rank], id⟩
    rw [advance, hrows]
    exact if_pos (references_values h.1 h.2 hrows)
  | insertEmployees ids =>
    obtain ⟨rows, hrows⟩ := exists_insertEmployees hfresh
    refine ⟨{ t with employees := rows }, .selectEmployees ids, ?_, ?_, by simp [Stage.rank], id⟩
    · rw [advance, hrows]
      rfl
    · have hids : ∀ e ∈ employeeRows (d 0), ∃ i, e.id = (d 0).id i := fun e he => by
        obtain ⟨i, hi, rfl⟩ := List.mem_mapIdx.1 he
        exact ⟨i, rfl⟩
      refine hfresh.tail (fun r hr => Or.inl hr) (fun e he => ?_) fun a ha => Or.inl ha
      exact (UniqueIndex.seeded_insertAll hrows hids).mem_or he
  | selectEmployees ids =>
    exact ⟨t, _, rfl, hfresh.skip rfl rfl rfl, by simp [Stage.rank], id⟩
  | selectAssignment adminId todo => exact absurd hrank (Nat.lt_irrefl 0)
  | insertAssignment adminId userId roleId todo => exact absurd hrank (Nat.lt_irrefl 0)
  | done => exact absurd hrank (Nat.lt_irrefl 0)

/-- A run that is left alone finishes. -/
theorem finishes (hfresh : Fresh d t) (h : Reached t stage) (hinserts : ¬ stage.Inserts) :
    Finishes d t stage := by
  induction hn : stage.rank using Nat.strongRecOn generalizing d t stage with
  | ind n ih =>
    subst hn
    by_cases hrank : 0 < stage.rank
    · obtain ⟨t', next, hadvance, hfresh', hlt, hnext⟩ := exists_advance hfresh h hrank
      exact .step hadvance (ih next.rank hlt hfresh' (advance_spec h hadvance).2 hnext rfl)
    · cases stage with
      | selectAssignment adminId todo => exact finishes_loop hfresh h
      | insertAssignment adminId userId roleId todo => exact absurd trivial hinserts
      | done => exact ⟨0, t, rfl⟩
      | _ => exact absurd (by simp [Stage.rank]) hrank

/-- In the pool. -/
theorem run_advances {n : ℕ} (h : Pool.running s.runs i = some stage)
    (halone : alone d n s.tables stage = some (t', next)) :
    let s' := Runs.run step s ((List.range n).map fun k => .advance i (d k))
    s'.tables = t' ∧ Pool.running s'.runs i = some next := by
  induction n generalizing s d stage with
  | zero =>
    cases halone
    exact ⟨rfl, h⟩
  | succ n ih =>
    obtain ⟨⟨t₁, stage₁⟩, hadvance, hrest⟩ := Option.bind_eq_some_iff.1 halone
    have hstep : step s (.advance i (d 0)) = ⟨t₁, s.runs.set i (some stage₁)⟩ := by
      simp only [step, h, hadvance]
    rw [List.range_succ_eq_map, List.map_cons, List.map_map, Runs.run_cons, hstep]
    refine ih ?_ hrest
    rw [Pool.running_set h, if_pos rfl]

end Ids

/-! ### Both together -/

/-- Tables whose unique indexes on the keys are obeyed. -/
structure Directory where
  tables : SeedTables
  keyed : Keyed tables

/-- Ids that no row of the tables has. -/
structure NewIds (t : SeedTables) where
  defaults : ℕ → Defaults
  fresh : Fresh defaults t

/-- **The seed settles.**  Whatever earlier runs have left behind, a new one that is left alone
finishes, and everything is there.  From then on no run changes a table, in any order of their
statements, and none that starts then fails. -/
theorem seed_settles (init : Directory) (es : List SeedEvent)
    (ids : NewIds (Runs.run step ⟨init.tables, []⟩ es).tables) :
    ∃ n, let i := (Runs.run step ⟨init.tables, []⟩ es).runs.length
      let s := Runs.run step ⟨init.tables, []⟩
        (es ++ .start :: (List.range n).map fun k => .advance i (ids.defaults k))
      Pool.running s.runs i = some .done ∧ Complete s.tables ∧
        ∀ fs, (Runs.run step s fs).tables = s.tables ∧
          ∀ j, s.runs.length ≤ j → j < (Runs.run step s fs).runs.length → .stop j ∉ fs →
            Pool.running (Runs.run step s fs).runs j ≠ none := by
  have hbegin : Reached (Runs.run step ⟨init.tables, []⟩ es).tables .insertPermissions := trivial
  obtain ⟨n, t', halone⟩ := finishes ids.fresh hbegin id
  refine ⟨n, ?_⟩
  intro i s
  have hs : s = Runs.run step (step (Runs.run step ⟨init.tables, []⟩ es) .start)
      ((List.range n).map fun k => .advance i (ids.defaults k)) := Runs.run_append _ _ es _
  have hstart : Pool.running (step (Runs.run step ⟨init.tables, []⟩ es) .start).runs i =
      some .insertPermissions := by
    show Pool.running (_ ++ [_]) i = _
    rw [Pool.running_append, if_pos rfl]
  obtain ⟨htables, hdone⟩ := run_advances hstart halone
  rw [← hs] at htables hdone
  have hstanding : Standing init.tables s := standing_run init.tables _
  have hcomplete : Complete s.tables := hstanding.reached .done (Pool.mem_of_running hdone)
  have hkeyed : Keyed s.tables := init.keyed.grown hstanding.grown
  refine ⟨hdone, hcomplete, fun fs => ?_⟩
  have hsettled : ∀ j, s.runs.length ≤ j → Settled s.tables j (.stop j ∉ fs) (Runs.run step s fs) := by
    intro j hj
    have hinit : Settled s.tables j (.stop j ∉ fs) s :=
      ⟨rfl, hstanding.reached, fun _ hlt => absurd hlt (Nat.not_lt_of_le hj)⟩
    have hstep : ∀ (s' : SeedState) e, Settled s.tables j (.stop j ∉ fs) s' → e ∈ fs →
        Settled s.tables j (.stop j ∉ fs) (step s' e) := fun s' e h he =>
      settled_step hkeyed hcomplete h fun hun heq => hun (heq ▸ he)
    exact Runs.run_induction hstep hinit (Runs.meets_of_mem (fun _ he => he) s)
  refine ⟨(hsettled s.runs.length (Nat.le_refl _)).tables, fun j hj hlt hun => ?_⟩
  obtain ⟨stage, hstage, -⟩ := (hsettled j hj).running hun hlt
  rw [hstage]
  exact Option.some_ne_none stage

/-! ### After a run that was interrupted -/

namespace Interrupted

/-- A new database. -/
def empty : Directory := ⟨⟨[], [], [], [], []⟩, by constructor <;> simp⟩

/-- A run is stopped when it has inserted the roles. -/
def events : List SeedEvent := [.start, .advance 0 ⟨id, 0⟩, .advance 0 ⟨id, 0⟩, .stop 0]

/-- What it leaves behind. -/
theorem left : (Runs.run step ⟨empty.tables, []⟩ events).tables =
    ⟨permissions, roleRows ⟨id, 0⟩, [], [], []⟩ := by
  have hpermissions : UniqueIndex.insertAllDoNothing [permissionIndex] (some ⟨["key"], none⟩) []
      permissions = .ok permissions := by decide +kernel
  have hroles : UniqueIndex.insertAllDoNothing roleIndexes (some ⟨["key"], none⟩) []
      (roleRows ⟨id, 0⟩) = .ok (roleRows ⟨id, 0⟩) := by decide +kernel
  simp only [events, Runs.run_cons, Runs.run_nil, step, Pool.running, empty, advance, hpermissions,
    hroles]
  rfl

/-- Ids of other statements. -/
def newIds : NewIds (Runs.run step ⟨empty.tables, []⟩ events).tables where
  defaults k := ⟨fun i => 100 + Nat.pair k i, 0⟩
  fresh := by
    rw [left]
    constructor
    · intro k i k' i' heq
      exact Nat.pair_eq_pair.1 (Nat.add_left_cancel heq)
    · intro k i r hr heq
      have hsmall : ∀ r ∈ roleRows ⟨id, 0⟩, r.id < 100 := by decide
      exact absurd (heq ▸ hsmall r hr) (Nat.not_lt.2 (Nat.le_add_right 100 _))
    · simp
    · simp

/-- A second run has everything there, and nothing changes after it. -/
theorem seed_settles_interrupted :
    ∃ n, let s := Runs.run step ⟨empty.tables, []⟩
          (events ++ .start :: (List.range n).map fun k => .advance 1 (newIds.defaults k))
      Complete s.tables ∧ ∀ fs, (Runs.run step s fs).tables = s.tables := by
  obtain ⟨n, -, hcomplete, hsame⟩ := seed_settles empty events newIds
  exact ⟨n, hcomplete, fun fs => (hsame fs).1⟩

end Interrupted

end Seed

end OpsHub
