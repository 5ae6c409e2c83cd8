import OpsHub.Access.GrantCover
import OpsHub.Access.RoleClaims

/-!
# The roles of an identity provider

`syncUserRolesByKeys` makes the global assignments of a user agree with a list of role keys.  It
reads all global assignments of the user, and those that have expired count as present.

* `Completes.of_grants`, `Completes.of_revokes`: the two loops of the call;
* `synced_of_completes`: the rows that a completed call leaves;
* `Synced`: the unexpired global roles are those of the keys, and the call does nothing else;
* `NoneLapsed`: the condition, that no role of the list has lapsed;
* `synced_iff`: the roles are synced exactly if none of the list has lapsed.
-/

namespace OpsHub

namespace Authz

/-- What an assignment grants, without its id. -/
def content (a : UserRoleAssignment) : AssignRoleInput where
  userId := a.userId
  roleId := a.roleId
  scopeType := a.scopeType
  scopeId := a.scopeId
  grantedBy := a.grantedBy
  expiresAt := a.expiresAt

@[simp] theorem content_row (input : AssignRoleInput) (newId : Uuid) :
    content (RoleAssignmentDrizzleRepository.row input newId) = input := rfl

section Completes

variable {now now' : Time} {store store' : Store} {rest : List Statement}

/-- The columns of the two unique indexes, of an input. -/
def inputIndex (input : AssignRoleInput) : Uuid × Uuid × ScopeType × Option String :=
  (input.userId, input.roleId, input.scopeType, input.scopeId)

theorem findEquivalent_eq_none_iff {tables : Tables} {input : AssignRoleInput} :
    RoleAssignmentDrizzleRepository.findEquivalent tables input = none ↔
      ∀ a ∈ tables.userRoleAssignments.rows, inputIndex (content a) ≠ inputIndex input := by
  rw [RoleAssignmentDrizzleRepository.findEquivalent, Table.findBy_eq_none_iff]
  exact forall₂_congr fun a _ => (Option.some_injective _).ne_iff

/-- **The grants of the call**: rows for all of them have been added. -/
theorem Completes.of_grants {inputs : List AssignRoleInput}
    (hnodup : (inputs.map inputIndex).Nodup)
    (hnew : ∀ input ∈ inputs,
      RoleAssignmentDrizzleRepository.findEquivalent store.tables input = none)
    (h : Completes now store (inputs.map .findEquivalent ++ rest) now' store') :
    ∃ now₁ table news, table.rows = store.tables.userRoleAssignments.rows ++ news ∧
      news.map content = inputs ∧
      (∀ a ∈ news, store.tables.userRoleAssignments.find a.id = none) ∧
      Completes now₁ (store.withAssignments table) rest now' store' := by
  induction inputs generalizing now store with
  | nil => exact ⟨now, _, [], (List.append_nil _).symm, rfl, List.forall_mem_nil _, h⟩
  | cons input inputs ih =>
    obtain ⟨hfirst, hothers⟩ := List.nodup_cons.1 hnodup
    obtain ⟨now₁, newId, table, hinsert, hnext⟩ := h.of_grant (hnew input List.mem_cons_self)
    have hrows := (Table.insert_eq_some_iff.1 hinsert).2
    -- what has been inserted is not one of those that follow
    have hstill : ∀ i ∈ inputs, RoleAssignmentDrizzleRepository.findEquivalent
        (store.withAssignments table).tables i = none := by
      intro i hi
      rw [findEquivalent_eq_none_iff]
      intro a ha
      rcases (Table.mem_insert hinsert).1 ha with ha | rfl
      · exact findEquivalent_eq_none_iff.1 (hnew i (List.mem_cons_of_mem _ hi)) a ha
      · exact fun heq => hfirst (heq ▸ List.mem_map_of_mem hi)
    obtain ⟨now₂, table', news, hrows', hcontent, hfresh, hrest⟩ := ih hothers hstill hnext
    refine ⟨now₂, table', RoleAssignmentDrizzleRepository.row input newId :: news, ?_, ?_, ?_, hrest⟩
    · rw [hrows']
      show table.rows ++ news = _
      rw [hrows, List.append_assoc, List.singleton_append]
    · rw [List.map_cons, hcontent, content_row]
    · intro a ha
      rcases List.mem_cons.1 ha with rfl | ha
      · exact (Table.insert_eq_some_iff.1 hinsert).1
      · refine Table.find_eq_none_iff.2 fun r hr => ?_
        exact Table.find_eq_none_iff.1 (hfresh a ha) r ((Table.mem_insert hinsert).2 (Or.inl hr))

/-- **The revocations of the call.** -/
theorem Completes.of_revokes {ids : List Uuid}
    (h : Completes now store (ids.map .revoke ++ rest) now' store') :
    ∃ now₁, Completes now₁ (store.withAssignments (store.tables.userRoleAssignments.deleteWhere
      fun a => decide (a.id ∈ ids))) rest now' store' := by
  induction ids generalizing now store with
  | nil =>
    rw [Table.deleteWhere_mem_nil]
    exact ⟨now, h⟩
  | cons id ids ih =>
    obtain ⟨now₁, newId, store₁, next, hexec, hnext⟩ := h.inv
    obtain ⟨rfl, hnil⟩ := Prod.mk.inj hexec
    obtain rfl := Except.ok.inj hnil
    obtain ⟨now₂, hrest⟩ := ih hnext
    refine ⟨now₂, ?_⟩
    rw [← Table.deleteWhere_mem_cons]
    exact hrest

/-- The roles stay as they are. -/
theorem Completes.roles_eq {statements : List Statement}
    (h : Completes now store statements now' store') :
    store'.tables.roles = store.tables.roles := by
  induction h with
  | nil => rfl
  | @cons _ now₁ _ store _ _ statement _ _ newId _ hexec _ ih =>
    have hframe := authzFrame now₁ newId store statement
    rw [hexec] at hframe
    have hroles := congrArg Tables.roles hframe.tables
    exact ih.trans hroles

end Completes

end Authz

namespace RoleSync

open AuthzService Authz

/-! ### What the call reads and writes -/

/-- A global assignment of the user. -/
def IsGlobal (userId : Uuid) (a : UserRoleAssignment) : Prop :=
  a.userId = userId ∧ a.scopeType = .global

instance (userId : Uuid) : DecidablePred (IsGlobal userId) := fun a =>
  inferInstanceAs (Decidable (a.userId = userId ∧ a.scopeType = .global))

/-- `currentRoleIds`. -/
def currentRoleIds (tables : Tables) (userId : Uuid) : List Uuid :=
  ((RoleAssignmentDrizzleRepository.listForUser tables userId).filter
    (fun a => decide (a.scopeType = .global))).map UserRoleAssignment.roleId

/-- The grant of a role that is missing. -/
def grant (userId actor roleId : Uuid) : AssignRoleInput where
  userId := userId
  roleId := roleId
  scopeType := .global
  scopeId := none
  grantedBy := actor
  expiresAt := none

/-- The grants of the call. -/
def grants (tables : Tables) (userId : Uuid) (roleKeys : List String) (actor : Uuid) :
    List AssignRoleInput :=
  ((desiredRoleIds tables roleKeys).filter
    fun roleId => decide (roleId ∉ currentRoleIds tables userId)).map (grant userId actor)

/-- The call revokes the assignment. -/
def Revoked (tables : Tables) (userId : Uuid) (roleKeys : List String) (a : UserRoleAssignment) :
    Prop :=
  IsGlobal userId a ∧ a.roleId ∉ desiredRoleIds tables roleKeys

instance (tables : Tables) (userId : Uuid) (roleKeys : List String) :
    DecidablePred (Revoked tables userId roleKeys) := fun a =>
  inferInstanceAs (Decidable (IsGlobal userId a ∧ a.roleId ∉ desiredRoleIds tables roleKeys))

section Reads

variable {tables tables' : Tables} {userId roleId actor : Uuid} {roleKeys roleKeys' : List String}
  {a : UserRoleAssignment} {input : AssignRoleInput}

theorem mem_currentGlobal : a ∈ (RoleAssignmentDrizzleRepository.listForUser tables userId).filter
    (fun a => decide (a.scopeType = .global)) ↔
      a ∈ tables.userRoleAssignments.rows ∧ IsGlobal userId a := by
  simp only [RoleAssignmentDrizzleRepository.listForUser, List.mem_filter, List.mem_reverse,
    decide_eq_true_eq, IsGlobal, and_assoc]

theorem mem_currentRoleIds : roleId ∈ currentRoleIds tables userId ↔
    ∃ a ∈ tables.userRoleAssignments.rows, IsGlobal userId a ∧ a.roleId = roleId := by
  simp only [currentRoleIds, List.mem_map, mem_currentGlobal, and_assoc]

/-- The desired roles are those of the keys. -/
theorem mem_desiredRoleIds (hkeys : (tables.roles.map Role.key).Nodup) :
    roleId ∈ desiredRoleIds tables roleKeys ↔
      ∃ role ∈ tables.roles, role.id = roleId ∧ role.key ∈ roleKeys := by
  simp only [desiredRoleIds, List.mem_eraseDups, List.mem_filterMap, Option.map_eq_some_iff]
  constructor
  · rintro ⟨key, hkey, role, hfind, rfl⟩
    have hrole : role.key = key := by simpa using List.find?_some hfind
    exact ⟨role, List.mem_of_find?_eq_some hfind, rfl, hrole ▸ hkey⟩
  · rintro ⟨role, hrole, rfl, hkey⟩
    cases hfind : tables.roles.find? (fun r => decide (r.key = role.key)) with
    | none => exact absurd (List.find?_eq_none.1 hfind role hrole) (by simp)
    | some role' =>
      have hsame : role'.key = role.key := by simpa using List.find?_some hfind
      have heq := List.inj_on_of_nodup_map hkeys (List.mem_of_find?_eq_some hfind) hrole hsame
      exact ⟨role.key, hkey, role', hfind, congrArg Role.id heq⟩

theorem nodup_desiredRoleIds (tables : Tables) (roleKeys : List String) :
    (desiredRoleIds tables roleKeys).Nodup := RoleClaims.nodup_eraseDups _

theorem mem_grants : input ∈ grants tables userId roleKeys actor ↔
    ∃ roleId ∈ desiredRoleIds tables roleKeys, roleId ∉ currentRoleIds tables userId ∧
      grant userId actor roleId = input := by
  simp only [grants, List.mem_map, List.mem_filter, decide_eq_true_eq, and_assoc]

/-- The keys may come in any order, and more than once. -/
theorem desiredRoleIds_perm (h : ∀ key, key ∈ roleKeys' ↔ key ∈ roleKeys) :
    (desiredRoleIds tables roleKeys').Perm (desiredRoleIds tables roleKeys) := by
  refine (List.perm_ext_iff_of_nodup (nodup_desiredRoleIds _ _) (nodup_desiredRoleIds _ _)).2 ?_
  intro roleId
  simp only [desiredRoleIds, List.mem_eraseDups, List.mem_filterMap, h]

end Reads

/-! ### The rows after the call -/

section Rows

variable {now now' : Time} {store store' : Store} {userId actor : Uuid} {roleKeys : List String}

theorem nodup_inputIndex_grants :
    ((grants store.tables userId roleKeys actor).map inputIndex).Nodup := by
  rw [grants, List.map_map]
  refine ((nodup_desiredRoleIds _ _).filter _).map fun roleId roleId' heq => ?_
  exact (Prod.mk.inj (Prod.mk.inj heq).2).1

theorem findEquivalent_grants {input : AssignRoleInput}
    (h : input ∈ grants store.tables userId roleKeys actor) :
    RoleAssignmentDrizzleRepository.findEquivalent store.tables input = none := by
  obtain ⟨roleId, -, hmissing, rfl⟩ := mem_grants.1 h
  refine findEquivalent_eq_none_iff.2 fun a ha heq => hmissing (mem_currentRoleIds.2 ⟨a, ha, ?_⟩)
  obtain ⟨huser, hrest⟩ := Prod.mk.inj heq
  obtain ⟨hrole, hscope⟩ := Prod.mk.inj hrest
  exact ⟨⟨huser, (Prod.mk.inj hscope).1⟩, hrole⟩

/-- The ids of the revocations. -/
def revokedIds (tables : Tables) (userId : Uuid) (roleKeys : List String) : List Uuid :=
  (((RoleAssignmentDrizzleRepository.listForUser tables userId).filter
    (fun a => decide (a.scopeType = .global))).filter
      (fun a => decide (a.roleId ∉ desiredRoleIds tables roleKeys))).map UserRoleAssignment.id

/-- What the call is to do: its grants, its revocations, and the refresh of the claims. -/
theorem reconcile_eq (tables : Tables) (userId : Uuid) (roleKeys : List String) (actor : Uuid) :
    reconcile tables userId roleKeys actor =
      (grants tables userId roleKeys actor).map .findEquivalent ++
        ((revokedIds tables userId roleKeys).map .revoke ++ settle userId) := by
  rw [grants, revokedIds, List.map_map, List.map_map, ← List.append_assoc]
  rfl

theorem mem_revokedIds {tables : Tables} {id : Uuid} : id ∈ revokedIds tables userId roleKeys ↔
    ∃ a ∈ tables.userRoleAssignments.rows, Revoked tables userId roleKeys a ∧ a.id = id := by
  rw [revokedIds, List.mem_map]
  constructor
  · rintro ⟨a, ha, hid⟩
    obtain ⟨hcurrent, hextra⟩ := List.mem_filter.1 ha
    obtain ⟨hrow, hglobal⟩ := mem_currentGlobal.1 hcurrent
    exact ⟨a, hrow, ⟨hglobal, of_decide_eq_true hextra⟩, hid⟩
  · rintro ⟨a, hrow, ⟨hglobal, hextra⟩, hid⟩
    have hcurrent := mem_currentGlobal.2 ⟨hrow, hglobal⟩
    exact ⟨a, List.mem_filter.2 ⟨hcurrent, decide_eq_true hextra⟩, hid⟩

/-- **What a completed call leaves.** -/
theorem synced_of_completes
    (h : Completes now store (AuthzAdminService.syncUserRolesByKeys userId roleKeys actor)
      now' store') :
    ∃ news, store'.tables.userRoleAssignments.rows =
        store.tables.userRoleAssignments.rows.filter
          (fun a => !decide (Revoked store.tables userId roleKeys a)) ++ news ∧
      news.map content = grants store.tables userId roleKeys actor := by
  obtain ⟨now₁, newId, store₁, next, hexec, hnext⟩ := h.inv
  obtain ⟨rfl, hreconcile⟩ := Prod.mk.inj hexec
  obtain rfl := Except.ok.inj hreconcile
  rw [List.append_nil, reconcile_eq] at hnext
  obtain ⟨now₂, table, news, hrows, hcontent, hfresh, hgranted⟩ :=
    hnext.of_grants nodup_inputIndex_grants fun input hinput => findEquivalent_grants hinput
  obtain ⟨now₃, hrevoked⟩ := hgranted.of_revokes
  have hassignments := congrArg Table.rows hrevoked.of_settle.1
  -- only rows that have been there before are revoked
  have hold : ∀ a ∈ store.tables.userRoleAssignments.rows,
      a.id ∈ revokedIds store.tables userId roleKeys ↔ Revoked store.tables userId roleKeys a := by
    intro a ha
    rw [mem_revokedIds]
    constructor
    · rintro ⟨b, hb, hrevoked, hid⟩
      rwa [store.tables.userRoleAssignments.eq_of_key_eq ha hb hid.symm]
    · exact fun hrevoked => ⟨a, ha, hrevoked, rfl⟩
  have hnews : ∀ a ∈ news, a.id ∉ revokedIds store.tables userId roleKeys := by
    intro a ha hid
    obtain ⟨b, hb, -, hbid⟩ := mem_revokedIds.1 hid
    exact Table.find_eq_none_iff.1 (hfresh a ha) b hb hbid
  refine ⟨news, hassignments.trans ?_, hcontent⟩
  show table.rows.filter (fun a => !decide (a.id ∈ revokedIds store.tables userId roleKeys)) = _
  rw [hrows, List.filter_append]
  congr 1
  · exact List.filter_congr fun a ha => congrArg Bool.not (decide_eq_decide.2 (hold a ha))
  · exact List.filter_eq_self.2 fun a ha => by simp [hnews a ha]

end Rows

/-! ### The property -/

/-- The unexpired global roles of a user. -/
def EffectiveGlobal (tables : Tables) (now : Time) (userId roleId : Uuid) : Prop :=
  ∃ a ∈ assignments tables now userId, a.scopeType = .global ∧ a.roleId = roleId

instance (tables : Tables) (now : Time) (userId roleId : Uuid) :
    Decidable (EffectiveGlobal tables now userId roleId) :=
  inferInstanceAs (Decidable (∃ a ∈ assignments tables now userId, _))

/-- The assignments without their ids, and the list of role keys that is read at an instant. -/
structure SameGrants (tables tables' : Tables) (userId : Uuid) : Prop where
  contents : (tables.userRoleAssignments.rows.map content).Perm
    (tables'.userRoleAssignments.rows.map content)
  keys : ∀ t, RoleAssignmentDrizzleRepository.roleKeys tables t userId =
    RoleAssignmentDrizzleRepository.roleKeys tables' t userId

/-- **The roles are synced.** -/
structure Synced (store : Store) (userId : Uuid) (roleKeys : List String) (actor : Uuid)
    (now' : Time) (store' : Store) : Prop where
  /-- The unexpired global roles are those that the keys name. -/
  effective : ∀ roleId, EffectiveGlobal store'.tables now' userId roleId ↔
    ∃ role ∈ store.tables.roles, role.id = roleId ∧ role.key ∈ roleKeys
  /-- Scoped assignments, and those of other users, are as before. -/
  others : store'.tables.userRoleAssignments.rows.filter (fun a => !decide (IsGlobal userId a)) =
    store.tables.userRoleAssignments.rows.filter (fun a => !decide (IsGlobal userId a))
  /-- Neither the order nor the repetition of the keys matters. -/
  order : ∀ now roleKeys' now'' store'', (∀ key, key ∈ roleKeys' ↔ key ∈ roleKeys) →
    Completes now store (AuthzAdminService.syncUserRolesByKeys userId roleKeys' actor) now'' store'' →
      SameGrants store'.tables store''.tables userId
  /-- A second call finds nothing to do. -/
  again : ∀ now actor' now'' store'',
    Completes now store' (AuthzAdminService.syncUserRolesByKeys userId roleKeys actor') now'' store'' →
      store''.tables.userRoleAssignments.rows = store'.tables.userRoleAssignments.rows

/-- No role of the list that the user holds has lapsed when the call returns. -/
def NoneLapsed (tables : Tables) (userId : Uuid) (roleKeys : List String) (now' : Time) : Prop :=
  ∀ role ∈ tables.roles, role.key ∈ roleKeys → role.id ∈ currentRoleIds tables userId →
    EffectiveGlobal tables now' userId role.id

instance (tables : Tables) (userId : Uuid) (roleKeys : List String) (now' : Time) :
    Decidable (NoneLapsed tables userId roleKeys now') :=
  inferInstanceAs (Decidable (∀ role ∈ tables.roles, _))

section Property

variable {now now' now'' : Time} {store store' store'' : Store} {userId actor roleId : Uuid}
  {roleKeys roleKeys' : List String} {tables tables' : Tables}

theorem effectiveGlobal_iff : EffectiveGlobal tables now userId roleId ↔
    ∃ a ∈ tables.userRoleAssignments.rows,
      IsGlobal userId a ∧ a.roleId = roleId ∧ Unexpired now a := by
  constructor
  · rintro ⟨a, ha, hscope, hrole⟩
    obtain ⟨hrow, huser, hexpiry⟩ := mem_assignments.1 ha
    exact ⟨a, hrow, ⟨huser, hscope⟩, hrole, hexpiry⟩
  · rintro ⟨a, hrow, ⟨huser, hscope⟩, hrole, hexpiry⟩
    exact ⟨a, mem_assignments.2 ⟨hrow, huser, hexpiry⟩, hscope, hrole⟩

/-- The new rows of a call. -/
theorem mem_news {news : List UserRoleAssignment} {a : UserRoleAssignment}
    (hcontent : news.map content = grants tables userId roleKeys actor) (ha : a ∈ news) :
    IsGlobal userId a ∧ a.roleId ∈ desiredRoleIds tables roleKeys ∧
      a.roleId ∉ currentRoleIds tables userId ∧ a.expiresAt = none := by
  have hgrant : content a ∈ grants tables userId roleKeys actor := by
    rw [← hcontent]
    exact List.mem_map_of_mem ha
  obtain ⟨roleId, hdesired, hmissing, heq⟩ := mem_grants.1 hgrant
  have hrole : roleId = a.roleId := congrArg AssignRoleInput.roleId heq
  subst hrole
  refine ⟨⟨(congrArg AssignRoleInput.userId heq).symm, (congrArg AssignRoleInput.scopeType heq).symm⟩,
    hdesired, hmissing, (congrArg AssignRoleInput.expiresAt heq).symm⟩

/-- The roles that the user is left with are desired ones. -/
theorem desired_of_left
    (h : Completes now store (AuthzAdminService.syncUserRolesByKeys userId roleKeys actor)
      now' store') {a : UserRoleAssignment} (ha : a ∈ store'.tables.userRoleAssignments.rows)
    (hglobal : IsGlobal userId a) : a.roleId ∈ desiredRoleIds store.tables roleKeys := by
  obtain ⟨news, hrows, hcontent⟩ := synced_of_completes h
  rw [hrows, List.mem_append, List.mem_filter] at ha
  rcases ha with ⟨-, hkept⟩ | ha
  · by_contra hextra
    simp [Revoked, hglobal, hextra] at hkept
  · exact (mem_news hcontent ha).2.1

/-- What is not revoked stays. -/
theorem kept_of_completes
    (h : Completes now store (AuthzAdminService.syncUserRolesByKeys userId roleKeys actor)
      now' store') {a : UserRoleAssignment} (ha : a ∈ store.tables.userRoleAssignments.rows)
    (hkept : ¬Revoked store.tables userId roleKeys a) :
    a ∈ store'.tables.userRoleAssignments.rows := by
  obtain ⟨news, hrows, -⟩ := synced_of_completes h
  rw [hrows, List.mem_append, List.mem_filter]
  exact Or.inl ⟨ha, by simp [hkept]⟩

/-- What is missing is granted. -/
theorem granted_of_completes
    (h : Completes now store (AuthzAdminService.syncUserRolesByKeys userId roleKeys actor)
      now' store') (hdesired : roleId ∈ desiredRoleIds store.tables roleKeys)
    (hmissing : roleId ∉ currentRoleIds store.tables userId) :
    ∃ a ∈ store'.tables.userRoleAssignments.rows, content a = grant userId actor roleId := by
  obtain ⟨news, hrows, hcontent⟩ := synced_of_completes h
  have hgrant : grant userId actor roleId ∈ news.map content := by
    rw [hcontent]
    exact mem_grants.2 ⟨roleId, hdesired, hmissing, rfl⟩
  obtain ⟨a, ha, heq⟩ := List.mem_map.1 hgrant
  refine ⟨a, ?_, heq⟩
  rw [hrows]
  exact List.mem_append_right _ ha

/-- The assignment of a role of the list, whose expiry decides. -/
theorem effectiveGlobal_iff_of_desired
    (h : Completes now store (AuthzAdminService.syncUserRolesByKeys userId roleKeys actor)
      now' store') (hdesired : roleId ∈ desiredRoleIds store.tables roleKeys) (t : Time) :
    EffectiveGlobal store'.tables t userId roleId ↔
      (roleId ∈ currentRoleIds store.tables userId →
        EffectiveGlobal store.tables t userId roleId) := by
  constructor
  · intro heffective hcurrent
    obtain ⟨a, ha, hglobal, hrole, hexpiry⟩ := effectiveGlobal_iff.1 heffective
    obtain ⟨news, hrows, hcontent⟩ := synced_of_completes h
    rw [hrows, List.mem_append, List.mem_filter] at ha
    rcases ha with ⟨ha, -⟩ | ha
    · exact effectiveGlobal_iff.2 ⟨a, ha, hglobal, hrole, hexpiry⟩
    · -- the call grants no role that the user holds already
      exact absurd (hrole ▸ hcurrent) (mem_news hcontent ha).2.2.1
  · intro hlasts
    by_cases hcurrent : roleId ∈ currentRoleIds store.tables userId
    · obtain ⟨a, ha, hglobal, rfl, hexpiry⟩ := effectiveGlobal_iff.1 (hlasts hcurrent)
      refine effectiveGlobal_iff.2 ⟨a, kept_of_completes h ha ?_, hglobal, rfl, hexpiry⟩
      exact fun hrevoked => hrevoked.2 hdesired
    · obtain ⟨a, ha, heq⟩ := granted_of_completes h hdesired hcurrent
      have hexpiry : a.expiresAt = none := congrArg AssignRoleInput.expiresAt heq
      refine effectiveGlobal_iff.2 ⟨a, ha, ⟨congrArg AssignRoleInput.userId heq,
        congrArg AssignRoleInput.scopeType heq⟩, congrArg AssignRoleInput.roleId heq, ?_⟩
      simp [Unexpired, hexpiry]

theorem desired_of_effective
    (h : Completes now store (AuthzAdminService.syncUserRolesByKeys userId roleKeys actor)
      now' store') {t : Time} (heffective : EffectiveGlobal store'.tables t userId roleId) :
    roleId ∈ desiredRoleIds store.tables roleKeys := by
  obtain ⟨a, ha, hglobal, rfl, -⟩ := effectiveGlobal_iff.1 heffective
  exact desired_of_left h ha hglobal

/-- **The unexpired roles are those of the list exactly if none has lapsed.** -/
theorem effective_iff (hkeys : (store.tables.roles.map Role.key).Nodup)
    (h : Completes now store (AuthzAdminService.syncUserRolesByKeys userId roleKeys actor)
      now' store') (t : Time) :
    (∀ roleId, EffectiveGlobal store'.tables t userId roleId ↔
      ∃ role ∈ store.tables.roles, role.id = roleId ∧ role.key ∈ roleKeys) ↔
        NoneLapsed store.tables userId roleKeys t := by
  simp only [← mem_desiredRoleIds hkeys]
  constructor
  · intro hall role hrole hkey
    have hdesired := (mem_desiredRoleIds hkeys).2 ⟨role, hrole, rfl, hkey⟩
    exact (effectiveGlobal_iff_of_desired h hdesired t).1 ((hall role.id).2 hdesired)
  · intro hnone roleId
    refine ⟨desired_of_effective h, fun hdesired => ?_⟩
    obtain ⟨role, hrole, rfl, hkey⟩ := (mem_desiredRoleIds hkeys).1 hdesired
    exact (effectiveGlobal_iff_of_desired h hdesired t).2 (hnone role hrole hkey)

/-! ### What holds in any case -/

theorem others_of_completes
    (h : Completes now store (AuthzAdminService.syncUserRolesByKeys userId roleKeys actor)
      now' store') :
    store'.tables.userRoleAssignments.rows.filter (fun a => !decide (IsGlobal userId a)) =
      store.tables.userRoleAssignments.rows.filter (fun a => !decide (IsGlobal userId a)) := by
  obtain ⟨news, hrows, hcontent⟩ := synced_of_completes h
  have hnone : news.filter (fun a => !decide (IsGlobal userId a)) = [] :=
    List.filter_eq_nil_iff.2 fun a ha => by simp [(mem_news hcontent ha).1]
  rw [hrows, List.filter_append, hnone, List.append_nil, List.filter_filter]
  refine List.filter_congr fun a _ => ?_
  by_cases hglobal : IsGlobal userId a <;> simp [Revoked, hglobal]

/-- A call whose desired roles are the present ones changes no assignment. -/
theorem rows_of_settled
    (h : Completes now store (AuthzAdminService.syncUserRolesByKeys userId roleKeys actor)
      now' store')
    (hsettled : ∀ roleId, roleId ∈ currentRoleIds store.tables userId ↔
      roleId ∈ desiredRoleIds store.tables roleKeys) :
    store'.tables.userRoleAssignments.rows = store.tables.userRoleAssignments.rows := by
  obtain ⟨news, hrows, hcontent⟩ := synced_of_completes h
  have hnews : news = [] := List.eq_nil_iff_forall_not_mem.2 fun a ha => by
    obtain ⟨-, hdesired, hmissing, -⟩ := mem_news hcontent ha
    exact hmissing ((hsettled _).2 hdesired)
  rw [hrows, hnews, List.append_nil]
  refine List.filter_eq_self.2 fun a ha => ?_
  have hkept : ¬Revoked store.tables userId roleKeys a := fun ⟨hglobal, hextra⟩ =>
    hextra ((hsettled _).1 (mem_currentRoleIds.2 ⟨a, ha, hglobal, rfl⟩))
  simp [hkept]

/-- The roles that the user is left with are the desired ones. -/
theorem settled_of_completes
    (h : Completes now store (AuthzAdminService.syncUserRolesByKeys userId roleKeys actor)
      now' store') :
    ∀ roleId, roleId ∈ currentRoleIds store'.tables userId ↔
      roleId ∈ desiredRoleIds store'.tables roleKeys := by
  have hsame : desiredRoleIds store'.tables roleKeys = desiredRoleIds store.tables roleKeys := by
    rw [desiredRoleIds, desiredRoleIds, h.roles_eq]
  intro roleId
  rw [hsame]
  constructor
  · intro hcurrent
    obtain ⟨a, ha, hglobal, rfl⟩ := mem_currentRoleIds.1 hcurrent
    exact desired_of_left h ha hglobal
  · intro hdesired
    by_cases hcurrent : roleId ∈ currentRoleIds store.tables userId
    · obtain ⟨a, ha, hglobal, rfl⟩ := mem_currentRoleIds.1 hcurrent
      have hkept := kept_of_completes h ha fun hrevoked => hrevoked.2 hdesired
      exact mem_currentRoleIds.2 ⟨a, hkept, hglobal, rfl⟩
    · obtain ⟨a, ha, heq⟩ := granted_of_completes h hdesired hcurrent
      exact mem_currentRoleIds.2 ⟨a, ha, ⟨congrArg AssignRoleInput.userId heq,
        congrArg AssignRoleInput.scopeType heq⟩, congrArg AssignRoleInput.roleId heq⟩

/-- The role keys that are read depend on what the assignments grant. -/
theorem roleKeys_congr (hroles : tables'.roles = tables.roles)
    (h : (tables.userRoleAssignments.rows.map content).Perm
      (tables'.userRoleAssignments.rows.map content)) (t : Time) :
    RoleAssignmentDrizzleRepository.roleKeys tables t userId =
      RoleAssignmentDrizzleRepository.roleKeys tables' t userId := by
  have hrole : ∀ roleId, RoleClaims.roleKey tables' roleId = RoleClaims.roleKey tables roleId :=
    fun roleId => by rw [RoleClaims.roleKey, RoleClaims.roleKey, hroles]
  have hmem : ∀ (tables : Tables) (key : String),
      (∃ a ∈ assignments tables t userId, RoleClaims.roleKey tables a.roleId = some key) ↔
        ∃ input ∈ tables.userRoleAssignments.rows.map content, input.userId = userId ∧
          (∀ e ∈ input.expiresAt, t < e) ∧ RoleClaims.roleKey tables input.roleId = some key := by
    intro tables key
    simp only [mem_assignments, List.mem_map, exists_exists_and_eq_and, content, Unexpired, and_assoc]
  obtain ⟨hsorted, hnodup, hspec⟩ := RoleClaims.sortedKeys_spec tables (assignments tables t userId)
  obtain ⟨hsorted', hnodup', hspec'⟩ :=
    RoleClaims.sortedKeys_spec tables' (assignments tables' t userId)
  rw [RoleClaims.roleKeys_eq, RoleClaims.roleKeys_eq]
  refine List.Perm.eq_of_pairwise' hsorted hsorted' ((List.perm_ext_iff_of_nodup hnodup hnodup').2 ?_)
  intro key
  rw [hspec, hspec', hmem, hmem]
  simp only [hrole, h.mem_iff]

/-- **Neither the order nor the repetition of the keys matters.** -/
theorem sameGrants_of_completes (hsame : ∀ key, key ∈ roleKeys' ↔ key ∈ roleKeys)
    (h : Completes now store (AuthzAdminService.syncUserRolesByKeys userId roleKeys actor)
      now' store') {now₁ : Time}
    (h' : Completes now₁ store (AuthzAdminService.syncUserRolesByKeys userId roleKeys' actor)
      now'' store'') : SameGrants store'.tables store''.tables userId := by
  obtain ⟨news, hrows, hcontent⟩ := synced_of_completes h
  obtain ⟨news', hrows', hcontent'⟩ := synced_of_completes h'
  have hdesired : (desiredRoleIds store.tables roleKeys').Perm
      (desiredRoleIds store.tables roleKeys) := desiredRoleIds_perm hsame
  have hperm : (store'.tables.userRoleAssignments.rows.map content).Perm
      (store''.tables.userRoleAssignments.rows.map content) := by
    rw [hrows, hrows', List.map_append, List.map_append, hcontent, hcontent']
    refine List.Perm.append (List.Perm.of_eq (congrArg (List.map content) ?_)) ?_
    · refine List.filter_congr fun a _ => congrArg Bool.not (decide_eq_decide.2 ?_)
      rw [Revoked, Revoked, hdesired.mem_iff]
    · exact (hdesired.symm.filter _).map _
  exact ⟨hperm, roleKeys_congr (h'.roles_eq.trans h.roles_eq.symm) hperm⟩

/-- **The roles are synced exactly if none of the list has lapsed.** -/
theorem synced_iff (hkeys : (store.tables.roles.map Role.key).Nodup)
    (h : Completes now store (AuthzAdminService.syncUserRolesByKeys userId roleKeys actor)
      now' store') :
    Synced store userId roleKeys actor now' store' ↔
      NoneLapsed store.tables userId roleKeys now' := by
  constructor
  · exact fun hsynced => (effective_iff hkeys h now').1 hsynced.effective
  · intro hnone
    refine ⟨(effective_iff hkeys h now').2 hnone, others_of_completes h, ?_, ?_⟩
    · exact fun _ _ _ _ hsame h' => sameGrants_of_completes hsame h h'
    · exact fun _ _ _ _ h' => rows_of_settled h' (settled_of_completes h)

end Property

/-! ### A role that has lapsed -/

namespace Sample

/-- User 1 holds the role of an employee, until an instant, and that of an auditor in a team. -/
def tables : Tables :=
  { Tables.empty with
    roles := [⟨5, "employee", "Employee", true, 0⟩, ⟨6, "auditor", "Auditor", true, 0⟩]
    userRoleAssignments := ⟨[⟨7, 1, 5, .global, none, 9, some 1000⟩,
      ⟨8, 1, 6, .team, some "network", 9, none⟩], by decide⟩ }

/-- Nothing is in the cache. -/
def start : Store := ⟨tables, TtlCache.empty⟩

/-- The store after a call for the role of an employee. -/
def after (now : Time) : Store :=
  (complete now 11 8 start (AuthzAdminService.syncUserRolesByKeys 1 ["employee"] 1)).getD start

theorem completes (now : Time) :
    Completes now start (AuthzAdminService.syncUserRolesByKeys 1 ["employee"] 1) now (after now) :=
  completes_of_complete 11 8 rfl

end Sample

open Sample in
/-- The roles are synced while the assignment lasts. -/
theorem synced_employee : Synced start 1 ["employee"] 1 500 (after 500) :=
  (synced_iff (by decide) (completes 500)).2 (by decide)

open Sample in
/-- **After its expiry the role is neither there nor granted again.** -/
theorem not_synced :
    Completes 2000 start (AuthzAdminService.syncUserRolesByKeys 1 ["employee"] 1) 2000 (after 2000) ∧
      ¬Synced start 1 ["employee"] 1 2000 (after 2000) := by
  refine ⟨completes 2000, fun h => ?_⟩
  have hnone := (effective_iff (by decide) (completes 2000) 2000).1 h.effective
  exact absurd hnone (by decide)

end RoleSync

end OpsHub
