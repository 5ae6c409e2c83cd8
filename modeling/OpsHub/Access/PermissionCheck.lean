import OpsHub.Access.Authz

/-!
# Permission checks

`AuthzService.check` with every way in which the cache and the database can fail.  What `resolve`
groups the rows in is an object with the members of `Object.prototype`, on which neither `push`
nor the spread of a list can be called.

* `resolve`, `check`: the two methods, where any of their statements may fail;
* `Catalogued`: the permissions of roles come from the catalog, whose keys are of the form
  `resource.action`, or the wildcard;
* `Permitted`: what a check is to answer;
* `Current`: the cache holds nothing else for the user than what the tables say;
* `ChecksAsDefined`: it answers so if nothing fails, never more than that if something does, and
  more assignments or permissions never take an answer away, unless an entry of the cache is stale;
* `checksAsDefined`: it does; `not_closed_stale` is what a stale entry does.
-/

namespace OpsHub

namespace AuthzService

open Authz

/-! ### The methods -/

/-- The members that every object inherits. -/
def objectPrototype : List String :=
  ["constructor", "hasOwnProperty", "isPrototypeOf", "propertyIsEnumerable", "toLocaleString",
    "toString", "valueOf", "__defineGetter__", "__defineSetter__", "__lookupGetter__",
    "__lookupSetter__", "__proto__"]

/-- `(effective[row.permissionKey] ??= []).push(scope)`; an inherited member has no `push`. -/
def pushRow (effective : EffectivePermissions) (row : PermissionKey × Scope) :
    Except Failure EffectivePermissions := do
  Outcome.require (row.1 ∈ effective.keys ∨ row.1 ∉ objectPrototype)
    (.error "TypeError: (effective[row.permissionKey] ??= []).push is not a function")
  pure (effective.push row.1 row.2)

/-- `...(effective[permission] ?? [])`; an inherited member is no list. -/
def spread (effective : EffectivePermissions) (permission : PermissionKey) :
    Except Failure (List Scope) := do
  Outcome.require (permission ∈ effective.keys ∨ permission ∉ objectPrototype)
    (.error "TypeError: effective[permission] is not iterable")
  pure (effective.scopes permission)

/-- What becomes of a read from the cache. -/
inductive CacheRead
  | answered
  | corrupt
  | thrown
  deriving DecidableEq, Repr

/-- What becomes of the statements of `resolve`: those of the database and of the last write
succeed or throw. -/
structure Faults where
  getJson : CacheRead := .answered
  select : Bool := true
  setJson : Bool := true
  deriving DecidableEq, Repr

/-- `getJson`; a text that cannot be parsed counts as none. -/
def getJson (faults : Faults) (store : Store) (now : Time) (userId : Uuid) :
    Except Failure (Option EffectivePermissions) :=
  match faults.getJson with
  | .answered => .ok (store.permissions.get now userId)
  | .corrupt => .ok none
  | .thrown => .error (.error "the cache is unavailable")

/-- The statements of `resolve` after a miss, which stand in its `try`. -/
def load (faults : Faults) (tables : Tables) (now : Time) (userId : Uuid) :
    Except Failure EffectivePermissions := do
  Outcome.require (faults.select = true) (.error "the database is unavailable")
  let effective ← (joined tables now userId).foldlM pushRow []
  Outcome.require (faults.setJson = true) (.error "the cache is unavailable")
  pure effective

/-- `resolve`: whatever is thrown after a miss, nothing is granted. -/
def resolve (faults : Faults) (store : Store) (now : Time) (userId : Uuid) :
    Except Failure EffectivePermissions := do
  match ← getJson faults store now userId with
  | some cached => pure cached
  | none =>
    match load faults store.tables now userId with
    | .ok effective => pure effective
    | .error _ => pure []

/-- `check`. -/
def check (faults : Faults) (store : Store) (now : Time) (userId : Uuid)
    (permission : PermissionKey) (resource : Option ResourceAttrs) (user : Option Uuid) :
    Except Failure Bool := do
  let effective ← resolve faults store now userId
  let wildcard ← spread effective wildcardPermission
  let own ← spread effective permission
  pure <|
    match wildcard ++ own, resource, user with
    | [], _, _ => false
    | grants, some resource, some user => ScopeEvaluator.anyMatches grants resource user
    | _, _, _ => true

/-! ### The definition -/

/-- The form of a permission key, `resource.action`. -/
def HasForm (permission : PermissionKey) : Prop :=
  ∃ resource action : String, permission = resource ++ "." ++ action

/-- The permissions of roles refer to the catalog. -/
def Catalogued (tables : Tables) : Prop :=
  ∀ p ∈ tables.rolePermissions,
    p.permissionKey = wildcardPermission ∨ HasForm p.permissionKey

/-- **What a check is to answer**: some unexpired assignment of the user has a role that carries
the permission or the wildcard and, if a resource and a principal are given, a scope that covers
the resource. -/
def Permitted (tables : Tables) (now : Time) (userId : Uuid) (permission : PermissionKey)
    (resource : Option ResourceAttrs) (user : Option Uuid) : Prop :=
  ∃ a ∈ assignments tables now userId, Carries tables a.roleId permission ∧
    ∀ r ∈ resource, ∀ u ∈ user, ScopeEvaluator.matchers ⟨a.scopeType, a.scopeId⟩ r u = true

/-- There are all the assignments and permissions of roles, and perhaps more. -/
structure Extends (tables tables' : Tables) : Prop where
  assignments : ∀ a ∈ tables.userRoleAssignments.rows, a ∈ tables'.userRoleAssignments.rows
  permissions : ∀ p ∈ tables.rolePermissions, p ∈ tables'.rolePermissions
  catalogued : Catalogued tables'

/-- What the cache answers for the user, if anything, is what the tables say. -/
def Current (tables : Tables) (permissions : TtlCache Uuid EffectivePermissions) (now : Time)
    (userId : Uuid) : Prop :=
  ∀ cached ∈ permissions.get now userId, cached = effective tables now userId

/-- **A check answers as defined.** -/
structure ChecksAsDefined (tables : Tables) (now : Time) (userId : Uuid)
    (permission : PermissionKey) (resource : Option ResourceAttrs) (user : Option Uuid) : Prop where
  /-- The answer, if nothing is in the cache and nothing fails. -/
  answers : ∀ permissions, permissions.get now userId = none →
    ∃ b, check { } ⟨tables, permissions⟩ now userId permission resource user = .ok b ∧
      (b = true ↔ Permitted tables now userId permission resource user)
  /-- Whatever fails, nothing is permitted that should not be. -/
  closed : ∀ faults permissions, Current tables permissions now userId →
    check faults ⟨tables, permissions⟩ now userId permission resource user = .ok true →
      Permitted tables now userId permission resource user
  /-- More assignments or permissions take no answer away. -/
  monotone : ∀ tables' permissions permissions', Extends tables tables' →
    Current tables permissions now userId →
    (Current tables' permissions' now userId ∨
      permissions'.get now userId = permissions.get now userId) →
      check { } ⟨tables, permissions⟩ now userId permission resource user = .ok true →
        check { } ⟨tables', permissions'⟩ now userId permission resource user = .ok true

/-! ### The loop of `resolve` -/

section Resolve

variable {tables tables' : Tables} {now : Time} {userId : Uuid} {permission : PermissionKey}
  {resource : Option ResourceAttrs} {user : Option Uuid} {faults : Faults}
  {permissions : TtlCache Uuid EffectivePermissions} {effective effective' : EffectivePermissions}
  {rows : List (PermissionKey × Scope)}

theorem pushRow_eq_ok_iff {row : PermissionKey × Scope} :
    pushRow effective row = .ok effective' ↔
      (row.1 ∈ effective.keys ∨ row.1 ∉ objectPrototype) ∧
        effective.push row.1 row.2 = effective' := by
  simp only [pushRow, Except.bind_eq_ok_iff, Outcome.require_eq_ok_iff, Except.pure_eq_ok_iff]
  constructor
  · rintro ⟨-, h⟩
    exact h
  · exact fun h => ⟨(), h⟩

/-- A loop that comes to its end has grouped the rows. -/
theorem foldlM_pushRow_ok (h : rows.foldlM pushRow effective = .ok effective') :
    effective' = rows.foldl (fun effective row => effective.push row.1 row.2) effective := by
  induction rows generalizing effective with
  | nil => exact (Except.ok.inj h).symm
  | cons row rows ih =>
    rw [List.foldlM_cons, Except.bind_eq_ok_iff] at h
    obtain ⟨pushed, hpush, hrest⟩ := h
    obtain ⟨-, rfl⟩ := pushRow_eq_ok_iff.1 hpush
    exact ih hrest

/-- The loop comes to its end if no key is the name of an inherited member. -/
theorem foldlM_pushRow_of_catalogued (hrows : ∀ row ∈ rows, row.1 ∉ objectPrototype) :
    rows.foldlM pushRow effective =
      .ok (rows.foldl (fun effective row => effective.push row.1 row.2) effective) := by
  induction rows generalizing effective with
  | nil => rfl
  | cons row rows ih =>
    rw [List.foldlM_cons, Except.bind_eq_ok_iff]
    refine ⟨_, pushRow_eq_ok_iff.2 ⟨Or.inr (hrows row List.mem_cons_self), rfl⟩, ?_⟩
    exact ih fun r hr => hrows r (List.mem_cons_of_mem _ hr)

/-- No inherited member has a name of the form of a permission. -/
theorem HasForm.not_mem (h : HasForm permission) : permission ∉ objectPrototype := by
  obtain ⟨resource, action, rfl⟩ := h
  have hnames : ∀ name ∈ objectPrototype, '.' ∉ name.toList := by decide
  intro hmem
  refine hnames _ hmem ?_
  simp [String.toList_append]

theorem Catalogued.not_mem (h : Catalogued tables) {row : PermissionKey × Scope}
    (hrow : row ∈ joined tables now userId) : row.1 ∉ objectPrototype := by
  obtain ⟨a, -, hcarried, -⟩ := mem_joined.1 hrow
  rcases h _ hcarried with hkey | hkey
  · have hwildcard : row.1 = wildcardPermission := hkey
    rw [hwildcard]
    decide
  · exact hkey.not_mem

/-- **What `resolve` returns after a miss**, if nothing is thrown. -/
theorem load_ok (h : load faults tables now userId = .ok effective) :
    effective = AuthzService.effective tables now userId := by
  simp only [load, Except.bind_eq_ok_iff, Outcome.require_eq_ok_iff, Except.pure_eq_ok_iff] at h
  obtain ⟨-, -, effective', hloop, -, -, rfl⟩ := h
  exact foldlM_pushRow_ok hloop

theorem load_of_catalogued (h : Catalogued tables) (now : Time) (userId : Uuid) :
    load { } tables now userId = .ok (AuthzService.effective tables now userId) := by
  have hloop : (joined tables now userId).foldlM pushRow [] =
      .ok (AuthzService.effective tables now userId) :=
    foldlM_pushRow_of_catalogued fun row hrow => h.not_mem hrow
  rw [load, hloop]
  rfl

/-- If nothing fails, `resolve` is what the model of calls takes it for. -/
theorem resolve_of_catalogued {store : Store} (h : Catalogued store.tables) (now : Time)
    (userId : Uuid) : resolve { } store now userId = .ok (store.resolve now userId) := by
  have hget : getJson { } store now userId = .ok (store.permissions.get now userId) := rfl
  rw [resolve, hget, Store.resolve]
  cases store.permissions.get now userId with
  | some cached => rfl
  | none =>
    simp only [bind, Except.bind, load_of_catalogued h now userId]
    rfl

/-- Whatever fails, nothing is returned but what the tables say, or nothing at all. -/
theorem resolve_ok (hcurrent : Current tables permissions now userId)
    (h : resolve faults ⟨tables, permissions⟩ now userId = .ok effective) :
    effective = AuthzService.effective tables now userId ∨ effective = [] := by
  rw [resolve, Except.bind_eq_ok_iff] at h
  obtain ⟨cached, hget, hrest⟩ := h
  have hcached : ∀ c ∈ cached, c = AuthzService.effective tables now userId := by
    unfold getJson at hget
    split at hget
    · exact Except.ok.inj hget ▸ hcurrent
    · intro c hc
      rw [← Except.ok.inj hget] at hc
      cases hc
    · cases hget
  cases cached with
  | some c => exact Or.inl ((Except.ok.inj hrest).symm.trans (hcached c rfl))
  | none =>
    cases hload : load faults tables now userId with
    | ok loaded =>
      simp only [hload, Except.pure_eq_ok_iff] at hrest
      exact Or.inl (hrest.symm.trans (load_ok hload))
    | error failure =>
      simp only [hload, Except.pure_eq_ok_iff] at hrest
      exact Or.inr hrest.symm

/-! ### The answer -/

/-- What `check` makes of what `resolve` returns. -/
theorem check_ok_iff {store : Store} {b : Bool} :
    check faults store now userId permission resource user = .ok b ↔
      ∃ effective, resolve faults store now userId = .ok effective ∧
        (permission ∈ effective.keys ∨ permission ∉ objectPrototype) ∧
          answer effective permission resource user = b := by
  have hwildcard : wildcardPermission ∉ objectPrototype := by decide
  simp only [check, spread, Except.bind_eq_ok_iff, Outcome.require_eq_ok_iff,
    Except.pure_eq_ok_iff]
  constructor
  · rintro ⟨effective, hresolve, -, ⟨-, -, rfl⟩, -, ⟨-, hkey, rfl⟩, hanswer⟩
    exact ⟨effective, hresolve, hkey, hanswer⟩
  · rintro ⟨effective, hresolve, hkey, hanswer⟩
    exact ⟨effective, hresolve, _, ⟨(), Or.inr hwildcard, rfl⟩, _, ⟨(), hkey, rfl⟩, hanswer⟩

/-- Unless a resource and a principal are given, any scope will do. -/
theorem answer_eq_none (h : resource = none ∨ user = none) :
    answer effective permission resource user = answer effective permission none none := by
  unfold answer
  cases effective.scopes wildcardPermission ++ effective.scopes permission with
  | nil => rfl
  | cons scope scopes =>
    rcases h with rfl | rfl
    · rfl
    · cases resource <;> rfl

/-- **What the database says is answered as defined.** -/
theorem answer_effective_iff_permitted :
    answer (AuthzService.effective tables now userId) permission resource user = true ↔
      Permitted tables now userId permission resource user := by
  cases resource with
  | none =>
    rw [answer_eq_none (Or.inl rfl), answer_effective_none_iff, Permitted]
    simp
  | some r =>
    cases user with
    | none =>
      rw [answer_eq_none (Or.inr rfl), answer_effective_none_iff, Permitted]
      simp
    | some u =>
      rw [answer_effective_iff, Permitted]
      simp

theorem Permitted.mono (h : Permitted tables now userId permission resource user)
    (hextends : Extends tables tables') :
    Permitted tables' now userId permission resource user := by
  obtain ⟨a, ha, hcarries, hscope⟩ := h
  obtain ⟨hrow, huser, hexpiry⟩ := mem_assignments.1 ha
  refine ⟨a, mem_assignments.2 ⟨hextends.assignments a hrow, huser, hexpiry⟩, ?_, hscope⟩
  exact hcarries.imp (hextends.permissions _) (hextends.permissions _)

/-- If nothing fails, `check` is what the model of calls takes it for. -/
theorem check_of_catalogued {store : Store} (hcatalog : Catalogued store.tables)
    (hpermission : HasForm permission) :
    check { } store now userId permission resource user =
      .ok (store.check now userId permission resource user) :=
  check_ok_iff.2 ⟨_, resolve_of_catalogued hcatalog now userId, Or.inr hpermission.not_mem, rfl⟩

/-- If nothing fails, the answer is the one that the tables give, unless an entry is stale. -/
theorem check_of_current (hcatalog : Catalogued tables) (hpermission : HasForm permission)
    (hcurrent : Current tables permissions now userId) :
    check { } ⟨tables, permissions⟩ now userId permission resource user =
      .ok (answer (AuthzService.effective tables now userId) permission resource user) := by
  rw [check_of_catalogued (by exact hcatalog) hpermission, Store.check, Store.resolve]
  cases hget : permissions.get now userId with
  | none => rfl
  | some cached => rw [hcurrent cached hget]; rfl

theorem current_of_miss (hmiss : permissions.get now userId = none) :
    Current tables permissions now userId := by
  intro cached hcached
  rw [hmiss] at hcached
  cases hcached

/-- An entry that stays answers the same. -/
theorem check_of_same {tables' : Tables} {permissions' : TtlCache Uuid EffectivePermissions}
    (hcatalog : Catalogued tables) (hcatalog' : Catalogued tables')
    (hpermission : HasForm permission) {cached : EffectivePermissions}
    (hget : permissions.get now userId = some cached)
    (hsame : permissions'.get now userId = permissions.get now userId) :
    check { } ⟨tables', permissions'⟩ now userId permission resource user =
      check { } ⟨tables, permissions⟩ now userId permission resource user := by
  rw [check_of_catalogued (by exact hcatalog') hpermission,
    check_of_catalogued (by exact hcatalog) hpermission, Store.check, Store.check, Store.resolve,
    Store.resolve]
  dsimp only
  rw [hsame, hget]
  rfl

/-- **Whatever fails, nothing is permitted that should not be.** -/
theorem permitted_of_check (hcurrent : Current tables permissions now userId)
    (h : check faults ⟨tables, permissions⟩ now userId permission resource user = .ok true) :
    Permitted tables now userId permission resource user := by
  obtain ⟨effective, hresolve, -, hanswer⟩ := check_ok_iff.1 h
  rcases resolve_ok hcurrent hresolve with rfl | rfl
  · exact answer_effective_iff_permitted.1 hanswer
  · rw [answer_nil] at hanswer
    cases hanswer

/-- **A check answers as defined.** -/
theorem checksAsDefined (tables : Tables) (now : Time) (userId : Uuid)
    (resource : Option ResourceAttrs) (user : Option Uuid) (hcatalog : Catalogued tables)
    (hpermission : HasForm permission) :
    ChecksAsDefined tables now userId permission resource user := by
  refine ⟨fun _ hmiss => ⟨_, check_of_current hcatalog hpermission (current_of_miss hmiss),
    answer_effective_iff_permitted⟩, fun _ _ hcurrent => permitted_of_check hcurrent, ?_⟩
  intro tables' permissions permissions' hextends hcurrent hafter hcheck
  have hpermitted := (permitted_of_check hcurrent hcheck).mono hextends
  have hanswer : Current tables' permissions' now userId →
      check { } ⟨tables', permissions'⟩ now userId permission resource user = .ok true := by
    intro hcurrent'
    rw [check_of_current hextends.catalogued hpermission hcurrent',
      answer_effective_iff_permitted.2 hpermitted]
  rcases hafter with hcurrent' | hsame
  · exact hanswer hcurrent'
  · cases hget : permissions.get now userId with
    | none => exact hanswer (current_of_miss (hsame.trans hget))
    | some cached =>
      rw [check_of_same hcatalog hextends.catalogued hpermission hget hsame]
      exact hcheck

end Resolve

namespace TeamReader

/-- User 1 may read the assets of one team, and, until an instant, do everything in a region. -/
def tables : Tables :=
  { Tables.empty with
    roles := [⟨5, "reader", "Reader", false, 0⟩, ⟨6, "admin", "Administrator", true, 0⟩]
    rolePermissions := [⟨5, "asset.read"⟩, ⟨6, "*"⟩]
    userRoleAssignments := ⟨[⟨7, 1, 5, .team, some "network", 9, none⟩,
      ⟨8, 1, 6, .region, some "south", 9, some 100⟩], by decide⟩ }

theorem hasForm : HasForm "asset.read" := ⟨"asset", "read", by decide⟩

theorem catalogued : Catalogued tables := by
  intro p hp
  simp only [tables, List.mem_cons, List.not_mem_nil, or_false] at hp
  rcases hp with rfl | rfl
  · exact Or.inr hasForm
  · exact Or.inl rfl

/-- The cache after a resolution at 50, while the other assignment is there. -/
def cached : TtlCache Uuid EffectivePermissions :=
  TtlCache.empty.set 1 (effective tables 50 1) (50 + cacheTtlSeconds * 1000)

/-- The other assignment is revoked, and the deletion of the cached permissions fails. -/
def revoked : Tables := RoleAssignmentDrizzleRepository.revoke 8 tables

/-- The user may read the assets of every team. -/
def extended : Tables :=
  { revoked with
    userRoleAssignments := ⟨revoked.userRoleAssignments.rows ++ [⟨9, 1, 5, .global, none, 9, none⟩],
      by decide⟩ }

theorem extends_extended : Extends revoked extended where
  assignments _ ha := List.mem_append_left _ ha
  permissions _ hp := hp
  catalogued := catalogued

/-- Without the other assignment the user may not write. -/
theorem not_permitted_revoked : ¬ Permitted revoked 60 1 "user.write" none none := by
  rw [← answer_effective_iff_permitted]
  decide

end TeamReader

open TeamReader in
/-- **A stale entry** is answered from: the user may still do everything, and cannot any more as
soon as something else is granted, which deletes the entry. -/
theorem not_closed_stale :
    ¬ (∀ faults permissions, check faults ⟨revoked, permissions⟩ 60 1 "user.write" none none =
        .ok true → Permitted revoked 60 1 "user.write" none none) ∧
    ¬ (∀ tables' permissions permissions', Extends revoked tables' →
      check { } ⟨revoked, permissions⟩ 60 1 "user.write" none none = .ok true →
        check { } ⟨tables', permissions'⟩ 60 1 "user.write" none none = .ok true) := by
  have hstale : check { } ⟨revoked, cached⟩ 60 1 "user.write" none none = .ok true := by decide
  refine ⟨fun hclosed => ?_, fun hmonotone => ?_⟩
  · exact not_permitted_revoked (hclosed { } cached hstale)
  · have hafter := hmonotone extended cached (cached.del 1) extends_extended hstale
    exact absurd hafter (by decide)

open TeamReader in
/-- A check on an asset of the team, after the other assignment has expired. -/
theorem checksAsDefined_team :
    ChecksAsDefined tables 200 1 "asset.read" (some { teamId := some "network" }) (some 1) ∧
      Permitted tables 200 1 "asset.read" (some { teamId := some "network" }) (some 1) := by
  refine ⟨checksAsDefined tables 200 1 _ _ catalogued hasForm, ?_⟩
  exact ⟨⟨7, 1, 5, .team, some "network", 9, none⟩, by decide, by decide, by decide⟩

end AuthzService

end OpsHub
