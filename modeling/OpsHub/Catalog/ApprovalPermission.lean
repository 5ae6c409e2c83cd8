import OpsHub.Access.Authz
import OpsHub.Catalog.CatalogService
import OpsHub.Requests.ApprovalAuthority

/-!
# The permission of a catalog item

`approvalPermission` is the permission required to approve the requests of an item, and the type
definition that all items share requires `requests.approve`.

* `Authority`: the permissions of the users at a check, as `AuthzService` resolves them;
* `CatalogState`: the catalog and the calls of the engine; `submissions` records, for the
  statements only, the item that a request has been submitted for;
* `approved_step`: who approves a request of the catalog holds `requests.approve`;
* `Enforced`: a request for an item with the permission `p` is approved on that permission;
* `enforced_iff`: this is so for the permission of the type definition, and for no other.
-/

namespace OpsHub

open RequestEngine Concurrent

/-! ### Permissions at a check -/

/-- The permissions that are resolved for the users, the delegations, and the time. -/
structure Authority where
  effective : Uuid → EffectivePermissions
  delegations : List ApprovalDelegation
  now : Time

/-- What the engine learns from `check` and `findActiveDelegationTo`. -/
def Authority.view (authority : Authority) : AuthzView where
  check user permission := AuthzService.answer (authority.effective user) permission none none
  delegations := authority.delegations
  now := authority.now

/-- The user holds a permission in some scope. -/
def Authority.Holds (authority : Authority) (user : Uuid) (permission : PermissionKey) : Prop :=
  (authority.effective user).scopes permission ≠ []

/-- The engine is told of a permission that is held, and of the wildcard. -/
theorem Authority.check_view_iff {authority : Authority} {user : Uuid}
    {permission : PermissionKey} : authority.view.check user permission = true ↔
      authority.Holds user wildcardPermission ∨ authority.Holds user permission := by
  have hgrants : authority.view.check user permission = true ↔
      (authority.effective user).scopes wildcardPermission ++
        (authority.effective user).scopes permission ≠ [] := by
    simp only [Authority.view, AuthzService.answer]
    cases (authority.effective user).scopes wildcardPermission ++
      (authority.effective user).scopes permission <;> simp
  rw [hgrants, ne_eq, List.append_eq_nil_iff, not_and_or]
  rfl

/-! ### Runs -/

/-- A request of the catalog, and the item that it has been submitted for. -/
structure CatalogSubmission where
  requestId : Uuid
  item : CatalogItem

/-- The catalog, the engine, and what has been submitted. -/
structure CatalogState where
  catalogItems : CatalogItems
  engine : Concurrent.State Payload Tables
  submissions : List CatalogSubmission

namespace CatalogState

/-- A catalog, without a request and without a call in flight. -/
def initial (subscriptions : List WebhookSubscription) (tables : TxTables Tables)
    (catalogItems : CatalogItems) : CatalogState :=
  ⟨catalogItems, Concurrent.State.initial subscriptions tables, []⟩

/-- What can happen: a call of `CatalogService`, the submission of a request of another kind, or a
step of a call of the engine. -/
inductive Event
  | createItem (input : CreateCatalogItemInput) (now : Time) (newId : Uuid)
  | updateItem (id : Uuid) (input : UpdateCatalogItemInput) (now : Time)
  | deleteItem (id : Uuid)
  | submitRequest (catalogItemId : Uuid) (reason : String) (actor : Actor) (now : Time)
      (newId : Uuid) (env : HookEnv)
  | submit (type : String) (payload : Payload) (actor : Actor) (opts : SubmitRequestOptions)
      (now : Time) (newId : Uuid) (env : HookEnv)
  | read (requestId : Uuid) (operation : Operation)
  | check (i : ℕ) (authority : Authority)
  | commit (i : ℕ) (now : Time) (env : HookEnv)

/-- A step of the engine. -/
def engineStep (s : CatalogState) (e : Concurrent.Event Payload) : CatalogState :=
  { s with engine := Concurrent.step moduleRegistry s.engine e }

/-- The catalog after a call. -/
def catalogStep (s : CatalogState) (result : Except Failure CatalogItems) : CatalogState :=
  { s with catalogItems := Outcome.commit s.catalogItems result }

/-- The state after one event. -/
def step (s : CatalogState) : Event → CatalogState
  | .createItem input now newId =>
    s.catalogStep (CatalogService.createItem input now newId s.catalogItems)
  | .updateItem id input now =>
    s.catalogStep (CatalogService.updateItem id input now s.catalogItems)
  | .deleteItem id => s.catalogStep (CatalogService.deleteItem id s.catalogItems)
  | .submitRequest catalogItemId reason actor now newId env =>
    match CatalogService.submitRequest catalogItemId reason actor now newId env s.catalogItems
        s.engine.db with
    | .ok (db, engineItem, item) =>
      { s with
        engine := { s.engine with db := db }
        submissions := s.submissions ++ [⟨engineItem.id, item⟩] }
    | .error _ => s
  | .submit type payload actor opts now newId env =>
    s.engineStep (.submit type payload actor opts now newId env)
  | .read requestId operation => s.engineStep (.read requestId operation)
  | .check i authority => s.engineStep (.check i authority.view)
  | .commit i now env => s.engineStep (.commit i now env)

/-- The request has been approved when the approver, or the delegator acted for, held the
permission or the wildcard. -/
def ApprovedOn (s : CatalogState) (id : Uuid) (permission : PermissionKey) : Prop :=
  ∃ review ∈ s.engine.reviews, review.approval.requestId = id ∧
    review.approval.decision = .approved ∧
    ∃ authority : Authority, review.view = authority.view ∧ ∃ user ∈ review.principals,
      authority.Holds user permission ∨ authority.Holds user wildcardPermission

/-- In every run, every request for an item with the permission `p` is approved on `p` only. -/
def Enforced (p : Varchar 100) : Prop :=
  ∀ (subscriptions : List WebhookSubscription) (tables : TxTables Tables)
    (catalogItems : CatalogItems) (es : List Event),
    let s := Runs.run step (initial subscriptions tables catalogItems) es
    ∀ submission ∈ s.submissions, submission.item.approvalPermission = p →
      ∀ r ∈ s.engine.db.requestItems.rows, r.id = submission.requestId → r.status = .approved →
        s.ApprovedOn r.id p

/-! ### What the engine enforces -/

/-- The requests of the catalog have the type of the catalog, and approvals rest on what has been
resolved. -/
structure Inv (s : CatalogState) : Prop where
  permitted : ApprovalsPermitted moduleRegistry s.engine
  viewed : Viewed (fun view => ∃ authority : Authority, view = authority.view) s.engine
  typed : ∀ submission ∈ s.submissions, ∃ r,
    s.engine.db.requestItems.find submission.requestId = some r ∧ r.type = "catalog_request"

variable {s : CatalogState}

/-- The type of a stored request never changes. -/
theorem find_type_step {engine : Concurrent.State Payload Tables} {id : Uuid} {type : String}
    (h : ∃ r, engine.db.requestItems.find id = some r ∧ r.type = type)
    (e : Concurrent.Event Payload) :
    ∃ r, (Concurrent.step moduleRegistry engine e).db.requestItems.find id = some r ∧
      r.type = type := by
  obtain ⟨r, hr, htype⟩ := h
  rcases Concurrent.step_cases moduleRegistry engine e with ⟨hdb, -, -⟩ |
    ⟨⟨_, _, _, _, _, _, _, _, -, hs⟩, -, -⟩ | ⟨_, _, _, operation, _, _, _, -, hc⟩
  · rw [hdb]
    exact ⟨r, hr, htype⟩
  · exact ⟨r, Table.find_insert_of_find hs.requestItems hr, htype⟩
  · obtain ⟨row, htx⟩ := hc.tx
    obtain ⟨t, ht, htc⟩ := operation.tx_decided htx
    obtain ⟨r', hr', htype', -⟩ := ht.find_kept htc hr
    exact ⟨r', hr', htype'.trans htype⟩

theorem Inv.engineStep (h : Inv s) {e : Concurrent.Event Payload}
    (he : ∀ i view, e = .check i view → ∃ authority : Authority, view = authority.view) :
    Inv (s.engineStep e) where
  permitted := step_approvalsPermitted h.permitted e
  viewed := step_viewed h.viewed he
  typed submission hsubmission := find_type_step (h.typed submission hsubmission) e

theorem Inv.catalogStep (h : Inv s) (result : Except Failure CatalogItems) :
    Inv (s.catalogStep result) where
  permitted := h.permitted
  viewed := h.viewed
  typed := h.typed

/-- **The step lemma.** -/
theorem step_inv (s : CatalogState) (e : Event) (h : Inv s) : Inv (step s e) := by
  cases e with
  | createItem input now newId => exact h.catalogStep _
  | updateItem id input now => exact h.catalogStep _
  | deleteItem id => exact h.catalogStep _
  | submitRequest catalogItemId reason actor now newId env =>
    simp only [step]
    split
    · rename_i db engineItem item hok
      obtain ⟨-, -, hs⟩ := CatalogService.submitRequest_ok hok
      refine ⟨h.permitted.submitted hs rfl rfl, ⟨h.viewed.calls, h.viewed.reviews⟩, ?_⟩
      intro submission hsubmission
      rcases List.mem_append.1 hsubmission with hsubmission | hsubmission
      · obtain ⟨r, hr, htype⟩ := h.typed submission hsubmission
        exact ⟨r, Table.find_insert_of_find hs.requestItems hr, htype⟩
      · obtain rfl := List.mem_singleton.1 hsubmission
        obtain ⟨typeDef, -, hrow⟩ := hs.row_eq
        exact ⟨engineItem, Table.find_insert_self hs.requestItems, by rw [hrow]; rfl⟩
    · exact h
  | submit type payload actor opts now newId env =>
    exact h.engineStep fun _ _ hcheck => by cases hcheck
  | read requestId operation => exact h.engineStep fun _ _ hcheck => by cases hcheck
  | check i authority =>
    refine h.engineStep fun i' view hcheck => ?_
    cases hcheck
    exact ⟨authority, rfl⟩
  | commit i now env => exact h.engineStep fun _ _ hcheck => by cases hcheck

theorem inv_initial (subscriptions : List WebhookSubscription) (tables : TxTables Tables)
    (catalogItems : CatalogItems) : Inv (initial subscriptions tables catalogItems) where
  permitted := approvalsPermitted_initial moduleRegistry subscriptions tables
  viewed := ⟨fun _ hcall => absurd hcall List.not_mem_nil,
    fun _ hreview => absurd hreview List.not_mem_nil⟩
  typed _ hsubmission := absurd hsubmission List.not_mem_nil

theorem requiredPermission_catalog (k : ℕ) :
    requiredPermission catalogRequestTypeDef k = "requests.approve" := rfl

/-- An approved request of the catalog has been approved on `requests.approve`. -/
theorem Inv.approvedOn (h : Inv s) {submission : CatalogSubmission}
    (hsubmission : submission ∈ s.submissions) {r : RequestItem Payload}
    (hr : r ∈ s.engine.db.requestItems.rows) (hid : r.id = submission.requestId)
    (happroved : r.status = .approved) : s.ApprovedOn r.id "requests.approve" := by
  obtain ⟨r', hr', htype⟩ := h.typed submission hsubmission
  have hfind := Table.find_of_mem hr
  rw [hid, hr'] at hfind
  obtain rfl : r' = r := Option.some.inj hfind
  have hdef : catalogRequestTypeDef ∈ moduleRegistry r'.type := by rw [htype]; rfl
  obtain ⟨review, hreview, k, happroves⟩ := h.permitted.approved r' hr happroved _ hdef
  obtain ⟨authority, hview⟩ := h.viewed.reviews review hreview
  obtain ⟨user, huser, hheld⟩ := happroves.held
  rw [requiredPermission_catalog, hview, Authority.check_view_iff] at hheld
  exact ⟨review, hreview, happroves.requestId, happroves.decision, authority, hview, user, huser,
    hheld.symm⟩

/-! ### Another permission -/

namespace Sample

/-- An item with the permission `p`. -/
def item (p : Varchar 100) : CatalogItem where
  id := 1
  name := ⟨"Laptop", by decide⟩
  description := none
  category := ⟨"hardware", by decide⟩
  iconEmoji := none
  approvalPermission := p
  slaHours := none
  sortOrder := 0
  createdAt := 0
  updatedAt := 0

/-- User 3 holds `requests.approve`, and nobody holds anything else. -/
def authority : Authority where
  effective user := if user = 3 then [("requests.approve", [⟨.global, none⟩])] else []
  delegations := []
  now := 10

/-- User 2 submits a request for the item, and user 3 approves it. -/
def events : List Event :=
  [.submitRequest 1 "For a new colleague" ⟨2, "user2@example.com"⟩ 0 5 ⟨0, 0⟩,
    .read 5 (.approve none ⟨3, "user3@example.com"⟩), .check 0 authority, .commit 0 20 ⟨20, 0⟩]

/-- The state after a run on a catalog with this item. -/
def after (p : Varchar 100) (es : List Event) : CatalogState :=
  Runs.run step (initial [] ⟨[], Tables.empty⟩ ⟨[item p], by simp⟩) es

theorem submissions_after (p : Varchar 100) : (after p events).submissions = [⟨5, item p⟩] := rfl

/-- The engine approves the request, whatever the permission of the item is. -/
theorem approved_after (p : Varchar 100) :
    ∃ r ∈ (after p events).engine.db.requestItems.rows, r.id = 5 ∧ r.status = .approved :=
  ⟨_, List.mem_singleton.2 rfl, rfl, rfl⟩

theorem reviews_after (p : Varchar 100) :
    (after p events).engine.reviews.map (fun review => (review.view, review.principals)) =
      [(authority.view, [3])] := rfl

/-- User 3 holds no other permission. -/
theorem not_approvedOn {p : Varchar 100} (hp : p.val ≠ "requests.approve") (id : Uuid) :
    ¬ (after p events).ApprovedOn id p := by
  rintro ⟨review, hreview, -, -, authority', hview, user, huser, hheld⟩
  have hmem := List.mem_map_of_mem (f := fun review => (review.view, review.principals)) hreview
  rw [reviews_after, List.mem_singleton] at hmem
  obtain ⟨hsample, hprincipals⟩ := Prod.mk.inj hmem
  rw [hprincipals, List.mem_singleton] at huser
  subst huser
  have hcheck := Authority.check_view_iff.2 hheld.symm
  rw [← hview, hsample, Authority.check_view_iff] at hcheck
  rcases hcheck with hwildcard | hpermission
  · exact hwildcard rfl
  · refine hpermission ?_
    show EffectivePermissions.scopes [("requests.approve", [⟨.global, none⟩])] p.val = []
    rw [EffectivePermissions.scopes_cons, if_neg hp]
    rfl

theorem not_enforced_of_ne {p : Varchar 100} (hp : p.val ≠ "requests.approve") : ¬ Enforced p := by
  intro h
  obtain ⟨r, hr, hid, happroved⟩ := approved_after p
  refine not_approvedOn hp r.id ?_
  exact h [] ⟨[], Tables.empty⟩ ⟨[item p], by simp⟩ events ⟨5, item p⟩
    (by rw [← after, submissions_after]; exact List.mem_singleton_self _) rfl r hr hid happroved

end Sample

/-- **Which permissions are enforced**: in every run, the requests for the items with a permission
are approved on that permission, if and only if it is the one of the type definition. -/
theorem enforced_iff (p : Varchar 100) : Enforced p ↔ p.val = "requests.approve" := by
  constructor
  · intro h
    by_contra hp
    exact Sample.not_enforced_of_ne hp h
  · intro hp subscriptions tables catalogItems es s submission hsubmission _ r hr hid happroved
    rw [hp]
    have hinv := Runs.run_invariant step_inv (inv_initial subscriptions tables catalogItems) es
    exact hinv.approvedOn hsubmission hr hid happroved

namespace Sample

/-- The permission to assign roles. -/
def roleAssign : Varchar 100 := ⟨"role.assign", by decide⟩

/-- A request for an item that asks for `role.assign` is approved on `requests.approve`. -/
theorem not_enforced :
    (∃ submission ∈ (after roleAssign events).submissions,
      submission.item.approvalPermission = roleAssign ∧
        ∃ r ∈ (after roleAssign events).engine.db.requestItems.rows,
          r.id = submission.requestId ∧ r.status = .approved ∧
            ¬ (after roleAssign events).ApprovedOn r.id roleAssign) ∧
      ¬ ∀ p, Enforced p := by
  have hne : roleAssign.val ≠ "requests.approve" := by decide
  refine ⟨⟨⟨5, item roleAssign⟩, ?_, rfl, ?_⟩, fun h => not_enforced_of_ne hne (h roleAssign)⟩
  · rw [submissions_after]
    exact List.mem_singleton_self _
  · obtain ⟨r, hr, hid, happroved⟩ := approved_after roleAssign
    exact ⟨r, hr, hid, happroved, not_approvedOn hne r.id⟩

end Sample

end CatalogState

end OpsHub
