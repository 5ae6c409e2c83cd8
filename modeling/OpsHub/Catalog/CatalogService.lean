import OpsHub.Domain.TypeDefs
import OpsHub.Requests.Transitions

/-!
# The service catalog

`CatalogService` with its repository: managers maintain the items of the catalog, and employees
submit requests for them to the engine.

* `CatalogItem`: a row of `catalog_items`, whose `approvalPermission` is what the approval of its
  requests should ask for;
* `CatalogService.submitRequest`: the payload of the engine request holds the id and the name of
  the item, and not its permission;
* `submitRequest_ok`: what has been submitted then.
-/

namespace OpsHub

/-- The values of a column `varchar(n)`. -/
abbrev Varchar (n : ℕ) := { text : String // text.length ≤ n }

/-- A row of `catalog_items`. -/
structure CatalogItem where
  id : Uuid
  name : Varchar 150
  description : Option String
  category : Varchar 80
  iconEmoji : Option (Varchar 10)
  approvalPermission : Varchar 100
  slaHours : Option ℕ
  isActive : Bool := true
  sortOrder : ℕ
  createdAt : Time
  updatedAt : Time
  deriving DecidableEq, Repr

/-- The table `catalog_items`. -/
abbrev CatalogItems := Table CatalogItem.id

/-- `CreateCatalogItemInput`. -/
structure CreateCatalogItemInput where
  name : Varchar 150
  description : Option String := none
  category : Varchar 80
  iconEmoji : Option (Varchar 10) := none
  approvalPermission : Varchar 100
  slaHours : Option ℕ := none
  sortOrder : Option ℕ := none

/-- `UpdateCatalogItemInput`. -/
structure UpdateCatalogItemInput where
  name : Option (Varchar 150) := none
  description : Option (Option String) := none
  category : Option (Varchar 80) := none
  iconEmoji : Option (Option (Varchar 10)) := none
  approvalPermission : Option (Varchar 100) := none
  slaHours : Option (Option ℕ) := none
  isActive : Option Bool := none
  sortOrder : Option ℕ := none

namespace CatalogDrizzleRepository

/-- The row that `create` inserts. -/
def created (input : CreateCatalogItemInput) (now : Time) (newId : Uuid) : CatalogItem where
  id := newId
  name := input.name
  description := input.description
  category := input.category
  iconEmoji := some (input.iconEmoji.getD ⟨"📋", by decide⟩)
  approvalPermission := input.approvalPermission
  slaHours := input.slaHours
  sortOrder := input.sortOrder.getD 0
  createdAt := now
  updatedAt := now

/-- `create`. -/
def create (input : CreateCatalogItemInput) (now : Time) (newId : Uuid) (items : CatalogItems) :
    Except Failure CatalogItems :=
  Outcome.orThrow (.duplicateKey "catalog_items") (items.insert (created input now newId))

/-- The columns that `update` sets. -/
def patched (input : UpdateCatalogItemInput) (now : Time) (item : CatalogItem) : CatalogItem :=
  { item with
    name := input.name.getD item.name
    description := input.description.getD item.description
    category := input.category.getD item.category
    iconEmoji := input.iconEmoji.getD item.iconEmoji
    approvalPermission := input.approvalPermission.getD item.approvalPermission
    slaHours := input.slaHours.getD item.slaHours
    isActive := input.isActive.getD item.isActive
    sortOrder := input.sortOrder.getD item.sortOrder
    updatedAt := now }

theorem id_patched (input : UpdateCatalogItemInput) (now : Time) (item : CatalogItem) :
    (patched input now item).id = item.id := rfl

end CatalogDrizzleRepository

namespace CatalogService

open CatalogDrizzleRepository

/-- `CatalogService.createItem`. -/
def createItem (input : CreateCatalogItemInput) (now : Time) (newId : Uuid)
    (items : CatalogItems) : Except Failure CatalogItems :=
  create input now newId items

/-- `CatalogService.getItem`. -/
def getItem (items : CatalogItems) (id : Uuid) : Except Failure CatalogItem :=
  Outcome.orThrow (.notFound "NOT_FOUND" "Catalog item not found") (items.find id)

/-- `CatalogService.updateItem`. -/
def updateItem (id : Uuid) (input : UpdateCatalogItemInput) (now : Time) (items : CatalogItems) :
    Except Failure CatalogItems := do
  let _ ← getItem items id
  pure (items.update id (patched input now) (id_patched input now))

/-- `CatalogService.deleteItem`. -/
def deleteItem (id : Uuid) (items : CatalogItems) : Except Failure CatalogItems := do
  let _ ← getItem items id
  pure (items.deleteWhere (fun item => decide (item.id = id)))

/-- The payload of the engine request for an item. -/
def enginePayload (item : CatalogItem) (reason : String) : Payload :=
  .catalogRequest { catalogItemId := item.id, catalogItemName := item.name, reason := reason }

/-- The options of the engine request: the SLA of the item, unless it is zero or absent, is the
time after which the request expires. -/
def engineOptions (item : CatalogItem) (now : Time) : SubmitRequestOptions where
  expiresAt := (item.slaHours.filter (fun h => decide (h ≠ 0))).map (fun h => now + h * msPerHour)

/-- `CatalogService.submitRequest`; the result is the engine request, with the item as it has been
read. -/
def submitRequest (catalogItemId : Uuid) (reason : String) (actor : Actor) (now : Time)
    (newId : Uuid) (env : HookEnv) (items : CatalogItems) (db : Db Payload Tables) :
    Except Failure (Db Payload Tables × RequestItem Payload × CatalogItem) := do
  let item ← getItem items catalogItemId
  Outcome.require (item.isActive = true)
    (.notFound "NOT_FOUND" "Catalog item not found or inactive")
  let (db, engineItem) ← RequestEngine.submit moduleRegistry "catalog_request"
    (enginePayload item reason) actor (engineOptions item now) now newId env db
  pure (db, engineItem, item)

/-- **What a successful `submitRequest` has done.** -/
theorem submitRequest_ok {catalogItemId newId : Uuid} {reason : String} {actor : Actor}
    {now : Time} {env : HookEnv} {items : CatalogItems} {db db' : Db Payload Tables}
    {row : RequestItem Payload} {item : CatalogItem}
    (h : submitRequest catalogItemId reason actor now newId env items db = .ok (db', row, item)) :
    items.find catalogItemId = some item ∧ item.isActive = true ∧
      RequestEngine.Submitted moduleRegistry "catalog_request" (enginePayload item reason) actor
        (engineOptions item now) now newId env db db' row := by
  simp only [submitRequest, getItem, Except.bind_eq_ok_iff, Outcome.orThrow_eq_ok_iff,
    Outcome.require_eq_ok_iff, Except.pure_eq_ok_iff, Prod.mk.injEq] at h
  obtain ⟨item', hfind, -, hactive, ⟨db'', row'⟩, hsubmit, rfl, rfl, rfl⟩ := h
  exact ⟨hfind, hactive, RequestEngine.submit_ok hsubmit⟩

end CatalogService

end OpsHub
