import OpsHub.Domain.Tables
import OpsHub.Lib.Outcome
import OpsHub.Lib.Runs

/-!
# Identities and accounts

How `AuthService.entraLogin` finds the employee row of a verified token:
`upsertByEntraOid` looks for the token's object id, then for its e-mail address, and
creates a row if there is neither.  The table `employees` carries its unique indexes and
column lengths as fields, so a statement that breaks one of them fails.

* `Stable`: a login resolves to the row that its identity has resolved to before, and to
  no row that another identity has;
* `logins_bound`: it never resolves to another row in runs that link only rows without an
  object id, and it always resolves if no known identity presents an address that it
  cannot take;
* `not_stable`: an address links a row that belongs to another identity.
-/

namespace OpsHub

/-! ### The table of employees -/

/-- The columns of an employee fit their types. -/
def Employee.Fits (e : Employee) : Prop :=
  (∀ oid ∈ e.entraOid, oid.length ≤ 64) ∧ e.email.length ≤ 255 ∧ e.displayName.length ≤ 200

instance : DecidablePred Employee.Fits := fun e =>
  inferInstanceAs (Decidable ((∀ oid ∈ e.entraOid, oid.length ≤ 64) ∧ e.email.length ≤ 255 ∧
    e.displayName.length ≤ 200))

/-- The index of `uq_employee_email`. -/
def Employee.emailIndex (e : Employee) : Option String := some e.email

/-- The table `employees`, with `uq_employee_email` and `uq_employee_entra_oid`; the latter
leaves out the rows without an object id. -/
structure EmployeeTable where
  table : Table Employee.id
  email : table.Unique Employee.emailIndex
  entraOid : table.Unique Employee.entraOid
  fits : ∀ e ∈ table.rows, e.Fits

/-- The table after a statement, which fails if it breaks a constraint. -/
def EmployeeTable.store (table : Table Employee.id) : Except Failure EmployeeTable :=
  if fits : ∀ e ∈ table.rows, e.Fits then
    if unique : table.Unique Employee.emailIndex ∧ table.Unique Employee.entraOid then
      .ok ⟨table, unique.1, unique.2, fits⟩
    else .error (.duplicateKey "employees")
  else .error (.error "value too long for type character varying")

theorem EmployeeTable.store_eq_ok_iff {table : Table Employee.id} {employees : EmployeeTable} :
    store table = .ok employees ↔ employees.table = table := by
  unfold store
  constructor
  · intro h
    split at h
    · split at h
      · rw [← Except.ok.inj h]
      · cases h
    · cases h
  · rintro rfl
    rw [dif_pos employees.fits, dif_pos ⟨employees.email, employees.entraOid⟩]

/-- A statement that keeps the constraints is executed. -/
theorem EmployeeTable.store_ok {table : Table Employee.id} (fits : ∀ e ∈ table.rows, e.Fits)
    (email : table.Unique Employee.emailIndex) (entraOid : table.Unique Employee.entraOid) :
    ∃ employees, store table = .ok employees :=
  ⟨⟨table, email, entraOid, fits⟩, store_eq_ok_iff.2 rfl⟩

namespace EmployeeDrizzleRepository

/-- `findByEntraOid`. -/
def findByEntraOid (employees : EmployeeTable) (oid : String) : Option Employee :=
  employees.table.findBy Employee.entraOid oid

/-- `findByEmail`. -/
def findByEmail (toLowerCase : String → String) (employees : EmployeeTable) (email : String) :
    Option Employee :=
  employees.table.findBy Employee.emailIndex (toLowerCase email)

/-- The part of `CreateEmployeeInput` that a login knows. -/
structure UpsertInput where
  email : String
  displayName : String
  deriving DecidableEq, Repr

/-- `create`, for the input of a login. -/
def create (oid : String) (input : UpsertInput) (now : Time) (newId : Uuid)
    (employees : EmployeeTable) : Except Failure (EmployeeTable × Employee) := do
  let row : Employee :=
    { id := newId
      entraOid := some oid
      email := input.email
      displayName := input.displayName
      roles := []
      updatedAt := now }
  let table ← Outcome.orThrow (.duplicateKey "employees") (employees.table.insert row)
  let employees ← EmployeeTable.store table
  pure (employees, row)

/-- What a login sets in the row of its object id. -/
def refresh (toLowerCase : String → String) (input : UpsertInput) (now : Time) (e : Employee) :
    Employee :=
  { e with displayName := input.displayName, email := toLowerCase input.email, updatedAt := now }

/-- The statement that refreshes the row of the object id. -/
def refreshByEntraOid (toLowerCase : String → String) (oid : String) (input : UpsertInput)
    (now : Time) (employees : EmployeeTable) : Table Employee.id :=
  employees.table.updateWhere (fun e => decide (e.entraOid = some oid))
    (refresh toLowerCase input now) (fun _ => rfl)

/-- What a login sets in the row of its address. -/
def link (oid : String) (input : UpsertInput) (now : Time) (e : Employee) : Employee :=
  { e with entraOid := some oid, displayName := input.displayName, updatedAt := now }

/-- `upsertByEntraOid`. -/
def upsertByEntraOid (toLowerCase : String → String) (oid : String) (input : UpsertInput)
    (now : Time) (newId : Uuid) (employees : EmployeeTable) :
    Except Failure (EmployeeTable × Employee) :=
  match findByEntraOid employees oid with
  | some existing => do
    -- the index makes the found row the only one that the statement updates
    let employees ← EmployeeTable.store (refreshByEntraOid toLowerCase oid input now employees)
    pure (employees, refresh toLowerCase input now existing)
  | none =>
    match findByEmail toLowerCase employees (toLowerCase input.email) with
    | some byEmail => do
      let employees ← EmployeeTable.store <| employees.table.update byEmail.id
        (link oid input now) (fun _ => rfl)
      pure (employees, link oid input now byEmail)
    | none => create oid input now newId employees

end EmployeeDrizzleRepository

/-! ### Logins -/

/-- The claims of a verified token that `entraLogin` reads before it has a row. -/
structure EntraClaims where
  oid : Option String
  preferredUsername : Option String := none
  email : Option String := none
  upn : Option String := none
  name : Option String := none
  deriving DecidableEq, Repr

/-- `preferred_username ?? email ?? upn`. -/
def EntraClaims.address (claims : EntraClaims) : Option String :=
  (claims.preferredUsername.or claims.email).or claims.upn

/-- The object id and the address of a token that has both; an empty text counts as none. -/
def EntraClaims.identity (claims : EntraClaims) : Option (String × String) :=
  match claims.oid, claims.address with
  | some oid, some address => if oid ≠ "" ∧ address ≠ "" then some (oid, address) else none
  | _, _ => none

theorem EntraClaims.identity_eq_some_iff {claims : EntraClaims} {oid address : String} :
    claims.identity = some (oid, address) ↔
      claims.oid = some oid ∧ claims.address = some address ∧ oid ≠ "" ∧ address ≠ "" := by
  unfold identity
  split
  · rename_i oid' address' hoid haddress
    rw [hoid, haddress]
    by_cases h : oid' ≠ "" ∧ address' ≠ ""
    · rw [if_pos h, Option.some.injEq, Prod.mk.injEq, Option.some.injEq, Option.some.injEq]
      constructor
      · rintro ⟨rfl, rfl⟩
        exact ⟨rfl, rfl, h⟩
      · rintro ⟨rfl, rfl, -⟩
        exact ⟨rfl, rfl⟩
    · rw [if_neg h]
      constructor
      · intro hnone
        cases hnone
      · rintro ⟨hoid', haddress', hne⟩
        rw [Option.some.injEq] at hoid' haddress'
        subst hoid' haddress'
        exact absurd hne h
  · rename_i hnone
    constructor
    · intro h
      cases h
    · rintro ⟨hoid, haddress, -⟩
      exact absurd haddress (hnone oid address hoid)

/-- What a login passes to the repository. -/
def EntraClaims.input (claims : EntraClaims) (toLowerCase : String → String) (address : String) :
    EmployeeDrizzleRepository.UpsertInput where
  email := toLowerCase address
  displayName := claims.name.getD ((address.splitOn "@").headD "")

namespace AuthService

open EmployeeDrizzleRepository

/-- `entraLogin` up to the employee row; what follows writes none of the columns that a
login is resolved by. -/
def entraLogin (toLowerCase : String → String) (claims : EntraClaims) (now : Time) (newId : Uuid)
    (employees : EmployeeTable) : Except Failure (EmployeeTable × Employee) :=
  match claims.identity with
  | some (oid, address) =>
    upsertByEntraOid toLowerCase oid (claims.input toLowerCase address) now newId employees
  | none => .error (.unauthorized "AUTH_INVALID_CREDENTIALS" "Token missing oid or email claim")

end AuthService

namespace EntraBinding

open EmployeeDrizzleRepository AuthService

/-- A login that has been made: its identity, and the row it was resolved to, if any. -/
structure Login where
  oid : Option String
  resolved : Option Uuid
  deriving DecidableEq, Repr

/-- The employees, and the logins so far. -/
structure State where
  employees : EmployeeTable
  logins : List Login

/-- A call of `entraLogin`. -/
structure Event where
  claims : EntraClaims
  now : Time
  newId : Uuid
  deriving DecidableEq, Repr

/-- The state after a login; one that throws writes nothing. -/
def step (toLowerCase : String → String) (s : State) (e : Event) : State :=
  match entraLogin toLowerCase e.claims e.now e.newId s.employees with
  | .ok (employees, employee) => ⟨employees, s.logins ++ [⟨e.claims.oid, some employee.id⟩]⟩
  | .error _ => ⟨s.employees, s.logins ++ [⟨e.claims.oid, none⟩]⟩

/-- The later login `y` keeps to the row of the earlier login `x`, if it is resolved. -/
def SameRow (x y : Login) : Prop :=
  ∀ id, x.resolved = some id →
    (y.oid = x.oid → y.resolved = some id ∨ y.resolved = none) ∧
    (y.oid ≠ x.oid → y.resolved ≠ some id)

/-- The later login `y` is resolved to the row of the earlier login `x` exactly if it has
the same identity. -/
def Resolves (x y : Login) : Prop :=
  ∀ id, x.resolved = some id → (y.resolved = some id ↔ y.oid = x.oid)

/-- **Stable identities.** -/
def Stable (logins : List Login) : Prop := logins.Pairwise Resolves

/-! ### The conditions -/

section Conditions

variable (toLowerCase : String → String)

/-- The row that a login with an unknown identity finds by its address. -/
def State.linked (s : State) (e : Event) : Option Employee :=
  e.claims.identity.bind fun (oid, address) =>
    if findByEntraOid s.employees oid = none then
      findByEmail toLowerCase s.employees (toLowerCase (toLowerCase address))
    else none

/-- A login links no row that has an object id. -/
def LinksUnbound (s : State) (e : Event) : Prop :=
  ∀ row ∈ s.linked toLowerCase e, row.entraOid = none

instance (s : State) (e : Event) : Decidable (LinksUnbound toLowerCase s e) :=
  inferInstanceAs (Decidable (∀ row ∈ s.linked toLowerCase e, row.entraOid = none))

/-- The row with the identity of a login. -/
def State.known (s : State) (e : Event) : Option Employee :=
  e.claims.oid.bind (findByEntraOid s.employees)

/-- A login with a known identity has an address and a name that its row can take: they fit
the columns, and no other row has the address. -/
def PresentsOwn (s : State) (e : Event) : Prop :=
  ∀ existing ∈ s.known e, ∃ address ∈ e.claims.address, address ≠ "" ∧
    (refresh toLowerCase (e.claims.input toLowerCase address) e.now existing).Fits ∧
    ∀ row ∈ s.employees.table.rows, row.email = toLowerCase (toLowerCase address) →
      row.id = existing.id

instance (s : State) (e : Event) : Decidable (PresentsOwn toLowerCase s e) :=
  inferInstanceAs (Decidable (∀ existing ∈ s.known e, ∃ address ∈ e.claims.address, address ≠ "" ∧
    (refresh toLowerCase (e.claims.input toLowerCase address) e.now existing).Fits ∧
    ∀ row ∈ s.employees.table.rows, row.email = toLowerCase (toLowerCase address) →
      row.id = existing.id))

end Conditions

/-! ### One login -/

section Logins

variable {toLowerCase : String → String} {oid : String} {input : UpsertInput} {now : Time}
  {newId : Uuid} {employees employees' : EmployeeTable} {employee : Employee} {s : State} {e : Event}

/-- **What a login does to the table**: it resolves to a row with its identity, the row that
had it before if there is one, and leaves the identities of the other rows alone, unless it
links one of them by its address. -/
structure Upserted (toLowerCase : String → String) (oid address : String)
    (employees employees' : EmployeeTable) (employee : Employee) : Prop where
  mem : employee ∈ employees'.table.rows
  entraOid : employee.entraOid = some oid
  known : ∀ row ∈ employees.table.rows, row.entraOid = some oid → employee.id = row.id
  kept : ∀ row ∈ employees.table.rows, row.entraOid ≠ none →
    (∃ row' ∈ employees'.table.rows, row'.id = row.id ∧ row'.entraOid = row.entraOid) ∨
      (findByEntraOid employees oid = none ∧
        findByEmail toLowerCase employees (toLowerCase address) = some row)

/-- The update of the row that has the identity. -/
theorem upserted_known {existing : Employee}
    (hexisting : findByEntraOid employees oid = some existing)
    (hstore : employees'.table = refreshByEntraOid toLowerCase oid input now employees) :
    Upserted toLowerCase oid input.email employees employees'
      (refresh toLowerCase input now existing) := by
  obtain ⟨hmem, hoid⟩ := Table.findBy_spec hexisting
  constructor
  · rw [hstore]
    exact Table.mem_updateWhere.2 ⟨existing, hmem, by simp [hoid]⟩
  · exact hoid
  · intro row hrow hrowOid
    rw [employees.entraOid.eq hmem hrow hoid hrowOid]
    rfl
  · intro row hrow _
    refine Or.inl ⟨_, by rw [hstore]; exact Table.mem_updateWhere.2 ⟨row, hrow, rfl⟩, ?_⟩
    split
    · exact ⟨rfl, rfl⟩
    · exact ⟨rfl, rfl⟩

/-- The link of the row that has the address. -/
theorem upserted_linked {byEmail : Employee} (hnone : findByEntraOid employees oid = none)
    (hfound : findByEmail toLowerCase employees (toLowerCase input.email) = some byEmail)
    (hstore : employees'.table = employees.table.update byEmail.id (link oid input now)
      (fun _ => rfl)) :
    Upserted toLowerCase oid input.email employees employees' (link oid input now byEmail) := by
  obtain ⟨hmem, -⟩ := Table.findBy_spec hfound
  constructor
  · rw [hstore]
    exact Table.mem_updateWhere.2 ⟨byEmail, hmem, by simp⟩
  · rfl
  · intro row hrow hrowOid
    exact absurd hrowOid (Table.findBy_eq_none_iff.1 hnone row hrow)
  · intro row hrow _
    by_cases hid : row.id = byEmail.id
    · exact Or.inr ⟨hnone, by rw [hfound, employees.table.eq_of_key_eq hmem hrow hid.symm]⟩
    · refine Or.inl ⟨row, ?_, rfl, rfl⟩
      rw [hstore]
      exact Table.mem_updateWhere.2 ⟨row, hrow, by simp [hid]⟩

/-- The creation of a row. -/
theorem upserted_created (hnone : findByEntraOid employees oid = none)
    (hcreate : create oid input now newId employees = .ok (employees', employee)) :
    Upserted toLowerCase oid input.email employees employees' employee := by
  simp only [create, Except.bind_eq_ok_iff, Outcome.orThrow_eq_ok_iff, Except.pure_eq_ok_iff,
    Prod.mk.injEq] at hcreate
  obtain ⟨table, hins, employees'', hstore, rfl, rfl⟩ := hcreate
  rw [EmployeeTable.store_eq_ok_iff] at hstore
  constructor
  · rw [hstore]
    exact (Table.mem_insert hins).2 (Or.inr rfl)
  · rfl
  · intro row hrow hrowOid
    exact absurd hrowOid (Table.findBy_eq_none_iff.1 hnone row hrow)
  · intro row hrow _
    refine Or.inl ⟨row, ?_, rfl, rfl⟩
    rw [hstore]
    exact (Table.mem_insert hins).2 (Or.inl hrow)

/-- **The specification of `upsertByEntraOid`.** -/
theorem upsertByEntraOid_ok
    (h : upsertByEntraOid toLowerCase oid input now newId employees = .ok (employees', employee)) :
    Upserted toLowerCase oid input.email employees employees' employee := by
  unfold upsertByEntraOid at h
  cases hknown : findByEntraOid employees oid with
  | some existing =>
    simp only [hknown, Except.bind_eq_ok_iff, Except.pure_eq_ok_iff, Prod.mk.injEq] at h
    obtain ⟨employees'', hstore, rfl, rfl⟩ := h
    exact upserted_known hknown (EmployeeTable.store_eq_ok_iff.1 hstore)
  | none =>
    cases hfound : findByEmail toLowerCase employees (toLowerCase input.email) with
    | some byEmail =>
      simp only [hknown, hfound, Except.bind_eq_ok_iff, Except.pure_eq_ok_iff, Prod.mk.injEq] at h
      obtain ⟨employees'', hstore, rfl, rfl⟩ := h
      exact upserted_linked hknown hfound (EmployeeTable.store_eq_ok_iff.1 hstore)
    | none =>
      simp only [hknown, hfound] at h
      exact upserted_created hknown h

/-- A successful login has an identity, and upserts it. -/
theorem entraLogin_ok {claims : EntraClaims}
    (h : entraLogin toLowerCase claims now newId employees = .ok (employees', employee)) :
    ∃ oid address, claims.identity = some (oid, address) ∧
      Upserted toLowerCase oid (toLowerCase address) employees employees' employee := by
  unfold entraLogin at h
  split at h
  · rename_i oid address hidentity
    exact ⟨oid, address, hidentity, upsertByEntraOid_ok h⟩
  · cases h

/-- A refreshed table has the refreshed row of the identity and old rows. -/
theorem mem_refreshByEntraOid {existing row : Employee} (hexisting : existing.entraOid = some oid)
    (hmem : existing ∈ employees.table.rows)
    (h : row ∈ (refreshByEntraOid toLowerCase oid input now employees).rows) :
    row = refresh toLowerCase input now existing ∨ row ∈ employees.table.rows := by
  obtain ⟨old, hold, rfl⟩ := Table.mem_updateWhere.1 h
  split
  · rename_i holdOid
    rw [employees.entraOid.eq hold hmem (of_decide_eq_true holdOid) hexisting]
    exact Or.inl rfl
  · exact Or.inr hold

/-- The row of an identity can be refreshed with an address that no other row has. -/
theorem refresh_store {existing : Employee} (hexisting : existing.entraOid = some oid)
    (hmem : existing ∈ employees.table.rows)
    (hfits : (refresh toLowerCase input now existing).Fits)
    (hfree : ∀ row ∈ employees.table.rows, row.email = toLowerCase input.email →
      row.id = existing.id) :
    ∃ employees',
      EmployeeTable.store (refreshByEntraOid toLowerCase oid input now employees) = .ok employees' := by
  refine EmployeeTable.store_ok ?_ ?_ (employees.entraOid.updateWhere fun _ => rfl)
  · intro row hrow
    rcases mem_refreshByEntraOid hexisting hmem hrow with rfl | hold
    · exact hfits
    · exact employees.fits row hold
  · intro x hx x' hx' hne heq
    have hemail : x.email = x'.email := Option.some.inj heq
    rcases mem_refreshByEntraOid hexisting hmem hx with rfl | hold
    · rcases mem_refreshByEntraOid hexisting hmem hx' with rfl | hold'
      · rfl
      · exact (hfree x' hold' hemail.symm).symm
    · rcases mem_refreshByEntraOid hexisting hmem hx' with rfl | hold'
      · exact hfree x hold hemail
      · exact employees.email x hold x' hold' hne heq

/-- A login with a known identity succeeds if its row can take the address and the name. -/
theorem entraLogin_known {existing : Employee} (hknown : s.known e = some existing)
    (hoid : e.claims.oid ≠ some "") (hown : PresentsOwn toLowerCase s e) :
    ∃ res, entraLogin toLowerCase e.claims e.now e.newId s.employees = .ok res := by
  obtain ⟨address, haddress, hne, hfits, hfree⟩ := hown existing hknown
  obtain ⟨oid, hclaim, hfind⟩ := Option.bind_eq_some_iff.1 hknown
  obtain ⟨hmem, hexisting⟩ := Table.findBy_spec hfind
  have hidentity : e.claims.identity = some (oid, address) := by
    refine EntraClaims.identity_eq_some_iff.2 ⟨hclaim, haddress, ?_, hne⟩
    rintro rfl
    exact hoid hclaim
  obtain ⟨employees, hstore⟩ := refresh_store hexisting hmem hfits hfree
  refine ⟨(employees, refresh toLowerCase (e.claims.input toLowerCase address) e.now existing), ?_⟩
  simp only [entraLogin, hidentity, upsertByEntraOid, hfind, hstore]
  rfl

/-! ### Runs of logins -/

/-- Every resolved login has its identity in the row it was resolved to. -/
def Bound (s : State) : Prop :=
  ∀ x ∈ s.logins, ∀ id, x.resolved = some id →
    ∃ oid, x.oid = some oid ∧ oid ≠ "" ∧
      ∃ row ∈ s.employees.table.rows, row.id = id ∧ row.entraOid = some oid

/-- A login with the identity of a resolved one finds the row of that. -/
theorem Bound.known (h : Bound s) {x : Login} (hx : x ∈ s.logins) {id : Uuid}
    (hid : x.resolved = some id) (hsame : e.claims.oid = x.oid) :
    (∃ row, s.known e = some row) ∧ e.claims.oid ≠ some "" := by
  obtain ⟨oid, hoid, hne, row, hrow, -, hrowOid⟩ := h x hx id hid
  have hclaim : e.claims.oid = some oid := hsame.trans hoid
  refine ⟨⟨row, ?_⟩, ?_⟩
  · rw [State.known, hclaim, Option.bind_some]
    exact s.employees.entraOid.findBy_of_mem hrow hrowOid
  · rw [hclaim]
    exact fun heq => hne (Option.some.inj heq)

/-- A row with an identity keeps it: a login that links no row of another identity does not link
it. -/
theorem Upserted.bound_kept {oid address : String} {employees : EmployeeTable} {employee : Employee}
    (hup : Upserted toLowerCase oid (toLowerCase address) s.employees employees employee)
    (hidentity : e.claims.identity = some (oid, address)) (hlink : LinksUnbound toLowerCase s e)
    {row : Employee} (hrow : row ∈ s.employees.table.rows) (hbound : row.entraOid ≠ none) :
    ∃ row' ∈ employees.table.rows, row'.id = row.id ∧ row'.entraOid = row.entraOid := by
  rcases hup.kept row hrow hbound with hkept | ⟨hnone, hfound⟩
  · exact hkept
  · refine absurd (hlink row ?_) hbound
    rw [State.linked, hidentity]
    show row ∈ if findByEntraOid s.employees oid = none then _ else none
    rw [if_pos hnone]
    exact hfound

/-- Where rows keep their identities, a login is resolved to the row of an earlier one exactly if
the identities are the same. -/
theorem Bound.resolves (h : Bound s) {oid address : String} {employees : EmployeeTable}
    {employee : Employee}
    (hup : Upserted toLowerCase oid (toLowerCase address) s.employees employees employee)
    (hclaim : e.claims.oid = some oid)
    (hkept : ∀ row ∈ s.employees.table.rows, row.entraOid ≠ none →
      ∃ row' ∈ employees.table.rows, row'.id = row.id ∧ row'.entraOid = row.entraOid)
    {x : Login} (hx : x ∈ s.logins) : Resolves x ⟨e.claims.oid, some employee.id⟩ := by
  intro id hid
  obtain ⟨oid', hoid', -, row, hrow, rfl, hrowOid⟩ := h x hx id hid
  show some employee.id = some row.id ↔ e.claims.oid = x.oid
  rw [hclaim, hoid', Option.some.injEq, Option.some.injEq]
  constructor
  · -- one row has one identity
    intro heq
    obtain ⟨row', hrow', hid', hoid''⟩ := hkept row hrow (by simp [hrowOid])
    have hrows := employees.table.eq_of_key_eq hup.mem hrow' (heq.trans hid'.symm)
    have hoids : some oid = some oid' := by
      rw [← hup.entraOid, hrows, hoid'', hrowOid]
    exact Option.some.inj hoids
  · rintro rfl
    exact hup.known row hrow hrowOid

/-- **The step lemma.**  A login that links no row of another identity keeps to the rows of
the logins before it, and resolves if it is known and presents what its row can take. -/
theorem step_bound (h : Bound s) (hlink : LinksUnbound toLowerCase s e) :
    Bound (step toLowerCase s e) ∧ ∃ y, (step toLowerCase s e).logins = s.logins ++ [y] ∧
      ∀ x ∈ s.logins, SameRow x y ∧ (PresentsOwn toLowerCase s e → Resolves x y) := by
  cases hlogin : entraLogin toLowerCase e.claims e.now e.newId s.employees with
  | error failure =>
    have hstep : step toLowerCase s e = ⟨s.employees, s.logins ++ [⟨e.claims.oid, none⟩]⟩ := by
      rw [step, hlogin]
    rw [hstep]
    refine ⟨?_, _, rfl, ?_⟩
    · intro x hx id hid
      rcases List.mem_append.1 hx with hx | hx
      · exact h x hx id hid
      · rw [List.mem_singleton.1 hx] at hid
        cases hid
    · intro x hx
      refine ⟨fun id _ => ⟨fun _ => Or.inr rfl, fun _ => by simp⟩, fun hown id hid => ?_⟩
      constructor
      · intro hnone
        cases hnone
      · -- a login with the identity of `x` would have found the row of `x`
        intro hsame
        obtain ⟨⟨row, hknown⟩, hnonempty⟩ := h.known hx hid hsame
        obtain ⟨res, hres⟩ := entraLogin_known hknown hnonempty hown
        rw [hlogin] at hres
        cases hres
  | ok res =>
    obtain ⟨employees, employee⟩ := res
    obtain ⟨oid, address, hidentity, hup⟩ := entraLogin_ok hlogin
    obtain ⟨hclaim, -, hne, -⟩ := EntraClaims.identity_eq_some_iff.1 hidentity
    have hstep : step toLowerCase s e =
        ⟨employees, s.logins ++ [⟨e.claims.oid, some employee.id⟩]⟩ := by
      rw [step, hlogin]
    rw [hstep]
    have hkept : ∀ row ∈ s.employees.table.rows, row.entraOid ≠ none →
        ∃ row' ∈ employees.table.rows, row'.id = row.id ∧ row'.entraOid = row.entraOid :=
      fun row hrow hbound => hup.bound_kept hidentity hlink hrow hbound
    refine ⟨?_, _, rfl, ?_⟩
    · intro x hx id hid
      rcases List.mem_append.1 hx with hx | hx
      · obtain ⟨oid', hoid', hne', row, hrow, rfl, hrowOid⟩ := h x hx id hid
        obtain ⟨row', hrow', hid', hoid''⟩ := hkept row hrow (by simp [hrowOid])
        exact ⟨oid', hoid', hne', row', hrow', hid', hoid''.trans hrowOid⟩
      · rw [List.mem_singleton.1 hx] at hid ⊢
        obtain rfl := Option.some.inj hid
        exact ⟨oid, hclaim, hne, employee, hup.mem, rfl, hup.entraOid⟩
    · intro x hx
      have hiff : Resolves x ⟨e.claims.oid, some employee.id⟩ := h.resolves hup hclaim hkept hx
      refine ⟨fun id hid => ⟨fun hsame => Or.inl ((hiff id hid).2 hsame), fun hdiff heq => ?_⟩,
        fun _ => hiff⟩
      exact hdiff ((hiff id hid).1 heq)

end Logins

/-- **Logins stay with their rows.**  In every run of logins that link no row of another
identity, a login is resolved to the row that its identity has had before and to no row of
another one, unless it throws.  If moreover known identities present addresses and names
that their rows can take, identities are stable. -/
theorem logins_bound (toLowerCase : String → String) (employees : EmployeeTable)
    (es : List Event)
    (hlink : Runs.Meets (step toLowerCase) (LinksUnbound toLowerCase) ⟨employees, []⟩ es) :
    (Runs.run (step toLowerCase) ⟨employees, []⟩ es).logins.Pairwise SameRow ∧
      (Runs.Meets (step toLowerCase) (PresentsOwn toLowerCase) ⟨employees, []⟩ es →
        Stable (Runs.run (step toLowerCase) ⟨employees, []⟩ es).logins) := by
  have happend : ∀ {R : Login → Login → Prop} {logins : List Login} {y : Login},
      logins.Pairwise R → (∀ x ∈ logins, R x y) → (logins ++ [y]).Pairwise R := by
    intro R logins y hpair hlast
    rw [List.pairwise_append]
    refine ⟨hpair, List.pairwise_singleton R y, ?_⟩
    intro x hx z hz
    rw [List.mem_singleton.1 hz]
    exact hlast x hx
  constructor
  · have hrun := @Runs.run_induction _ _ (step toLowerCase) (LinksUnbound toLowerCase)
      (fun s => Bound s ∧ s.logins.Pairwise SameRow)
      (by
        rintro s e ⟨hbound, hpair⟩ hlink
        obtain ⟨hbound', y, hlogins, hy⟩ := step_bound hbound hlink
        refine ⟨hbound', ?_⟩
        rw [hlogins]
        exact happend hpair fun x hx => (hy x hx).1)
      ⟨employees, []⟩ es ⟨by simp [Bound], List.Pairwise.nil⟩ hlink
    exact hrun.2
  · intro hown
    have hrun := @Runs.run_induction _ _ (step toLowerCase)
      (fun s e => LinksUnbound toLowerCase s e ∧ PresentsOwn toLowerCase s e)
      (fun s => Bound s ∧ Stable s.logins)
      (by
        rintro s e ⟨hbound, hpair⟩ ⟨hlink, hown⟩
        obtain ⟨hbound', y, hlogins, hy⟩ := step_bound hbound hlink
        refine ⟨hbound', ?_⟩
        rw [hlogins]
        exact happend hpair fun x hx => (hy x hx).2 hown)
      ⟨employees, []⟩ es ⟨by simp [Bound], List.Pairwise.nil⟩ (Runs.meets_and.2 ⟨hlink, hown⟩)
    exact hrun.2

/-! ### An address that changes hands -/

namespace Takeover

/-- An empty directory. -/
def empty : EmployeeTable := ⟨Table.empty _, by simp [Table.Unique], by simp [Table.Unique], by simp⟩

def login (oid address : String) (newId : Uuid) : Event :=
  ⟨{ oid := some oid, preferredUsername := some address, name := some "Lan Le" }, 0, newId⟩

/-- Two identities present the same address, one after the other. -/
def es : List Event := [login "oid-a" "lan@corp.vn" 1, login "oid-b" "lan@corp.vn" 2]

/-- Two identities with addresses of their own; one of them gets a new address. -/
def apart : List Event :=
  [login "oid-a" "lan@corp.vn" 1, login "oid-b" "minh@corp.vn" 2, login "oid-a" "Lan.Le@corp.vn" 3]

end Takeover

/-- The second identity takes over the account of the first. -/
theorem not_stable :
    ¬ ∀ (employees : EmployeeTable) (es : List Event),
      Stable (Runs.run (step String.toLower) ⟨employees, []⟩ es).logins := by
  intro h
  have hpair := h Takeover.empty Takeover.es
  have hlogins : (Runs.run (step String.toLower) ⟨Takeover.empty, []⟩ Takeover.es).logins =
      [⟨some "oid-a", some 1⟩, ⟨some "oid-b", some 1⟩] := by decide +kernel
  rw [hlogins, Stable, List.pairwise_pair] at hpair
  have hsame := (hpair 1 rfl).1 rfl
  exact absurd hsame (by decide)

/-- Two identities that present addresses of their own. -/
theorem logins_bound_apart :
    Stable (Runs.run (step String.toLower) ⟨Takeover.empty, []⟩ Takeover.apart).logins ∧
      (Runs.run (step String.toLower) ⟨Takeover.empty, []⟩ Takeover.apart).logins.map
        Login.resolved = [some 1, some 2, some 1] := by
  refine ⟨(logins_bound String.toLower Takeover.empty Takeover.apart ?_).2 ?_, ?_⟩
  · decide +kernel
  · decide +kernel
  · decide +kernel

end EntraBinding

end OpsHub
