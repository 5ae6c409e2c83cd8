import OpsHub.Ai.AiService
import OpsHub.Lib.Paging

/-!
# The unified inbox

`RequestEngine.list` behind its controller: a page of the requests that meet the filters, each
with its approvals, and `buildPageResult`.  The two ordered queries may return ties in any order;
`ListAnswers` is what the database makes of them in one call.

* `listPage`, `buildPageResult`: the call, and the page that the client sees;
* `groupByRequest_eq`: the map of approvals;
* `exists_answers_list`: the page that the assistant's tool reads is one of the answers;
* `approvals_listPage`, `hasNextPage_iff`: what holds of every page;
* `pagesComplete_iff`: the pages show every request once, whatever the answers, if and only if
  no border between two pages falls between requests created at the same time.
-/

namespace OpsHub

/-! ### Pages -/

/-- `PageInfo`. -/
structure PageInfo where
  total : ℕ
  limit : ℕ
  offset : ℕ
  hasNextPage : Bool
  deriving DecidableEq, Repr

/-- `PagedResult`. -/
structure PagedResult (α : Type) where
  data : List α
  pageInfo : PageInfo

/-- `buildPageResult`. -/
def buildPageResult {α : Type} (data : List α) (total limit offset : ℕ) : PagedResult α where
  data := data
  pageInfo := ⟨total, limit, offset, decide (offset + data.length < total)⟩

namespace RequestEngine

variable {π : Type}

/-- `desc(createdAt)`. -/
abbrev NewestFirst : RequestItem π → RequestItem π → Prop := Paging.Desc RequestItem.createdAt

/-- `asc(step), asc(decidedAt)`. -/
def ApprovalOrder (a b : RequestApproval) : Prop :=
  a.step < b.step ∨ a.step = b.step ∧ a.decidedAt ≤ b.decidedAt

/-- What the database makes of the two `ORDER BY` clauses of a call. -/
structure ListAnswers (π : Type) where
  items : Paging.Sorter (NewestFirst (π := π))
  approvals : Paging.Sorter ApprovalOrder

/-- The filters that `list` goes by: an empty type counts as none. -/
def givenFilters (filters : RequestFilters) : RequestFilters :=
  { filters with type := filters.type.filter (fun type => decide (type ≠ "")) }

/-- The requests that meet the filters. -/
def matching (filters : RequestFilters) (actorId : Uuid)
    (requestItems : Table (@RequestItem.id π)) : List (RequestItem π) :=
  requestItems.rows.filter (meetsFilters (givenFilters filters) (some actorId))

/-- `approvalMap`. -/
def groupByRequest (approvals : List RequestApproval) : Uuid → List RequestApproval :=
  approvals.foldl (fun map a => Function.update map a.requestId (map a.requestId ++ [a]))
    (fun _ => [])

/-- `list`. -/
def listPage (answers : ListAnswers π) (filters : RequestFilters) (actorId : Uuid)
    (limit offset : ℕ) (requestItems : Table (@RequestItem.id π))
    (requestApprovals : List RequestApproval) :
    List (RequestItem π × List RequestApproval) × ℕ :=
  let rows := ((answers.items.sort (matching filters actorId requestItems)).drop offset).take limit
  let count := (matching filters actorId requestItems).length
  let ids := rows.map (fun r => r.id)
  let allApprovals := if 0 < ids.length then
    answers.approvals.sort (requestApprovals.filter (fun a => decide (a.requestId ∈ ids))) else []
  let approvalMap := groupByRequest allApprovals
  (rows.map fun r => (r, approvalMap r.id), count)

/-- The page at offset `k * limit`. -/
def pageAt (answers : ℕ → ListAnswers π) (filters : RequestFilters) (actorId : Uuid) (limit : ℕ)
    (requestItems : Table (@RequestItem.id π)) (requestApprovals : List RequestApproval) (k : ℕ) :
    List (RequestItem π × List RequestApproval) × ℕ :=
  listPage (answers k) filters actorId limit (k * limit) requestItems requestApprovals

/-- The pages put together are the requests that meet the filters, each once; a request comes
with its approvals, ordered by their steps; the total is right, and there is a next page unless
the page is the last. -/
structure PagesComplete (answers : ℕ → ListAnswers π) (filters : RequestFilters) (actorId : Uuid)
    (limit : ℕ) (requestItems : Table (@RequestItem.id π))
    (requestApprovals : List RequestApproval) : Prop where
  exactlyOnce : ∀ m, (matching filters actorId requestItems).length ≤ m * limit →
    ((List.range m).flatMap fun k => (pageAt answers filters actorId limit requestItems
      requestApprovals k).1.map Prod.fst).Perm (matching filters actorId requestItems)
  approvals : ∀ k, ∀ p ∈ (pageAt answers filters actorId limit requestItems requestApprovals k).1,
    p.2.Perm (requestApprovals.filter (fun a => decide (a.requestId = p.1.id))) ∧
      p.2.Pairwise (fun a b => a.step ≤ b.step)
  total : ∀ k, (pageAt answers filters actorId limit requestItems requestApprovals k).2 =
    (matching filters actorId requestItems).length
  hasNextPage : ∀ k, let page := pageAt answers filters actorId limit requestItems requestApprovals k
    (buildPageResult page.1 page.2 limit (k * limit)).pageInfo.hasNextPage = true ↔
      (k + 1) * limit < (matching filters actorId requestItems).length

/-! ### Approvals -/

instance : DecidableRel ApprovalOrder := fun a b =>
  inferInstanceAs (Decidable (a.step < b.step ∨ a.step = b.step ∧ a.decidedAt ≤ b.decidedAt))

theorem approvalOrder_total (a b : RequestApproval) : ApprovalOrder a b ∨ ApprovalOrder b a := by
  rcases Nat.lt_trichotomy a.step b.step with hlt | heq | hgt
  · exact Or.inl (Or.inl hlt)
  · rcases Nat.le_total a.decidedAt b.decidedAt with hle | hge
    · exact Or.inl (Or.inr ⟨heq, hle⟩)
    · exact Or.inr (Or.inr ⟨heq.symm, hge⟩)
  · exact Or.inr (Or.inl hgt)

theorem approvalOrder_trans (a b c : RequestApproval) (hab : ApprovalOrder a b)
    (hbc : ApprovalOrder b c) : ApprovalOrder a c := by
  rcases hab with hab | ⟨hab, hle⟩
  · rcases hbc with hbc | ⟨hbc, -⟩
    · exact Or.inl (hab.trans hbc)
    · exact Or.inl (hab.trans_eq hbc)
  · rcases hbc with hbc | ⟨hbc, hle'⟩
    · exact Or.inl (hab.trans_lt hbc)
    · exact Or.inr ⟨hab.trans hbc, Nat.le_trans hle hle'⟩

/-- Insertion answers both clauses. -/
def ListAnswers.insertion : ListAnswers π where
  items := Paging.Sorter.insertion _
    (fun a b => (Nat.le_total a.createdAt b.createdAt).symm)
    (fun _ _ _ hab hbc => le_trans (α := ℕ) hbc hab)
  approvals := Paging.Sorter.insertion _ approvalOrder_total approvalOrder_trans

theorem groupByRequest_eq (approvals : List RequestApproval) (id : Uuid) :
    groupByRequest approvals id = approvals.filter (fun a => decide (a.requestId = id)) := by
  have hfold : ∀ map : Uuid → List RequestApproval,
      approvals.foldl (fun map a => Function.update map a.requestId (map a.requestId ++ [a])) map id =
        map id ++ approvals.filter (fun a => decide (a.requestId = id)) := by
    induction approvals with
    | nil => exact fun map => (List.append_nil _).symm
    | cons a approvals ih =>
      intro map
      rw [List.foldl_cons, ih]
      by_cases ha : a.requestId = id
      · subst ha
        rw [Function.update_self, List.filter_cons_of_pos (by simp), List.append_assoc,
          List.singleton_append]
      · rw [Function.update_of_ne (Ne.symm ha), List.filter_cons_of_neg (by simpa using ha)]
  exact hfold fun _ => []

/-- The approvals of a request on the page are among those of the page. -/
theorem and_onPage {ids : List Uuid} {id : Uuid} (hid : id ∈ ids) (a : RequestApproval) :
    (decide (a.requestId = id) && decide (a.requestId ∈ ids)) = decide (a.requestId = id) := by
  by_cases ha : a.requestId = id
  · rw [decide_eq_true ha, decide_eq_true (ha ▸ hid)]
    rfl
  · rw [decide_eq_false ha, Bool.false_and]

variable {answers : ListAnswers π} {filters : RequestFilters} {actorId : Uuid} {limit offset : ℕ}
  {requestItems : Table (@RequestItem.id π)} {requestApprovals : List RequestApproval}

/-- The requests of a page. -/
theorem map_fst_listPage : (listPage answers filters actorId limit offset requestItems
    requestApprovals).1.map Prod.fst =
      ((answers.items.sort (matching filters actorId requestItems)).drop offset).take limit := by
  rw [listPage, List.map_map]
  exact List.map_id _

/-- The number of requests on a page. -/
theorem length_listPage : (listPage answers filters actorId limit offset requestItems
    requestApprovals).1.length =
      min limit ((matching filters actorId requestItems).length - offset) := by
  rw [← List.length_map (f := Prod.fst), map_fst_listPage, List.length_take, List.length_drop,
    (answers.items.perm _).length_eq]

/-- **The approvals of a request on a page** are its own, ordered by their steps. -/
theorem approvals_listPage {p : RequestItem π × List RequestApproval}
    (hp : p ∈ (listPage answers filters actorId limit offset requestItems requestApprovals).1) :
    p.2.Perm (requestApprovals.filter (fun a => decide (a.requestId = p.1.id))) ∧
      p.2.Pairwise (fun a b => a.step ≤ b.step) := by
  obtain ⟨r, hr, rfl⟩ := List.mem_map.1 hp
  have hid : r.id ∈ (((answers.items.sort (matching filters actorId requestItems)).drop
      offset).take limit).map (fun r => r.id) := List.mem_map_of_mem hr
  simp only [if_pos (List.length_pos_of_mem hid), groupByRequest_eq]
  refine ⟨((answers.approvals.perm _).filter _).trans (List.Perm.of_eq ?_), ?_⟩
  · rw [List.filter_filter]
    exact List.filter_congr fun a _ => and_onPage hid a
  · refine ((answers.approvals.sorted _).filter _).imp fun hab => ?_
    rcases hab with hlt | ⟨heq, -⟩
    · exact hlt.le
    · exact heq.le

/-- **The tool of the assistant** reads a page that is one of the answers. -/
theorem exists_answers_list (htype : filters.type ≠ some "") :
    ∃ answers : ListAnswers π, list filters (some actorId) (some limit) offset requestItems
      requestApprovals =
        listPage answers filters actorId limit offset requestItems requestApprovals := by
  have hgiven : givenFilters filters = filters := by
    obtain ⟨type, requesterId, assigneeId, status, myQueue⟩ := filters
    cases type with
    | none => rfl
    | some type =>
      have hne : type ≠ "" := fun heq => htype (congrArg some heq)
      simp [givenFilters, hne]
  have hmatching : requestItems.rows.filter (meetsFilters filters (some actorId)) =
      matching filters actorId requestItems := by rw [matching, hgiven]
  -- the sorted approvals of the page are one way to sort the approvals of the page
  let rows := (((ListAnswers.insertion (π := π)).items.sort
    (matching filters actorId requestItems)).drop offset).take limit
  let onPage := fun a : RequestApproval => decide (a.requestId ∈ rows.map (fun r => r.id))
  let approvals := requestApprovals.insertionSort ApprovalOrder
  have hperm : (approvals.filter onPage).Perm (requestApprovals.filter onPage) :=
    (List.perm_insertionSort _ _).filter _
  have hsorted : (approvals.filter onPage).Pairwise ApprovalOrder :=
    ((ListAnswers.insertion (π := π)).approvals.sorted requestApprovals).filter onPage
  refine ⟨⟨(ListAnswers.insertion (π := π)).items, (ListAnswers.insertion (π := π)).approvals.replace
    (requestApprovals.filter onPage) (approvals.filter onPage) hperm hsorted⟩, ?_⟩
  unfold list listPage
  rw [hmatching]
  refine Prod.ext (List.map_congr_left fun r hr => Prod.ext rfl ?_) rfl
  have hid : r.id ∈ rows.map (fun r => r.id) := List.mem_map_of_mem hr
  have hpos : 0 < (rows.map (fun r => r.id)).length := List.length_pos_of_mem hid
  show approvals.filter (fun a => decide (a.requestId = r.id)) =
    groupByRequest (if 0 < (rows.map (fun r => r.id)).length then _ else []) r.id
  rw [if_pos hpos, groupByRequest_eq]
  refine Eq.trans ?_ (congrArg (List.filter _)
    (Paging.Sorter.sort_replace (ListAnswers.insertion (π := π)).approvals hperm hsorted).symm)
  rw [List.filter_filter]
  exact List.filter_congr fun a _ => (and_onPage hid a).symm

/-! ### The border of a page -/

/-- There is a next page exactly if there are more requests than up to the end of this one. -/
theorem hasNextPage_iff (answers : ℕ → ListAnswers π) (k : ℕ) :
    (buildPageResult (pageAt answers filters actorId limit requestItems requestApprovals k).1
      (pageAt answers filters actorId limit requestItems requestApprovals k).2 limit
      (k * limit)).pageInfo.hasNextPage = true ↔
      (k + 1) * limit < (matching filters actorId requestItems).length := by
  have hlength : (listPage (answers k) filters actorId limit (k * limit) requestItems
      requestApprovals).1.length =
      min limit ((matching filters actorId requestItems).length - k * limit) := length_listPage
  show decide (k * limit + _ < (matching filters actorId requestItems).length) = true ↔ _
  rw [decide_eq_true_iff, pageAt, hlength, Nat.succ_mul]
  omega

/-- The pages put together, as pages of the matching requests. -/
theorem flatMap_pageAt (answers : ℕ → ListAnswers π) (m : ℕ) :
    ((List.range m).flatMap fun k => (pageAt answers filters actorId limit requestItems
      requestApprovals k).1.map Prod.fst) =
      Paging.pages limit m fun k =>
        (answers k).items.sort (matching filters actorId requestItems) := by
  simp only [pageAt, map_fst_listPage]
  rfl

/-- The pages show every matching request once, however the first query is answered, exactly if
no border falls between requests created at the same time. -/
theorem showsOnce_iff {m : ℕ} (hlimit : 1 ≤ limit)
    (hm : (matching filters actorId requestItems).length ≤ m * limit) :
    (∀ answers : ℕ → ListAnswers π, ((List.range m).flatMap fun k => (pageAt answers filters
      actorId limit requestItems requestApprovals k).1.map Prod.fst).Perm
        (matching filters actorId requestItems)) ↔
      ∀ k, ¬ Paging.Splits RequestItem.createdAt (matching filters actorId requestItems)
        (k * limit) := by
  have hnodup : (matching filters actorId requestItems).Nodup :=
    (List.Nodup.of_map _ requestItems.nodup).filter _
  rw [← Paging.pages_perm_iff (ListAnswers.insertion (π := π)).items hnodup hlimit hm]
  simp only [flatMap_pageAt]
  constructor
  · intro h sorter
    exact h fun k => ⟨sorter k, (ListAnswers.insertion (π := π)).approvals⟩
  · exact fun h answers => h fun k => (answers k).items

/-- **The pages of the inbox** are complete, whatever the answers, if and only if no border
between two pages falls between requests created at the same time. -/
theorem pagesComplete_iff (filters : RequestFilters) (actorId : Uuid) (limit : ℕ)
    (requestItems : Table (@RequestItem.id π)) (requestApprovals : List RequestApproval)
    (hlimit : 1 ≤ limit) :
    (∀ answers : ℕ → ListAnswers π,
      PagesComplete answers filters actorId limit requestItems requestApprovals) ↔
      ∀ k, ¬ Paging.Splits RequestItem.createdAt (matching filters actorId requestItems)
        (k * limit) := by
  constructor
  · intro h
    have hm : (matching filters actorId requestItems).length ≤
        (matching filters actorId requestItems).length * limit := Nat.le_mul_of_pos_right _ hlimit
    exact (showsOnce_iff hlimit hm).1 fun answers => (h answers).exactlyOnce _ hm
  · intro h answers
    exact
      { exactlyOnce := fun m hm => (showsOnce_iff hlimit hm).2 h answers
        approvals := fun k p hp => approvals_listPage hp
        total := fun k => rfl
        hasNextPage := hasNextPage_iff answers }

namespace InboxSample

/-- A request without a payload. -/
def request (id : Uuid) (createdAt : Time) : RequestItem Unit where
  id := id
  type := "leave"
  requesterId := 1
  assigneeId := none
  status := .pending
  priority := .normal
  payload := ()
  resolutionNote := none
  submittedAt := createdAt
  resolvedAt := none
  expiresAt := none
  slaHours := none
  slaDeadline := none
  slaBreachedAt := none
  currentStep := 1
  totalSteps := 1
  createdAt := createdAt
  updatedAt := createdAt

/-- Two requests. -/
def twoRequests (first second : Time) : Table (@RequestItem.id Unit) :=
  ⟨[request 1 first, request 2 second], by simp [request]⟩

/-- Two requests with different times, one to a page. -/
theorem pagesComplete_apart :
    PagesComplete (fun _ => ListAnswers.insertion) {} 7 1 (twoRequests 10 20) [] := by
  refine (pagesComplete_iff {} 7 1 (twoRequests 10 20) [] le_rfl).2 ?_ _
  intro k hsplits
  have hinside := hsplits.inside
  have hlength : (matching {} 7 (twoRequests 10 20)).length = 2 := by decide
  obtain rfl : k = 1 := by omega
  revert hsplits
  decide

/-- Two requests with the same time, one to a page: some answers show one of them twice. -/
theorem not_pagesComplete_together : ¬ ∀ answers : ℕ → ListAnswers Unit,
    PagesComplete answers {} 7 1 (twoRequests 10 10) [] := by
  intro h
  have hm : (matching {} 7 (twoRequests 10 10)).length ≤ 2 * 1 := by decide
  have hpages := fun answers => (h answers).exactlyOnce 2 hm
  exact (showsOnce_iff le_rfl hm).1 hpages 1 (by decide)

end InboxSample

end RequestEngine

end OpsHub
