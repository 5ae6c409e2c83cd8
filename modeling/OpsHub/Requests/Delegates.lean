import OpsHub.Requests.Segregation

/-!
# Several delegators

`findActiveDelegationTo` returns one row, in whatever order the database has them, and the checks
of `approve` look at no other.

* `activeTo`: all active delegations to a user;
* `Entitled`: the actor, or an active delegator who is not the requester, holds the permission;
* `Complete`: the checks pass exactly for an entitled actor, in whatever order the delegations are
  returned and whatever others have delegated;
* `complete_iff_admits`: that is so exactly if the delegators agree, one by one, with `Entitled`;
* `complete_iff`: which is to say that no delegator stands in the way of an entitled actor;
* `not_complete`: a delegator without the permission, and a delegator who is the requester.
-/

namespace OpsHub

variable {π σ : Type}

namespace DelegationService

/-- The active delegations to a user. -/
def activeTo (delegations : List ApprovalDelegation) (now : Time) (actorId : Uuid) :
    List ApprovalDelegation :=
  delegations.filter (fun d => decide (d.toUserId = actorId ∧ Active now d))

variable {delegations : List ApprovalDelegation} {now : Time} {actorId : Uuid}
  {d : ApprovalDelegation}

/-- The lookup returns the first of them. -/
theorem findActiveDelegationTo_eq :
    findActiveDelegationTo delegations now actorId = (activeTo delegations now actorId).head? := by
  rw [activeTo, List.head?_filter]
  rfl

theorem activeTo_activeTo :
    activeTo (activeTo delegations now actorId) now actorId = activeTo delegations now actorId := by
  simp [activeTo, List.filter_filter]

/-- Each of them can come first. -/
theorem exists_order (hd : d ∈ activeTo delegations now actorId) :
    ∃ rows, (activeTo rows now actorId).Perm (activeTo delegations now actorId) ∧
      findActiveDelegationTo rows now actorId = some d := by
  have hperm := List.perm_cons_erase hd
  refine ⟨d :: (activeTo delegations now actorId).erase d, ?_, ?_⟩
  · have hfilter := hperm.symm.filter (fun d => decide (d.toUserId = actorId ∧ Active now d))
    exact hfilter.trans (List.Perm.of_eq activeTo_activeTo)
  · have hactive := (List.mem_filter.1 hd).2
    exact List.find?_cons_of_pos hactive

end DelegationService

namespace RequestEngine

open DelegationService

/-- `approve` passes its checks. -/
def Passes (registry : RequestRegistry π σ) (view : AuthzView) (request : RequestItem π)
    (actor : Actor) : Prop :=
  ∃ delegation, reviewCheck registry view "approve" request actor = .ok delegation

/-- Whether a user holds the permission that the request waits for. -/
def Holds (typeDef : RequestTypeDef π σ) (view : AuthzView) (request : RequestItem π)
    (user : Uuid) : Prop :=
  view.check user (requiredPermission typeDef request.currentStep) = true

/-- The active delegations to the actor. -/
def delegationsTo (view : AuthzView) (actor : Actor) : List ApprovalDelegation :=
  activeTo view.delegations view.now actor.sub

/-- The actor, or somebody other than the requester who has delegated to the actor, holds the
permission. -/
def Entitled (typeDef : RequestTypeDef π σ) (view : AuthzView) (request : RequestItem π)
    (actor : Actor) : Prop :=
  Holds typeDef view request actor.sub ∨
    ∃ d ∈ delegationsTo view actor,
      d.fromUserId ≠ request.requesterId ∧ Holds typeDef view request d.fromUserId

/-- The checks pass exactly for an entitled actor.  The rows that the database returns have the
same active delegations to the actor, in any order, among any others. -/
def Complete (registry : RequestRegistry π σ) (typeDef : RequestTypeDef π σ) (view : AuthzView)
    (request : RequestItem π) (actor : Actor) : Prop :=
  ∀ rows, (activeTo rows view.now actor.sub).Perm (delegationsTo view actor) →
    (Passes registry { view with delegations := rows } request actor ↔
      Entitled typeDef view request actor)

/-- The checks pass under a delegation. -/
def Admits (typeDef : RequestTypeDef π σ) (view : AuthzView) (request : RequestItem π)
    (actor : Actor) (d : ApprovalDelegation) : Prop :=
  (typeDef.allowSelfApproval = true ∨ d.fromUserId ≠ request.requesterId) ∧
    (Holds typeDef view request actor.sub ∨ Holds typeDef view request d.fromUserId)

/-- No delegator stands in the way of an entitled actor; and where requesters may approve, the
requester is not the only one with the permission. -/
structure Agreed (typeDef : RequestTypeDef π σ) (view : AuthzView) (request : RequestItem π)
    (actor : Actor) : Prop where
  admits : Entitled typeDef view request actor →
    ∀ d ∈ delegationsTo view actor, Admits typeDef view request actor d
  entitled : typeDef.allowSelfApproval = true →
    ∀ d ∈ delegationsTo view actor, d.fromUserId = request.requesterId →
      Holds typeDef view request d.fromUserId → Entitled typeDef view request actor

section Checks

variable {registry : RequestRegistry π σ} {typeDef : RequestTypeDef π σ} {view : AuthzView}
  {request : RequestItem π} {actor : Actor} {d : ApprovalDelegation}

instance (user : Uuid) : Decidable (Holds typeDef view request user) :=
  inferInstanceAs (Decidable (_ = _))

instance : Decidable (Entitled typeDef view request actor) :=
  inferInstanceAs (Decidable (_ ∨ _))

instance : Decidable (Admits typeDef view request actor d) :=
  inferInstanceAs (Decidable (_ ∧ _))

/-- The two checks that an open request of a registered type meets. -/
theorem passes_iff (hopen : request.status.Open) (hdef : registry request.type = some typeDef) :
    Passes registry view request actor ↔
      ¬ (typeDef.allowSelfApproval = false ∧
          request.requesterId = sodSubject (view.activeDelegation actor.sub) actor) ∧
        Permitted view actor (requiredPermission typeDef request.currentStep) := by
  simp only [Passes, reviewCheck_eq_ok_iff]
  constructor
  · rintro ⟨-, -, ⟨typeDef', hdef', hsod, hpermitted⟩, -⟩
    obtain rfl : typeDef = typeDef' := Option.some.inj (hdef.symm.trans hdef')
    exact ⟨hsod, hpermitted⟩
  · rintro ⟨hsod, hpermitted⟩
    exact ⟨_, hopen, ⟨typeDef, hdef, hsod, hpermitted⟩, rfl⟩

/-- Nobody has delegated to the actor. -/
theorem passes_of_none (hopen : request.status.Open)
    (hdef : registry request.type = some typeDef) (hactor : actor.sub ≠ request.requesterId)
    (hnone : view.activeDelegation actor.sub = none) :
    Passes registry view request actor ↔ Holds typeDef view request actor.sub := by
  have hsod : request.requesterId ≠ sodSubject none actor := hactor.symm
  simp [passes_iff hopen hdef, Permitted, hnone, hsod, Holds]

/-- The delegation that has been found decides. -/
theorem passes_of_some (hopen : request.status.Open)
    (hdef : registry request.type = some typeDef)
    (hsome : view.activeDelegation actor.sub = some d) :
    Passes registry view request actor ↔ Admits typeDef view request actor d := by
  have hsubject : sodSubject (some d) actor = d.fromUserId := rfl
  simp only [passes_iff hopen hdef, Permitted, hsome, hsubject, Admits, Holds, Option.some.injEq,
    exists_eq_left']
  rw [not_and_or, Bool.not_eq_false, ← ne_eq, ne_comm]

/-- **One delegator after another**: the checks are complete exactly if under every active
delegation they say what they should. -/
theorem complete_iff_admits (hopen : request.status.Open)
    (hdef : registry request.type = some typeDef) (hactor : actor.sub ≠ request.requesterId) :
    Complete registry typeDef view request actor ↔
      ∀ d ∈ delegationsTo view actor,
        (Admits typeDef view request actor d ↔ Entitled typeDef view request actor) := by
  constructor
  · intro h d hd
    obtain ⟨rows, hperm, hfirst⟩ := exists_order hd
    rw [← h rows hperm]
    exact (@passes_of_some _ _ registry typeDef { view with delegations := rows } request actor d
      hopen hdef hfirst).symm
  · intro h rows hperm
    cases hfind : findActiveDelegationTo rows view.now actor.sub with
    | none =>
      rw [@passes_of_none _ _ registry typeDef { view with delegations := rows } request actor
        hopen hdef hactor hfind]
      rw [findActiveDelegationTo_eq, List.head?_eq_none_iff] at hfind
      have hnil : delegationsTo view actor = [] := (hfind ▸ hperm).nil_eq.symm
      simp [Entitled, hnil, Holds]
    | some d =>
      rw [@passes_of_some _ _ registry typeDef { view with delegations := rows } request actor d
        hopen hdef hfind]
      rw [findActiveDelegationTo_eq] at hfind
      exact h d (hperm.subset (List.mem_of_head? hfind))

/-- **When the checks are complete.**  Under an actor who is not the requester, the checks of
`approve` pass in every order of the delegations exactly for the entitled, if and only if no
delegator stands in the way of an entitled actor. -/
theorem complete_iff (hopen : request.status.Open) (hdef : registry request.type = some typeDef)
    (hactor : actor.sub ≠ request.requesterId) :
    Complete registry typeDef view request actor ↔ Agreed typeDef view request actor := by
  rw [complete_iff_admits hopen hdef hactor]
  constructor
  · intro h
    refine ⟨fun hentitled d hd => (h d hd).2 hentitled, fun hself d hd _ hholds => ?_⟩
    exact (h d hd).1 ⟨Or.inl hself, Or.inr hholds⟩
  · intro h d hd
    refine ⟨?_, fun hentitled => h.admits hentitled d hd⟩
    rintro ⟨hsod, hholds | hholds⟩
    · exact Or.inl hholds
    · by_cases hrequester : d.fromUserId = request.requesterId
      · exact h.entitled (hsod.resolve_right (not_not.2 hrequester)) d hd hrequester hholds
      · exact Or.inr ⟨d, hd, hrequester, hholds⟩

end Checks

/-! ### Two delegators -/

namespace Delegates.Sample

/-- A table with delegations from these users to user 1. -/
def delegations (users : List Uuid) : DelegationTable :=
  Runs.run DelegationService.step (Table.empty _) (users.map fun user =>
    .create { fromUserId := user, toUserId := 1, startsAt := 0, endsAt := 100 } user)

/-- These users have delegated to user 1, and those hold the permission to review leave. -/
def view (users reviewers : List Uuid) : AuthzView where
  check user permission := decide (user ∈ reviewers ∧ permission = "workforce.leave.review")
  delegations := (delegations users).rows
  now := 10

/-- User 1. -/
def actor : Actor := ⟨1, "user1@example.com"⟩

/-- A request of user 4. -/
def request : RequestItem Unit :=
  submittedItem SelfApproval.typeDef "leave_request" () ⟨4, "user4@example.com"⟩ {} 0 5

/-- The first delegation decides. -/
theorem passes_iff_admits {users reviewers : List Uuid} {d : ApprovalDelegation}
    (hfirst : (view users reviewers).activeDelegation 1 = some d) :
    Passes SelfApproval.registry (view users reviewers) request actor ↔
      Admits SelfApproval.typeDef (view users reviewers) request actor d :=
  passes_of_some (Or.inl rfl) rfl hfirst

end Delegates.Sample

open Delegates.Sample in
/-- User 1 is refused when the delegation of user 2, who may not review, comes first, and passes
when that of user 3 does; and user 1 is refused for a delegation by the requester. -/
theorem not_complete :
    (¬ Passes SelfApproval.registry (view [2, 3] [3]) request actor ∧
        Passes SelfApproval.registry (view [3, 2] [3]) request actor ∧
      ¬ Complete SelfApproval.registry SelfApproval.typeDef (view [2, 3] [3]) request actor) ∧
    ¬ Complete SelfApproval.registry SelfApproval.typeDef (view [4] [1]) request actor := by
  have hrefused : ¬ Passes SelfApproval.registry (view [2, 3] [3]) request actor := by
    rw [@passes_iff_admits [2, 3] [3] _ rfl]
    decide
  have hentitled : Entitled SelfApproval.typeDef (view [2, 3] [3]) request actor := by decide
  refine ⟨⟨hrefused, ?_, fun h => hrefused ((h _ (List.Perm.refl _)).2 hentitled)⟩, fun h => ?_⟩
  · rw [@passes_iff_admits [3, 2] [3] _ rfl]
    decide
  · have hpasses := (h _ (List.Perm.refl _)).2 (Or.inl (by decide))
    rw [@passes_iff_admits [4] [1] _ rfl] at hpasses
    exact absurd hpasses (by decide)

open Delegates.Sample in
/-- Two delegators who may both review. -/
theorem complete_iff_alike :
    Complete SelfApproval.registry SelfApproval.typeDef (view [2, 3] [2, 3]) request actor := by
  refine (complete_iff (Or.inl rfl) rfl (by decide)).2 ⟨fun _ => ?_, fun hself => ?_⟩
  · decide
  · cases hself

end RequestEngine

end OpsHub
