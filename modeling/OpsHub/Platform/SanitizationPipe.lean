import OpsHub.Lib.JsonStrings
import OpsHub.Platform.Sanitize

/-!
# Sanitising request bodies

`SanitizationPipe.transform` sanitises a body that is a string or an object; `sanitizeObject` goes
down into objects, and into the objects of arrays.

* `sanitizeMembers`, `transform`: what the pipe makes of a body;
* `unreached`: the strings that the pipe does not get to, `reachedKeys`: the keys of the objects
  that it copies;
* `transform_eq_iff`: every string is sanitised, and nothing else changes, exactly if the strings
  out of reach need no sanitising, and no object that is copied has a member `__proto__`.
-/

namespace OpsHub

variable {ν : Type}

/-- `out[k] = v` for a new key; the setter of `__proto__` adds no member. -/
def assign (k : String) (v : Json ν) (out : List (String × Json ν)) : List (String × Json ν) :=
  if k = "__proto__" then out else (k, v) :: out

mutual

/-- `sanitizeObject`: the members in the order of `Object.entries`, whose keys differ. -/
def sanitizeMembers : List (String × Json ν) → List (String × Json ν)
  | [] => []
  | (k, v) :: members => assign k (sanitizeMember v) (sanitizeMembers members)

/-- The value of a member. -/
def sanitizeMember : Json ν → Json ν
  | .str s => .str (sanitizeString s)
  | .arr items => .arr (sanitizeItems items)
  | .obj members => .obj (sanitizeMembers members)
  | v => v

/-- The items of an array. -/
def sanitizeItems : List (Json ν) → List (Json ν)
  | [] => []
  | v :: items => sanitizeItem v :: sanitizeItems items

/-- An item; the prototype of an array is not that of an object. -/
def sanitizeItem : Json ν → Json ν
  | .str s => .str (sanitizeString s)
  | .obj members => .obj (sanitizeMembers members)
  | v => v

end

namespace SanitizationPipe

/-- `value.constructor === Object`. -/
def ConstructorIsObject (members : List (String × Json ν)) : Prop :=
  "constructor" ∉ members.map Prod.fst

instance (members : List (String × Json ν)) : Decidable (ConstructorIsObject members) :=
  inferInstanceAs (Decidable ("constructor" ∉ members.map Prod.fst))

/-- `transform`. -/
def transform : Json ν → Json ν
  | .str s => .str (sanitizeString s)
  | .obj members =>
    if ConstructorIsObject members then .obj (sanitizeMembers members) else .obj members
  | v => v

/-! ### What is reached -/

mutual

/-- The strings of an object that `sanitizeObject` does not get to. -/
def unreachedMembers : List (String × Json ν) → List String
  | [] => []
  | (_, v) :: members => unreachedMember v ++ unreachedMembers members

/-- Those of the value of a member. -/
def unreachedMember : Json ν → List String
  | .arr items => unreachedItems items
  | .obj members => unreachedMembers members
  | _ => []

/-- Those of the items of an array. -/
def unreachedItems : List (Json ν) → List String
  | [] => []
  | v :: items => unreachedItem v ++ unreachedItems items

/-- Those of an item. -/
def unreachedItem : Json ν → List String
  | .arr items => Json.stringsItems items
  | .obj members => unreachedMembers members
  | _ => []

end

/-- The strings that the pipe does not get to. -/
def unreached : Json ν → List String
  | .arr items => Json.stringsItems items
  | .obj members =>
    if ConstructorIsObject members then unreachedMembers members else Json.stringsMembers members
  | _ => []

mutual

/-- The keys of an object, and of the objects in it that are copied. -/
def keysMembers : List (String × Json ν) → List String
  | [] => []
  | (k, v) :: members => k :: (keysMember v ++ keysMembers members)

/-- Those of the value of a member. -/
def keysMember : Json ν → List String
  | .arr items => keysItems items
  | .obj members => keysMembers members
  | _ => []

/-- Those of the items of an array. -/
def keysItems : List (Json ν) → List String
  | [] => []
  | v :: items => keysItem v ++ keysItems items

/-- Those of an item. -/
def keysItem : Json ν → List String
  | .obj members => keysMembers members
  | _ => []

end

/-- The keys of the objects that the pipe copies. -/
def reachedKeys : Json ν → List String
  | .obj members => if ConstructorIsObject members then keysMembers members else []
  | _ => []

/-- Nothing keeps the strings from being sanitised, and the members from being kept. -/
def Reached (keys unreached : List String) : Prop :=
  "__proto__" ∉ keys ∧ ∀ s ∈ unreached, sanitizeString s = s

theorem reached_append {keys keys' strings strings' : List String} :
    Reached (keys ++ keys') (strings ++ strings') ↔
      Reached keys strings ∧ Reached keys' strings' := by
  rw [Reached, Reached, Reached, List.forall_mem_append, List.mem_append, not_or]
  exact and_and_and_comm

theorem reached_nil : Reached [] [] := ⟨List.not_mem_nil, fun _ hs => absurd hs List.not_mem_nil⟩

/-! ### The equivalence -/

/-- No member is added. -/
theorem length_sanitizeMembers_le (members : List (String × Json ν)) :
    (sanitizeMembers members).length ≤ members.length := by
  induction members with
  | nil => exact Nat.le_refl _
  | cons m members ih =>
    obtain ⟨k, v⟩ := m
    rw [sanitizeMembers, assign]
    split
    · exact Nat.le_succ_of_le ih
    · exact Nat.succ_le_succ ih

mutual

/-- **An object**: its strings are sanitised, and nothing else changes, exactly if they are all
reached, and no key is lost. -/
theorem sanitizeMembers_eq_iff : ∀ members : List (String × Json ν),
    sanitizeMembers members = Json.mapStringsMembers sanitizeString members ↔
      Reached (keysMembers members) (unreachedMembers members)
  | [] => iff_of_true rfl reached_nil
  | (k, v) :: members => by
    rw [sanitizeMembers, assign, Json.mapStringsMembers, keysMembers, unreachedMembers]
    by_cases hk : k = "__proto__"
    · rw [if_pos hk]
      refine iff_of_false (fun heq => ?_) fun h => h.1 (hk ▸ List.mem_cons_self)
      have hlength := congrArg List.length heq
      rw [List.length_cons, Json.length_mapStringsMembers] at hlength
      have hle := length_sanitizeMembers_le members
      omega
    · have hkeep : Reached (k :: (keysMember v ++ keysMembers members))
          (unreachedMember v ++ unreachedMembers members) ↔
            Reached (keysMember v ++ keysMembers members)
              (unreachedMember v ++ unreachedMembers members) := by
        simp only [Reached, List.mem_cons, not_or]
        exact and_congr_left' (and_iff_right fun heq => hk heq.symm)
      rw [if_neg hk, hkeep, reached_append, List.cons.injEq, Prod.mk.injEq,
        sanitizeMembers_eq_iff members, ← sanitizeMember_eq_iff v]
      simp

/-- The value of a member. -/
theorem sanitizeMember_eq_iff : ∀ v : Json ν,
    sanitizeMember v = Json.mapStrings sanitizeString v ↔
      Reached (keysMember v) (unreachedMember v)
  | .null => iff_of_true rfl reached_nil
  | .bool _ => iff_of_true rfl reached_nil
  | .num _ => iff_of_true rfl reached_nil
  | .str _ => iff_of_true rfl reached_nil
  | .arr items => by
    rw [sanitizeMember, Json.mapStrings, keysMember, unreachedMember, Json.arr.injEq]
    exact sanitizeItems_eq_iff items
  | .obj members => by
    rw [sanitizeMember, Json.mapStrings, keysMember, unreachedMember, Json.obj.injEq]
    exact sanitizeMembers_eq_iff members

/-- The items of an array. -/
theorem sanitizeItems_eq_iff : ∀ items : List (Json ν),
    sanitizeItems items = Json.mapStringsItems sanitizeString items ↔
      Reached (keysItems items) (unreachedItems items)
  | [] => iff_of_true rfl reached_nil
  | v :: items => by
    rw [sanitizeItems, Json.mapStringsItems, keysItems, unreachedItems, reached_append,
      List.cons.injEq, sanitizeItem_eq_iff v, sanitizeItems_eq_iff items]

/-- An item: an array in an array stays as it is. -/
theorem sanitizeItem_eq_iff : ∀ v : Json ν,
    sanitizeItem v = Json.mapStrings sanitizeString v ↔ Reached (keysItem v) (unreachedItem v)
  | .null => iff_of_true rfl reached_nil
  | .bool _ => iff_of_true rfl reached_nil
  | .num _ => iff_of_true rfl reached_nil
  | .str _ => iff_of_true rfl reached_nil
  | .arr items => by
    have hsame : sanitizeItem (.arr items) = Json.arr items := by simp only [sanitizeItem]
    rw [hsame, eq_comm, Json.mapStrings_eq_self_iff, Json.strings]
    exact (and_iff_right List.not_mem_nil).symm
  | .obj members => by
    rw [sanitizeItem, Json.mapStrings, keysItem, unreachedItem, Json.obj.injEq]
    exact sanitizeMembers_eq_iff members

end

/-- **Every string is sanitised, and nothing else changes**, exactly if the strings that the pipe
does not get to need no sanitising, and no object that it copies has a member `__proto__`. -/
theorem transform_eq_iff (v : Json ν) : transform v = Json.mapStrings sanitizeString v ↔
    "__proto__" ∉ reachedKeys v ∧ ∀ s ∈ unreached v, sanitizeString s = s := by
  have hself : ∀ w : Json ν, w = Json.mapStrings sanitizeString w ↔
      ∀ s ∈ Json.strings w, sanitizeString s = s :=
    fun w => eq_comm.trans (Json.mapStrings_eq_self_iff w)
  cases v with
  | null => exact iff_of_true rfl reached_nil
  | bool b => exact iff_of_true rfl reached_nil
  | num n => exact iff_of_true rfl reached_nil
  | str s => exact iff_of_true rfl reached_nil
  | arr items => exact (hself _).trans (and_iff_right List.not_mem_nil).symm
  | obj members =>
    rw [transform, reachedKeys, unreached]
    by_cases hconstructor : ConstructorIsObject members
    · rw [if_pos hconstructor, if_pos hconstructor, if_pos hconstructor, Json.mapStrings,
        Json.obj.injEq]
      exact sanitizeMembers_eq_iff members
    · rw [if_neg hconstructor, if_neg hconstructor, if_neg hconstructor]
      exact (hself _).trans (and_iff_right List.not_mem_nil).symm

/-- An array in an array. -/
def nested : Json ℕ := .obj [("tags", .arr [.arr [.str "<script>x</script>"]])]

/-- The markup in it stays, and so does that in a list that is the whole body; a member
`__proto__` is lost. -/
theorem not_transform_nested : transform nested ≠ Json.mapStrings sanitizeString nested ∧
    transform (.arr [.str "<script>x</script>"]) ≠
      Json.mapStrings sanitizeString (.arr [.str "<script>x</script>"] : Json ℕ) ∧
    transform (.obj [("__proto__", .num 1)]) ≠
      Json.mapStrings sanitizeString (.obj [("__proto__", .num 1)]) := by
  have hempty : sanitizeString "<script>x</script>" = "" := by decide +kernel
  refine ⟨fun heq => ?_, fun heq => ?_, fun heq => ?_⟩
  · have hstrings := congrArg Json.strings heq
    simp [nested, transform, ConstructorIsObject, sanitizeMembers, sanitizeMember, sanitizeItems,
      sanitizeItem, assign, Json.mapStrings, Json.mapStringsMembers, Json.mapStringsItems,
      Json.strings, Json.stringsMembers, Json.stringsItems, hempty] at hstrings
  · have hstrings := congrArg Json.strings heq
    simp [transform, Json.mapStrings, Json.mapStringsItems, Json.strings, Json.stringsItems,
      hempty] at hstrings
  · simp [transform, ConstructorIsObject, sanitizeMembers, assign, Json.mapStrings,
      Json.mapStringsMembers] at heq

end SanitizationPipe

end OpsHub
