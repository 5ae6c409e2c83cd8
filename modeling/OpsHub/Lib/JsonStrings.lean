import OpsHub.Lib.Json

/-!
# The strings of a JSON value

* `strings`: the strings of a value, without the keys;
* `mapStrings`: the value with another string in the place of each;
* `mapStrings_eq_self_iff`: nothing changes exactly if every string stays as it is.
-/

namespace Json

variable {ν : Type}

mutual

/-- The strings of a value. -/
def strings : Json ν → List String
  | .str s => [s]
  | .arr items => stringsItems items
  | .obj members => stringsMembers members
  | _ => []

/-- The strings of the items of an array. -/
def stringsItems : List (Json ν) → List String
  | [] => []
  | v :: items => strings v ++ stringsItems items

/-- The strings of the members of an object. -/
def stringsMembers : List (String × Json ν) → List String
  | [] => []
  | (_, v) :: members => strings v ++ stringsMembers members

end

section Map

variable (f : String → String)

mutual

/-- The value with `f s` in the place of each string `s`. -/
def mapStrings : Json ν → Json ν
  | .str s => .str (f s)
  | .arr items => .arr (mapStringsItems items)
  | .obj members => .obj (mapStringsMembers members)
  | v => v

/-- The items of an array. -/
def mapStringsItems : List (Json ν) → List (Json ν)
  | [] => []
  | v :: items => mapStrings v :: mapStringsItems items

/-- The members of an object. -/
def mapStringsMembers : List (String × Json ν) → List (String × Json ν)
  | [] => []
  | (k, v) :: members => (k, mapStrings v) :: mapStringsMembers members

end

end Map

variable {f : String → String}

theorem length_mapStringsMembers (members : List (String × Json ν)) :
    (mapStringsMembers f members).length = members.length := by
  induction members with
  | nil => rfl
  | cons m members ih => exact congrArg (· + 1) ih

mutual

/-- **Nothing changes** exactly if every string stays as it is. -/
theorem mapStrings_eq_self_iff : ∀ v : Json ν, mapStrings f v = v ↔ ∀ s ∈ strings v, f s = s
  | .null => by simp [mapStrings, strings]
  | .bool _ => by simp [mapStrings, strings]
  | .num _ => by simp [mapStrings, strings]
  | .str s => by simp [mapStrings, strings]
  | .arr items => by
    rw [mapStrings, strings, Json.arr.injEq]
    exact mapStringsItems_eq_self_iff items
  | .obj members => by
    rw [mapStrings, strings, Json.obj.injEq]
    exact mapStringsMembers_eq_self_iff members

theorem mapStringsItems_eq_self_iff : ∀ items : List (Json ν),
    mapStringsItems f items = items ↔ ∀ s ∈ stringsItems items, f s = s
  | [] => by simp [mapStringsItems, stringsItems]
  | v :: items => by
    rw [mapStringsItems, stringsItems, List.cons.injEq, mapStrings_eq_self_iff v,
      mapStringsItems_eq_self_iff items, List.forall_mem_append]

theorem mapStringsMembers_eq_self_iff : ∀ members : List (String × Json ν),
    mapStringsMembers f members = members ↔ ∀ s ∈ stringsMembers members, f s = s
  | [] => by simp [mapStringsMembers, stringsMembers]
  | (k, v) :: members => by
    rw [mapStringsMembers, stringsMembers, List.cons.injEq, Prod.mk.injEq,
      mapStrings_eq_self_iff v, mapStringsMembers_eq_self_iff members, List.forall_mem_append]
    simp

end

end Json
