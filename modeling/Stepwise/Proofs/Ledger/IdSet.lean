import Stepwise.Migration.Id

/-!
# Sets of identifiers

A set made from a list contains the members of the list (`IdSet.contains_ofList`), and lists with
the same members make the same set. An ascending list is the list of names of its set.
-/

namespace Stepwise

namespace IdSet

theorem contains_ofList (ids : List String) (id : String) :
    (ofList ids).contains id = decide (id ∈ ids) := by
  have names : (ids.map (·, ())).map (·.1) = ids := (List.map_map ..).trans (List.map_id ids)
  rw [ofList, SortedMap.contains_ofList, names]

theorem get?_ofList (ids : List String) (id : String) :
    (ofList ids).get? id = if id ∈ ids then some () else none := by
  have inside := contains_ofList ids id
  rw [SortedMap.contains] at inside
  cases found : (ofList ids).get? id with
  | none =>
    rw [found] at inside
    rw [if_neg (of_decide_eq_false inside.symm)]
  | some value =>
    rw [found] at inside
    rw [if_pos (of_decide_eq_true inside.symm)]

/-- Lists with the same members make the same set. -/
theorem ofList_congr {a b : List String} (same : ∀ id, id ∈ a ↔ id ∈ b) : ofList a = ofList b := by
  apply SortedMap.ext_get?
  intro id
  simp only [get?_ofList, same]

/-- A set without an identifier is made by the other members. -/
theorem erase_ofList {a b : List String} {id : String} :
    (ofList a).erase id = ofList b ↔ ∀ other, other ∈ b ↔ other ∈ a ∧ other ≠ id := by
  have lookup (other : String) : ((ofList a).erase id).get? other = (ofList b).get? other ↔
      (other ∈ b ↔ other ∈ a ∧ other ≠ id) := by
    rw [SortedMap.get?_erase, get?_ofList, get?_ofList]
    by_cases here : id = other
    · simp [here]
    · by_cases inside : other ∈ a <;> simp [here, inside, Ne.symm here]
  constructor
  · intro same other
    rw [← lookup, same]
  · intro members
    exact SortedMap.ext_get? fun other => (lookup other).mpr (members other)

/-- The names of a set are the members of an ascending list that makes it. -/
theorem names_ofList {ids : List String} (ascending : ids.Pairwise (· < ·)) :
    (ofList ids).names = ids := by
  have sorted : NamedList.Sorted (ids.map (·, ())) := List.pairwise_map.mpr ascending
  have lookup (id : String) :
      NamedList.get? (ids.map (·, ())) id = if id ∈ ids then some () else none := by
    clear ascending sorted
    induction ids with
    | nil => rfl
    | cons first rest ih =>
      simp only [List.map_cons, NamedList.get?, ih, List.mem_cons, eq_comm (a := id)]
      by_cases here : first = id
      · simp only [here, ↓reduceIte, true_or]
      · simp only [here, ↓reduceIte, false_or]
  have same : ofList ids = ⟨ids.map (·, ()), sorted⟩ :=
    SortedMap.ext_get? fun id => (get?_ofList ids id).trans (lookup id).symm
  rw [same, SortedMap.names, List.map_map]
  exact List.map_id ids

end IdSet

end Stepwise
