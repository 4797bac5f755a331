import Stepwise.Value

/-!
# Fields

Fields of a document in their own order. Assigning a field keeps its place and a new one goes to the
end; when a field is removed, the last one moves into its place. `get?_insert` and `get?_erase` say
what each operation does to the values read by name, for all fields.
-/

namespace Stepwise

/-- A document: named values in their own order. -/
abbrev Document := Fields

namespace Fields

/-- The value of the first field with the name. -/
def get? (fields : Fields) (name : String) : Option Value :=
  NamedList.get? fields name

/-- Assign a field, in its place if there is one with the name. -/
def insert : Fields → String → Value → Fields
  | [], name, value => [(name, value)]
  | (other, old) :: rest, name, value =>
    if other = name then (name, value) :: rest else (other, old) :: insert rest name value

/-- The fields with each name once, its first value counting. -/
def distinct : Fields → Fields
  | [] => []
  | (name, value) :: rest => (name, value) :: NamedList.without name (distinct rest)

/-- The fields with the last one in front. -/
def lastFirst (fields : Fields) : Fields :=
  match fields.getLast? with
  | none => []
  | some last => last :: fields.dropLast

/-- Remove a field; the last one moves into its place. -/
def erase : Fields → String → Fields
  | [], _ => []
  | (other, value) :: rest, name =>
    if other = name then lastFirst (distinct (NamedList.without name rest))
    else (other, value) :: erase rest name

/-- Fields assigned one after the other: a repeated name keeps its first place and its last
value. -/
def ofList (entries : List (String × Value)) : Fields :=
  entries.foldl (fun fields entry => fields.insert entry.1 entry.2) []

theorem get?_insert (fields : Fields) (name : String) (value : Value) (other : String) :
    (fields.insert name value).get? other =
      if name = other then some value else fields.get? other := by
  induction fields with
  | nil => rfl
  | cons head rest ih =>
    simp only [get?] at ih
    simp only [insert]
    split
    · rename_i same
      simp only [get?, NamedList.get?, same]
      split <;> rfl
    · rename_i different
      simp only [get?, NamedList.get?, ih]
      split
      · rename_i found
        rw [if_neg fun same => different (found.trans same.symm)]
      · rfl

theorem get?_distinct (fields : Fields) (name : String) :
    fields.distinct.get? name = fields.get? name := by
  induction fields with
  | nil => rfl
  | cons head rest ih =>
    simp only [get?] at ih
    simp only [get?, distinct, NamedList.get?, NamedList.get?_without, ih]
    split
    · rfl
    · rfl

theorem nodup_distinct (fields : Fields) : (fields.distinct.map (·.1)).Nodup := by
  induction fields with
  | nil => exact List.nodup_nil
  | cons head rest ih =>
    refine List.nodup_cons.mpr ⟨?_, ?_⟩
    · simp [NamedList.without]
    · exact ih.sublist (List.filter_sublist.map _)

private theorem get?_append (a b : Fields) (name : String) :
    NamedList.get? (a ++ b) name = (NamedList.get? a name).or (NamedList.get? b name) := by
  induction a with
  | nil => simp [NamedList.get?]
  | cons head rest ih =>
    simp only [List.cons_append, NamedList.get?, ih]
    split <;> simp

theorem get?_lastFirst {fields : Fields} (h : (fields.map (·.1)).Nodup) (name : String) :
    fields.lastFirst.get? name = fields.get? name := by
  rcases List.eq_nil_or_concat fields with rfl | ⟨front, last, rfl⟩
  · rfl
  · simp only [List.concat_eq_append, List.map_append, List.map_cons, List.map_nil,
      List.nodup_append, List.mem_singleton] at h
    simp only [lastFirst, get?, List.concat_eq_append, List.getLast?_append,
      List.getLast?_singleton, Option.some_or, List.dropLast_concat, NamedList.get?, get?_append]
    split
    · rename_i same
      have absent : NamedList.get? front name = none := by
        have fresh : ∀ entry ∈ front, entry.1 ≠ last.1 := fun entry member =>
          h.2.2 entry.1 (List.mem_map_of_mem member) last.1 rfl
        clear h
        induction front with
        | nil => rfl
        | cons head rest ih =>
          simp only [NamedList.get?]
          rw [if_neg fun found => fresh head (List.mem_cons_self ..) (found.trans same.symm)]
          exact ih fun entry member => fresh entry (List.mem_cons_of_mem _ member)
      simp [absent]
    · simp

theorem get?_erase (fields : Fields) (name other : String) :
    (fields.erase name).get? other = if name = other then none else fields.get? other := by
  induction fields with
  | nil => simp [erase, get?, NamedList.get?]
  | cons head rest ih =>
    simp only [erase]
    split
    · rename_i same
      rw [get?_lastFirst (nodup_distinct _), get?_distinct]
      simp only [get?, NamedList.get?_without, NamedList.get?, same]
      split <;> rfl
    · rename_i different
      simp only [get?] at ih
      simp only [get?, NamedList.get?, ih]
      split
      · rename_i found
        rw [if_neg fun same => different (found.trans same.symm)]
      · rfl

end Fields

end Stepwise
