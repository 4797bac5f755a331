/-!
# Maps sorted by name

A `SortedMap` keeps its entries in strictly ascending order of their names, by code point. Two maps
with the same lookups are equal (`SortedMap.ext_get?`), so the list of entries is a view of the map
and never a choice. `NamedList` holds the operations on the underlying lists.
-/

namespace Stepwise

namespace NamedList

variable {α : Type}

/-- The first value with the name. -/
def get? : List (String × α) → String → Option α
  | [], _ => none
  | (name, value) :: rest, key => if name = key then some value else get? rest key

/-- Put a value into a sorted list, in place of one with the same name. -/
def put (key : String) (value : α) : List (String × α) → List (String × α)
  | [] => [(key, value)]
  | (name, old) :: rest =>
    if key < name then (key, value) :: (name, old) :: rest
    else if key = name then (key, value) :: rest
    else (name, old) :: put key value rest

/-- Whether the names ascend strictly. -/
def Sorted (entries : List (String × α)) : Prop :=
  entries.Pairwise fun a b => a.1 < b.1

theorem get?_put (entries : List (String × α)) (key : String) (value : α) (other : String) :
    get? (put key value entries) other =
      if key = other then some value else get? entries other := by
  induction entries with
  | nil => rfl
  | cons entry rest ih =>
    simp only [put]
    split
    · simp [get?]
    · split
      · rename_i same
        simp only [get?, same]
        split <;> rfl
      · rename_i different
        simp only [get?, ih]
        split
        · rename_i same
          rw [if_neg fun h => different (h.trans same.symm)]
        · rfl

theorem mem_put {entries : List (String × α)} {key : String} {value : α} {entry : String × α}
    (h : entry ∈ put key value entries) : entry = (key, value) ∨ entry ∈ entries := by
  induction entries with
  | nil => simpa [put] using h
  | cons head rest ih =>
    simp only [put] at h
    split at h
    · simpa using h
    · split at h
      · rcases List.mem_cons.mp h with h | h
        · exact .inl h
        · exact .inr (List.mem_cons_of_mem _ h)
      · rcases List.mem_cons.mp h with h | h
        · exact .inr (h ▸ List.mem_cons_self ..)
        · exact (ih h).imp id (List.mem_cons_of_mem _)

theorem sorted_put {entries : List (String × α)} (h : Sorted entries) (key : String) (value : α) :
    Sorted (put key value entries) := by
  induction entries with
  | nil => simp [put, Sorted]
  | cons head rest ih =>
    obtain ⟨ahead, sorted⟩ := List.pairwise_cons.mp h
    simp only [put]
    split
    · rename_i less
      refine List.pairwise_cons.mpr ⟨fun entry member => ?_, h⟩
      rcases List.mem_cons.mp member with rfl | member
      · exact less
      · exact String.lt_trans less (ahead entry member)
    · split
      · rename_i same
        exact List.pairwise_cons.mpr ⟨fun entry member => same ▸ ahead entry member, sorted⟩
      · rename_i notLess different
        refine List.pairwise_cons.mpr ⟨fun entry member => ?_, ih sorted⟩
        rcases mem_put member with rfl | member
        · exact Std.lt_of_le_of_ne (String.not_lt.mp notLess) (Ne.symm different)
        · exact ahead entry member

/-- The entries with other names. -/
def without (key : String) (entries : List (String × α)) : List (String × α) :=
  entries.filter fun entry => entry.1 ≠ key

theorem get?_without (entries : List (String × α)) (key other : String) :
    get? (without key entries) other = if key = other then none else get? entries other := by
  induction entries with
  | nil => simp [without, get?]
  | cons head rest ih =>
    simp only [without, List.filter_cons] at ih ⊢
    by_cases same : head.1 = key
    · simp only [same, ne_eq, not_true_eq_false, decide_false, Bool.false_eq_true, ↓reduceIte, ih,
        get?]
      split <;> rfl
    · simp only [ne_eq, same, not_false_eq_true, decide_true, ↓reduceIte, get?, ih]
      split
      · rename_i found
        rw [if_neg fun h => same (found.trans h.symm)]
      · rfl

theorem get?_eq_none_of_lt {entries : List (String × α)} {key : String}
    (h : ∀ entry ∈ entries, key < entry.1) : get? entries key = none := by
  induction entries with
  | nil => rfl
  | cons head rest ih =>
    have ahead := h head (List.mem_cons_self ..)
    simp only [get?]
    rw [if_neg fun same => String.lt_irrefl _ (same ▸ ahead)]
    exact ih fun entry member => h entry (List.mem_cons_of_mem _ member)

/-- A name stands once in a sorted list. -/
theorem mem_iff_get? {entries : List (String × α)} (h : Sorted entries) {key : String} {value : α} :
    (key, value) ∈ entries ↔ get? entries key = some value := by
  induction entries with
  | nil => simp [get?]
  | cons head rest ih =>
    obtain ⟨name, old⟩ := head
    obtain ⟨ahead, sorted⟩ := List.pairwise_cons.mp h
    rw [List.mem_cons, ih sorted, get?, Prod.mk.injEq]
    by_cases same : name = key
    · have absent : get? rest key = none :=
        get?_eq_none_of_lt fun entry member => same ▸ ahead entry member
      simp [same, absent, eq_comm (a := value)]
    · simp [same, Ne.symm same]

/-- Putting a value under a new name adds one entry. -/
theorem put_perm {entries : List (String × α)} {key : String} (value : α)
    (absent : get? entries key = none) :
    (put key value entries).Perm ((key, value) :: entries) := by
  induction entries with
  | nil => exact .rfl
  | cons head rest ih =>
    rw [get?] at absent
    split at absent
    · contradiction
    · next different =>
      rw [put]
      split
      · exact .rfl
      · rw [if_neg (Ne.symm different)]
        exact ((ih absent).cons head).trans (.swap ..)

/-- Sorted lists with the same lookups are the same list. -/
theorem eq_of_get?_eq {a b : List (String × α)} (ha : Sorted a) (hb : Sorted b)
    (h : ∀ key, get? a key = get? b key) : a = b := by
  induction a generalizing b with
  | nil =>
    cases b with
    | nil => rfl
    | cons head rest => simpa [get?] using h head.1
  | cons x xs ih =>
    cases b with
    | nil => simpa [get?] using h x.1
    | cons y ys =>
      obtain ⟨aheadX, sortedX⟩ := List.pairwise_cons.mp ha
      obtain ⟨aheadY, sortedY⟩ := List.pairwise_cons.mp hb
      have names : x.1 = y.1 := by
        rcases Classical.em (x.1 = y.1) with same | different
        · exact same
        · exfalso
          rcases Classical.em (x.1 < y.1) with less | notLess
          · have absent : get? (y :: ys) x.1 = none := get?_eq_none_of_lt fun entry member => by
              rcases List.mem_cons.mp member with rfl | member
              · exact less
              · exact String.lt_trans less (aheadY entry member)
            have := (h x.1).trans absent
            simp [get?] at this
          · have less : y.1 < x.1 :=
              Std.lt_of_le_of_ne (String.not_lt.mp notLess) (Ne.symm different)
            have absent : get? (x :: xs) y.1 = none := get?_eq_none_of_lt fun entry member => by
              rcases List.mem_cons.mp member with rfl | member
              · exact less
              · exact String.lt_trans less (aheadX entry member)
            have := (h y.1).symm.trans absent
            simp [get?] at this
      have values : x.2 = y.2 := by simpa [get?, names] using h x.1
      have rest : xs = ys := by
        refine ih sortedX sortedY fun key => ?_
        have at_key := h key
        simp only [get?, names] at at_key
        split at at_key
        · rename_i same
          rw [get?_eq_none_of_lt fun entry member => same ▸ names ▸ aheadX entry member,
            get?_eq_none_of_lt fun entry member => same ▸ aheadY entry member]
        · exact at_key
      exact List.cons_eq_cons.mpr ⟨Prod.ext names values, rest⟩

end NamedList

/-- A finite map from names, its entries in strictly ascending order. -/
@[ext]
structure SortedMap (α : Type) where
  entries : List (String × α)
  sorted : NamedList.Sorted entries

namespace SortedMap

variable {α : Type}

instance [DecidableEq α] : DecidableEq (SortedMap α) := fun a b =>
  decidable_of_iff (a.entries = b.entries) SortedMap.ext_iff.symm

def empty : SortedMap α :=
  ⟨[], List.Pairwise.nil⟩

instance : EmptyCollection (SortedMap α) := ⟨empty⟩

instance : Inhabited (SortedMap α) := ⟨empty⟩

def names (m : SortedMap α) : List String :=
  m.entries.map (·.1)

def get? (m : SortedMap α) (key : String) : Option α :=
  NamedList.get? m.entries key

def contains (m : SortedMap α) (key : String) : Bool :=
  (m.get? key).isSome

def insert (m : SortedMap α) (key : String) (value : α) : SortedMap α :=
  ⟨NamedList.put key value m.entries, NamedList.sorted_put m.sorted key value⟩

def erase (m : SortedMap α) (key : String) : SortedMap α :=
  ⟨NamedList.without key m.entries, m.sorted.filter _⟩

/-- The entries put one after the other into the empty map; the last of a name stays. -/
def ofList (entries : List (String × α)) : SortedMap α :=
  entries.foldl (fun m entry => m.insert entry.1 entry.2) empty

@[simp]
theorem get?_empty (key : String) : (∅ : SortedMap α).get? key = none :=
  rfl

theorem get?_insert (m : SortedMap α) (key : String) (value : α) (other : String) :
    (m.insert key value).get? other = if key = other then some value else m.get? other :=
  NamedList.get?_put m.entries key value other

theorem get?_erase (m : SortedMap α) (key other : String) :
    (m.erase key).get? other = if key = other then none else m.get? other :=
  NamedList.get?_without m.entries key other

theorem mem_entries {m : SortedMap α} {key : String} {value : α} :
    (key, value) ∈ m.entries ↔ m.get? key = some value :=
  NamedList.mem_iff_get? m.sorted

theorem mem_names {m : SortedMap α} {key : String} : key ∈ m.names ↔ m.contains key = true := by
  rw [names, contains, Option.isSome_iff_exists, List.mem_map]
  constructor
  · rintro ⟨entry, member, rfl⟩
    exact ⟨entry.2, mem_entries.mp member⟩
  · rintro ⟨value, found⟩
    exact ⟨(key, value), mem_entries.mpr found, rfl⟩

theorem ascending_names (m : SortedMap α) : m.names.Pairwise (· < ·) :=
  List.pairwise_map.mpr m.sorted

/-- What is found in a map made from a list is in the list. -/
theorem mem_of_get?_ofList {entries : List (String × α)} {key : String} {value : α}
    (found : (ofList entries).get? key = some value) : (key, value) ∈ entries := by
  have onto (m : SortedMap α) : (entries.foldl (fun m entry => m.insert entry.1 entry.2) m).get?
      key = some value → (key, value) ∈ entries ∨ m.get? key = some value := by
    clear found
    induction entries generalizing m with
    | nil => exact .inr
    | cons first rest ih =>
      intro found
      rw [List.mem_cons]
      obtain later | before := ih _ found
      · exact .inl (.inr later)
      · rw [get?_insert] at before
        split at before
        · rename_i same
          cases before
          exact .inl (.inl (Prod.ext same.symm rfl))
        · exact .inr before
  exact (onto ∅ found).resolve_right nofun

theorem contains_ofList (entries : List (String × α)) (key : String) :
    (ofList entries).contains key = decide (key ∈ entries.map (·.1)) := by
  have onto (m : SortedMap α) :
      (entries.foldl (fun m entry => m.insert entry.1 entry.2) m).contains key =
        (decide (key ∈ entries.map (·.1)) || m.contains key) := by
    induction entries generalizing m with
    | nil => rfl
    | cons first rest ih =>
      rw [List.foldl_cons, ih, contains, get?_insert, contains, List.map_cons]
      simp only [List.mem_cons, Bool.decide_or, eq_comm (a := key)]
      by_cases here : first.1 = key
      · simp [here]
      · simp [here]
  exact (onto ∅).trans (Bool.or_false _)

/-- A map is determined by its lookups. -/
theorem ext_get? {a b : SortedMap α} (h : ∀ key, a.get? key = b.get? key) : a = b :=
  SortedMap.ext (NamedList.eq_of_get?_eq a.sorted b.sorted h)

end SortedMap

end Stepwise
