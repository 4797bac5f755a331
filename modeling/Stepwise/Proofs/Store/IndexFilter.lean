import Mathlib.Data.List.Nodup
import Stepwise.Proofs.Document.Data
import Stepwise.Proofs.Store.Alike

/-!
# Filters made from indexes

The filter of a document under an index expects what the document has in the fields of the index. A
filter lets a missing value pass for null, and an index counts it as null, so the documents that
pass are those with the same values under the index (`Index.passes_filterOf`). A unique index
separates the documents of its collection, so there is at most one to be found
(`Store.find_by_index`).
-/

namespace Stepwise

/-- A missing value passes as null does. -/
theorem Filter.expects_iff {expected : Value} {found : Option Value} :
    expects expected found = true ↔ found.getD .null ≈ expected := by
  cases found with
  | some actual => simp [expects]
  | none =>
    rw [expects, decide_eq_true_eq, Option.getD_none, Value.equiv_iff]
    cases expected <;> simp [Value.canonical]

theorem Filter.passes_iff {filter : Filter} {document : Document} :
    filter.passes document = true ↔
      ∀ path expected, (path, expected) ∈ filter →
        (document.lookup (.parse path)).getD .null ≈ expected := by
  simp [passes, expects_iff]

namespace Index

variable {index : Index} {d e : Document}

/-- The filter that expects the values of a document under the index, each field once. -/
def filterOf (index : Index) (document : Document) : Filter :=
  Fields.ofList (index.keys.map fun key =>
    (key.field, (document.lookup (.parse key.field)).getD .null))

theorem mem_filterOf {field : String} {value : Value} :
    (field, value) ∈ index.filterOf d ↔
      (∃ key ∈ index.keys, key.field = field) ∧
        value = (d.lookup (.parse field)).getD .null := by
  have entry (field : String) (value : Value) :
      (field, value) ∈ index.keys.map (fun key =>
          (key.field, (d.lookup (.parse key.field)).getD .null)) ↔
        (∃ key ∈ index.keys, key.field = field) ∧
          value = (d.lookup (.parse field)).getD .null := by
    simp only [List.mem_map, Prod.mk.injEq]
    constructor
    · rintro ⟨key, member, rfl, rfl⟩
      exact ⟨⟨key, member, rfl⟩, rfl⟩
    · rintro ⟨⟨key, member, rfl⟩, rfl⟩
      exact ⟨key, member, rfl, rfl⟩
  rw [filterOf, Fields.mem_ofList, entry]
  intro field a b first second
  rw [entry] at first second
  exact first.2.trans second.2.symm

theorem sameValues_iff_forall :
    index.SameValues e d ↔ ∀ key ∈ index.keys,
      (e.lookup (.parse key.field)).getD .null ≈ (d.lookup (.parse key.field)).getD .null := by
  rw [SameValues, values, values, List.forall₂_map_left_iff, List.forall₂_map_right_iff,
    List.forall₂_same]

theorem sameValues_iff :
    index.SameValues e d ↔ index.canonicalValues e = index.canonicalValues d := by
  rw [← agree_iff, agree, decide_eq_true_eq]
  rfl

/-- The documents that pass the filter of a document are those with the same values as it has. -/
theorem passes_filterOf : (index.filterOf d).passes e = true ↔ index.SameValues e d := by
  rw [Filter.passes_iff, sameValues_iff_forall]
  constructor
  · intro expected key member
    exact expected _ _ (mem_filterOf.mpr ⟨⟨key, member, rfl⟩, rfl⟩)
  · intro same field value member
    obtain ⟨⟨key, among, rfl⟩, rfl⟩ := mem_filterOf.mp member
    exact same key among

/-- Of documents that the index separates, at most one passes the filter. -/
theorem length_filter_filterOf {documents : List Document} (separate : index.Separates documents)
    (d : Document) : (documents.filter (index.filterOf d).passes).length ≤ 1 := by
  have apart : ((documents.filter (index.filterOf d).passes).map index.canonicalValues).Nodup :=
    (separates_iff.mp separate).sublist (List.filter_sublist.map _)
  have alike : ∀ values ∈ (documents.filter (index.filterOf d).passes).map index.canonicalValues,
      values = index.canonicalValues d := by
    rw [List.forall_mem_map]
    intro e member
    exact sameValues_iff.mp (passes_filterOf.mp (List.mem_filter.mp member).2)
  rw [List.eq_replicate_of_mem alike, List.nodup_replicate, List.length_map] at apart
  exact apart

end Index

namespace Store

/-- The filter of a document under an index has one entry for each field of the index, with the
value of the document there, or null where it has none. The documents with the same values under
the index are those that pass. In every state, under a unique index of a collection, at most one is
found there, and for a document of the collection that is the document itself. -/
theorem find_by_index (index : Index) :
    (∀ d, ((index.filterOf d).map (·.1)).Nodup ∧ ∀ field value,
      (field, value) ∈ index.filterOf d ↔ (∃ key ∈ index.keys, key.field = field) ∧
        value = (d.lookup (.parse field)).getD .null) ∧
    (∀ d e, (index.filterOf d).passes e = true ↔ index.SameValues e d) ∧
    ∀ calls name, let s := after calls
      index ∈ (s.collection name).indexes → index.unique = true → ∀ d,
        ∃ found, s.find name (index.filterOf d) = (.ok found, s) ∧ found.length ≤ 1 ∧
          (d ∈ (s.collection name).documents → found = [d]) := by
  refine ⟨fun d => ⟨Fields.nodup_ofList _, fun _ _ => Index.mem_filterOf⟩,
    fun _ _ => Index.passes_filterOf, ?_⟩
  intro calls name s there enforced d
  have separate : index.Separates (s.collection name).documents :=
    (indexed_after calls name).unique index there enforced
  have few := Index.length_filter_filterOf separate d
  refine ⟨_, rfl, few, fun member => ?_⟩
  have itself : d ∈ (s.collection name).documents.filter (index.filterOf d).passes :=
    List.mem_filter.mpr ⟨member, Index.passes_filterOf.mpr (Index.sameValues_iff.mpr rfl)⟩
  obtain ⟨one, alone⟩ :=
    List.length_eq_one_iff.mp (Nat.le_antisymm few (List.length_pos_of_mem itself))
  rw [alone, List.mem_singleton] at itself
  rw [alone, itself]

/-- An index may have a field twice and one below another. A document with nothing in a field, with
null, or with a number on the way there passes alike. -/
theorem find_by_index_missing :
    let pair : Index :=
      { name := "pair", unique := true,
        keys := [{ field := "n.v" }, { field := "n" }, { field := "n.v", order := .descending }] }
    let bare : Document := [("_id", .str "b")]
    let calls := [Call.insert "c" [("_id", .str "a"), ("n", .num (.int 1))], .insert "c" bare,
      .insert "c" [("_id", .str "d"), ("n", .obj [("v", .bool true)])], .createIndex "c" pair]
    let s := after calls
    pair ∈ (s.collection "c").indexes ∧ bare ∈ (s.collection "c").documents ∧
      pair.filterOf bare = [("n.v", .null), ("n", .null)] ∧
      (pair.filterOf bare).passes [("n", .null)] = true ∧
      (pair.filterOf bare).passes [("n", .num (.int 1))] = false ∧
      s.find "c" (pair.filterOf bare) = (.ok [bare], s) := by
  intro pair bare calls s
  obtain ⟨-, passes, found⟩ := find_by_index pair
  have indexed : pair ∈ (s.collection "c").indexes := by decide
  have stored : bare ∈ (s.collection "c").documents := by decide
  obtain ⟨documents, answer, -, itself⟩ := found calls "c" indexed rfl bare
  refine ⟨indexed, stored, by decide, (passes _ _).mpr (by decide), ?_, ?_⟩
  · rw [← Bool.not_eq_true, passes]
    decide
  · rw [answer, itself stored]

end Store

end Stepwise
