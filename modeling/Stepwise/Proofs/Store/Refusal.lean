import Stepwise.Proofs.Store.Effect

/-!
# Refused calls

A call that fails leaves every collection as it was, and none comes into being
(`Store.unchanged_of_refused`). Inserting a document and creating an index open their collection
before they look for conflicts, but where there is a conflict the collection has documents or
indexes, so it was there before; an update that clashes has rewritten only a copy of the documents.
-/

namespace Stepwise

namespace Store

/-- Whether an outcome of a call on the store is an answer, or a failure that leaves the store with
nothing but the call counted. -/
inductive Atomic {α : Type} (s : Store) : Outcome α → Prop
  | done (answer : α) (after : Store) : Atomic s (.ok answer, after)
  | refused (cause : StoreError) : Atomic s (.error cause, s.counted)

private theorem Atomic.of_refused {α : Type} {s : Store} {outcome : Outcome α}
    (atomic : s.Atomic outcome) {cause : StoreError} (refused : outcome.1 = .error cause) :
    outcome.2 = s.counted := by
  cases atomic with
  | done answer after => contradiction
  | refused _ => rfl

private theorem atomic_add (s : Store) (name : String) (id : Value) (document : Document) :
    s.Atomic (s.counted.add name id document) := by
  obtain ⟨-, key, refused⟩ | ⟨-, -, added⟩ := s.counted.add_cases name id document
  · rw [refused]
    exact .refused _
  · rw [added]
    exact .done ..

private theorem atomic_insert (s : Store) (name : String) (document : Document) :
    s.Atomic (s.insert name document) := by
  cases identified : document.id? with
  | some id =>
    rw [insert_of_id? identified]
    exact s.atomic_add name id document
  | none =>
    have added := s.atomic_add name (generatedId s.issued)
      (document.insert "_id" (generatedId s.issued))
    simp only [insert, identified]
    split
    · exact .done ..
    · exact added

private theorem atomic_update (s : Store) (name : String) (filter : Filter) (change : Update) :
    s.Atomic (s.update name filter change) := by
  obtain ⟨-, reason, refused⟩ | ⟨sound, missing⟩ | ⟨-, -, -, key, refused⟩ |
    ⟨c, sound, present, clear⟩ := s.update_cases name filter change
  · rw [refused]
    exact .refused _
  · rw [update_of_missing sound missing]
    exact .done ..
  · rw [refused]
    exact .refused _
  · rw [update_of_clear sound present clear]
    exact .done ..

private theorem atomic_createIndex (s : Store) (name : String) (index : Index) :
    s.Atomic (s.createIndex name index) := by
  -- A collection with an index of the name, or with documents that clash, needs no opening.
  have opened (filled : s.collection name ≠ {}) : s.counted.opened name = s.counted :=
    opened_of_get? (get?_of_ne_empty filled)
  rw [createIndex_eq]
  split
  · exact .refused _
  · split
    · next existing there =>
      split
      · exact .done ..
      · rw [opened fun empty => by rw [empty] at there; contradiction]
        exact .refused _
    · split
      · next document clash =>
        have filled : s.collection name ≠ {} := by
          intro empty
          rw [empty] at clash
          simp [Collection.firstClash?, Index.firstRepeat?] at clash
        rw [opened filled]
        exact .refused _
      · exact .done ..

/-- Every call answers, or fails and leaves the store with nothing but the call counted. -/
theorem atomic_perform (s : Store) (c : Call) : s.Atomic (s.perform c) := by
  cases c with
  | createCollection name =>
    simp only [perform, createCollection]
    split
    · exact .refused _
    · exact .done ..
  | insert name document => exact s.atomic_insert name document
  | update name filter change => exact s.atomic_update name filter change
  | delete name filter =>
    simp only [perform, delete]
    split <;> exact .done ..
  | deleteFirst name filter =>
    rw [perform, deleteFirst_eq]
    split <;> exact .done ..
  | createIndex name index => exact s.atomic_createIndex name index
  | dropIndex name index =>
    simp only [perform, dropIndex]
    split
    · exact .refused _
    · exact .done ..
  | dropCollection _ | listCollections | find _ _ | listIndexes _ => exact .done ..

/-- A call that fails leaves all collections as they were, with their documents and indexes, and
the store with nothing but the call counted. -/
theorem unchanged_of_refused {s : Store} {c : Call} {cause : StoreError}
    (refused : (s.perform c).1 = .error cause) :
    (s.perform c).2.collections = s.collections ∧ (s.perform c).2 = s.counted := by
  have unchanged := (s.atomic_perform c).of_refused refused
  refine ⟨?_, unchanged⟩
  rw [unchanged]
  rfl

/-- An update fails when both documents have their new number, and an index without keys does not
bring a collection into being. -/
theorem unchanged_of_refused_late :
    let number : Index := { name := "number", keys := [{ field := "n" }], unique := true }
    let s := after [.insert "c" [("_id", .str "a"), ("n", .num (.int 1))],
      .insert "c" [("_id", .str "b")], .createIndex "c" number]
    let clash := Call.update "c" [] ⟨[("n", .num (.int 2))], []⟩
    let keyless := Call.createIndex "d" { number with keys := [] }
    (s.perform clash).1 = .error (.duplicateKey "c" "number [Number(2)]") ∧
      (s.perform clash).2.collections = s.collections ∧
      (s.perform keyless).1 = .error (.invalidDocument "index 'number' has no keys") ∧
      (s.perform keyless).2.collections = s.collections ∧ s.collections.names = ["c"] := by
  intro number s clash keyless
  have clashed : (s.perform clash).1 = .error (.duplicateKey "c" "number [Number(2)]") := by
    decide
  have refused : (s.perform keyless).1 = .error (.invalidDocument "index 'number' has no keys") :=
    rfl
  exact ⟨clashed, (unchanged_of_refused clashed).1, refused, (unchanged_of_refused refused).1,
    by decide⟩

end Store

end Stepwise
