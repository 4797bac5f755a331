import Mathlib.Data.List.Induction
import Stepwise.Store.Script

/-!
# What a call does to the collections

`Call.Makes` says what a call can make of the collection that it is about. By `Store.perform_effect`
a call either changes nothing, drops its collection, or puts into its place what it makes of it.
Every invariant of single collections follows from that relation (`Store.after_induction`), and so
does the frame: a call leaves all other collections alone, and one that does not write leaves all of
them alone.
-/

namespace Stepwise

/-- What a call can make of the collection that it is about. -/
inductive Call.Makes : Call → Collection → Collection → Prop
  /-- The call fails or finds all as it should be; the collection is there afterwards. -/
  | same (c : Call) (before : Collection) : Makes c before before
  | inserted {name : String} {document stored : Document} {id : Value} {before : Collection} :
      (stored = document ∨ document.id? = none ∧ stored = document.insert "_id" id) →
      stored.id? = some id → before.hasId id = false → before.violated? stored = none →
      Makes (.insert name document) before
        { before with documents := before.documents ++ [stored] }
  | updated {name : String} {filter : Filter} {change : Update} {before : Collection} :
      change.touchesId = false →
      Collection.firstClash? before.indexes (before.updated filter change) = none →
      Makes (.update name filter change) before
        { before with documents := before.updated filter change }
  | deleted (name : String) (filter : Filter) (before : Collection) :
      Makes (.delete name filter) before
        { before with documents := before.documents.filter (!filter.passes ·) }
  | deletedFirst {name : String} {filter : Filter} {before : Collection}
      {documents : List Document} :
      Collection.withoutFirst? filter before.documents = some documents →
      Makes (.deleteFirst name filter) before { before with documents }
  | indexed {name : String} {index : Index} {before : Collection} :
      index.keys.isEmpty = false → before.index? index.name = none →
      Collection.firstClash? [index] before.documents = none →
      Makes (.createIndex name index) before { before with indexes := before.indexes ++ [index] }
  | unindexed {name index : String} {before : Collection} {indexes : List Index} :
      Collection.withoutIndex? index before.indexes = some indexes →
      Makes (.dropIndex name index) before { before with indexes }

namespace Collection

/-- What is left of documents without the first that passes a filter are some of them, in order. -/
theorem withoutFirst?_sublist {filter : Filter} {documents left : List Document}
    (found : withoutFirst? filter documents = some left) : left.Sublist documents := by
  induction documents generalizing left with
  | nil => contradiction
  | cons document rest ih =>
    rw [withoutFirst?] at found
    split at found
    · cases found
      exact List.sublist_cons_self _ _
    · obtain ⟨others, later, rfl⟩ := Option.map_eq_some_iff.mp found
      exact (ih later).cons_cons _

private theorem withoutFirst?_eq (filter : Filter) (documents : List Document) :
    withoutFirst? filter documents =
      if documents.any filter.passes then some (documents.eraseP filter.passes) else none := by
  induction documents with
  | nil => rfl
  | cons document rest ih =>
    rw [withoutFirst?, List.eraseP_cons, List.any_cons, ih]
    cases filter.passes document <;> cases rest.any filter.passes <;> rfl

theorem withoutIndex?_sublist {name : String} {indexes left : List Index}
    (found : withoutIndex? name indexes = some left) : left.Sublist indexes := by
  induction indexes generalizing left with
  | nil => contradiction
  | cons index rest ih =>
    rw [withoutIndex?] at found
    split at found
    · cases found
      exact List.sublist_cons_self _ _
    · obtain ⟨others, later, rfl⟩ := Option.map_eq_some_iff.mp found
      exact (ih later).cons_cons _

/-- A document that is in a collection has its identifying value taken there. -/
theorem hasId_concat (c : Collection) {document : Document} {id : Value}
    (identified : document.id? = some id) :
    hasId { c with documents := c.documents ++ [document] } id = true := by
  simp only [hasId, List.any_append, List.any_cons, identified, List.any_nil, Bool.or_false,
    Bool.or_eq_true]
  exact .inr (decide_eq_true (Setoid.refl id))

end Collection

namespace Store

theorem get?_put (s : Store) (name : String) (c : Collection) (other : String) :
    (s.put name c).collections.get? other =
      if name = other then some c else s.collections.get? other :=
  SortedMap.get?_insert ..

theorem collection_put (s : Store) (name : String) (c : Collection) (other : String) :
    (s.put name c).collection other = if name = other then c else s.collection other := by
  simp only [collection, get?_put]
  split <;> rfl

theorem collection_opened (s : Store) (name : String) :
    (s.opened name).collection name = s.collection name := by
  rw [opened, collection_put, if_pos rfl]

theorem opened_put (s : Store) (name : String) (c : Collection) :
    (s.opened name).put name c = s.put name c := by
  simp only [opened, put, mk.injEq, and_true]
  apply SortedMap.ext_get?
  intro other
  simp only [SortedMap.get?_insert]
  split <;> rfl

/-- A collection that exists needs no opening. -/
theorem opened_of_get? {s : Store} {name : String} {c : Collection}
    (present : s.collections.get? name = some c) : s.opened name = s := by
  simp only [opened, put, collection, present, Option.getD_some]
  congr 1
  apply SortedMap.ext_get?
  intro other
  rw [SortedMap.get?_insert]
  split
  · next same => rw [← same, present]
  · rfl

theorem collection_eq_of_get? {s : Store} {name : String} {c : Collection}
    (present : s.collections.get? name = some c) : s.collection name = c := by
  rw [collection, present, Option.getD_some]

/-- Adding a document, with the opening of the collection left out of what is tested. -/
theorem add_eq (s : Store) (name : String) (id : Value) (document : Document) :
    s.add name id document =
      if (s.collection name).hasId id then (.error (.duplicateKey name id.json), s.opened name)
      else match (s.collection name).violated? document with
        | some index => (.error (.duplicateKey name (index.keyText document)), s.opened name)
        | none => (.ok (), s.put name { s.collection name with
            documents := (s.collection name).documents ++ [document] }) := by
  cases taken : (s.collection name).hasId id with
  | true => simp only [add, collection_opened, taken, ↓reduceIte]
  | false =>
    cases allowed : (s.collection name).violated? document with
    | some index =>
      simp only [add, collection_opened, taken, allowed, Bool.false_eq_true, ↓reduceIte]
    | none =>
      simp only [add, collection_opened, opened_put, taken, allowed, Bool.false_eq_true, ↓reduceIte]

/-- A collection with documents or indexes exists. -/
theorem get?_of_ne_empty {s : Store} {name : String} (filled : s.collection name ≠ {}) :
    s.collections.get? name = some (s.collection name) := by
  cases present : s.collections.get? name with
  | some c => rw [collection_eq_of_get? present]
  | none =>
    have empty : s.collection name = {} := by rw [collection, present, Option.getD_none]
    contradiction

/-- A document is added unless its identifying value is taken or a unique index does not allow it;
then the store stays as it is. -/
theorem add_cases (s : Store) (name : String) (id : Value) (document : Document) :
    (((s.collection name).hasId id = true ∨ (s.collection name).violated? document ≠ none) ∧
      ∃ key, s.add name id document = (.error (.duplicateKey name key), s)) ∨
    ((s.collection name).hasId id = false ∧ (s.collection name).violated? document = none ∧
      s.add name id document = (.ok (), s.put name { s.collection name with
        documents := (s.collection name).documents ++ [document] })) := by
  rw [add_eq]
  split
  · next taken =>
    have filled : s.collection name ≠ {} := by
      intro empty
      rw [empty] at taken
      contradiction
    rw [opened_of_get? (get?_of_ne_empty filled)]
    exact .inl ⟨.inl taken, _, rfl⟩
  · next free =>
    split
    · next index violated =>
      have filled : s.collection name ≠ {} := by
        intro empty
        rw [empty] at violated
        contradiction
      have refused : (s.collection name).violated? document ≠ none := by simp [violated]
      rw [opened_of_get? (get?_of_ne_empty filled)]
      exact .inl ⟨.inr refused, _, rfl⟩
    · next allowed => exact .inr ⟨Bool.eq_false_iff.mpr free, allowed, rfl⟩

theorem insert_of_id? {document : Document} {id : Value} (identified : document.id? = some id)
    (s : Store) (name : String) :
    s.insert name document = s.counted.add name id document := by
  simp only [insert, identified]

/-- The first document that passes is deleted if there is one. -/
theorem deleteFirst_cases (s : Store) (name : String) (filter : Filter) :
    (Collection.withoutFirst? filter (s.collection name).documents = none ∧
      s.deleteFirst name filter = (.ok false, s.counted)) ∨
    (∃ documents, Collection.withoutFirst? filter (s.collection name).documents = some documents ∧
      s.deleteFirst name filter =
        (.ok true, s.counted.put name { s.collection name with documents })) := by
  cases present : s.collections.get? name with
  | none =>
    have empty : s.collection name = {} := by rw [collection, present, Option.getD_none]
    have missing : s.counted.collections.get? name = none := present
    refine .inl ⟨by rw [empty]; rfl, ?_⟩
    simp only [deleteFirst, missing]
  | some c =>
    have here : s.collection name = c := collection_eq_of_get? present
    have there : s.counted.collections.get? name = some c := present
    simp only [deleteFirst, there, here]
    cases left : Collection.withoutFirst? filter c.documents with
    | none => exact .inl ⟨rfl, rfl⟩
    | some documents => exact .inr ⟨documents, rfl, rfl⟩

theorem deleteFirst_eq (s : Store) (name : String) (filter : Filter) :
    s.deleteFirst name filter =
      if (s.collection name).documents.any filter.passes then
        (.ok true, s.counted.put name { s.collection name with
          documents := (s.collection name).documents.eraseP filter.passes })
      else (.ok false, s.counted) := by
  have found := Collection.withoutFirst?_eq filter (s.collection name).documents
  obtain ⟨nothing, kept⟩ | ⟨documents, left, deleted⟩ := s.deleteFirst_cases name filter
  · rw [nothing] at found
    split at found
    · contradiction
    · next none => rw [kept, if_neg none]
  · rw [left] at found
    split at found
    · next some =>
      cases found
      rw [deleted, if_pos some]
    · contradiction

theorem update_of_missing {s : Store} {name : String} {change : Update}
    (sound : change.touchesId = false) (missing : s.collections.get? name = none)
    (filter : Filter) : s.update name filter change = (.ok 0, s.counted) := by
  have there : s.counted.collections.get? name = none := missing
  simp only [update, sound, there, Bool.false_eq_true, ↓reduceIte]

theorem update_of_clear {s : Store} {name : String} {c : Collection} {filter : Filter}
    {change : Update} (sound : change.touchesId = false)
    (present : s.collections.get? name = some c)
    (clear : Collection.firstClash? c.indexes (c.updated filter change) = none) :
    s.update name filter change = (.ok (c.count filter),
      s.counted.put name { c with documents := c.updated filter change }) := by
  have there : s.counted.collections.get? name = some c := present
  simp only [update, sound, there, clear, Bool.false_eq_true, ↓reduceIte]

/-- An update is refused for what it names, finds no collection, is refused for a clash, or takes
place. -/
theorem update_cases (s : Store) (name : String) (filter : Filter) (change : Update) :
    (change.touchesId = true ∧
      ∃ reason, s.update name filter change = (.error (.invalidDocument reason), s.counted)) ∨
    (change.touchesId = false ∧ s.collections.get? name = none) ∨
    (∃ c, s.collections.get? name = some c ∧
      Collection.firstClash? c.indexes (c.updated filter change) ≠ none ∧
      ∃ key, s.update name filter change = (.error (.duplicateKey name key), s.counted)) ∨
    (∃ c, change.touchesId = false ∧ s.collections.get? name = some c ∧
      Collection.firstClash? c.indexes (c.updated filter change) = none) := by
  cases sound : change.touchesId with
  | true =>
    refine .inl ⟨rfl, "the _id field is immutable", ?_⟩
    simp only [update, sound, ↓reduceIte]
  | false =>
    cases present : s.collections.get? name with
    | none => exact .inr (.inl ⟨rfl, rfl⟩)
    | some c =>
      cases clash : Collection.firstClash? c.indexes (c.updated filter change) with
      | none => exact .inr (.inr (.inr ⟨c, rfl, rfl, clash⟩))
      | some found =>
        have there : s.counted.collections.get? name = some c := present
        refine .inr (.inr (.inl ⟨c, rfl, clash ▸ Option.some_ne_none found,
          found.1.keyText found.2, ?_⟩))
        simp only [update, sound, there, clash, Bool.false_eq_true, ↓reduceIte]

/-- Creating an index, with the opening of the collection left out of what is tested. -/
theorem createIndex_eq (s : Store) (name : String) (index : Index) :
    s.createIndex name index =
      if index.keys.isEmpty then
        (.error (.invalidDocument ("index '" ++ index.name ++ "' has no keys")), s.counted)
      else match (s.collection name).index? index.name with
        | some existing =>
          if existing = index then (.ok (), s.counted.opened name)
          else (.error (.indexConflict name index.name), s.counted.opened name)
        | none =>
          match Collection.firstClash? [index] (s.collection name).documents with
          | some (_, document) =>
            (.error (.duplicateKey name (index.keyText document)), s.counted.opened name)
          | none => (.ok (), s.counted.put name { s.collection name with
              indexes := (s.collection name).indexes ++ [index] }) := by
  have uncounted : s.counted.collection name = s.collection name := rfl
  cases keyed : index.keys.isEmpty with
  | true => simp only [createIndex, keyed, ↓reduceIte]
  | false =>
    cases there : (s.collection name).index? index.name with
    | some existing =>
      simp only [createIndex, collection_opened, uncounted, keyed, there, Bool.false_eq_true,
        ↓reduceIte]
    | none =>
      cases clash : Collection.firstClash? [index] (s.collection name).documents with
      | some pair =>
        simp only [createIndex, collection_opened, uncounted, keyed, there, clash,
          Bool.false_eq_true, ↓reduceIte]
      | none =>
        simp only [createIndex, collection_opened, opened_put, uncounted, keyed, there, clash,
          Bool.false_eq_true, ↓reduceIte]

/-- What the effect of a call is: nothing, the loss of a dropped collection, or what the call makes
of its collection. -/
def Effect (s : Store) (c : Call) (collections : SortedMap Collection) : Prop :=
  collections = s.collections ∨
    c.isWrite = true ∧ (c = .dropCollection c.collection ∧
        collections = s.collections.erase c.collection ∨
      ∃ after, c.Makes (s.collection c.collection) after ∧
        collections = s.collections.insert c.collection after)

theorem Effect.unchanged (s : Store) (c : Call) : s.Effect c s.collections :=
  .inl rfl

theorem Effect.made {s : Store} {c : Call} {after : Collection} (write : c.isWrite = true)
    (makes : c.Makes (s.collection c.collection) after) :
    s.Effect c (s.collections.insert c.collection after) :=
  .inr ⟨write, .inr ⟨after, makes, rfl⟩⟩

private theorem add_effect (s : Store) {name : String} {id : Value} {document stored : Document}
    (origin : stored = document ∨ document.id? = none ∧ stored = document.insert "_id" id)
    (identified : stored.id? = some id) :
    s.Effect (.insert name document) (s.counted.add name id stored).2.collections := by
  obtain ⟨-, key, refused⟩ | ⟨free, allowed, added⟩ := s.counted.add_cases name id stored
  · rw [refused]
    exact .unchanged ..
  · rw [added]
    exact .made rfl (.inserted origin identified free allowed)

private theorem insert_effect (s : Store) (name : String) (document : Document) :
    s.Effect (.insert name document) (s.insert name document).2.collections := by
  simp only [insert]
  split
  · next id identified => exact s.add_effect (.inl rfl) identified
  · next missing =>
    have identified (id : Value) : Fields.id? (document.insert "_id" id) = some id := by
      simp only [Fields.id?, Fields.get?_insert, ↓reduceIte]
    have effect : s.Effect (.insert name document) (s.counted.add name _ _).2.collections :=
      s.add_effect (.inr ⟨missing, rfl⟩) (identified (generatedId s.counted.issued))
    split
    · next ran => rwa [ran] at effect
    · exact effect

private theorem createIndex_effect (s : Store) (name : String) (index : Index) :
    s.Effect (.createIndex name index) (s.createIndex name index).2.collections := by
  rw [createIndex_eq]
  split
  · exact .unchanged ..
  · next keyed =>
    split
    · split
      · exact .made rfl (.same ..)
      · exact .made rfl (.same ..)
    · next fresh =>
      split
      · exact .made rfl (.same ..)
      · next clear =>
        exact .made rfl (.indexed (Bool.eq_false_iff.mpr keyed) fresh clear)

theorem update_effect (s : Store) (name : String) (filter : Filter) (change : Update) :
    s.Effect (.update name filter change) (s.update name filter change).2.collections := by
  obtain ⟨-, reason, refused⟩ | ⟨sound, missing⟩ | ⟨-, -, -, key, refused⟩ |
    ⟨c, sound, present, clear⟩ := s.update_cases name filter change
  · rw [refused]
    exact .unchanged ..
  · rw [update_of_missing sound missing]
    exact .unchanged ..
  · rw [refused]
    exact .unchanged ..
  · rw [update_of_clear sound present clear]
    have here : s.collection name = c := collection_eq_of_get? present
    subst here
    exact .made rfl (.updated sound clear)

/-- What a call does to the collections. -/
theorem perform_effect (s : Store) (c : Call) : s.Effect c (s.perform c).2.collections := by
  cases c with
  | createCollection name =>
    simp only [perform, createCollection]
    split
    · exact .unchanged ..
    · next absent =>
      have empty : s.collection name = {} := by
        rw [SortedMap.contains, Option.not_isSome_iff_eq_none] at absent
        have missing : s.collections.get? name = none := absent
        rw [collection, missing, Option.getD_none]
      exact .made rfl (empty ▸ .same ..)
  | dropCollection name => exact .inr ⟨rfl, .inl ⟨rfl, rfl⟩⟩
  | insert name document => exact s.insert_effect ..
  | update name filter change => exact s.update_effect ..
  | delete name filter =>
    simp only [perform, delete]
    split
    · exact .unchanged ..
    · next c present =>
      have here : s.collection name = c := collection_eq_of_get? present
      subst here
      exact .made rfl (.deleted ..)
  | deleteFirst name filter =>
    obtain ⟨-, kept⟩ | ⟨documents, left, deleted⟩ := s.deleteFirst_cases name filter
    · simp only [perform, kept]
      exact .unchanged ..
    · simp only [perform, deleted]
      exact .made rfl (.deletedFirst left)
  | createIndex name index => exact s.createIndex_effect ..
  | dropIndex name index =>
    simp only [perform, dropIndex]
    split
    · exact .unchanged ..
    · next left => exact .made rfl (.unindexed left)
  | listCollections | find _ _ | listIndexes _ => exact .unchanged ..

/-- A call leaves a collection alone unless it writes and is about that collection. -/
theorem get?_perform_of_spared (s : Store) {c : Call} {name : String}
    (spared : c.isWrite = true → c.collection ≠ name) :
    (s.perform c).2.collections.get? name = s.collections.get? name := by
  obtain same | ⟨write, ⟨-, erased⟩ | ⟨after, -, put⟩⟩ := s.perform_effect c
  · rw [same]
  · rw [erased, SortedMap.get?_erase, if_neg (spared write)]
  · rw [put, SortedMap.get?_insert, if_neg (spared write)]

theorem collection_perform_of_spared (s : Store) {c : Call} {name : String}
    (spared : c.isWrite = true → c.collection ≠ name) :
    (s.perform c).2.collection name = s.collection name := by
  rw [collection, s.get?_perform_of_spared spared, collection]

/-- The store after calls, from the empty store on. -/
def after (calls : List Call) : Store :=
  calls.foldl (fun s c => (s.perform c).2) {}

theorem after_concat (calls : List Call) (c : Call) :
    after (calls ++ [c]) = ((after calls).perform c).2 := by
  simp only [after, List.foldl_append, List.foldl_cons, List.foldl_nil]

/-- What holds of an empty collection, and of all that the calls make of a collection of which it
holds, holds of every collection after the calls. -/
theorem after_induction {p : Collection → Prop} (empty : p {}) (calls : List Call)
    (step : ∀ c ∈ calls, ∀ before after, c.Makes before after → p before → p after)
    (name : String) : p ((after calls).collection name) := by
  induction calls using List.reverseRecOn generalizing name with
  | nil => exact empty
  | append_singleton calls c ih =>
    have held := ih fun other member => step other (List.mem_append_left _ member)
    have last : c ∈ calls ++ [c] := List.mem_append_right _ (List.mem_singleton_self c)
    rw [after_concat]
    obtain same | ⟨-, ⟨-, erased⟩ | ⟨made, makes, put⟩⟩ := (after calls).perform_effect c
    · simpa only [collection, same] using held name
    · simp only [collection, erased, SortedMap.get?_erase]
      split
      · exact empty
      · exact held name
    · simp only [collection, put, SortedMap.get?_insert]
      split
      · exact step c last _ _ makes (held _)
      · exact held name

end Store

end Stepwise
