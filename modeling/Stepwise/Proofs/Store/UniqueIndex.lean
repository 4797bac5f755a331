import Mathlib.Data.List.Forall2
import Mathlib.Data.List.Nodup
import Stepwise.Proofs.Store.Effect

/-!
# Unique indexes

An index separates documents when no two of them have the same values under it. In every state the
unique indexes of a collection separate its documents (`Collection.Indexed`). Inserting compares the
new document with the old ones only, updating and creating an index compare all with all. As the
invariant holds, all three refuse exactly what would break it, for a duplicate key, and accept
everything else (`Store.unique_indexes`).
-/

namespace Stepwise

namespace Index

/-- Whether two documents have the same values under the index, a missing value counting as null. -/
def SameValues (index : Index) (a b : Document) : Prop :=
  List.Forall₂ (· ≈ ·) (index.values a) (index.values b)

theorem agree_iff {index : Index} {a b : Document} :
    index.agree a b = true ↔ index.SameValues a b := by
  rw [agree, decide_eq_true_eq, ← List.forall₂_eq_eq_eq, List.forall₂_map_left_iff,
    List.forall₂_map_right_iff]
  rfl

instance (index : Index) (a b : Document) : Decidable (index.SameValues a b) :=
  decidable_of_iff _ agree_iff

theorem agree_comm (index : Index) (a b : Document) : index.agree a b = index.agree b a := by
  simp only [agree, eq_comm]

/-- Whether no two of the documents have the same values under the index. -/
def Separates (index : Index) (documents : List Document) : Prop :=
  documents.Pairwise fun a b => ¬ index.SameValues a b

instance (index : Index) (documents : List Document) : Decidable (index.Separates documents) :=
  inferInstanceAs (Decidable (List.Pairwise _ _))

theorem separates_cons {index : Index} {document : Document} {rest : List Document} :
    index.Separates (document :: rest) ↔
      (∀ other ∈ rest, index.agree other document = false) ∧ index.Separates rest := by
  simp only [Separates, List.pairwise_cons, ← agree_iff, Bool.not_eq_true,
    index.agree_comm document]

theorem separates_concat {index : Index} {document : Document} {documents : List Document} :
    index.Separates (documents ++ [document]) ↔
      index.Separates documents ∧ ∀ other ∈ documents, index.agree document other = false := by
  simp only [Separates, List.pairwise_append, List.pairwise_singleton, List.mem_singleton,
    forall_eq, true_and, ← agree_iff, Bool.not_eq_true, index.agree_comm document]

/-- No document is repeated when the index separates the documents from each other and from those
already seen. -/
theorem firstRepeat?_eq_none {index : Index} {seen documents : List Document} :
    index.firstRepeat? seen documents = none ↔
      index.Separates documents ∧
        ∀ document ∈ documents, ∀ earlier ∈ seen, index.agree document earlier = false := by
  induction documents generalizing seen with
  | nil => simp [firstRepeat?, Separates]
  | cons document rest ih =>
    rw [firstRepeat?, separates_cons, List.forall_mem_cons]
    split
    · next repeated =>
      obtain ⟨earlier, member, same⟩ := List.any_eq_true.mp repeated
      constructor
      · intro absent
        contradiction
      · rintro ⟨-, differs, -⟩
        rw [differs earlier member] at same
        contradiction
    · next fresh =>
      have differs : ∀ earlier ∈ seen, index.agree document earlier = false := by
        simpa using fresh
      simp only [ih, List.forall_mem_cons]
      constructor
      · rintro ⟨separate, others⟩
        exact ⟨⟨fun other member => (others other member).1, separate⟩, differs,
          fun other member => (others other member).2⟩
      · rintro ⟨⟨apart, separate⟩, -, others⟩
        exact ⟨separate, fun other member => ⟨apart other member, others other member⟩⟩

end Index

/-- Whether two documents have equal identifying values. -/
def Fields.SameId (a b : Document) : Prop :=
  ∃ i ∈ a.id?, ∃ j ∈ b.id?, i ≈ j

instance (a b : Document) : Decidable (a.SameId b) :=
  inferInstanceAs (Decidable (∃ i ∈ a.id?, ∃ j ∈ b.id?, i ≈ j))

namespace Collection

/-- Whether the unique indexes of the collection separate its documents. -/
def Unique (c : Collection) : Prop :=
  ∀ index ∈ c.indexes, index.unique = true → index.Separates c.documents

instance (c : Collection) : Decidable c.Unique :=
  inferInstanceAs (Decidable (∀ index ∈ c.indexes, _))

/-- What holds of the indexes of every collection. -/
structure Indexed (c : Collection) : Prop where
  nodup_names : (c.indexes.map (·.name)).Nodup
  keyed : ∀ index ∈ c.indexes, index.keys ≠ []
  unique : c.Unique

theorem hasId_iff {c : Collection} {document : Document} {id : Value}
    (identified : document.id? = some id) :
    c.hasId id = true ↔ ∃ other ∈ c.documents, other.SameId document := by
  simp only [hasId, List.any_eq_true, Fields.SameId, identified]
  refine exists_congr fun other => and_congr_right fun _ => ?_
  cases other.id? <;> simp

theorem firstClash?_eq_none {indexes : List Index} {documents : List Document} :
    firstClash? indexes documents = none ↔
      ∀ index ∈ indexes, index.unique = true → index.Separates documents := by
  simp only [firstClash?, List.findSome?_eq_none_iff]
  refine forall₂_congr fun index _ => ?_
  split
  · next unique => simp [unique, Index.firstRepeat?_eq_none]
  · next free => simp [free]

/-- Where the unique indexes separate the documents, comparing a new document with these is enough
to know whether they separate it as well. -/
theorem violated?_eq_none {c : Collection} (unique : c.Unique) {document : Document} :
    c.violated? document = none ↔ Unique { c with documents := c.documents ++ [document] } := by
  simp only [violated?, List.find?_eq_none, Unique, Index.separates_concat]
  refine forall₂_congr fun index member => ?_
  simp only [Bool.and_eq_true, List.any_eq_true, not_and, not_exists, Bool.not_eq_true]
  refine forall_congr' fun enforced => ?_
  simp only [unique index member enforced, true_and]

private theorem index?_eq_none {c : Collection} {name : String} :
    c.index? name = none ↔ ∀ index ∈ c.indexes, index.name ≠ name := by
  simp [index?]

namespace Indexed

theorem empty : Indexed {} where
  nodup_names := List.nodup_nil
  keyed := nofun
  unique := nofun

/-- Fewer documents are still separated. -/
theorem of_sublist {c : Collection} (indexed : c.Indexed) {documents : List Document}
    (fewer : documents.Sublist c.documents) : Indexed { c with documents } where
  nodup_names := indexed.nodup_names
  keyed := indexed.keyed
  unique := fun index member enforced => (indexed.unique index member enforced).sublist fewer

/-- Whatever a call makes of a collection, its unique indexes separate its documents. -/
theorem of_makes {c : Call} {before after : Collection} (makes : c.Makes before after)
    (indexed : before.Indexed) : after.Indexed := by
  cases makes with
  | same => exact indexed
  | inserted origin identified free allowed =>
    exact ⟨indexed.nodup_names, indexed.keyed, (violated?_eq_none indexed.unique).mp allowed⟩
  | updated sound clear =>
    exact ⟨indexed.nodup_names, indexed.keyed, firstClash?_eq_none.mp clear⟩
  | deleted name filter => exact indexed.of_sublist List.filter_sublist
  | deletedFirst found => exact indexed.of_sublist (withoutFirst?_sublist found)
  | @indexed name index _ keyed fresh clear =>
    rw [firstClash?_eq_none, List.forall_mem_singleton] at clear
    refine ⟨?_, ?_, ?_⟩
    · have absent : index.name ∉ before.indexes.map (·.name) := by
        rw [List.mem_map]
        rintro ⟨other, member, same⟩
        exact index?_eq_none.mp fresh other member same
      rw [List.map_append, List.map_singleton, ← List.concat_eq_append]
      exact indexed.nodup_names.concat absent
    · rw [List.forall_mem_append, List.forall_mem_singleton]
      refine ⟨indexed.keyed, fun none => ?_⟩
      rw [none] at keyed
      contradiction
    · rw [Unique, List.forall_mem_append, List.forall_mem_singleton]
      exact ⟨indexed.unique, clear⟩
  | unindexed left =>
    have fewer := withoutIndex?_sublist left
    exact ⟨indexed.nodup_names.sublist (fewer.map _),
      fun index member => indexed.keyed index (fewer.subset member),
      fun index member => indexed.unique index (fewer.subset member)⟩

end Indexed

end Collection

namespace Store

/-- The unique indexes separate the documents of every collection, in every state. -/
theorem indexed_after (calls : List Call) (name : String) :
    ((after calls).collection name).Indexed :=
  after_induction .empty calls (fun _ _ _ _ makes => .of_makes makes) name

/-- The document that inserting a document stores: the document itself, or with an identifying value
given to it. -/
def stored (s : Store) (document : Document) : Document :=
  match document.id? with
  | some _ => document
  | none => document.insert "_id" (generatedId s.issued)

private theorem insert_stored (s : Store) (name : String) (document : Document) :
    ∃ id, (s.stored document).id? = some id ∧
      (s.insert name document).1 = (s.counted.add name id (s.stored document)).1 := by
  cases identified : document.id? with
  | some id =>
    have same : s.stored document = document := by rw [stored, identified]
    rw [same, insert_of_id? identified]
    exact ⟨id, identified, rfl⟩
  | none =>
    have given : s.stored document = document.insert "_id" (generatedId s.issued) := by
      rw [stored, identified]
    rw [given, insert, identified]
    refine ⟨generatedId s.issued, ?_, ?_⟩
    · simp only [Fields.id?, Fields.get?_insert, ↓reduceIte]
    · dsimp only
      split
      · next added => exact (congrArg Prod.fst added).symm
      · rfl

/-- Whether a call on a collection is refused for a duplicate key when something would break, and
gives the answer otherwise. -/
structure RefusedExactly {α : Type} (name : String) (result : Except StoreError α) (answer : α)
    (breaks : Prop) : Prop where
  refused_iff : (∃ key, result = .error (.duplicateKey name key)) ↔ breaks
  ok_iff : result = .ok answer ↔ ¬ breaks

namespace RefusedExactly

variable {α : Type} {name : String} {answer : α} {breaks : Prop}

private theorem of_refused (broken : breaks) (key : String) :
    RefusedExactly name (.error (.duplicateKey name key)) answer breaks where
  refused_iff := iff_of_true ⟨key, rfl⟩ broken
  ok_iff := iff_of_false nofun (not_not_intro broken)

private theorem of_ok (sound : ¬ breaks) : RefusedExactly name (.ok answer) answer breaks where
  refused_iff := iff_of_false nofun sound
  ok_iff := iff_of_true rfl sound

end RefusedExactly

/-- Adding is refused when the identifying value is taken or a unique index would break. -/
theorem refused_add {s : Store} {name : String} (unique : (s.collection name).Unique)
    {document : Document} {id : Value} (identified : document.id? = some id) :
    RefusedExactly name (s.add name id document).1 ()
      ((∃ other ∈ (s.collection name).documents, other.SameId document) ∨
        ¬ Collection.Unique { s.collection name with
          documents := (s.collection name).documents ++ [document] }) := by
  rw [← Collection.hasId_iff identified, ← Collection.violated?_eq_none unique]
  obtain ⟨broken, key, refused⟩ | ⟨free, allowed, added⟩ := s.add_cases name id document
  · rw [refused]
    exact .of_refused broken key
  · rw [added]
    refine .of_ok ?_
    rintro (taken | violated)
    · rw [free] at taken
      contradiction
    · contradiction

/-- Inserting is refused exactly when the identifying value is taken or a unique index would break
by the new document. -/
theorem refused_insert {s : Store} {name : String} (unique : (s.collection name).Unique)
    (document : Document) :
    RefusedExactly name (s.insert name document).1 ()
      ((∃ other ∈ (s.collection name).documents, other.SameId (s.stored document)) ∨
        ¬ Collection.Unique { s.collection name with
          documents := (s.collection name).documents ++ [s.stored document] }) := by
  obtain ⟨id, identified, added⟩ := s.insert_stored name document
  rw [added]
  exact refused_add (s := s.counted) unique identified

/-- Updating is refused exactly when a unique index would break by the outcome. -/
theorem refused_update (s : Store) (name : String) (filter : Filter) {change : Update}
    (sound : change.touchesId = false) :
    RefusedExactly name (s.update name filter change).1 ((s.collection name).count filter)
      (¬ Collection.Unique { s.collection name with
        documents := (s.collection name).updated filter change }) := by
  rw [Collection.Unique, ← Collection.firstClash?_eq_none]
  obtain ⟨refused, -⟩ | ⟨-, missing⟩ | ⟨c, present, clash, key, refused⟩ | ⟨c, -, present, clear⟩ :=
    s.update_cases name filter change
  · rw [sound] at refused
    contradiction
  · have empty : s.collection name = {} := by rw [collection, missing, Option.getD_none]
    rw [update_of_missing sound missing, empty]
    exact .of_ok (not_not_intro rfl)
  · rw [refused, collection_eq_of_get? present]
    exact .of_refused clash key
  · rw [update_of_clear sound present clear, collection_eq_of_get? present]
    exact .of_ok (not_not_intro clear)

/-- Creating a new unique index is refused exactly when it does not separate the documents. -/
theorem refused_createIndex (s : Store) (name : String) {index : Index}
    (unique : index.unique = true) (keyed : index.keys ≠ [])
    (fresh : ∀ other ∈ (s.collection name).indexes, other.name ≠ index.name) :
    RefusedExactly name (s.createIndex name index).1 ()
      (¬ index.Separates (s.collection name).documents) := by
  have clear : Collection.firstClash? [index] (s.collection name).documents = none ↔
      index.Separates (s.collection name).documents := by
    rw [Collection.firstClash?_eq_none, List.forall_mem_singleton]
    exact forall_prop_of_true unique
  rw [← clear, createIndex_eq, if_neg (by simpa using keyed), Collection.index?_eq_none.mpr fresh]
  dsimp only
  split
  · next clash =>
    refine .of_refused ?_ _
    rw [clash]
    exact Option.some_ne_none _
  · next none => exact .of_ok (not_not_intro none)

/-- In every state, the indexes of a collection have different names and at least one key each, and
the unique ones separate its documents. Inserting, updating and creating a unique index are refused
for a duplicate key exactly when that, or the identifying values, would break, whatever the states
in between. -/
theorem unique_indexes (calls : List Call) (name : String) :
    let s := after calls
    let c := s.collection name
    c.Indexed ∧
    (∀ document, RefusedExactly name (s.insert name document).1 ()
      ((∃ other ∈ c.documents, other.SameId (s.stored document)) ∨
        ¬ Collection.Unique { c with documents := c.documents ++ [s.stored document] })) ∧
    (∀ filter change, change.touchesId = false →
      RefusedExactly name (s.update name filter change).1 (c.count filter)
        (¬ Collection.Unique { c with documents := c.updated filter change })) ∧
    (∀ index, index.unique = true → index.keys ≠ [] →
      (∀ other ∈ c.indexes, other.name ≠ index.name) →
      RefusedExactly name (s.createIndex name index).1 () (¬ index.Separates c.documents)) := by
  intro s c
  have indexed : c.Indexed := indexed_after calls name
  exact ⟨indexed, refused_insert indexed.unique, fun filter _ => s.refused_update name filter,
    fun _ => s.refused_createIndex name⟩

/-- A document without a number counts as one whose number is null, also after an update that takes
numbers away, and in a second index. -/
theorem unique_indexes_numbers :
    let number : Index := { name := "number", keys := [{ field := "n.v" }], unique := true }
    let calls := [Call.insert "c" [("_id", .str "a"), ("n", .obj [("v", .num (.int 1))])],
      .insert "c" [("_id", .str "b"), ("n", .num (.int 1))], .createIndex "c" number]
    let s := after calls
    (s.collection "c").Indexed ∧ (s.collection "c").indexes = [number] ∧
      (∃ key, (s.insert "c" [("_id", .str "d")]).1 = .error (.duplicateKey "c" key)) ∧
      (s.insert "c" [("n", .obj [("v", .num (.int 2))])]).1 = .ok () ∧
      (∃ key, (s.update "c" [("_id", .str "a")] ⟨[], ["n"]⟩).1 = .error (.duplicateKey "c" key)) ∧
      (s.update "c" [("_id", .str "b")] ⟨[("n.v", .num (.int 3))], []⟩).1 = .ok 1 ∧
      ∃ key, (s.createIndex "c" { number with name := "other", keys := [{ field := "m" }] }).1 =
        .error (.duplicateKey "c" key) := by
  intro number calls s
  obtain ⟨indexed, inserts, updates, creates⟩ := unique_indexes calls "c"
  refine ⟨indexed, by decide, (inserts _).refused_iff.mpr ?_, (inserts _).ok_iff.mpr ?_,
    (updates _ _ rfl).refused_iff.mpr ?_, (updates _ _ rfl).ok_iff.mpr ?_,
    (creates _ rfl (by decide) ?_).refused_iff.mpr ?_⟩ <;> decide

end Store

end Stepwise
