import Stepwise.Proofs.Operation.Parts

/-!
# The written form of an operation

Which values an operation is read from is said by the places that it fills (`Operation.WrittenAs`):
an object has them by name, in any order and beside others, an array in their order, and what is
usual may be left out. The written form of an operation is one of them, and reading is exact
(`Operation.format`).
-/

namespace Stepwise

open Data (ofValue ofFields ofItems)

namespace Operation

def tag : Operation → String
  | .createCollection _ => "create_collection"
  | .dropCollection _ => "drop_collection"
  | .createIndex _ _ => "create_index"
  | .dropIndex _ _ => "drop_index"
  | .insertDocuments _ _ => "insert_documents"
  | .updateDocuments _ _ _ => "update_documents"
  | .deleteDocuments _ _ => "delete_documents"

def places : Operation → List String
  | .createCollection _ | .dropCollection _ => ["collection"]
  | .createIndex _ _ => "collection" :: Index.places
  | .dropIndex _ _ => ["collection", "name"]
  | .insertDocuments _ _ => ["collection", "documents"]
  | .updateDocuments _ _ _ => "collection" :: "filter" :: Update.places
  | .deleteDocuments _ _ => ["collection", "filter"]

/-- Whether an operation has the places of one of its parts among its own. -/
def isShared : Operation → Bool
  | .createIndex _ _ | .updateDocuments _ _ _ => true
  | _ => false

/-- Whether places hold what an operation says about its collection. -/
def Says (place : String → Option Value) : Operation → Prop
  | .createCollection _ | .dropCollection _ => True
  | .createIndex _ index => index.FilledFrom place
  | .dropIndex _ name => place "name" = some (.str name)
  | .insertDocuments _ documents => place "documents" = some (.arr (documents.map .obj))
  | .updateDocuments _ filter update =>
    OrUsual (fun v filter => v = .obj filter) [] (place "filter") filter ∧ update.FilledFrom place
  | .deleteDocuments _ filter =>
    OrUsual (fun v filter => v = .obj filter) [] (place "filter") filter

/-- Whether places hold an operation. -/
@[mk_iff]
structure FilledFrom (place : String → Option Value) (op : Operation) : Prop where
  collection : place "collection" = some (.str op.collection)
  rest : op.Says place

/-- The written forms of an operation: its kind and its places by name, or, unless it shares its
places, in their order. -/
inductive WrittenAs (op : Operation) : Value → Prop
  | named {fields : Fields} : fields.get? "op" = some (.str op.tag) → op.FilledFrom fields.get? →
      WrittenAs op (.obj fields)
  | listed {items : List Value} : op.isShared = false → items.length ≤ op.places.length →
      op.FilledFrom (NamedList.get? (op.places.zip items)) →
      WrittenAs op (.arr (.str op.tag :: items))

end Operation

/-! ### Reading the tag -/

namespace Tagged

variable {name : String} {fields : Fields} {tagged : Tagged} {v : Value}

private theorem split?_ofFields (apart : (fields.map (·.1)).Nodup) :
    split? name (ofFields fields) =
      (fields.get? name).map fun v => (ofValue v, ofFields (NamedList.without name fields)) := by
  induction fields with
  | nil => rfl
  | cons field rest ih =>
    obtain ⟨fresh, apart⟩ := List.nodup_cons.mp apart
    rw [ofFields, split?, Fields.get?, NamedList.get?]
    have first : (Data.str field.1).text? = some name ↔ field.1 = name := by simp [Data.text?]
    by_cases same : field.1 = name
    · -- The tag stands here, and no later field has its name.
      have fresh : name ∉ rest.map (·.1) := same ▸ fresh
      have single : (ofFields rest).any (·.1.text? = some name) = false := by
        rw [Data.ofFields_eq, List.any_map, List.any_eq_false]
        intro other member
        simp only [Function.comp, Data.text?, Option.some.injEq, decide_eq_true_eq]
        rintro rfl
        exact fresh (List.mem_map_of_mem member)
      have others : NamedList.without name (field :: rest) = rest := by
        rw [NamedList.without, List.filter_cons_of_neg (by simp [same])]
        exact NamedList.without_of_not_mem fresh
      rw [if_pos (first.mpr same), single, if_neg Bool.false_ne_true, if_pos same,
        Option.map_some, others]
    · have others : NamedList.without name (field :: rest) =
          field :: NamedList.without name rest :=
        List.filter_cons_of_pos (by simpa using same)
      rw [if_neg (mt first.mp same), if_neg same, ih apart, Option.map_map, others]
      rfl

/-- A tagged record is read from an object with the tag as a field, or from an array that begins
with it. -/
theorem ofData?_ofValue (sound : v.WellFormed) :
    Tagged.ofData? name (ofValue v) = some tagged ↔
      (∃ fields : Fields, v = .obj fields ∧ fields.get? name = some (.str tagged.tag) ∧
        tagged.record = .named (ofFields (NamedList.without name fields))) ∨
      ∃ items, v = .arr (.str tagged.tag :: items) ∧ tagged.record = .listed (ofItems items) := by
  obtain ⟨tag, record⟩ := tagged
  unfold Tagged.ofData?
  rw [if_pos (Data.isReadable_ofValue v)]
  cases v with
  | obj fields =>
    simp only [ofValue, split?_ofFields sound.1, Option.bind_eq_bind, Option.pure_def,
      Option.bind_eq_some_iff, Option.map_eq_some_iff, Option.some.injEq, Tagged.mk.injEq,
      Value.obj.injEq, reduceCtorEq, false_and, exists_false, or_false]
    constructor
    · rintro ⟨_, ⟨v, found, rfl⟩, _, text, rfl, rfl⟩
      rw [Data.text?_ofValue.mp text] at found
      exact ⟨fields, rfl, found, rfl⟩
    · rintro ⟨_, rfl, found, rfl⟩
      exact ⟨_, ⟨_, found, rfl⟩, tag, rfl, rfl, rfl⟩
  | arr items =>
    cases items with
    | nil => simp [ofValue, ofItems]
    | cons first items =>
      simp only [ofValue, ofItems, Option.bind_eq_bind, Option.pure_def,
        Option.bind_eq_some_iff, Option.some.injEq, Tagged.mk.injEq, Data.text?_ofValue]
      constructor
      · rintro ⟨_, rfl, rfl, rfl⟩
        exact .inr ⟨items, rfl, rfl⟩
      · rintro (⟨_, different, -⟩ | ⟨_, same, rfl⟩)
        · cases different
        · cases same
          exact ⟨tag, rfl, rfl, rfl⟩
  | num n => cases n <;> simp [ofValue]
  | _ => simp [ofValue]

end Tagged

namespace Operation

variable {op : Operation} {filled : Record.Filled} {place : String → Option Value}
  {tagged : Tagged}

/-- What fills the places of a record by which an operation is written. -/
def read? (op : Operation) (record : Record) : Option Record.Filled :=
  if op.isShared then record.readShared? op.places else record.read? op.places

/-- Whether filled places are read as an operation. -/
def IsReadFrom (filled : Record.Filled) : Operation → Prop
  | .createCollection name | .dropCollection name =>
    filled.need? "collection" Data.text? = some name
  | .createIndex name index =>
    filled.need? "collection" Data.text? = some name ∧ Index.ofFilled? true filled = some index
  | .dropIndex name index =>
    filled.need? "collection" Data.text? = some name ∧
      filled.need? "name" Data.text? = some index
  | .insertDocuments name documents =>
    filled.need? "collection" Data.text? = some name ∧
      filled.need? "documents" (Data.list? Data.document?) = some documents
  | .updateDocuments name filter update =>
    filled.need? "collection" Data.text? = some name ∧
      filled.orElse? "filter" Data.document? [] = some filter ∧
        Update.ofFilled? filled = some update
  | .deleteDocuments name filter =>
    filled.need? "collection" Data.text? = some name ∧
      filled.orElse? "filter" Data.document? [] = some filter

private theorem ofTagged?_eq_some_iff :
    ofTagged? tagged = some op ↔
      tagged.tag = op.tag ∧ ∃ filled, op.read? tagged.record = some filled ∧
        op.IsReadFrom filled := by
  constructor
  · intro read
    unfold ofTagged? at read
    split at read <;>
      simp only [Option.bind_eq_bind, Option.bind_eq_some_iff, Option.pure_def,
        Option.some.injEq, reduceCtorEq] at read
    · next kind =>
      obtain ⟨filled, record, name, collection, rfl⟩ := read
      exact ⟨kind, filled, record, collection⟩
    · next kind =>
      obtain ⟨filled, record, name, collection, rfl⟩ := read
      exact ⟨kind, filled, record, collection⟩
    · next kind =>
      obtain ⟨filled, record, name, collection, index, rest, rfl⟩ := read
      exact ⟨kind, filled, record, collection, rest⟩
    · next kind =>
      obtain ⟨filled, record, name, collection, index, rest, rfl⟩ := read
      exact ⟨kind, filled, record, collection, rest⟩
    · next kind =>
      obtain ⟨filled, record, name, collection, documents, rest, rfl⟩ := read
      exact ⟨kind, filled, record, collection, rest⟩
    · next kind =>
      obtain ⟨filled, record, name, collection, filter, passing, update, rest, rfl⟩ := read
      exact ⟨kind, filled, record, collection, passing, rest⟩
    · next kind =>
      obtain ⟨filled, record, name, collection, filter, rest, rfl⟩ := read
      exact ⟨kind, filled, record, collection, rest⟩
  · obtain ⟨kind, record⟩ := tagged
    rintro ⟨rfl, filled, known, held⟩
    cases op <;>
      simp only [ofTagged?, tag, Option.bind_eq_bind, Option.bind_eq_some_iff, Option.pure_def,
        Option.some.injEq]
    case createCollection => exact ⟨filled, known, _, held, rfl⟩
    case dropCollection => exact ⟨filled, known, _, held, rfl⟩
    case createIndex => exact ⟨filled, known, _, held.1, _, held.2, rfl⟩
    case dropIndex => exact ⟨filled, known, _, held.1, _, held.2, rfl⟩
    case insertDocuments => exact ⟨filled, known, _, held.1, _, held.2, rfl⟩
    case updateDocuments => exact ⟨filled, known, _, held.1, _, held.2.1, _, held.2.2, rfl⟩
    case deleteDocuments => exact ⟨filled, known, _, held.1, _, held.2, rfl⟩

private theorem isReadFrom_iff (shows : filled.Shows op.places place)
    (sound : WellFormedPlaces place) : op.IsReadFrom filled ↔ op.FilledFrom place := by
  have collection : filled.need? "collection" Data.text? = some op.collection ↔
      place "collection" = some (.str op.collection) :=
    shows.need?_text_iff (by cases op <;> simp [places])
  rw [filledFrom_iff, ← collection]
  cases op with
  | createCollection name => exact (and_true _).symm.to_iff
  | dropCollection name => exact (and_true _).symm.to_iff
  | createIndex name index =>
    exact and_congr_right' (Index.ofFilled?_eq_some_iff shows (by simp [places]) sound)
  | dropIndex name index =>
    exact and_congr_right' (shows.need?_text_iff (by simp [places]))
  | insertDocuments name documents =>
    refine and_congr_right' ?_
    rw [shows.need?_list_iff (by simp [places]) sound fun _ fine _ => Data.document?_ofValue fine]
    simp only [List.forall₂_eq_map_iff, exists_eq_right]
    rfl
  | updateDocuments name filter update =>
    exact and_congr_right' (and_congr (shows.orElse?_document_iff (by simp [places]) sound)
      (Update.ofFilled?_eq_some_iff shows (by simp [places]) sound))
  | deleteDocuments name filter =>
    exact and_congr_right' (shows.orElse?_document_iff (by simp [places]) sound)

/-- What an object has beside its tag fills the places of an operation. -/
theorem exists_read?_named (op : Operation) {fields : Fields}
    (sound : (Value.obj fields).WellFormed) :
    ∃ filled, op.read? (.named (ofFields (NamedList.without "op" fields))) = some filled ∧
      filled.Shows op.places fields.get? := by
  have apart : ((NamedList.without "op" fields).map (·.1)).Nodup :=
    sound.1.sublist (List.filter_sublist.map _)
  obtain ⟨filled, read, shared, shows⟩ := Record.exists_read_named op.places apart
  refine ⟨filled, ?_, fun name member => ?_⟩
  · rw [read?]
    split
    · exact shared
    · exact read
  · have different : "op" ≠ name := by
      rintro rfl
      cases op <;> simp [places, Index.places, Update.places] at member
    rw [shows name member, Fields.get?, NamedList.get?_without, if_neg different]
    rfl

private theorem read?_listed_iff {items : List Value} :
    op.read? (.listed (ofItems items)) = some filled ↔
      op.isShared = false ∧ items.length ≤ op.places.length ∧
        filled = op.places.zip (ofItems items) := by
  rw [read?]
  split
  · next shared => simp [shared, Record.readShared?]
  · next apart => simp [apart, Record.read_listed_eq_some_iff]

/-- Reading is exact: an operation is read from its written forms and from nothing else. -/
theorem ofValue?_eq_some_iff {v : Value} (sound : v.WellFormed) :
    ofValue? v = some op ↔ op.WrittenAs v := by
  rw [ofValue?, ofData?, Option.bind_eq_some_iff]
  simp only [Tagged.ofData?_ofValue sound, ofTagged?_eq_some_iff]
  constructor
  · -- The record is an object without the tag, or an array behind it.
    rintro ⟨⟨tag, record⟩, ⟨fields, rfl, found, rfl⟩ | ⟨items, rfl, rfl⟩, rfl, filled, read, held⟩
    · obtain ⟨_, same, shows⟩ := exists_read?_named op sound
      cases read.symm.trans same
      exact .named found ((isReadFrom_iff shows (wellFormedPlaces_get? sound.2)).mp held)
    · obtain ⟨apart, fits, rfl⟩ := read?_listed_iff.mp read
      have shows := Record.shows_zip op.places items
      have fine := wellFormedPlaces_zip sound.2 op.places
      exact .listed apart fits ((isReadFrom_iff shows fine).mp held)
  · intro written
    cases written with
    | named found held =>
      obtain ⟨filled, read, shows⟩ := exists_read?_named op sound
      exact ⟨⟨op.tag, _⟩, .inl ⟨_, rfl, found, rfl⟩, rfl, filled, read,
        (isReadFrom_iff shows (wellFormedPlaces_get? sound.2)).mpr held⟩
    | @listed items apart fits held =>
      have shows := Record.shows_zip op.places items
      have fine := wellFormedPlaces_zip sound.2 op.places
      exact ⟨⟨op.tag, _⟩, .inr ⟨_, rfl, rfl⟩, rfl, _, read?_listed_iff.mpr ⟨apart, fits, rfl⟩,
        (isReadFrom_iff shows fine).mpr held⟩

/-! ### Writing -/

/-- Whether no document in an operation repeats a field name. -/
def WellFormed : Operation → Prop
  | .insertDocuments _ documents => ∀ document ∈ documents, (Value.obj document).WellFormed
  | .updateDocuments _ filter update =>
    (Value.obj filter).WellFormed ∧ (Value.obj update.set).WellFormed
  | .deleteDocuments _ filter => (Value.obj filter).WellFormed
  | _ => True

/-- The names that the written form of an operation has: its tag and its places, but for assignments
and removals when there are none. -/
def writtenNames : Operation → List String
  | .updateDocuments _ _ update =>
    ["op", "collection", "filter"] ++ (if update.set = [] then [] else ["set"]) ++
      (if update.unset = [] then [] else ["unset"])
  | op => "op" :: op.places

private theorem writtenAs_toValue (op : Operation) : op.WrittenAs op.toValue := by
  cases op with
  | createCollection name => exact .named rfl ⟨rfl, trivial⟩
  | dropCollection name => exact .named rfl ⟨rfl, trivial⟩
  | createIndex name index =>
    have keys : List.Forall₂ (fun item key => IndexKey.WrittenAs key item)
        (index.keys.map IndexKey.toValue) index.keys :=
      List.forall₂_map_left_iff.mpr (List.forall₂_same.mpr fun key _ => key.writtenAs_toValue)
    exact .named rfl ⟨rfl, rfl, ⟨_, rfl, keys⟩, .inr ⟨_, rfl, rfl⟩⟩
  | dropIndex name index => exact .named rfl ⟨rfl, rfl⟩
  | insertDocuments name documents => exact .named rfl ⟨rfl, rfl⟩
  | updateDocuments name filter update =>
    obtain ⟨set, unset⟩ := update.filledFrom_toFields
    exact .named rfl ⟨rfl, .inr ⟨_, rfl, rfl⟩, set, unset⟩
  | deleteDocuments name filter => exact .named rfl ⟨rfl, .inr ⟨_, rfl, rfl⟩⟩

private theorem map_fst_toValue (op : Operation) :
    ∃ fields, op.toValue = .obj fields ∧ fields.map (·.1) = op.writtenNames := by
  cases op with
  | updateDocuments name filter update =>
    refine ⟨_, rfl, ?_⟩
    obtain ⟨set, unset⟩ := update
    cases set <;> cases unset <;> rfl
  | _ => exact ⟨_, rfl, rfl⟩

private theorem nodup_writtenNames (op : Operation) : op.writtenNames.Nodup := by
  have whole : (["op", "collection", "filter"] ++ ["set"] ++ ["unset"]).Nodup := by decide
  cases op with
  | updateDocuments name filter update =>
    refine whole.sublist (((List.Sublist.refl _).append ?_).append ?_)
    · split
      · exact List.nil_sublist _
      · exact List.Sublist.refl _
    · split
      · exact List.nil_sublist _
      · exact List.Sublist.refl _
  | _ => simp [writtenNames, places, Index.places]

private theorem WellFormed.toValue {op : Operation} (sound : op.WellFormed) :
    op.toValue.WellFormed := by
  obtain ⟨fields, written, names⟩ := op.map_fst_toValue
  have apart : (fields.map (·.1)).Nodup := names ▸ op.nodup_writtenNames
  rw [written]
  refine ⟨apart, ?_⟩
  cases op with
  | createCollection name =>
    cases written
    exact ⟨trivial, trivial, trivial⟩
  | dropCollection name =>
    cases written
    exact ⟨trivial, trivial, trivial⟩
  | createIndex name index =>
    cases written
    have keys : Value.WellFormedItems (index.keys.map IndexKey.toValue) :=
      Value.wellFormedItems_iff.mpr (List.forall_mem_map.mpr fun key _ => key.wellFormed_toValue)
    exact ⟨trivial, trivial, trivial, keys, trivial, trivial⟩
  | dropIndex name index =>
    cases written
    exact ⟨trivial, trivial, trivial, trivial⟩
  | insertDocuments name documents =>
    cases written
    have items : Value.WellFormedItems (documents.map .obj) :=
      Value.wellFormedItems_iff.mpr (List.forall_mem_map.mpr sound)
    exact ⟨trivial, trivial, items, trivial⟩
  | updateDocuments name filter update =>
    cases written
    exact ⟨trivial, trivial, sound.1, update.wellFormedFields_toFields sound.2⟩
  | deleteDocuments name filter =>
    cases written
    exact ⟨trivial, trivial, sound, trivial⟩

private theorem FilledFrom.wellFormed (held : op.FilledFrom place)
    (sound : WellFormedPlaces place) : op.WellFormed := by
  have document {name : String} {fields : Document}
      (held : OrUsual (fun v fields => v = .obj fields) [] (place name) fields) :
      (Value.obj fields).WellFormed := by
    rcases held with ⟨-, rfl⟩ | ⟨_, found, rfl⟩
    · exact ⟨List.nodup_nil, trivial⟩
    · exact sound _ _ found
  obtain ⟨-, rest⟩ := held
  cases op with
  | insertDocuments name documents =>
    exact List.forall_mem_map.mp (Value.wellFormedItems_iff.mp (sound _ _ rest))
  | updateDocuments name filter update => exact ⟨document rest.1, document rest.2.set⟩
  | deleteDocuments name filter => exact document rest
  | _ => trivial

private theorem WrittenAs.wellFormed {v : Value} (written : op.WrittenAs v) (sound : v.WellFormed) :
    op.WellFormed := by
  cases written with
  | named _ held => exact held.wellFormed (wellFormedPlaces_get? sound.2)
  | listed _ _ held => exact held.wellFormed (wellFormedPlaces_zip sound.2 _)

/-- An operation is read back from its written form, which is an object with the tag and the places
of the operation, but for assignments and removals when there are none. It is read from its written
forms and from nothing else, and writing what is read keeps it. -/
theorem format :
    (∀ op : Operation, op.WellFormed → op.toValue.WellFormed ∧ ofValue? op.toValue = some op) ∧
    (∀ op : Operation, op.WrittenAs op.toValue ∧
      ∃ fields, op.toValue = .obj fields ∧ fields.map (·.1) = op.writtenNames) ∧
    ∀ v : Value, v.WellFormed → ∀ op,
      (ofValue? v = some op ↔ op.WrittenAs v) ∧
      (ofValue? v = some op → op.WellFormed ∧ ofValue? op.toValue = some op) := by
  have readBack (op : Operation) (sound : op.WellFormed) : ofValue? op.toValue = some op :=
    (ofValue?_eq_some_iff sound.toValue).mpr op.writtenAs_toValue
  refine ⟨fun op sound => ⟨sound.toValue, readBack op sound⟩, fun op => ?_, fun v sound op => ?_⟩
  · exact ⟨op.writtenAs_toValue, op.map_fst_toValue⟩
  · refine ⟨ofValue?_eq_some_iff sound, fun read => ?_⟩
    have fine := ((ofValue?_eq_some_iff sound).mp read).wellFormed sound
    exact ⟨fine, readBack op fine⟩

/-- An update with a nested filter, read from its written form and from its places in another order;
an index, also read where its keys are written in other ways and what is usual is left out. -/
theorem format_shuffled :
    let filter : Filter := [("city", .str "Oslo"), ("tags", .arr [.obj [("kind", .null)]])]
    let update := updateDocuments "contacts" filter { unset := ["legacyScore"] }
    let shuffled : Value := .obj [("unset", .arr [.str "legacyScore"]), ("filter", .obj filter),
      ("comment", .obj []), ("collection", .str "contacts"), ("op", .str "update_documents")]
    let index := createIndex "contacts"
      { name := "by_type", keys := [⟨"workspace", .ascending⟩, ⟨"type", .descending⟩] }
    let brief : Value := .obj [("op", .str "create_index"), ("collection", .str "contacts"),
      ("name", .str "by_type"), ("keys", .arr [.arr [.str "workspace"],
        .obj [("order", .obj [("desc", .null)]), ("field", .str "type")]])]
    update.writtenNames = ["op", "collection", "filter", "unset"] ∧
    ofValue? update.toValue = some update ∧ ofValue? shuffled = some update ∧
    ofValue? index.toValue = some index ∧ ofValue? brief = some index := by
  intro filter update shuffled index brief
  have filterSound : (Value.obj filter).WellFormed :=
    ⟨by decide, trivial, ⟨⟨by decide, trivial, trivial⟩, trivial⟩, trivial⟩
  have updateSound : update.WellFormed := ⟨filterSound, by decide, trivial⟩
  have shuffledSound : shuffled.WellFormed :=
    ⟨by decide, ⟨trivial, trivial⟩, filterSound, ⟨by decide, trivial⟩, trivial, trivial, trivial⟩
  have shuffledWritten : update.WrittenAs shuffled :=
    .named rfl ⟨rfl, .inr ⟨_, rfl, rfl⟩, .inl ⟨rfl, rfl⟩, .inr ⟨_, rfl, rfl⟩⟩
  have indexSound : index.WellFormed := trivial
  have first : IndexKey.WrittenAs ⟨"workspace", .ascending⟩ (.arr [.str "workspace"]) :=
    .listed (by decide) ⟨rfl, .inl ⟨rfl, rfl⟩⟩
  have second : IndexKey.WrittenAs ⟨"type", .descending⟩
      (.obj [("order", .obj [("desc", .null)]), ("field", .str "type")]) :=
    .named ⟨rfl, .inr ⟨_, rfl, .null⟩⟩
  have secondSound :
      (Value.obj [("order", .obj [("desc", .null)]), ("field", .str "type")]).WellFormed :=
    ⟨by decide, ⟨by decide, trivial, trivial⟩, trivial, trivial⟩
  have briefSound : brief.WellFormed :=
    ⟨by decide, trivial, trivial, trivial, ⟨⟨trivial, trivial⟩, secondSound, trivial⟩, trivial⟩
  have briefWritten : index.WrittenAs brief :=
    .named rfl ⟨rfl, rfl, ⟨_, rfl, .cons first (.cons second .nil)⟩, .inl ⟨rfl, rfl⟩⟩
  obtain ⟨readBack, -, exactly⟩ := format
  exact ⟨rfl, (readBack update updateSound).2, (exactly shuffled shuffledSound update).1.mpr
    shuffledWritten, (readBack index indexSound).2,
    (exactly brief briefSound index).1.mpr briefWritten⟩

end Operation

end Stepwise
