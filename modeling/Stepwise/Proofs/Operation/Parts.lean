import Mathlib.Tactic.MkIffOfInductiveProp
import Stepwise.Operation.Format
import Stepwise.Proofs.Document.Data

/-!
# The written forms of indexes and updates

Indexes and updates fill the places of a record, which are looked up by name: what is usual may be
left out (`OrUsual`). Reading a filled record is exact (`Index.ofFilled?_eq_some_iff`,
`Update.ofFilled?_eq_some_iff`).
-/

namespace Stepwise

open Data (ofValue ofFields ofItems)

def SortOrder.word : SortOrder → String
  | .ascending => "asc"
  | .descending => "desc"

/-- The written forms of a direction: its name, alone or in an object that says nothing of it. -/
inductive SortOrder.WrittenAs (order : SortOrder) : Value → Prop
  | name : WrittenAs order (.str order.word)
  | null : WrittenAs order (.obj [(order.word, .null)])
  | empty : WrittenAs order (.obj [(order.word, .obj [])])

@[mk_iff]
structure IndexKey.FilledFrom (place : String → Option Value) (key : IndexKey) : Prop where
  field : place "field" = some (.str key.field)
  order : OrUsual (fun v order => SortOrder.WrittenAs order v) .ascending (place "order") key.order

/-- The written forms of an index key: its places by name, or in their order. -/
inductive IndexKey.WrittenAs (key : IndexKey) : Value → Prop
  | named {fields : Fields} : key.FilledFrom fields.get? → WrittenAs key (.obj fields)
  | listed {items : List Value} : items.length ≤ 2 →
      key.FilledFrom (NamedList.get? (["field", "order"].zip items)) → WrittenAs key (.arr items)

@[mk_iff]
structure Index.FilledFrom (place : String → Option Value) (index : Index) : Prop where
  name : place "name" = some (.str index.name)
  keys : ∃ items, place "keys" = some (.arr items) ∧
    List.Forall₂ (fun item key => IndexKey.WrittenAs key item) items index.keys
  unique : OrUsual (fun v unique => v = .bool unique) false (place "unique") index.unique

@[mk_iff]
structure Update.FilledFrom (place : String → Option Value) (update : Update) : Prop where
  set : OrUsual (fun v set => v = .obj set) [] (place "set") update.set
  unset : OrUsual (fun v paths => v = .arr (paths.map .str)) [] (place "unset") update.unset

section Parts

variable {v : Value} {filled : Record.Filled} {places : List String}
  {place : String → Option Value}

/-! ### Reading -/

private theorem Data.isNothing_ofValue :
    (ofValue v).isNothing true = true ↔ v = .null ∨ v = .obj [] := by
  cases v with
  | num n => cases n <;> simp [ofValue, Data.isNothing]
  | obj fields => cases fields <;> simp [ofValue, ofFields, Data.isNothing]
  | _ => simp [ofValue, Data.isNothing]

/-- A name is chosen by itself, or by an object that says nothing of it. -/
theorem Data.choice?_ofValue {names : List String} {name : String} :
    (ofValue v).choice? true names = some name ↔
      name ∈ names ∧ (v = .str name ∨ v = .obj [(name, .null)] ∨ v = .obj [(name, .obj [])]) := by
  cases v with
  | num n => cases n <;> simp [ofValue, Data.choice?]
  | str s =>
    simp only [ofValue, Data.choice?, Option.ite_none_right_eq_some, Option.some.injEq,
      Value.str.injEq, reduceCtorEq, or_false]
    constructor
    · rintro ⟨known, rfl⟩
      exact ⟨known, rfl⟩
    · rintro ⟨known, rfl⟩
      exact ⟨known, rfl⟩
  | obj fields =>
    match fields with
    | [] => simp [ofValue, ofFields, Data.choice?]
    | [(key, inner)] =>
      simp only [ofValue, ofFields, Data.choice?, Option.ite_none_right_eq_some,
        Option.some.injEq, Data.isNothing_ofValue, Value.obj.injEq, List.cons.injEq,
        Prod.mk.injEq, and_true, reduceCtorEq, false_or]
      constructor
      · rintro ⟨⟨known, nothing⟩, rfl⟩
        exact ⟨known, nothing.imp (⟨rfl, ·⟩) (⟨rfl, ·⟩)⟩
      · rintro ⟨known, ⟨rfl, nothing⟩ | ⟨rfl, nothing⟩⟩
        · exact ⟨⟨known, .inl nothing⟩, rfl⟩
        · exact ⟨⟨known, .inr nothing⟩, rfl⟩
    | _ :: _ :: _ => simp [ofValue, ofFields, Data.choice?]
  | _ => simp [ofValue, Data.choice?]

private theorem SortOrder.ofData?_ofValue {order : SortOrder} :
    SortOrder.ofData? true (ofValue v) = some order ↔ order.WrittenAs v := by
  rw [SortOrder.ofData?, Option.map_eq_some_iff]
  simp only [Data.choice?_ofValue]
  constructor
  · rintro ⟨name, ⟨known, written⟩, rfl⟩
    have word : name = (if name = "asc" then SortOrder.ascending else .descending).word := by
      rcases List.mem_cons.mp known with rfl | known
      · rfl
      · rw [List.mem_singleton.mp known]
        rfl
    generalize (if name = "asc" then SortOrder.ascending else .descending) = order at word
    subst word
    rcases written with rfl | rfl | rfl
    · exact .name
    · exact .null
    · exact .empty
  · intro written
    have known : order.word ∈ ["asc", "desc"] := by cases order <;> decide
    have named : (if order.word = "asc" then SortOrder.ascending else .descending) = order := by
      cases order <;> rfl
    refine ⟨order.word, ⟨known, ?_⟩, named⟩
    cases written with
    | name => exact .inl rfl
    | null => exact .inr (.inl rfl)
    | empty => exact .inr (.inr rfl)

private theorem IndexKey.isFilledFrom_iff {key : IndexKey}
    (shows : filled.Shows ["field", "order"] place) :
    filled.need? "field" Data.text? = some key.field ∧
        filled.orElse? "order" (SortOrder.ofData? true) .ascending = some key.order ↔
      key.FilledFrom place := by
  rw [shows.need?_text_iff (by decide), shows.orElse?_eq_some_iff (by decide),
    IndexKey.filledFrom_iff]
  simp only [SortOrder.ofData?_ofValue]

private theorem IndexKey.ofData?_ofValue {key : IndexKey} (sound : v.WellFormed) :
    IndexKey.ofData? true (ofValue v) = some key ↔ key.WrittenAs v := by
  have read (record : Record) (known : Record.ofData? (ofValue v) = some record) :
      IndexKey.ofData? true (ofValue v) = some key ↔
        ∃ filled : Record.Filled, record.read? ["field", "order"] = some filled ∧
          filled.need? "field" Data.text? = some key.field ∧
            filled.orElse? "order" (SortOrder.ofData? true) .ascending = some key.order := by
    obtain ⟨field, order⟩ := key
    simp [IndexKey.ofData?, known, Option.bind_eq_some_iff]
  cases v with
  | obj fields =>
    obtain ⟨filled, named, -, shows⟩ := Record.exists_read_named ["field", "order"] sound.1
    rw [read _ rfl, named]
    simp only [Option.some.injEq, exists_eq_left', IndexKey.isFilledFrom_iff shows]
    exact ⟨.named, fun | .named held => held⟩
  | arr items =>
    have shows := Record.shows_zip ["field", "order"] items
    rw [read _ rfl]
    simp only [Record.read_listed_eq_some_iff, and_assoc, exists_and_left, exists_eq_left,
      IndexKey.isFilledFrom_iff shows]
    exact ⟨fun ⟨fits, held⟩ => .listed fits held, fun | .listed fits held => ⟨fits, held⟩⟩
  | num n => cases n <;> exact ⟨nofun, nofun⟩
  | _ => exact ⟨nofun, nofun⟩

theorem Index.ofFilled?_eq_some_iff {index : Index} (shows : filled.Shows places place)
    (known : Index.places ⊆ places) (sound : WellFormedPlaces place) :
    Index.ofFilled? true filled = some index ↔ index.FilledFrom place := by
  have parts : Index.ofFilled? true filled = some index ↔
      filled.need? "name" Data.text? = some index.name ∧
        filled.need? "keys" (Data.list? (IndexKey.ofData? true)) = some index.keys ∧
          filled.orElse? "unique" Data.flag? false = some index.unique := by
    simp only [Index.ofFilled?, Option.bind_eq_bind, Option.bind_eq_some_iff, Option.pure_def,
      Option.some.injEq]
    constructor
    · rintro ⟨_, name, _, keys, _, unique, rfl⟩
      exact ⟨name, keys, unique⟩
    · rintro ⟨name, keys, unique⟩
      exact ⟨_, name, _, keys, _, unique, rfl⟩
  rw [parts, shows.need?_text_iff (known (by decide)),
    shows.need?_list_iff (known (by decide)) sound fun _ fine _ => IndexKey.ofData?_ofValue fine,
    shows.orElse?_eq_some_iff (known (by decide)), Index.filledFrom_iff]
  simp only [Data.flag?_ofValue]

theorem Update.ofFilled?_eq_some_iff {update : Update} (shows : filled.Shows places place)
    (known : Update.places ⊆ places) (sound : WellFormedPlaces place) :
    Update.ofFilled? filled = some update ↔ update.FilledFrom place := by
  have parts : Update.ofFilled? filled = some update ↔
      filled.orElse? "set" Data.document? [] = some update.set ∧
        filled.orElse? "unset" (Data.list? Data.text?) [] = some update.unset := by
    simp only [Update.ofFilled?, Option.bind_eq_bind, Option.bind_eq_some_iff, Option.pure_def,
      Option.some.injEq]
    constructor
    · rintro ⟨_, set, _, unset, rfl⟩
      exact ⟨set, unset⟩
    · rintro ⟨set, unset⟩
      exact ⟨_, set, _, unset, rfl⟩
  have unset : OrUsual (fun v paths => (ofValue v).list? Data.text? = some paths) []
      (place "unset") update.unset ↔
        OrUsual (fun v paths => v = .arr (paths.map .str)) [] (place "unset") update.unset :=
    OrUsual.congr fun v found =>
      Data.list?_ofValue_map (sound _ v found) fun _ _ _ => Data.text?_ofValue
  rw [parts, shows.orElse?_document_iff (known (by decide)) sound,
    shows.orElse?_eq_some_iff (known (by decide)), unset, Update.filledFrom_iff]

/-! ### Writing -/

theorem IndexKey.writtenAs_toValue (key : IndexKey) : key.WrittenAs key.toValue := by
  refine .named ⟨rfl, .inr ⟨_, rfl, ?_⟩⟩
  cases key.order with
  | ascending => exact .name
  | descending => exact .name

theorem Update.filledFrom_toFields (update : Update) :
    update.FilledFrom (Fields.get? update.toFields) := by
  obtain ⟨set, unset⟩ := update
  constructor
  · cases set with
    | nil => cases unset <;> exact .inl ⟨rfl, rfl⟩
    | cons first rest => exact .inr ⟨_, rfl, rfl⟩
  · cases unset with
    | nil => cases set <;> exact .inl ⟨rfl, rfl⟩
    | cons first rest => cases set <;> exact .inr ⟨_, rfl, rfl⟩

theorem IndexKey.wellFormed_toValue (key : IndexKey) : key.toValue.WellFormed := by
  have apart : ["field", "order"].Nodup := by decide
  refine ⟨apart, trivial, ?_, trivial⟩
  cases key.order with
  | ascending => trivial
  | descending => trivial

theorem Update.wellFormedFields_toFields {update : Update}
    (sound : (Value.obj update.set).WellFormed) : Value.WellFormedFields update.toFields := by
  have unset : Value.WellFormedItems (update.unset.map .str) :=
    Value.wellFormedItems_iff.mpr (List.forall_mem_map.mpr fun _ _ => trivial)
  rw [Update.toFields, Value.wellFormedFields_iff, List.forall_mem_append]
  constructor
  · split
    · exact nofun
    · exact List.forall_mem_singleton.mpr sound
  · split
    · exact nofun
    · exact List.forall_mem_singleton.mpr unset

end Parts

end Stepwise
