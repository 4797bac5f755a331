import Mathlib.Data.List.Forall2
import Mathlib.Data.List.Induction
import Mathlib.Data.List.Nodup
import Stepwise.Data
import Stepwise.Document.Fields

/-!
# Values as data

A value without repeated names is read back from the data that it is (`Data.value?_ofValue`), and as
a record its fields fill places by name, in whatever order they come (`Record.exists_read_named`).
-/

namespace Stepwise

private theorem Option.mapM_eq_some {α β : Type} {f : α → Option β} {xs : List α} {ys : List β} :
    xs.mapM f = some ys ↔ List.Forall₂ (fun x y => f x = some y) xs ys := by
  induction xs generalizing ys with
  | nil => simp [eq_comm]
  | cons x xs ih =>
    simp only [List.mapM_cons, Option.bind_eq_bind, Option.bind_eq_some_iff, Option.pure_def,
      Option.some.injEq, List.forall₂_cons_left_iff, ih]
    constructor
    · rintro ⟨y, read, rest, others, rfl⟩
      exact ⟨y, rest, read, others, rfl⟩
    · rintro ⟨y, rest, read, others, rfl⟩
      exact ⟨y, read, rest, others, rfl⟩

private theorem List.forall₂_congr_of_mem {α β : Type} {R S : α → β → Prop} {xs : List α}
    {ys : List β} (same : ∀ x ∈ xs, ∀ y, R x y ↔ S x y) :
    List.Forall₂ R xs ys ↔ List.Forall₂ S xs ys := by
  induction xs generalizing ys with
  | nil => simp
  | cons x xs ih =>
    obtain ⟨first, others⟩ := List.forall_mem_cons.mp same
    simp only [List.forall₂_cons_left_iff, first, ih others]

theorem List.forall₂_eq_map_iff {α β : Type} {f : β → α} {xs : List α} {ys : List β} :
    List.Forall₂ (fun x y => x = f y) xs ys ↔ xs = ys.map f := by
  rw [← List.forall₂_eq_eq_eq, List.forall₂_map_right_iff]

/-! ### Fields by their names -/

namespace NamedList

variable {α β : Type} {entries : List (String × α)} {name : String}

private theorem get?_eq_none (fresh : name ∉ entries.map (·.1)) : get? entries name = none := by
  induction entries with
  | nil => rfl
  | cons entry rest ih =>
    rw [List.map_cons, List.mem_cons, not_or] at fresh
    rw [get?, if_neg (Ne.symm fresh.1)]
    exact ih fresh.2

private theorem mem_of_get? {value : α} (found : get? entries name = some value) :
    (name, value) ∈ entries := by
  induction entries with
  | nil => cases found
  | cons entry rest ih =>
    rw [get?] at found
    split at found
    · next same =>
      cases found
      cases same
      exact List.mem_cons_self
    · exact List.mem_cons_of_mem _ (ih found)

theorem without_of_not_mem (fresh : name ∉ entries.map (·.1)) : without name entries = entries := by
  refine List.filter_eq_self.mpr fun entry member => decide_eq_true ?_
  rintro rfl
  exact fresh (List.mem_map_of_mem member)

private theorem get?_zip_map (names : List String) (items : List α) (f : α → β) (name : String) :
    get? (names.zip (items.map f)) name = (get? (names.zip items) name).map f := by
  induction names generalizing items with
  | nil => rfl
  | cons first names ih =>
    cases items with
    | nil => rfl
    | cons item items =>
      simp only [List.map_cons, List.zip_cons_cons, get?]
      split
      · rfl
      · exact ih items

end NamedList

namespace Fields

variable {fields : Fields} {name : String} {value : Value}

private theorem insert_of_not_mem (fresh : name ∉ fields.map (·.1)) :
    fields.insert name value = fields ++ [(name, value)] := by
  induction fields with
  | nil => rfl
  | cons field rest ih =>
    rw [List.map_cons, List.mem_cons, not_or] at fresh
    rw [insert, if_neg (Ne.symm fresh.1), ih fresh.2]
    rfl

private theorem ofList_concat (before : Fields) (last : String × Value) :
    ofList (before ++ [last]) = (ofList before).insert last.1 last.2 :=
  List.foldl_concat ..

/-- Fields of different names are assigned one behind the other. -/
theorem ofList_of_nodup (apart : (fields.map (·.1)).Nodup) : ofList fields = fields := by
  induction fields using List.reverseRecOn with
  | nil => rfl
  | append_singleton before field ih =>
    rw [List.map_append, List.map_singleton] at apart
    obtain ⟨fresh, apart⟩ :=
      List.nodup_cons.mp ((List.perm_append_singleton ..).nodup_iff.mp apart)
    rw [ofList_concat, ih apart, insert_of_not_mem fresh]

/-- Assigning the value that a field has already adds nothing. -/
theorem mem_insert (known : ∀ old, (name, old) ∈ fields → old = value) {field : String × Value} :
    field ∈ fields.insert name value ↔ field = (name, value) ∨ field ∈ fields := by
  induction fields with
  | nil => simp [insert]
  | cons first rest ih =>
    obtain ⟨other, old⟩ := first
    rw [insert]
    split
    · next same =>
      subst same
      obtain rfl := known old (List.mem_cons_self ..)
      simp
    · rw [List.mem_cons, ih fun older member => known older (List.mem_cons_of_mem _ member),
        List.mem_cons, or_left_comm]

theorem map_fst_insert (fields : Fields) (name : String) (value : Value) :
    (fields.insert name value).map (·.1) =
      if name ∈ fields.map (·.1) then fields.map (·.1) else fields.map (·.1) ++ [name] := by
  split
  · next known =>
    induction fields with
    | nil => contradiction
    | cons first rest ih =>
      rw [insert]
      split
      · next same => simp [same]
      · next different =>
        rw [List.map_cons, List.mem_cons] at known
        rw [List.map_cons, ih (known.resolve_left (Ne.symm different)), List.map_cons]
  · next fresh => rw [insert_of_not_mem fresh, List.map_append, List.map_singleton]

/-- Fields that are assigned one after the other have different names. -/
theorem nodup_ofList (fields : Fields) : ((ofList fields).map (·.1)).Nodup := by
  induction fields using List.reverseRecOn with
  | nil => exact List.nodup_nil
  | append_singleton before last ih =>
    rw [ofList_concat, map_fst_insert]
    split
    · exact ih
    · next fresh =>
      rw [← List.concat_eq_append]
      exact ih.concat fresh

/-- Where each name has one value only, assigning the fields one after the other keeps them all. -/
theorem mem_ofList (alike : ∀ name a b, (name, a) ∈ fields → (name, b) ∈ fields → a = b)
    {field : String × Value} : field ∈ ofList fields ↔ field ∈ fields := by
  induction fields using List.reverseRecOn generalizing field with
  | nil => rfl
  | append_singleton before last ih =>
    have earlier {field : String × Value} : field ∈ ofList before ↔ field ∈ before :=
      ih fun name a b first second =>
        alike name a b (List.mem_append_left _ first) (List.mem_append_left _ second)
    have known (old : Value) (member : (last.1, old) ∈ ofList before) : old = last.2 := by
      apply alike last.1
      · exact List.mem_append_left _ (earlier.mp member)
      · exact List.mem_append_right _ (List.mem_singleton_self last)
    rw [ofList_concat, mem_insert known, earlier, List.mem_append, List.mem_singleton, or_comm]

end Fields

/-! ### What a value without repeated names has in it -/

namespace Value

variable {items : List Value} {fields : Fields} {name : String} {value : Value}

theorem wellFormedItems_iff : WellFormedItems items ↔ ∀ item ∈ items, item.WellFormed := by
  induction items with
  | nil => simp [WellFormedItems]
  | cons item rest ih => simp [WellFormedItems, ih]

theorem wellFormedFields_iff :
    WellFormedFields fields ↔ ∀ field ∈ fields, field.2.WellFormed := by
  induction fields with
  | nil => simp [WellFormedFields]
  | cons field rest ih => simp [WellFormedFields, ih]

end Value

/-! ### Reading back -/

namespace Data

variable {v : Value}

theorem ofItems_eq (items : List Value) : ofItems items = items.map ofValue := by
  induction items with
  | nil => rfl
  | cons item rest ih => rw [ofItems, ih, List.map_cons]

theorem ofFields_eq (fields : Fields) :
    ofFields fields = fields.map fun field => (.str field.1, ofValue field.2) := by
  induction fields with
  | nil => rfl
  | cons field rest ih => rw [ofFields, ih, List.map_cons]

mutual

theorem isReadable_ofValue : (v : Value) → (ofValue v).isReadable = true
  | .null | .bool _ | .num (.int _) | .num (.float _) | .str _ => rfl
  | .arr items => areReadable_ofItems items
  | .obj fields => entriesAreReadable_ofFields fields

private theorem areReadable_ofItems : (items : List Value) → areReadable (ofItems items) = true
  | [] => rfl
  | item :: rest => by
    rw [ofItems, areReadable, isReadable_ofValue item, areReadable_ofItems rest]
    rfl

private theorem entriesAreReadable_ofFields :
    (fields : List (String × Value)) → entriesAreReadable (ofFields fields) = true
  | [] => rfl
  | (name, value) :: rest => by
    rw [ofFields, entriesAreReadable, isReadable_ofValue value, entriesAreReadable_ofFields rest]
    rfl

end

mutual

/-- A value without repeated names is read back. -/
theorem value?_ofValue : {v : Value} → v.WellFormed → (ofValue v).value? = some v
  | .null, _ | .bool _, _ | .num (.int _), _ | .num (.float _), _ | .str _, _ => rfl
  | .arr items, sound => by
    rw [ofValue, value?, items?_ofItems sound, Option.map_some]
  | .obj fields, sound => by
    rw [ofValue, value?, fields?_ofFields sound.2, Option.map_some,
      Fields.ofList_of_nodup sound.1]

private theorem items?_ofItems :
    {items : List Value} → Value.WellFormedItems items → items? (ofItems items) = some items
  | [], _ => rfl
  | item :: rest, sound => by
    rw [ofItems, items?, value?_ofValue sound.1, items?_ofItems sound.2]

private theorem fields?_ofFields :
    {fields : List (String × Value)} → Value.WellFormedFields fields →
      fields? (ofFields fields) = some fields
  | [], _ => rfl
  | (name, value) :: rest, sound => by
    rw [ofFields, fields?, value?_ofValue sound.1, fields?_ofFields sound.2]

end

theorem text?_ofValue {s : String} : (ofValue v).text? = some s ↔ v = .str s := by
  cases v with
  | num n => cases n <;> simp [ofValue, text?]
  | _ => simp [ofValue, text?]

theorem flag?_ofValue {b : Bool} : (ofValue v).flag? = some b ↔ v = .bool b := by
  cases v with
  | num n => cases n <;> simp [ofValue, flag?]
  | _ => simp [ofValue, flag?]

theorem document?_ofValue {document : Document} (sound : v.WellFormed) :
    (ofValue v).document? = some document ↔ v = .obj document := by
  cases v with
  | obj fields =>
    rw [ofValue, document?, fields?_ofFields sound.2, Option.map_some,
      Fields.ofList_of_nodup sound.1, Option.some.injEq, Value.obj.injEq]
  | num n => cases n <;> simp [ofValue, document?]
  | _ => simp [ofValue, document?]

/-- A list is read from an array, item by item. -/
theorem list?_ofValue {α : Type} {read : Data → Option α} {written : Value → α → Prop}
    {xs : List α} (sound : v.WellFormed)
    (reads : ∀ item : Value, item.WellFormed → ∀ x, read (ofValue item) = some x ↔ written item x) :
    (ofValue v).list? read = some xs ↔ ∃ items, v = .arr items ∧ List.Forall₂ written items xs := by
  cases v with
  | arr items =>
    have each : List.Forall₂ (fun item x => read (ofValue item) = some x) items xs ↔
        List.Forall₂ written items xs :=
      List.forall₂_congr_of_mem fun item member =>
        reads item (Value.wellFormedItems_iff.mp sound item member)
    simp [ofValue, list?, ofItems_eq, Option.mapM_eq_some, each]
  | num n => cases n <;> simp [ofValue, list?]
  | _ => simp [ofValue, list?]

/-- A list of things that have one written form each is read from the array of those. -/
theorem list?_ofValue_map {α : Type} {read : Data → Option α} {f : α → Value} {xs : List α}
    (sound : v.WellFormed)
    (reads : ∀ item : Value, item.WellFormed → ∀ x, read (ofValue item) = some x ↔ item = f x) :
    (ofValue v).list? read = some xs ↔ v = .arr (xs.map f) := by
  rw [list?_ofValue sound reads]
  simp only [List.forall₂_eq_map_iff, exists_eq_right]

end Data

/-! ### Records -/

/-- What stands in a place: the thing that is written there, or the usual one where nothing is. -/
def OrUsual {α : Type} (written : Value → α → Prop) (usual : α) (place : Option Value) (a : α) :
    Prop :=
  place = none ∧ a = usual ∨ ∃ v, place = some v ∧ written v a

theorem OrUsual.congr {α : Type} {R S : Value → α → Prop} {usual a : α} {place : Option Value}
    (same : ∀ v, place = some v → (R v a ↔ S v a)) :
    OrUsual R usual place a ↔ OrUsual S usual place a :=
  or_congr Iff.rfl (exists_congr fun v => and_congr_right fun found => same v found)

/-- Whether no value in a place repeats a name. -/
def WellFormedPlaces (place : String → Option Value) : Prop :=
  ∀ name v, place name = some v → v.WellFormed

theorem wellFormedPlaces_get? {fields : Fields} (sound : Value.WellFormedFields fields) :
    WellFormedPlaces fields.get? :=
  fun _ _ found => Value.wellFormedFields_iff.mp sound _ (NamedList.mem_of_get? found)

theorem wellFormedPlaces_zip {items : List Value} (sound : Value.WellFormedItems items)
    (places : List String) : WellFormedPlaces (NamedList.get? (places.zip items)) := by
  intro name v found
  have member := NamedList.mem_of_get? found
  exact Value.wellFormedItems_iff.mp sound v (List.of_mem_zip member).2

namespace Record

variable {filled : Filled} {places : List String} {place : String → Option Value} {name : String}
  {fields : Fields} {items : List Value}

/-- Whether places are filled with the values that are looked up by their names. -/
def Filled.Shows (filled : Filled) (places : List String) (place : String → Option Value) : Prop :=
  ∀ name ∈ places, NamedList.get? filled name = (place name).map Data.ofValue

private theorem Filled.Shows.need?_eq_some_iff {α : Type} {read : Data → Option α} {a : α}
    (shows : filled.Shows places place) (member : name ∈ places) :
    filled.need? name read = some a ↔ ∃ v, place name = some v ∧ read (.ofValue v) = some a := by
  rw [Filled.need?, shows name member]
  cases place name <;> simp

theorem Filled.Shows.orElse?_eq_some_iff {α : Type} {read : Data → Option α} {usual a : α}
    (shows : filled.Shows places place) (member : name ∈ places) :
    filled.orElse? name read usual = some a ↔
      OrUsual (fun v a => read (.ofValue v) = some a) usual (place name) a := by
  rw [Filled.orElse?, shows name member, OrUsual]
  cases place name <;> simp [eq_comm]

theorem Filled.Shows.need?_text_iff {s : String} (shows : filled.Shows places place)
    (member : name ∈ places) :
    filled.need? name Data.text? = some s ↔ place name = some (.str s) := by
  simp only [shows.need?_eq_some_iff member, Data.text?_ofValue, exists_eq_right]

theorem Filled.Shows.need?_list_iff {α : Type} {read : Data → Option α}
    {written : Value → α → Prop} {xs : List α} (shows : filled.Shows places place)
    (member : name ∈ places) (sound : WellFormedPlaces place)
    (reads : ∀ item : Value, item.WellFormed → ∀ x,
      read (.ofValue item) = some x ↔ written item x) :
    filled.need? name (Data.list? read) = some xs ↔
      ∃ items, place name = some (.arr items) ∧ List.Forall₂ written items xs := by
  rw [shows.need?_eq_some_iff member]
  constructor
  · rintro ⟨v, found, read⟩
    obtain ⟨items, rfl, each⟩ := (Data.list?_ofValue (sound _ _ found) reads).mp read
    exact ⟨items, found, each⟩
  · rintro ⟨items, found, each⟩
    exact ⟨_, found, (Data.list?_ofValue (sound _ _ found) reads).mpr ⟨items, rfl, each⟩⟩

theorem Filled.Shows.orElse?_document_iff {document : Document}
    (shows : filled.Shows places place) (member : name ∈ places) (sound : WellFormedPlaces place) :
    filled.orElse? name Data.document? [] = some document ↔
      OrUsual (fun v document => v = .obj document) [] (place name) document := by
  rw [shows.orElse?_eq_some_iff member]
  exact OrUsual.congr fun v found => Data.document?_ofValue (sound _ v found)

/-- Names are never numbers of places. -/
theorem places?_ofFields (places numbered others : List String) (fields : Fields) :
    places? places numbered (Data.ofFields fields) =
      places? places others (Data.ofFields fields) := by
  induction fields with
  | nil => rfl
  | cons field rest ih => rw [Data.ofFields, places?, places?, ih]

/-- The fields of an object fill the places of their names. -/
theorem exists_places? (places numbered : List String) (apart : (fields.map (·.1)).Nodup) :
    ∃ filled, places? places numbered (Data.ofFields fields) = some filled ∧
      ∀ name, NamedList.get? filled name =
        if name ∈ places then (fields.get? name).map Data.ofValue else none := by
  induction fields with
  | nil => exact ⟨[], rfl, fun name => by simp [NamedList.get?, Fields.get?]⟩
  | cons field rest ih =>
    obtain ⟨fresh, apart⟩ := List.nodup_cons.mp apart
    obtain ⟨filled, read, shows⟩ := ih apart
    by_cases known : field.1 ∈ places
    · have free : NamedList.get? filled field.1 = none := by
        rw [shows, if_pos known, Fields.get?, NamedList.get?_eq_none fresh, Option.map_none]
      refine ⟨(field.1, Data.ofValue field.2) :: filled, ?_, fun name => ?_⟩
      · simp [Data.ofFields, places?, read, known, Filled.fill?, free]
      · rw [NamedList.get?, Fields.get?, NamedList.get?, shows]
        by_cases same : field.1 = name
        · simp [← same, known]
        · simp [same, Fields.get?]
    · refine ⟨filled, ?_, fun name => ?_⟩
      · simp [Data.ofFields, places?, read, known]
      · rw [shows, Fields.get?, Fields.get?, NamedList.get?]
        by_cases same : field.1 = name
        · simp [← same, known]
        · simp [same]

theorem exists_read_named (places : List String) (apart : (fields.map (·.1)).Nodup) :
    ∃ filled : Filled, (named (Data.ofFields fields)).read? places = some filled ∧
      (named (Data.ofFields fields)).readShared? places = some filled ∧
        filled.Shows places fields.get? := by
  obtain ⟨filled, read, shows⟩ := exists_places? places places apart
  refine ⟨filled, read, (places?_ofFields ..).trans read, fun name member => ?_⟩
  rw [shows, if_pos member]

/-- The items of an array fill places in order, if there are no more items than places. -/
theorem read_listed_eq_some_iff :
    (listed (Data.ofItems items)).read? places = some filled ↔
      items.length ≤ places.length ∧ filled = places.zip (Data.ofItems items) := by
  rw [Data.ofItems_eq, read?, List.length_map, Option.ite_none_left_eq_some, Option.some.injEq,
    Nat.not_lt, eq_comm (a := filled)]

theorem shows_zip (places : List String) (items : List Value) :
    Filled.Shows (places.zip (Data.ofItems items)) places (NamedList.get? (places.zip items)) := by
  intro name _
  rw [Data.ofItems_eq]
  exact NamedList.get?_zip_map ..

end Record

end Stepwise
