import Stepwise.Proofs.Store.Effect

/-!
# Stores that answer alike

Two stores agree when a set of collections is the same in both. A call within that set gets the same
answer from both and leaves them in agreement (`Store.Agree.perform`); neither the number of writes
nor the collections outside the set make a difference. Identifying values that the store gives out
are the one exception: unless the stores have given out equally many, the call must bring its own.
-/

namespace Stepwise

namespace Call

/-- Whether the call depends only on collections of the set, and changes no others. -/
def Within (seen : String → Prop) : Call → Prop
  | .listCollections => ∀ name, seen name
  | c => seen c.collection

theorem within_of_isWrite {seen : String → Prop} {c : Call} (write : c.isWrite = true)
    (named : seen c.collection) : c.Within seen := by
  cases c with
  | listCollections => contradiction
  | _ => exact named

/-- Whether a document that the call inserts has an identifying value of its own. -/
def Identified : Call → Prop
  | .insert _ document => document.id?.isSome
  | _ => True

end Call

namespace Store

/-- Whether the collections of the set are the same in both stores. If `counting`, both have also
given out the same number of identifying values. -/
structure Agree (seen : String → Prop) (counting : Prop) (a b : Store) : Prop where
  get? : ∀ name, seen name → a.collections.get? name = b.collections.get? name
  issued : counting → a.issued = b.issued

/-- Whether two outcomes are the same, up to stores that agree. -/
def Agree.Outcomes {α : Type} (seen : String → Prop) (counting : Prop) (a b : α × Store) : Prop :=
  a.1 = b.1 ∧ Agree seen counting a.2 b.2

namespace Agree

variable {seen : String → Prop} {counting : Prop} {a b : Store}

theorem refl (s : Store) : Agree seen counting s s :=
  ⟨fun _ _ => rfl, fun _ => rfl⟩

theorem trans {c : Store} (first : Agree seen counting a b) (second : Agree seen counting b c) :
    Agree seen counting a c :=
  ⟨fun name within => (first.get? name within).trans (second.get? name within),
    fun counts => (first.issued counts).trans (second.issued counts)⟩

theorem Outcomes.trans {α : Type} {first second third : α × Store}
    (same : Outcomes seen counting first second) (also : Outcomes seen counting second third) :
    Outcomes seen counting first third :=
  ⟨same.1.trans also.1, same.2.trans also.2⟩

theorem of_collections (same : a.collections = b.collections) (issued : a.issued = b.issued) :
    Agree seen counting a b :=
  ⟨fun name _ => congrArg (·.get? name) same, fun _ => issued⟩

theorem collections (same : Agree (fun _ => True) counting a b) : a.collections = b.collections :=
  SortedMap.ext_get? fun name => same.get? name trivial

theorem collection (same : Agree seen counting a b) {name : String} (within : seen name) :
    a.collection name = b.collection name := by
  rw [Store.collection, same.get? name within, Store.collection]

theorem counted (same : Agree seen counting a b) : Agree seen counting a.counted b.counted :=
  ⟨same.get?, same.issued⟩

theorem put (same : Agree seen counting a b) (name : String) (c : Collection) :
    Agree seen counting (a.put name c) (b.put name c) := by
  refine ⟨fun other within => ?_, same.issued⟩
  rw [get?_put, get?_put, same.get? other within]

theorem opened (same : Agree seen counting a b) {name : String} (within : seen name) :
    Agree seen counting (a.opened name) (b.opened name) := by
  rw [Store.opened, Store.opened, same.collection within]
  exact same.put ..

private theorem add (same : Agree seen counting a b) {name : String} (within : seen name)
    (id : Value) (document : Document) :
    Outcomes seen counting (a.add name id document) (b.add name id document) := by
  rw [add_eq, add_eq, same.collection within]
  split
  · exact ⟨rfl, same.opened within⟩
  · split
    · exact ⟨rfl, same.opened within⟩
    · exact ⟨rfl, same.put ..⟩

private theorem insert (same : Agree seen counting a b) {name : String} (within : seen name)
    {document : Document} (identified : counting ∨ document.id?.isSome) :
    Outcomes seen counting (a.insert name document) (b.insert name document) := by
  simp only [Store.insert]
  cases given : document.id? with
  | some id => exact same.counted.add within ..
  | none =>
    have counts : counting := by
      refine identified.resolve_right ?_
      rw [given]
      exact Bool.false_ne_true
    dsimp only
    rw [same.counted.issued counts]
    have outcomes := same.counted.add within (generatedId b.counted.issued)
      (document.insert "_id" (generatedId b.counted.issued))
    generalize a.counted.add name _ _ = left at outcomes
    generalize b.counted.add name _ _ = right at outcomes
    obtain ⟨answer, left⟩ := left
    obtain ⟨_, right⟩ := right
    obtain ⟨rfl, agree⟩ := outcomes
    cases answer with
    | error cause => exact ⟨rfl, agree⟩
    | ok _ => exact ⟨rfl, agree.get?, fun _ => rfl⟩

private theorem update (same : Agree seen counting a b) {name : String} (within : seen name)
    (filter : Filter) (change : Update) :
    Outcomes seen counting (a.update name filter change) (b.update name filter change) := by
  simp only [Store.update, same.counted.get? name within]
  split
  · exact ⟨rfl, same.counted⟩
  · split
    · exact ⟨rfl, same.counted⟩
    · split
      · exact ⟨rfl, same.counted⟩
      · exact ⟨rfl, same.counted.put ..⟩

private theorem createIndex (same : Agree seen counting a b) {name : String} (within : seen name)
    (index : Index) :
    Outcomes seen counting (a.createIndex name index) (b.createIndex name index) := by
  rw [createIndex_eq, createIndex_eq, same.collection within]
  split
  · exact ⟨rfl, same.counted⟩
  · split
    · split
      · exact ⟨rfl, same.counted.opened within⟩
      · exact ⟨rfl, same.counted.opened within⟩
    · split
      · exact ⟨rfl, same.counted.opened within⟩
      · exact ⟨rfl, same.counted.put ..⟩

/-- Stores that agree answer a call within their agreement alike, and agree afterwards. -/
theorem perform (same : Agree seen counting a b) {c : Call} (within : c.Within seen)
    (identified : counting ∨ c.Identified) :
    Outcomes seen counting (a.perform c) (b.perform c) := by
  cases c with
  | createCollection name =>
    have known : a.counted.collections.contains name = b.counted.collections.contains name := by
      rw [SortedMap.contains, same.counted.get? name within, SortedMap.contains]
    simp only [Store.perform, Store.createCollection]
    rw [known]
    split
    · exact ⟨rfl, same.counted⟩
    · exact ⟨rfl, same.counted.put ..⟩
  | dropCollection name =>
    refine ⟨rfl, fun other inside => ?_, same.issued⟩
    simp only [Store.perform, Store.dropCollection, SortedMap.get?_erase,
      same.counted.get? other inside]
  | listCollections =>
    have all : a.collections = b.collections :=
      SortedMap.ext_get? fun name => same.get? name (within name)
    refine ⟨?_, same⟩
    simp only [Store.perform, Store.listCollections, all]
  | insert name document => exact same.insert within identified
  | update name filter change => exact same.update within ..
  | delete name filter =>
    simp only [Store.perform, Store.delete, same.counted.get? name within]
    split
    · exact ⟨rfl, same.counted⟩
    · exact ⟨rfl, same.counted.put ..⟩
  | deleteFirst name filter =>
    simp only [Store.perform, Store.deleteFirst, same.counted.get? name within]
    split
    · exact ⟨rfl, same.counted⟩
    · split
      · exact ⟨rfl, same.counted⟩
      · exact ⟨rfl, same.counted.put ..⟩
  | find name filter =>
    have here : a.collection name = b.collection name := same.collection within
    refine ⟨?_, same⟩
    simp only [Store.perform, Store.find, here]
  | createIndex name index => exact same.createIndex within index
  | dropIndex name index =>
    have here : a.counted.collection name = b.counted.collection name :=
      same.counted.collection within
    simp only [Store.perform, Store.dropIndex]
    rw [here]
    split
    · exact ⟨rfl, same.counted⟩
    · exact ⟨rfl, same.counted.put ..⟩
  | listIndexes name =>
    have here : a.collection name = b.collection name := same.collection within
    refine ⟨?_, same⟩
    simp only [Store.perform, Store.listIndexes, here]

end Agree

end Store

end Stepwise
