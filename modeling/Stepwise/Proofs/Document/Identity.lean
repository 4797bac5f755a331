import Stepwise.Store.Collection

/-!
# Updates and identifying values

An update that names the identifying value is refused, but a path may lead into it. Only such paths
can change it (`Update.id?_apply_of_not_entersId`), and whenever an update has one, it makes two
different identifying values the same (`Update.EntersId.merges`).
-/

namespace Stepwise

private theorem Text.eq_of_parts {α : Type} {isSeparator : α → Bool} {cs : List α}
    (whole : (Text.parts isSeparator cs).2 = []) : (Text.parts isSeparator cs).1 = cs := by
  induction cs with
  | nil => rfl
  | cons c cs ih =>
    simp only [Text.parts] at whole ⊢
    split at whole
    · contradiction
    · next other => simp only [other, Bool.false_eq_true, ↓reduceIte, ih whole]

/-- A path of one segment is its text. -/
theorem Path.eq_head_of_rest {text : String} (single : (Path.parse text).rest = []) :
    text = (Path.parse text).head := by
  have whole : (Text.parts (· = '.') text.toList).2 = [] := List.map_eq_nil_iff.mp single
  show text = String.ofList (Text.parts (· = '.') text.toList).1
  rw [Text.eq_of_parts whole, String.ofList_toList]

namespace Update

def paths (update : Update) : List String :=
  update.set.map (·.1) ++ update.unset

/-- Whether a path of the update leads into the identifying value, though none is its own path. -/
def EntersId (update : Update) : Prop :=
  update.touchesId = false ∧ ∃ path ∈ update.paths, (Path.parse path).head = "_id"

instance (update : Update) : Decidable update.EntersId :=
  inferInstanceAs (Decidable (_ ∧ _))

private theorem ne_id_of_touchesId {update : Update} (sound : update.touchesId = false)
    {path : String} (member : path ∈ update.paths) : path ≠ "_id" := by
  rintro rfl
  rw [touchesId, Bool.or_eq_false_iff, List.any_eq_false, List.any_eq_false] at sound
  obtain ⟨sets, unsets⟩ := sound
  obtain assigned | removed := List.mem_append.mp member
  · obtain ⟨entry, inside, same⟩ := List.mem_map.mp assigned
    exact sets entry inside (decide_eq_true same)
  · exact unsets _ removed (decide_eq_true rfl)

/-- A path of an update that is not refused leads elsewhere or into the identifying value. -/
theorem parse_cases {update : Update} (sound : update.touchesId = false) {path : String}
    (member : path ∈ update.paths) :
    (Path.parse path).head ≠ "_id" ∨ ∃ next rest, Path.parse path = ⟨"_id", next :: rest⟩ := by
  by_cases here : (Path.parse path).head = "_id"
  · cases segments : (Path.parse path).rest with
    | nil =>
      have own : path = "_id" := (Path.eq_head_of_rest segments).trans here
      exact absurd own (ne_id_of_touchesId sound member)
    | cons next rest =>
      refine .inr ⟨next, rest, ?_⟩
      rw [← here, ← segments]
  · exact .inl here

end Update

namespace Path

/-- What assigning at a path makes of the identifying value. -/
def assignId (path : Path) (value : Value) (id : Option Value) : Option Value :=
  if path.head = "_id" then
    match path.rest with
    | [] => some value
    | next :: rest => some (.obj ((Value.fieldsOf id).assignAt next rest value))
  else id

/-- What removing at a path makes of the identifying value. -/
def removeId (path : Path) (id : Option Value) : Option Value :=
  if path.head = "_id" then
    match path.rest, id with
    | [], _ => none
    | next :: rest, some (.obj child) => some (.obj (Fields.removeAt child next rest))
    | _ :: _, id => id
  else id

end Path

namespace Fields

private theorem id?_assign (document : Document) (path : Path) (value : Value) :
    Fields.id? (document.assign path value) = path.assignId value document.id? := by
  obtain ⟨head, rest⟩ := path
  by_cases here : head = "_id"
  · subst here
    cases rest with
    | nil => exact get?_insert ..
    | cons next rest => exact get?_insert ..
  · rw [Path.assignId, if_neg here]
    cases rest with
    | nil => exact (get?_insert ..).trans (if_neg here)
    | cons next rest => exact (get?_insert ..).trans (if_neg here)

private theorem id?_remove (document : Document) (path : Path) :
    Fields.id? (document.remove path) = path.removeId document.id? := by
  obtain ⟨head, rest⟩ := path
  simp only [remove, Path.removeId]
  cases rest with
  | nil => exact get?_erase ..
  | cons next rest =>
    simp only [removeAt]
    by_cases here : head = "_id"
    · subst here
      simp only [↓reduceIte, id?]
      split
      · next child same =>
        rw [same]
        exact (get?_insert ..).trans (if_pos rfl)
      · next other =>
        split
        · contradiction
        · next child _ same => exact absurd same (other _)
        · rfl
    · rw [if_neg here]
      split
      · exact (get?_insert ..).trans (if_neg here)
      · rfl

end Fields

namespace Update

/-- What assignments make of the identifying value. -/
def assignIds (set : Fields) (id : Option Value) : Option Value :=
  set.foldl (fun id (path, value) => (Path.parse path).assignId value id) id

/-- What removals make of the identifying value. -/
def removeIds (unset : List String) (id : Option Value) : Option Value :=
  unset.foldl (fun id path => (Path.parse path).removeId id) id

/-- An update makes of the identifying value what its assignments and then its removals make. -/
theorem id?_apply (update : Update) (document : Document) :
    Fields.id? (update.apply document) =
      removeIds update.unset (assignIds update.set document.id?) := by
  have assigned (set : Fields) (d : Document) :
      Fields.id? (set.foldl (fun d (path, value) => d.assign (.parse path) value) d) =
        assignIds set d.id? := by
    induction set generalizing d with
    | nil => rfl
    | cons entry rest ih =>
      have first := Fields.id?_assign d (.parse entry.1) entry.2
      exact (ih _).trans (congrArg (assignIds rest) first)
  have removed (unset : List String) (d : Document) :
      Fields.id? (unset.foldl (fun d path => d.remove (.parse path)) d) =
        removeIds unset d.id? := by
    induction unset generalizing d with
    | nil => rfl
    | cons path rest ih =>
      have first := Fields.id?_remove d (.parse path)
      exact (ih _).trans (congrArg (removeIds rest) first)
  exact (removed _ _).trans (congrArg (removeIds update.unset) (assigned _ _))

private theorem assignIds_of_elsewhere {set : Fields}
    (elsewhere : ∀ entry ∈ set, (Path.parse entry.1).head ≠ "_id") (id : Option Value) :
    assignIds set id = id := by
  induction set with
  | nil => rfl
  | cons entry rest ih =>
    obtain ⟨first, others⟩ := List.forall_mem_cons.mp elsewhere
    have kept : (Path.parse entry.1).assignId entry.2 id = id := if_neg first
    exact (congrArg (assignIds rest) kept).trans (ih others)

private theorem removeIds_of_elsewhere {unset : List String}
    (elsewhere : ∀ path ∈ unset, (Path.parse path).head ≠ "_id") (id : Option Value) :
    removeIds unset id = id := by
  induction unset with
  | nil => rfl
  | cons path rest ih =>
    obtain ⟨first, others⟩ := List.forall_mem_cons.mp elsewhere
    have kept : (Path.parse path).removeId id = id := if_neg first
    exact (congrArg (removeIds rest) kept).trans (ih others)

private theorem mem_paths_of_set {update : Update} {entry : String × Value}
    (member : entry ∈ update.set) : entry.1 ∈ update.paths :=
  List.mem_append_left _ (List.mem_map_of_mem member)

private theorem mem_paths_of_unset {update : Update} {path : String}
    (member : path ∈ update.unset) : path ∈ update.paths :=
  List.mem_append_right _ member

/-- An update without a path into the identifying value leaves it. -/
theorem id?_apply_of_not_entersId {update : Update} (sound : update.touchesId = false)
    (outside : ¬ update.EntersId) (document : Document) :
    Fields.id? (update.apply document) = document.id? := by
  have elsewhere : ∀ path ∈ update.paths, (Path.parse path).head ≠ "_id" := by
    intro path member here
    exact outside ⟨sound, path, member, here⟩
  rw [id?_apply, assignIds_of_elsewhere fun entry member => elsewhere _ (mem_paths_of_set member),
    removeIds_of_elsewhere fun path member => elsewhere path (mem_paths_of_unset member)]

private theorem isSome_assignIds {id : Option Value} (present : id.isSome) (set : Fields) :
    (assignIds set id).isSome := by
  induction set generalizing id with
  | nil => exact present
  | cons entry rest ih =>
    refine ih ?_
    show ((Path.parse entry.1).assignId entry.2 id).isSome
    rw [Path.assignId]
    split
    · split <;> rfl
    · exact present

private theorem isSome_removeIds {id : Option Value} (present : id.isSome) {unset : List String}
    (nested : ∀ path ∈ unset, (Path.parse path).head ≠ "_id" ∨
      ∃ next rest, Path.parse path = ⟨"_id", next :: rest⟩) :
    (removeIds unset id).isSome := by
  induction unset generalizing id with
  | nil => exact present
  | cons path rest ih =>
    obtain ⟨first, others⟩ := List.forall_mem_cons.mp nested
    refine ih ?_ others
    show ((Path.parse path).removeId id).isSome
    obtain elsewhere | ⟨next, more, into⟩ := first
    · have kept : (Path.parse path).removeId id = id := if_neg elsewhere
      rwa [kept]
    · simp only [into, Path.removeId, ↓reduceIte]
      split
      · contradiction
      · rfl
      · exact present

/-- No update that is accepted takes the identifying value away. -/
theorem isSome_id?_apply {update : Update} (sound : update.touchesId = false) {document : Document}
    (present : document.id?.isSome) : (Fields.id? (update.apply document)).isSome := by
  rw [id?_apply]
  exact isSome_removeIds (isSome_assignIds present update.set) fun path member =>
    parse_cases sound (mem_paths_of_unset member)

/-- Assigning into identifying values that are no objects makes them the same. -/
theorem assignIds_merge {set : Fields} {i j : Option Value}
    (alike : Value.fieldsOf i = Value.fieldsOf j)
    (into : ∃ entry ∈ set, (Path.parse entry.1).head = "_id") :
    assignIds set i = assignIds set j := by
  induction set with
  | nil => simp at into
  | cons entry rest ih =>
    by_cases here : (Path.parse entry.1).head = "_id"
    · have merged : (Path.parse entry.1).assignId entry.2 i =
          (Path.parse entry.1).assignId entry.2 j := by
        rw [Path.assignId, if_pos here, Path.assignId, if_pos here, alike]
      exact congrArg (assignIds rest) merged
    · obtain ⟨other, member, there⟩ := into
      have later : other ∈ rest := by
        obtain rfl | later := List.mem_cons.mp member
        · contradiction
        · exact later
      have kept (id : Option Value) : (Path.parse entry.1).assignId entry.2 id = id := if_neg here
      have merged := ih ⟨other, later, there⟩
      rwa [← kept i, ← kept j] at merged

end Update

namespace Fields

/-- Removing the one place in fields leaves the objects on the way to it. -/
theorem removeAt_assignAt_cons (head next : String) (rest : List String) (value : Value) :
    removeAt (assignAt [] head (next :: rest) value) head (next :: rest) =
      [(head, .obj (removeAt (assignAt [] next rest value) next rest))] := by
  simp only [assignAt, insert, removeAt, get?, NamedList.get?, ↓reduceIte, Value.fieldsOf]

private theorem removeAt_assignAt_nil (head : String) (value : Value) :
    removeAt (assignAt [] head [] value) head [] = [] := by
  simp only [assignAt, insert, removeAt, erase, ↓reduceIte]
  rfl

private theorem removeAt_removeAt (head : String) (rest : List String) (value : Value) :
    removeAt (removeAt (assignAt [] head rest value) head rest) head rest =
      removeAt (assignAt [] head rest value) head rest := by
  induction rest generalizing head with
  | nil =>
    rw [removeAt_assignAt_nil]
    rfl
  | cons next rest ih =>
    rw [removeAt_assignAt_cons]
    simp only [removeAt, get?, NamedList.get?, ↓reduceIte, ih, insert]

private theorem canonical_removeAt_ne (head : String) (rest : List String) (value : Value) :
    Value.canonicalFields (assignAt [] head rest value) ≠
      Value.canonicalFields (removeAt (assignAt [] head rest value) head rest) := by
  induction rest generalizing head with
  | nil =>
    rw [removeAt_assignAt_nil]
    exact List.cons_ne_nil _ _
  | cons next rest ih =>
    rw [removeAt_assignAt_cons]
    intro same
    have inside := congrArg Prod.snd (List.cons.inj same).1
    exact ih next (Value.obj.inj inside)

end Fields

namespace Update

/-- Removing inside of identifying values makes some that differ the same. -/
theorem removeIds_merge {unset : List String}
    (nested : ∀ path ∈ unset, (Path.parse path).head ≠ "_id" ∨
      ∃ next rest, Path.parse path = ⟨"_id", next :: rest⟩)
    (into : ∃ path ∈ unset, (Path.parse path).head = "_id") :
    ∃ i j : Value, ¬ i ≈ j ∧ removeIds unset (some i) = removeIds unset (some j) := by
  induction unset with
  | nil => simp at into
  | cons path rest ih =>
    obtain ⟨first, others⟩ := List.forall_mem_cons.mp nested
    obtain elsewhere | ⟨next, more, here⟩ := first
    · obtain ⟨other, member, there⟩ := into
      have later : other ∈ rest := by
        obtain rfl | later := List.mem_cons.mp member
        · contradiction
        · exact later
      obtain ⟨i, j, differ, merged⟩ := ih others ⟨other, later, there⟩
      have kept (id : Option Value) : (Path.parse path).removeId id = id := if_neg elsewhere
      refine ⟨i, j, differ, ?_⟩
      rwa [← kept (some i), ← kept (some j)] at merged
    · -- What is at the path in the first value is gone in the second.
      let full := Fields.assignAt [] next more .null
      have differ : ¬ Value.obj full ≈ .obj (Fields.removeAt full next more) := by
        intro same
        exact Fields.canonical_removeAt_ne next more .null (Value.obj.inj same)
      refine ⟨.obj full, .obj (Fields.removeAt full next more), differ, ?_⟩
      have merged : (Path.parse path).removeId (some (.obj full)) =
          (Path.parse path).removeId (some (.obj (Fields.removeAt full next more))) := by
        simp only [here, Path.removeId, ↓reduceIte, full, Fields.removeAt_removeAt]
      exact congrArg (removeIds rest) merged

/-- An update with a path into the identifying value makes some that differ the same. -/
theorem EntersId.merges {update : Update} (enters : update.EntersId) :
    ∃ i j : Value, ¬ i ≈ j ∧
      removeIds update.unset (assignIds update.set (some i)) =
        removeIds update.unset (assignIds update.set (some j)) := by
  obtain ⟨sound, path, member, here⟩ := enters
  by_cases assigned : ∃ entry ∈ update.set, (Path.parse entry.1).head = "_id"
  · exact ⟨.str "a", .str "b", by decide, congrArg _ (assignIds_merge rfl assigned)⟩
  · have elsewhere : ∀ entry ∈ update.set, (Path.parse entry.1).head ≠ "_id" := by
      intro entry inside there
      exact assigned ⟨entry, inside, there⟩
    have kept := assignIds_of_elsewhere elsewhere
    have removed : path ∈ update.unset := by
      refine (List.mem_append.mp member).resolve_left fun among => ?_
      obtain ⟨entry, inside, rfl⟩ := List.mem_map.mp among
      exact assigned ⟨entry, inside, here⟩
    obtain ⟨i, j, differ, merged⟩ := removeIds_merge
      (fun path member => parse_cases sound (mem_paths_of_unset member)) ⟨path, removed, here⟩
    refine ⟨i, j, differ, ?_⟩
    rw [kept, kept, merged]

end Update

end Stepwise
