import Mathlib.Data.List.Pairwise
import Mathlib.Data.List.Perm.Basic
import Stepwise.Document.Update
import Stepwise.Proofs.Document.Lookup

/-!
# Outlines

The outline of a value tells for each place what stands there: an object, another value in its
canonical form, or nothing. Values are equal exactly when their outlines are
(`Value.equiv_iff_outline`), and assigning and removing act on outlines place by place: each either
keeps what is at a place or puts there something that does not depend on what was there. Whatever
acts so changes nothing when it is repeated (`Update.apply_apply`). Assignments at paths apart from
each other may be made in any order, and so may removals at any paths
(`Update.Independent.apply_perm`).
-/

namespace Stepwise

/-- A value in a list of named values is smaller than the list. -/
theorem NamedList.sizeOf_lt_of_get? {fields : List (String × Value)} {name : String} {value : Value}
    (found : get? fields name = some value) : sizeOf value < sizeOf fields := by
  induction fields with
  | nil => contradiction
  | cons head rest ih =>
    obtain ⟨other, first⟩ := head
    rw [get?] at found
    simp only [List.cons.sizeOf_spec, Prod.mk.sizeOf_spec]
    split at found
    · cases found
      omega
    · have smaller := ih found
      omega

namespace Value

/-- What holds of every value that is no object, and of an object if it holds of the values of its
fields, holds of every value. -/
theorem field_induction {p : Value → Prop}
    (other : ∀ value, (∀ fields, value ≠ obj fields) → p value)
    (object : ∀ fields, (∀ name value, Fields.get? fields name = some value → p value) →
      p (obj fields)) (value : Value) : p value := by
  cases value with
  | obj fields =>
    refine object fields fun name value found => ?_
    have smaller := NamedList.sizeOf_lt_of_get? found
    exact field_induction other object value
  | null | bool _ | num _ | str _ | arr _ => exact other _ nofun
termination_by sizeOf value
decreasing_by simp only [obj.sizeOf_spec]; omega

private theorem sorted_canonicalFields (fields : Fields) :
    NamedList.Sorted (canonicalFields fields) := by
  induction fields with
  | nil => exact List.Pairwise.nil
  | cons head rest ih =>
    rw [canonicalFields]
    exact NamedList.sorted_put ih ..

private theorem get?_canonicalFields (fields : Fields) (name : String) :
    NamedList.get? (canonicalFields fields) name = (fields.get? name).map canonical := by
  induction fields with
  | nil => rfl
  | cons head rest ih =>
    rw [canonicalFields, NamedList.get?_put, ih, Fields.get?, Fields.get?, NamedList.get?]
    split <;> rfl

/-- Objects are equal when under every name their values are. -/
theorem canonical_obj_eq {a b : Fields}
    (same : ∀ name, (a.get? name).map canonical = (b.get? name).map canonical) :
    (obj a).canonical = (obj b).canonical := by
  rw [canonical, canonical]
  congr 1
  refine NamedList.eq_of_get?_eq (sorted_canonicalFields a) (sorted_canonicalFields b) ?_
  intro name
  rw [get?_canonicalFields, get?_canonicalFields, same]

private theorem exists_of_canonical_eq_obj {value : Value} {fields : Fields}
    (same : value.canonical = obj fields) : ∃ inner, value = obj inner := by
  cases value with
  | obj inner => exact ⟨inner, rfl⟩
  | null | bool _ | num _ | str _ | arr _ =>
    rw [canonical] at same
    contradiction

/-- Reading in the canonical form gives the canonical forms of what is read. -/
theorem at?_canonical (value : Value) (place : List String) :
    value.canonical.at? place = (value.at? place).map canonical := by
  induction place generalizing value with
  | nil => rfl
  | cons segment rest ih =>
    cases value with
    | obj fields =>
      rw [canonical, at?_obj_cons, at?_obj_cons, Fields.get?, get?_canonicalFields]
      cases Fields.get? fields segment with
      | none => rfl
      | some inner => exact ih inner
    | null | bool _ | num _ | str _ | arr _ => rfl

/-- The value, an object without its fields. -/
def face : Value → Value
  | obj _ => obj []
  | value => value

end Value

/-- What stands at each place, if anything does: an object, shown without fields, or another
value. -/
abbrev Outline := List String → Option Value

namespace Value

/-- What stands at each place of a value, in canonical form. -/
def outline (value : Value) : Outline :=
  fun place => (value.canonical.at? place).map face

theorem outline_eq (value : Value) (place : List String) :
    value.outline place = (value.at? place).map fun inner => inner.canonical.face := by
  rw [outline, at?_canonical, Option.map_map]
  rfl

theorem outline_obj_cons (fields : Fields) (name : String) (place : List String) :
    (obj fields).outline (name :: place) = (fields.get? name).bind (·.outline place) := by
  rw [outline_eq, at?_obj_cons]
  cases Fields.get? fields name with
  | none => rfl
  | some value => exact (outline_eq value place).symm

theorem outline_root {value : Value} (other : ∀ fields, value ≠ obj fields) :
    value.outline [] = some value.canonical := by
  cases value with
  | obj fields => exact absurd rfl (other fields)
  | null | bool _ | num _ | str _ | arr _ => rfl

/-- Only objects have the outline of an object. -/
theorem exists_of_outline_eq_obj {value : Value} {fields : Fields}
    (same : value.outline = (obj fields).outline) : ∃ others, value = obj others := by
  by_contra other
  have root := congrFun same []
  rw [outline_root fun others object => other ⟨others, object⟩] at root
  exact other (exists_of_canonical_eq_obj (Option.some.inj root))

private theorem canonical_eq_of_outline {a b : Value} (same : a.outline = b.outline) :
    a.canonical = b.canonical := by
  induction a using field_induction generalizing b with
  | other a other =>
    have plain : ∀ fields, b ≠ obj fields := by
      rintro fields rfl
      obtain ⟨inner, object⟩ := exists_of_outline_eq_obj same
      exact other inner object
    have root := congrFun same []
    rw [outline_root other, outline_root plain] at root
    exact Option.some.inj root
  | object fields ih =>
    obtain ⟨others, rfl⟩ := exists_of_outline_eq_obj same.symm
    refine canonical_obj_eq fun name => ?_
    -- The outline at the name alone tells whether there is a field; below it, what is in the field.
    have inside : ∀ place, (fields.get? name).bind (·.outline place) =
        (Fields.get? others name).bind (·.outline place) := by
      intro place
      rw [← outline_obj_cons, ← outline_obj_cons, same]
    cases left : Fields.get? fields name with
    | none =>
      cases right : Fields.get? others name with
      | none => rfl
      | some value =>
        rw [left, right] at inside
        exact absurd (inside []) nofun
    | some value =>
      cases right : Fields.get? others name with
      | none =>
        rw [left, right] at inside
        exact absurd (inside []) nofun
      | some other =>
        rw [left, right] at inside
        exact congrArg some (ih name value left (funext inside))

/-- Values are equal when the same stands at every place. -/
theorem equiv_iff_outline {a b : Value} : a ≈ b ↔ a.outline = b.outline := by
  rw [equiv_iff]
  constructor
  · intro same
    funext place
    rw [outline, outline, same]
  · exact canonical_eq_of_outline

end Value

namespace Outline

def assign (outline : Outline) (path : Path) (value : Value) : Outline := fun place =>
  if path.segments <+: place then value.outline (place.drop path.segments.length)
  else if place <+: path.segments then some (.obj [])
  else outline place

def remove (outline : Outline) (path : Path) : Outline := fun place =>
  if path.segments <+: place then none else outline place

/-- The outline after assignments, one after the other. -/
def assignAll (outline : Outline) (set : Fields) : Outline :=
  set.foldl (fun outline entry => outline.assign (.parse entry.1) entry.2) outline

/-- The outline after removals, one after the other. -/
def removeAll (outline : Outline) (unset : List String) : Outline :=
  unset.foldl (fun outline path => outline.remove (.parse path)) outline

end Outline

namespace Fields

private theorem outline_assign (document : Document) (path : Path) (value : Value) :
    (Value.obj (document.assign path value)).outline =
      (Value.obj document).outline.assign path value := by
  funext place
  rw [Outline.assign, Value.outline_eq]
  split
  · next leads =>
    obtain ⟨below, rfl⟩ := leads
    rw [List.drop_left, Value.outline_eq]
    exact congrArg _ (at?_assignAt_append document path.head path.rest value below)
  · next notBelow =>
    split
    · next leads =>
      have proper : place ≠ path.segments := by
        rintro rfl
        exact notBelow List.prefix_rfl
      obtain ⟨inner, there⟩ := at?_assignAt_above document path.head value leads proper
      exact congrArg _ there
    · next notAbove =>
      rw [Value.outline_eq]
      exact congrArg _ (at?_assignAt_apart document path.head value notBelow notAbove)

private theorem outline_remove (document : Document) (path : Path) :
    (Value.obj (document.remove path)).outline = (Value.obj document).outline.remove path := by
  funext place
  rw [Outline.remove, Value.outline_eq]
  split
  · next leads =>
    obtain ⟨below, rfl⟩ := leads
    exact congrArg _ (at?_removeAt_append document path.head path.rest below)
  · next notBelow =>
    rw [Value.outline_eq]
    by_cases leads : place <+: path.segments
    · have proper : place ≠ path.segments := by
        rintro rfl
        exact notBelow List.prefix_rfl
      obtain same | ⟨_, _, before, after⟩ := at?_removeAt_above document path.head leads proper
      · exact congrArg _ same
      · rw [before, remove, after]
        rfl
    · exact congrArg _ (at?_removeAt_apart document path.head notBelow leads)

end Fields

namespace Outline

/-- Whether a change keeps what stands at a place, or puts there what does not depend on the
outline, for each place. -/
def Pointwise (change : Outline → Outline) : Prop :=
  ∀ place, (∀ outline, change outline place = outline place) ∨
    ∃ fixed, ∀ outline, change outline place = fixed

private theorem pointwise_assign (path : Path) (value : Value) :
    Pointwise (assign · path value) := by
  intro place
  simp only [assign]
  split
  · exact .inr ⟨_, fun _ => rfl⟩
  · split
    · exact .inr ⟨_, fun _ => rfl⟩
    · exact .inl fun _ => rfl

private theorem pointwise_remove (path : Path) : Pointwise (remove · path) := by
  intro place
  simp only [remove]
  split
  · exact .inr ⟨_, fun _ => rfl⟩
  · exact .inl fun _ => rfl

namespace Pointwise

theorem comp {first second : Outline → Outline} (one : Pointwise first) (other : Pointwise second) :
    Pointwise fun outline => second (first outline) := by
  intro place
  obtain kept | ⟨fixed, put⟩ := other place
  · obtain before | ⟨fixed, put⟩ := one place
    · exact .inl fun outline => (kept _).trans (before outline)
    · exact .inr ⟨fixed, fun outline => (kept _).trans (put outline)⟩
  · exact .inr ⟨fixed, fun outline => put _⟩

theorem foldl {α : Type} {step : Outline → α → Outline} (each : ∀ x, Pointwise (step · x))
    (xs : List α) : Pointwise fun outline => xs.foldl step outline := by
  induction xs with
  | nil => exact fun _ => .inl fun _ => rfl
  | cons x xs ih => exact (each x).comp ih

/-- Such a change does nothing more when it is repeated. -/
theorem repeated {change : Outline → Outline} (pointwise : Pointwise change) (outline : Outline) :
    change (change outline) = change outline := by
  funext place
  obtain kept | ⟨fixed, put⟩ := pointwise place
  · exact kept _
  · exact (put _).trans (put _).symm

end Pointwise

private theorem pointwise_assignAll (set : Fields) : Pointwise (assignAll · set) := by
  have each (entry : String × Value) : Pointwise (assign · (.parse entry.1) entry.2) :=
    pointwise_assign (.parse entry.1) entry.2
  exact .foldl each set

private theorem pointwise_removeAll (unset : List String) : Pointwise (removeAll · unset) := by
  have each (path : String) : Pointwise (remove · (.parse path)) := pointwise_remove (.parse path)
  exact .foldl each unset

/-- Assignments at paths apart from each other may be exchanged. -/
theorem assign_comm {p q : Path} (apart : p.Apart q) (outline : Outline) (v w : Value) :
    (outline.assign p v).assign q w = (outline.assign q w).assign p v := by
  funext place
  simp only [assign]
  by_cases belowP : p.segments <+: place
  · have notBelow : ¬ q.segments <+: place := fun belowQ =>
      (List.prefix_or_prefix_of_prefix belowP belowQ).elim apart.1 apart.2
    have notAbove : ¬ place <+: q.segments := fun above => apart.1 (belowP.trans above)
    simp only [belowP, notBelow, notAbove, ↓reduceIte]
  · by_cases belowQ : q.segments <+: place
    · have notAbove : ¬ place <+: p.segments := fun above => apart.2 (belowQ.trans above)
      simp only [belowP, belowQ, notAbove, ↓reduceIte]
    · simp only [belowP, belowQ, ↓reduceIte]
      split <;> split <;> rfl

/-- Removals may be exchanged. -/
theorem remove_comm (outline : Outline) (p q : Path) :
    (outline.remove p).remove q = (outline.remove q).remove p := by
  funext place
  simp only [remove]
  split <;> split <;> rfl

/-- Assignments at paths apart from each other may be made in any order. -/
theorem assignAll_perm {set other : Fields}
    (apart : set.Pairwise fun a b => (Path.parse a.1).Apart (.parse b.1)) (perm : set.Perm other)
    (outline : Outline) : outline.assignAll set = outline.assignAll other := by
  let commute (a b : String × Value) : Prop := ∀ outline : Outline,
    (outline.assign (.parse a.1) a.2).assign (.parse b.1) b.2 =
      (outline.assign (.parse b.1) b.2).assign (.parse a.1) a.2
  have symmetric : Std.Symm commute := ⟨fun _ _ same outline => (same outline).symm⟩
  have pairs : set.Pairwise commute :=
    apart.imp fun apart outline => assign_comm apart outline _ _
  have all := pairs.forall_of_forall fun _ _ _ => rfl
  exact perm.foldl_eq' (fun a first b second outline => all first second outline) outline

/-- Removals may be made in any order. -/
theorem removeAll_perm {unset other : List String} (perm : unset.Perm other) (outline : Outline) :
    outline.removeAll unset = outline.removeAll other :=
  perm.foldl_eq' (fun p _ q _ outline => remove_comm outline (.parse p) (.parse q)) outline

end Outline

namespace Update

/-- An update makes of the outline of a document what its assignments and then its removals
make. -/
theorem outline_apply (update : Update) (document : Document) :
    (Value.obj (update.apply document)).outline =
      ((Value.obj document).outline.assignAll update.set).removeAll update.unset := by
  let view (d : Document) : Outline := (Value.obj d).outline
  have assigned : (view document).assignAll update.set =
      view (update.set.foldl (fun d entry => d.assign (.parse entry.1) entry.2) document) :=
    List.foldl_hom view fun d entry => (Fields.outline_assign d (.parse entry.1) entry.2).symm
  have removed (d : Document) : (view d).removeAll update.unset =
      view (update.unset.foldl (fun d path => d.remove (.parse path)) d) :=
    List.foldl_hom view fun d path => (Fields.outline_remove d (.parse path)).symm
  exact ((congrArg (·.removeAll update.unset) assigned).trans (removed _)).symm

/-- Making an update again changes nothing more. -/
theorem apply_apply (update : Update) (document : Document) :
    Value.obj (update.apply (update.apply document)) ≈ .obj (update.apply document) := by
  rw [Value.equiv_iff_outline, outline_apply, outline_apply]
  have pointwise := (Outline.pointwise_assignAll update.set).comp
    (Outline.pointwise_removeAll update.unset)
  exact pointwise.repeated _

/-- Whether the update assigns at paths that are apart from each other. -/
def Independent (update : Update) : Prop :=
  update.set.Pairwise fun a b => (Path.parse a.1).Apart (.parse b.1)

instance (update : Update) : Decidable update.Independent :=
  inferInstanceAs (Decidable (List.Pairwise _ _))

/-- Updates with the same assignments, at paths apart from each other, and the same removals make
the same of a document, in whatever order each makes them. -/
theorem Independent.apply_perm {update other : Update} (independent : update.Independent)
    (sets : update.set.Perm other.set) (unsets : update.unset.Perm other.unset)
    (document : Document) : Value.obj (update.apply document) ≈ .obj (other.apply document) := by
  rw [Value.equiv_iff_outline, outline_apply, outline_apply,
    Outline.assignAll_perm independent sets, Outline.removeAll_perm unsets]

end Update

end Stepwise
