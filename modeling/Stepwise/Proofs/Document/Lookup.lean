import Stepwise.Document.Path
import Stepwise.Proofs.Text.Parts

/-!
# Reading after writing

What is read at a path after a value was assigned, or removed, at another depends on how the two lie
to each other: at or below the other path, above it, or apart from it (`Fields.lookup_laws`). Paths
are compared by their segments, the parts of their text between dots, so `a` is above `a.b` and
apart from `ab`.
-/

namespace Stepwise

namespace Path

def text (path : Path) : String :=
  ".".intercalate path.segments

theorem segments_parse (text : String) :
    (parse text).segments =
      ((Text.parts (· = '.') text.toList).1 :: (Text.parts (· = '.') text.toList).2).map
        String.ofList :=
  rfl

/-- The segments of a text make up the text. -/
theorem text_parse (text : String) : (parse text).text = text := by
  have back : String.toList ∘ String.ofList = id := funext fun _ => String.toList_ofList
  rw [← String.toList_inj, Path.text, String.toList_intercalate, segments_parse, List.map_map, back,
    List.map_id]
  exact Text.intercalate_parts '.' text.toList

/-- No segment of a text has a dot. -/
theorem dot_not_mem_segments {text segment : String}
    (member : segment ∈ (parse text).segments) : '.' ∉ segment.toList := by
  rw [segments_parse] at member
  obtain ⟨part, among, rfl⟩ := List.mem_map.mp member
  intro dot
  rw [String.toList_ofList] at dot
  have solid := Text.forall_mem_parts (· = '.') text.toList part among '.' dot
  contradiction

/-- Whether neither path is at or below the other. -/
def Apart (p q : Path) : Prop :=
  ¬ p.segments <+: q.segments ∧ ¬ q.segments <+: p.segments

instance (p q : Path) : Decidable (p.Apart q) :=
  inferInstanceAs (Decidable (_ ∧ _))

end Path

namespace Value

theorem at?_obj_cons (fields : Fields) (segment : String) (rest : List String) :
    (obj fields).at? (segment :: rest) = (fields.get? segment).bind (·.at? rest) := by
  rw [at?, Fields.get?]
  cases NamedList.get? fields segment with
  | none => rfl
  | some value => rfl

/-- Below a value that is no object there is nothing. -/
theorem at?_cons_of_ne_obj {value : Value} (other : ∀ fields, value ≠ obj fields)
    (segment : String) (rest : List String) : value.at? (segment :: rest) = none := by
  cases value with
  | obj fields => exact absurd rfl (other fields)
  | null | bool _ | num _ | str _ | arr _ => rfl

/-- Below a place it makes no difference whether a missing object is an empty one. -/
theorem at?_fieldsOf (value : Option Value) (segment : String) (rest : List String) :
    (obj (fieldsOf value)).at? (segment :: rest) = value.bind (·.at? (segment :: rest)) := by
  cases value with
  | none => rfl
  | some value => cases value <;> rfl

end Value

namespace Fields

theorem lookup_eq (document : Document) (path : Path) :
    document.lookup path = (Value.obj document).at? path.segments := by
  rw [lookup, Path.segments, Value.at?_obj_cons]

section

variable (fields : Fields) (head : String)

theorem at?_insert (value : Value) (segment : String) (others : List String) :
    (Value.obj (fields.insert head value)).at? (segment :: others) =
      if head = segment then value.at? others
      else (Value.obj fields).at? (segment :: others) := by
  rw [Value.at?_obj_cons, get?_insert, Value.at?_obj_cons]
  split <;> rfl

theorem at?_erase (segment : String) (others : List String) :
    (Value.obj (fields.erase head)).at? (segment :: others) =
      if head = segment then none else (Value.obj fields).at? (segment :: others) := by
  rw [Value.at?_obj_cons, get?_erase, Value.at?_obj_cons]
  split <;> rfl

/-- Assigning puts the value at the place, with all that is in it below. -/
theorem at?_assignAt_append (rest : List String) (value : Value) (below : List String) :
    (Value.obj (fields.assignAt head rest value)).at? (head :: rest ++ below) =
      value.at? below := by
  induction rest generalizing fields head with
  | nil =>
    rw [assignAt, List.cons_append, at?_insert, if_pos rfl]
    rfl
  | cons next rest ih =>
    rw [assignAt, List.cons_append, at?_insert, if_pos rfl]
    exact ih _ next

/-- Above a place at which was assigned there are objects. -/
theorem at?_assignAt_above {rest : List String} (value : Value) {above : List String}
    (leads : above <+: head :: rest) (proper : above ≠ head :: rest) :
    ∃ inner, (Value.obj (fields.assignAt head rest value)).at? above = some (.obj inner) := by
  induction rest generalizing fields head above with
  | nil =>
    cases above with
    | nil => exact ⟨_, rfl⟩
    | cons segment others =>
      obtain ⟨rfl, further⟩ := List.cons_prefix_cons.mp leads
      exact absurd (congrArg _ (List.prefix_nil.mp further)) proper
  | cons next rest ih =>
    cases above with
    | nil => exact ⟨_, rfl⟩
    | cons segment others =>
      obtain ⟨rfl, further⟩ := List.cons_prefix_cons.mp leads
      rw [assignAt, at?_insert, if_pos rfl]
      exact ih _ next further fun same => proper (congrArg _ same)

private theorem head_ne_of_not_isPrefix {segment : String} {others : List String}
    (notBelow : ¬ [head] <+: segment :: others) : head ≠ segment := by
  rintro rfl
  exact notBelow (List.cons_prefix_cons.mpr ⟨rfl, List.nil_prefix⟩)

/-- Assigning changes nothing apart from the place. -/
theorem at?_assignAt_apart {rest : List String} (value : Value) {other : List String}
    (notBelow : ¬ head :: rest <+: other) (notAbove : ¬ other <+: head :: rest) :
    (Value.obj (fields.assignAt head rest value)).at? other = (Value.obj fields).at? other := by
  induction rest generalizing fields head other with
  | nil =>
    cases other with
    | nil => exact absurd List.nil_prefix notAbove
    | cons segment others =>
      rw [assignAt, at?_insert, if_neg (head_ne_of_not_isPrefix head notBelow)]
  | cons next rest ih =>
    cases other with
    | nil => exact absurd List.nil_prefix notAbove
    | cons segment others =>
      rw [assignAt, at?_insert]
      split
      · next same =>
        subst same
        rw [List.cons_prefix_cons, not_and] at notBelow notAbove
        -- The place is further down, so a value that gives way to an object had nothing there.
        cases others with
        | nil => exact absurd List.nil_prefix (notAbove rfl)
        | cons second others =>
          rw [ih _ next (notBelow rfl) (notAbove rfl), Value.at?_fieldsOf, Value.at?_obj_cons]
      · rfl

/-- Removing leaves nothing at the place, nor below. -/
theorem at?_removeAt_append (rest below : List String) :
    (Value.obj (fields.removeAt head rest)).at? (head :: rest ++ below) = none := by
  induction rest generalizing fields head with
  | nil => rw [removeAt, List.cons_append, at?_erase, if_pos rfl]
  | cons next rest ih =>
    rw [removeAt, List.cons_append]
    split
    · next child there =>
      rw [at?_insert, if_pos rfl]
      exact ih child next
    · next other =>
      rw [Value.at?_obj_cons, Option.bind_eq_none_iff]
      intro inner there
      refine Value.at?_cons_of_ne_obj ?_ next (rest ++ below)
      rintro child rfl
      exact other child there

/-- Above a place at which was removed nothing changes but the fields of objects. -/
theorem at?_removeAt_above {rest above : List String} (leads : above <+: head :: rest)
    (proper : above ≠ head :: rest) :
    (Value.obj (fields.removeAt head rest)).at? above = (Value.obj fields).at? above ∨
      ∃ before after, (Value.obj fields).at? above = some (.obj before) ∧
        (Value.obj (fields.removeAt head rest)).at? above = some (.obj after) := by
  induction rest generalizing fields head above with
  | nil =>
    cases above with
    | nil => exact .inr ⟨_, _, rfl, rfl⟩
    | cons segment others =>
      obtain ⟨rfl, further⟩ := List.cons_prefix_cons.mp leads
      exact absurd (congrArg _ (List.prefix_nil.mp further)) proper
  | cons next rest ih =>
    cases above with
    | nil => exact .inr ⟨_, _, rfl, rfl⟩
    | cons segment others =>
      obtain ⟨rfl, further⟩ := List.cons_prefix_cons.mp leads
      rw [removeAt]
      split
      · next child there =>
        rw [at?_insert, if_pos rfl, Value.at?_obj_cons, there]
        exact ih child next further fun same => proper (congrArg _ same)
      · exact .inl rfl

/-- Removing changes nothing apart from the place. -/
theorem at?_removeAt_apart {rest other : List String} (notBelow : ¬ head :: rest <+: other)
    (notAbove : ¬ other <+: head :: rest) :
    (Value.obj (fields.removeAt head rest)).at? other = (Value.obj fields).at? other := by
  induction rest generalizing fields head other with
  | nil =>
    cases other with
    | nil => exact absurd List.nil_prefix notAbove
    | cons segment others =>
      rw [removeAt, at?_erase, if_neg (head_ne_of_not_isPrefix head notBelow)]
  | cons next rest ih =>
    rw [removeAt]
    split
    · next child there =>
      cases other with
      | nil => exact absurd List.nil_prefix notAbove
      | cons segment others =>
        rw [at?_insert]
        split
        · next same =>
          subst same
          rw [List.cons_prefix_cons, not_and] at notBelow notAbove
          rw [ih child next (notBelow rfl) (notAbove rfl), Value.at?_obj_cons, there]
          rfl
        · rfl
    · rfl

end

/-- What is read at one path after a value was assigned, or removed, at another, where the segments
of a path are the parts of its text between dots. At the path it is the value, or nothing; below it,
what is inside of the value, or nothing; above it, an object, while removing leaves something there
if there was something; and apart from it, what was there before. -/
theorem lookup_laws (document : Document) (p q : String) (value : Value) :
    let written := Path.parse p
    let read := Path.parse q
    let assigned := document.assign written value
    let removed := document.remove written
    (∀ text, (Path.parse text).text = text ∧
      ∀ segment ∈ (Path.parse text).segments, '.' ∉ segment.toList) ∧
    assigned.lookup written = some value ∧ removed.lookup written = none ∧
    (∀ below, read.segments = written.segments ++ below →
      assigned.lookup read = value.at? below ∧ removed.lookup read = none) ∧
    (read.segments <+: written.segments → read.segments ≠ written.segments →
      (∃ fields, assigned.lookup read = some (.obj fields)) ∧
        (removed.lookup read).isSome = (document.lookup read).isSome) ∧
    (written.Apart read →
      assigned.lookup read = document.lookup read ∧
        removed.lookup read = document.lookup read) := by
  intro written read assigned removed
  have below (place : Path) (inside : List String)
      (longer : place.segments = written.segments ++ inside) :
      assigned.lookup place = value.at? inside ∧ removed.lookup place = none := by
    rw [lookup_eq, lookup_eq, longer]
    exact ⟨at?_assignAt_append .., at?_removeAt_append ..⟩
  have itself := below written [] (List.append_nil _).symm
  refine ⟨fun text => ⟨Path.text_parse text, fun _ => Path.dot_not_mem_segments⟩, itself.1,
    itself.2, below read, fun leads proper => ⟨?_, ?_⟩, fun apart => ⟨?_, ?_⟩⟩
  · rw [lookup_eq]
    exact at?_assignAt_above _ _ _ leads proper
  · rw [lookup_eq, lookup_eq]
    obtain same | ⟨_, _, before, after⟩ := at?_removeAt_above document written.head leads proper
    · exact congrArg _ same
    · exact (congrArg Option.isSome after).trans (congrArg Option.isSome before).symm
  · rw [lookup_eq, lookup_eq]
    exact at?_assignAt_apart _ _ _ apart.1 apart.2
  · rw [lookup_eq, lookup_eq]
    exact at?_removeAt_apart _ _ apart.1 apart.2

/-- Two dots in a row enclose a segment without a name, and a number in the middle of the path gives
way to an object. -/
theorem lookup_laws_gap :
    let document : Document := [("a", .num (.int 5)), ("ab", .bool true)]
    let gap := Path.parse "a..b"
    let assigned := document.assign gap (.obj [("x", .null)])
    let removed := assigned.remove gap
    assigned.lookup (.parse "a..b.x") = some .null ∧
      (∃ fields, assigned.lookup (.parse "a.") = some (.obj fields)) ∧
      assigned.lookup (.parse "ab") = some (.bool true) ∧
      removed.lookup gap = none ∧ (removed.lookup (.parse "a.")).isSome = true ∧
      removed.lookup (.parse "ab") = some (.bool true) := by
  intro document gap assigned removed
  obtain ⟨-, -, -, inside, -⟩ := lookup_laws document "a..b" "a..b.x" (.obj [("x", .null)])
  obtain ⟨-, -, -, -, above, -⟩ := lookup_laws document "a..b" "a." (.obj [("x", .null)])
  obtain ⟨-, -, -, -, -, apart⟩ := lookup_laws document "a..b" "ab" (.obj [("x", .null)])
  obtain ⟨-, -, gone, -, left, -⟩ := lookup_laws assigned "a..b" "a." .null
  obtain ⟨-, -, -, -, -, still⟩ := lookup_laws assigned "a..b" "ab" .null
  have object := (above (by decide) (by decide)).1
  have kept := (apart (by decide)).1
  refine ⟨(inside ["x"] (by decide)).1, object, kept, gone, ?_, (still (by decide)).2.trans kept⟩
  obtain ⟨fields, there⟩ := object
  rw [(left (by decide) (by decide)).2, there]
  rfl

end Fields

end Stepwise
