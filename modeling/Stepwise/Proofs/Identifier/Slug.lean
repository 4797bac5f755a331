import Mathlib.Data.List.Chain
import Stepwise.Proofs.Identifier.Parts
import Stepwise.Proofs.Text.Parts
import Stepwise.Proofs.Text.Quoted

/-!
# Slugs

The slug of a text is its words of letters and digits in lower case, joined by underscores. So it is
in snake case (`MigrationId.isSnakeCase_slug`), has all letters and digits of the text
(`MigrationId.filter_slug`), is empty only if there are none (`MigrationId.slug_eq_empty_iff`), and
is a slug of itself (`MigrationId.slug_slug`). After a stamp and a hyphen, a slug that is not empty
makes an identifier (`MigrationId.isValid_of_isSlug`).
-/

namespace Stepwise.MigrationId

/-- Whether a character is a lower-case letter or a digit of ASCII. -/
def IsLowerOrDigit (c : Char) : Prop :=
  'a' ≤ c ∧ c ≤ 'z' ∨ '0' ≤ c ∧ c ≤ '9'

instance (c : Char) : Decidable (IsLowerOrDigit c) :=
  inferInstanceAs (Decidable (_ ∨ _))

/-- Whether a text has lower-case letters, digits and underscores only, where every underscore
stands alone between two others. -/
structure IsSnakeCase (cs : List Char) : Prop where
  chars : ∀ c ∈ cs, IsLowerOrDigit c ∨ c = '_'
  single : cs.IsChain fun a b => ¬ (a = '_' ∧ b = '_')
  head : cs.head? ≠ some '_'
  last : cs.getLast? ≠ some '_'

/-- Whether a text begins with a letter or digit and has underscores besides letters and digits. -/
def IsSlug (cs : List Char) : Prop :=
  ∃ first rest, cs = first :: rest ∧ first.isAlphanum = true ∧
    ∀ c ∈ rest, c.isAlphanum = true ∨ c = '_'

variable {c : Char} {cs : List Char} {name : String}

namespace IsLowerOrDigit

theorem isAlphanum (lower : IsLowerOrDigit c) : c.isAlphanum = true := by
  apply isAlphanum_iff.mpr
  rcases lower with letter | digit
  · exact .inl letter
  · exact .inr (.inr digit)

theorem ne_underscore (lower : IsLowerOrDigit c) : c ≠ '_' := by
  rintro rfl
  revert lower
  decide

theorem toLower_eq (lower : IsLowerOrDigit c) : c.toLower = c := by
  have apart : ¬ ('A'.val ≤ c.val ∧ c.val ≤ 'Z'.val) := by
    simp only [IsLowerOrDigit, Char.le_def, UInt32.le_iff_toNat_le] at lower ⊢
    have numbers : '0'.val.toNat = 0x30 ∧ '9'.val.toNat = 0x39 ∧ 'A'.val.toNat = 0x41 ∧
        'Z'.val.toNat = 0x5A ∧ 'a'.val.toNat = 0x61 := by decide
    omega
  exact dif_neg apart

/-- A letter or digit in lower case. -/
theorem of_toLower (letter : c.isAlphanum = true) : IsLowerOrDigit c.toLower := by
  have ascii : ∀ n < 0x7B, (Char.ofNat n).isAlphanum = true →
      IsLowerOrDigit (Char.ofNat n).toLower := by decide +kernel
  have same := ascii c.toNat (Text.toNat_of_isAlphanum letter).2
  rw [Char.ofNat_toNat] at same
  exact same letter

end IsLowerOrDigit

namespace IsSnakeCase

theorem nil : IsSnakeCase [] where
  chars := nofun
  single := .nil
  head := nofun
  last := nofun

/-- A word of lower-case letters and digits. -/
theorem word (lower : ∀ c ∈ cs, IsLowerOrDigit c) : IsSnakeCase cs where
  chars c member := .inl (lower c member)
  single := by
    apply List.Pairwise.isChain
    apply List.pairwise_of_forall_mem_list
    rintro a member b - ⟨underscore, -⟩
    exact (lower a member).ne_underscore underscore
  head underscore := (lower _ (List.mem_of_head? underscore)).ne_underscore rfl
  last underscore := (lower _ (List.mem_of_getLast? underscore)).ne_underscore rfl

/-- A word before an underscore and more. -/
theorem join {rest : List Char} (filled : cs ≠ []) (lower : ∀ c ∈ cs, IsLowerOrDigit c)
    (more : rest ≠ []) (snake : IsSnakeCase rest) : IsSnakeCase (cs ++ '_' :: rest) where
  chars c member := by
    simp only [List.mem_append, List.mem_cons] at member
    rcases member with member | rfl | member
    · exact .inl (lower c member)
    · exact .inr rfl
    · exact snake.chars c member
  single := by
    rw [List.isChain_append, List.isChain_cons]
    refine ⟨(word lower).single, ⟨?_, snake.single⟩, ?_⟩
    · rintro b begins ⟨-, rfl⟩
      exact snake.head begins
    · rintro a ends b - ⟨rfl, -⟩
      exact (word lower).last ends
  head := by
    rw [List.head?_append_of_ne_nil _ filled]
    exact (word lower).head
  last := by
    obtain ⟨next, others, rfl⟩ := List.exists_cons_of_ne_nil more
    rw [List.getLast?_append_of_ne_nil _ (List.cons_ne_nil _ _), List.getLast?_cons_cons]
    exact snake.last

/-- Words of lower-case letters and digits with underscores between them. -/
theorem intercalate {ws : List (List Char)}
    (solid : ∀ w ∈ ws, w ≠ [] ∧ ∀ c ∈ w, IsLowerOrDigit c) :
    IsSnakeCase (['_'].intercalate ws) := by
  induction ws with
  | nil => exact nil
  | cons first rest ih =>
    obtain ⟨⟨filled, lower⟩, others⟩ := List.forall_mem_cons.mp solid
    cases rest with
    | nil =>
      rw [List.intercalate_singleton]
      exact word lower
    | cons second more =>
      have begun : ['_'].intercalate (second :: more) ≠ [] := by
        have filled : second ≠ [] := (others second (List.mem_cons_self ..)).1
        cases more with
        | nil => simpa using filled
        | cons _ _ => simp
      rw [List.intercalate_cons_cons, List.append_assoc, List.singleton_append]
      exact join filled lower begun (ih others)

/-- A text in snake case that is not empty is a name. -/
theorem isSlug (snake : IsSnakeCase cs) (filled : cs ≠ []) : IsSlug cs := by
  obtain ⟨first, rest, rfl⟩ := List.exists_cons_of_ne_nil filled
  obtain ⟨begins, continues⟩ := List.forall_mem_cons.mp snake.chars
  refine ⟨first, rest, rfl, ?_, fun c member => ?_⟩
  · have letter := begins.resolve_right fun underscore => snake.head (congrArg some underscore)
    exact letter.isAlphanum
  · exact (continues c member).imp_left IsLowerOrDigit.isAlphanum

end IsSnakeCase

/-- The words of letters and digits of a text, in lower case. -/
def slugWords (name : String) : List (List Char) :=
  (Text.words (!·.isAlphanum) name.toList).map (·.map Char.toLower)

theorem toList_slug (name : String) :
    (slug name).toList = ['_'].intercalate (slugWords name) := by
  simp only [slug, slugWords, String.toList_intercalate, List.map_map, Function.comp_def,
    String.toList_ofList]
  rfl

private theorem solid_of_mem_slugWords {word : List Char} (member : word ∈ slugWords name) :
    word ≠ [] ∧ ∀ c ∈ word, IsLowerOrDigit c := by
  obtain ⟨plain, among, rfl⟩ := List.mem_map.mp member
  obtain ⟨filled, letters⟩ := Text.solid_of_mem_words _ among
  refine ⟨mt List.map_eq_nil_iff.mp filled, ?_⟩
  rw [List.forall_mem_map]
  intro c inside
  apply IsLowerOrDigit.of_toLower
  simpa using letters c inside

theorem isSnakeCase_slug (name : String) : IsSnakeCase (slug name).toList := by
  rw [toList_slug]
  exact .intercalate fun _ => solid_of_mem_slugWords

/-- The words of a slug are those that it is made of. -/
theorem words_slug (name : String) :
    Text.words (!·.isAlphanum) (slug name).toList = slugWords name := by
  rw [toList_slug]
  apply Text.words_intercalate _ (by decide)
  intro word member
  obtain ⟨filled, lower⟩ := solid_of_mem_slugWords member
  exact ⟨filled, fun c inside => by simp [(lower c inside).isAlphanum]⟩

/-- The letters and digits of a slug are those of the text, in order and in lower case. -/
theorem filter_slug (name : String) :
    (slug name).toList.filter (IsLetterOrDigit ·) =
      (name.toList.filter (IsLetterOrDigit ·)).map Char.toLower := by
  have letters (cs : List Char) : cs.filter (IsLetterOrDigit ·) =
      (Text.words (!·.isAlphanum) cs).flatten := by
    rw [Text.flatten_words]
    apply List.filter_congr
    intro c _
    rw [Bool.not_not, Bool.eq_iff_iff, decide_eq_true_eq, isAlphanum_iff]
  rw [letters, letters, words_slug, slugWords, List.map_flatten]

/-- A slug is empty if there are no letters and digits. -/
theorem slug_eq_empty_iff : slug name = "" ↔ ∀ c ∈ name.toList, ¬ IsLetterOrDigit c := by
  have wordless : slugWords name = [] ↔ ∀ c ∈ name.toList, ¬ IsLetterOrDigit c := by
    simp [slugWords, Text.words_eq_nil_iff, ← isAlphanum_iff]
  rw [← wordless, ← words_slug]
  constructor
  · intro empty
    rw [empty]
    rfl
  · intro none
    apply String.toList_eq_nil_iff.mp
    rw [toList_slug, ← words_slug, none]
    rfl

/-- A slug is a slug of itself. -/
theorem slug_slug (name : String) : slug (slug name) = slug name := by
  have lowered (word : List Char) (member : word ∈ slugWords name) :
      word.map Char.toLower = word := by
    refine (List.map_congr_left fun c inside => ?_).trans (List.map_id _)
    exact ((solid_of_mem_slugWords member).2 c inside).toLower_eq
  have lower : slugWords (slug name) = slugWords name := by
    rw [slugWords, words_slug]
    exact (List.map_congr_left lowered).trans (List.map_id _)
  apply String.toList_injective
  rw [toList_slug, toList_slug, lower]

/-- A slug is empty or a name. -/
theorem isSlug_slug (filled : (slug name).isEmpty = false) : IsSlug (slug name).toList := by
  apply (isSnakeCase_slug name).isSlug
  intro empty
  rw [String.toList_eq_nil_iff.mp empty] at filled
  contradiction

/-- A stamp and a name with a hyphen between them are an identifier. -/
theorem isValid_of_isSlug {stamp slug : String}
    (size : 8 ≤ stamp.toList.length ∧ stamp.toList.length ≤ 14)
    (digits : ∀ c ∈ stamp.toList, Text.isDecimalDigit c = true) (named : IsSlug slug.toList) :
    isValid (stamp ++ "-" ++ slug) = true := by
  obtain ⟨first, rest, text, letter, others⟩ := named
  let p : Parts :=
    { stamp := stamp.toList, separator := '-', first, rest, digits, size
      separates := .inl rfl
      begins := isAlphanum_iff.mp letter
      continues := fun c member => (others c member).imp isAlphanum_iff.mp .inl }
  apply isValid_iff_exists_parts.mpr
  refine ⟨p, String.toList_injective ?_⟩
  rw [p.toList_text, String.toList_append, String.toList_append, text, List.append_assoc]
  rfl

end Stepwise.MigrationId
