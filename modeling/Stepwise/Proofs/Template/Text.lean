import Stepwise.Proofs.Yaml.Mapping
import Stepwise.Template

/-!
# Reading the text of a new file

The text of a new migration file is a few comments and the entries of its sheet. When all characters
of the name are legible the sheet says the name and nothing else, and a name on one line with
another character makes a text that is no sheet (`Template.ofYaml?_text`).
-/

namespace Stepwise.Template

open Text (isLegible quoteChar)
open Yaml (Cursor Layout OnLine Token isAllowed isBreak)
open Yaml.Layout

variable {name id : String} {now : Instant} {index line column : Nat} {before : List Token}

/-- The lines before the first entry. -/
def comments (name id : String) (now : Instant) : List (List Char) :=
  ((lines name id now).take 8).map String.toList

/-- What follows the name in a new file. -/
def afterName : List Char :=
  ofLines [[]] ++ ("reversible".toList ++ ':' :: ' ' :: ("true".toList ++ '\n' :: '\n' ::
    ("up".toList ++ ':' :: ' ' :: '[' :: ']' :: (ofLines [[], []] ++
      ("down".toList ++ ':' :: ' ' :: '[' :: ']' :: ['\n'])))))

/-- The text of a new file is its comments and its entries. -/
theorem toList_text (name id : String) (now : Instant) :
    (text name id now).toList =
      ofLines (comments name id now) ++ ("description".toList ++ ':' :: ' ' :: '"' ::
        (name.toList.flatMap quoteChar ++ '"' :: afterName)) := by
  have quoted : (Text.quoted name).toList = '"' :: (name.toList.flatMap quoteChar ++ ['"']) :=
    String.toList_ofList
  have ends (line : String) : (line ++ "\n").toList = line.toList ++ ['\n'] := String.toList_append
  have whole : (text name id now).toList = ofLines ((lines name id now).map String.toList) := by
    simp only [text, String.toList_join, List.flatMap_map, ofLines, ends]
  have fields : (lines name id now).drop 8 = ["description: " ++ Text.quoted name,
      "reversible: true", "", "up: []", "", "down: []"] := rfl
  have description : ("description: " ++ Text.quoted name).toList =
      "description".toList ++ ':' :: ' ' :: '"' :: (name.toList.flatMap quoteChar ++ ['"']) := by
    rw [String.toList_append, quoted]
    rfl
  have others : ofLines (["reversible: true", "", "up: []", "", "down: []"].map String.toList) =
      afterName.drop 1 := by decide
  have newline : '\n' :: afterName.drop 1 = afterName := rfl
  have rest : ofLines (((lines name id now).drop 8).map String.toList) =
      "description".toList ++ ':' :: ' ' :: '"' ::
        (name.toList.flatMap quoteChar ++ '"' :: afterName) := by
    rw [fields, List.map_cons, ofLines_cons, description, others, newline]
    generalize "description".toList = key
    simp only [List.append_assoc, List.cons_append, List.nil_append]
  rw [whole, ← rest, comments, ofLines, ofLines, ofLines, ← List.flatMap_append, ← List.map_append,
    List.take_append_drop]

private theorem comments_eq (name id : String) (now : Instant) :
    comments name id now = ["# Migration: ".toList ++ name.toList, "# ID: ".toList ++ id.toList,
      "# Created: ".toList ++ now.plainText.toList, "#".toList,
      "# Operations: create_collection, drop_collection, create_index, drop_index,".toList,
      "# insert_documents, update_documents, delete_documents.".toList,
      "# Set `reversible: false` and a `reason` when `down` cannot undo `up`.".toList, []] := by
  rw [← String.toList_append, ← String.toList_append, ← String.toList_append]
  rfl

section Comments

variable (identified : ∀ c ∈ id.toList, isLegible c = true)
  (dated : ∀ c ∈ now.plainText.toList, isLegible c = true)
include identified dated

/-- Only the name may bring other than legible characters into the comments. -/
theorem isLegible_or_mem_of_comments {line : List Char} (member : line ∈ comments name id now)
    {c : Char} (inside : c ∈ line) : isLegible c = true ∨ c ∈ name.toList := by
  have fixed : (["# Migration: ", "# ID: ", "# Created: ", "#",
      "# Operations: create_collection, drop_collection, create_index, drop_index,",
      "# insert_documents, update_documents, delete_documents.",
      "# Set `reversible: false` and a `reason` when `down` cannot undo `up`."].all
        (·.toList.all isLegible)) = true := by decide +kernel
  simp only [List.all_cons, Bool.and_eq_true, List.all_eq_true] at fixed
  obtain ⟨migration, identifier, created, hash, first, second, third, -⟩ := fixed
  rw [comments_eq] at member
  simp only [List.mem_cons, List.not_mem_nil, or_false] at member
  rcases member with rfl | rfl | rfl | rfl | rfl | rfl | rfl | rfl
  · exact (List.mem_append.mp inside).imp_left (migration c)
  · exact .inl ((List.mem_append.mp inside).elim (identifier c) (identified c))
  · exact .inl ((List.mem_append.mp inside).elim (created c) (dated c))
  · exact .inl (hash c inside)
  · exact .inl (first c inside)
  · exact .inl (second c inside)
  · exact .inl (third c inside)
  · cases inside

/-- The lines before the first entry are comments when the name has no line break. -/
theorem isComment_of_comments (onLine : OnLine name.toList) :
    ∀ line ∈ comments name id now, Cursor.IsComment line := by
  intro line member
  refine ⟨fun c inside => ?_, ?_⟩
  · rcases isLegible_or_mem_of_comments identified dated member inside with legible | named
    · exact Text.isBreak_of_isLegible legible
    · exact onLine c named
  · rw [comments_eq] at member
    simp only [List.mem_cons, List.not_mem_nil, or_false] at member
    rcases member with rfl | rfl | rfl | rfl | rfl | rfl | rfl | rfl
    · exact .inr rfl
    · exact .inr rfl
    · exact .inr rfl
    · exact .inr rfl
    · exact .inr rfl
    · exact .inr rfl
    · exact .inr rfl
    · exact .inl rfl

end Comments

/-- What follows the name gives the same tokens in every new file. -/
theorem run?_afterName (fuel : Nat) :
    run? (fuel + 12) (inMapping ⟨afterName, index, line, column⟩ before false) =
      some (before.reverse ++
        [.key, .scalar "reversible" .plain, .value, .scalar "true" .plain,
          .key, .scalar "up" .plain, .value, .flowSequenceStart, .flowSequenceEnd,
          .key, .scalar "down" .plain, .value, .flowSequenceStart, .flowSequenceEnd,
          .blockEnd]) := by
  have top : IsTop 0 [-1] := .inr ⟨rfl, rfl⟩
  have blank : ∀ line ∈ [[]], Cursor.IsComment line := by simp [Cursor.isComment_nil]
  have blanks : ∀ line ∈ [[], []], Cursor.IsComment line := by simp [Cursor.isComment_nil]
  have reversible : ∀ c ∈ "reversible".toList, c.isAlphanum = true :=
    List.all_eq_true.mp (by decide)
  have yes : ∀ c ∈ "true".toList, c.isAlphanum = true := List.all_eq_true.mp (by decide)
  have up : ∀ c ∈ "up".toList, c.isAlphanum = true := List.all_eq_true.mp (by decide)
  have down : ∀ c ∈ "down".toList, c.isAlphanum = true := List.all_eq_true.mp (by decide)
  have begins (first : Char) (letter : first.isAlphanum = true) (rest : List Char) :
      ∀ c ∈ (first :: rest).head?, IsSolid c := by
    intro c head
    cases head
    exact isSolid_of_isAlphanum letter
  refine (reads_lines blank (begins 'r' rfl _) (fuel + 12)).trans ?_
  refine (reads_key reversible (by decide) (by decide) top (fuel + 10)).trans ?_
  refine (reads_word yes (by decide) (c := 'u') rfl (fuel + 9)).trans ?_
  refine (reads_key up (by decide) (by decide) top (fuel + 7)).trans ?_
  refine (reads_brackets (fuel + 5)).trans ?_
  refine (reads_lines blanks (begins 'd' rfl _) (fuel + 5)).trans ?_
  refine (reads_key down (by decide) (by decide) top (fuel + 3)).trans ?_
  refine (reads_brackets (fuel + 1)).trans ?_
  refine run?_end.trans ?_
  simp only [Int.lt_irrefl, ↓reduceIte, List.reverse_cons, List.append_assoc, List.cons_append,
    List.nil_append]
  rfl

def sheetTokens (name : String) : List Token :=
  [.mappingStart,
    .key, .scalar "description" .plain, .value, .scalar name .quoted,
    .key, .scalar "reversible" .plain, .value, .scalar "true" .plain,
    .key, .scalar "up" .plain, .value, .flowSequenceStart, .flowSequenceEnd,
    .key, .scalar "down" .plain, .value, .flowSequenceStart, .flowSequenceEnd,
    .blockEnd]

/-- Every character of the name stands in the first comment. -/
theorem mem_text {c : Char} (member : c ∈ name.toList) : c ∈ (text name id now).toList := by
  rw [toList_text, comments_eq, ofLines_cons]
  exact List.mem_append_left _ (List.mem_append_left _ (List.mem_append_right _ member))

section Name

variable (identified : ∀ c ∈ id.toList, isLegible c = true)
  (dated : ∀ c ∈ now.plainText.toList, isLegible c = true)
include identified dated

/-- A name of legible characters makes a text that YAML allows. -/
theorem isAllowed_text (legible : name.toList.all isLegible = true) :
    (text name id now).toList.all isAllowed = true := by
  have named := List.all_eq_true.mp legible
  have key : ∀ c ∈ "description".toList ++ [':', ' ', '"'], isAllowed c = true :=
    List.all_eq_true.mp (by decide +kernel)
  have others : ∀ c ∈ '"' :: afterName, isAllowed c = true :=
    List.all_eq_true.mp (by decide +kernel)
  rw [toList_text, List.all_eq_true]
  intro c member
  rcases List.mem_append.mp member with comment | entry
  · obtain ⟨line, inside, written⟩ := List.mem_flatMap.mp comment
    rcases List.mem_append.mp written with char | newline
    · rcases isLegible_or_mem_of_comments identified dated inside char with legible | member
      · exact Text.isAllowed_of_isLegible legible
      · exact Text.isAllowed_of_isLegible (named c member)
    · rw [List.mem_singleton.mp newline]
      rfl
  · have parted : c ∈ ("description".toList ++ [':', ' ', '"']) ++
        (name.toList.flatMap quoteChar ++ '"' :: afterName) := by
      rwa [List.append_assoc]
    rcases List.mem_append.mp parted with char | rest
    · exact key c char
    · rcases List.mem_append.mp rest with quoted | other
      · obtain ⟨d, member, written⟩ := List.mem_flatMap.mp quoted
        exact Text.isAllowed_of_isLegible
          (Text.isLegible_of_mem_quoteChar (named d member) written)
      · exact others c other

/-- The name is read back from a new file if it is legible; else no tokens are read. -/
theorem run?_text (visible : ∀ c ∈ name.toList, c ≠ '\x00' ∧ isBreak c = false) (fuel : Nat) :
    run? (fuel + 15) { cursor := { rest := (text name id now).toList } } =
      if name.toList.all isLegible then some (sheetTokens name) else none := by
  have comments := isComment_of_comments identified dated fun c member => (visible c member).2
  have description : ∀ c ∈ "description".toList, c.isAlphanum = true :=
    List.all_eq_true.mp (by decide)
  have begins (rest : List Char) : ∀ c ∈ ("description".toList ++ rest).head?, IsSolid c := by
    intro c head
    cases head
    exact isSolid_of_isAlphanum rfl
  rw [comments_eq] at comments
  rw [toList_text, comments_eq]
  refine (reads_lines comments (begins _) (fuel + 15)).trans ?_
  refine (reads_key description (by decide) (by decide) (.inl ⟨rfl, rfl⟩) (fuel + 13)).trans ?_
  refine (run?_quoted visible).trans ?_
  split
  · refine (run?_afterName fuel).trans ?_
    rw [String.ofList_toList]
    rfl
  · rfl

/-- The tokens of a new file whose name has no line break. -/
theorem ofText?_text (onLine : OnLine name.toList) :
    Token.ofText? (text name id now) =
      if name.toList.all isLegible then some (sheetTokens name) else none := by
  obtain ⟨fuel, enough⟩ : ∃ fuel, (text name id now).toList.length + 1 = fuel + 15 := by
    have long : 14 ≤ afterName.length := by decide
    refine ⟨(text name id now).toList.length - 14, ?_⟩
    rw [toList_text]
    simp only [List.length_append, List.length_cons]
    omega
  rw [Token.ofText?]
  split
  · next allowed =>
    have solid : '\x00' ∉ name.toList := by
      intro member
      have null := List.all_eq_true.mp allowed _ (mem_text member)
      cases null
    rw [enough]
    exact run?_text identified dated
      (fun c member => ⟨fun same => solid (same ▸ member), onLine c member⟩) fuel
  · next refused =>
    split
    · next legible => exact absurd (isAllowed_text identified dated legible) refused
    · rfl

end Name

/-- The tokens of a new file make a sheet that says the name and nothing else. -/
theorem ofTree?_sheetTokens (name : String) :
    (Yaml.Tree.ofTokens? (sheetTokens name)).bind Sheet.ofTree? =
      some { description := some name } :=
  rfl

/-- A new file whose name has no line break is a sheet that says the name and nothing else if the
name is legible, and is refused if not. -/
theorem ofYaml?_text (identified : ∀ c ∈ id.toList, isLegible c = true)
    (dated : ∀ c ∈ now.plainText.toList, isLegible c = true) (onLine : OnLine name.toList) :
    Sheet.ofYaml? (text name id now) =
      if name.toList.all isLegible then some { description := some name } else none := by
  rw [Sheet.ofYaml?, Yaml.Tree.ofText?, ofText?_text identified dated onLine]
  split
  · exact ofTree?_sheetTokens name
  · rfl

end Stepwise.Template
