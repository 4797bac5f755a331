import Stepwise.Proofs.Files.Tree
import Stepwise.Proofs.Identifier.Slug
import Stepwise.Template

/-!
# Naming new migrations

A name with a letter or a digit has a slug that makes an identifier with every stamp of fourteen
digits. A name without is refused by its own text, and no file is written for it
(`MigrationId.slug_naming`).
-/

namespace Stepwise.MigrationId

variable {name : String}

/-- A migration whose name has no slug is refused once the directory stands. -/
theorem create_of_slug_eq_empty (empty : slug name = "") {tree made : FileTree}
    {directory : FileName} (now : Instant)
    (stands : tree.makeDirectories directory = (.ok (), made)) :
    Template.create tree directory name now = (.error (.invalidId name), made) := by
  simp [Template.create, stands, empty]

/-- The slug of a text is empty if the text has no letter or digit of ASCII; a migration of such a
name is then refused, once its directory stands, and no file is written. The slug of any other text
is in snake case, its letters and digits are those of the text, in order and in lower case, and with
a stamp of fourteen digits it makes an identifier. A slug is a slug of itself. -/
theorem slug_naming (name : String) :
    (slug name = "" ↔ ∀ c ∈ name.toList, ¬ IsLetterOrDigit c) ∧
    ((∀ c ∈ name.toList, ¬ IsLetterOrDigit c) → ∀ tree directory now,
      (∀ entries, tree.list directory = .ok entries →
        Template.create tree directory name now = (.error (.invalidId name), tree)) ∧
      ∀ made, tree.makeDirectories directory = (.ok (), made) →
        Template.create tree directory name now = (.error (.invalidId name), made) ∧
          made.SameFiles tree) ∧
    ((∃ c ∈ name.toList, IsLetterOrDigit c) →
      IsSnakeCase (slug name).toList ∧
      (slug name).toList.filter (IsLetterOrDigit ·) =
        (name.toList.filter (IsLetterOrDigit ·)).map Char.toLower ∧
      ∀ stamp : String, stamp.toList.length = 14 →
        (∀ c ∈ stamp.toList, Text.isDecimalDigit c = true) →
        isValid (stamp ++ "-" ++ slug name) = true) ∧
    slug (slug name) = slug name := by
  refine ⟨slug_eq_empty_iff, ?_, ?_, slug_slug name⟩
  · intro bare tree directory now
    have refused {made : FileTree} (stands : tree.makeDirectories directory = (.ok (), made)) :
        Template.create tree directory name now = (.error (.invalidId name), made) :=
      create_of_slug_eq_empty (slug_eq_empty_iff.mpr bare) now stands
    refine ⟨fun entries listed => ?_, fun made stands => ⟨refused stands, ?_⟩⟩
    · exact refused (FileTree.makeDirectories_standing listed)
    · have same := tree.sameFiles_makeDirectories directory
      rwa [stands] at same
  · rintro ⟨c, member, letter⟩
    refine ⟨isSnakeCase_slug name, filter_slug name, fun stamp size digits => ?_⟩
    apply isValid_of_isSlug (by omega) digits
    apply isSlug_slug
    rw [← Bool.not_eq_true, String.isEmpty_iff, slug_eq_empty_iff]
    intro bare
    exact bare c member letter

/-- Letters with an accent part words, as blanks and marks do. A name without other letters is
refused: a directory that stands is as before, and one that is made for the file stays empty. -/
theorem slug_naming_accents :
    let made : FileTree := ⟨.directory [([0x6D], .directory [])]⟩
    slug " -- Été 2025: DROP  legacy! " = "t_2025_drop_legacy" ∧
      isValid ("20250101٢٠٢٠٢٠" ++ "-" ++ slug " -- Été 2025: DROP  legacy! ") = true ∧
      slug "é!" = "" ∧
      ∀ now, Template.create {} [FileName.dot] "é!" now = (.error (.invalidId "é!"), {}) ∧
        Template.create {} [0x6D] "é!" now = (.error (.invalidId "é!"), made) := by
  intro made
  obtain ⟨-, -, named, -⟩ := slug_naming " -- Été 2025: DROP  legacy! "
  obtain ⟨-, -, valid⟩ := named ⟨'t', by decide, by decide⟩
  have bare : ∀ c ∈ "é!".toList, ¬ IsLetterOrDigit c := slug_eq_empty_iff.mp (by decide)
  obtain ⟨empty, refused, -⟩ := slug_naming "é!"
  refine ⟨by decide, valid _ rfl (List.all_eq_true.mp (by decide)), empty.mpr bare,
    fun now => ⟨?_, ?_⟩⟩
  · exact (refused bare {} [FileName.dot] now).1 [] rfl
  · exact ((refused bare {} [0x6D] now).2 made rfl).1

end Stepwise.MigrationId
