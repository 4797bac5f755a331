import Stepwise.Text.Parts

/-!
# Splitting a text

A separator splits a text in two, whose parts and words are those of the whole. No part has a
separator, a word is not empty, and the parts with the separators between them are the text. The
words of a text are what is left of it without its separators (`Text.flatten_words`), and words with
a separator between them are told apart again (`Text.words_intercalate`).
-/

namespace Stepwise.Text

variable {α : Type} (isSeparator : α → Bool)

theorem parts_append_cons {s : α} (separates : isSeparator s = true) (xs ys : List α) :
    parts isSeparator (xs ++ s :: ys) =
      ((parts isSeparator xs).1,
        (parts isSeparator xs).2 ++ (parts isSeparator ys).1 :: (parts isSeparator ys).2) := by
  induction xs with
  | nil => simp only [List.nil_append, parts, separates, ↓reduceIte]
  | cons x xs ih =>
    simp only [List.cons_append, parts, ih]
    split
    · rfl
    · rfl

theorem parts_of_forall_not {xs : List α} (plain : ∀ x ∈ xs, isSeparator x = false) :
    parts isSeparator xs = (xs, []) := by
  induction xs with
  | nil => rfl
  | cons x xs ih =>
    have rest := ih fun y member => plain y (List.mem_cons_of_mem _ member)
    simp only [parts, rest, plain x (List.mem_cons_self ..), Bool.false_eq_true, ↓reduceIte]

theorem words_append_cons {s : α} (separates : isSeparator s = true) (xs ys : List α) :
    words isSeparator (xs ++ s :: ys) = words isSeparator xs ++ words isSeparator ys := by
  simp only [words, parts_append_cons isSeparator separates, ← List.filter_append, List.cons_append]

theorem words_of_forall_not {xs : List α} (plain : ∀ x ∈ xs, isSeparator x = false)
    (filled : xs ≠ []) : words isSeparator xs = [xs] := by
  have kept : (!xs.isEmpty) = true := by
    rw [Bool.not_eq_true', List.isEmpty_eq_false_iff]
    exact filled
  simp only [words, parts_of_forall_not isSeparator plain, List.filter_cons, kept, ↓reduceIte,
    List.filter_nil]

/-- No part of a text has a separator. -/
theorem forall_mem_parts (cs : List α) :
    ∀ part ∈ (parts isSeparator cs).1 :: (parts isSeparator cs).2, ∀ c ∈ part,
      isSeparator c = false := by
  induction cs with
  | nil => simp [parts]
  | cons c cs ih =>
    obtain ⟨first, others⟩ := List.forall_mem_cons.mp ih
    rw [parts]
    by_cases separates : isSeparator c = true
    · simp only [separates, ↓reduceIte, List.forall_mem_cons]
      exact ⟨fun d member => absurd member List.not_mem_nil, first, others⟩
    · have solid := Bool.eq_false_iff.mpr separates
      simp only [solid, Bool.false_eq_true, ↓reduceIte, List.forall_mem_cons, true_and]
      exact ⟨first, others⟩

/-- The parts between separators that are all the same make up the text with these. -/
theorem intercalate_parts [DecidableEq α] (s : α) (cs : List α) :
    [s].intercalate ((parts (· = s) cs).1 :: (parts (· = s) cs).2) = cs := by
  induction cs with
  | nil => rfl
  | cons c cs ih =>
    rw [parts]
    by_cases separates : c = s
    · simp only [separates, decide_true, ↓reduceIte, List.intercalate_cons_cons, ih]
      rfl
    · simp only [separates, decide_false, Bool.false_eq_true, ↓reduceIte]
      generalize parts (· = s) cs = split at ih
      obtain ⟨first, others⟩ := split
      cases others with
      | nil => rw [List.intercalate_singleton] at ih ⊢; rw [ih]
      | cons next more =>
        rw [List.intercalate_cons_cons] at ih ⊢
        rw [← ih]
        rfl

/-- A word is not empty and has no separator. -/
theorem solid_of_mem_words {cs word : List α} (member : word ∈ words isSeparator cs) :
    word ≠ [] ∧ ∀ c ∈ word, isSeparator c = false := by
  obtain ⟨part, filled⟩ := List.mem_filter.mp member
  exact ⟨by simpa using filled, forall_mem_parts isSeparator cs word part⟩

/-- The words of a text, one after the other, are the text without its separators. -/
theorem flatten_words (cs : List α) :
    (words isSeparator cs).flatten = cs.filter (!isSeparator ·) := by
  have parts_flatten :
      ((parts isSeparator cs).1 :: (parts isSeparator cs).2).flatten =
        cs.filter (!isSeparator ·) := by
    induction cs with
    | nil => rfl
    | cons c cs ih =>
      rw [List.flatten_cons] at ih
      cases separates : isSeparator c with
      | true => simp [parts, separates, ← ih]
      | false => simp [parts, separates, ← ih]
  rw [words, List.flatten_filter_not_isEmpty]
  exact parts_flatten

/-- A text has no words if it has nothing but separators. -/
theorem words_eq_nil_iff {cs : List α} :
    words isSeparator cs = [] ↔ ∀ c ∈ cs, isSeparator c = true := by
  have left : cs.filter (!isSeparator ·) = [] ↔ ∀ c ∈ cs, isSeparator c = true := by simp
  rw [← left, ← flatten_words]
  constructor
  · intro none
    rw [none, List.flatten_nil]
  · intro empty
    apply List.eq_nil_iff_forall_not_mem.mpr
    intro word member
    apply (solid_of_mem_words isSeparator member).1
    exact List.flatten_eq_nil_iff.mp empty word member

/-- Words with a separator between them are the words of what they make up. -/
theorem words_intercalate {s : α} (separates : isSeparator s = true) {ws : List (List α)}
    (solid : ∀ w ∈ ws, w ≠ [] ∧ ∀ c ∈ w, isSeparator c = false) :
    words isSeparator ([s].intercalate ws) = ws := by
  induction ws with
  | nil => rfl
  | cons word rest ih =>
    obtain ⟨⟨filled, plain⟩, others⟩ := List.forall_mem_cons.mp solid
    have alone := words_of_forall_not isSeparator plain filled
    cases rest with
    | nil => rw [List.intercalate_singleton, alone]
    | cons second more =>
      rw [List.intercalate_cons_cons, List.append_assoc, List.singleton_append,
        words_append_cons isSeparator separates, alone, ih others, List.singleton_append]

end Stepwise.Text
