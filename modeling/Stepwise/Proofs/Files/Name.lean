import Mathlib.Data.List.TakeWhile
import Stepwise.Files.Name
import Stepwise.Proofs.Text.Parts

/-!
# The parts of a joined path

The path of a file in a directory leads through the directory to the name of the file
(`FileName.components_join`), so that its stem and its extension are those of the name. A name with
an extension is split at its last dot (`FileName.split_eq_some`).
-/

namespace Stepwise

namespace FileName

/-- Whether a name is one of an entry of a directory. -/
structure IsEntry (file : FileName) : Prop where
  filled : file ≠ []
  whole : slash ∉ file
  apart : file ≠ [dot]
  below : file ≠ [dot, dot]

variable {directory file extension : FileName}

instance : Decidable file.IsEntry :=
  decidable_of_iff (file ≠ [] ∧ slash ∉ file ∧ file ≠ [dot] ∧ file ≠ [dot, dot])
    ⟨fun ⟨filled, whole, apart, below⟩ => ⟨filled, whole, apart, below⟩,
      fun ⟨filled, whole, apart, below⟩ => ⟨filled, whole, apart, below⟩⟩

private theorem components_append_slash (xs ys : FileName) :
    components (xs ++ slash :: ys) = components xs ++ components ys := by
  rw [components, Text.words_append_cons (· = slash) (decide_eq_true rfl), List.filter_append]
  rfl

theorem IsEntry.components_eq (entry : file.IsEntry) : components file = [file] := by
  have plain : ∀ b ∈ file, decide (b = slash) = false := by
    rintro b member
    rw [decide_eq_false_iff_not]
    rintro rfl
    exact entry.whole member
  rw [components, Text.words_of_forall_not (· = slash) plain entry.filled, List.filter_cons,
    if_pos (decide_eq_true entry.apart), List.filter_nil]

/-- The path of a file is that of its directory with or without a slash between. -/
theorem IsEntry.join_cases (entry : file.IsEntry) (directory : FileName) :
    directory = [] ∧ join directory file = file ∨
      (∃ above, directory = above ++ [slash] ∧ join directory file = above ++ slash :: file) ∨
        join directory file = directory ++ slash :: file := by
  have relative : file.head? ≠ some slash := by
    intro absolute
    exact entry.whole (List.mem_of_head? absolute)
  rw [join, if_neg relative]
  split
  · next ends =>
    rcases ends with empty | last
    · have empty := List.isEmpty_iff.mp empty
      exact .inl ⟨empty, by rw [empty, List.nil_append]⟩
    · obtain ⟨above, rfl⟩ := List.getLast?_eq_some_iff.mp last
      exact .inr (.inl ⟨above, rfl, by rw [List.append_assoc, List.singleton_append]⟩)
  · exact .inr (.inr rfl)

/-- The path of a file leads through its directory to its name. -/
theorem components_join (entry : file.IsEntry) :
    components (join directory file) = components directory ++ [file] := by
  rcases entry.join_cases directory with ⟨rfl, joined⟩ | ⟨above, rfl, joined⟩ | joined
  · rw [joined, entry.components_eq]
    rfl
  · have alone : components (above ++ [slash]) = components above ++ [] :=
      components_append_slash above []
    rw [joined, components_append_slash, alone, List.append_nil, entry.components_eq]
  · rw [joined, components_append_slash, entry.components_eq]

theorem base?_join (entry : file.IsEntry) : base? (join directory file) = some file := by
  rw [base?, components_join entry, List.getLast?_concat, Option.bind_some]
  exact if_neg entry.below

/-- The path of a file whose name ends with neither a slash nor a dot is not one of a directory. -/
theorem namesDirectory_join (entry : file.IsEntry) {last : UInt8} (ends : file.getLast? = some last)
    (solid : last ≠ slash) (inked : last ≠ dot) : namesDirectory (join directory file) = false := by
  have same : (join directory file).getLast? = some last := by
    rcases entry.join_cases directory with ⟨rfl, joined⟩ | ⟨above, rfl, joined⟩ | joined
    · rw [joined, ends]
    · rw [joined, List.getLast?_append, List.getLast?_cons, ends]
      rfl
    · rw [joined, List.getLast?_append, List.getLast?_cons, ends]
      rfl
  obtain ⟨init, path⟩ := List.getLast?_eq_some_iff.mp same
  have marked : (init ++ [last]).reverse.take 2 ≠ [dot, slash] := by
    rw [List.reverse_append, List.reverse_singleton, List.singleton_append, List.take_succ_cons]
    intro equal
    exact inked (List.cons.inj equal).1
  have single : init ++ [last] ≠ [dot] := by
    intro equal
    have lasts := congrArg List.getLast? equal
    rw [List.getLast?_concat] at lasts
    exact inked (Option.some.inj lasts)
  rw [path] at same ⊢
  simp only [namesDirectory, same, Option.some.injEq, solid, marked, single, decide_false,
    Bool.or_self]

/-- A name is split at the dot before its extension. -/
theorem split_append {stem extension : FileName} (filled : stem ≠ []) (plain : dot ∉ extension) :
    split (stem ++ dot :: extension) = (stem, some extension) := by
  have taken : (stem ++ dot :: extension).reverse.takeWhile (· ≠ dot) = extension.reverse := by
    have inked : ∀ b ∈ extension.reverse, decide (b ≠ dot) = true := by
      intro b member
      rw [decide_eq_true_eq]
      rintro rfl
      exact plain (List.mem_reverse.mp member)
    rw [List.reverse_append, List.reverse_cons, List.append_assoc,
      List.takeWhile_append_of_pos inked, List.singleton_append,
      List.takeWhile_cons_of_neg (by simp), List.append_nil]
  have length : (stem ++ dot :: extension).length - extension.length - 1 = stem.length := by
    rw [List.length_append, List.length_cons]
    omega
  have shorter : extension.length ≠ (stem ++ dot :: extension).length := by
    rw [List.length_append, List.length_cons]
    omega
  have kept : stem.isEmpty = false := List.isEmpty_eq_false_iff.mpr filled
  simp only [split, taken, List.reverse_reverse, length, List.take_left', shorter, kept,
    Bool.false_eq_true, or_self, ↓reduceIte]

theorem IsEntry.base?_eq (entry : file.IsEntry) : base? file = some file := by
  rw [base?, entry.components_eq, List.getLast?_singleton, Option.bind_some]
  exact if_neg entry.below

/-- The path of a file in a directory tells its name. -/
theorem IsEntry.join_injective {other : FileName} (entry : file.IsEntry) (entry' : other.IsEntry)
    (same : join directory file = join directory other) : file = other := by
  have bases : base? (join directory file) = some file := base?_join entry
  rw [same, base?_join entry'] at bases
  exact (Option.some.inj bases).symm

/-- A name without a dot after its first octet has no extension. -/
theorem split_plain (plain : dot ∉ extension) :
    (split extension).2 = none ∧ (split (dot :: extension)).2 = none := by
  have inked : ∀ b ∈ extension.reverse, decide (b ≠ dot) = true := by
    intro b member
    rw [decide_eq_true_eq]
    rintro rfl
    exact plain (List.mem_reverse.mp member)
  have whole : extension.reverse.takeWhile (· ≠ dot) = extension.reverse :=
    List.takeWhile_eq_self_iff.mpr inked
  have after : (dot :: extension).reverse.takeWhile (· ≠ dot) = extension.reverse := by
    rw [List.reverse_cons, List.takeWhile_append_of_pos inked,
      List.takeWhile_cons_of_neg (by simp), List.append_nil]
  constructor
  · rw [split, whole, List.reverse_reverse, if_pos (.inl rfl)]
  · have bare : ((dot :: extension).take
        ((dot :: extension).length - extension.length - 1)).isEmpty = true := by
      simp
    rw [split, after, List.reverse_reverse, if_pos (.inr bare)]

/-- A name with an extension ends with a dot and the extension, and does not start with them. -/
theorem split_eq_some (ends : (split file).2 = some extension) :
    (split file).1 ≠ [] ∧ file = (split file).1 ++ dot :: extension := by
  by_cases dotted : dot ∈ file.reverse
  · -- The first dot from the end is the last one of the name.
    obtain ⟨after, before, parts, plain⟩ := List.eq_append_cons_of_mem dotted
    have plain : dot ∉ after.reverse := fun member => plain (List.mem_reverse.mp member)
    have parts : file = before.reverse ++ dot :: after.reverse := by
      rw [← List.reverse_reverse file, parts, List.reverse_append, List.reverse_cons,
        List.append_assoc, List.singleton_append]
    by_cases bare : before.reverse = []
    · rw [bare, List.nil_append] at parts
      rw [parts, (split_plain plain).2] at ends
      contradiction
    · rw [parts, split_append bare plain] at ends ⊢
      cases ends
      exact ⟨bare, rfl⟩
  · rw [(split_plain fun member => dotted (List.mem_reverse.mpr member)).1] at ends
    contradiction

end FileName

end Stepwise
