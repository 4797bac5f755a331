import Mathlib.Data.List.TakeWhile
import Stepwise.Proofs.Text.Quoted
import Stepwise.Proofs.Yaml.Cursor
import Stepwise.Yaml.Quotes

/-!
# Quoted texts are read back

A quoted text is read back as a scalar in double quotes if all its characters are legible, and
cannot be read if one is hidden, unless it is a null character or breaks a line
(`Quotes.more?_quoted`).
-/

namespace Stepwise.Yaml.Quotes

open Text (isLegible isLegible_iff isShown quoteChar)

variable {c : Char} {fuel index line column : Nat}

/-- A word with one more character in front. -/
def follow (c : Char) (read : List Char × Cursor × WordEnd) : List Char × Cursor × WordEnd :=
  (c :: read.1, read.2)

private theorem word?_quote (rest : List Char) :
    word? false (fuel + 1) ⟨'"' :: rest, index, line, column⟩ =
      some ([], ⟨'"' :: rest, index, line, column⟩, .quote) := by
  rw [word?.eq_def]
  rfl

private theorem word?_blank (rest : List Char) :
    word? false (fuel + 1) ⟨' ' :: rest, index, line, column⟩ =
      some ([], ⟨' ' :: rest, index, line, column⟩, .blank) := by
  rw [word?.eq_def]
  rfl

private theorem word?_backslash (rest : List Char) (onLine : rest.head?.any isBreak = false) :
    word? false (fuel + 1) ⟨'\\' :: rest, index, line, column⟩ =
      (escaped? rest).bind fun (char, length) =>
        (word? false fuel (Cursor.skip ⟨'\\' :: rest, index, line, column⟩ (length + 1))).map
          (follow char) := by
  have unfolded : word? false (fuel + 1) ⟨'\\' :: rest, index, line, column⟩ =
      if rest.head?.any isBreak then
        some ([], (Cursor.next ⟨'\\' :: rest, index, line, column⟩).lineBreak.2, .joined)
      else (escaped? rest).bind fun escape =>
        (word? false fuel (Cursor.skip ⟨'\\' :: rest, index, line, column⟩ (escape.2 + 1))).bind
          fun read => some (follow escape.1 read) := by
    rw [word?.eq_def]
    rfl
  rw [unfolded, if_neg (Bool.eq_false_iff.mp onLine)]
  simp only [Option.map_eq_bind]
  rfl

private theorem word?_plain (rest : List Char) (quote : c ≠ '"') (backslash : c ≠ '\\')
    (solid : isSpaceOrTab c = false) (onLine : isBreak c = false) :
    word? false (fuel + 1) ⟨c :: rest, index, line, column⟩ =
      (word? false fuel ⟨rest, index + 1, line, column + 1⟩).map (follow c) := by
  rw [word?.eq_def]
  dsimp only
  split
  · next empty => cases empty
  · contradiction
  · contradiction
  · next same => exact absurd (List.cons.inj same).1 quote
  · next same => exact absurd (List.cons.inj same).1 backslash
  · next char others same _ _ _ _ =>
    obtain ⟨rfl, rfl⟩ := List.cons.inj same
    simp only [solid, onLine, Cursor.next_onLine onLine, Bool.or_self, Bool.false_eq_true,
      ↓reduceIte]
    exact (Option.map_eq_bind ..).symm

private theorem word?_escape {e : Char} (rest : List Char) (onLine : isBreak e = false)
    (read : escaped? (e :: rest) = some (c, 1)) :
    word? false (fuel + 1) ⟨'\\' :: e :: rest, index, line, column⟩ =
      (word? false fuel ⟨rest, index + 2, line, column + 2⟩).map (follow c) := by
  have place : Cursor.skip ⟨'\\' :: e :: rest, index, line, column⟩ 2 =
      ⟨rest, index + 2, line, column + 2⟩ := by
    rw [Cursor.skip, Cursor.skip, Cursor.skip, Cursor.next_onLine rfl, Cursor.next_onLine onLine]
  rw [word?_backslash (e :: rest) onLine, read, Option.bind_some]
  exact congrArg (fun place => (word? false fuel place).map (follow c)) place

/-- A legible character but for a space is read back from how it is quoted. -/
theorem word?_quoteChar (rest : List Char) (legible : isLegible c = true) (solid : c ≠ ' ') :
    word? false (fuel + 1) ⟨quoteChar c ++ rest, index, line, column⟩ =
      (word? false fuel ⟨rest, index + (quoteChar c).length, line,
        column + (quoteChar c).length⟩).map (follow c) := by
  by_cases quote : c = '"'
  · subst quote
    exact word?_escape rest rfl rfl
  by_cases backslash : c = '\\'
  · subst backslash
    exact word?_escape rest rfl rfl
  by_cases tab : c = '\t'
  · subst tab
    exact word?_escape rest rfl rfl
  have blank : isSpaceOrTab c = false := by
    rw [isSpaceOrTab, decide_eq_false solid, decide_eq_false tab]
    rfl
  rw [Text.quoteChar_of_isLegible legible quote backslash tab]
  exact word?_plain rest quote backslash blank (Text.isBreak_of_isLegible legible)

/-- A word of legible characters is read back from how it is quoted. -/
theorem word?_flatMap {word : List Char} (rest : List Char)
    (legible : ∀ c ∈ word, isLegible c = true ∧ c ≠ ' ') :
    word? false (fuel + word.length) ⟨word.flatMap quoteChar ++ rest, index, line, column⟩ =
      (word? false fuel ⟨rest, index + (word.flatMap quoteChar).length, line,
        column + (word.flatMap quoteChar).length⟩).map fun read =>
          (word ++ read.1, read.2) := by
  induction word generalizing index column with
  | nil => exact Option.map_id'.symm
  | cons c word ih =>
    obtain ⟨first, others⟩ := List.forall_mem_cons.mp legible
    rw [List.length_cons, ← Nat.add_assoc, List.flatMap_cons, List.append_assoc,
      word?_quoteChar _ first.1 first.2, ih others, Option.map_map, List.length_append,
      Nat.add_assoc, Nat.add_assoc]
    rfl

/-- No word goes on with a hidden character. -/
theorem word?_hidden (rest : List Char) (hidden : isLegible c = false) (solid : c ≠ '\x00')
    (onLine : isBreak c = false) :
    word? false fuel ⟨quoteChar c ++ rest, index, line, column⟩ = none := by
  cases fuel with
  | zero => rw [word?]
  | succ fuel =>
    rw [Text.quoteChar_of_hidden hidden solid onLine]
    exact word?_backslash _ rfl

/-- How a text that is to be quoted begins: with a word of legible characters, after which it ends,
goes on with spaces and something else, or has a hidden character. -/
theorem exists_word (cs : List Char) :
    ∃ word rest, cs = word ++ rest ∧ (∀ c ∈ word, isLegible c = true ∧ c ≠ ' ') ∧
      (rest = [] ∨
        (∃ n others, rest = List.replicate (n + 1) ' ' ++ others ∧ others.head? ≠ some ' ') ∨
          ∃ c others, rest = c :: others ∧ isLegible c = false) := by
  let ordinary : Char → Bool := fun c => isLegible c && c ≠ ' '
  refine ⟨cs.takeWhile ordinary, cs.dropWhile ordinary, List.takeWhile_append_dropWhile.symm,
    fun c member => ?_, ?_⟩
  · simpa [ordinary] using List.mem_takeWhile_imp member
  · cases ends : cs.dropWhile ordinary with
    | nil => exact .inl rfl
    | cons c others =>
      have stopped : ordinary c = false := by
        have first := List.head?_dropWhile_not ordinary cs
        rwa [ends] at first
      right
      by_cases space : c = ' '
      · left
        have spaces : others.takeWhile (· = ' ') =
            List.replicate (others.takeWhile (· = ' ')).length ' ' :=
          List.eq_replicate_of_mem fun d member => by
            simpa using List.mem_takeWhile_imp member
        refine ⟨(others.takeWhile (· = ' ')).length, others.dropWhile (· = ' '), ?_,
          fun again => ?_⟩
        · rw [List.replicate_succ, ← spaces, List.cons_append, List.takeWhile_append_dropWhile,
            space]
        · have first := List.head?_dropWhile_not (· = ' ') others
          rw [again] at first
          cases first
      · right
        refine ⟨c, others, rfl, ?_⟩
        simpa [ordinary, space] using stopped

/-- A scalar ends with a word before a quote. -/
theorem more?_of_quote {c : Cursor} {word rest : List Char} {stop : WordEnd}
    (unmarked : c.atMarker = false) (filled : c.rest ≠ [])
    (read : word? false (c.rest.length + 1) c =
      some (word, ⟨'"' :: rest, index, line, column⟩, stop)) :
    more? false (fuel + 1) c = some (word, ⟨rest, index + 1, line, column + 1⟩) := by
  have nonempty : c.rest.isEmpty = false := List.isEmpty_eq_false_iff.mpr filled
  rw [more?, unmarked, nonempty, read]
  rfl

/-- A scalar goes on after a word and spaces. -/
theorem more?_of_spaces {c : Cursor} {word rest : List Char} {first : Char} {n : Nat}
    (unmarked : c.atMarker = false) (filled : c.rest ≠ [])
    (read : word? false (c.rest.length + 1) c =
      some (word, ⟨List.replicate (n + 1) ' ' ++ first :: rest, index, line, column⟩, .blank))
    (solid : isSpaceOrTab first = false) (onLine : isBreak first = false) :
    more? false (fuel + 1) c =
      (more? false fuel ⟨first :: rest, index + (n + 1), line, column + (n + 1)⟩).map
        fun read => (word ++ List.replicate (n + 1) ' ' ++ read.1, read.2) := by
  have nonempty : c.rest.isEmpty = false := List.isEmpty_eq_false_iff.mpr filled
  have quote : (List.replicate (n + 1) ' ' ++ first :: rest).head? ≠ some '"' := by
    simp [List.replicate_succ]
  have length : (List.replicate (n + 1) ' ' ++ first :: rest).length =
      rest.length + (n + 1) + 1 := by
    rw [List.length_append, List.length_replicate, List.length_cons]
    omega
  rw [more?, unmarked, nonempty, read]
  simp only [Bool.or_self, Bool.false_eq_true, ↓reduceIte, Option.bind_eq_bind, Option.bind_some,
    quote, length, reduceCtorEq, Gap.read?_spaces solid onLine, Gap.text, List.nil_append]
  exact (Option.map_eq_bind ..).symm

/-- What a character but for a space is quoted as begins with no blank. -/
theorem exists_quoteChar (solid : c ≠ ' ') (visible : c ≠ '\x00' ∧ isBreak c = false) :
    ∃ first others, quoteChar c = first :: others ∧ isSpaceOrTab first = false ∧
      isBreak first = false := by
  cases legible : isLegible c with
  | false => exact ⟨_, _, Text.quoteChar_of_hidden legible visible.1 visible.2, rfl, rfl⟩
  | true =>
    by_cases quote : c = '"'
    · subst quote
      exact ⟨_, _, rfl, rfl, rfl⟩
    by_cases backslash : c = '\\'
    · subst backslash
      exact ⟨_, _, rfl, rfl, rfl⟩
    by_cases tab : c = '\t'
    · subst tab
      exact ⟨_, _, rfl, rfl, rfl⟩
    refine ⟨_, _, Text.quoteChar_of_isLegible legible quote backslash tab, ?_, visible.2⟩
    rw [isSpaceOrTab, decide_eq_false solid, decide_eq_false tab]
    rfl

private theorem exists_quoted {cs : List Char} (rest : List Char) (solid : cs.head? ≠ some ' ')
    (visible : ∀ c ∈ cs, c ≠ '\x00' ∧ isBreak c = false) :
    ∃ first others, cs.flatMap quoteChar ++ '"' :: rest = first :: others ∧
      isSpaceOrTab first = false ∧ isBreak first = false := by
  cases cs with
  | nil => exact ⟨_, _, rfl, rfl, rfl⟩
  | cons c cs =>
    have apart : c ≠ ' ' := fun same => solid (congrArg some same)
    obtain ⟨first, others, quoted, blank, onLine⟩ :=
      exists_quoteChar apart (visible c (List.mem_cons_self ..))
    refine ⟨first, others ++ (cs.flatMap quoteChar ++ '"' :: rest), ?_, blank, onLine⟩
    rw [List.flatMap_cons, quoted, List.append_assoc, List.cons_append]

/-- The first word of a quoted text is read as it was before it was quoted. -/
theorem word?_quoted {cs word others : List Char} (rest : List Char) (whole : cs = word ++ others)
    (legible : ∀ c ∈ word, isLegible c = true ∧ c ≠ ' ') :
    word? false ((cs.flatMap quoteChar ++ '"' :: rest).length + 1)
        ⟨cs.flatMap quoteChar ++ '"' :: rest, index, line, column⟩ =
      (word? false ((cs.flatMap quoteChar ++ '"' :: rest).length - word.length + 1)
        ⟨others.flatMap quoteChar ++ '"' :: rest, index + (word.flatMap quoteChar).length, line,
          column + (word.flatMap quoteChar).length⟩).map fun read => (word ++ read.1, read.2) := by
  rw [whole, List.flatMap_append, List.append_assoc, ← word?_flatMap _ legible]
  congr 1
  have short := Text.length_le_flatMap word
  rw [List.length_append]
  omega

/-- A text on one line, without a null character, is read back from how it is quoted if and only if
all its characters are legible. -/
theorem more?_quoted {cs : List Char} (rest : List Char)
    (visible : ∀ c ∈ cs, c ≠ '\x00' ∧ isBreak c = false) (enough : cs.length < fuel)
    (inside : column ≠ 0) :
    more? false fuel ⟨cs.flatMap quoteChar ++ '"' :: rest, index, line, column⟩ =
      if cs.all isLegible then
        some (cs, ⟨rest, index + (cs.flatMap quoteChar).length + 1, line,
          column + (cs.flatMap quoteChar).length + 1⟩)
      else none := by
  -- Each turn takes a word and the spaces after it.
  induction fuel generalizing cs index column with
  | zero => exact absurd enough (Nat.not_lt_zero _)
  | succ fuel ih =>
    have unmarked (rest : List Char) : Cursor.atMarker ⟨rest, index, line, column⟩ = false :=
      Cursor.atMarker_of_column inside
    have filled : cs.flatMap quoteChar ++ '"' :: rest ≠ [] :=
      List.append_ne_nil_of_right_ne_nil _ (List.cons_ne_nil _ _)
    obtain ⟨word, others, whole, legible, ends⟩ := exists_word cs
    have passes : word.all isLegible = true :=
      List.all_eq_true.mpr fun c member => (legible c member).1
    have start : word? false ((cs.flatMap quoteChar ++ '"' :: rest).length + 1)
        ⟨cs.flatMap quoteChar ++ '"' :: rest, index, line, column⟩ = _ :=
      word?_quoted rest whole legible
    have lengths := congrArg List.length whole
    rw [List.length_append] at lengths
    rcases ends with rfl | ⟨n, more, rfl, solid⟩ | ⟨c, more, rfl, hidden⟩
    · rw [List.append_nil] at whole
      subst whole
      rw [List.flatMap_nil, List.nil_append, word?_quote, Option.map_some] at start
      rw [more?_of_quote (unmarked _) filled start, if_pos passes, List.append_nil]
    · have visible (d : Char) (member : d ∈ more) : d ≠ '\x00' ∧ isBreak d = false :=
        visible d (whole ▸ List.mem_append_right _ (List.mem_append_right _ member))
      obtain ⟨first, tail, quoted, blank, onLine⟩ := exists_quoted rest solid visible
      rw [List.flatMap_append, Text.flatMap_quoteChar_spaces, List.append_assoc, quoted,
        List.replicate_succ, List.cons_append, word?_blank, Option.map_some,
        List.append_nil] at start
      rw [List.length_append, List.length_replicate] at lengths
      rw [more?_of_spaces (n := n) (unmarked _) filled start blank onLine, ← quoted,
        ih visible (by omega) (by omega)]
      have spaces : (List.replicate (n + 1) ' ').all isLegible = true :=
        List.all_replicate.trans rfl
      subst whole
      rw [List.all_append, List.all_append, passes, spaces, Bool.true_and, Bool.true_and]
      split
      · simp only [Option.map_some, List.flatMap_append, Text.flatMap_quoteChar_spaces,
          List.length_append, List.length_replicate, List.append_assoc, Option.some.injEq,
          Prod.mk.injEq, Cursor.mk.injEq, true_and]
        omega
      · rfl
    · have visible := visible c (whole ▸ List.mem_append_right _ (List.mem_cons_self ..))
      rw [List.flatMap_cons, List.append_assoc, word?_hidden _ hidden visible.1 visible.2,
        Option.map_none] at start
      have fails : cs.all isLegible = false := by
        rw [whole, List.all_append, List.all_cons, hidden, Bool.false_and, Bool.and_false]
      have nonempty := List.isEmpty_eq_false_iff.mpr filled
      rw [more?, unmarked, nonempty, start, fails]
      rfl

/-- A scalar in double quotes that a text was quoted as. -/
theorem read?_quoted {cs : List Char} (rest : List Char)
    (visible : ∀ c ∈ cs, c ≠ '\x00' ∧ isBreak c = false) (inside : column ≠ 0) :
    read? false ⟨cs.flatMap quoteChar ++ '"' :: rest, index, line, column⟩ =
      if cs.all isLegible then
        some (cs, ⟨rest, index + (cs.flatMap quoteChar).length + 1, line,
          column + (cs.flatMap quoteChar).length + 1⟩)
      else none := by
  have short := Text.length_le_flatMap cs
  have enough : cs.length < (cs.flatMap quoteChar ++ '"' :: rest).length + 1 := by
    rw [List.length_append]
    omega
  exact more?_quoted rest visible enough inside

end Stepwise.Yaml.Quotes
