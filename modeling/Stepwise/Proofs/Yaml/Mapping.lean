import Stepwise.Proofs.Yaml.Layout

/-!
# The tokens of values

What stands after the colon of a key in a plain mapping: a word up to an empty line, a text between
double quotes, or an empty pair of brackets. After the last value the mapping ends with the text.
-/

namespace Stepwise.Yaml.Layout

open Text (isLegible quoteChar)

variable {c : Char} {word rest : List Char} {index line column : Nat} {tokens : List Token}

/-- A space and then a character that begins no blank, after a colon. -/
theorem run?_value {fuel : Nat} (solid : IsSolid c) :
    run? (fuel + 1) (inMapping ⟨' ' :: c :: rest, index, line, column⟩ tokens false) =
      ((inMapping ⟨c :: rest, index + 1, line, column + 1⟩ tokens false).token? c rest).bind
        (run? fuel) := by
  have ends : ∀ d ∈ (c :: rest).head?, IsSolid d := by
    intro d head
    cases head
    exact solid
  exact run?_succ (skipBlanks_spaces 1 ends rfl) (dropStale?_of_none rfl rfl)
    (closeBlocks_of_le (Int.natCast_nonneg _)) rfl

/-- A word that an empty line ends, with the next key after that. -/
theorem reads_word (letters : ∀ c ∈ word, c.isAlphanum = true) (filled : word ≠ [])
    (letter : c.isAlphanum = true) :
    Reads 1
      (inMapping ⟨' ' :: (word ++ '\n' :: '\n' :: c :: rest), index, line, column⟩ tokens false)
      (inMapping ⟨c :: rest, index + 1 + word.length + 2, line + 2, 0⟩
        (.scalar (String.ofList word) .plain :: tokens) true) := by
  intro fuel
  have read : Plain.read? false (0 + 1)
      ⟨word ++ '\n' :: '\n' :: c :: rest, index + 1, line, column + 1⟩ = _ :=
    Plain.read?_newline letters filled letter
  have plain : plain? (inMapping ⟨word ++ '\n' :: '\n' :: c :: rest, index + 1, line, column + 1⟩
      tokens false) =
        some (inMapping ⟨c :: rest, index + 1 + word.length + 2, line + 2, 0⟩
          (.scalar (String.ofList word) .plain :: tokens) true) :=
    congrArg (Option.bind · _) read
  obtain ⟨first, others, rfl⟩ := List.exists_cons_of_ne_nil filled
  have begins := letters first (List.mem_cons_self ..)
  rw [List.cons_append] at plain ⊢
  rw [run?_value (isSolid_of_isAlphanum begins), token?_of_isAlphanum begins rfl, plain]
  rfl

/-- No key may begin after a colon. -/
theorem savePending?_inMapping (c : Cursor) :
    (inMapping c tokens false).savePending? = some (inMapping c tokens false) :=
  rfl

/-- A text between double quotes is read back if all its characters are legible; else the whole text
is refused. -/
theorem run?_quoted {cs : List Char} {fuel : Nat}
    (visible : ∀ c ∈ cs, c ≠ '\x00' ∧ isBreak c = false) :
    run? (fuel + 1)
        (inMapping ⟨' ' :: '"' :: (cs.flatMap quoteChar ++ '"' :: rest), index, line, column⟩ tokens
          false) =
      if cs.all isLegible then
        run? fuel
          (inMapping
            ⟨rest, index + 1 + 1 + (cs.flatMap quoteChar).length + 1, line,
              column + 1 + 1 + (cs.flatMap quoteChar).length + 1⟩
            (.scalar (String.ofList cs) .quoted :: tokens) false)
      else none := by
  have solid : IsSolid '"' := ⟨rfl, rfl, by decide, by decide⟩
  have read : Quotes.read? false
      ⟨cs.flatMap quoteChar ++ '"' :: rest, index + 1 + 1, line, column + 1 + 1⟩ = _ :=
    Quotes.read?_quoted rest visible (Nat.succ_ne_zero _)
  have token (text : List Char) :
      (inMapping ⟨'"' :: text, index + 1, line, column + 1⟩ tokens false).token? '"' text =
        (inMapping ⟨'"' :: text, index + 1, line, column + 1⟩ tokens false).quoted? false := by
    have unmarked : (inMapping ⟨'"' :: text, index + 1, line, column + 1⟩ tokens
        false).cursor.atMarker = false := Cursor.atMarker_of_head (by decide) (by decide)
    simp [token?, unmarked]
  have next : (inMapping
      ⟨'"' :: (cs.flatMap quoteChar ++ '"' :: rest), index + 1, line, column + 1⟩ tokens
      false).cursor.next =
        ⟨cs.flatMap quoteChar ++ '"' :: rest, index + 1 + 1, line, column + 1 + 1⟩ := rfl
  rw [run?_value solid, token, quoted?, content?, savePending?_inMapping, Option.bind_eq_bind,
    Option.bind_some, next, read]
  split
  · rfl
  · rfl

/-- An empty pair of brackets. -/
theorem reads_brackets :
    Reads 2 (inMapping ⟨' ' :: '[' :: ']' :: rest, index, line, column⟩ tokens false)
      (inMapping ⟨rest, index + 3, line, column + 3⟩
        (.flowSequenceEnd :: .flowSequenceStart :: tokens) false) := by
  have opening : Reads 1 (inMapping ⟨' ' :: '[' :: ']' :: rest, index, line, column⟩ tokens false)
      { inMapping ⟨']' :: rest, index + 2, line, column + 2⟩ (.flowSequenceStart :: tokens)
          true with
        outer := [none] } := by
    intro fuel
    have solid : IsSolid '[' := ⟨rfl, rfl, by decide, by decide⟩
    have unmarked : (inMapping ⟨'[' :: ']' :: rest, index + 1, line, column + 1⟩ tokens
        false).cursor.atMarker = false := Cursor.atMarker_of_head (by decide) (by decide)
    have token : (inMapping ⟨'[' :: ']' :: rest, index + 1, line, column + 1⟩ tokens false).token?
        '[' (']' :: rest) =
          (inMapping ⟨'[' :: ']' :: rest, index + 1, line, column + 1⟩ tokens false).openFlow?
            .flowSequenceStart := by
      simp [token?, unmarked]
    rw [run?_value solid, token]
    rfl
  have closing : Reads 1
      { inMapping ⟨']' :: rest, index + 2, line, column + 2⟩ (.flowSequenceStart :: tokens)
          true with
        outer := [none] }
      (inMapping ⟨rest, index + 3, line, column + 3⟩
        (.flowSequenceEnd :: .flowSequenceStart :: tokens) false) := by
    intro fuel
    have ends : ∀ c ∈ (']' :: rest).head?, IsSolid c := by
      intro c head
      cases head
      exact ⟨rfl, rfl, by decide, by decide⟩
    have token (s : Layout) (here : s.cursor = ⟨']' :: rest, index + 2, line, column + 2⟩) :
        s.token? ']' rest = s.closeFlow? .flowSequenceEnd := by
      have unmarked : s.cursor.atMarker = false := by
        rw [here]
        exact Cursor.atMarker_of_head (by decide) (by decide)
      simp [token?, unmarked]
    rw [run?_succ (skipBlanks_spaces 0 ends rfl) rfl rfl rfl, token _ rfl]
    rfl
  exact opening.trans closing

/-- The end of a text ends its mapping. -/
theorem run?_end {fuel : Nat} {keyAllowed : Bool} :
    run? (fuel + 1) (inMapping ⟨['\n'], index, line, column⟩ tokens keyAllowed) =
      some (tokens.reverse ++ [.blockEnd]) := by
  have blank : ∀ line ∈ [[]], Cursor.IsComment line := by simp [Cursor.isComment_nil]
  have ends : ∀ c ∈ ([] : List Char).head?, IsSolid c := by
    intro c head
    cases head
  have read : Reads 0 (inBlock ⟨ofLines [[]] ++ [], index, line, column⟩ tokens 0 [-1] keyAllowed)
      (inMapping ⟨[], index + 1, line + 1, 0⟩ tokens true) := reads_lines blank ends
  refine (read (fuel + 1)).trans ?_
  rw [run?_nil (skipBlanks_spaces 0 ends rfl) (dropStale?_of_none rfl rfl)
    (closeBlocks_of_le (Int.le_refl 0)) rfl]
  exact congrArg some (List.reverse_cons ..)

end Stepwise.Yaml.Layout
