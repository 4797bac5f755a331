import Stepwise.Yaml.Folding

/-!
# Moving in a YAML text

Where a cursor goes over characters that do not break the line, over a line break, and over spaces.
-/

namespace Stepwise.Yaml

/-- Whether no character of a text breaks the line. -/
def OnLine (cs : List Char) : Prop :=
  ∀ c ∈ cs, isBreak c = false

namespace OnLine

variable {c : Char} {xs : List Char}

theorem nil : OnLine [] := by
  intro c member
  cases member

theorem of_all (unbroken : (xs.all fun c => !isBreak c) = true) : OnLine xs :=
  fun c member => by simpa using List.all_eq_true.mp unbroken c member

theorem head (line : OnLine (c :: xs)) : isBreak c = false :=
  line c (List.mem_cons_self ..)

theorem tail (line : OnLine (c :: xs)) : OnLine xs :=
  fun d member => line d (List.mem_cons_of_mem _ member)

end OnLine

namespace Cursor

variable {c : Char} {word rest : List Char} {index line column : Nat}

theorem next_onLine (plain : isBreak c = false) :
    next ⟨c :: rest, index, line, column⟩ = ⟨rest, index + 1, line, column + 1⟩ := by
  simp only [next, plain, Bool.false_and, Bool.false_eq_true, ↓reduceIte]

theorem skip_onLine (plain : OnLine word) :
    skip ⟨word ++ rest, index, line, column⟩ word.length =
      ⟨rest, index + word.length, line, column + word.length⟩ := by
  induction word generalizing index column with
  | nil => rfl
  | cons c word ih =>
    rw [List.length_cons, skip, List.cons_append, next_onLine plain.head, ih plain.tail]
    congr 1
    · omega
    · omega

theorem takeWhile_onLine {test : Char → Bool} (plain : OnLine word)
    (passed : ∀ c ∈ word, test c = true) (stopped : rest.takeWhile test = []) :
    takeWhile ⟨word ++ rest, index, line, column⟩ test =
      (word, ⟨rest, index + word.length, line, column + word.length⟩) := by
  have taken : (word ++ rest).takeWhile test = word := by
    rw [List.takeWhile_append_of_pos passed, stopped, List.append_nil]
  simp only [takeWhile, taken, skip_onLine plain]

theorem lineBreak_newline :
    lineBreak ⟨'\n' :: rest, index, line, column⟩ = (['\n'], ⟨rest, index + 1, line + 1, 0⟩) :=
  rfl

/-- Whether a line has nothing on it or is a comment. -/
def IsComment (cs : List Char) : Prop :=
  OnLine cs ∧ (cs = [] ∨ cs.head? = some '#')

theorem isComment_nil : IsComment [] :=
  ⟨OnLine.nil, .inl rfl⟩

/-- A comment ends where its line does. -/
theorem skipComment_line (comment : IsComment word) :
    skipComment ⟨word ++ '\n' :: rest, index, line, column⟩ =
      ⟨'\n' :: rest, index + word.length, line, column + word.length⟩ := by
  obtain ⟨onLine, rfl | marked⟩ := comment
  · rfl
  · have head : (word ++ '\n' :: rest).head? = some '#' := by
      rw [List.head?_append, marked]
      rfl
    have taken : takeWhile ⟨word ++ '\n' :: rest, index, line, column⟩ (!isBreak ·) = _ :=
      takeWhile_onLine onLine (fun c member => by rw [onLine c member]; rfl) rfl
    rw [skipComment, if_pos head, taken]

/-- A mark of a document stands at the begin of a line. -/
theorem atMarker_of_column (inside : column ≠ 0) :
    atMarker ⟨rest, index, line, column⟩ = false := by
  simp only [atMarker, inside, decide_false, Bool.false_and]

/-- A mark of a document begins with a hyphen or a dot. -/
theorem atMarker_of_head (hyphen : c ≠ '-') (dot : c ≠ '.') :
    atMarker ⟨c :: rest, index, line, column⟩ = false := by
  rw [atMarker, Bool.and_eq_false_iff]
  right
  split
  · next same => exact absurd (List.cons.inj same).1 hyphen
  · next same => exact absurd (List.cons.inj same).1 dot
  · rfl

end Cursor

namespace Gap

variable {c : Char} {rest : List Char} {indent index line column : Nat}

/-- Nothing is read before a character that is no blank. -/
theorem read?_solid (solid : isSpaceOrTab c = false) (onLine : isBreak c = false) (fuel : Nat)
    (gap : Gap) :
    read? indent fuel gap ⟨c :: rest, index, line, column⟩ =
      some (gap, ⟨c :: rest, index, line, column⟩) := by
  cases fuel with
  | zero => rw [read?]
  | succ fuel => simp only [read?, solid, onLine, Bool.false_eq_true, ↓reduceIte]

theorem read?_newline (fuel : Nat) (spaces : List Char) :
    read? indent (fuel + 1) { spaces } ⟨'\n' :: rest, index, line, column⟩ =
      read? indent fuel { breaks := some (['\n'], []) } ⟨rest, index + 1, line + 1, 0⟩ := by
  rw [read?]
  rfl

theorem read?_newline_again (fuel : Nat) (spaces first others : List Char) :
    read? indent (fuel + 1) { spaces, breaks := some (first, others) }
        ⟨'\n' :: rest, index, line, column⟩ =
      read? indent fuel { spaces, breaks := some (first, others ++ ['\n']) }
        ⟨rest, index + 1, line + 1, 0⟩ := by
  rw [read?]
  rfl

/-- All spaces before a character that is no blank are read. -/
theorem read?_spaces (solid : isSpaceOrTab c = false) (onLine : isBreak c = false) (n fuel : Nat)
    (before : List Char) :
    read? indent (fuel + n + 1) { spaces := before }
        ⟨List.replicate n ' ' ++ c :: rest, index, line, column⟩ =
      some ({ spaces := before ++ List.replicate n ' ' },
        ⟨c :: rest, index + n, line, column + n⟩) := by
  induction n generalizing before index column with
  | zero =>
    rw [List.replicate_zero, List.nil_append, read?_solid solid onLine, List.append_nil]
    rfl
  | succ n ih =>
    have space : isSpaceOrTab ' ' = true := rfl
    rw [List.replicate_succ, List.cons_append, ← Nat.add_assoc, read?]
    simp only [space, ↓reduceIte, Cursor.next_onLine (c := ' ') rfl]
    rw [ih, List.append_assoc, List.singleton_append]
    congr 3
    · omega
    · omega

end Gap

end Stepwise.Yaml
