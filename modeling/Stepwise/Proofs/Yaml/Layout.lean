import Stepwise.Proofs.Yaml.Quotes
import Stepwise.Yaml.Layout

/-!
# The tokens of plain mappings

How tokens are taken off a text of keys at the begin of lines: comments and empty lines are passed
over, and each key with its colon, each value and the end of the text give their tokens.
`Layout.Reads` composes such steps.
-/

namespace Stepwise.Yaml

variable {c : Char} {word rest : List Char} {fuel start index line column : Nat}

section Alphanumeric

variable (letter : c.isAlphanum = true)
include letter

private theorem ne_of_isAlphanum (d : Char) (other : d.isAlphanum = false) : c ≠ d := by
  rintro rfl
  rw [letter] at other
  cases other

private theorem isBreak_of_isAlphanum : isBreak c = false := by
  have apart := ne_of_isAlphanum letter
  simp only [isBreak, apart '\n' rfl, apart '\r' rfl, apart '\u0085' rfl, apart '\u2028' rfl,
    apart '\u2029' rfl, decide_false, Bool.or_self]

private theorem isSpaceOrTab_of_isAlphanum : isSpaceOrTab c = false := by
  have apart := ne_of_isAlphanum letter
  simp only [isSpaceOrTab, apart ' ' rfl, apart '\t' rfl, decide_false, Bool.or_self]

end Alphanumeric

private theorem OnLine.of_isAlphanum (letters : ∀ c ∈ word, c.isAlphanum = true) : OnLine word :=
  fun c member => isBreak_of_isAlphanum (letters c member)

namespace Plain

/-- A word of letters and digits ends before a character that ends every word. -/
theorem wordLength?_append (letters : ∀ c ∈ word, c.isAlphanum = true)
    (ends : wordLength? false rest = some 0) :
    wordLength? false (word ++ rest) = some word.length := by
  induction word with
  | nil => exact ends
  | cons c word ih =>
    obtain ⟨letter, others⟩ := List.forall_mem_cons.mp letters
    have colon := ne_of_isAlphanum letter ':' rfl
    rw [List.cons_append, wordLength?, isBreak_of_isAlphanum letter,
      isSpaceOrTab_of_isAlphanum letter, ih others]
    simp [colon]

/-- A plain scalar begins with a word of letters and digits. -/
theorem more?_word {indent : Nat} (letters : ∀ c ∈ word, c.isAlphanum = true) (filled : word ≠ [])
    (ends : wordLength? false rest = some 0) :
    more? false indent (fuel + 1) {} ⟨word ++ rest, index, line, column⟩ =
      if !beginsBlank rest || rest.isEmpty then
        some (word, ⟨rest, index + word.length, line, column + word.length⟩, false)
      else (Gap.read? indent rest.length {}
          ⟨rest, index + word.length, line, column + word.length⟩).bind fun (gap, c) =>
        if c.column < indent then some (word, c, gap.hasBreak)
        else (more? false indent fuel gap c).bind fun (others, c, broken) =>
          some (word ++ others, c, broken) := by
  have unmarked : Cursor.atMarker ⟨word ++ rest, index, line, column⟩ = false ∧
      (word ++ rest).head? ≠ some '#' := by
    obtain ⟨first, others, rfl⟩ := List.exists_cons_of_ne_nil filled
    have apart := ne_of_isAlphanum (letters first (List.mem_cons_self ..))
    refine ⟨Cursor.atMarker_of_head (apart '-' rfl) (apart '.' rfl), ?_⟩
    simpa using apart '#' rfl
  have taken : (word ++ rest).take word.length = word := List.take_left' rfl
  have skipped : Cursor.skip ⟨word ++ rest, index, line, column⟩ word.length =
      ⟨rest, index + word.length, line, column + word.length⟩ :=
    Cursor.skip_onLine (OnLine.of_isAlphanum letters)
  have length : word.length ≠ 0 := mt List.length_eq_zero_iff.mp filled
  rw [more?, unmarked.1, wordLength?_append letters ends]
  simp only [unmarked.2, taken, skipped, length, Bool.false_or, Bool.not_false, Bool.true_and,
    decide_eq_true_eq, Bool.false_eq_true, decide_false, ↓reduceIte, Option.bind_eq_bind,
    Option.bind_some]
  rfl

/-- A plain scalar of one word that a colon ends. -/
theorem read?_colon {indent : Nat} (letters : ∀ c ∈ word, c.isAlphanum = true)
    (filled : word ≠ []) :
    read? false indent ⟨word ++ ':' :: ' ' :: rest, index, line, column⟩ =
      some (word, ⟨':' :: ' ' :: rest, index + word.length, line, column + word.length⟩,
        false) := by
  have ends : wordLength? false (':' :: ' ' :: rest) = some 0 := rfl
  rw [read?, more?_word letters filled ends]
  rfl

/-- A plain scalar of one word that an empty line ends, with less indented text after that. -/
theorem read?_newline {indent : Nat} (letters : ∀ c ∈ word, c.isAlphanum = true)
    (filled : word ≠ []) (letter : c.isAlphanum = true) :
    read? false (indent + 1) ⟨word ++ '\n' :: '\n' :: c :: rest, index, line, column⟩ =
      some (word, ⟨c :: rest, index + word.length + 2, line + 2, 0⟩, true) := by
  have ends : wordLength? false ('\n' :: '\n' :: c :: rest) = some 0 := rfl
  have gap : Gap.read? (indent + 1) ('\n' :: '\n' :: c :: rest).length {}
      ⟨'\n' :: '\n' :: c :: rest, index + word.length, line, column + word.length⟩ =
        some ({ breaks := some (['\n'], ['\n']) },
          ⟨c :: rest, index + word.length + 2, line + 2, 0⟩) := by
    rw [List.length_cons, Gap.read?_newline, List.length_cons, Gap.read?_newline_again,
      Gap.read?_solid (isSpaceOrTab_of_isAlphanum letter) (isBreak_of_isAlphanum letter)]
    rfl
  rw [read?, more?_word letters filled ends, gap]
  rfl

end Plain

namespace Layout

/-- Whether no blank, comment or line break begins with a character. -/
def IsSolid (c : Char) : Prop :=
  isSpaceOrTab c = false ∧ isBreak c = false ∧ c ≠ '#' ∧ c ≠ '\uFEFF'

theorem isSolid_of_isAlphanum (letter : c.isAlphanum = true) : IsSolid c :=
  ⟨isSpaceOrTab_of_isAlphanum letter, isBreak_of_isAlphanum letter,
    ne_of_isAlphanum letter '#' rfl, ne_of_isAlphanum letter '\uFEFF' rfl⟩

variable {s : Layout}

/-- The place after the spaces on a line that goes on with no blank. -/
theorem takeWhile_spaces (tabs : Bool) (n : Nat) (ends : ∀ c ∈ rest.head?, isSpaceOrTab c = false) :
    Cursor.takeWhile ⟨List.replicate n ' ' ++ rest, index, line, column⟩
        (fun char => char = ' ' || (tabs && char = '\t')) =
      (List.replicate n ' ', ⟨rest, index + n, line, column + n⟩) := by
  have stopped : rest.takeWhile (fun char => char = ' ' || (tabs && char = '\t')) = [] := by
    cases rest with
    | nil => rfl
    | cons c rest =>
      obtain ⟨space, tab⟩ := Bool.or_eq_false_iff.mp (ends c rfl)
      rw [List.takeWhile_cons, space, tab, Bool.and_false]
      rfl
  have spaces : OnLine (List.replicate n ' ') := by
    intro c member
    rw [List.eq_of_mem_replicate member]
    rfl
  have taken : Cursor.takeWhile ⟨List.replicate n ' ' ++ rest, index, line, column⟩
      (fun char => char = ' ' || (tabs && char = '\t')) = _ :=
    Cursor.takeWhile_onLine spaces
      (fun c member => by rw [List.eq_of_mem_replicate member]; rfl) stopped
  rwa [List.length_replicate] at taken

/-- Spaces are passed over before a token and before the end. -/
theorem skipBlanks_spaces (n : Nat) (ends : ∀ c ∈ rest.head?, IsSolid c)
    (here : s.cursor = ⟨List.replicate n ' ' ++ rest, index, line, column⟩) :
    skipBlanks (fuel + 1) s = { s with cursor := ⟨rest, index + n, line, column + n⟩ } := by
  have unmarked : (List.replicate n ' ' ++ rest).head? ≠ some '\uFEFF' := by
    intro marked
    cases n with
    | zero => exact (ends _ marked).2.2.2 rfl
    | succ n => cases marked
  have uncommented : rest.head? ≠ some '#' := fun comment => (ends _ comment).2.2.1 rfl
  have onLine : rest.head?.any isBreak = false := by
    cases rest with
    | nil => rfl
    | cons c rest => exact (ends c rfl).2.1
  rw [skipBlanks, here]
  simp only [unmarked, decide_false, Bool.and_false, Bool.false_eq_true, ↓reduceIte,
    takeWhile_spaces _ n fun c first => (ends c first).1, Cursor.skipComment, uncommented, onLine]

/-- An empty line, and one that is a comment, is passed over, and a key may begin after it. -/
theorem skipBlanks_line (comment : Cursor.IsComment word) (outside : s.outer = [])
    (here : s.cursor = ⟨word ++ '\n' :: rest, index, line, column⟩) :
    skipBlanks (fuel + 1) s =
      skipBlanks fuel { s with
        cursor := ⟨rest, index + word.length + 1, line + 1, 0⟩
        keyAllowed := true } := by
  have first : (word ++ '\n' :: rest).head? = some '\n' ∨
      (word ++ '\n' :: rest).head? = some '#' := by
    obtain ⟨-, rfl | marked⟩ := comment
    · exact .inl rfl
    · right
      rw [List.head?_append, marked]
      rfl
  have solid : ∀ c ∈ (word ++ '\n' :: rest).head?, isSpaceOrTab c = false := by
    intro c head
    rcases first with first | first
    · cases head.symm.trans first
      rfl
    · cases head.symm.trans first
      rfl
  have unmarked : (word ++ '\n' :: rest).head? ≠ some '\uFEFF' := by
    intro head
    rcases first with first | first
    · cases head.symm.trans first
    · cases head.symm.trans first
  have blanks (tabs : Bool) : Cursor.takeWhile ⟨word ++ '\n' :: rest, index, line, column⟩
      (fun char => char = ' ' || (tabs && char = '\t')) =
        ([], ⟨word ++ '\n' :: rest, index, line, column⟩) :=
    takeWhile_spaces tabs 0 solid
  have flow : s.inFlow = false := by
    rw [inFlow, outside]
    rfl
  have breaks : isBreak '\n' = true := rfl
  rw [skipBlanks, here]
  simp only [unmarked, decide_false, Bool.and_false, Bool.false_eq_true, ↓reduceIte, blanks,
    Cursor.skipComment_line comment, List.head?_cons, Option.any_some, breaks,
    Cursor.lineBreak_newline, flow, Bool.not_false, Bool.or_true]

/-- One token is taken off the text after the blanks. -/
theorem run?_succ {s' : Layout} (skipped : skipBlanks (s.cursor.rest.length + 1) s = s')
    (fresh : s'.dropStale? = some s') (closed : s'.closeBlocks s'.cursor.column = s')
    (here : s'.cursor.rest = c :: rest) :
    run? (fuel + 1) s = (s'.token? c rest).bind (run? fuel) := by
  rw [run?, skipped, fresh]
  simp only [Option.bind_eq_bind, Option.bind_some, closed, here]

/-- Nothing but blanks before the end of the text. -/
theorem run?_nil {s' : Layout} (skipped : skipBlanks (s.cursor.rest.length + 1) s = s')
    (fresh : s'.dropStale? = some s') (closed : s'.closeBlocks s'.cursor.column = s')
    (here : s'.cursor.rest = []) : run? (fuel + 1) s = s'.finish? := by
  rw [run?, skipped, fresh]
  simp only [Option.bind_eq_bind, Option.bind_some, closed, here]

theorem dropStale?_of_none (pending : s.pending = none) (outside : s.outer = []) :
    s.dropStale? = some s := by
  obtain ⟨cursor, tokens, count, indent, indents, pending, outer, keyAllowed⟩ := s
  cases pending
  cases outside
  rfl

theorem closeBlocks_of_le {column : Int} (within : s.indent ≤ column) :
    s.closeBlocks column = s := by
  rw [closeBlocks]
  split
  · rfl
  · cases s.indents with
    | nil => rw [closeFrom]
    | cons outer indents => rw [closeFrom, if_neg (Int.not_lt.mpr within)]

/-- Taking tokens off a text comes from one state to another in a number of turns. -/
def Reads (turns : Nat) (s t : Layout) : Prop :=
  ∀ fuel, run? (fuel + turns) s = run? fuel t

theorem Reads.trans {m n : Nat} {t u : Layout} (first : Reads m s t) (second : Reads n t u) :
    Reads (n + m) s u := by
  intro fuel
  rw [← Nat.add_assoc, first, second]

/-- A word of letters and digits begins a plain scalar. -/
theorem token?_of_isAlphanum (letter : c.isAlphanum = true)
    (here : s.cursor = ⟨c :: rest, index, line, column⟩) : s.token? c rest = s.plain? := by
  have apart := ne_of_isAlphanum letter
  have unmarked : s.cursor.atMarker = false := by
    rw [here]
    exact Cursor.atMarker_of_head (apart '-' rfl) (apart '.' rfl)
  have begins : beginsPlain s.inFlow s.cursor.rest = true := by
    have listed : c ∉ "-?:,[]\x7b\x7d#&*!|>'\"%@`".toList := by
      intro member
      have indicators :
          ("-?:,[]\x7b\x7d#&*!|>'\"%@`".toList.all fun d => !d.isAlphanum) = true := by decide
      have other := List.all_eq_true.mp indicators c member
      rw [letter] at other
      cases other
    rw [here]
    simp only [beginsPlain, isSpaceOrTab_of_isAlphanum letter, isBreak_of_isAlphanum letter, listed,
      decide_false, Bool.or_self, Bool.not_false, Bool.true_or]
  rw [token?]
  simp only [unmarked, begins, apart '%' rfl, apart '[' rfl, apart ']' rfl, apart '\x7b' rfl,
    apart '\x7d' rfl, apart ',' rfl, apart '-' rfl, apart '?' rfl, apart ':' rfl, apart '*' rfl,
    apart '&' rfl, apart '!' rfl, apart '|' rfl, apart '>' rfl, apart '\'' rfl, apart '"' rfl,
    and_false, false_and, Bool.false_eq_true, ↓reduceIte]

/-- The state at a place outside of brackets where no key is pending. -/
def inBlock (cursor : Cursor) (tokens : List Token) (indent : Int) (indents : List Int)
    (keyAllowed : Bool) : Layout :=
  { cursor, tokens, count := tokens.length, indent, indents, keyAllowed }

/-- Inside of the mapping of a document. -/
def inMapping (cursor : Cursor) (tokens : List Token) (keyAllowed : Bool) : Layout :=
  inBlock cursor tokens 0 [-1] keyAllowed

/-- The state after a scalar that may be a key. -/
def pendingAt (cursor : Cursor) (scalar : Token) (tokens : List Token) (indent : Int)
    (indents : List Int) (key : PendingKey) : Layout :=
  { inBlock cursor (scalar :: tokens) indent indents false with pending := some key }

section Key

variable {tokens : List Token} {indent : Int} {indents : List Int}

/-- A plain scalar that a colon ends may be a key. -/
theorem plain?_colon (letters : ∀ c ∈ word, c.isAlphanum = true) (filled : word ≠ []) :
    plain? (inBlock ⟨word ++ ':' :: ' ' :: rest, index, line, column⟩ tokens indent indents true) =
      some (pendingAt ⟨':' :: ' ' :: rest, index + word.length, line, column + word.length⟩
        (.scalar (String.ofList word) .plain) tokens indent indents
        ⟨tokens.length, index, line, column, indent = column⟩) := by
  have read : Plain.read? false (indent + 1).toNat
      ⟨word ++ ':' :: ' ' :: rest, index, line, column⟩ = _ := Plain.read?_colon letters filled
  have saved : savePending? (inBlock ⟨word ++ ':' :: ' ' :: rest, index, line, column⟩ tokens indent
      indents true) =
        some
          { inBlock ⟨word ++ ':' :: ' ' :: rest, index, line, column⟩ tokens indent indents
              true with
            pending := some ⟨tokens.length, index, line, column, indent = column⟩ } := rfl
  rw [plain?, saved, Option.bind_eq_bind, Option.bind_some]
  exact congrArg (Option.bind · _) read

/-- A scalar on the same line, not too far away, may still be a key. -/
theorem dropStale?_of_near {key : PendingKey} (pending : s.pending = some key)
    (outside : s.outer = []) (same : key.line = s.cursor.line)
    (near : s.cursor.index ≤ key.index + 1024) : s.dropStale? = some s := by
  obtain ⟨cursor, tokens, count, indent, indents, known, outer, keyAllowed⟩ := s
  cases pending
  cases outside
  have valid : isStale cursor key = false := by
    rw [isStale, Bool.or_eq_false_iff, decide_eq_false_iff_not, decide_eq_false_iff_not, same]
    exact ⟨Nat.lt_irrefl _, Nat.not_lt.mpr near⟩
  simp only [dropStale?, refresh?, valid]
  rfl

/-- The indentation of the first key, and that of the others. -/
def IsTop (indent : Int) (indents : List Int) : Prop :=
  indent = -1 ∧ indents = [] ∨ indent = 0 ∧ indents = [-1]

/-- A colon makes a key of the scalar before it. The first key opens the mapping. -/
theorem value?_pending (scalar : Token) (start : Nat) (required : Bool)
    (top : IsTop indent indents) :
    value? (pendingAt ⟨':' :: ' ' :: rest, index, line, column⟩ scalar tokens indent indents
        ⟨tokens.length, start, line, 0, required⟩) =
      some (inMapping ⟨' ' :: rest, index + 1, line, column + 1⟩
        (.value :: scalar :: .key :: (if indent < 0 then .mappingStart :: tokens else tokens))
        false) := by
  have one : tokens.length + 1 - tokens.length = 1 := Nat.add_sub_cancel_left ..
  have two : tokens.length + 1 + 1 - tokens.length = 2 := Nat.add_sub_cancel_left (m := 2) ..
  rcases top with ⟨rfl, rfl⟩ | ⟨rfl, rfl⟩
  · simp only [value?, pendingAt, inBlock, pushAt, openBlock, List.length_cons, one, two]
    rfl
  · simp only [value?, pendingAt, inBlock, pushAt, openBlock, List.length_cons, one]
    rfl

private theorem token?_colon {s : Layout}
    (here : s.cursor = ⟨':' :: ' ' :: rest, index, line, column⟩) :
    s.token? ':' (' ' :: rest) = s.value? := by
  have unmarked : s.cursor.atMarker = false := by
    rw [here]
    exact Cursor.atMarker_of_head (by decide) (by decide)
  have blank : beginsBlank (' ' :: rest) = true := rfl
  simp [token?, unmarked, blank]

/-- A word with a colon after it at the begin of a line is a key. -/
theorem reads_key (letters : ∀ c ∈ word, c.isAlphanum = true) (filled : word ≠ [])
    (short : word.length ≤ 1024) (top : IsTop indent indents) :
    Reads 2 (inBlock ⟨word ++ ':' :: ' ' :: rest, index, line, 0⟩ tokens indent indents true)
      (inMapping ⟨' ' :: rest, index + word.length + 1, line, 0 + word.length + 1⟩
        (.value :: .scalar (String.ofList word) .plain :: .key ::
          (if indent < 0 then .mappingStart :: tokens else tokens)) false) := by
  have bound : indent ≤ 0 := by
    rcases top with ⟨rfl, -⟩ | ⟨rfl, -⟩
    · decide
    · exact Int.le_refl 0
  have scalar : Reads 1
      (inBlock ⟨word ++ ':' :: ' ' :: rest, index, line, 0⟩ tokens indent indents true)
      (pendingAt ⟨':' :: ' ' :: rest, index + word.length, line, 0 + word.length⟩
        (.scalar (String.ofList word) .plain) tokens indent indents
        ⟨tokens.length, index, line, 0, indent = (0 : Nat)⟩) := by
    intro fuel
    have read : plain? (inBlock ⟨word ++ ':' :: ' ' :: rest, index, line, 0⟩ tokens indent indents
        true) = _ := plain?_colon letters filled
    obtain ⟨first, others, rfl⟩ := List.exists_cons_of_ne_nil filled
    have letter := letters first (List.mem_cons_self ..)
    have solid : ∀ c ∈ (first :: others ++ ':' :: ' ' :: rest).head?, IsSolid c := by
      intro c head
      cases head
      exact isSolid_of_isAlphanum letter
    rw [run?_succ (skipBlanks_spaces 0 solid rfl) (dropStale?_of_none rfl rfl)
      (closeBlocks_of_le bound) rfl, token?_of_isAlphanum letter rfl]
    exact congrArg (Option.bind · _) read
  refine scalar.trans fun fuel => ?_
  have solid : ∀ c ∈ (':' :: ' ' :: rest).head?, IsSolid c := by
    intro c head
    cases head
    exact ⟨rfl, rfl, by decide, by decide⟩
  rw [run?_succ (skipBlanks_spaces 0 solid rfl)
    (dropStale?_of_near rfl rfl rfl (Nat.add_le_add_left short index))
    (closeBlocks_of_le (Int.le_trans bound (Int.natCast_nonneg _))) rfl, token?_colon rfl]
  exact congrArg (Option.bind · _) (value?_pending _ index _ top)

def ofLines (lines : List (List Char)) : List Char :=
  lines.flatMap (· ++ ['\n'])

theorem ofLines_cons (first : List Char) (lines : List (List Char)) :
    ofLines (first :: lines) = first ++ '\n' :: ofLines lines := by
  rw [ofLines, List.flatMap_cons, List.append_assoc, List.singleton_append]
  rfl

private theorem length_ofLines_cons (first : List Char) (lines : List (List Char)) :
    (ofLines (first :: lines)).length = first.length + 1 + (ofLines lines).length := by
  rw [ofLines_cons, List.length_append, List.length_cons]
  omega

private theorem length_le_ofLines (lines : List (List Char)) :
    lines.length ≤ (ofLines lines).length := by
  induction lines with
  | nil => exact Nat.le_refl 0
  | cons first lines ih =>
    rw [length_ofLines_cons, List.length_cons]
    omega

/-- Lines that are empty or comments are passed over from the begin of one on. -/
theorem skipBlanks_ofLines {lines : List (List Char)}
    (comments : ∀ line ∈ lines, Cursor.IsComment line) (ends : ∀ c ∈ rest.head?, IsSolid c)
    (enough : lines.length < fuel) :
    skipBlanks fuel (inBlock ⟨ofLines lines ++ rest, index, line, 0⟩ tokens indent indents true) =
      inBlock ⟨rest, index + (ofLines lines).length, line + lines.length, 0⟩ tokens indent indents
        true := by
  induction lines generalizing index line fuel with
  | nil =>
    obtain ⟨fuel, rfl⟩ := Nat.exists_eq_add_one.mpr enough
    exact skipBlanks_spaces 0 ends rfl
  | cons first lines ih =>
    obtain ⟨comment, others⟩ := List.forall_mem_cons.mp comments
    obtain ⟨fuel, rfl⟩ := Nat.exists_eq_add_one.mpr (Nat.zero_lt_of_lt enough)
    rw [ofLines_cons, List.append_assoc, List.cons_append, skipBlanks_line comment rfl rfl]
    have index_eq : index + first.length + 1 + (ofLines lines).length =
        index + (first ++ '\n' :: ofLines lines).length := by
      rw [List.length_append, List.length_cons]
      omega
    have line_eq : line + 1 + lines.length = line + (first :: lines).length := by
      rw [List.length_cons]
      omega
    rw [← index_eq, ← line_eq]
    exact ih others (Nat.lt_of_succ_lt_succ enough)

/-- What is left of a line and the lines after it are passed over when nothing but comments is
there, and a key may begin after them. -/
theorem reads_lines {first : List Char} {lines : List (List Char)} {keyAllowed : Bool}
    (comments : ∀ line ∈ first :: lines, Cursor.IsComment line)
    (ends : ∀ c ∈ rest.head?, IsSolid c) :
    Reads 0
      (inBlock ⟨ofLines (first :: lines) ++ rest, index, line, column⟩ tokens indent indents
        keyAllowed)
      (inBlock ⟨rest, index + (ofLines (first :: lines)).length, line + (first :: lines).length, 0⟩
        tokens indent indents true) := by
  obtain ⟨comment, others⟩ := List.forall_mem_cons.mp comments
  intro fuel
  cases fuel with
  | zero => rfl
  | succ fuel =>
    have enough : lines.length < (ofLines (first :: lines) ++ rest).length := by
      have below := length_le_ofLines lines
      rw [List.length_append, length_ofLines_cons]
      omega
    have index_eq : index + first.length + 1 + (ofLines lines).length =
        index + (ofLines (first :: lines)).length := by
      rw [length_ofLines_cons]
      omega
    have line_eq : line + 1 + lines.length = line + (first :: lines).length := by
      rw [List.length_cons]
      omega
    have here : ofLines (first :: lines) ++ rest = first ++ '\n' :: (ofLines lines ++ rest) := by
      rw [ofLines_cons, List.append_assoc, List.cons_append]
    have skipped : skipBlanks ((ofLines (first :: lines) ++ rest).length + 1)
        (inBlock ⟨ofLines (first :: lines) ++ rest, index, line, column⟩ tokens indent indents
          keyAllowed) =
        inBlock ⟨rest, index + (ofLines (first :: lines)).length, line + (first :: lines).length, 0⟩
          tokens indent indents true := by
      rw [← index_eq, ← line_eq]
      refine (skipBlanks_line comment rfl (congrArg (Cursor.mk · index line column) here)).trans ?_
      exact skipBlanks_ofLines others ends enough
    have stays : skipBlanks (rest.length + 1)
        (inBlock
          ⟨rest, index + (ofLines (first :: lines)).length, line + (first :: lines).length, 0⟩
          tokens indent indents true) = _ := skipBlanks_spaces 0 ends rfl
    rw [run?, run?]
    exact congrArg (fun s : Layout => s.dropStale?.bind _) (skipped.trans stays.symm)

end Key

end Layout

end Stepwise.Yaml
