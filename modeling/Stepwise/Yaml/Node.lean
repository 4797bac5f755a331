import Stepwise.Yaml.Layout

/-!
# Nodes

A YAML document is a tree of scalars, sequences and mappings; its nodes may have a tag, and an
anchor by which aliases refer to them. `Tree.ofText?` reads the only document of a text.

Anchors are numbered: a new anchor gets the number of the names that were in use before it. An
anchor whose name is in use already may so share its number with another one; of the nodes with one
number, the one that begins last is meant.
-/

namespace Stepwise.Yaml

/-- A node of a document. -/
inductive Node where
  | scalar (text : String) (style : Style) (tag : Option String)
  | sequence (tag : Option String) (items : List Node)
  | mapping (tag : Option String) (entries : List (Node × Node))
  /-- The node with the number of an anchor. -/
  | alias (number : Nat)
deriving Repr

/-- A node with an anchor: its number, and its place in the order in which nodes begin. -/
structure Anchored where
  number : Nat
  place : Nat
  node : Node
deriving Repr

/-- A document: its root, unless the text is empty, the nodes with anchors, and its size. -/
structure Tree where
  root : Option Node
  anchored : List Anchored
  /-- Two for each sequence and mapping, one for each other node. -/
  size : Nat
deriving Repr

namespace Tree

/-- The node that an alias refers to. -/
def target? (t : Tree) (number : Nat) : Option Node :=
  let named := t.anchored.filter (·.number = number)
  let last := named.foldl (fun place a => max place a.place) 0
  (named.find? (·.place = last)).map (·.node)

end Tree

/-- The state of reading nodes off tokens. -/
structure Composer where
  tokens : List Token
  /-- What tag handles stand for. -/
  handles : List (String × String)
  /-- The numbers of anchors by name. -/
  numbers : List (String × Nat) := []
  anchored : List Anchored := []
  size : Nat := 0

namespace Composer

def peek? (s : Composer) : Option Token :=
  s.tokens.head?

def skip (s : Composer) : Composer :=
  { s with tokens := s.tokens.tail }

/-- The state after more of the document. -/
def grown (s : Composer) (n : Nat) : Composer :=
  { s with size := s.size + n }

/-- Whether the next token is one of some; at the end of the text none is. -/
def nextIn (s : Composer) (tokens : List Token) : Bool :=
  s.peek?.any (· ∈ tokens)

/-- A scalar that is left out. -/
def emptyNode (tag : Option String) (s : Composer) : Node × Composer :=
  (.scalar "" .plain tag, s.grown 1)

def fullTag? (s : Composer) (tag : Tag) : Option String :=
  if tag.handle = "" then some tag.suffix
  else (s.handles.find? (·.1 = tag.handle)).map fun (_, mark) => mark ++ tag.suffix

def properties (s : Composer) : Option String × Option Tag × Composer :=
  match s.tokens with
  | .anchor name :: .tag tag :: rest => (some name, some tag, { s with tokens := rest })
  | .tag tag :: .anchor name :: rest => (some name, some tag, { s with tokens := rest })
  | .anchor name :: rest => (some name, none, { s with tokens := rest })
  | .tag tag :: rest => (none, some tag, { s with tokens := rest })
  | _ => (none, none, s)

def number (s : Composer) (name : String) : Nat × Composer :=
  let number := s.numbers.length
  (number, { s with numbers := (name, number) :: s.numbers.filter (·.1 ≠ name) })

mutual

/-- The next node. `block` says whether indentation may make a collection, and `bare` whether a
sequence may begin with a hyphen that is not indented. -/
def node? : Nat → (block bare : Bool) → Composer → Option (Node × Composer)
  | 0, _, _, _ => none
  | fuel + 1, block, bare, s =>
    match s.peek? with
    | some (.alias name) => do
      let (_, number) ← s.numbers.find? (·.1 = name)
      some (.alias number, s.skip.grown 1)
    | _ => do
      let (anchor, tag, s) := s.properties
      let tag ← match tag with
        | none => some none
        | some tag => (s.fullTag? tag).map some
      match anchor with
      | none => content? fuel block bare false tag s
      | some name =>
        let place := s.size
        let (number, s) := s.number name
        let (node, s) ← content? fuel block bare true tag s
        some (node, { s with anchored := ⟨number, place, node⟩ :: s.anchored })

def content? : Nat → (block bare anchored : Bool) → Option String → Composer →
    Option (Node × Composer)
  | 0, _, _, _, _, _ => none
  | fuel + 1, block, bare, anchored, tag, s =>
    match s.peek? with
    | some (.scalar text style) =>
      some (.scalar text style (if tag = some "!" then none else tag), s.skip.grown 1)
    | some .item =>
      if bare then do
        let (items, s) ← bareItems? fuel (s.grown 1)
        some (.sequence tag items, s.grown 1)
      else if anchored || tag.isSome then some (s.emptyNode tag)
      else none
    | some .flowSequenceStart => do
      let (items, s) ← flowItems? fuel true (s.skip.grown 1)
      some (.sequence tag items, s.grown 1)
    | some .flowMappingStart => do
      let (entries, s) ← flowEntries? fuel true (s.skip.grown 1)
      some (.mapping tag entries, s.grown 1)
    | next =>
      if block && next = some .sequenceStart then do
        let (items, s) ← blockItems? fuel (s.skip.grown 1)
        some (.sequence tag items, s.grown 1)
      else if block && next = some .mappingStart then do
        let (entries, s) ← blockEntries? fuel (s.skip.grown 1)
        some (.mapping tag entries, s.grown 1)
      else if anchored || tag.isSome then some (s.emptyNode tag)
      else none

def blockItems? : Nat → Composer → Option (List Node × Composer)
  | 0, _ => none
  | fuel + 1, s =>
    match s.peek? with
    | some .item => do
      let s := s.skip
      let (node, s) ← if s.nextIn [.item, .blockEnd] then some (s.emptyNode none)
        else node? fuel true false s
      let (nodes, s) ← blockItems? fuel s
      some (node :: nodes, s)
    | some .blockEnd => some ([], s.skip)
    | _ => none

def bareItems? : Nat → Composer → Option (List Node × Composer)
  | 0, _ => none
  | fuel + 1, s =>
    match s.peek? with
    | some .item => do
      let s := s.skip
      let (node, s) ← if s.nextIn [.item, .key, .value, .blockEnd] then some (s.emptyNode none)
        else node? fuel true false s
      let (nodes, s) ← bareItems? fuel s
      some (node :: nodes, s)
    | _ => some ([], s)

/-- The value of an indented mapping's entry. -/
def blockValue? : Nat → Composer → Option (Node × Composer)
  | 0, _ => none
  | fuel + 1, s =>
    if s.peek? = some .value then
      let s := s.skip
      if s.nextIn [.key, .value, .blockEnd] then some (s.emptyNode none)
      else node? fuel true true s
    else some (s.emptyNode none)

def blockEntries? : Nat → Composer → Option (List (Node × Node) × Composer)
  | 0, _ => none
  | fuel + 1, s =>
    match s.peek? with
    | some .key => do
      let s := s.skip
      let (key, s) ← if s.nextIn [.key, .value, .blockEnd] then some (s.emptyNode none)
        else node? fuel true true s
      let (value, s) ← blockValue? fuel s
      let (entries, s) ← blockEntries? fuel s
      some ((key, value) :: entries, s)
    | some .blockEnd => some ([], s.skip)
    | _ => none

/-- The value of an entry inside of brackets that `close` ends. -/
def flowValue? : Nat → (close : Token) → Composer → Option (Node × Composer)
  | 0, _, _ => none
  | fuel + 1, close, s =>
    if s.peek? = some .value then
      let s := s.skip
      if s.nextIn [.comma, close] then some (s.emptyNode none) else node? fuel false false s
    else some (s.emptyNode none)

/-- The only entry of a mapping that is an item of a bracketed sequence. Where its key is left out,
the next token is passed over. -/
def flowPair? : Nat → Composer → Option (Node × Composer)
  | 0, _ => none
  | fuel + 1, s => do
    let s := s.skip.grown 1
    let (key, s) ← if s.nextIn [.value, .comma, .flowSequenceEnd] then some (s.skip.emptyNode none)
      else node? fuel false false s
    let (value, s) ← flowValue? fuel .flowSequenceEnd s
    some (.mapping none [(key, value)], s.grown 1)

def flowItems? : Nat → (first : Bool) → Composer → Option (List Node × Composer)
  | 0, _, _ => none
  | fuel + 1, first, s =>
    if s.peek? = some .flowSequenceEnd then some ([], s.skip)
    else do
      let s ← if first then some s else if s.peek? = some .comma then some s.skip else none
      if s.peek? = some .flowSequenceEnd then some ([], s.skip)
      else
        let (node, s) ← if s.peek? = some .key then flowPair? fuel s else node? fuel false false s
        let (nodes, s) ← flowItems? fuel false s
        some (node :: nodes, s)

def flowEntries? : Nat → (first : Bool) → Composer → Option (List (Node × Node) × Composer)
  | 0, _, _ => none
  | fuel + 1, first, s =>
    if s.peek? = some .flowMappingEnd then some ([], s.skip)
    else do
      let s ← if first then some s else if s.peek? = some .comma then some s.skip else none
      if s.peek? = some .flowMappingEnd then some ([], s.skip)
      else
        let (entry, s) ← if s.peek? = some .key then do
            let s := s.skip
            let (key, s) ←
              if s.nextIn [.value, .comma, .flowMappingEnd] then some (s.emptyNode none)
              else node? fuel false false s
            let (value, s) ← flowValue? fuel .flowMappingEnd s
            some ((key, value), s)
          else do
            let (key, s) ← node? fuel false false s
            let (value, s) := s.emptyNode none
            some ((key, value), s)
        let (entries, s) ← flowEntries? fuel false s
        some (entry :: entries, s)

end

/-- The handles that every document knows. -/
def commonHandles : List (String × String) :=
  [("!", "!"), ("!!", "tag:yaml.org,2002:")]

/-- Read the directives before a document: the handles they declare, and the tokens after them.
There is at most one version, and it is 1.1 or 1.2; no handle is declared twice. -/
def directives? (versioned : Bool) (handles : List (String × String)) :
    List Token → Option (List (String × String) × List Token)
  | .directive (.version major minor) :: rest =>
    if versioned ∨ major ≠ 1 ∨ (minor ≠ 1 ∧ minor ≠ 2) then none else directives? true handles rest
  | .directive (.declare handle mark) :: rest =>
    if handles.any (·.1 = handle) then none
    else directives? versioned (handles ++ [(handle, mark)]) rest
  | rest => some (handles, rest)

/-- Whether a document that has been started ends here without any content. -/
def isEmptyContent (tokens : List Token) : Bool :=
  match tokens with
  | [] | .directive _ :: _ | .documentStart :: _ | .documentEnd :: _ => true
  | _ => false

/-- The first document: with a mark in front of it, or without if there are no directives. -/
def root? (tokens : List Token) : Option (Node × Composer) := do
  let (handles, rest) ← directives? false [] tokens
  let handles := handles ++ commonHandles
  let fuel := 4 * tokens.length + 8
  match rest with
  | .documentStart :: rest =>
    let s : Composer := { tokens := rest, handles }
    if isEmptyContent rest then some (s.emptyNode none) else node? fuel true false s
  | rest =>
    if rest.length = tokens.length then node? fuel true false { tokens := rest, handles } else none

end Composer

namespace Tree

/-- The document that tokens make; nothing but its end may follow it. -/
def ofTokens? (tokens : List Token) : Option Tree :=
  if tokens.isEmpty then some { root := none, anchored := [], size := 1 }
  else do
    let (root, s) ← Composer.root? tokens
    if s.tokens.all (· = .documentEnd) then
      return { root := some root, anchored := s.anchored, size := s.size }
    else none

def ofText? (text : String) : Option Tree :=
  (Token.ofText? text).bind ofTokens?

end Tree

end Stepwise.Yaml
