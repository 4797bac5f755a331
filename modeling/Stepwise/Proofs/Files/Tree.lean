import Mathlib.Data.List.Perm.Basic
import Stepwise.Files.Tree
import Stepwise.Proofs.Files.Name

/-!
# Making directories and writing files

A file that is written is one more entry of its directory or takes the place of one, and all other
directories stay (`FileTree.list_write`). Directories that are made are empty, and those that exist
stay as they are (`FileTree.makeDirectories_standing`, `FileTree.makeDirectories_missing`); no file
comes or goes with them (`FileTree.sameFiles_makeDirectories`).
-/

namespace Stepwise

theorem Except.bind_eq_ok_iff {α β ε : Type} {x : Except ε α} {f : α → Except ε β} {b : β} :
    (x >>= f) = .ok b ↔ ∃ a, x = .ok a ∧ f a = .ok b := by
  cases x with
  | error reason => simp [Bind.bind, Except.bind]
  | ok a => simp [Bind.bind, Except.bind]

namespace FileNode

variable {node new : FileNode} {name file : FileName} {entries : List (FileName × FileNode)}
  {above names here : List FileName}

theorem entry?_nil (name : FileName) : entry? (directory []) name = none :=
  rfl

theorem entry?_cons (key : FileName) (first : FileNode) (rest : List (FileName × FileNode))
    (other : FileName) :
    entry? (directory ((key, first) :: rest)) other =
      if other = key then some first else entry? (directory rest) other := by
  by_cases same : key = other
  · simp [ entry?, FileNode.entries, same]
  · simp [ entry?, FileNode.entries, same, Ne.symm same]

theorem entry?_putEntry (name other : FileName) (new : FileNode)
    (entries : List (FileName × FileNode)) :
    entry? (directory (putEntry name new entries)) other =
      if other = name then some new else entry? (directory entries) other := by
  induction entries with
  | nil => rw [putEntry, entry?_cons]
  | cons entry rest ih =>
    obtain ⟨key, old⟩ := entry
    rw [putEntry]
    split
    · next replaced =>
      rw [entry?_cons, entry?_cons, replaced]
      split
      · rfl
      · rfl
    · next different =>
      split
      · rw [entry?_cons]
      · rw [entry?_cons, entry?_cons, ih]
        by_cases first : other = key
        · rw [if_pos first, if_pos first, if_neg (first ▸ different)]
        · rw [if_neg first, if_neg first]

/-- Of the entries with a name, the first is found. -/
theorem exists_entry? (member : (name, node) ∈ entries) :
    ∃ first, entry? (directory entries) name = some first ∧ (name, first) ∈ entries := by
  cases found : entries.find? (·.1 = name) with
  | none =>
    exact absurd (decide_eq_true rfl) (List.find?_eq_none.mp found _ member)
  | some entry =>
    obtain ⟨key, first⟩ := entry
    have passed := List.find?_some found
    obtain rfl : key = name := of_decide_eq_true passed
    refine ⟨first, ?_, List.mem_of_find?_eq_some found⟩
    rw [ entry?, FileNode.entries, found, Option.map_some]

/-- An entry that is put stands among the entries. -/
theorem mem_putEntry (name : FileName) (new : FileNode) (entries : List (FileName × FileNode)) :
    (name, new) ∈ putEntry name new entries := by
  induction entries with
  | nil => exact List.mem_singleton_self _
  | cons entry rest ih =>
    obtain ⟨key, old⟩ := entry
    unfold putEntry
    split
    · exact List.mem_cons_self ..
    · split
      · exact List.mem_cons_self ..
      · exact List.mem_cons_of_mem _ ih

/-- An entry of a new name is one more. -/
theorem putEntry_perm (fresh : ∀ old, (name, old) ∉ entries) :
    (putEntry name new entries).Perm ((name, new) :: entries) := by
  induction entries with
  | nil => exact List.Perm.refl _
  | cons entry rest ih =>
    obtain ⟨key, old⟩ := entry
    have different : key ≠ name := by
      rintro rfl
      exact fresh old (List.mem_cons_self ..)
    have rest := ih fun other member => fresh other (List.mem_cons_of_mem _ member)
    unfold putEntry
    rw [if_neg different]
    split
    · exact List.Perm.refl _
    · exact (rest.cons _).trans (List.Perm.swap ..)

theorem at?_append (node : FileNode) (xs ys : List FileName) :
    node.at? (xs ++ ys) = (node.at? xs).bind (·.at? ys) := by
  induction xs generalizing node with
  | nil => rfl
  | cons x xs ih =>
    rw [List.cons_append, at?, at?]
    cases node.entry? x with
    | none => rfl
    | some child => exact ih child

theorem at?_concat (standing : node.at? above = some (directory entries)) (name : FileName) :
    node.at? (above ++ [name]) = entry? (directory entries) name := by
  rw [at?_append, standing, Option.bind_some, at?]
  cases entry? (directory entries) name with
  | none => rfl
  | some child => rfl

/-- Whether a directory stands at the end of names. -/
def IsDirectoryAt (node : FileNode) (names : List FileName) : Prop :=
  ∃ entries, node.at? names = some (directory entries)

theorem at?_put_cons (node new : FileNode) (name : FileName) (below : List FileName)
    (other : FileName) (names : List FileName) :
    (node.put (name :: below) new).at? (other :: names) =
      if other = name then (((node.entry? name).getD (directory [])).put below new).at? names
      else node.at? (other :: names) := by
  rw [put, at?, entry?_putEntry]
  split
  · rfl
  · rfl

/-- What is put in a directory is one of its entries. -/
theorem at?_put (standing : node.at? above = some (directory entries)) (name : FileName)
    (new : FileNode) :
    (node.put (above ++ [name]) new).at? above = some (directory (putEntry name new entries)) := by
  induction above generalizing node with
  | nil =>
    cases Option.some.inj standing
    rfl
  | cons first rest ih =>
    rw [at?] at standing
    obtain ⟨child, entry, standing⟩ := Option.bind_eq_some_iff.mp standing
    rw [List.cons_append, at?_put_cons, if_pos rfl, entry]
    exact ih standing

/-- Putting something in a directory in another's place than a directory's keeps all directories. -/
theorem IsDirectoryAt.put (standing : node.IsDirectoryAt here) (parent : node.IsDirectoryAt above)
    (free : ¬ node.IsDirectoryAt (above ++ [name])) (new : FileNode) :
    (node.put (above ++ [name]) new).IsDirectoryAt here := by
  induction above generalizing node here with
  | nil =>
    cases here with
    | nil => exact ⟨_, rfl⟩
    | cons other names =>
      obtain ⟨entries, standing⟩ := standing
      rw [List.nil_append, IsDirectoryAt, at?_put_cons]
      split
      · next same =>
        subst same
        exfalso
        rw [at?] at standing
        obtain ⟨child, entry, standing⟩ := Option.bind_eq_some_iff.mp standing
        cases child with
        | directory below =>
          refine free ⟨below, ?_⟩
          rw [List.nil_append, at?, entry]
          rfl
        | file content =>
          cases names with
          | nil => cases standing
          | cons _ _ => cases standing
      · exact ⟨entries, standing⟩
  | cons first rest ih =>
    cases here with
    | nil => exact ⟨_, rfl⟩
    | cons other names =>
      obtain ⟨entries, standing⟩ := standing
      rw [List.cons_append, IsDirectoryAt, at?_put_cons]
      split
      · next same =>
        subst same
        rw [at?] at standing
        obtain ⟨child, entry, standing⟩ := Option.bind_eq_some_iff.mp standing
        rw [List.cons_append, IsDirectoryAt, at?, entry] at free
        rw [IsDirectoryAt, at?, entry] at parent
        rw [entry]
        exact ih ⟨entries, standing⟩ parent free
      · exact ⟨entries, standing⟩

/-- An empty directory that is put where nothing stood makes no difference to the files. -/
theorem at?_put_eq_file_iff {content : List UInt8} (parent : node.IsDirectoryAt above)
    (vacant : node.at? (above ++ [name]) = none) :
    (node.put (above ++ [name]) (directory [])).at? names = some (.file content) ↔
      node.at? names = some (.file content) := by
  induction above generalizing node names with
  | nil =>
    obtain ⟨entries, standing⟩ := parent
    cases Option.some.inj standing
    cases names with
    | nil => simp [put, at?]
    | cons other below =>
      rw [List.nil_append, at?_put_cons]
      split
      · next same =>
        have absent : entry? (directory entries) name = none := by simpa [at?] using vacant
        rw [same, at?, absent]
        cases below with
        | nil => simp [put, at?]
        | cons _ _ => exact iff_of_false nofun nofun
      · rfl
  | cons first rest ih =>
    obtain ⟨entries, standing⟩ := parent
    obtain ⟨child, entry, below⟩ := Option.bind_eq_some_iff.mp standing
    cases names with
    | nil =>
      cases node with
      | file _ => contradiction
      | directory _ => simp [put, at?]
    | cons other names =>
      rw [List.cons_append, at?_put_cons]
      split
      · next same =>
        rw [List.cons_append, at?, entry] at vacant
        rw [same, at?, entry]
        exact ih ⟨entries, below⟩ vacant
      · rfl

end FileNode

namespace FileTree

open FileNode (IsDirectoryAt)

variable {tree tree' : FileTree} {here there names : List FileName} {parts : List FileName}
  {path directory file : FileName} {entries : List (FileName × FileNode)}

theorem follow_append (tree : FileTree) (here xs ys : List FileName) :
    tree.follow here (xs ++ ys) = tree.follow here xs >>= fun there => tree.follow there ys := by
  induction xs generalizing here with
  | nil => rfl
  | cons x xs ih =>
    rw [List.cons_append, follow, follow]
    split
    · rfl
    · rfl
    · split
      · exact ih _
      · split
        · rfl
        · exact ih _

/-- A part of a path can be followed from a directory, and only from there. -/
theorem follow_singleton_eq_ok {part : FileName} (followed : tree.follow here [part] = .ok there) :
    tree.root.IsDirectoryAt here := by
  rw [follow] at followed
  split at followed
  · cases followed
  · cases followed
  · next entries standing => exact ⟨entries, standing⟩

/-- A part that is not the parent's leads to the entry of that name. -/
theorem follow_down {part : FileName} (down : part ≠ [FileName.dot, FileName.dot])
    (followed : tree.follow here [part] = .ok there) : there = here ++ [part] := by
  obtain ⟨entries, standing⟩ := follow_singleton_eq_ok followed
  rw [follow, standing] at followed
  dsimp only at followed
  rw [if_neg down] at followed
  split at followed
  · cases followed
  · exact (Except.ok.inj followed).symm

private theorem follow_cons_eq_ok {part : FileName} {rest : List FileName}
    (followed : tree.follow here (part :: rest) = .ok there) :
    ∃ next, tree.follow here [part] = .ok next ∧ tree.follow next rest = .ok there := by
  have steps : tree.follow here (part :: rest) = tree.follow here [part] >>= _ :=
    follow_append tree here [part] rest
  rw [steps] at followed
  exact Except.bind_eq_ok_iff.mp followed

/-- Parts are followed alike where all directories stay. -/
theorem follow_eq_ok_of_stay
    (stay : ∀ names, tree.root.IsDirectoryAt names → tree'.root.IsDirectoryAt names)
    (followed : tree.follow here parts = .ok there) : tree'.follow here parts = .ok there := by
  induction parts generalizing here with
  | nil => exact followed
  | cons part rest ih =>
    have standing := follow_singleton_eq_ok (follow_cons_eq_ok followed).choose_spec.1
    obtain ⟨entries, before⟩ := standing
    obtain ⟨entries', after⟩ := stay here ⟨entries, before⟩
    rw [follow, before] at followed
    rw [follow, after]
    dsimp only at followed ⊢
    split
    · next up =>
      rw [if_pos up] at followed
      exact ih followed
    · next down =>
      rw [if_neg down] at followed
      split
      · next long =>
        rw [if_pos long] at followed
        cases followed
      · next short =>
        rw [if_neg short] at followed
        exact ih followed

theorem locate_eq_ok_iff :
    tree.locate path = .ok names ↔
      path ≠ [] ∧ path.length ≤ maxPath ∧ tree.follow [] path.components = .ok names := by
  rw [locate]
  split
  · next empty =>
    rw [List.isEmpty_iff] at empty
    simp [empty]
  · next filled =>
    rw [List.isEmpty_iff] at filled
    split
    · next long => simp [Nat.not_le.mpr long]
    · next short => simp [filled, Nat.not_lt.mp short]

theorem list_eq_ok_iff :
    tree.list path = .ok entries ↔
      ∃ names, tree.locate path = .ok names ∧ tree.root.at? names = some (.directory entries) := by
  constructor
  · intro listed
    obtain ⟨node, got, answer⟩ := Except.bind_eq_ok_iff.mp listed
    obtain ⟨names, located, found⟩ := Except.bind_eq_ok_iff.mp got
    cases node with
    | file content => cases answer
    | directory below =>
      cases answer
      refine ⟨names, located, ?_⟩
      split at found
      · cases found
      · split at found
        · cases found
        · cases found
      · next node standing => rw [standing, Except.ok.inj found]
  · rintro ⟨names, located, standing⟩
    rw [list, get, located]
    simp only [Bind.bind, Except.bind, standing]
    rfl

theorem write_eq_ok_iff {content : List UInt8} :
    tree.write path content = .ok tree' ↔
      ∃ names, tree.locate path = .ok names ∧ ¬ tree.root.IsDirectoryAt names ∧
        path.namesDirectory = false ∧ tree' = ⟨tree.root.put names (.file content)⟩ := by
  constructor
  · intro written
    obtain ⟨names, located, answer⟩ := Except.bind_eq_ok_iff.mp written
    refine ⟨names, located, ?_⟩
    split at answer
    · cases answer
    · next free =>
      split at answer
      · cases answer
      · next named =>
        refine ⟨?_, Bool.eq_false_iff.mpr named, (Except.ok.inj answer).symm⟩
        rintro ⟨entries, standing⟩
        exact free entries standing
  · rintro ⟨names, located, free, named, rfl⟩
    rw [write, located]
    simp only [Bind.bind, Except.bind, named]
    split
    · next entries standing => exact absurd ⟨entries, standing⟩ free
    · rfl

/-- A file that is written in a directory is one of its entries, in another's place than a
directory's. -/
theorem list_write {content : List UInt8} (entry : file.IsEntry)
    (listed : tree.list directory = .ok entries)
    (written : tree.write (FileName.join directory file) content = .ok tree') :
    tree'.list directory = .ok (FileNode.putEntry file (.file content) entries) ∧
      ∀ below, FileNode.entry? (.directory entries) file ≠ some (.directory below) := by
  obtain ⟨above, located, standing⟩ := list_eq_ok_iff.mp listed
  obtain ⟨filled, short, followed⟩ := locate_eq_ok_iff.mp located
  obtain ⟨names, locatedFile, free, -, rfl⟩ := write_eq_ok_iff.mp written
  have through := (locate_eq_ok_iff.mp locatedFile).2.2
  have ends : names = above ++ [file] := by
    rw [FileName.components_join entry, follow_append, followed] at through
    exact follow_down entry.below through
  subst ends
  constructor
  · have stay (names : List FileName) (there : tree.root.IsDirectoryAt names) :
        (⟨tree.root.put (above ++ [file]) (.file content)⟩ : FileTree).root.IsDirectoryAt names :=
      there.put ⟨entries, standing⟩ free _
    refine list_eq_ok_iff.mpr ⟨above, locate_eq_ok_iff.mpr ⟨filled, short, ?_⟩, ?_⟩
    · exact follow_eq_ok_of_stay stay followed
    · exact FileNode.at?_put standing file _
  · intro below same
    exact free ⟨below, (FileNode.at?_concat standing file).trans same⟩

/-- A file can be written in a directory where no other directory has its name, if the name and the
path are not too long. -/
theorem exists_write {content : List UInt8} (entry : file.IsEntry)
    (listed : tree.list directory = .ok entries)
    (plain : (FileName.join directory file).namesDirectory = false)
    (short : file.length ≤ maxName) (fits : (FileName.join directory file).length ≤ maxPath)
    (free : ∀ below, FileNode.entry? (.directory entries) file ≠ some (.directory below)) :
    ∃ tree', tree.write (FileName.join directory file) content = .ok tree' := by
  obtain ⟨above, located, standing⟩ := list_eq_ok_iff.mp listed
  obtain ⟨-, -, followed⟩ := locate_eq_ok_iff.mp located
  have path : (FileName.join directory file).components = _ := FileName.components_join entry
  have filled : FileName.join directory file ≠ [] := by
    intro empty
    rw [empty] at path
    exact List.append_ne_nil_of_right_ne_nil _ (List.cons_ne_nil _ _) path.symm
  have last : tree.follow above [file] = .ok (above ++ [file]) := by
    rw [follow, standing]
    dsimp only
    rw [if_neg entry.below, if_neg (Nat.not_lt.mpr short)]
    rfl
  have through :
      tree.follow [] (FileName.join directory file).components = .ok (above ++ [file]) := by
    rw [path, follow_append, followed]
    exact last
  refine ⟨_, write_eq_ok_iff.mpr
    ⟨above ++ [file], locate_eq_ok_iff.mpr ⟨filled, fits, through⟩, ?_, plain, rfl⟩⟩
  rintro ⟨below, same⟩
  exact free below ((FileNode.at?_concat standing file).symm.trans same)

/-- Parts that lead to a directory are not made. -/
theorem makeDirectoriesFrom_standing (followed : tree.follow here parts = .ok there)
    (standing : tree.root.IsDirectoryAt there) :
    makeDirectoriesFrom here parts tree = (.ok (), tree) := by
  induction parts generalizing here with
  | nil => rfl
  | cons part rest ih =>
    obtain ⟨next, first, others⟩ := follow_cons_eq_ok followed
    have between : tree.root.IsDirectoryAt next := by
      cases rest with
      | nil =>
        cases others
        exact standing
      | cons second _ => exact follow_singleton_eq_ok (follow_cons_eq_ok others).choose_spec.1
    obtain ⟨entries, between⟩ := between
    rw [makeDirectoriesFrom, first]
    simp only [between]
    exact ih others

/-- A directory that exists is not made. -/
theorem makeDirectories_standing (listed : tree.list directory = .ok entries) :
    tree.makeDirectories directory = (.ok (), tree) := by
  obtain ⟨names, located, standing⟩ := list_eq_ok_iff.mp listed
  obtain ⟨-, short, followed⟩ := locate_eq_ok_iff.mp located
  rw [makeDirectories, if_neg (Nat.not_lt.mpr short)]
  exact makeDirectoriesFrom_standing followed ⟨entries, standing⟩

private theorem at?_makeDirectory {part : FileName} (standing : tree.root.IsDirectoryAt here) :
    (tree.root.put (here ++ [part]) (.directory [])).at? (here ++ [part]) =
      some (.directory []) := by
  obtain ⟨entries, standing⟩ := standing
  rw [FileNode.at?_concat (FileNode.at?_put standing part _), FileNode.entry?_putEntry, if_pos rfl]

/-- Making directories keeps those that stand. Where they do not go through a parent and one is
missing, they lead to an empty directory then, in a place where nothing stood. -/
theorem makeDirectoriesFrom_made (down : [FileName.dot, FileName.dot] ∉ parts)
    (made : makeDirectoriesFrom here parts tree = (.ok (), tree')) :
    (∀ names, tree.root.IsDirectoryAt names → tree'.root.IsDirectoryAt names) ∧
      (tree' = tree ∧ (parts = [] ∨ tree.root.IsDirectoryAt (here ++ parts)) ∨
        tree'.follow here parts = .ok (here ++ parts) ∧
          tree.root.at? (here ++ parts) = none ∧
            tree'.root.at? (here ++ parts) = some (.directory [])) := by
  induction parts generalizing here tree with
  | nil =>
    cases made
    exact ⟨fun _ there => there, .inl ⟨rfl, .inl rfl⟩⟩
  | cons part rest ih =>
    have proper : part ≠ [FileName.dot, FileName.dot] := by
      rintro rfl
      exact down (List.mem_cons_self ..)
    have downward : [FileName.dot, FileName.dot] ∉ rest :=
      fun member => down (List.mem_cons_of_mem _ member)
    rw [makeDirectoriesFrom] at made
    split at made
    · cases made
    · next there first =>
      have standing := follow_singleton_eq_ok first
      obtain rfl := follow_down proper first
      have whole : here ++ part :: rest = here ++ [part] ++ rest := List.append_cons ..
      have path (stay : ∀ names, tree.root.IsDirectoryAt names → tree'.root.IsDirectoryAt names)
          (others : tree'.follow (here ++ [part]) rest = .ok (here ++ [part] ++ rest)) :
          tree'.follow here (part :: rest) = .ok (here ++ [part] ++ rest) := by
        have steps : tree'.follow here (part :: rest) = tree'.follow here [part] >>= _ :=
          follow_append tree' here [part] rest
        rw [steps, follow_eq_ok_of_stay stay first]
        exact others
      rw [whole]
      split at made
      · cases made
      · next entries found =>
        obtain ⟨stay, kept | ⟨others, free, empty⟩⟩ := ih downward made
        · refine ⟨stay, .inl ⟨kept.1, .inr ?_⟩⟩
          rcases kept.2 with rfl | found
          · exact ⟨entries, by rw [List.append_nil, found]⟩
          · exact found
        · exact ⟨stay, .inr ⟨path stay others, free, empty⟩⟩
      · next free =>
        have missing : tree.root.at? (here ++ [part] ++ rest) = none := by
          rw [FileNode.at?_append, free, Option.bind_none]
        have vacant : ¬ tree.root.IsDirectoryAt (here ++ [part]) := by
          rintro ⟨entries, found⟩
          rw [free] at found
          cases found
        obtain ⟨stay, outcome⟩ := ih downward made
        have stays (names : List FileName) (there : tree.root.IsDirectoryAt names) :
            tree'.root.IsDirectoryAt names :=
          stay names (there.put standing vacant _)
        refine ⟨stays, .inr ?_⟩
        rcases outcome with ⟨rfl, rfl | ⟨entries, found⟩⟩ | ⟨others, -, empty⟩
        · rw [List.append_nil] at missing path ⊢
          exact ⟨path stays rfl, missing, at?_makeDirectory standing⟩
        · -- Nothing stands below a directory that has just been made.
          rw [FileNode.at?_append, at?_makeDirectory standing, Option.bind_some] at found
          cases rest with
          | nil =>
            rw [List.append_nil] at missing path ⊢
            exact ⟨path stays rfl, missing, at?_makeDirectory standing⟩
          | cons _ _ => cases found
        · exact ⟨path stays others, missing, empty⟩

/-- A directory that is missing is made, and is empty then: a file can be written in it. -/
theorem makeDirectories_missing {content : List UInt8} {tree₁ tree₂ : FileTree}
    (named : directory ≠ []) (down : [FileName.dot, FileName.dot] ∉ directory.components)
    (missing : tree.contains directory = false)
    (made : tree.makeDirectories directory = (.ok (), tree₁)) (entry : file.IsEntry)
    (written : tree₁.write (FileName.join directory file) content = .ok tree₂) :
    tree₁.list directory = .ok [] := by
  rw [makeDirectories] at made
  split at made
  · cases made
  · next short =>
    have short := Nat.not_lt.mp short
    obtain ⟨-, kept | ⟨followed, -, empty⟩⟩ := makeDirectoriesFrom_made down made
    · exfalso
      obtain ⟨rfl, -⟩ := kept
      obtain ⟨names, located, -⟩ := write_eq_ok_iff.mp written
      have through := (locate_eq_ok_iff.mp located).2.2
      rw [FileName.components_join entry, follow_append] at through
      obtain ⟨above, followed, last⟩ := Except.bind_eq_ok_iff.mp through
      obtain ⟨entries, standing⟩ := follow_singleton_eq_ok last
      have located := locate_eq_ok_iff.mpr ⟨named, short, followed⟩
      rw [contains, get, located] at missing
      simp only [Bind.bind, Except.bind, standing] at missing
      cases missing
    · exact list_eq_ok_iff.mpr ⟨_, locate_eq_ok_iff.mpr ⟨named, short, followed⟩, empty⟩

/-- Whether the same files stand at the same places in both trees, with the same contents. -/
def SameFiles (a b : FileTree) : Prop :=
  ∀ names content, a.root.at? names = some (.file content) ↔ b.root.at? names = some (.file content)

/-- A part that leads to where nothing stands leads downwards. -/
theorem follow_vacant {part : FileName} (followed : tree.follow here [part] = .ok there)
    (vacant : tree.root.at? there = none) : there = here ++ [part] := by
  by_cases up : part = [FileName.dot, FileName.dot]
  · exfalso
    obtain ⟨entries, standing⟩ := follow_singleton_eq_ok followed
    rw [follow, standing] at followed
    dsimp only at followed
    rw [if_pos up] at followed
    obtain rfl : here.dropLast = there := Except.ok.inj followed
    rcases List.eq_nil_or_concat here with rfl | ⟨above, last, rfl⟩
    · contradiction
    · rw [List.concat_eq_append, List.dropLast_concat] at vacant
      rw [List.concat_eq_append, FileNode.at?_append, vacant] at standing
      contradiction
  · exact follow_down up followed

/-- Making directories makes no files and takes none away. -/
theorem sameFiles_makeDirectoriesFrom (here parts : List FileName) (tree : FileTree) :
    (makeDirectoriesFrom here parts tree).2.SameFiles tree := by
  induction parts generalizing here tree with
  | nil => exact fun _ _ => Iff.rfl
  | cons part rest ih =>
    rw [makeDirectoriesFrom]
    split
    · exact fun _ _ => Iff.rfl
    · next there followed =>
      split
      · exact fun _ _ => Iff.rfl
      · exact ih there tree
      · next vacant =>
        intro names content
        rw [ih]
        obtain rfl := follow_vacant followed vacant
        exact FileNode.at?_put_eq_file_iff (follow_singleton_eq_ok followed) vacant

theorem sameFiles_makeDirectories (tree : FileTree) (directory : FileName) :
    (tree.makeDirectories directory).2.SameFiles tree := by
  rw [makeDirectories]
  split
  · exact fun _ _ => Iff.rfl
  · exact sameFiles_makeDirectoriesFrom _ _ tree

end FileTree

end Stepwise
