import Stepwise.Directory
import Stepwise.Proofs.Directory.Registry
import Stepwise.Proofs.Files.Tree
import Stepwise.Proofs.Plan.Steps
import Stepwise.Proofs.Text.Utf8

/-!
# Loading a directory

The definitions of a directory are those that its migration files are parsed to, in the order of
their identifiers. One more file makes one more definition (`Directory.definitions_perm`).
-/

namespace Stepwise

private theorem Except.mapError_eq_ok_iff {α ε ε' : Type} {f : ε → ε'} {x : Except ε α} {a : α} :
    x.mapError f = .ok a ↔ x = .ok a := by
  cases x with
  | error reason => simp [Except.mapError]
  | ok b => simp [Except.mapError]

/-- The definition that a sheet makes has the places of the sheet. -/
theorem Sheet.define_eq_ok_iff {sheet : Sheet} {id : String} {d : Definition} :
    sheet.define id = .ok d ↔
      sheet.reversibility? = .ok d.reversibility ∧ d.flaw? = none ∧ d.id = id ∧
        d.description = sheet.description ∧ d.up = sheet.up ∧ d.down = sheet.down := by
  constructor
  · intro defined
    obtain ⟨reversibility, known, defined⟩ := Except.bind_eq_ok_iff.mp defined
    dsimp only at defined
    split at defined
    · cases defined
    · next sound =>
      cases defined
      exact ⟨known, sound, rfl, rfl, rfl, rfl⟩
  · rintro ⟨known, sound, rfl, description, up, down⟩
    refine Except.bind_eq_ok_iff.mpr ⟨d.reversibility, known, ?_⟩
    rw [← description, ← up, ← down]
    dsimp only
    rw [sound]
    rfl

/-- A sheet makes a reversible definition without operations if and only if it says no more than a
description. -/
theorem Sheet.define_eq_bare_iff {sheet : Sheet} {id : String} {description : Option String} :
    sheet.define id = .ok { id, description } ↔ sheet = { description } := by
  constructor
  · intro defined
    obtain ⟨reversible, -, -, described, up, down⟩ := define_eq_ok_iff.mp defined
    obtain ⟨_, isReversible, reason, _, _⟩ := sheet
    cases described
    cases up
    cases down
    have plain : isReversible = true ∧ reason = none := by
      cases isReversible
      · cases reversible
      · cases reason
        · exact ⟨rfl, rfl⟩
        · cases reversible
    rw [plain.1, plain.2]
  · rintro rfl
    rfl

namespace Directory

variable {directory path : FileName} {content : List UInt8} {d : Definition}
  {entries : List (FileName × FileNode)}

/-- A migration file gives its definition the identifier that is its stem. -/
theorem stem_of_parse (parsed : parse path content = .ok d) :
    path.stem?.bind Text.Utf8.decode? = some d.id := by
  rw [parse] at parsed
  split at parsed
  · next text _ =>
    dsimp only at parsed
    split at parsed
    · next id stem =>
      rw [stem]
      split at parsed
      · exact congrArg some
          (Sheet.define_eq_ok_iff.mp (Except.mapError_eq_ok_iff.mp parsed)).2.2.1.symm
      · cases parsed
    · cases parsed
  · cases parsed

/-- A migration file that is not JSON is read as YAML. -/
theorem parse_encode {id text : String} (stem : path.stem? = some (FileName.ofString id))
    (extension : path.extension? ≠ some (FileName.ofString "json")) :
    parse path (Text.Utf8.encode text) = .ok d ↔
      ∃ sheet, Sheet.ofYaml? text = some sheet ∧ sheet.define id = .ok d := by
  have named : path.stem?.bind Text.Utf8.decode? = some id := by
    rw [stem, Option.bind_some]
    exact Text.Utf8.decode?_encode id
  rw [parse, Text.Utf8.decode?_encode]
  simp only [named, extension, ↓reduceIte]
  cases Sheet.ofYaml? text with
  | none => exact ⟨nofun, fun ⟨_, absent, _⟩ => nomatch absent⟩
  | some sheet =>
    refine Except.mapError_eq_ok_iff.trans ⟨fun defined => ⟨sheet, rfl, defined⟩, ?_⟩
    rintro ⟨_, ⟨⟩, defined⟩
    exact defined

theorem mem_files :
    (path, content) ∈ files directory entries ↔
      ∃ name, (name, .file content) ∈ entries ∧ isMigrationName name = true ∧
        path = FileName.join directory name := by
  rw [files, List.mem_filterMap]
  constructor
  · rintro ⟨⟨name, node⟩, member, answer⟩
    cases node with
    | file octets =>
      dsimp only at answer
      split at answer
      · next migration =>
        cases answer
        exact ⟨name, member, migration, rfl⟩
      · cases answer
    | directory below => cases answer
  · rintro ⟨name, member, migration, rfl⟩
    exact ⟨(name, .file content), member, if_pos migration⟩

/-- The definitions are those that the migration files are parsed to. -/
theorem definitions_eq_ok_iff {ds : List Definition} :
    definitions directory entries = .ok ds ↔
      ∃ all,
        List.Forall₂ (fun file d => parse file.1 file.2 = .ok d) (files directory entries) all ∧
          ds = all.mergeSort fun a b => a.id ≤ b.id := by
  rw [definitions, Except.bind_eq_ok_iff]
  simp only [Except.mapM_eq_ok]
  constructor
  · rintro ⟨all, parsed, ⟨⟩⟩
    exact ⟨all, parsed, rfl⟩
  · rintro ⟨all, parsed, rfl⟩
    exact ⟨all, parsed, rfl⟩

theorem definitions_nil : definitions directory [] = .ok [] :=
  definitions_eq_ok_iff.mpr ⟨[], .nil, List.mergeSort_nil.symm⟩

/-- One migration file makes one definition. -/
theorem definitions_singleton {file : FileName} (migration : isMigrationName file = true)
    (parsed : parse (FileName.join directory file) content = .ok d) :
    definitions directory [(file, .file content)] = .ok [d] := by
  have read : files directory [(file, .file content)] =
      [(FileName.join directory file, content)] := by
    simp only [files, List.filterMap_cons, migration, ↓reduceIte, List.filterMap_nil]
  refine definitions_eq_ok_iff.mpr ⟨[d], ?_, (List.mergeSort_singleton ..).symm⟩
  rw [read]
  exact .cons parsed .nil

/-- Every migration file has its definition. -/
theorem exists_parse {ds : List Definition} (loaded : definitions directory entries = .ok ds)
    (member : (path, content) ∈ files directory entries) :
    ∃ d ∈ ds, parse path content = .ok d := by
  obtain ⟨all, parsed, rfl⟩ := definitions_eq_ok_iff.mp loaded
  simp only [List.mem_mergeSort]
  clear loaded
  generalize files directory entries = read at parsed member
  induction parsed with
  | nil => cases member
  | @cons file d _ _ first _ ih =>
    rcases List.mem_cons.mp member with rfl | member
    · exact ⟨d, List.mem_cons_self .., first⟩
    · obtain ⟨e, among, parsed⟩ := ih member
      exact ⟨e, List.mem_cons_of_mem _ among, parsed⟩

/-- One more migration file makes one more definition. -/
theorem definitions_perm {ds : List Definition} {entries' : List (FileName × FileNode)}
    (loaded : definitions directory entries = .ok ds) (parsed : parse path content = .ok d)
    (more : (files directory entries').Perm ((path, content) :: files directory entries)) :
    ∃ ds', definitions directory entries' = .ok ds' ∧ ds'.Perm (d :: ds) := by
  obtain ⟨all, others, rfl⟩ := definitions_eq_ok_iff.mp loaded
  obtain ⟨all', parsed', same⟩ := List.perm_comp_forall₂ more (others.cons parsed)
  refine ⟨_, definitions_eq_ok_iff.mpr ⟨all', parsed', rfl⟩, ?_⟩
  exact (List.mergeSort_perm ..).trans (same.trans ((List.mergeSort_perm ..).symm.cons d))

/-- A migration file of a new name is one more. -/
theorem files_putEntry_perm {file : FileName} (migration : isMigrationName file = true)
    (fresh : ∀ old, (file, old) ∉ entries) :
    (files directory (FileNode.putEntry file (.file content) entries)).Perm
      ((FileName.join directory file, content) :: files directory entries) := by
  refine ((FileNode.putEntry_perm fresh).filterMap _).trans ?_
  simp only [List.filterMap_cons, migration, ↓reduceIte]
  exact List.Perm.refl _

/-- A migration file with an identifier that no definition has is none of the entries, if no
directory has its name. -/
theorem not_mem_of_unused {ds : List Definition} {file : FileName} {id : String}
    (loaded : definitions directory entries = .ok ds) (migration : isMigrationName file = true)
    (stem : (FileName.join directory file).stem? = some (FileName.ofString id))
    (unused : id ∉ ds.map (·.id))
    (free : ∀ below, FileNode.entry? (.directory entries) file ≠ some (.directory below)) :
    ∀ node, (file, node) ∉ entries := by
  have unwritten (octets : List UInt8) : (file, .file octets) ∉ entries := by
    intro member
    obtain ⟨d, among, parsed⟩ :=
      exists_parse loaded (mem_files.mpr ⟨file, member, migration, rfl⟩)
    have same := stem_of_parse parsed
    rw [stem, Option.bind_some, FileName.ofString, Text.Utf8.decode?_encode] at same
    cases same
    exact unused (List.mem_map_of_mem among)
  intro node member
  obtain ⟨first, found, member⟩ := FileNode.exists_entry? member
  cases first with
  | file octets => exact unwritten octets member
  | directory below => exact free below found

/-- A directory that stands is loaded from its entries. -/
theorem load_eq {tree : FileTree} (listed : tree.list directory = .ok entries) :
    load tree directory = definitions directory entries := by
  obtain ⟨node, got, -⟩ := Except.bind_eq_ok_iff.mp listed
  have standing : tree.contains directory = true := by
    rw [FileTree.contains, got]
  rw [load, if_pos standing, listed]

theorem exists_load {tree : FileTree} {r : Registry} (made : registry tree directory = .ok r) :
    ∃ ds, load tree directory = .ok ds :=
  (Except.bind_eq_ok_iff.mp made).imp fun _ => And.left

/-- A registry has the migrations that are loaded, whose identifiers are valid and pairwise
different. -/
theorem perm_of_registry {tree : FileTree} {r : Registry} {ds : List Definition}
    (loaded : load tree directory = .ok ds) (made : registry tree directory = .ok r) :
    (∀ d ∈ ds, MigrationId.isValid d.id = true) ∧ (ds.map (·.id)).Nodup ∧
      r.migrations.Perm (ds.map Definition.toMigration) := by
  rw [registry, loaded] at made
  obtain ⟨valid, apart, same⟩ := Registry.perm_of_ofList made
  rw [List.forall_mem_map] at valid
  rw [List.map_map] at apart
  exact ⟨valid, apart, same⟩

theorem ids_perm {ds : List Definition} {r : Registry}
    (same : r.migrations.Perm (ds.map Definition.toMigration)) : r.ids.Perm (ds.map (·.id)) := by
  have ids := same.map (·.id)
  rwa [List.map_map] at ids

/-- Definitions with valid and pairwise different identifiers make a registry. -/
theorem exists_registry {tree : FileTree} {ds : List Definition}
    (loaded : load tree directory = .ok ds) (valid : ∀ d ∈ ds, MigrationId.isValid d.id = true)
    (apart : (ds.map (·.id)).Nodup) : ∃ r, registry tree directory = .ok r := by
  have valid : ∀ m ∈ ds.map Definition.toMigration, MigrationId.isValid m.id = true := by
    rw [List.forall_mem_map]
    exact valid
  have apart : ((ds.map Definition.toMigration).map (·.id)).Nodup := by
    rw [List.map_map]
    exact apart
  obtain ⟨r, made⟩ := Registry.exists_ofList valid apart
  exact ⟨r, Except.bind_eq_ok_iff.mpr ⟨ds, loaded, made⟩⟩

end Directory

end Stepwise
