import Stepwise.Proofs.Directory.Load
import Stepwise.Proofs.Template.Identifier
import Stepwise.Proofs.Template.Text

/-!
# New migrations in a directory

A new migration file makes the directory grow by a migration that has the name as its description,
is reversible and has no operations, if its identifier is valid and new and its text is read back
(`Template.create_grows`). A name on one line with a character that has no picture of its own makes
the directory unreadable, as the text shows such a character by an escape that YAML does not have
(`Template.accent_unreadable`).
-/

namespace Stepwise.Template

open Text (isLegible)
open Yaml (OnLine)

variable {tree tree' : FileTree} {directory path : FileName} {name : String} {now : Instant}

def fileName (name : String) (now : Instant) : FileName :=
  FileName.ofString (id (MigrationId.slug name) now ++ ".yaml")

theorem fileName_eq (name : String) (now : Instant) :
    fileName name now = FileName.ofString (id (MigrationId.slug name) now) ++
      FileName.dot :: FileName.ofString "yaml" := by
  have extension : Text.Utf8.encode ".yaml" = FileName.dot :: FileName.ofString "yaml" := by
    rw [FileName.ofString, Text.Utf8.encode_eq, Text.Utf8.encode_eq]
    rfl
  rw [fileName, FileName.ofString, Text.Utf8.encode_append, extension]
  rfl

private theorem split_fileName (name : String) (now : Instant) :
    FileName.split (fileName name now) =
      (FileName.ofString (id (MigrationId.slug name) now), some (FileName.ofString "yaml")) := by
  rw [fileName_eq]
  refine FileName.split_append ?_ ?_
  · have hyphen : '-' ∈ (id (MigrationId.slug name) now).toList := by
      rw [toList_id]
      exact List.mem_append_right _ (List.mem_cons_self ..)
    rw [FileName.ofString, Text.Utf8.encode_eq]
    exact List.ne_nil_of_mem (List.mem_flatMap.mpr ⟨'-', hyphen, List.mem_singleton_self _⟩)
  · rw [FileName.ofString, Text.Utf8.encode_eq]
    decide

section FileName

variable (named : MigrationId.IsSlug (MigrationId.slug name).toList)
include named

private theorem slash_not_mem_id :
    FileName.slash ∉ FileName.ofString (id (MigrationId.slug name) now) := by
  intro member
  rw [FileName.ofString, Text.Utf8.encode_eq] at member
  obtain ⟨c, inside, octet⟩ := List.mem_flatMap.mp member
  have ascii := toNat_of_id named inside
  rw [Text.Utf8.utf8EncodeChar_ascii (by omega)] at octet
  have same := congrArg UInt8.toNat (List.mem_singleton.mp octet)
  rw [Nat.toUInt8_eq, UInt8.toNat_ofNat'] at same
  have slash : FileName.slash.toNat = 0x2F := rfl
  omega

/-- The name of the file of a new migration is one of an entry of a directory. -/
theorem isEntry_fileName : (fileName name now).IsEntry := by
  have solid : FileName.slash ∉ FileName.dot :: FileName.ofString "yaml" := by
    rw [FileName.ofString, Text.Utf8.encode_eq]
    decide
  have long : 2 < (FileName.dot :: FileName.ofString "yaml").length := by
    rw [FileName.ofString, Text.Utf8.encode_eq]
    decide
  have length := congrArg List.length (fileName_eq name now)
  rw [List.length_append] at length
  refine ⟨?_, ?_, ?_, ?_⟩
  · intro empty
    rw [empty, List.length_nil] at length
    omega
  · rw [fileName_eq, List.mem_append, not_or]
    exact ⟨slash_not_mem_id named, solid⟩
  · intro same
    rw [same, List.length_singleton] at length
    omega
  · intro same
    rw [same, List.length_cons, List.length_singleton] at length
    omega

/-- The file of a new migration is a migration file, its stem is the identifier, and it is not JSON.
-/
theorem parts_of_fileName (now : Instant) (directory : FileName) :
    (FileName.join directory (fileName name now)).stem? =
        some (FileName.ofString (id (MigrationId.slug name) now)) ∧
      (FileName.join directory (fileName name now)).extension? ≠ some (FileName.ofString "json") ∧
        Directory.isMigrationName (fileName name now) = true := by
  have entry : (fileName name now).IsEntry := isEntry_fileName named
  have alone : FileName.base? (fileName name now) = some (fileName name now) := by
    rw [FileName.base?, entry.components_eq]
    exact if_neg entry.below
  refine ⟨?_, ?_, ?_⟩
  · rw [FileName.stem?, FileName.base?_join entry, Option.map_some, split_fileName]
  · rw [FileName.extension?, FileName.base?_join entry, Option.bind_some, split_fileName]
    intro same
    have texts := congrArg Text.Utf8.decode? (Option.some.inj same)
    rw [FileName.ofString, FileName.ofString, Text.Utf8.decode?_encode,
      Text.Utf8.decode?_encode] at texts
    exact absurd texts (by decide)
  · rw [Directory.isMigrationName, FileName.extension?, alone, Option.bind_some, split_fileName]
    simp [Directory.extensions]

end FileName

/-- What a creation that succeeds has done. -/
theorem create_eq_ok (created : create tree directory name now = (.ok path, tree')) :
    ∃ tree₁, tree.makeDirectories directory = (.ok (), tree₁) ∧
      MigrationId.IsSlug (MigrationId.slug name).toList ∧
        path = FileName.join directory (fileName name now) ∧
          tree₁.write path (Text.Utf8.encode (text name (id (MigrationId.slug name) now) now)) =
            .ok tree' := by
  rw [create] at created
  split at created
  · cases created
  · next tree₁ made =>
    dsimp only at created
    split at created
    · cases created
    · next filled =>
      split at created
      · cases created
      · next written =>
        cases created
        exact ⟨tree₁, made, MigrationId.isSlug_slug (Bool.eq_false_iff.mpr filled), rfl, written⟩

/-- A creation succeeds in a directory that stands, where no other directory has the name of the
file and the name is not too long. -/
theorem exists_create {entries : List (FileName × FileNode)}
    (listed : tree.list directory = .ok entries)
    (named : (MigrationId.slug name).isEmpty = false)
    (short : (fileName name now).length ≤ FileTree.maxName)
    (fits : (FileName.join directory (fileName name now)).length ≤ FileTree.maxPath)
    (free : ∀ below, FileNode.entry? (.directory entries) (fileName name now) ≠
      some (.directory below)) :
    ∃ tree', create tree directory name now =
      (.ok (FileName.join directory (fileName name now)), tree') := by
  have entry : (fileName name now).IsEntry := isEntry_fileName (MigrationId.isSlug_slug named)
  have ends : (fileName name now).getLast? = some 0x6C := by
    rw [fileName_eq, FileName.ofString, FileName.ofString, Text.Utf8.encode_eq "yaml",
      List.getLast?_append]
    rfl
  obtain ⟨tree', written⟩ : ∃ tree', tree.write (FileName.join directory (fileName name now))
      (Text.Utf8.encode (text name (id (MigrationId.slug name) now) now)) = .ok tree' :=
    FileTree.exists_write entry listed
      (FileName.namesDirectory_join entry ends (by decide) (by decide)) short fits free
  refine ⟨tree', ?_⟩
  rw [create, FileTree.makeDirectories_standing listed]
  dsimp only
  rw [if_neg (Bool.eq_false_iff.mp named)]
  rw [fileName] at written ⊢
  rw [written]

/-- A creation in a directory that stands, or is made, adds one entry to those loaded from it. -/
theorem exists_entries {old : List Definition}
    (reached : tree.contains directory = true ∨
      directory ≠ [] ∧ [FileName.dot, FileName.dot] ∉ directory.components)
    (loaded : Directory.load tree directory = .ok old)
    (created : create tree directory name now = (.ok path, tree')) :
    ∃ entries, Directory.definitions directory entries = .ok old ∧
      tree'.list directory = .ok (FileNode.putEntry (fileName name now)
        (.file (Text.Utf8.encode (text name (id (MigrationId.slug name) now) now))) entries) ∧
      ∀ below, FileNode.entry? (.directory entries) (fileName name now) ≠
        some (.directory below) := by
  obtain ⟨tree₁, made, named, rfl, written⟩ := create_eq_ok created
  have entry : (fileName name now).IsEntry := isEntry_fileName named
  rw [Directory.load] at loaded
  split at loaded
  · next standing =>
    split at loaded
    · next entries listed =>
      rw [FileTree.makeDirectories_standing listed] at made
      cases made
      exact ⟨entries, loaded, FileTree.list_write entry listed written⟩
    · cases loaded
  · next missing =>
    cases loaded
    obtain ⟨filled, down⟩ := reached.resolve_left missing
    have empty := FileTree.makeDirectories_missing filled down (Bool.eq_false_iff.mpr missing) made
      entry written
    exact ⟨[], Directory.definitions_nil, FileTree.list_write entry empty written⟩

/-- A migration that is made in the current directory. -/
theorem exists_create_here (entries : List (FileName × FileNode))
    (named : (MigrationId.slug name).isEmpty = false)
    (short : (fileName name now).length ≤ FileTree.maxName)
    (free : ∀ below, FileNode.entry? (.directory entries) (fileName name now) ≠
      some (.directory below)) :
    ∃ tree', create ⟨.directory entries⟩ [FileName.dot] name now =
      (.ok (FileName.join [FileName.dot] (fileName name now)), tree') := by
  have entry : (fileName name now).IsEntry := isEntry_fileName (MigrationId.isSlug_slug named)
  have fits : (FileName.join [FileName.dot] (fileName name now)).length ≤ FileTree.maxPath := by
    rw [FileTree.maxName] at short
    rw [FileTree.maxPath]
    rcases entry.join_cases [FileName.dot] with ⟨empty, -⟩ | ⟨_, slashed, -⟩ | joined
    · cases empty
    · have lasts := congrArg List.getLast? slashed
      rw [List.getLast?_concat] at lasts
      exact absurd (Option.some.inj lasts) (by decide)
    · rw [joined, List.length_append, List.length_singleton, List.length_cons]
      omega
  exact exists_create rfl named short fits free

private theorem registry_empty : Directory.registry {} [FileName.dot] = .ok Registry.empty := by
  have listed : FileTree.list {} [FileName.dot] = .ok [] := rfl
  rw [Directory.registry, Directory.load_eq listed, Directory.definitions_nil]
  rfl

/-- What a directory holds after a new migration with the name at a path: what it held, each
migration unchanged, and a reversible one without operations that is described by the name. -/
def Grows (tree tree' : FileTree) (directory path : FileName) (name : String) : Prop :=
  ∃ (id : String) (old new : List Definition) (before after : Registry),
    path.stem? = some (FileName.ofString id) ∧
      Directory.load tree directory = .ok old ∧ Directory.load tree' directory = .ok new ∧
        new.Perm ({ id, description := some name } :: old) ∧
          Directory.registry tree directory = .ok before ∧
            Directory.registry tree' directory = .ok after ∧
              after.migrations.Perm
                (({ id, description := some name } : Definition).toMigration :: before.migrations)

/-- Whether the text of a new migration is read as a sheet that says its name and nothing else. -/
def IsReadBack (name : String) (now : Instant) : Prop :=
  Sheet.ofYaml? (text name (id (MigrationId.slug name) now) now) = some { description := some name }

/-- The text of a new migration whose name has no line break is read if and only if the name is
legible. -/
theorem ofYaml?_text_id (named : MigrationId.IsSlug (MigrationId.slug name).toList)
    (onLine : OnLine name.toList) :
    Sheet.ofYaml? (text name (id (MigrationId.slug name) now) now) =
      if name.toList.all isLegible then some { description := some name } else none := by
  refine ofYaml?_text (fun c member => ?_) (fun c => Instant.isLegible_of_plainText) onLine
  have ascii := toNat_of_id named member
  exact Text.isLegible_of_toNat ascii.1 ascii.2.1

section Creation

variable {before : Registry} (clock : now.isValid = true)
  (reached : tree.contains directory = true ∨
    directory ≠ [] ∧ [FileName.dot, FileName.dot] ∉ directory.components)
  (loaded : Directory.registry tree directory = .ok before)
  (created : create tree directory name now = (.ok path, tree'))
include clock reached loaded created

/-- A directory grows by a new migration whose identifier is valid and new and whose text is read
back. -/
theorem grows_of_isReadBack (legible : now.IsLegible)
    (fresh : id (MigrationId.slug name) now ∉ before.ids) (read : IsReadBack name now) :
    Grows tree tree' directory path name := by
  obtain ⟨old, loadedOld⟩ := Directory.exists_load loaded
  obtain ⟨valid, apart, same⟩ := Directory.perm_of_registry loadedOld loaded
  obtain ⟨entries, defined, listed, free⟩ := exists_entries reached loadedOld created
  obtain ⟨-, -, named, rfl, -⟩ := create_eq_ok created
  obtain ⟨stem, extension, migration⟩ := parts_of_fileName named now directory
  have unused : id (MigrationId.slug name) now ∉ old.map (·.id) :=
    fun member => fresh ((Directory.ids_perm same).mem_iff.mpr member)
  have unfiled := Directory.not_mem_of_unused defined migration stem unused free
  have parsed := (Directory.parse_encode stem extension).mpr
    ⟨_, read, Sheet.define_eq_bare_iff.mpr rfl⟩
  obtain ⟨new, loadedNew, grown⟩ :=
    Directory.definitions_perm defined parsed (Directory.files_putEntry_perm migration unfiled)
  rw [← Directory.load_eq listed] at loadedNew
  have validNew : ∀ d ∈ new, MigrationId.isValid d.id = true := by
    intro d member
    rcases List.mem_cons.mp (grown.mem_iff.mp member) with rfl | member
    · exact (isValid_id_iff clock named).mpr legible
    · exact valid d member
  have apartNew : (new.map (·.id)).Nodup :=
    (grown.map _).nodup_iff.mpr (List.nodup_cons.mpr ⟨unused, apart⟩)
  obtain ⟨after, made⟩ := Directory.exists_registry loadedNew validNew apartNew
  obtain ⟨-, -, sameNew⟩ := Directory.perm_of_registry loadedNew made
  exact ⟨_, old, new, before, after, stem, loadedOld, loadedNew, grown, loaded, made,
    sameNew.trans ((grown.map _).trans (same.symm.cons _))⟩

/-- A directory that grows by a new migration has a valid and new identifier and a text that is read
back for it. -/
theorem isReadBack_of_grows (grows : Grows tree tree' directory path name) :
    now.IsLegible ∧ id (MigrationId.slug name) now ∉ before.ids ∧ IsReadBack name now := by
  obtain ⟨key, old, new, -, after, stemKey, loadedOld, loadedNew, grown, -, made, -⟩ := grows
  obtain ⟨-, -, same⟩ := Directory.perm_of_registry loadedOld loaded
  obtain ⟨validNew, apartNew, -⟩ := Directory.perm_of_registry loadedNew made
  obtain ⟨entries, -, listed, -⟩ := exists_entries reached loadedOld created
  obtain ⟨-, -, named, rfl, -⟩ := create_eq_ok created
  obtain ⟨stem, extension, migration⟩ := parts_of_fileName named now directory
  obtain rfl : key = id (MigrationId.slug name) now := by
    have texts := congrArg (·.bind Text.Utf8.decode?) (stemKey.symm.trans stem)
    simpa only [Option.bind_some, FileName.ofString, Text.Utf8.decode?_encode,
      Option.some.injEq] using texts
  have unused : id (MigrationId.slug name) now ∉ old.map (·.id) :=
    (List.nodup_cons.mp ((grown.map (·.id)).nodup_iff.mp apartNew)).1
  have valid := validNew _ (grown.mem_iff.mpr (List.mem_cons_self ..))
  refine ⟨(isValid_id_iff clock named).mp valid,
    fun member => unused ((Directory.ids_perm same).mem_iff.mp member), ?_⟩
  · rw [Directory.load_eq listed] at loadedNew
    obtain ⟨d, among, parsed⟩ := Directory.exists_parse loadedNew
      (Directory.mem_files.mpr ⟨_, FileNode.mem_putEntry .., migration, rfl⟩)
    have identified := Directory.stem_of_parse parsed
    rw [stem, Option.bind_some, FileName.ofString, Text.Utf8.decode?_encode] at identified
    -- The file cannot be one of the definitions that were loaded before, as its identifier is new.
    rcases List.mem_cons.mp (grown.mem_iff.mp among) with rfl | among
    · obtain ⟨sheet, read, defined⟩ := (Directory.parse_encode stem extension).mp parsed
      rw [Sheet.define_eq_bare_iff.mp defined] at read
      exact read
    · exact absurd (List.mem_map_of_mem among) (Option.some.inj identified ▸ unused)

omit clock in
/-- A name on one line with a character that is not legible makes the directory unreadable. -/
theorem registry_ne_ok (onLine : OnLine name.toList)
    (hidden : name.toList.all isLegible = false) (after : Registry) :
    Directory.registry tree' directory ≠ .ok after := by
  intro made
  obtain ⟨old, loadedOld⟩ := Directory.exists_load loaded
  obtain ⟨new, loadedNew⟩ := Directory.exists_load made
  obtain ⟨entries, -, listed, -⟩ := exists_entries reached loadedOld created
  obtain ⟨-, -, named, rfl, -⟩ := create_eq_ok created
  obtain ⟨stem, extension, migration⟩ := parts_of_fileName named now directory
  rw [Directory.load_eq listed] at loadedNew
  obtain ⟨d, -, parsed⟩ := Directory.exists_parse loadedNew
    (Directory.mem_files.mpr ⟨_, FileNode.mem_putEntry .., migration, rfl⟩)
  obtain ⟨sheet, read, -⟩ := (Directory.parse_encode stem extension).mp parsed
  rw [ofYaml?_text_id named onLine, hidden] at read
  cases read

/-- A directory grows by a new migration if and only if the year of the clock has four digits, the
identifier is new and the text is read back. A name of legible characters is read back, and of the
names without a line break no other one is. -/
theorem create_grows :
    (Grows tree tree' directory path name ↔
        now.IsLegible ∧ id (MigrationId.slug name) now ∉ before.ids ∧ IsReadBack name now) ∧
      (name.toList.all isLegible = true → IsReadBack name now) ∧
        (OnLine name.toList → IsReadBack name now → name.toList.all isLegible = true) := by
  obtain ⟨-, -, named, -, -⟩ := create_eq_ok created
  refine ⟨⟨isReadBack_of_grows clock reached loaded created, ?_⟩, ?_, ?_⟩
  · rintro ⟨legible, fresh, read⟩
    exact grows_of_isReadBack clock reached loaded created legible fresh read
  · intro legible
    have onLine : OnLine name.toList := fun c member =>
      Text.isBreak_of_isLegible (List.all_eq_true.mp legible c member)
    rw [IsReadBack, ofYaml?_text_id named onLine, if_pos legible]
  · intro onLine read
    rw [IsReadBack, ofYaml?_text_id named onLine] at read
    split at read
    · next legible => exact legible
    · cases read

end Creation

/-- The text of a migration that creates a collection, and drops it when undone. -/
def ordersText : String :=
  "up:\n- op: create_collection\n  collection: orders\n" ++
    "down:\n- op: drop_collection\n  collection: orders\n"

def orders : Definition where
  id := "20240101-orders"
  up := [.createCollection "orders"]
  down := [.dropCollection "orders"]

/-- The current directory with the file of one migration. -/
def ordersTree : FileTree :=
  ⟨.directory [(FileName.ofString "20240101-orders.yaml", .file (Text.Utf8.encode ordersText))]⟩

private theorem load_orders : Directory.load ordersTree [FileName.dot] = .ok [orders] := by
  let file := FileName.ofString "20240101-orders.yaml"
  have migration : Directory.isMigrationName file = true := by
    simp only [file, Directory.isMigrationName, Directory.extensions, FileName.ofString,
      Text.Utf8.encode_eq]
    decide +kernel
  have stem : (FileName.join [FileName.dot] file).stem? =
      some (FileName.ofString "20240101-orders") := by
    simp only [file, FileName.ofString, Text.Utf8.encode_eq]
    decide +kernel
  have extension : (FileName.join [FileName.dot] file).extension? ≠
      some (FileName.ofString "json") := by
    simp only [file, FileName.ofString, Text.Utf8.encode_eq]
    decide +kernel
  have parsed : Directory.parse (FileName.join [FileName.dot] file)
      (Text.Utf8.encode ordersText) = .ok orders := by
    refine (Directory.parse_encode stem extension).mpr
      ⟨{ up := orders.up, down := orders.down }, ?_, ?_⟩
    · decide +kernel
    · decide +kernel
  exact (Directory.load_eq rfl).trans (Directory.definitions_singleton migration parsed)

/-- A plain name makes a directory grow that has a migration with operations. -/
theorem create_grows_plain :
    Directory.load ordersTree [FileName.dot] = .ok [orders] ∧
      ∃ path tree', create ordersTree [FileName.dot] "Add users" ⟨⟨2025, 1, 1⟩, 0, 0, 0, 0⟩ =
          (.ok path, tree') ∧
        Grows ordersTree tree' [FileName.dot] path "Add users" := by
  obtain ⟨before, made⟩ := Directory.exists_registry load_orders (by decide) (by decide)
  obtain ⟨-, -, same⟩ := Directory.perm_of_registry load_orders made
  have short : (fileName "Add users" ⟨⟨2025, 1, 1⟩, 0, 0, 0, 0⟩).length ≤ FileTree.maxName := by
    rw [fileName, FileName.ofString, Text.Utf8.encode_eq]
    decide +kernel
  have free (below : List (FileName × FileNode)) :
      ordersTree.root.entry? (fileName "Add users" ⟨⟨2025, 1, 1⟩, 0, 0, 0, 0⟩) ≠
        some (.directory below) := by
    rw [ordersTree, FileNode.entry?_cons, FileNode.entry?_nil]
    split
    · simp
    · simp
  obtain ⟨tree', created⟩ := exists_create_here _ (by decide +kernel) short free
  obtain ⟨grows, legible, -⟩ := create_grows (by decide +kernel) (.inl rfl) made created
  have fresh : id (MigrationId.slug "Add users") ⟨⟨2025, 1, 1⟩, 0, 0, 0, 0⟩ ∉ before.ids :=
    mt (Directory.ids_perm same).mem_iff.mp (by decide +kernel)
  exact ⟨load_orders, _, tree', created, grows.mpr
    ⟨by decide +kernel, fresh, legible (by decide +kernel)⟩⟩

/-- A name with an accent of its own makes the empty directory unreadable. -/
theorem accent_unreadable :
    Directory.registry {} [FileName.dot] = .ok Registry.empty ∧
      ∃ path tree', create {} [FileName.dot] "e\u0301x" ⟨⟨2025, 1, 1⟩, 0, 0, 0, 0⟩ =
          (.ok path, tree') ∧
        ∀ after, Directory.registry tree' [FileName.dot] ≠ .ok after := by
  have onLine : OnLine "e\u0301x".toList := OnLine.of_all (by decide +kernel)
  have short : (fileName "e\u0301x" ⟨⟨2025, 1, 1⟩, 0, 0, 0, 0⟩).length ≤ FileTree.maxName := by
    rw [fileName, FileName.ofString, Text.Utf8.encode_eq]
    decide +kernel
  obtain ⟨tree', created⟩ :=
    exists_create_here [] (by decide +kernel) short (by simp [FileNode.entry?_nil])
  exact ⟨registry_empty, _, tree', created,
    registry_ne_ok (.inl rfl) registry_empty created onLine (by decide +kernel)⟩

end Stepwise.Template
