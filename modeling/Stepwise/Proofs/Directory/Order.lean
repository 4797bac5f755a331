import Stepwise.Proofs.Directory.Load
import Stepwise.Proofs.Registry.OrderedMap

/-!
# The order in which a directory is listed

A directory makes the same registry in whatever order its entries are listed, and its migration
files decide alone whether it makes one: all of them have to be read, under valid identifiers of
which none stands twice (`Directory.loading`).
-/

namespace Stepwise

namespace Directory

open FileName (dot)

variable {directory path stem extension : FileName} {content : List UInt8} {tree : FileTree}
  {entries entries' : List (FileName × FileNode)} {all : List Definition} {r : Registry}

/-- Whether entries are those of a directory: each has a name of its own. -/
structure IsListing (entries : List (FileName × FileNode)) : Prop where
  named : ∀ entry ∈ entries, entry.1.IsEntry
  apart : (entries.map (·.1)).Nodup

instance : Decidable (IsListing entries) :=
  decidable_of_iff ((∀ entry ∈ entries, entry.1.IsEntry) ∧ (entries.map (·.1)).Nodup)
    ⟨fun ⟨named, apart⟩ => ⟨named, apart⟩, fun ⟨named, apart⟩ => ⟨named, apart⟩⟩

/-- A file among entries whose name is a stem, a dot and the extension of migration files. -/
structure MigrationFile (entries : List (FileName × FileNode)) (stem extension : FileName)
    (content : List UInt8) : Prop where
  listed : (stem ++ dot :: extension, .file content) ∈ entries
  filled : stem ≠ []
  known : extension ∈ extensions

/-- Whether the migration files among entries are read, under valid identifiers of which none stands
twice. -/
structure Loadable (directory : FileName) (entries : List (FileName × FileNode)) : Prop where
  parsed : ∀ {stem extension content}, MigrationFile entries stem extension content →
    ∃ d, parse (FileName.join directory (stem ++ dot :: extension)) content = .ok d
  valid : ∀ {stem extension content}, MigrationFile entries stem extension content →
    ∃ id, stem = FileName.ofString id ∧ MigrationId.isValid id = true
  apart : ∀ {stem extension extension' content content'},
    MigrationFile entries stem extension content →
      MigrationFile entries stem extension' content' → extension = extension'

/-- A name stands for one thing in a directory. -/
theorem IsListing.eq_of_mem {name : FileName} {node node' : FileNode} (listing : IsListing entries)
    (member : (name, node) ∈ entries) (member' : (name, node') ∈ entries) : node = node' :=
  congrArg Prod.snd (List.inj_on_of_nodup_map listing.apart member member' rfl)

/-- Whether files are parsed to definitions, one after the other. -/
abbrev ParsedTo (read : List (FileName × List UInt8)) (all : List Definition) : Prop :=
  List.Forall₂ (fun file d => parse file.1 file.2 = .ok d) read all

/-- No dot stands in an extension of migration files. -/
theorem dot_not_mem_of_mem_extensions (known : extension ∈ extensions) : dot ∉ extension := by
  have plain : extensions.all (fun extension => dot ∉ extension) = true := by
    simp only [extensions, List.map, FileName.ofString, Text.Utf8.encode_eq]
    decide +kernel
  exact of_decide_eq_true (List.all_eq_true.mp plain extension known)

private theorem MigrationFile.split_eq (file : MigrationFile entries stem extension content) :
    (stem ++ dot :: extension).split = (stem, some extension) :=
  FileName.split_append file.filled (dot_not_mem_of_mem_extensions file.known)

/-- The stem of the path of a migration file is that of its name. -/
theorem MigrationFile.stem?_join (listing : IsListing entries)
    (file : MigrationFile entries stem extension content) :
    (FileName.join directory (stem ++ dot :: extension)).stem? = some stem := by
  rw [FileName.stem?, FileName.base?_join (listing.named _ file.listed), Option.map_some,
    file.split_eq]

theorem isMigrationName_iff {name : FileName} (entry : name.IsEntry) :
    isMigrationName name = true ↔
      ∃ stem extension, name = stem ++ dot :: extension ∧ stem ≠ [] ∧ extension ∈ extensions := by
  rw [isMigrationName, FileName.extension?, entry.base?_eq, Option.bind_some]
  constructor
  · intro migration
    obtain ⟨extension, ends, known⟩ := (Option.any_eq_true _ _).mp migration
    obtain ⟨filled, whole⟩ := FileName.split_eq_some ends
    exact ⟨_, extension, whole, filled, of_decide_eq_true known⟩
  · rintro ⟨stem, extension, rfl, filled, known⟩
    rw [FileName.split_append filled (dot_not_mem_of_mem_extensions known)]
    exact decide_eq_true known

/-- The files that are read are the migration files. -/
theorem mem_files_iff (listing : IsListing entries) :
    (path, content) ∈ files directory entries ↔
      ∃ stem extension, MigrationFile entries stem extension content ∧
        path = FileName.join directory (stem ++ dot :: extension) := by
  rw [mem_files]
  constructor
  · rintro ⟨name, member, migration, rfl⟩
    obtain ⟨stem, extension, rfl, filled, known⟩ :=
      (isMigrationName_iff (listing.named _ member)).mp migration
    exact ⟨stem, extension, ⟨member, filled, known⟩, rfl⟩
  · rintro ⟨stem, extension, file, rfl⟩
    have entry := listing.named _ file.listed
    exact ⟨_, file.listed,
      (isMigrationName_iff entry).mpr ⟨stem, extension, rfl, file.filled, file.known⟩, rfl⟩

/-- No file is read twice. -/
theorem nodup_files (listing : IsListing entries) : (files directory entries).Nodup := by
  have apart : entries.Pairwise (·.1 ≠ ·.1) := List.pairwise_map.mp listing.apart
  rw [files, List.Nodup, List.pairwise_filterMap]
  refine apart.imp_of_mem fun {a b} listed listed' different read answer read' answer' => ?_
  rintro rfl
  have first : read ∈ files directory [a] :=
    List.mem_filterMap.mpr ⟨a, List.mem_singleton_self a, answer⟩
  have second : read ∈ files directory [b] :=
    List.mem_filterMap.mpr ⟨b, List.mem_singleton_self b, answer'⟩
  obtain ⟨name, one, -, joined⟩ := mem_files.mp first
  obtain ⟨name', one', -, joined'⟩ := mem_files.mp second
  obtain rfl := List.mem_singleton.mp one
  obtain rfl := List.mem_singleton.mp one'
  exact different
    ((listing.named _ listed).join_injective (listing.named _ listed') (joined.symm.trans joined'))

/-- Directories with the same migration files read the same files. -/
theorem files_perm (listing : IsListing entries) (listing' : IsListing entries')
    (alike : ∀ stem extension content, MigrationFile entries' stem extension content ↔
      MigrationFile entries stem extension content) :
    (files directory entries').Perm (files directory entries) := by
  refine (List.perm_ext_iff_of_nodup (nodup_files listing') (nodup_files listing)).mpr ?_
  rintro ⟨path, content⟩
  simp only [mem_files_iff listing, mem_files_iff listing', alike]

/-- The registry of a directory has the definitions of its files, in whatever order. -/
theorem registry_eq_ok_iff (listed : tree.list directory = .ok entries) :
    registry tree directory = .ok r ↔
      ∃ all, ParsedTo (files directory entries) all ∧
        Registry.ofList (all.map Definition.toMigration) = .ok r := by
  rw [registry, load_eq listed, Except.bind_eq_ok_iff]
  simp only [definitions_eq_ok_iff]
  have sorted (all : List Definition) :
      ((all.mergeSort fun a b => a.id ≤ b.id).map Definition.toMigration).Perm
        (all.map Definition.toMigration) :=
    (List.mergeSort_perm ..).map _
  constructor
  · rintro ⟨_, ⟨all, parsed, rfl⟩, made⟩
    exact ⟨all, parsed, Registry.ofList_perm (sorted all).symm made⟩
  · rintro ⟨all, parsed, made⟩
    exact ⟨_, ⟨all, parsed, rfl⟩, Registry.ofList_perm (sorted all) made⟩

/-- Directories that read the same files make the same registry. -/
theorem registry_of_files_perm {tree' : FileTree} (listed : tree.list directory = .ok entries)
    (listed' : tree'.list directory = .ok entries')
    (same : (files directory entries').Perm (files directory entries))
    (made : registry tree directory = .ok r) : registry tree' directory = .ok r := by
  obtain ⟨all, parsed, made⟩ := (registry_eq_ok_iff listed).mp made
  obtain ⟨all', parsed', shuffled⟩ := List.perm_comp_forall₂ same parsed
  exact (registry_eq_ok_iff listed').mpr
    ⟨all', parsed', Registry.ofList_perm (shuffled.map _) made⟩

private theorem mem_iff_of_parsed {d : Definition} {read : List (FileName × List UInt8)}
    (parsed : ParsedTo read all) :
    d ∈ all ↔ ∃ file ∈ read, parse file.1 file.2 = .ok d := by
  have answers : read.map (fun file => parse file.1 file.2) = all.map .ok := by
    rw [← List.forall₂_eq_eq_eq, List.forall₂_map_left_iff, List.forall₂_map_right_iff]
    exact parsed
  rw [← List.mem_map, answers, List.mem_map_of_injective fun _ _ => Except.ok.inj]

/-- The identifiers of definitions are pairwise different where the stems of their files are. -/
theorem nodup_ids_iff {read : List (FileName × List UInt8)} (once : read.Nodup)
    (parsed : ParsedTo read all) :
    (all.map (·.id)).Nodup ↔ ∀ file ∈ read, ∀ file' ∈ read,
      file.1.stem?.bind Text.Utf8.decode? = file'.1.stem?.bind Text.Utf8.decode? →
        file = file' := by
  have stems : read.map (fun file => file.1.stem?.bind Text.Utf8.decode?) =
      (all.map (·.id)).map some := by
    rw [← List.forall₂_eq_eq_eq, List.map_map, List.forall₂_map_left_iff,
      List.forall₂_map_right_iff]
    exact parsed.imp fun _ _ => stem_of_parse
  rw [← List.nodup_map_iff_inj_on once, stems, List.nodup_map_iff fun _ _ => Option.some.inj]

/-- The identifier of a definition is the stem of its file. -/
theorem MigrationFile.stem_eq {d : Definition} (listing : IsListing entries)
    (file : MigrationFile entries stem extension content)
    (parsed : parse (FileName.join directory (stem ++ dot :: extension)) content = .ok d) :
    stem = FileName.ofString d.id := by
  have named := stem_of_parse parsed
  rw [file.stem?_join listing, Option.bind_some] at named
  exact Text.Utf8.decode?_eq_some_iff.mp named

/-- The migration files of a directory all have definitions if and only if they are parsed. -/
theorem exists_parsed_iff (listing : IsListing entries) :
    (∃ all, ParsedTo (files directory entries) all) ↔
      ∀ stem extension content, MigrationFile entries stem extension content →
        ∃ d, parse (FileName.join directory (stem ++ dot :: extension)) content = .ok d := by
  simp only [← Except.mapM_eq_ok, Except.exists_mapM_ok]
  constructor
  · intro parsed stem extension content file
    exact parsed _ ((mem_files_iff listing).mpr ⟨stem, extension, file, rfl⟩)
  · rintro parsed ⟨path, content⟩ member
    obtain ⟨stem, extension, file, rfl⟩ := (mem_files_iff listing).mp member
    exact parsed stem extension content file

/-- The definitions of a directory are those of its migration files. -/
theorem mem_iff_exists_file {d : Definition} (listing : IsListing entries)
    (parsed : ParsedTo (files directory entries) all) :
    d ∈ all ↔
      ∃ stem extension content, MigrationFile entries stem extension content ∧
        parse (FileName.join directory (stem ++ dot :: extension)) content = .ok d := by
  rw [mem_iff_of_parsed parsed]
  constructor
  · rintro ⟨⟨path, content⟩, member, defined⟩
    obtain ⟨stem, extension, file, rfl⟩ := (mem_files_iff listing).mp member
    exact ⟨stem, extension, content, file, defined⟩
  · rintro ⟨stem, extension, content, file, defined⟩
    exact ⟨_, (mem_files_iff listing).mpr ⟨stem, extension, file, rfl⟩, defined⟩

private theorem admits_iff {all : List Definition} :
    Registry.Admits (all.map Definition.toMigration) ↔
      (∀ d ∈ all, MigrationId.isValid d.id = true) ∧ (all.map (·.id)).Nodup := by
  rw [Registry.Admits, List.forall_mem_map, List.map_map]
  rfl

/-- The identifiers that a registry admits are the stems of the files. -/
theorem Loadable.of_admits (listing : IsListing entries)
    (parsed : ParsedTo (files directory entries) all)
    (admitted : Registry.Admits (all.map Definition.toMigration)) :
    Loadable directory entries := by
  obtain ⟨valid, apart⟩ := admits_iff.mp admitted
  have apart := (nodup_ids_iff (nodup_files listing) parsed).mp apart
  have everyParsed := (exists_parsed_iff listing).mp ⟨all, parsed⟩
  refine ⟨fun file => everyParsed _ _ _ file, ?_, ?_⟩
  · intro stem extension content file
    obtain ⟨d, defined⟩ := everyParsed _ _ _ file
    have among := (mem_iff_exists_file listing parsed).mpr ⟨_, _, _, file, defined⟩
    exact ⟨d.id, file.stem_eq listing defined, valid d among⟩
  · intro stem extension extension' content content' file file'
    have same := apart _ ((mem_files_iff listing).mpr ⟨_, _, file, rfl⟩)
      _ ((mem_files_iff listing).mpr ⟨_, _, file', rfl⟩)
      (by rw [file.stem?_join listing, file'.stem?_join listing])
    have names := (listing.named _ file.listed).join_injective
      (listing.named _ file'.listed) (congrArg Prod.fst same)
    exact (List.cons.inj (List.append_cancel_left names)).2

private theorem Loadable.admits (loadable : Loadable directory entries)
    (listing : IsListing entries) (parsed : ParsedTo (files directory entries) all) :
    Registry.Admits (all.map Definition.toMigration) := by
  refine admits_iff.mpr ⟨?_, (nodup_ids_iff (nodup_files listing) parsed).mpr ?_⟩
  · intro d among
    obtain ⟨stem, extension, content, file, defined⟩ :=
      (mem_iff_exists_file listing parsed).mp among
    obtain ⟨id, named, valid⟩ := loadable.valid file
    have same := (file.stem_eq listing defined).symm.trans named
    rwa [Text.Utf8.encode_injective same]
  · rintro ⟨path, content⟩ member ⟨path', content'⟩ member' same
    obtain ⟨stem, extension, file, rfl⟩ := (mem_files_iff listing).mp member
    obtain ⟨stem', extension', file', rfl⟩ := (mem_files_iff listing).mp member'
    dsimp only at same
    rw [file.stem?_join listing, file'.stem?_join listing, Option.bind_some, Option.bind_some]
      at same
    -- Valid stems are texts, so that those with the same text are the same.
    obtain ⟨id, rfl, -⟩ := loadable.valid file
    obtain ⟨id', rfl, -⟩ := loadable.valid file'
    rw [FileName.ofString, FileName.ofString, Text.Utf8.decode?_encode,
      Text.Utf8.decode?_encode] at same
    cases same
    obtain rfl := loadable.apart file file'
    cases listing.eq_of_mem file.listed file'.listed
    rfl

private theorem exists_registry_iff (listing : IsListing entries)
    (listed : tree.list directory = .ok entries) :
    (∃ r, registry tree directory = .ok r) ↔ Loadable directory entries := by
  simp only [registry_eq_ok_iff listed]
  constructor
  · rintro ⟨r, all, parsed, made⟩
    exact .of_admits listing parsed (Registry.exists_ofList_iff.mp ⟨r, made⟩)
  · intro loadable
    obtain ⟨all, parsed⟩ := (exists_parsed_iff listing).mpr fun _ _ _ file => loadable.parsed file
    obtain ⟨r, made⟩ := Registry.exists_ofList_iff.mpr (loadable.admits listing parsed)
    exact ⟨r, all, parsed, made⟩

theorem mem_registry_iff {m : Migration} (listing : IsListing entries)
    (listed : tree.list directory = .ok entries) (made : registry tree directory = .ok r) :
    m ∈ r.migrations ↔
      ∃ stem extension content d, MigrationFile entries stem extension content ∧
        parse (FileName.join directory (stem ++ dot :: extension)) content = .ok d ∧
          m = d.toMigration := by
  obtain ⟨all, parsed, made⟩ := (registry_eq_ok_iff listed).mp made
  rw [Registry.mem_migrations_iff made, List.mem_map]
  simp only [mem_iff_exists_file listing parsed]
  constructor
  · rintro ⟨d, ⟨stem, extension, content, file, defined⟩, rfl⟩
    exact ⟨stem, extension, content, d, file, defined, rfl⟩
  · rintro ⟨stem, extension, content, d, file, defined, rfl⟩
    exact ⟨d, ⟨stem, extension, content, file, defined⟩, rfl⟩

/-- A directory makes a registry if and only if all its migration files are parsed, under valid
stems of which none stands twice. The registry has the migrations of the files in strictly ascending
order. It is the same in whatever order the directory is listed, and in every directory with the
same migration files. -/
theorem loading (listed : tree.list directory = .ok entries) (listing : IsListing entries) :
    ((∃ r, registry tree directory = .ok r) ↔ Loadable directory entries) ∧
    (∀ r, registry tree directory = .ok r →
      r.ids.Pairwise (· < ·) ∧
      ∀ m, m ∈ r.migrations ↔
        ∃ stem extension content d, MigrationFile entries stem extension content ∧
          parse (FileName.join directory (stem ++ dot :: extension)) content = .ok d ∧
            m = d.toMigration) ∧
    ∀ (tree' : FileTree) (entries' : List (FileName × FileNode)),
      tree'.list directory = .ok entries' →
        (entries'.Perm entries ∨
          IsListing entries' ∧
            ∀ stem extension content, MigrationFile entries' stem extension content ↔
              MigrationFile entries stem extension content) →
          ∀ r, registry tree' directory = .ok r ↔ registry tree directory = .ok r := by
  refine ⟨exists_registry_iff listing listed, fun r made => ?_, ?_⟩
  · exact ⟨r.ascending_ids, fun m => mem_registry_iff listing listed made⟩
  · intro tree' entries' listed' alike r
    have same : (files directory entries').Perm (files directory entries) := by
      rcases alike with shuffled | ⟨listing', alike⟩
      · exact shuffled.filterMap _
      · exact files_perm listing listing' alike
    exact ⟨registry_of_files_perm listed' listed same.symm,
      registry_of_files_perm listed listed' same⟩

/-- The entry of a migration file that says no more than a description. -/
def described (stem extension description : String) : FileName × FileNode :=
  (FileName.ofString stem ++ dot :: FileName.ofString extension,
    .file (Text.Utf8.encode ("description: " ++ description)))

def sorted : List (FileName × FileNode) :=
  [described "20250101-users" "yaml" "users", described "20250102-orders" "yml" "orders"]

/-- The entries of the same files, of another and of a directory. -/
def unsorted : List (FileName × FileNode) :=
  [described "20250102-orders" "yml" "orders", described "notes" "txt" "notes",
    (FileName.ofString "old.json", .directory sorted), described "20250101-users" "yaml" "users"]

def place : FileName :=
  FileName.ofString "migrations"

def ofEntries (entries : List (FileName × FileNode)) : FileTree :=
  ⟨.directory [(place, .directory entries)]⟩

private theorem ofString_eq (s : String) :
    FileName.ofString s = s.toList.flatMap String.utf8EncodeChar :=
  Text.Utf8.encode_eq s

private theorem list_ofEntries (entries : List (FileName × FileNode)) :
    (ofEntries entries).list place = .ok entries := by
  have octets : place = "migrations".toList.flatMap String.utf8EncodeChar := ofString_eq _
  have parts : FileName.components place = [place] := by
    rw [octets]
    decide +kernel
  have followed : (ofEntries entries).follow [] [place] = .ok [place] := by
    rw [FileTree.follow]
    simp only [ofEntries, FileNode.at?]
    rw [if_neg (by rw [octets]; decide +kernel), if_neg (by rw [octets]; decide +kernel)]
    rfl
  refine FileTree.list_eq_ok_iff.mpr ⟨[place], FileTree.locate_eq_ok_iff.mpr ⟨?_, ?_, ?_⟩, ?_⟩
  · rw [octets]
    decide +kernel
  · rw [octets]
    decide +kernel
  · rw [parts]
    exact followed
  · simp [ofEntries, FileNode.at?, FileNode.entry?, FileNode.entries]

private theorem isListing_unsorted : IsListing unsorted := by
  simp only [unsorted, described, ofString_eq]
  decide +kernel

private theorem isListing_sorted : IsListing sorted := by
  simp only [sorted, described, ofString_eq]
  decide +kernel

private theorem isMigrationName_described :
    isMigrationName (described "20250101-users" "yaml" "users").1 = true ∧
      isMigrationName (described "20250102-orders" "yml" "orders").1 = true ∧
        isMigrationName (described "notes" "txt" "notes").1 = false := by
  simp only [described, isMigrationName, extensions, List.map, ofString_eq]
  decide +kernel

private theorem migrationFile_sorted_iff :
    MigrationFile sorted stem extension content ↔
      MigrationFile unsorted stem extension content := by
  constructor
  · rintro ⟨listed, filled, known⟩
    refine ⟨?_, filled, known⟩
    simp only [sorted, unsorted, List.mem_cons, List.not_mem_nil, or_false] at listed ⊢
    tauto
  · rintro ⟨listed, filled, known⟩
    refine ⟨?_, filled, known⟩
    have migration := (isMigrationName_iff (isListing_unsorted.named _ listed)).mpr
      ⟨stem, extension, rfl, filled, known⟩
    simp only [sorted, unsorted, List.mem_cons, List.not_mem_nil, or_false] at listed ⊢
    rcases listed with orders | notes | old | users
    · exact .inr orders
    · have other := isMigrationName_described.2.2
      rw [← congrArg Prod.fst notes, migration] at other
      contradiction
    · exact absurd (congrArg Prod.snd old) nofun
    · exact .inl users

private theorem parse_users :
    parse (FileName.join place (described "20250101-users" "yaml" "users").1)
        (Text.Utf8.encode ("description: " ++ "users")) =
      .ok { id := "20250101-users", description := "users" } := by
  refine (parse_encode ?_ ?_).mpr ⟨{ description := "users" }, by decide +kernel, rfl⟩
  · simp only [described, place, ofString_eq]
    decide +kernel
  · simp only [described, place, ofString_eq]
    decide +kernel

private theorem parse_orders :
    parse (FileName.join place (described "20250102-orders" "yml" "orders").1)
        (Text.Utf8.encode ("description: " ++ "orders")) =
      .ok { id := "20250102-orders", description := "orders" } := by
  refine (parse_encode ?_ ?_).mpr ⟨{ description := "orders" }, by decide +kernel, rfl⟩
  · simp only [described, place, ofString_eq]
    decide +kernel
  · simp only [described, place, ofString_eq]
    decide +kernel

/-- Both files make migrations, whatever else is in the directory. -/
theorem exists_registry_unsorted : ∃ r, registry (ofEntries unsorted) place = .ok r := by
  let all : List Definition :=
    [{ id := "20250102-orders", description := "orders" },
      { id := "20250101-users", description := "users" }]
  have read : files place unsorted =
      [(FileName.join place (described "20250102-orders" "yml" "orders").1,
          Text.Utf8.encode ("description: " ++ "orders")),
        (FileName.join place (described "20250101-users" "yaml" "users").1,
          Text.Utf8.encode ("description: " ++ "users"))] := by
    simp only [files, unsorted, List.filterMap_cons, isMigrationName_described]
    rfl
  have parsed : ParsedTo (files place unsorted) all := by
    rw [read]
    exact .cons parse_orders (.cons parse_users .nil)
  have admitted : Registry.Admits (all.map Definition.toMigration) := ⟨by decide, by decide⟩
  obtain ⟨r, made⟩ := Registry.exists_ofList_iff.mpr admitted
  exact ⟨r, (registry_eq_ok_iff (list_ofEntries _)).mpr ⟨all, parsed, made⟩⟩

/-- Two migration files make one registry in either order and beside other entries, and none
together with a third file for one of their identifiers. -/
theorem loading_unsorted :
    let again := described "20250101-users" "json" "users"
    (∃ r, registry (ofEntries unsorted) place = .ok r ∧
      registry (ofEntries unsorted.reverse) place = .ok r ∧
      registry (ofEntries sorted) place = .ok r ∧ r.ids.Pairwise (· < ·) ∧
      ({ id := "20250101-users", description := "users" } : Definition).toMigration ∈
        r.migrations) ∧
    ∀ r, registry (ofEntries (again :: sorted)) place ≠ .ok r := by
  intro again
  have filled : FileName.ofString "20250101-users" ≠ [] := by
    rw [ofString_eq]
    decide +kernel
  have known : ∀ extension ∈ ["yaml", "yml", "json"], FileName.ofString extension ∈ extensions :=
    fun _ member => List.mem_map_of_mem member
  constructor
  · obtain ⟨-, loaded, elsewhere⟩ := loading (list_ofEntries unsorted) isListing_unsorted
    obtain ⟨r, made⟩ := exists_registry_unsorted
    obtain ⟨ascending, members⟩ := loaded r made
    have shuffled := elsewhere _ _ (list_ofEntries _) (.inl unsorted.reverse_perm) r
    have alone := elsewhere _ _ (list_ofEntries _)
      (.inr ⟨isListing_sorted, fun _ _ _ => migrationFile_sorted_iff⟩) r
    have listed : described "20250101-users" "yaml" "users" ∈ unsorted := by simp [unsorted]
    have users : MigrationFile unsorted _ _ _ := ⟨listed, filled, known "yaml" (by decide)⟩
    exact ⟨r, made, shuffled.mpr made, alone.mpr made, ascending,
      (members _).mpr ⟨_, _, _, _, users, parse_users, rfl⟩⟩
  · intro r made
    have listing : IsListing (again :: sorted) := by
      simp only [again, sorted, described, ofString_eq]
      decide +kernel
    have loadable := (loading (list_ofEntries _) listing).1.mp ⟨r, made⟩
    have first : MigrationFile (again :: sorted) _ _ _ :=
      ⟨List.mem_cons_self, filled, known "json" (by decide)⟩
    have second : MigrationFile (again :: sorted) _ _ _ :=
      ⟨List.mem_cons_of_mem _ List.mem_cons_self, filled, known "yaml" (by decide)⟩
    have same := Text.Utf8.encode_injective (loadable.apart first second)
    contradiction

end Directory

end Stepwise
