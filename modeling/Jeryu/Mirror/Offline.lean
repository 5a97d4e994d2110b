import Mathlib.Data.List.Nodup
import Jeryu.Mirror.Disk

/-!
When an offline bundle holds what was exported, and nothing beside its directory is touched.
-/

namespace Jeryu.Mirror

open FileTree Text

/-- What is relied on of the texts of an archive: JSON reads back what it wrote, and no other
    archive has the digest. -/
structure RoundTrips (codec : Codec) (archive : Archive) : Prop where
  archiveText : codec.parseArchive (codec.pretty (.archive archive)) = some archive
  manifestText : codec.parseManifest (codec.pretty (.manifest (manifestOf codec.toEncoding archive))) =
    some (manifestOf codec.toEncoding archive)
  digests : ∀ other : Archive, other.canonicalDigest codec.toEncoding =
    archive.canonicalDigest codec.toEncoding → other = archive

/-- The bundle on the disk is faithful and contained. -/
structure FaithfulBundle (codec : Codec) (path : List String) (archive : Archive) (disk : Disk) : Prop where
  roundTrip : readBundle codec disk.tree path = .ok archive.sortForDeterminism
  verifies : ∃ verification, verifyBundle codec disk.tree path = .ok verification ∧ verification.ok = true
  contained : ∀ location ∈ disk.written, normal path <+: location
  holds : ∀ repo ∈ archive.sortForDeterminism.repositories,
    ∀ file ∈ repositoryFiles codec.toEncoding repo,
      disk.tree.find (path ++ file.path) = some (.file file.bytes)
  apart : archive.sortForDeterminism.repositories.Pairwise fun repo repo' =>
    ∀ file ∈ repositoryFiles codec.toEncoding repo, ∀ file' ∈ repositoryFiles codec.toEncoding repo',
      file.place path ≠ file'.place path
  tampering : ∀ bytes, codec.parseArchive bytes ≠ some archive.sortForDeterminism →
    ∀ verification, verifyBundle codec (disk.tree.put (normal path ++ ["archive.json"]) (.file bytes)) path =
      .ok verification → verification.ok = false

/-- The archive is of this format, no repository is two directories up, and no two repositories
    have one directory. -/
structure Placeable (path : List String) (archive : Archive) : Prop where
  format : archive.format = BUNDLE_FORMAT
  inside : normal path ≠ [] → ∀ repo ∈ archive.repositories, ¬ (repo.owner = ".." ∧ repo.name = "..")
  apart : (archive.repositories.map fun repo => normal (path ++ repo.dir)).Nodup

section Names

variable {path : List String} {repo : RepositoryArchive} {encoding : Encoding}

theorem safe_slashless (input : String) : '/' ∉ (safe input).toList := by
  intro member
  simp only [safe, String.toList_ofList, List.mem_map] at member
  obtain ⟨c, -, same⟩ := member
  split at same
  · rename_i kept
    rw [same] at kept
    exact absurd kept (by decide)
  · exact absurd same (by decide)

theorem safe_char {c : Char} : (if isAsciiAlphanumeric c || c = '-' || c = '_' || c = '.' then c else '_') = '.' ↔
    c = '.' := by
  constructor
  · intro same
    split at same
    · exact same
    · exact absurd same (by decide)
  · intro same
    simp [same]

theorem safe_dots_iff {input : String} : safe input = ".." ↔ input = ".." := by
  constructor
  · intro same
    have chars : (safe input).toList = ['.', '.'] := by rw [same]; rfl
    simp only [safe, String.toList_ofList] at chars
    match given : input.toList with
    | [] => simp [given] at chars
    | [_] => simp [given] at chars
    | a :: b :: rest =>
      rw [given] at chars
      simp only [List.map_cons, List.cons.injEq, List.map_eq_nil_iff] at chars
      obtain ⟨first, second, rfl⟩ := chars
      rw [safe_char] at first second
      rw [first, second] at given
      apply String.toList_injective
      rw [given]
      rfl
  · intro same
    rw [same]
    rfl

theorem splitOn_solid {s : String} (solid : '/' ∉ s.toList) : splitOn s '/' = [s] := by
  have none : ∀ c ∈ s.toList, decide (c = '/') = false := by
    intro c member
    have apart : c ≠ '/' := fun same => solid (same ▸ member)
    simp [apart]
  simp [splitOn, List.splitOnP_eq_singleton none]

theorem splitOn_slash {s rest : String} (solid : '/' ∉ s.toList) :
    splitOn (s ++ "/" ++ rest) '/' = s :: splitOn rest '/' := by
  have first := splitOn_solid solid
  have chars : (s ++ "/" ++ rest).toList = s.toList ++ '/' :: rest.toList := by simp
  simp only [splitOn] at first ⊢
  rw [chars, List.splitOnP_append_cons _ _ (by simp), List.map_append, first]
  rfl

theorem normal_dir : normal (path ++ repo.dir) =
    lexical (lexical (normal path ++ ["repos"]) (safe repo.owner)) (safe repo.name) := by
  have plain : ¬ Dots "repos" := by simp [Dots]
  have split : path ++ repo.dir = ((path ++ ["repos"]) ++ [safe repo.owner]) ++ [safe repo.name] := by
    simp [RepositoryArchive.dir]
  rw [split, normal_append, normal_append, normal_append, lexical_plain plain]

theorem prefix_dropLast {base here : Location} (within : base <+: here) (below : here ≠ base) :
    base <+: here.dropLast := by
  have nonempty : here ≠ [] := by
    intro empty
    rw [empty] at within below
    exact below (List.prefix_nil.mp within).symm
  rw [← List.dropLast_append_getLast nonempty, List.prefix_concat_iff] at within
  rcases within with same | shorter
  · rw [List.dropLast_append_getLast nonempty] at same
    exact absurd same.symm below
  · exact shorter

theorem prefix_lexical {base here : Location} {component : String} (within : base <+: here)
    (below : component = ".." → here ≠ base) : base <+: lexical here component := by
  unfold lexical
  split
  · exact within
  · split
    · rename_i up
      exact prefix_dropLast within (below up)
    · exact within.trans (List.prefix_append _ _)

/-- Only a repository with dots for both of its names leaves the bundle. -/
theorem prefix_dir (inside : ¬ (repo.owner = ".." ∧ repo.name = "..")) :
    normal path <+: normal (path ++ repo.dir) := by
  rw [normal_dir]
  have below : normal path ++ ["repos"] ≠ normal path := by simp
  have first : normal path <+: lexical (normal path ++ ["repos"]) (safe repo.owner) :=
    prefix_lexical (List.prefix_append _ _) fun _ => below
  apply prefix_lexical first
  intro up
  have named := safe_dots_iff.mp up
  have notUp : safe repo.owner ≠ ".." := fun same => inside ⟨safe_dots_iff.mp same, named⟩
  unfold lexical
  split
  · exact below
  · simp

theorem dir_escapes (owner : repo.owner = "..") (name : repo.name = "..") :
    normal (path ++ repo.dir) = (normal path).dropLast := by
  rw [normal_dir, safe_dots_iff.mpr owner, safe_dots_iff.mpr name]
  simp [lexical]

/-- A file two directories up is outside, whatever the directory of the bundle is called: two
    files of different names cannot both be that directory. -/
theorem not_inside {name name' : String} (apart : name ≠ name') (below : normal path ≠ [])
    (inside : normal path <+: (normal path).dropLast ++ [name]) :
    ¬ normal path <+: (normal path).dropLast ++ [name'] := by
  intro inside'
  have lengths : (normal path).length = ((normal path).dropLast ++ [name]).length := by
    have positive := List.length_pos_iff.mpr below
    simp
    omega
  have same := inside.eq_of_length lengths
  have same' := inside'.eq_of_length (by simpa using lengths)
  rw [same'] at same
  simp at same
  exact apart same.symm

end Names

section Files

variable {path : List String} {archive : Archive} {encoding : Encoding} {file other : BundleFile}

theorem place_eq_iff : file.place path = other.place path ↔
    normal (path ++ file.dir) = normal (path ++ other.dir) ∧ file.name = other.name := by
  constructor
  · intro same
    obtain ⟨dirs, names⟩ := List.append_inj' same rfl
    exact ⟨dirs, by simpa using names⟩
  · intro ⟨dirs, names⟩
    simp [BundleFile.place, dirs, names]

def documentNames : List String :=
  ["repository.json", "issues.json", "pull_requests.json", "releases.json", "artifacts.json",
    "webhooks.json", "apps.json"]

theorem documents_names (repo : RepositoryArchive) : repo.documents.map Prod.fst = documentNames := rfl

theorem mem_repositoryFiles {repo : RepositoryArchive} :
    file ∈ repositoryFiles encoding repo ↔
      ∃ entry ∈ repo.documents, file = ⟨repo.dir ++ [entry.1], encoding.pretty entry.2⟩ := by
  unfold repositoryFiles RepositoryArchive.dir
  simp only [List.mem_map]
  constructor
  · intro ⟨entry, member, same⟩
    exact ⟨entry, member, same.symm⟩
  · intro ⟨entry, member, same⟩
    exact ⟨entry, member, same.symm⟩

/-- What a file of a repository is. -/
structure OfRepository (encoding : Encoding) (repo : RepositoryArchive) (file : BundleFile) : Prop where
  dir : file.dir = repo.dir
  name : file.name ∈ documentNames
  bytes : ∃ entry ∈ repo.documents, file.name = entry.1 ∧ file.bytes = encoding.pretty entry.2
  path : file.path = repo.dir ++ [file.name]

theorem ofRepository {repo : RepositoryArchive} (member : file ∈ repositoryFiles encoding repo) :
    OfRepository encoding repo file := by
  obtain ⟨entry, listed, rfl⟩ := mem_repositoryFiles.mp member
  have name : BundleFile.name ⟨repo.dir ++ [entry.1], encoding.pretty entry.2⟩ = entry.1 := by
    simp [BundleFile.name]
  refine ⟨?_, ?_, ⟨entry, listed, name, rfl⟩, ?_⟩
  · simp [BundleFile.dir]
  · rw [name, ← documents_names repo]
    exact List.mem_map_of_mem listed
  · rw [name]

/-- One name, one file. -/
theorem OfRepository.same {repo : RepositoryArchive} (first : OfRepository encoding repo file)
    (second : OfRepository encoding repo other) (names : file.name = other.name) :
    file.bytes = other.bytes := by
  obtain ⟨entry, listed, named, bytes⟩ := first.bytes
  obtain ⟨entry', listed', named', bytes'⟩ := second.bytes
  have distinct : (repo.documents.map Prod.fst).Nodup := by
    rw [documents_names]
    decide
  have same : entry = entry' :=
    List.inj_on_of_nodup_map distinct listed listed' (named.symm.trans (names.trans named'))
  rw [bytes, bytes', same]

/-- The files that belong to no repository. -/
def ownFiles (encoding : Encoding) (archive : Archive) : List BundleFile :=
  [⟨["JERYU_BUNDLE"], MARKER.toUTF8.toList⟩, ⟨["archive.json"], encoding.pretty (.archive archive)⟩,
    ⟨["docs", "restore-instructions.md"], (restoreInstructions encoding archive).toUTF8.toList⟩,
    ⟨["manifest.json"], encoding.pretty (.manifest (manifestOf encoding archive))⟩]

def ownNames : List String :=
  ["JERYU_BUNDLE", "archive.json", "restore-instructions.md", "manifest.json"]

theorem ownFiles_names : (ownFiles encoding archive).map BundleFile.name = ownNames := rfl

theorem mem_bundleFiles : file ∈ filesOf (bundleSteps encoding archive) ↔
    file ∈ ownFiles encoding archive ∨
      ∃ repo ∈ archive.repositories, file ∈ repositoryFiles encoding repo := by
  have none : filesOf [] = [] := rfl
  simp only [bundleSteps, filesOf_append, filesOf_write, filesOf_createDirAll, filesOf_repositories,
    none, List.mem_append, List.mem_cons, List.mem_flatMap, List.not_mem_nil, or_false, ownFiles]
  constructor
  · intro listed
    rcases listed with ((marker | archive) | repo) | docs | manifest
    · exact .inl (.inl marker)
    · exact .inl (.inr (.inl archive))
    · exact .inr repo
    · exact .inl (.inr (.inr (.inl docs)))
    · exact .inl (.inr (.inr (.inr manifest)))
  · intro listed
    rcases listed with (marker | archive | docs | manifest) | repo
    · exact .inl (.inl (.inl marker))
    · exact .inl (.inl (.inr archive))
    · exact .inr (.inl docs)
    · exact .inr (.inr manifest)
    · exact .inl (.inr repo)

theorem own_name (member : file ∈ ownFiles encoding archive) : file.name ∈ ownNames := by
  have names : (ownFiles encoding archive).map BundleFile.name = ownNames := ownFiles_names
  rw [← names]
  exact List.mem_map_of_mem member

theorem own_same (first : file ∈ ownFiles encoding archive) (second : other ∈ ownFiles encoding archive)
    (names : other.name = file.name) : other = file := by
  have distinct : ((ownFiles encoding archive).map BundleFile.name).Nodup := by
    rw [ownFiles_names]
    decide
  exact List.inj_on_of_nodup_map distinct second first names

theorem names_apart {name : String} (own : name ∈ ownNames) : name ∉ documentNames := by
  simp only [ownNames, List.mem_cons, List.not_mem_nil, or_false] at own
  rcases own with rfl | rfl | rfl | rfl <;> decide

theorem names_plain {name : String} (listed : name ∈ ownNames ++ documentNames) : ¬ Dots name := by
  have plain : ∀ name ∈ ownNames ++ documentNames, name ≠ "" ∧ name ≠ "." ∧ name ≠ ".." := by decide
  obtain ⟨notBlank, notDot, notDots⟩ := plain name listed
  simp [Dots, notBlank, notDot, notDots]

end Files

section Written

variable {codec : Codec} {tree : Tree} {path : List String} {archive : Archive} {disk : Disk}

theorem writeBundleTo_ok {encoding : Encoding} (ran : writeBundleTo encoding tree path archive = .ok disk) :
    Filed path (filesOf (bundleSteps encoding archive.sortForDeterminism)) disk ∧ disk.tree.isDir path := by
  unfold writeBundleTo at ran
  cases emptied : clear tree path with
  | error error => simp [emptied, bind, Except.bind] at ran
  | ok empty =>
    cases made : empty.createDirAll path with
    | error error => simp [emptied, made, bind, Except.bind] at ran
    | ok fresh =>
      simp only [emptied, made, bind, Except.bind] at ran
      obtain ⟨filed, keeps⟩ := (filed_nil fresh).run ran
      exact ⟨filed, isDir_keeps keeps (createDirAll_ok made).2⟩

theorem sorted_format : archive.sortForDeterminism.format = archive.format := rfl

/-- Sorting moves repositories, and leaves their names. -/
theorem sorted_dirs {α : Type} (f : List String → α) :
    (archive.sortForDeterminism.repositories.map fun repo => f repo.dir).Perm
      (archive.repositories.map fun repo => f repo.dir) := by
  have same : (fun repo => f (RepositoryArchive.dir repo)) ∘ RepositoryArchive.sorted =
      fun repo => f repo.dir := rfl
  show ((List.map RepositoryArchive.sorted _).map _).Perm _
  rw [List.map_map, same]
  exact (List.mergeSort_perm _ _).map _

theorem mem_sorted {repo : RepositoryArchive} (member : repo ∈ archive.sortForDeterminism.repositories) :
    ∃ original ∈ archive.repositories, original.owner = repo.owner ∧ original.name = repo.name := by
  obtain ⟨original, listed, rfl⟩ := List.mem_map.mp member
  exact ⟨original, (List.mergeSort_perm _ _).mem_iff.mp listed, rfl, rfl⟩

theorem sorted_mem {repo : RepositoryArchive} (member : repo ∈ archive.repositories) :
    repo.sorted ∈ archive.sortForDeterminism.repositories :=
  List.mem_map_of_mem ((List.mergeSort_perm _ _).mem_iff.mpr member)

theorem Filed.ownStands {encoding : Encoding} {file : BundleFile}
    (filed : Filed path (filesOf (bundleSteps encoding archive)) disk)
    (own : file ∈ ownFiles encoding archive) :
    disk.tree (file.place path) = some (.file file.bytes) := by
  have name := own_name own
  apply filed.stands (mem_bundleFiles.mpr (.inl own))
  intro other member place
  have names := (place_eq_iff.mp place).2
  rcases mem_bundleFiles.mp member with otherOwn | ⟨repo, -, listed⟩
  · rw [own_same own otherOwn names]
  · have document := (ofRepository listed).name
    rw [names] at document
    exact absurd document (names_apart name)

theorem Filed.own {encoding : Encoding} {file : BundleFile}
    (filed : Filed path (filesOf (bundleSteps encoding archive)) disk)
    (own : file ∈ ownFiles encoding archive) :
    disk.tree.find (path ++ file.path) = some (.file file.bytes) := by
  have name := own_name own
  have whole : file.path ≠ [] := by
    intro empty
    have blank : file.name = "" := by simp [BundleFile.name, empty]
    rw [blank] at name
    exact absurd name (by decide)
  exact filed.find (mem_bundleFiles.mpr (.inl own)) whole (names_plain (List.mem_append_left _ name))
    (filed.ownStands own)

theorem Filed.ofRepository {encoding : Encoding} {repo : RepositoryArchive} {file : BundleFile}
    (filed : Filed path (filesOf (bundleSteps encoding archive)) disk)
    (apart : (archive.repositories.map fun repo => normal (path ++ repo.dir)).Nodup)
    (listed : repo ∈ archive.repositories) (member : file ∈ repositoryFiles encoding repo) :
    disk.tree.find (path ++ file.path) = some (.file file.bytes) := by
  have document := Mirror.ofRepository member
  have whole : file.path ≠ [] := by
    rw [document.path]
    simp
  have bundled := mem_bundleFiles.mpr (.inr ⟨repo, listed, member⟩)
  apply filed.find bundled whole (names_plain (List.mem_append_right _ document.name))
  apply filed.stands bundled
  intro other otherMember place
  obtain ⟨dirs, names⟩ := place_eq_iff.mp place
  rcases mem_bundleFiles.mp otherMember with own | ⟨repo', listed', member'⟩
  · have name := document.name
    rw [← names] at name
    exact absurd name (names_apart (own_name own))
  · have document' := Mirror.ofRepository member'
    rw [document.dir, document'.dir] at dirs
    have same : repo' = repo := List.inj_on_of_nodup_map apart listed' listed dirs
    rw [same] at document'
    exact document'.same document names

theorem readJson_of {α : Type} {parse : List UInt8 → Option α} {name : String} {bytes : List UInt8}
    (found : tree.find (path ++ [name]) = some (.file bytes)) :
    readJson tree path parse name = match parse bytes with
      | some value => .ok value
      | none => .error .json := by
  cases parsed : parse bytes with
  | some value => simp only [readJson, Tree.read, found, parsed]
  | none => simp only [readJson, Tree.read, found, parsed]

theorem readBundle_of {bytes : List UInt8}
    (marker : tree.find (path ++ ["JERYU_BUNDLE"]) = some (.file MARKER.toUTF8.toList))
    (found : tree.find (path ++ ["archive.json"]) = some (.file bytes)) :
    readBundle codec tree path = match codec.parseArchive bytes with
      | some archive => if archive.format ≠ BUNDLE_FORMAT then
          .error (.invalidBundle "archive format is not supported") else .ok archive
      | none => .error .json := by
  have read : tree.read (path ++ ["JERYU_BUNDLE"]) = .ok MARKER.toUTF8.toList := by
    simp [Tree.read, marker]
  simp only [readBundle, read, readJson_of found, ne_eq, not_true, if_false]
  cases codec.parseArchive bytes <;> rfl

/-- What the manifest and the archive say is verified. -/
theorem verifyBundle_of {manifest : BundleManifest} {archive : Archive}
    (read : readJson tree path codec.parseManifest "manifest.json" = .ok manifest)
    (opened : readBundle codec tree path = .ok archive) :
    ∃ verification, verifyBundle codec tree path = .ok verification ∧
      (verification.ok = true ↔ manifest.format = BUNDLE_FORMAT ∧
        archive.canonicalDigest codec.toEncoding = manifest.archiveDigest ∧
        ∀ file ∈ manifest.files, (tree.find (join path file)).isSome) := by
  unfold verifyBundle
  rw [read, opened]
  refine ⟨_, rfl, ?_⟩
  simp only [List.isEmpty_iff, List.append_eq_nil_iff, List.map_eq_nil_iff, List.filter_eq_nil_iff,
    ite_eq_right_iff, reduceCtorEq, imp_false, ne_eq, not_not, and_assoc, Bool.not_eq_true,
    Option.isNone_eq_false_iff]

theorem join_repos (repo : RepositoryArchive) {name : String} (listed : name ∈ documentNames) :
    join path ("repos/" ++ safe repo.owner ++ "/" ++ safe repo.name ++ "/" ++ name) =
      path ++ (repo.dir ++ [name]) := by
  have solid : ∀ name ∈ documentNames, '/' ∉ name.toList := by decide
  have split : "repos/" ++ safe repo.owner ++ "/" ++ safe repo.name ++ "/" ++ name =
      "repos" ++ "/" ++ (safe repo.owner ++ "/" ++ (safe repo.name ++ "/" ++ name)) := by
    have first : "repos/" = "repos" ++ "/" := rfl
    rw [first]
    simp only [String.append_assoc]
  have below : startsWith ("repos" ++ "/" ++ (safe repo.owner ++ "/" ++ (safe repo.name ++ "/" ++ name)))
      "/" = false := by
    simp only [startsWith, String.toList_append]
    rfl
  rw [split]
  simp only [join, below]
  rw [splitOn_slash (by decide), splitOn_slash (safe_slashless _), splitOn_slash (safe_slashless _),
    splitOn_solid (solid name listed)]
  rfl

/-- Whatever text is put in the place of the archive, the rest of the bundle is found. -/
structure Opens (encoding : Encoding) (archive : Archive) (path : List String) (bytes : List UInt8)
    (tree : Tree) : Prop where
  manifest : tree.find (path ++ ["manifest.json"]) =
    some (.file (encoding.pretty (.manifest (manifestOf encoding archive))))
  marker : tree.find (path ++ ["JERYU_BUNDLE"]) = some (.file MARKER.toUTF8.toList)
  text : tree.find (path ++ ["archive.json"]) = some (.file bytes)

theorem Filed.ownRoot {encoding : Encoding} {name : String} {bytes : List UInt8}
    (filed : Filed path (filesOf (bundleSteps encoding archive)) disk)
    (own : ⟨[name], bytes⟩ ∈ ownFiles encoding archive) :
    disk.tree (normal path ++ [name]) = some (.file bytes) := by
  have stands : disk.tree (normal (path ++ []) ++ [name]) = some (.file bytes) := filed.ownStands own
  rw [List.append_nil] at stands
  exact stands

theorem own_root (encoding : Encoding) (archive : Archive) :
    ⟨["JERYU_BUNDLE"], MARKER.toUTF8.toList⟩ ∈ ownFiles encoding archive ∧
      ⟨["archive.json"], encoding.pretty (.archive archive)⟩ ∈ ownFiles encoding archive ∧
      ⟨["docs", "restore-instructions.md"], (restoreInstructions encoding archive).toUTF8.toList⟩ ∈
        ownFiles encoding archive ∧
      ⟨["manifest.json"], encoding.pretty (.manifest (manifestOf encoding archive))⟩ ∈
        ownFiles encoding archive := by
  simp [ownFiles]

theorem Filed.opens {encoding : Encoding}
    (filed : Filed path (filesOf (bundleSteps encoding archive)) disk) :
    Opens encoding archive path (encoding.pretty (.archive archive)) disk.tree := by
  obtain ⟨marker, text, -, manifest⟩ := own_root encoding archive
  exact ⟨filed.own manifest, filed.own marker, filed.own text⟩

theorem Filed.tampered {encoding : Encoding}
    (filed : Filed path (filesOf (bundleSteps encoding archive)) disk) (stands : disk.tree.isDir path)
    (bytes : List UInt8) :
    Opens encoding archive path bytes (disk.tree.put (normal path ++ ["archive.json"]) (.file bytes)) := by
  obtain ⟨marker, text, -, manifest⟩ := own_root encoding archive
  have marker := filed.ownRoot marker
  have text := filed.ownRoot text
  have manifest := filed.ownRoot manifest
  have stands' : (disk.tree.put (normal path ++ ["archive.json"]) (.file bytes)).isDir path :=
    isDir_keeps (keepsDirs_put (by simp [text])) stands
  constructor
  · exact find_file stands' (by simp [Dots]) (by simp [Tree.put, manifest])
  · exact find_file stands' (by simp [Dots]) (by simp [Tree.put, marker])
  · exact find_file stands' (by simp [Dots]) (by simp [Tree.put])

theorem mem_manifestFiles {encoding : Encoding} {text : String}
    (listed : text ∈ (manifestOf encoding archive).files) :
    ∃ file ∈ filesOf (bundleSteps encoding archive), join path text = path ++ file.path := by
  obtain ⟨marker, archiveText, docs, -⟩ := own_root encoding archive
  simp only [manifestOf, List.mem_append, List.mem_cons, List.mem_flatMap, List.mem_map,
    List.not_mem_nil, or_false] at listed
  rcases listed with ((rfl | rfl) | ⟨repo, member, entry, document, rfl⟩) | rfl
  · exact ⟨_, mem_bundleFiles.mpr (.inl marker), rfl⟩
  · exact ⟨_, mem_bundleFiles.mpr (.inl archiveText), rfl⟩
  · have name : entry.1 ∈ documentNames := by
      rw [← documents_names repo]
      exact List.mem_map_of_mem document
    have filed : _ ∈ repositoryFiles encoding repo := mem_repositoryFiles.mpr ⟨entry, document, rfl⟩
    exact ⟨_, mem_bundleFiles.mpr (.inr ⟨repo, member, filed⟩), join_repos repo name⟩
  · exact ⟨_, mem_bundleFiles.mpr (.inl docs), rfl⟩

theorem Opens.verified {bytes : List UInt8} {opened : Archive} {sorted : Archive}
    (opens : Opens codec.toEncoding sorted path bytes tree) (lawful : RoundTrips codec sorted)
    (parsed : codec.parseArchive bytes = some opened) (format : opened.format = BUNDLE_FORMAT) :
    ∃ verification, verifyBundle codec tree path = .ok verification ∧
      (verification.ok = true ↔ opened = sorted ∧
        ∀ file ∈ (manifestOf codec.toEncoding sorted).files, (tree.find (join path file)).isSome) := by
  have read : readJson tree path codec.parseManifest "manifest.json" =
      .ok (manifestOf codec.toEncoding sorted) := by
    rw [readJson_of opens.manifest, lawful.manifestText]
  have openedBundle : readBundle codec tree path = .ok opened := by
    rw [readBundle_of opens.marker opens.text, parsed]
    simp [format]
  obtain ⟨verification, verified, ok⟩ := verifyBundle_of read openedBundle
  refine ⟨verification, verified, ?_⟩
  rw [ok]
  constructor
  · intro ⟨_, digest, files⟩
    exact ⟨lawful.digests opened digest, files⟩
  · intro ⟨same, files⟩
    rw [same]
    exact ⟨rfl, rfl, files⟩

/-- A text that is not the archive's is not verified. -/
theorem Opens.refused {bytes : List UInt8} {sorted : Archive}
    (opens : Opens codec.toEncoding sorted path bytes tree) (lawful : RoundTrips codec sorted)
    (other : codec.parseArchive bytes ≠ some sorted) {verification : BundleVerification}
    (verified : verifyBundle codec tree path = .ok verification) : verification.ok = false := by
  have read : readJson tree path codec.parseManifest "manifest.json" =
      .ok (manifestOf codec.toEncoding sorted) := by
    rw [readJson_of opens.manifest, lawful.manifestText]
  have bundle : readBundle codec tree path = _ := readBundle_of opens.marker opens.text
  cases parsed : codec.parseArchive bytes with
  | none =>
    rw [parsed] at bundle
    simp [verifyBundle, read, bundle, bind, Except.bind] at verified
  | some opened =>
    by_cases format : opened.format = BUNDLE_FORMAT
    · obtain ⟨verification', verified', ok⟩ := opens.verified lawful parsed format
      rw [verified] at verified'
      cases verified'
      rw [← Bool.not_eq_true, ok]
      intro ⟨same, _⟩
      rw [parsed, same] at other
      exact other rfl
    · rw [parsed] at bundle
      simp [verifyBundle, read, bundle, format, bind, Except.bind] at verified

theorem escaping_places {encoding : Encoding} {repo : RepositoryArchive}
    (listed : repo ∈ archive.repositories)
    (filed : Filed path (filesOf (bundleSteps encoding archive)) disk)
    (owner : repo.owner = "..") (name : repo.name = "..") :
    (normal path).dropLast ++ ["repository.json"] ∈ disk.written ∧
      (normal path).dropLast ++ ["issues.json"] ∈ disk.written := by
  have place {entry : String × Document} (document : entry ∈ repo.documents) :
      (normal path).dropLast ++ [entry.1] ∈ disk.written := by
    have member : _ ∈ repositoryFiles encoding repo := mem_repositoryFiles.mpr ⟨entry, document, rfl⟩
    have bundled := mem_bundleFiles.mpr (.inr ⟨repo, listed, member⟩)
    rw [filed.written, List.mem_map]
    refine ⟨_, bundled, ?_⟩
    have here := ofRepository member
    rw [BundleFile.place, here.dir, dir_escapes owner name]
    simp [BundleFile.name]
  have repository : ("repository.json", .repository repo) ∈ repo.documents := by
    simp [RepositoryArchive.documents]
  have issues : ("issues.json", .issues repo.issues) ∈ repo.documents := by
    simp [RepositoryArchive.documents]
  exact ⟨place repository, place issues⟩

/-- Repositories that share no file are in different directories. -/
theorem dirs_apart {encoding : Encoding} {repos : List RepositoryArchive} :
    (repos.Pairwise fun repo repo' => ∀ file ∈ repositoryFiles encoding repo,
      ∀ file' ∈ repositoryFiles encoding repo', file.place path ≠ file'.place path) ↔
      (repos.map fun repo => normal (path ++ repo.dir)).Nodup := by
  rw [List.Nodup, List.pairwise_map]
  constructor
  · intro apart
    refine apart.imp ?_
    intro repo repo' apart same
    have first : (⟨repo.dir ++ ["repository.json"], _⟩ : BundleFile) ∈ repositoryFiles encoding repo :=
      mem_repositoryFiles.mpr ⟨("repository.json", .repository repo), by simp [RepositoryArchive.documents], rfl⟩
    have second : (⟨repo'.dir ++ ["repository.json"], _⟩ : BundleFile) ∈ repositoryFiles encoding repo' :=
      mem_repositoryFiles.mpr ⟨("repository.json", .repository repo'), by simp [RepositoryArchive.documents], rfl⟩
    apply apart _ first _ second
    rw [place_eq_iff, (ofRepository first).dir, (ofRepository second).dir]
    exact ⟨same, by simp [BundleFile.name]⟩
  · intro apart
    refine apart.imp ?_
    intro repo repo' apart file member file' member' same
    have dirs := (place_eq_iff.mp same).1
    rw [(ofRepository member).dir, (ofRepository member').dir] at dirs
    exact apart dirs

theorem own_inside {encoding : Encoding} {file : BundleFile} (own : file ∈ ownFiles encoding archive) :
    normal path <+: file.place path := by
  have inside {dir : List String} {name : String} (listed : dir = [] ∨ dir = ["docs"]) :
      normal path <+: normal (path ++ dir) ++ [name] := by
    rcases listed with rfl | rfl
    · rw [List.append_nil]
      exact List.prefix_append _ _
    · have plain : ¬ Dots "docs" := by simp [Dots]
      rw [normal_append, lexical_plain plain, List.append_assoc]
      exact List.prefix_append _ _
  simp only [ownFiles, List.mem_cons, List.not_mem_nil, or_false] at own
  rcases own with rfl | rfl | rfl | rfl
  · exact inside (.inl rfl)
  · exact inside (.inl rfl)
  · exact inside (.inr rfl)
  · exact inside (.inl rfl)

end Written

theorem bundle_faithful_iff {codec : Codec} {tree : Tree} {path : List String} {archive : Archive}
    {disk : Disk} (lawful : RoundTrips codec archive.sortForDeterminism)
    (written : writeBundleTo codec.toEncoding tree path archive = .ok disk) :
    FaithfulBundle codec path archive disk ↔ Placeable path archive := by
  obtain ⟨filed, stands⟩ := writeBundleTo_ok written
  have opens := filed.opens
  have sortedDirs : (archive.sortForDeterminism.repositories.map fun repo => normal (path ++ repo.dir)).Perm
      (archive.repositories.map fun repo => normal (path ++ repo.dir)) :=
    sorted_dirs fun dir => normal (path ++ dir)
  constructor
  · intro faithful
    constructor
    · by_contra format
      have read : readBundle codec disk.tree path = _ := readBundle_of opens.marker opens.text
      rw [faithful.roundTrip, lawful.archiveText] at read
      simp [sorted_format, format] at read
    · intro below repo member ⟨owner, name⟩
      obtain ⟨first, second⟩ := escaping_places (sorted_mem member) filed owner name
      exact not_inside (by decide) below (faithful.contained _ first) (faithful.contained _ second)
    · exact sortedDirs.nodup_iff.mp (dirs_apart.mp faithful.apart)
  · intro placeable
    have apart := sortedDirs.nodup_iff.mpr placeable.apart
    have found {repo : RepositoryArchive} {file : BundleFile}
        (listed : repo ∈ archive.sortForDeterminism.repositories)
        (member : file ∈ repositoryFiles codec.toEncoding repo) :
        disk.tree.find (path ++ file.path) = some (.file file.bytes) :=
      filed.ofRepository apart listed member
    constructor
    · rw [readBundle_of opens.marker opens.text, lawful.archiveText]
      simp [sorted_format, placeable.format]
    · obtain ⟨verification, verified, ok⟩ := opens.verified lawful lawful.archiveText placeable.format
      refine ⟨verification, verified, ok.mpr ⟨rfl, ?_⟩⟩
      intro text listed
      obtain ⟨file, bundled, joined⟩ := mem_manifestFiles listed
      rw [joined]
      rcases mem_bundleFiles.mp bundled with own | ⟨repo, listed, member⟩
      · rw [filed.own own]
        rfl
      · rw [found listed member]
        rfl
    · intro location member
      rw [filed.written, List.mem_map] at member
      obtain ⟨file, bundled, rfl⟩ := member
      by_cases below : normal path = []
      · rw [below]
        exact List.nil_prefix
      · rcases mem_bundleFiles.mp bundled with own | ⟨repo, listed, member⟩
        · exact own_inside own
        · obtain ⟨original, member', owner, name⟩ := mem_sorted listed
          have inside := placeable.inside below original member'
          rw [owner, name] at inside
          rw [BundleFile.place, (ofRepository member).dir]
          exact (prefix_dir inside).trans (List.prefix_append _ _)
    · intro repo listed file member
      exact found listed member
    · exact dirs_apart.mpr apart
    · intro bytes other verification verified
      exact (filed.tampered stands bytes).refused lawful other verified

section Demo

open Json Classical

/-- An encoding that tells one archive from all others. -/
noncomputable def namingEncoding (archive : Archive) : Encoding where
  pretty
    | .archive _ => [0]
    | .manifest _ => [1]
    | _ => [2]
  compact other := if other = archive then [1] else [0]
  sha256Hex bytes := if bytes = [1] then "1" else "0"
  uuid _ := "00000000-0000-0000-0000-000000000000"

noncomputable def namingCodec (archive : Archive) : Codec where
  toEncoding := namingEncoding archive
  parseArchive bytes := if bytes = [0] then some archive else none
  parseManifest bytes := if bytes = [1] then some (manifestOf (namingEncoding archive) archive) else none

theorem namingCodec_roundTrips (archive : Archive) : RoundTrips (namingCodec archive) archive where
  archiveText := rfl
  manifestText := rfl
  digests other same := by
    by_contra apart
    simp [Archive.canonicalDigest, namingCodec, namingEncoding, apart] at same

def plainTexts : Texts := ⟨fun _ => "", fun _ => none⟩

/-- An export of one repository. -/
def exported (owner name : String) : Value :=
  .object [("repositories", .array
    [.object [("name", .string name), ("owner", .object [("login", .string owner)])]])]

def imported (owner name : String) : Archive :=
  { Archive.new ⟨0, 0⟩ .gitHub "github-export" with
    repositories := [parseRepo plainTexts 0
      (.object [("name", .string name), ("owner", .object [("login", .string owner)])])] }

theorem imported_sorted (owner name : String) :
    (imported owner name).sortForDeterminism = imported owner name := by
  simp [Archive.sortForDeterminism, imported, sortByKey, RepositoryArchive.sorted, parseRepo, array,
    Value.get, List.lookup_cons, List.lookup_nil]

theorem exported_imported (owner name : String) :
    archiveFromGithubValue plainTexts ⟨0, 0⟩ (exported owner name) = .ok (imported owner name) := by
  rw [← imported_sorted]
  rfl

/-- The bundle of the one repository. -/
noncomputable def bundleOf (owner name : String) : Except Errno Disk :=
  writeBundleTo (namingCodec (imported owner name)).toEncoding (fun _ => none) ["srv", "bundle"]
    (imported owner name)

theorem bundleOf_ok {owner name : String} (wrote : (bundleOf owner name).isOk) :
    ∃ disk, bundleOf owner name = .ok disk ∧
      RoundTrips (namingCodec (imported owner name)) (imported owner name).sortForDeterminism := by
  rw [imported_sorted]
  cases written : bundleOf owner name with
  | error error => simp [written, Except.isOk, Except.toBool] at wrote
  | ok disk => exact ⟨disk, rfl, namingCodec_roundTrips _⟩

theorem bundleOf_rocket : (bundleOf "acme" "rocket").isOk := by
  rw [bundleOf, writeBundleTo, imported_sorted]
  decide +kernel

theorem bundleOf_dots : (bundleOf ".." "..").isOk := by
  rw [bundleOf, writeBundleTo, imported_sorted]
  decide +kernel

end Demo

theorem bundle_faithful_demo : ∃ disk, bundleOf "acme" "rocket" = .ok disk ∧
    FaithfulBundle (namingCodec (imported "acme" "rocket")) ["srv", "bundle"] (imported "acme" "rocket") disk := by
  obtain ⟨disk, written, lawful⟩ := bundleOf_ok bundleOf_rocket
  refine ⟨disk, written, (bundle_faithful_iff lawful written).mpr ⟨rfl, fun _ => ?_, ?_⟩⟩
  · intro repo member
    rw [List.mem_singleton.mp member]
    decide
  · decide

/-- An export can name a repository that is written two directories up. -/
theorem dotted_repository_escapes : ∃ disk, bundleOf ".." ".." = .ok disk ∧
    archiveFromGithubValue plainTexts ⟨0, 0⟩ (exported ".." "..") = .ok (imported ".." "..") ∧
    ["srv", "repository.json"] ∈ disk.written ∧
    ¬ FaithfulBundle (namingCodec (imported ".." "..")) ["srv", "bundle"] (imported ".." "..") disk := by
  obtain ⟨disk, written, -⟩ := bundleOf_ok bundleOf_dots
  have filed := (writeBundleTo_ok written).1
  rw [imported_sorted] at filed
  have outside := (escaping_places (List.mem_singleton_self _) filed rfl rfl).1
  refine ⟨disk, written, exported_imported _ _, outside, ?_⟩
  intro faithful
  exact absurd (faithful.contained _ outside) (by decide)

end Jeryu.Mirror
