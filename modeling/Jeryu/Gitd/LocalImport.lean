import Jeryu.Gitd.Names
import Jeryu.Gitd.Trunk

/-!
Local Git directories imported as bare mirrors. An import clones into a destination that is not
there yet; one that is there is refreshed from its own origin.
-/

namespace Jeryu.Gitd

open KeyedMap Text

/-- The components of an absolute path. -/
abbrev Path := List String

def pathText (path : Path) : String := "/" ++ "/".intercalate path

abbrev RefMap := HashMap String RefTarget

inductive GitDirKind where
  | worktree
  | bare
  deriving DecidableEq

inductive GitImportAction where
  | cloned
  | fetched
  deriving DecidableEq

structure GitImportEntry where
  sourcePath : Path
  owner : String
  name : String
  bare : Bool
  repoPath : Place
  action : GitImportAction
  deriving DecidableEq

structure GitImportSkip where
  sourcePath : Path
  owner : String
  name : String
  reason : String
  deriving DecidableEq

structure GitImportReport where
  storageRoot : Path
  imported : List GitImportEntry
  skipped : List GitImportSkip

/-- The bare repositories, the origin each of them has in its configuration, the branch its `HEAD`
    names, and which of them lack their `objects` or `refs`. -/
structure Storage where
  disk : Disk
  origins : HashMap Place String
  heads : HashMap Place String
  incomplete : List Place

/-- What the importer finds around the storage: the local paths, and what `git` finds at a URL, of
    which it copies the refs. No import changes a path outside the storage. -/
structure LocalHost (storageRoot : Path) where
  canonicalize : Path → Option Path
  canonical : ∀ path source, canonicalize path = some source → canonicalize source = some source
  classify : Path → Option GitDirKind
  home : Option Path
  refsAt : Disk → String → RefMap
  outside : ∀ disk disk' path, ¬(canonicalize storageRoot).getD storageRoot <+: path →
    refsAt disk (pathText path) = refsAt disk' (pathText path)
  headBranch : Path → Option String
  cloneMirror : Disk → String → Place → Option (List String)
  remoteUpdate : Disk → Place → Option (List String)
  checkRefFormat : String → Bool

structure LocalGitImporter where
  manager : RepoManager
  storageRoot : Path
  host : LocalHost storageRoot
  extraGuardRoots : List Path

def repoName (path : Path) : String := trimEndCopies (path.getLast?.getD "repo") ".git"

def inferredOwner (path : Path) : String :=
  ((path.dropLast.getLast?).filter fun name => !startsWith name ".").getD "local"

namespace LocalGitImporter

variable (importer : LocalGitImporter)

def guardRoots : List Path :=
  importer.extraGuardRoots ++ (importer.host.home.map fun home => home ++ [".jeryu"]).toList

def guarded : List (Path × String) :=
  (importer.storageRoot, "gitd storage root") :: importer.guardRoots.map fun root => (root, "protected jeryu root")

def resolved (root : Path) : Path := (importer.host.canonicalize root).getD root

def forbiddenImportRoot (source : Path) : Option String :=
  (importer.guarded.find? fun entry => (importer.resolved entry.1).isPrefixOf source).map fun entry =>
    s!"refusing import: {pathText source} is inside the {entry.2} {pathText (importer.resolved entry.1)}"

def NOT_A_GIT_DIRECTORY : String := "not a Git directory"

/-- The bare repository after its `remote update`: without an origin there is nothing to fetch. -/
def mirrorFetch (storage : Storage) (place : Place) : Except GitdError Storage := do
  let some objects := importer.host.remoteUpdate storage.disk place | throw (.gitCommandFailed "git remote update")
  match storage.disk.lookup place, storage.origins.lookup place with
  | some bare, some url =>
    let bare := { bare with refs := importer.host.refsAt storage.disk url, objects := objects }
    return { storage with disk := storage.disk.insert place bare }
  | _, _ => return storage

/-- `record_existing_bare`; the metadata it writes is read by nothing here. -/
def recordExistingBare (storage : Storage) (id : RepoId) : Except GitdError Repository := do
  let repo ← importer.manager.opened storage.disk id
  if storage.incomplete.contains repo.place then
    throw (.invalidInput ("repository is not a complete bare Git repo: " ++ repo.place.owner ++ "/" ++
      repo.place.directory))
  return repo

def mirrorClone (storage : Storage) (remoteUrl : String) (branch : Option String) (id : RepoId) :
    Except GitdError (Storage × Repository) := do
  let some objects := importer.host.cloneMirror storage.disk remoteUrl id.place
    | throw (.gitCommandFailed "git clone")
  let bare : BareRepo := ⟨importer.host.refsAt storage.disk remoteUrl, objects, ∅, false, false⟩
  let heads := match branch with
    | some branch => storage.heads.insert id.place branch
    | none => storage.heads.erase id.place
  let storage : Storage :=
    ⟨storage.disk.insert id.place bare, storage.origins.insert id.place remoteUrl, heads,
      storage.incomplete.filter (· ≠ id.place)⟩
  return (storage, ← importer.recordExistingBare storage id)

def reconcileHead (storage : Storage) (place : Place) (branch : String) : Except GitdError Storage :=
  let head := "refs/heads/" ++ branch
  if storage.heads.lookup place = some branch then .ok storage
  else if ((storage.disk.lookup place).bind fun bare => bare.refs.lookup head) = none then .ok storage
  else if importer.host.checkRefFormat head then
    .ok { storage with heads := storage.heads.insert place branch }
  else .error (.gitCommandFailed "git check-ref-format")

/-- `HEAD` follows the default branch of the source. -/
def followHead (storage : Storage) (source : Path) (place : Place) : Except GitdError Storage :=
  match importer.host.headBranch source with
  | some branch => importer.reconcileHead storage place branch
  | none => .ok storage

/-- The repository a source is mirrored in, and how it came there. -/
def materialize (storage : Storage) (source : Path) (id : RepoId) :
    Except GitdError (Storage × Repository × GitImportAction) :=
  match importer.manager.opened storage.disk id with
  | .ok repo => do
    let storage ← importer.mirrorFetch storage repo.place
    let repo ← importer.recordExistingBare storage id
    return (storage, repo, .fetched)
  | .error (.repoNotFound _) => do
    let (storage, repo) ← importer.mirrorClone storage (pathText source) (importer.host.headBranch source) id
    return (storage, repo, .cloned)
  | .error error => throw error

def importRepo (storage : Storage) (sourcePath : Path) (id : RepoId) :
    Except GitdError (Storage × GitImportEntry) := do
  let some source := importer.host.canonicalize sourcePath | throw .io
  if let some reason := importer.forbiddenImportRoot source then throw (.invalidInput reason)
  let some kind := importer.host.classify source | throw (.invalidInput NOT_A_GIT_DIRECTORY)
  let (storage, repo, action) ← importer.materialize storage source id
  let storage ← importer.followHead storage source repo.place
  return (storage, ⟨source, id.owner, id.name, kind = .bare, repo.place, action⟩)

variable (owner : Option String)

/-- One turn of the loop. -/
def importPath (done : Storage × GitImportReport) (path : Path) : Except GitdError (Storage × GitImportReport) := do
  let (storage, report) := done
  let some source := importer.host.canonicalize path | throw .io
  let repoOwner := owner.getD (inferredOwner source)
  let name := repoName source
  match importer.forbiddenImportRoot source with
  | some reason =>
    return (storage, { report with skipped := report.skipped ++ [⟨source, repoOwner, name, reason⟩] })
  | none =>
    let id ← RepoId.new repoOwner name
    match importer.importRepo storage source id with
    | .ok (storage, entry) => return (storage, { report with imported := report.imported ++ [entry] })
    | .error error =>
      if error = .invalidInput NOT_A_GIT_DIRECTORY then
        let skip : GitImportSkip := ⟨source, repoOwner, name, NOT_A_GIT_DIRECTORY⟩
        return (storage, { report with skipped := report.skipped ++ [skip] })
      else throw error

def importPaths (storage : Storage) (paths : List Path) : Except GitdError (Storage × GitImportReport) :=
  paths.foldlM (importer.importPath owner) (storage, ⟨importer.storageRoot, [], []⟩)

/-- The source and the id of a path that is imported. -/
def candidate (path : Path) : Option (Path × RepoId) := do
  let source ← importer.host.canonicalize path
  let id ← (RepoId.new (owner.getD (inferredOwner source)) (repoName source)).toOption
  if importer.forbiddenImportRoot source = none && (importer.host.classify source).isSome then
    some (source, id)
  else none

/-- The place an id leads to, which is its own when no repository is found. -/
def destination (storage : Storage) (id : RepoId) : Place :=
  match importer.manager.opened storage.disk id with
  | .ok repo => repo.place
  | .error _ => id.place

/-- The refs that a repository there has once it is refreshed, else those of the source. -/
def settled (storage : Storage) (source : Path) (place : Place) : RefMap :=
  match storage.disk.lookup place, storage.origins.lookup place with
  | some _, some url => importer.host.refsAt storage.disk url
  | some bare, none => bare.refs
  | none, _ => importer.host.refsAt storage.disk (pathText source)

end LocalGitImporter

section Opened

variable {manager : RepoManager} {disk disk' : Disk} {id : RepoId} {repo : Repository}

theorem redirectTarget_present (found : manager.redirectTarget disk id = .ok (some repo)) :
    disk.lookup repo.place ≠ none := by
  unfold RepoManager.redirectTarget at found
  split at found
  · cases found
  · split at found
    · cases found
    · split at found
      · cases found
      · obtain ⟨made, -, found⟩ := bind_ok found
        dsimp only at found
        split at found
        · cases found
        · rename_i present
          cases found
          exact present

theorem redirectTarget_grow (grows : ∀ place, disk.lookup place ≠ none → disk'.lookup place ≠ none)
    (found : manager.redirectTarget disk id = .ok (some repo)) :
    manager.redirectTarget disk' id = .ok (some repo) := by
  unfold RepoManager.redirectTarget at found ⊢
  split at found
  · cases found
  · split at found
    · cases found
    · split at found
      · cases found
      · rename_i different
        rw [if_neg different]
        obtain ⟨made, makes, found⟩ := bind_ok found
        dsimp only at found
        split at found
        · cases found
        · rename_i present
          cases found
          rw [makes]
          show (if disk'.lookup (RepoManager.resolve made).place = none then _ else _) = _
          rw [if_neg (grows _ present)]
          rfl

theorem opened_exists (opens : manager.opened disk id = .ok repo) : disk.lookup repo.place ≠ none := by
  unfold RepoManager.opened at opens
  dsimp only at opens
  split at opens
  · rename_i present
    cases opens
    exact present
  · obtain ⟨target, found, opens⟩ := bind_ok opens
    cases target with
    | none => cases opens
    | some target =>
      cases opens
      exact redirectTarget_present found

theorem absent_of_opened_error {error : GitdError} (fails : manager.opened disk id = .error error) :
    disk.lookup id.place = none := by
  by_contra present
  rw [manager.opened_present present] at fails
  cases fails

/-- A repository that is found is found again when only the places of other ids have come up. -/
theorem opened_grow (grows : ∀ place, disk.lookup place ≠ none → disk'.lookup place ≠ none)
    (own : disk.lookup id.place = none → disk'.lookup id.place = none) (opens : manager.opened disk id = .ok repo) :
    manager.opened disk' id = .ok repo := by
  by_cases absent : disk.lookup id.place = none
  · have absent' := own absent
    unfold RepoManager.opened at opens ⊢
    dsimp only at opens ⊢
    have none_ : ¬disk.lookup (RepoManager.resolve id).place ≠ none := not_not_intro absent
    have none_' : ¬disk'.lookup (RepoManager.resolve id).place ≠ none := not_not_intro absent'
    rw [if_neg none_] at opens
    rw [if_neg none_']
    obtain ⟨target, found, opens⟩ := bind_ok opens
    cases target with
    | none => cases opens
    | some target =>
      rw [redirectTarget_grow grows found]
      exact opens
  · rw [manager.opened_present absent] at opens
    rw [manager.opened_present (grows _ absent)]
    exact opens

end Opened

namespace LocalGitImporter

variable {importer : LocalGitImporter} {storage storage' : Storage} {source : Path} {id : RepoId}
variable {repo : Repository} {action : GitImportAction}

/-- What the import of one source does to the storage. -/
structure Imported (importer : LocalGitImporter) (storage storage' : Storage) (source : Path) (id : RepoId)
    (place : Place) : Prop where
  leads : place = importer.destination storage id
  here : ∃ bare, storage'.disk.lookup place = some bare ∧ bare.refs = importer.settled storage source place
  other : ∀ place', place' ≠ place → storage'.disk.lookup place' = storage.disk.lookup place'
  again : ∃ repo, importer.manager.opened storage'.disk id = .ok repo ∧ repo.place = place
  fresh : storage.disk.lookup place = none →
    place = id.place ∧ ∃ error, importer.manager.opened storage.disk id = .error error

theorem recordExistingBare_ok (records : importer.recordExistingBare storage id = .ok repo) :
    importer.manager.opened storage.disk id = .ok repo := by
  obtain ⟨found, opens, records⟩ := bind_ok records
  split at records
  · cases records
  · cases records
    exact opens

theorem mirrorFetch_ok (source : Path) {place : Place} (present : storage.disk.lookup place ≠ none)
    (fetches : importer.mirrorFetch storage place = .ok storage') :
    (∃ bare, storage'.disk.lookup place = some bare ∧ bare.refs = importer.settled storage source place) ∧
      ∀ place', place' ≠ place → storage'.disk.lookup place' = storage.disk.lookup place' := by
  unfold mirrorFetch at fetches
  split at fetches
  swap
  · cases fetches
  cases found : storage.disk.lookup place with
  | none => exact absurd found present
  | some bare =>
    cases origin : storage.origins.lookup place with
    | some url =>
      rw [found, origin] at fetches
      cases fetches
      refine ⟨⟨_, HashMap.lookup_insert_self _ _ _, ?_⟩, fun place' other => ?_⟩
      · simp only [settled, found, origin]
      · show (storage.disk.insert place _).lookup place' = _
        rw [HashMap.lookup_insert_if, if_neg other]
    | none =>
      rw [found, origin] at fetches
      cases fetches
      refine ⟨⟨bare, found, ?_⟩, fun _ _ => rfl⟩
      simp only [settled, found, origin]

theorem materialize_ok (made : importer.materialize storage source id = .ok (storage', repo, action)) :
    Imported importer storage storage' source id repo.place := by
  unfold materialize at made
  split at made
  · rename_i found opens
    obtain ⟨storage₁, fetches, made⟩ := bind_ok made
    obtain ⟨recorded, records, made⟩ := bind_ok made
    cases made
    have present := opened_exists opens
    obtain ⟨here, other⟩ := mirrorFetch_ok source present fetches
    have kept : ∀ place, storage.disk.lookup place ≠ none → storage'.disk.lookup place ≠ none := by
      intro place there
      by_cases same : place = found.place
      · subst same
        obtain ⟨bare, here, -⟩ := here
        rw [here]
        exact Option.some_ne_none _
      · rwa [other place same]
    have own : storage.disk.lookup id.place = none → storage'.disk.lookup id.place = none := by
      intro absent
      rwa [other]
      intro same
      rw [same] at absent
      exact present absent
    have opens' := opened_grow kept own opens
    have again := recordExistingBare_ok records
    obtain rfl : found = repo := Except.ok.inj (opens'.symm.trans again)
    refine ⟨?_, here, other, ⟨found, again, rfl⟩, fun absent => absurd absent present⟩
    rw [destination, opens]
  · rename_i path fails
    obtain ⟨⟨storage₁, recorded⟩, clones, made⟩ := bind_ok made
    cases made
    unfold mirrorClone at clones
    split at clones
    swap
    · cases clones
    rename_i objects _
    obtain ⟨recorded, records, clones⟩ := bind_ok clones
    cases clones
    have absent := absent_of_opened_error fails
    have again := recordExistingBare_ok records
    have present : (storage.disk.insert id.place ⟨importer.host.refsAt storage.disk (pathText source), objects, ∅,
        false, false⟩).lookup id.place ≠ none := by
      rw [HashMap.lookup_insert_self]
      exact Option.some_ne_none _
    obtain rfl : RepoManager.resolve id = repo :=
      Except.ok.inj ((importer.manager.opened_present present).symm.trans again)
    refine ⟨?_, ⟨_, HashMap.lookup_insert_self _ _ _, ?_⟩, fun place' other => ?_, ⟨_, again, rfl⟩,
      fun _ => ⟨rfl, _, fails⟩⟩
    · rw [destination, fails]
      rfl
    · show _ = importer.settled storage source id.place
      simp only [settled, absent]
    · show (storage.disk.insert id.place _).lookup place' = _
      rw [HashMap.lookup_insert_if]
      exact if_neg other
  · cases made

theorem Imported.grow {place : Place} (imported : Imported importer storage storage' source id place) {other : RepoId}
    {found : Repository} (opens : importer.manager.opened storage.disk other = .ok found) :
    importer.manager.opened storage'.disk other = .ok found := by
  obtain ⟨-, ⟨bare, here, -⟩, elsewhere, -, fresh⟩ := imported
  apply opened_grow _ _ opens
  · intro place' there
    by_cases same : place' = place
    · rw [same, here]
      exact Option.some_ne_none _
    · rwa [elsewhere place' same]
  · intro absent
    by_cases same : other.place = place
    · rw [same] at absent
      obtain ⟨own, error, fails⟩ := fresh absent
      obtain rfl : other = id := RepoId.place_injective (same.trans own)
      rw [opens] at fails
      cases fails
    · rwa [elsewhere _ same]

theorem followHead_disk {place : Place} (done : importer.followHead storage source place = .ok storage') :
    storage'.disk = storage.disk := by
  unfold followHead at done
  split at done
  swap
  · cases done
    rfl
  unfold reconcileHead at done
  dsimp only at done
  split at done
  · cases done
    rfl
  · split at done
    · cases done
      rfl
    · split at done
      · cases done
        rfl
      · cases done

theorem Imported.of_disk {storage'' : Storage} (same : storage''.disk = storage'.disk) {place : Place}
    (imported : Imported importer storage storage' source id place) :
    Imported importer storage storage'' source id place := by
  obtain ⟨leads, here, other, again, fresh⟩ := imported
  rw [← same] at here other again
  exact ⟨leads, here, other, again, fresh⟩

theorem importRepo_ok {entry : GitImportEntry} (canonical : importer.host.canonicalize source = some source)
    (done : importer.importRepo storage source id = .ok (storage', entry)) :
    importer.forbiddenImportRoot source = none ∧ (importer.host.classify source).isSome ∧
      Imported importer storage storage' source id entry.repoPath ∧ entry.sourcePath = source := by
  unfold importRepo at done
  rw [canonical] at done
  dsimp only at done
  cases forbidden : importer.forbiddenImportRoot source with
  | some reason =>
    rw [forbidden] at done
    cases done
  | none =>
    cases kind : importer.host.classify source with
    | none =>
      rw [forbidden, kind] at done
      cases done
    | some kind =>
      rw [forbidden, kind] at done
      obtain ⟨⟨storage₁, repo, action⟩, makes, done⟩ := bind_ok done
      have made := materialize_ok makes
      obtain ⟨storage₂, heads, done⟩ := bind_ok done
      cases done
      exact ⟨rfl, rfl, made.of_disk (followHead_disk heads), rfl⟩

end LocalGitImporter

section Errors

theorem bind_error {ε α β : Type} {first : Except ε α} {next : α → Except ε β} {error : ε}
    (fails : (first >>= next) = .error error) :
    first = .error error ∨ ∃ found, first = .ok found ∧ next found = .error error := by
  cases first with
  | error error' =>
    cases fails
    exact .inl rfl
  | ok found => exact .inr ⟨found, rfl, fails⟩

theorem validateSegment_error {name field : String} {error : GitdError}
    (fails : validateSegment name field = .error error) (message : String) : error ≠ .invalidInput message := by
  rintro rfl
  unfold validateSegment at fails
  split_ifs at fails <;> cases fails

theorem repoId_error {owner name : String} {error : GitdError} (fails : RepoId.new owner name = .error error)
    (message : String) : error ≠ .invalidInput message := by
  rcases bind_error fails with fails | ⟨⟨⟩, -, fails⟩
  · exact validateSegment_error fails message
  · rcases bind_error fails with fails | ⟨⟨⟩, -, fails⟩
    · exact validateSegment_error fails message
    · cases fails

theorem opened_error {manager : RepoManager} {disk : Disk} {id : RepoId} {error : GitdError}
    (fails : manager.opened disk id = .error error) (message : String) : error ≠ .invalidInput message := by
  unfold RepoManager.opened at fails
  dsimp only at fails
  split at fails
  · cases fails
  rcases bind_error fails with fails | ⟨target, -, fails⟩
  · unfold RepoManager.redirectTarget at fails
    split at fails
    · cases fails
    split at fails
    · cases fails
    split at fails
    · cases fails
    rcases bind_error fails with fails | ⟨made, -, fails⟩
    · exact repoId_error fails message
    · dsimp only at fails
      split at fails <;> cases fails
      exact GitdError.noConfusion
  · cases target with
    | none =>
      cases fails
      exact GitdError.noConfusion
    | some target => cases fails

end Errors

namespace LocalGitImporter

variable {importer : LocalGitImporter} {storage storage' : Storage} {source : Path} {id : RepoId}

theorem materialize_error {error : GitdError} (fails : importer.materialize storage source id = .error error) :
    error ≠ .invalidInput NOT_A_GIT_DIRECTORY := by
  have recording {storage : Storage} (fails : importer.recordExistingBare storage id = .error error) :
      error ≠ .invalidInput NOT_A_GIT_DIRECTORY := by
    rcases bind_error fails with fails | ⟨repo, -, fails⟩
    · exact opened_error fails _
    · split at fails <;> cases fails
      intro same
      injection same with same
      have first := congrArg (fun text : String => text.toList.head?) same
      simp [NOT_A_GIT_DIRECTORY] at first
  unfold materialize at fails
  split at fails
  · rcases bind_error fails with fails | ⟨storage₁, -, fails⟩
    · unfold mirrorFetch at fails
      split at fails
      · split at fails <;> cases fails
      · cases fails
        exact GitdError.noConfusion
    · rcases bind_error fails with fails | ⟨repo, -, fails⟩
      · exact recording fails
      · cases fails
  · rcases bind_error fails with fails | ⟨made, -, fails⟩
    · unfold mirrorClone at fails
      split at fails
      · rcases bind_error fails with fails | ⟨repo, -, fails⟩
        · exact recording fails
        · cases fails
      · cases fails
        exact GitdError.noConfusion
    · cases fails
  · rename_i error' _ opens
    cases fails
    exact opened_error opens _

theorem followHead_error {place : Place} {error : GitdError}
    (fails : importer.followHead storage source place = .error error) : error ≠ .invalidInput NOT_A_GIT_DIRECTORY := by
  unfold followHead at fails
  split at fails
  · unfold reconcileHead at fails
    dsimp only at fails
    split_ifs at fails
    cases fails
    exact GitdError.noConfusion
  · cases fails

theorem importRepo_not_git (canonical : importer.host.canonicalize source = some source)
    (allowed : importer.forbiddenImportRoot source = none)
    (fails : importer.importRepo storage source id = .error (.invalidInput NOT_A_GIT_DIRECTORY)) :
    importer.host.classify source = none := by
  unfold importRepo at fails
  rw [canonical] at fails
  dsimp only at fails
  rw [allowed] at fails
  cases kind : importer.host.classify source with
  | none => rfl
  | some kind =>
    rw [kind] at fails
    rcases bind_error fails with fails | ⟨made, -, fails⟩
    · exact absurd rfl (materialize_error fails)
    · rcases bind_error fails with fails | ⟨storage₁, -, fails⟩
      · exact absurd rfl (followHead_error fails)
      · cases fails

variable {owner : Option String} {report report' : GitImportReport} {path : Path}

theorem importPath_ok (done : importer.importPath owner (storage, report) path = .ok (storage', report')) :
    (importer.candidate owner path = none ∧ storage' = storage ∧ report'.imported = report.imported) ∨
      ∃ source id entry, importer.candidate owner path = some (source, id) ∧
        Imported importer storage storage' source id entry.repoPath ∧ entry.sourcePath = source ∧
        report'.imported = report.imported ++ [entry] := by
  unfold importPath at done
  cases found : importer.host.canonicalize path with
  | none =>
    rw [found] at done
    cases done
  | some source =>
    have canonical := importer.host.canonical path source found
    rw [found] at done
    dsimp only at done
    cases allowed : importer.forbiddenImportRoot source with
    | some reason =>
      rw [allowed] at done
      cases done
      left
      refine ⟨?_, rfl, rfl⟩
      simp [candidate, found, allowed]
    | none =>
      rw [allowed] at done
      obtain ⟨id, named, done⟩ := bind_ok done
      have chosen : importer.candidate owner path =
          if (importer.host.classify source).isSome then some (source, id) else none := by
        simp [candidate, found, allowed, named, Except.toOption]
      split at done
      · rename_i storage₁ entry imports
        cases done
        obtain ⟨-, kind, imported, same⟩ := importRepo_ok canonical imports
        right
        refine ⟨source, id, entry, ?_, imported, same, rfl⟩
        rw [chosen, if_pos kind]
      · rename_i error fails
        split at done
        · rename_i notGit
          cases done
          rw [notGit] at fails
          have kind := importRepo_not_git canonical allowed fails
          left
          refine ⟨?_, rfl, rfl⟩
          rw [chosen, kind]
          rfl
        · cases done

variable (importer owner)

/-- Every entry has the refs of its own source, and no two sources share a repository. -/
structure Mirrors (storage : Storage) (report : GitImportReport) : Prop where
  refs : ∀ entry ∈ report.imported, ∃ bare, storage.disk.lookup entry.repoPath = some bare ∧
    bare.refs = importer.host.refsAt storage.disk (pathText entry.sourcePath)
  apart : ∀ entry ∈ report.imported, ∀ entry' ∈ report.imported, entry.sourcePath ≠ entry'.sourcePath →
    entry.repoPath ≠ entry'.repoPath

/-- What a turn needs of the storage and the report it finds. -/
def CleanTurn (storage : Storage) (report : GitImportReport) (path : Path) (later : List Path) : Prop :=
  ∀ source id, importer.candidate owner path = some (source, id) →
    (∀ entry ∈ report.imported, entry.sourcePath ≠ source → entry.repoPath ≠ importer.destination storage id) ∧
      ((∃ path' ∈ later, importer.host.canonicalize path' = some source) ∨
        importer.settled storage source (importer.destination storage id) =
          importer.host.refsAt storage.disk (pathText source))

def CleanFrom (done : Storage × GitImportReport) (paths : List Path) : Prop :=
  ∀ before path later, paths = before ++ path :: later → ∀ storage report,
    before.foldlM (importer.importPath owner) done = .ok (storage, report) →
      CleanTurn importer owner storage report path later

/-- No path has a destination that an earlier path with another source has, or one whose origin has
    other refs. -/
def Clean (storage : Storage) (paths : List Path) : Prop :=
  CleanFrom importer owner (storage, ⟨importer.storageRoot, [], []⟩) paths

variable {importer owner} {later : List Path}

theorem CleanFrom.head (clean : CleanFrom importer owner (storage, report) (path :: later)) :
    CleanTurn importer owner storage report path later :=
  clean [] path later rfl storage report rfl

theorem CleanFrom.tail (clean : CleanFrom importer owner (storage, report) (path :: later))
    (done : importer.importPath owner (storage, report) path = .ok (storage', report')) :
    CleanFrom importer owner (storage', report') later := by
  rintro before path' later' rfl storage₁ report₁ run
  refine clean (path :: before) path' later' rfl storage₁ report₁ ?_
  rw [List.foldlM_cons, done]
  exact run

theorem candidate_some : importer.candidate owner path = some (source, id) ↔
    importer.host.canonicalize path = some source ∧
      RepoId.new (owner.getD (inferredOwner source)) (repoName source) = .ok id ∧
      importer.forbiddenImportRoot source = none ∧ (importer.host.classify source).isSome := by
  constructor
  · intro chosen
    obtain ⟨source', canonical, chosen⟩ := Option.bind_eq_some_iff.mp chosen
    obtain ⟨id', named, chosen⟩ := Option.bind_eq_some_iff.mp chosen
    split at chosen
    · rename_i allowed
      cases chosen
      simp only [Bool.and_eq_true, decide_eq_true_eq] at allowed
      refine ⟨canonical, ?_, allowed⟩
      cases made : RepoId.new (owner.getD (inferredOwner source)) (repoName source) with
      | error error =>
        rw [made] at named
        cases named
      | ok made' =>
        rw [made] at named
        cases named
        rfl
    · cases chosen
  · rintro ⟨canonical, named, allowed, kind⟩
    simp [candidate, canonical, named, allowed, kind, Except.toOption]

theorem candidate_again {path' : Path} (chosen : importer.candidate owner path = some (source, id))
    (same : importer.host.canonicalize path' = some source) : importer.candidate owner path' = some (source, id) := by
  obtain ⟨-, rest⟩ := candidate_some.mp chosen
  exact candidate_some.mpr ⟨same, rest⟩

/-- No import changes what `git` finds at a source. -/
theorem refsAt_source (chosen : importer.candidate owner path = some (source, id)) (disk disk' : Disk) :
    importer.host.refsAt disk (pathText source) = importer.host.refsAt disk' (pathText source) := by
  obtain ⟨-, -, allowed, -⟩ := candidate_some.mp chosen
  have none_ := Option.map_eq_none_iff.mp allowed
  have outside := List.find?_eq_none.mp none_ _ (List.mem_cons_self ..)
  rw [List.isPrefixOf_iff_prefix] at outside
  exact importer.host.outside disk disk' source outside

/-- What holds between two turns: an entry has its refs, or its source comes again. -/
structure Underway (importer : LocalGitImporter) (owner : Option String) (storage : Storage)
    (report : GitImportReport) (later : List Path) : Prop where
  chosen : ∀ entry ∈ report.imported, ∃ path id repo, importer.candidate owner path = some (entry.sourcePath, id) ∧
    importer.manager.opened storage.disk id = .ok repo ∧ repo.place = entry.repoPath
  refs : ∀ entry ∈ report.imported, (∃ path' ∈ later, importer.host.canonicalize path' = some entry.sourcePath) ∨
    ∃ bare, storage.disk.lookup entry.repoPath = some bare ∧
      bare.refs = importer.host.refsAt storage.disk (pathText entry.sourcePath)
  apart : ∀ entry ∈ report.imported, ∀ entry' ∈ report.imported, entry.sourcePath ≠ entry'.sourcePath →
    entry.repoPath ≠ entry'.repoPath

theorem underway_step (underway : Underway importer owner storage report (path :: later))
    (clean : CleanTurn importer owner storage report path later)
    (done : importer.importPath owner (storage, report) path = .ok (storage', report')) :
    Underway importer owner storage' report' later := by
  obtain ⟨chosen, refs, apart⟩ := underway
  rcases importPath_ok done with ⟨skipped, rfl, same⟩ | ⟨source, id, entry, turn, imported, named, same⟩
  · rw [← same] at chosen refs apart
    refine ⟨chosen, fun entry mem => ?_, apart⟩
    rcases refs entry mem with ⟨path', mem', comes⟩ | held
    · rcases List.mem_cons.mp mem' with rfl | mem'
      · obtain ⟨path₀, id, repo, first, -⟩ := chosen entry mem
        rw [candidate_again first comes] at skipped
        cases skipped
      · exact .inl ⟨path', mem', comes⟩
    · exact .inr held
  · obtain ⟨free, fresh⟩ := clean source id turn
    obtain ⟨bare, here, settled⟩ := imported.here
    rw [← imported.leads] at free fresh
    have held : (∃ path' ∈ later, importer.host.canonicalize path' = some source) ∨
        ∃ bare, storage'.disk.lookup entry.repoPath = some bare ∧
          bare.refs = importer.host.refsAt storage'.disk (pathText source) := by
      rcases fresh with comes | fresh
      · exact .inl comes
      · refine .inr ⟨bare, here, ?_⟩
        rw [settled, fresh]
        exact refsAt_source turn _ _
    refine ⟨fun old mem => ?_, fun old mem => ?_, fun old mem old' mem' other => ?_⟩
    · rw [same] at mem
      rcases List.mem_append.mp mem with mem | mem
      · obtain ⟨path₀, id₀, repo₀, first, opens, place⟩ := chosen old mem
        exact ⟨path₀, id₀, repo₀, first, imported.grow opens, place⟩
      · obtain rfl := List.mem_singleton.mp mem
        obtain ⟨repo, opens, place⟩ := imported.again
        rw [named]
        exact ⟨path, id, repo, turn, opens, place⟩
    · rw [same] at mem
      rcases List.mem_append.mp mem with mem | mem
      · obtain ⟨path₀, id₀, repo₀, first, opens, place⟩ := chosen old mem
        by_cases own : old.sourcePath = source
        · -- the same source: its place is the one of this turn
          rw [own] at first
          have canonical := (candidate_some.mp turn).1
          have again := candidate_again first canonical
          obtain ⟨-, rfl⟩ : source = source ∧ id = id₀ := by
            rw [turn] at again
            injection again with again
            exact ⟨rfl, congrArg Prod.snd again⟩
          have leads : entry.repoPath = repo₀.place := by rw [imported.leads, destination, opens]
          rw [own, ← place, ← leads]
          exact held
        · rcases refs old mem with ⟨path', mem', comes⟩ | ⟨bare₀, there, kept⟩
          · rcases List.mem_cons.mp mem' with rfl | mem'
            · have canonical := (candidate_some.mp turn).1
              rw [canonical] at comes
              exact absurd (Option.some.inj comes).symm own
            · exact .inl ⟨path', mem', comes⟩
          · refine .inr ⟨bare₀, ?_, ?_⟩
            · rw [imported.other _ (free old mem own)]
              exact there
            · rw [kept]
              exact refsAt_source first _ _
      · obtain rfl := List.mem_singleton.mp mem
        rw [named]
        exact held
    · rw [same] at mem mem'
      rcases List.mem_append.mp mem with before | here <;> rcases List.mem_append.mp mem' with before' | here'
      · exact apart old before old' before' other
      · obtain rfl := List.mem_singleton.mp here'
        rw [named] at other
        exact free old before other
      · obtain rfl := List.mem_singleton.mp here
        rw [named] at other
        exact (free old' before' other.symm).symm
      · obtain rfl := List.mem_singleton.mp here
        obtain rfl := List.mem_singleton.mp here'
        exact absurd rfl other

theorem mirrors_of_clean {paths : List Path} (underway : Underway importer owner storage report paths)
    (clean : CleanFrom importer owner (storage, report) paths)
    (run : paths.foldlM (importer.importPath owner) (storage, report) = .ok (storage', report')) :
    Mirrors importer storage' report' := by
  induction paths generalizing storage report with
  | nil =>
    cases run
    refine ⟨fun entry mem => ?_, underway.apart⟩
    exact (underway.refs entry mem).resolve_left fun ⟨_, mem, _⟩ => (nomatch mem)
  | cons path later ih =>
    rw [List.foldlM_cons] at run
    obtain ⟨⟨storage₁, report₁⟩, turn, run⟩ := bind_ok run
    exact ih (underway_step underway clean.head turn) (clean.tail turn) run

/-- What later turns add to the report, and the repositories they leave alone. -/
theorem run_adds {paths : List Path}
    (run : paths.foldlM (importer.importPath owner) (storage, report) = .ok (storage', report')) :
    ∃ added, report'.imported = report.imported ++ added ∧
      (∀ entry ∈ added, ∃ path ∈ paths, importer.host.canonicalize path = some entry.sourcePath) ∧
      ∀ place, (∀ entry ∈ added, entry.repoPath ≠ place) →
        storage'.disk.lookup place = storage.disk.lookup place := by
  induction paths generalizing storage report with
  | nil =>
    cases run
    exact ⟨[], (List.append_nil _).symm, fun _ mem => (nomatch mem), fun _ _ => rfl⟩
  | cons path later ih =>
    rw [List.foldlM_cons] at run
    obtain ⟨⟨storage₁, report₁⟩, turn, run⟩ := bind_ok run
    obtain ⟨added, appended, sources, kept⟩ := ih run
    rcases importPath_ok turn with ⟨-, rfl, same⟩ | ⟨source, id, entry, chosen, imported, named, same⟩
    · refine ⟨added, appended.trans (by rw [same]), fun entry mem => ?_, kept⟩
      obtain ⟨path', mem', comes⟩ := sources entry mem
      exact ⟨path', .tail _ mem', comes⟩
    · refine ⟨entry :: added, ?_, fun old mem => ?_, fun place clear => ?_⟩
      · rw [appended, same, List.append_assoc]
        rfl
      · rcases List.mem_cons.mp mem with rfl | mem
        · rw [named]
          exact ⟨path, .head _, (candidate_some.mp chosen).1⟩
        · obtain ⟨path', mem', comes⟩ := sources old mem
          exact ⟨path', .tail _ mem', comes⟩
      · rw [kept place fun old mem => clear old (.tail _ mem)]
        exact imported.other place (clear entry (.head _)).symm

theorem clean_of_mirrors {paths : List Path}
    (run : importer.importPaths owner storage paths = .ok (storage', report'))
    (mirrors : Mirrors importer storage' report') : Clean importer owner storage paths := by
  rintro before path later rfl storage₁ report₁ first source id chosen
  unfold importPaths at run
  rw [List.foldlM_append, first] at run
  rw [show (Except.ok (storage₁, report₁) >>= fun done => (path :: later).foldlM (importer.importPath owner) done) =
    (path :: later).foldlM (importer.importPath owner) (storage₁, report₁) from rfl, List.foldlM_cons] at run
  obtain ⟨⟨storage₂, report₂⟩, turn, run⟩ := bind_ok run
  obtain ⟨added, appended, sources, kept⟩ := run_adds run
  rcases importPath_ok turn with ⟨skipped, -⟩ | ⟨source', id', entry, turn, imported, named, same⟩
  · rw [chosen] at skipped
    cases skipped
  rw [chosen] at turn
  cases turn
  have mine : entry ∈ report'.imported := by simp [appended, same]
  rw [← imported.leads]
  refine ⟨fun old mem other => ?_, ?_⟩
  · have theirs : old ∈ report'.imported := by simp [appended, same, mem]
    exact mirrors.apart old theirs entry mine (named ▸ other)
  · by_cases again : ∃ path' ∈ later, importer.host.canonicalize path' = some source
    · exact .inl again
    · right
      have clear : ∀ old ∈ added, old.repoPath ≠ entry.repoPath := by
        intro old mem
        have theirs : old ∈ report'.imported := by simp [appended, mem]
        apply mirrors.apart old theirs entry mine
        rw [named]
        intro own
        obtain ⟨path', mem', comes⟩ := sources old mem
        exact again ⟨path', mem', own ▸ comes⟩
      obtain ⟨bare, there, refs⟩ := mirrors.refs entry mine
      obtain ⟨bare', here, settled⟩ := imported.here
      rw [kept _ clear, here] at there
      cases there
      rw [← settled, refs, named]
      exact refsAt_source chosen _ _

/-- An import mirrors each source exactly when every turn of it is clean. -/
theorem mirrors_iff_clean {paths : List Path} {report : GitImportReport}
    (done : importer.importPaths owner storage paths = .ok (storage', report)) :
    Mirrors importer storage' report ↔ Clean importer owner storage paths := by
  constructor
  · exact clean_of_mirrors done
  · intro clean
    have start : Underway importer owner storage ⟨importer.storageRoot, [], []⟩ paths := by
      constructor <;> intro _ mem <;> exact absurd mem List.not_mem_nil
    exact mirrors_of_clean start clean done

end LocalGitImporter

/-- A host on which every path outside the storage is a worktree, with a branch of its own. -/
def plainHost : LocalHost ["var", "forge"] where
  canonicalize := some
  canonical _ _ _ := rfl
  classify _ := some .worktree
  home := none
  refsAt _ url := (∅ : RefMap).insert "refs/heads/main" (.oid url)
  outside _ _ _ _ := rfl
  headBranch _ := none
  cloneMirror _ _ _ := some []
  remoteUpdate _ _ := some []
  checkRefFormat _ := true

def plainImporter : LocalGitImporter := ⟨⟨none⟩, ["var", "forge"], plainHost, []⟩

def appPlace : Place := ⟨"team", "app.git"⟩

theorem mirrors_iff_clean_app : ∃ storage report, plainImporter.importPaths none ⟨∅, ∅, ∅, []⟩
    [["srv", "a", "team", "app"]] = .ok (storage, report) ∧ (LocalGitImporter.Mirrors plainImporter storage report ↔
      LocalGitImporter.Clean plainImporter none ⟨∅, ∅, ∅, []⟩ [["srv", "a", "team", "app"]]) := by
  have found : ((plainImporter.importPaths none ⟨∅, ∅, ∅, []⟩ [["srv", "a", "team", "app"]]).toOption).isSome := by
    decide +kernel
  cases done : plainImporter.importPaths none ⟨∅, ∅, ∅, []⟩ [["srv", "a", "team", "app"]] with
  | error error =>
    rw [done] at found
    cases found
  | ok result => exact ⟨result.1, result.2, rfl, LocalGitImporter.mirrors_iff_clean done⟩

theorem twoApps_imported : (plainImporter.importPaths none ⟨∅, ∅, ∅, []⟩
    [["srv", "a", "team", "app"], ["srv", "b", "team", "app"]]).toOption.map (fun done => done.2.imported) =
      some [⟨["srv", "a", "team", "app"], "team", "app", false, appPlace, .cloned⟩,
        ⟨["srv", "b", "team", "app"], "team", "app", false, appPlace, .fetched⟩] := by
  decide +kernel

/-- The apps of two teams of one name: the second is reported as imported, and is nowhere. -/
theorem not_mirrors : ¬∀ (importer : LocalGitImporter) owner storage paths storage' report,
    importer.importPaths owner storage paths = .ok (storage', report) → importer.Mirrors storage' report := by
  intro mirrors
  have imported := twoApps_imported
  cases done : plainImporter.importPaths none ⟨∅, ∅, ∅, []⟩
      [["srv", "a", "team", "app"], ["srv", "b", "team", "app"]] with
  | error error =>
    rw [done] at imported
    cases imported
  | ok result =>
    rw [done] at imported
    have both : result.2.imported = _ := Option.some.inj imported
    have apart := (mirrors _ _ _ _ _ _ done).apart
    rw [both] at apart
    exact apart _ (.head _) _ (.tail _ (.head _)) (by decide) rfl

end Jeryu.Gitd
