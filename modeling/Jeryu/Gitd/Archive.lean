import Jeryu.Gitd.Names
import Jeryu.Gitd.SmartHttp
import Jeryu.Gitd.Trunk

/-!
Whether a request changes an archived repository.
-/

namespace Jeryu.Gitd

open KeyedMap Text

/-- The server, with the ref service and the guard of its host. -/
structure Daemon where
  server : SmartHttpServer
  refs : RefService
  guard : PreReceiveGuard

inductive Request where
  | route (request : HttpRequest)
  | stream (request : HttpRequest) (contentLength : Option Nat) (arrived : Nat)
  | packRpc (request : HttpRequest) (contentLength : Nat)
  | ssh (env : SshEnv) (input : List UInt8)
  | updateRef (repo : Repository) (actor name newOid : String) (oldOid : Option String)
  | mergePull (repo : Repository) (actor baseRef baseOid headOid message : String)
      (requireFastForward : Bool)
  | evaluateLines (repo : Repository) (actor input : String)

namespace Daemon

variable (daemon : Daemon) (disk : Disk)

/-- A bare repository rewritten, unless there is an error. -/
def settle (repo : Repository) (write : BareRepo → Except GitdError BareRepo) : Disk :=
  match disk.lookup repo.place with
  | none => disk
  | some bare =>
    match write bare with
    | .error _ => disk
    | .ok bare => disk.insert repo.place bare

/-- The disk after a request. -/
def serve : Request → Disk
  | .route request => (daemon.server.routeInner disk request).2
  | .stream request contentLength arrived => (daemon.server.handleStream disk request contentLength arrived).2
  | .packRpc request contentLength => (daemon.server.packRpc disk request contentLength).2
  | .ssh env input => (execFromEnv daemon.server.host daemon.server.registry disk env input).2
  | .updateRef repo actor name newOid oldOid =>
    settle disk repo fun bare => daemon.refs.updateRef repo.id bare actor name newOid oldOid
  | .mergePull repo actor baseRef baseOid headOid message requireFastForward =>
    settle disk repo fun bare =>
      (daemon.refs.mergePull repo.id bare actor baseRef baseOid headOid message requireFastForward).map Prod.fst
  | .evaluateLines repo actor input =>
    settle disk repo fun bare => (daemon.guard.evaluateLines repo.id bare actor input).map fun _ => bare

end Daemon

/-- The refs, the objects and the LFS objects of a place are the same on both disks. -/
def Unchanged (disk disk' : Disk) (place : Place) : Prop :=
  ∀ bare, disk.lookup place = some bare → ∃ bare', disk'.lookup place = some bare' ∧
    bare'.refs = bare.refs ∧ bare'.objects = bare.objects ∧ bare'.lfsObjects = bare.lfsObjects

/-- A request leaves the repository as it is, and a push by SSH to it looks at its own mark. (The
    other entry points open one repository, look at its mark and write there.) -/
structure Sealed (daemon : Daemon) (disk : Disk) (place : Place) (request : Request) : Prop where
  unchanged : Unchanged disk (daemon.serve disk request) place
  ownMark : ∀ env input command bare opened bare', request = .ssh env input →
    sshTarget daemon.server.registry disk env = .ok (command, bare) → command.isWrite = true →
    command.repoPath = place → sshOpened disk command = .ok (opened, bare') → opened.place = place

/-- The checks of an upload, with the one spelling of its id. -/
def Fits (sha256Hex : List UInt8 → String) (oid : String) (expectedSize : Option Nat) (maxSize : Nat)
    (bytes : List UInt8) (oid' : String) : Prop :=
  normalizeOid oid = .ok oid' ∧ bytes.length ≤ maxSize ∧ (∀ size ∈ expectedSize, size = bytes.length) ∧
    sha256Hex bytes = oid'

/-- An upload goes through to the place and stores an object that is not there yet. -/
def Uploads (server : SmartHttpServer) (disk : Disk) (place : Place) (request : HttpRequest)
    (expectedSize : Option Nat) : Prop :=
  ∃ repo bare oid oid', server.lfsUploadChecked disk request = .ok (repo, bare, oid) ∧
    repo.place = place ∧ bare.lfsObjects.lookup oid' = none ∧
    Fits server.sha256Hex oid expectedSize server.lfsMaxObjectBytes request.body oid'

/-- The request is the upload of an LFS object that gets through to the place. -/
def StoresObject (daemon : Daemon) (disk : Disk) (place : Place) : Request → Prop
  | .route request => request.method = "PUT" ∧ isLfsObjectTransferPath request.path = true ∧
      Uploads daemon.server disk place request (some request.body.length)
  | .stream request (some contentLength) _ =>
      request.method = "PUT" ∧ isLfsObjectTransferPath request.path = true ∧
      Uploads daemon.server disk place { request with body := request.body.take contentLength }
        (some contentLength)
  | _ => False

/-- The request is a push by SSH to a repository whose name ends in `.git` besides the `.git` of
    its directory, while the repository of the name without any is there too. -/
def NamesAnother (daemon : Daemon) (disk : Disk) (place : Place) : Request → Prop
  | .ssh env _ => ∃ command bare opened, sshTarget daemon.server.registry disk env = .ok (command, bare) ∧
      command.isWrite = true ∧ command.repoPath = place ∧ sshOpened disk command = .ok opened ∧
      endsWith (withoutGit command.repoGit) ".git" = true
  | _ => False

section Names

/-- The name that loses every `.git`, after its directory's own. -/
theorem trimEndCopies_directory (name : String) : (trimEndCopies (name ++ ".git") ".git").toList =
    dropEndCopies ".git".toList (name.toList.length + 3) name.toList := by
  unfold trimEndCopies
  rw [String.toList_ofList, String.toList_append, List.length_append]
  exact dropEndCopies_copy

theorem withoutGit_length (name : String) : (withoutGit name).toList.length ≤ name.toList.length := by
  unfold withoutGit stripSuffix
  split <;> simp

/-- A name stands for its own directory unless it ends in `.git`. -/
theorem trimmed_same {name : String} :
    withoutGit (trimEndCopies (name ++ ".git") ".git") = name ↔ endsWith name ".git" = false := by
  have trimmed := trimEndCopies_directory name
  by_cases ends : endsWith name ".git" = true
  · simp only [ends, Bool.true_eq_false, iff_false]
    intro same
    have shorter := withoutGit_length (trimEndCopies (name ++ ".git") ".git")
    rw [same, trimmed, dropEndCopies] at shorter
    rw [if_pos (show ".git".toList.isSuffixOf name.toList = true from ends)] at shorter
    have bound := @dropEndCopies_length ".git".toList (name.toList.take (name.toList.length - ".git".toList.length))
      (name.toList.length + 2)
    rw [List.length_take] at bound
    obtain ⟨before, whole⟩ := List.isSuffixOf_iff_suffix.mp (show ".git".toList.isSuffixOf name.toList = true from ends)
    have measured := congrArg List.length whole
    have four : ".git".toList.length = 4 := by decide
    rw [List.length_append] at measured
    omega
  · have other : endsWith name ".git" = false := Bool.eq_false_iff.mpr ends
    have kept : trimEndCopies (name ++ ".git") ".git" = name := by
      refine String.toList_inj.mp ?_
      rw [trimmed]
      exact dropEndCopies_other other
    rw [kept, withoutGit_eq_self.mpr other]
    simp [other]

end Names

section Checks

variable {server : SmartHttpServer} {disk : Disk} {request : HttpRequest}

theorem failing_ok {α : Type} {answer : Except GitdError α} {value : α} (done : failing answer = .ok value) :
    answer = .ok value := by
  cases answer with
  | error error => cases done
  | ok found =>
    cases done
    rfl

theorem ensureWritable_ok {bare : BareRepo} {id : RepoId} (writable : bare.ensureWritable id = .ok ()) :
    bare.archived = false := by
  unfold BareRepo.ensureWritable at writable
  cases mark : bare.archived with
  | true =>
    rw [mark] at writable
    cases writable
  | false => rfl

theorem served_ok {owner repoName : String} {write : Bool} {repo : Repository} {bare : BareRepo}
    (serves : server.served disk request owner repoName write = .ok (repo, bare)) :
    disk.lookup repo.place = some bare := by
  unfold SmartHttpServer.served at serves
  obtain ⟨id, -, serves⟩ := bind_ok serves
  obtain ⟨⟨⟩, -, serves⟩ := bind_ok serves
  obtain ⟨opened, -, serves⟩ := bind_ok serves
  cases stored : disk.lookup opened.place with
  | none =>
    rw [stored] at serves
    cases serves
  | some found =>
    rw [stored] at serves
    cases serves
    exact stored

theorem rpcChecked_ok {repo : Repository} {bare : BareRepo} {protocol : Option String}
    (checks : server.rpcChecked disk request .receivePack = .ok (repo, bare, protocol)) :
    disk.lookup repo.place = some bare ∧ bare.archived = false := by
  unfold SmartHttpServer.rpcChecked at checks
  obtain ⟨⟨owner, repoName⟩, -, checks⟩ := bind_ok checks
  obtain ⟨⟨repo', bare'⟩, serves, checks⟩ := bind_ok checks
  dsimp only at checks
  rw [if_pos rfl] at checks
  obtain ⟨⟨⟩, writable, checks⟩ := bind_ok checks
  obtain ⟨⟨⟩, -, checks⟩ := bind_ok checks
  obtain ⟨protocol', -, checks⟩ := bind_ok checks
  cases checks
  exact ⟨served_ok serves, ensureWritable_ok (failing_ok writable)⟩

theorem prepareStreamingRpc_ok {contentLength arrived : Nat} {repo : Repository} {bare : BareRepo}
    {protocol : Option String} (checks : server.prepareStreamingRpc disk request .receivePack contentLength
      arrived = .ok (repo, bare, protocol)) :
    disk.lookup repo.place = some bare ∧ bare.archived = false := by
  unfold SmartHttpServer.prepareStreamingRpc at checks
  obtain ⟨⟨owner, repoName⟩, -, checks⟩ := bind_ok checks
  obtain ⟨⟨repo', bare'⟩, serves, checks⟩ := bind_ok checks
  dsimp only at checks
  rw [if_pos rfl] at checks
  obtain ⟨⟨⟩, writable, checks⟩ := bind_ok checks
  obtain ⟨⟨⟩, -, checks⟩ := bind_ok checks
  by_cases early : contentLength < arrived
  · rw [if_pos early] at checks
    cases checks
  · rw [if_neg early] at checks
    obtain ⟨length, -, checks⟩ := bind_ok checks
    obtain ⟨protocol', -, checks⟩ := bind_ok checks
    cases checks
    exact ⟨served_ok serves, ensureWritable_ok (failing_ok writable)⟩

theorem lfsUploadChecked_ok {repo : Repository} {bare : BareRepo} {oid : String}
    (checks : server.lfsUploadChecked disk request = .ok (repo, bare, oid)) :
    disk.lookup repo.place = some bare := by
  unfold SmartHttpServer.lfsUploadChecked at checks
  obtain ⟨⟨owner, repoName, oid'⟩, -, checks⟩ := bind_ok checks
  obtain ⟨⟨repo', bare'⟩, serves, checks⟩ := bind_ok checks
  cases checks
  exact served_ok serves

end Checks

section Ssh

variable {registry : Except GitdError AuthRegistry} {disk : Disk} {env : SshEnv}
variable {command : SshGitCommand} {bare : BareRepo}

theorem normalizeRepoName_ok {repo directory : String} (normal : normalizeRepoName repo = .ok directory) :
    ∃ name, directory = name ++ ".git" ∧ validateSegment name "repo" = .ok () := by
  unfold normalizeRepoName at normal
  obtain ⟨⟨⟩, valid, normal⟩ := bind_ok normal
  exact ⟨_, (Except.ok.inj normal).symm, valid⟩

theorem parse_ok {input : String} (parses : SshGitCommand.parse input = .ok command) :
    ∃ name, command.repoGit = name ++ ".git" ∧ validateSegment name "repo" = .ok () := by
  unfold SshGitCommand.parse at parses
  split at parses
  · cases parses
  · split at parses
    · cases parses
    · dsimp only at parses
      split at parses
      · obtain ⟨⟨⟩, -, parses⟩ := bind_ok parses
        obtain ⟨directory, normal, parses⟩ := bind_ok parses
        cases parses
        exact normalizeRepoName_ok normal
      · cases parses

theorem sshTarget_ok (resolves : sshTarget registry disk env = .ok (command, bare)) :
    disk.lookup command.repoPath = some bare ∧
      ∃ name, command.repoGit = name ++ ".git" ∧ validateSegment name "repo" = .ok () := by
  unfold sshTarget at resolves
  split at resolves
  · cases resolves
  · obtain ⟨parsed, parses, resolves⟩ := bind_ok resolves
    obtain ⟨registry', -, resolves⟩ := bind_ok resolves
    obtain ⟨principal, -, resolves⟩ := bind_ok resolves
    cases stored : disk.lookup parsed.repoPath with
    | none =>
      rw [stored] at resolves
      cases resolves
    | some found =>
      rw [stored] at resolves
      cases resolves
      exact ⟨stored, parse_ok parses⟩

theorem opened_local {id : RepoId} {repo : Repository}
    (opens : (⟨none⟩ : RepoManager).opened disk id = .ok repo) : repo = RepoManager.resolve id := by
  unfold RepoManager.opened at opens
  dsimp only at opens
  split at opens
  · exact (Except.ok.inj opens).symm
  · obtain ⟨target, redirects, opens⟩ := bind_ok opens
    cases redirects
    cases opens

/-- The push looks at the mark of the repository it writes to unless the name ends in `.git`. -/
theorem sshOpened_place {name : String} {opened : Repository} (directory : command.repoGit = name ++ ".git")
    (valid : validateSegment name "repo" = .ok ()) (opens : sshOpened disk command = .ok (opened, bare)) :
    disk.lookup opened.place = some bare ∧
      (opened.place = command.repoPath ↔ endsWith name ".git" = false) := by
  unfold sshOpened at opens
  obtain ⟨repo, opens', opens⟩ := bind_ok opens
  unfold RepoManager.openParts at opens'
  obtain ⟨requested, resolves, opens'⟩ := bind_ok opens'
  have place := opened_local opens'
  have absent : '/' ∉ (name ++ ".git").toList := by
    have plain := (validateSegment_ok.mp valid).slash
    simp [String.toList_append, plain]
  have named : requested.id = ⟨command.owner, withoutGit (trimEndCopies (name ++ ".git") ".git")⟩ := by
    unfold RepoManager.resolveParts at resolves
    obtain ⟨⟨⟩, -, resolves⟩ := bind_ok resolves
    obtain ⟨repoGit, normal, resolves⟩ := bind_ok resolves
    obtain ⟨id, makes, resolves⟩ := bind_ok resolves
    unfold normalizeRepoName at normal
    rw [directory, trimMatches_absent absent, withoutGit_append] at normal
    obtain ⟨⟨⟩, -, normal⟩ := bind_ok normal
    have made := Except.ok.inj normal
    subst made
    unfold RepoId.new at makes
    obtain ⟨⟨⟩, -, makes⟩ := bind_ok makes
    obtain ⟨⟨⟩, -, makes⟩ := bind_ok makes
    have whole := Except.ok.inj makes
    subst whole
    have found := Except.ok.inj resolves
    subst found
    rfl
  have same : repo.place = ⟨command.owner, withoutGit (trimEndCopies (name ++ ".git") ".git") ++ ".git"⟩ := by
    rw [place]
    unfold RepoManager.resolve RepoId.place RepoId.bareName
    rw [named]
  cases stored : disk.lookup repo.place with
  | none =>
    rw [stored] at opens
    cases opens
  | some found =>
    rw [stored] at opens
    cases opens
    refine ⟨stored, ?_⟩
    rw [same, ← trimmed_same]
    unfold SshGitCommand.repoPath
    rw [directory]
    simp

theorem sshWritable_ok (writable : sshWritable disk command = .ok ()) :
    ∃ opened bare', sshOpened disk command = .ok (opened, bare') ∧ bare'.archived = false := by
  unfold sshWritable at writable
  obtain ⟨⟨opened, bare'⟩, opens, writable⟩ := bind_ok writable
  exact ⟨opened, bare', opens, ensureWritable_ok writable⟩

end Ssh

section Uploads

variable {bare bare' : BareRepo} {sha256Hex : List UInt8 → String} {oid : String}
variable {expectedSize : Option Nat} {maxSize total : Nat} {bytes : List UInt8}

theorem put_fits (puts : bare.putReaderWithLimit sha256Hex oid expectedSize maxSize bytes = .ok (bare', total)) :
    ∃ oid', Fits sha256Hex oid expectedSize maxSize bytes oid' ∧
      (bare' = bare ∨ bare.lfsObjects.lookup oid' = none) := by
  unfold BareRepo.putReaderWithLimit at puts
  obtain ⟨oid', normal, puts⟩ := bind_ok puts
  dsimp only at puts
  split at puts
  · cases puts
  · next small =>
    split at puts
    · cases puts
    · next sized =>
      split at puts
      · cases puts
      · next digest =>
        simp only [Bool.or_eq_true, decide_eq_true_eq, not_or, Option.any_eq_true, not_exists, not_and,
          decide_not, Bool.not_eq_true', decide_eq_false_iff_not, not_not, not_lt] at small sized digest
        refine ⟨oid', ⟨normal, small.2, sized, digest⟩, ?_⟩
        split at puts
        · cases puts
          exact .inl rfl
        · next absent => exact .inr (not_not.mp absent)

theorem put_of_fits {oid' : String} (fits : Fits sha256Hex oid expectedSize maxSize bytes oid')
    (absent : bare.lfsObjects.lookup oid' = none) :
    bare.putReaderWithLimit sha256Hex oid expectedSize maxSize bytes =
      .ok ({ bare with lfsObjects := bare.lfsObjects.insert oid' bytes }, bytes.length) := by
  obtain ⟨normal, small, sized, digest⟩ := fits
  unfold BareRepo.putReaderWithLimit
  rw [normal]
  dsimp only [bind, Except.bind]
  have first : ¬(expectedSize.any (fun size => decide (maxSize < size)) || decide (maxSize < bytes.length)) = true := by
    simp only [Bool.or_eq_true, decide_eq_true_eq, Option.any_eq_true, not_or, not_exists, not_and, not_lt]
    exact ⟨fun size member => (sized size member).trans_le small, small⟩
  have second : ¬expectedSize.any (fun size => decide (size ≠ bytes.length)) = true := by
    simp only [Option.any_eq_true, decide_eq_true_eq, not_exists, not_and, not_not]
    exact sized
  rw [if_neg first, if_neg second, if_neg (not_not.mpr digest), if_neg (not_not.mpr absent)]
  rfl

end Uploads

section Archived

variable {disk disk' : Disk} {place other : Place} {bare bare' : BareRepo}

theorem unchanged_refl : Unchanged disk disk place := fun bare stored => ⟨bare, stored, rfl, rfl, rfl⟩

theorem unchanged_other (apart : other ≠ place) : Unchanged disk (disk.insert other bare') place := by
  intro bare stored
  refine ⟨bare, ?_, rfl, rfl, rfl⟩
  rw [HashMap.lookup_insert_if, if_neg (Ne.symm apart)]
  exact stored

theorem unchanged_same (stored : disk.lookup other = some bare) : Unchanged disk (disk.insert other bare) place := by
  intro found stored'
  refine ⟨found, ?_, rfl, rfl, rfl⟩
  rw [HashMap.lookup_insert_if]
  by_cases same : place = other
  · rw [if_pos same]
    rw [same] at stored'
    exact stored.symm.trans stored'
  · rw [if_neg same]
    exact stored'

theorem unchanged_ite {α : Type} {condition : Prop} [Decidable condition] {yes no : α × Disk}
    (holds : condition → Unchanged disk yes.2 place) (fails : ¬condition → Unchanged disk no.2 place) :
    Unchanged disk (if condition then yes else no).2 place := by
  split
  · next decided => exact holds decided
  · next decided => exact fails decided

/-- What is written to another repository, found not to be archived, leaves the place. -/
theorem apart_of_writable (stored : disk.lookup place = some bare) (archived : bare.archived = true)
    (found : disk.lookup other = some bare') (writable : bare'.archived = false) : other ≠ place := by
  rintro rfl
  cases stored.symm.trans found
  rw [archived] at writable
  cases writable

variable {daemon : Daemon} {server : SmartHttpServer} {request : HttpRequest}

theorem rpc_unchanged (stored : disk.lookup place = some bare) (archived : bare.archived = true)
    (service : PackService) : Unchanged disk (server.rpc disk request service).2 place := by
  unfold SmartHttpServer.rpc
  cases checks : server.rpcChecked disk request service with
  | error failure => exact unchanged_refl
  | ok checked =>
    obtain ⟨repo, bare', protocol⟩ := checked
    cases service with
    | uploadPack => exact unchanged_refl
    | receivePack =>
      obtain ⟨found, writable⟩ := rpcChecked_ok checks
      exact unchanged_other (apart_of_writable stored archived found writable)

theorem streamRpc_unchanged (stored : disk.lookup place = some bare) (archived : bare.archived = true)
    (service : PackService) (contentLength arrived : Nat) :
    Unchanged disk (server.streamRpc disk request service contentLength arrived).2 place := by
  unfold SmartHttpServer.streamRpc
  cases checks : server.prepareStreamingRpc disk request service contentLength arrived with
  | error failure => exact unchanged_refl
  | ok checked =>
    obtain ⟨repo, bare', protocol⟩ := checked
    cases service with
    | uploadPack => exact unchanged_refl
    | receivePack =>
      obtain ⟨found, writable⟩ := prepareStreamingRpc_ok checks
      exact unchanged_other (apart_of_writable stored archived found writable)

theorem lfsUploadStream_unchanged {expectedSize : Option Nat}
    (none : ¬Uploads server disk place request expectedSize) :
    Unchanged disk (server.lfsUploadStream disk request expectedSize).2 place := by
  unfold SmartHttpServer.lfsUploadStream
  cases checks : server.lfsUploadChecked disk request with
  | error failure => exact unchanged_refl
  | ok checked =>
    obtain ⟨repo, bare', oid⟩ := checked
    dsimp only
    cases puts : bare'.putReaderWithLimit server.sha256Hex oid expectedSize server.lfsMaxObjectBytes
      request.body with
    | error error => exact unchanged_refl
    | ok written =>
      obtain ⟨written, total⟩ := written
      obtain ⟨oid', fits, rfl | absent⟩ := put_fits puts
      · exact unchanged_same (lfsUploadChecked_ok checks)
      · refine unchanged_other fun same => none ?_
        exact ⟨repo, bare', oid, oid', checks, same, absent, fits⟩

theorem lfsUploadStream_changes {expectedSize : Option Nat}
    (uploads : Uploads server disk place request expectedSize) :
    ¬Unchanged disk (server.lfsUploadStream disk request expectedSize).2 place := by
  obtain ⟨repo, bare', oid, oid', checks, rfl, absent, fits⟩ := uploads
  have found := lfsUploadChecked_ok checks
  intro unchanged
  obtain ⟨after, stored, -, -, same⟩ := unchanged bare' found
  unfold SmartHttpServer.lfsUploadStream at stored
  rw [checks] at stored
  dsimp only at stored
  rw [put_of_fits fits absent] at stored
  dsimp only at stored
  rw [HashMap.lookup_insert_self] at stored
  cases stored
  have there : (bare'.lfsObjects.insert oid' request.body).lookup oid' = some request.body :=
    HashMap.lookup_insert_self ..
  dsimp only at same
  rw [same, absent] at there
  cases there

theorem routeInner_unchanged (stored : disk.lookup place = some bare) (archived : bare.archived = true)
    (none : ¬(request.method = "PUT" ∧ isLfsObjectTransferPath request.path = true ∧
      Uploads server disk place request (some request.body.length))) :
    Unchanged disk (server.routeInner disk request).2 place := by
  unfold SmartHttpServer.routeInner
  dsimp only
  refine unchanged_ite (fun _ => unchanged_refl) fun _ => ?_
  refine unchanged_ite (fun _ => rpc_unchanged stored archived .uploadPack) fun _ => ?_
  refine unchanged_ite (fun _ => rpc_unchanged stored archived .receivePack) fun _ => ?_
  refine unchanged_ite (fun _ => unchanged_refl) fun _ => ?_
  refine unchanged_ite (fun _ => unchanged_refl) fun _ => ?_
  refine unchanged_ite (fun _ => unchanged_refl) fun _ => ?_
  refine unchanged_ite (fun _ => unchanged_refl) fun _ => ?_
  refine unchanged_ite (fun puts => ?_) fun _ => unchanged_refl
  simp only [Bool.and_eq_true, decide_eq_true_eq] at puts
  exact lfsUploadStream_unchanged fun uploads => none ⟨puts.1, puts.2, uploads⟩

theorem routeInner_put (puts : request.method = "PUT") (path : isLfsObjectTransferPath request.path = true) :
    server.routeInner disk request = server.lfsUploadStream disk request (some request.body.length) := by
  unfold SmartHttpServer.routeInner
  simp [puts, path]

theorem handleStream_unchanged {contentLength : Option Nat} {arrived : Nat}
    (stored : disk.lookup place = some bare) (archived : bare.archived = true)
    (none : ¬StoresObject daemon disk place (.stream request contentLength arrived)) :
    Unchanged disk (daemon.server.handleStream disk request contentLength arrived).2 place := by
  unfold SmartHttpServer.handleStream
  cases packServiceOf request with
  | some service =>
    cases contentLength with
    | none => exact unchanged_refl
    | some contentLength => exact streamRpc_unchanged stored archived service _ _
  | none =>
    refine unchanged_ite (fun _ => unchanged_refl) fun _ => ?_
    by_cases puts : request.method = "PUT" ∧ isLfsObjectTransferPath request.path = true
    · rw [if_pos (by simp [puts])]
      cases contentLength with
      | none => exact unchanged_refl
      | some contentLength =>
        exact lfsUploadStream_unchanged fun uploads => none ⟨puts.1, puts.2, uploads⟩
    · rw [if_neg (by simpa using puts)]
      exact routeInner_unchanged stored archived fun uploads => puts ⟨uploads.1, uploads.2.1⟩

theorem handleStream_put {length arrived : Nat} (puts : request.method = "PUT")
    (path : isLfsObjectTransferPath request.path = true) :
    server.handleStream disk request (some length) arrived =
      server.lfsUploadStream disk { request with body := request.body.take length } (some length) := by
  have noService : packServiceOf request = none := by simp [packServiceOf, puts]
  unfold SmartHttpServer.handleStream
  rw [noService]
  simp [puts, path]

theorem settle_unchanged {repo : Repository} {write : BareRepo → Except GitdError BareRepo}
    (stored : disk.lookup place = some bare) (keeps : ∀ after, write bare = .ok after → after = bare) :
    Unchanged disk (Daemon.settle disk repo write) place := by
  unfold Daemon.settle
  cases found : disk.lookup repo.place with
  | none => exact unchanged_refl
  | some here =>
    dsimp only
    cases writes : write here with
    | error error => exact unchanged_refl
    | ok after =>
      by_cases same : repo.place = place
      · rw [same] at found
        cases stored.symm.trans found
        rw [keeps after writes, same]
        exact unchanged_same stored
      · exact unchanged_other same

theorem updateRef_archived {service : RefService} {id : RepoId} {actor name newOid : String}
    {oldOid : Option String} (archived : bare.archived = true)
    (updates : service.updateRef id bare actor name newOid oldOid = .ok bare') : bare' = bare := by
  obtain ⟨-, -, updates⟩ := bind_ok updates
  obtain ⟨⟨⟩, writable, -⟩ := bind_ok updates
  rw [ensureWritable_ok writable] at archived
  cases archived

theorem mergePull_archived {service : RefService} {id : RepoId}
    {actor baseRef baseOid headOid message : String} {requireFastForward : Bool}
    {merged : BareRepo × String × Bool} (archived : bare.archived = true)
    (merges : service.mergePull id bare actor baseRef baseOid headOid message requireFastForward =
      .ok merged) : merged.1 = bare := by
  obtain ⟨-, -, merges⟩ := bind_ok merges
  obtain ⟨⟨⟩, writable, -⟩ := bind_ok merges
  rw [ensureWritable_ok writable] at archived
  cases archived

theorem map_ok {α β : Type} {f : α → β} {answer : Except GitdError α} {value : β}
    (done : answer.map f = .ok value) : ∃ found, answer = .ok found ∧ f found = value := by
  cases answer with
  | error error => cases done
  | ok found => exact ⟨found, rfl, Except.ok.inj done⟩

theorem execFromEnv_unchanged {env : SshEnv} {input : List UInt8} (stored : disk.lookup place = some bare)
    (archived : bare.archived = true) (none : ¬NamesAnother daemon disk place (.ssh env input)) :
    Unchanged disk (execFromEnv daemon.server.host daemon.server.registry disk env input).2 place := by
  unfold execFromEnv
  cases resolves : sshTarget daemon.server.registry disk env with
  | error error => exact unchanged_refl
  | ok resolved =>
    obtain ⟨command, target⟩ := resolved
    obtain ⟨found, name, directory, valid⟩ := sshTarget_ok resolves
    dsimp only
    by_cases write : command.isWrite = true
    · rw [if_neg (by simp [write])]
      cases checks : sshWritable disk command with
      | error error => exact unchanged_refl
      | ok done =>
        refine unchanged_other fun same => ?_
        obtain ⟨opened, bare', opens, writable⟩ := sshWritable_ok checks
        obtain ⟨there, agrees⟩ := sshOpened_place directory valid opens
        by_cases ends : endsWith name ".git" = true
        · refine none ⟨command, target, (opened, bare'), resolves, write, same, opens, ?_⟩
          rw [directory, withoutGit_append]
          exact ends
        · have own := agrees.mpr (Bool.eq_false_iff.mpr ends)
          exact apart_of_writable stored archived there writable (own.trans same)
    · rw [if_pos (by simpa using write)]
      exact unchanged_refl

/-- A request leaves an archived repository as it is, and a push by SSH looks at its own mark, if
    and only if the request is no upload of a new LFS object to it, and no push by SSH to it under
    a name that ends in `.git`. -/
theorem sealed_iff {request : Request} (stored : disk.lookup place = some bare) (archived : bare.archived = true) :
    Sealed daemon disk place request ↔
      ¬StoresObject daemon disk place request ∧ ¬NamesAnother daemon disk place request := by
  constructor
  · rintro ⟨unchanged, ownMark⟩
    refine ⟨fun stores => ?_, fun names => ?_⟩
    · cases request with
      | route request =>
        obtain ⟨puts, path, uploads⟩ := stores
        refine lfsUploadStream_changes uploads ?_
        rw [← routeInner_put puts path]
        exact unchanged
      | stream request contentLength arrived =>
        cases contentLength with
        | none => exact stores
        | some length =>
          obtain ⟨puts, path, uploads⟩ := stores
          refine lfsUploadStream_changes uploads ?_
          rw [← handleStream_put puts path]
          exact unchanged
      | packRpc request contentLength => exact stores
      | ssh env input => exact stores
      | updateRef repo actor name newOid oldOid => exact stores
      | mergePull repo actor baseRef baseOid headOid message requireFastForward => exact stores
      | evaluateLines repo actor input => exact stores
    · cases request with
      | ssh env input =>
        obtain ⟨command, target, ⟨opened, bare'⟩, resolves, write, same, opens, ends⟩ := names
        obtain ⟨-, name, directory, valid⟩ := sshTarget_ok resolves
        have own := ownMark env input command target opened bare' rfl resolves write same opens
        have other := (sshOpened_place directory valid opens).2.mp (own.trans same.symm)
        rw [directory, withoutGit_append, other] at ends
        cases ends
      | route request => exact names
      | stream request contentLength arrived => exact names
      | packRpc request contentLength => exact names
      | updateRef repo actor name newOid oldOid => exact names
      | mergePull repo actor baseRef baseOid headOid message requireFastForward => exact names
      | evaluateLines repo actor input => exact names
  · rintro ⟨noStore, noOther⟩
    refine ⟨?_, ?_⟩
    · cases request with
      | route request => exact routeInner_unchanged stored archived noStore
      | stream request contentLength arrived => exact handleStream_unchanged stored archived noStore
      | packRpc request contentLength =>
        show Unchanged disk (daemon.server.packRpc disk request contentLength).2 place
        unfold SmartHttpServer.packRpc
        cases packServiceOf request with
        | none => exact unchanged_refl
        | some service => exact streamRpc_unchanged stored archived service _ _
      | ssh env input => exact execFromEnv_unchanged stored archived noOther
      | updateRef repo actor name newOid oldOid =>
        exact settle_unchanged stored fun after updates => updateRef_archived archived updates
      | mergePull repo actor baseRef baseOid headOid message requireFastForward =>
        refine settle_unchanged stored fun after merges => ?_
        obtain ⟨merged, done, rfl⟩ := map_ok merges
        exact mergePull_archived archived done
      | evaluateLines repo actor input =>
        refine settle_unchanged stored fun after evaluates => ?_
        obtain ⟨changes, -, rfl⟩ := map_ok evaluates
        rfl
    · rintro env input command target opened bare' rfl resolves write same opens
      obtain ⟨-, name, directory, valid⟩ := sshTarget_ok resolves
      have agrees := (sshOpened_place directory valid opens).2
      rw [same] at agrees
      refine agrees.mpr (Bool.eq_false_iff.mpr fun ends => noOther ?_)
      refine ⟨command, target, (opened, bare'), resolves, write, same, opens, ?_⟩
      rw [directory, withoutGit_append]
      exact ends

end Archived

section Demo

/-- The digest of no bytes. -/
def emptyOid : String := "e3b0c44298fc1c149afbf4c8996fb92427ae41e4649b934ca495991b7852b855"

def demoPlace : Place := ⟨"acme", "demo.git"⟩

def archivedDemo : BareRepo where
  refs := ∅
  objects := []
  lfsObjects := ∅
  archived := true
  preReceive := true

def demoDisk : Disk := (∅ : Disk).insert demoPlace archivedDemo

def quietHost : Host where
  received _ _ := ⟨[], [], []⟩
  answers _ _ _ _ := .ok []
  advertises _ _ _ := .ok []
  helper := none
  actor := "wire-client"

def noJson : Json where
  operation _ := none
  batchRequest _ := none
  verifyRequest _ := none
  batchResponse _ := []

def demoServer : SmartHttpServer where
  manager := ⟨none⟩
  host := quietHost
  registry := .ok ⟨[], AuthRegistry.sorted_nil, ∅⟩
  sha256Hex _ := emptyOid
  json := noJson
  lfsMaxObjectBytes := 5368709120

def demoDaemon : Daemon where
  server := demoServer
  refs := ⟨fastForwards, ProtectedRefRule.defaultPhase1Rules⟩
  guard := defaultGuard

/-- The upload of the empty object, from the host itself. -/
def uploadEmpty : HttpRequest where
  method := "PUT"
  path := "/acme/demo.git/info/lfs/objects/" ++ emptyOid
  query := ∅
  headers := ∅
  body := []
  isLoopback := true
  authPrechecked := false

theorem uploadEmpty_path : isLfsObjectTransferPath uploadEmpty.path = true := by decide +kernel

theorem uploadEmpty_parts : lfsObjectPathParts uploadEmpty.path = .ok ("acme", "demo.git", emptyOid) := by
  decide +kernel

theorem uploadEmpty_id : demoServer.manager.canonicalParts demoDisk "acme" "demo.git" = .ok demoId := by
  decide +kernel

theorem uploadEmpty_opened : demoServer.manager.opened demoDisk demoId = .ok ⟨demoId, demoPlace⟩ := by
  decide +kernel

theorem uploadEmpty_allowed :
    authorize demoServer.sha256Hex demoServer.registry uploadEmpty "acme" true = .ok () := by
  decide +kernel

theorem uploadEmpty_checked : demoServer.lfsUploadChecked demoDisk uploadEmpty =
    .ok (⟨demoId, demoPlace⟩, archivedDemo, emptyOid) := by
  unfold SmartHttpServer.lfsUploadChecked SmartHttpServer.served
  rw [uploadEmpty_parts]
  simp only [failing, Except.mapError, bind, Except.bind, uploadEmpty_id]
  rw [show demoId.owner = "acme" from rfl, uploadEmpty_allowed]
  simp only [uploadEmpty_opened]
  rfl

theorem uploadEmpty_uploads : Uploads demoServer demoDisk demoPlace uploadEmpty (some 0) :=
  ⟨_, _, _, emptyOid, uploadEmpty_checked, rfl, rfl, by decide +kernel, by decide, by simp [uploadEmpty], rfl⟩

/-- The archived repository takes a new LFS object. -/
theorem archived_takes_object : ∃ daemon disk place bare request, disk.lookup place = some bare ∧
    bare.archived = true ∧ ¬Unchanged disk (Daemon.serve daemon disk request) place := by
  refine ⟨demoDaemon, demoDisk, demoPlace, archivedDemo, .route uploadEmpty, rfl, rfl, ?_⟩
  show ¬Unchanged demoDisk (demoServer.routeInner demoDisk uploadEmpty).2 demoPlace
  rw [routeInner_put rfl uploadEmpty_path]
  exact lfsUploadStream_changes uploadEmpty_uploads

theorem uploadEmpty_unsealed : ∃ request, request = Request.route uploadEmpty ∧
    ¬Sealed demoDaemon demoDisk demoPlace request := by
  refine ⟨_, rfl, fun sealed => ?_⟩
  have stored : demoDisk.lookup demoPlace = some archivedDemo := rfl
  exact ((sealed_iff stored rfl).mp sealed).1 ⟨rfl, uploadEmpty_path, uploadEmpty_uploads⟩

end Demo

end Jeryu.Gitd
