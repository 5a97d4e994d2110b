import Jeryu.Core.Repositories

namespace Jeryu.Core

open KeyedMap Text

section Rekey

variable {κ ν : Type} [DecidableEq κ]

/-- The repository a key belongs to. -/
def Scoped.slug (key : Scoped κ) : Slug := (key.1, key.2.1)

theorem lookup_drainScoped (m : HashMap (Scoped κ) ν) (slug : Slug) (key : Scoped κ) :
    (drainScoped m slug.1 slug.2).lookup key =
      if Scoped.slug key = slug then none else m.lookup key := by
  rw [drainScoped, HashMap.lookup_removeAll]
  by_cases here : Scoped.slug key = slug
  · rw [if_pos here]
    split
    · rfl
    · next outside =>
      cases found : m.lookup key with
      | none => rfl
      | some value =>
        exact absurd (mem_scopedKeys.mpr
          ⟨HashMap.mem_keys_of_lookup found, Prod.ext_iff.mp here⟩) outside
  · rw [if_neg here, if_neg]
    intro member
    obtain ⟨-, owner, repo⟩ := mem_scopedKeys.mp member
    exact here (Prod.ext owner repo)

/-- A key of the moved repository, under its new slug. -/
def movedKey (new : Slug) (key : Scoped κ) : Scoped κ := (new.1, new.2, key.2.2)

def rekeyTriples (m : HashMap (Scoped κ) ν) (old new : Slug) (update : ν → ν) :
    HashMap (Scoped κ) ν :=
  m.moveAll (movedKey new) update (scopedKeys m old.1 old.2)

def rekeyPairs (m : HashMap Slug ν) (old new : Slug) (update : ν → ν) : HashMap Slug ν :=
  m.moveAll (fun _ => new) update [old]

variable {old new : Slug} {update : ν → ν}

theorem rekeyTriples_range (m : HashMap (Scoped κ) ν) (old new : Slug) :
    HashMap.Range m Scoped.slug old new (movedKey new) (scopedKeys m old.1 old.2) where
  members key member := by
    obtain ⟨-, owner, repo⟩ := mem_scopedKeys.mp member
    exact Prod.ext owner repo
  all key value found here :=
    mem_scopedKeys.mpr ⟨HashMap.mem_keys_of_lookup found, Prod.ext_iff.mp here⟩
  nodup := m.keys_nodup.filter _
  lands _ := rfl
  injective k member k' member' same := by
    obtain ⟨-, owner, repo⟩ := mem_scopedKeys.mp member
    obtain ⟨-, owner', repo'⟩ := mem_scopedKeys.mp member'
    have rest : k.2.2 = k'.2.2 := congrArg (fun key => key.2.2) same
    exact Prod.ext (owner.trans owner'.symm) (Prod.ext (repo.trans repo'.symm) rest)

theorem rekeyPairs_range (m : HashMap Slug ν) (old new : Slug) :
    HashMap.Range m id old new (fun _ => new) [old] where
  members _ member := List.mem_singleton.mp member
  all _ _ _ here := List.mem_singleton.mpr here
  nodup := List.nodup_singleton old
  lands _ := rfl
  injective _ member _ member' _ :=
    (List.mem_singleton.mp member).trans (List.mem_singleton.mp member').symm

omit [DecidableEq κ] in
theorem scoped_placing : HashMap.Placing (Scoped.slug : Scoped κ → Slug) movedKey where
  range_into _ _ := rfl
  into_range _ := rfl
  into_into _ _ _ := rfl

theorem slug_placing : HashMap.Placing (id : Slug → Slug) (fun slug _ => slug) where
  range_into _ _ := rfl
  into_range _ := rfl
  into_into _ _ _ := rfl

/-- A moved map, key by key, where nothing was in its way. -/
theorem rekeyTriples_movedTo {m : HashMap (Scoped κ) ν} (different : new ≠ old)
    (vacant : ∀ key, Scoped.slug key = new → m.lookup key = none) :
    HashMap.MovedTo Scoped.slug movedKey update old new m (rekeyTriples m old new update) :=
  (rekeyTriples_range m old new).movedTo scoped_placing different vacant

/-- A moved repository takes the place of what its new name held. -/
theorem lookup_rekeyTriples {m : HashMap (Scoped κ) ν} (different : new ≠ old) {key : Scoped κ}
    (here : Scoped.slug key = new) :
    (rekeyTriples m old new update).lookup key =
      ((m.lookup (movedKey old key)).map update).or (m.lookup key) := by
  have range := rekeyTriples_range m old new
  have own : movedKey new (movedKey old key) = key := by
    rw [← here]
    rfl
  cases found : m.lookup (movedKey old key) with
  | some value =>
    have member := range.all _ value found rfl
    have moved : (rekeyTriples m old new update).lookup (movedKey new (movedKey old key)) =
        some (update value) :=
      HashMap.lookup_moveAll_of_moved (range.apart different) range.injective range.nodup member found
    rw [own] at moved
    exact moved
  | none =>
    refine HashMap.lookup_moveAll_of_untouched (fun member => ?_) fun k member same => ?_
    · exact different (here.symm.trans (range.members key member))
    · obtain ⟨stored, owner, repo⟩ := mem_scopedKeys.mp member
      have source : k = movedKey old key := by
        rw [← same]
        exact Prod.ext owner (Prod.ext repo rfl)
      obtain ⟨value, there⟩ := HashMap.exists_of_mem_keys stored
      rw [source, found] at there
      cases there

theorem rekeyPairs_movedTo {m : HashMap Slug ν} (different : new ≠ old)
    (vacant : ∀ slug, id slug = new → m.lookup slug = none) :
    HashMap.MovedTo id (fun slug _ => slug) update old new m (rekeyPairs m old new update) :=
  @HashMap.Range.movedTo _ _ _ _ _ id (fun slug _ => slug) update old new m [old]
    (rekeyPairs_range m old new) slug_placing different vacant

theorem every_rekeyTriples {m : HashMap (Scoped κ) ν} {P : Scoped κ → ν → Prop}
    (different : new ≠ old) (every : m.Every P)
    (moved : ∀ key value, P key value → P (movedKey new key) (update value)) :
    (rekeyTriples m old new update).Every P :=
  every.moveAll ((rekeyTriples_range m old new).apart different) fun key _ value => moved key value

theorem apart_rekeyTriples {ι : Type} {m : HashMap (Scoped κ) ν} {holds : ν → ι → Prop}
    (different : new ≠ old) (apart : m.Apart holds)
    (kept : ∀ value i, holds (update value) i → holds value i) :
    (rekeyTriples m old new update).Apart holds :=
  apart.moveAll ((rekeyTriples_range m old new).apart different) kept

theorem every_rekeyPairs {m : HashMap Slug ν} {P : Slug → ν → Prop} (different : new ≠ old)
    (every : m.Every P) (moved : ∀ value, P old value → P new (update value)) :
    (rekeyPairs m old new update).Every P := by
  refine every.moveAll ((rekeyPairs_range m old new).apart different) fun key member value held => ?_
  cases List.mem_singleton.mp member
  exact moved value held

end Rekey

def rekeyGrants (m : HashMap GrantKey RepoAccessGrant) (old new : Slug) :
    HashMap GrantKey RepoAccessGrant :=
  m.moveAll (fun key => (key.1, new)) (fun grant => { grant with owner := new.1, repo := new.2 })
    (grantKeys m old.1 old.2)

theorem rekeyGrants_range (m : HashMap GrantKey RepoAccessGrant) (old new : Slug) :
    HashMap.Range m Prod.snd old new (fun key => (key.1, new)) (grantKeys m old.1 old.2) where
  members _ member := (mem_grantKeys.mp member).2
  all _ _ found here := mem_grantKeys.mpr ⟨HashMap.mem_keys_of_lookup found, here⟩
  nodup := m.keys_nodup.filter _
  lands _ := rfl
  injective k member k' member' same := by
    have slugs := (mem_grantKeys.mp member).2.trans (mem_grantKeys.mp member').2.symm
    exact Prod.ext (Prod.ext_iff.mp same).1 slugs

def movedGrantKey (slug : Slug) (key : GrantKey) : GrantKey := (key.1, slug)

theorem grant_placing : HashMap.Placing (Prod.snd : GrantKey → Slug) movedGrantKey where
  range_into _ _ := rfl
  into_range _ := rfl
  into_into _ _ _ := rfl

theorem rekeyGrants_movedTo {m : HashMap GrantKey RepoAccessGrant} {old new : Slug}
    (different : new ≠ old) (vacant : ∀ key, Prod.snd key = new → m.lookup key = none) :
    HashMap.MovedTo Prod.snd movedGrantKey
      (fun grant => { grant with owner := new.1, repo := new.2 }) old new m (rekeyGrants m old new) :=
  @HashMap.Range.movedTo _ _ _ _ _ Prod.snd movedGrantKey _ old new m (grantKeys m old.1 old.2)
    (rekeyGrants_range m old new) grant_placing different vacant

def movedPull (old new : Slug) (pull : PullRequest) : PullRequest :=
  { pull with
    owner := new.1
    repo := new.2
    sourceRepository :=
      if pull.sourceRepository = slugText old then slugText new else pull.sourceRepository }

def movedDelivery (old new : Slug) (delivery : WebhookDelivery) : WebhookDelivery :=
  if delivery.owner = old.1 ∧ delivery.repo = old.2 then
    { delivery with owner := new.1, repo := new.2 }
  else delivery

/-- Every repo-scoped map of the moved repository under its new slug. -/
def State.rekeyed (state : State) (old new : Slug) (repository : Repository) : State :=
  { state with
    repos := (state.repos.erase old).insert new repository
    labels := rekeyTriples state.labels old new id
    issues := rekeyTriples state.issues old new fun issue =>
      { issue with owner := new.1, repo := new.2 }
    issueComments := rekeyTriples state.issueComments old new fun comments =>
      comments.map fun comment => { comment with owner := new.1, repo := new.2 }
    pulls := rekeyTriples state.pulls old new (movedPull old new)
    reviews := rekeyTriples state.reviews old new fun reviews =>
      reviews.map fun review => { review with owner := new.1, repo := new.2 }
    reviewComments := rekeyTriples state.reviewComments old new fun comments =>
      comments.map fun comment => { comment with owner := new.1, repo := new.2 }
    branchProtections := rekeyTriples state.branchProtections old new fun rule =>
      { rule with owner := new.1, repo := new.2 }
    codeowners := rekeyPairs state.codeowners old new id
    readmes := rekeyPairs state.readmes old new id
    statuses := rekeyTriples state.statuses old new fun statuses =>
      statuses.map fun status => { status with owner := new.1, repo := new.2 }
    checkRuns := rekeyPairs state.checkRuns old new fun runs =>
      runs.map fun run => { run with owner := new.1, repo := new.2 }
    webhooks := rekeyPairs state.webhooks old new fun hooks =>
      hooks.map fun hook => { hook with owner := new.1, repo := new.2 }
    counters := rekeyPairs state.counters old new id
    jankuraiScores := rekeyPairs state.jankuraiScores old new fun scores =>
      scores.map fun score => { score with owner := new.1, repo := new.2 }
    repoGrants := rekeyGrants state.repoGrants old new
    webhookDeliveries := state.webhookDeliveries.map (movedDelivery old new) }

def RepositoryTransferJournal.source (journal : RepositoryTransferJournal) : Slug :=
  (journal.sourceOwner, journal.sourceName)

def RepositoryTransferJournal.destination (journal : RepositoryTransferJournal) : Slug :=
  (journal.destinationOwner, journal.destinationName)

def movedRepository (new : Slug) (now : DateTime) (repository : Repository) : Repository :=
  { repository with owner := new.1, name := new.2, fullName := slugText new, updatedAt := now }

def rekeyRepository (state : State) (transfer : RepositoryTransferJournal) (now : DateTime) :
    Except ForgeError State :=
  let old := transfer.source
  let new := transfer.destination
  if (state.repos.lookup new).isSome || (state.repositoryAliases.lookup new).isSome then
    .error (.conflict s!"destination repository {slugText new}")
  else match state.repos.lookup old with
    | none => .error (.notFound s!"repository {slugText old}")
    | some repository =>
      if repository.id ≠ transfer.repositoryId then
        .error (.validation s!"repository UUID drift for {slugText old}")
      else .ok (state.rekeyed old new (movedRepository new now repository))

/-- Keep the old slug as an alias and retarget every alias the repository already had. -/
def recordAlias (state : State) (journal : RepositoryTransferJournal)
    (origin : RepositoryAliasOrigin) (now : DateTime) : State :=
  let retargeted := state.repositoryAliases.mapValues fun _ redirect =>
    if redirect.repositoryId = journal.repositoryId then
      { redirect with
        canonicalOwner := journal.destinationOwner, canonicalName := journal.destinationName }
    else redirect
  let left : RepositoryAlias :=
    { repositoryId := journal.repositoryId, owner := journal.sourceOwner, name := journal.sourceName
      canonicalOwner := journal.destinationOwner, canonicalName := journal.destinationName
      createdAt := now, transactionId := journal.transactionId, origin }
  { state with repositoryAliases := retargeted.insert journal.source left }

def RepositoryAlias.canonical (redirect : RepositoryAlias) : Slug :=
  (redirect.canonicalOwner, redirect.canonicalName)

/-- An alias after its repository moved to `new`. -/
def retargeted (id : Uuid) (new : Slug) (redirect : RepositoryAlias) : RepositoryAlias :=
  if redirect.repositoryId = id then
    { redirect with canonicalOwner := new.1, canonicalName := new.2 }
  else redirect

@[simp] theorem retargeted_repositoryId (id : Uuid) (new : Slug) (redirect : RepositoryAlias) :
    (retargeted id new redirect).repositoryId = redirect.repositoryId := by
  unfold retargeted
  split <;> rfl

theorem retargeted_canonical {id : Uuid} {new : Slug} {redirect : RepositoryAlias}
    (own : redirect.repositoryId = id) : (retargeted id new redirect).canonical = new := by
  simp [retargeted, own, RepositoryAlias.canonical]

theorem retargeted_other {id : Uuid} {new : Slug} {redirect : RepositoryAlias}
    (other : redirect.repositoryId ≠ id) : retargeted id new redirect = redirect := by
  simp [retargeted, other]

/-- `record_alias` writes the slug left behind and retargets the others. -/
theorem lookup_recordAlias (state : State) (journal : RepositoryTransferJournal)
    (origin : RepositoryAliasOrigin) (now : DateTime) (slug : Slug) (other : slug ≠ journal.source) :
    (recordAlias state journal origin now).repositoryAliases.lookup slug =
      (state.repositoryAliases.lookup slug).map
        (retargeted journal.repositoryId journal.destination) := by
  unfold recordAlias
  rw [HashMap.lookup_insert_if, if_neg other, HashMap.lookup_mapValues]
  rfl

theorem lookup_recordAlias_source (state : State) (journal : RepositoryTransferJournal)
    (origin : RepositoryAliasOrigin) (now : DateTime) :
    ∃ redirect, (recordAlias state journal origin now).repositoryAliases.lookup journal.source =
      some redirect ∧ redirect.repositoryId = journal.repositoryId ∧
        redirect.canonical = journal.destination := by
  unfold recordAlias
  exact ⟨_, HashMap.lookup_insert_self .., rfl, rfl⟩

/-- Longest accepted repository name. -/
def maxRepositoryNameLen : Nat := 100

def validateRepositoryName (name : String) : Except ForgeError Unit := do
  requireName "repository name" name
  if !all name (fun c => isAsciiAlphanumeric c || c = '-' || c = '_' || c = '.') ||
      len name > maxRepositoryNameLen || startsWith name "." || endsWith name ".git" then
    throw (.validation ("repository name \"" ++ name ++
      "\" is not a valid slug (letters, digits, '-', '_', '.'; at most 100 characters; no leading '.' or trailing '.git')"))

def renameJournal (old new : Slug) (id transactionId : Uuid) (now : DateTime) :
    RepositoryTransferJournal where
  transactionId
  idempotencyKey := s!"rename:{transactionId}"
  requestFingerprint := s!"rename {slugText old} -> {slugText new}"
  repositoryId := id
  sourceOwner := old.1
  sourceName := old.2
  destinationOwner := new.1
  destinationName := new.2
  status := .committed
  preparedAt := now
  completedAt := some now
  failure := none
  receipt := some (.object [("from", slugText old), ("to", slugText new)])

def writeRenameLocked (old new : Slug) (core : ForgeCore) : Outcome Repository :=
  let state := core.state
  match state.repos.lookup old with
  | none => .refuse (.notFound s!"repository {slugText old}")
  | some current =>
    if current.archived then
      .refuse (.validation s!"repository {slugText old} is archived; unarchive it before renaming")
    else if old = new then
      .refuse (.validation s!"repository {slugText old} already has that name")
    else if old.1 ≠ new.1 ∧ (state.users.lookup new.1).isNone ∧
        (state.organizations.lookup new.1).isNone then
      .refuse (.validation s!"new owner {new.1} is not an existing user or organization")
    else if (state.repos.lookup new).isSome then
      .refuse (.validation s!"repository {slugText new} already exists")
    else
      let journal := renameJournal old new current.id core.uuids core.now
      -- A free slug that is still an alias is reclaimed by the rename.
      let reclaimed := { state with repositoryAliases := state.repositoryAliases.erase new }
      match rekeyRepository reclaimed journal core.now with
      | .error error => .refuse error
      | .ok rekeyed =>
        let aliased := recordAlias rekeyed journal .rename core.now
        let next := { aliased with
          repositoryTransfers := aliased.repositoryTransfers.insert journal.idempotencyKey journal }
        let relocated := match core.repoRelocator with
          | some relocate => relocate old new
          | none => .ok ()
        match relocated with
        | .error error => .refuse error
        | .ok () =>
          .commit [] 1 next.refreshDeploymentSlugs none (movedRepository new core.now current)

def writeRepositoryRename (old new : Slug) : Method Repository := do
  .ofExcept (requireName "new owner" new.1)
  .ofExcept (validateRepositoryName new.2)
  .locked (writeRenameLocked old new)

def renameRepository (actor owner repo newOwner newName : String) : Method Repository := do
  let _ ← canonicalRepository owner repo
  let subject := s!"{owner}/{repo}"
  appendAuditAs actor "repository.renamed" subject .requested
  (writeRepositoryRename (owner, repo) (newOwner, newName)).inspect fun result =>
    appendAuditAs actor "repository.renamed" subject (closingPhase result)

def prepareTransferLocked (request : PrepareRepositoryTransfer) (core : ForgeCore) :
    Outcome RepositoryTransferJournal :=
  let state := core.state
  match state.repositoryTransfers.lookup request.idempotencyKey with
  | some existing =>
    if existing.repositoryId ≠ request.repositoryId ∨
        existing.requestFingerprint ≠ request.requestFingerprint then
      .refuse (.conflict ("idempotency key \"" ++ request.idempotencyKey ++
        "\" is already bound to another transfer"))
    else .unchanged existing
  | none =>
    match state.repos.values.find? fun repo => repo.id == request.repositoryId with
    | none => .refuse (.notFound s!"repository UUID {request.repositoryId}")
    | some repository =>
      if repository.owner ≠ request.expectedSourceOwner ∨
          repository.name ≠ request.expectedSourceName then
        .refuse (.validation
          s!"repository source drift: expected {request.expectedSourceOwner}/{request.expectedSourceName}, found {repository.fullName}")
      else if repository.owner = request.destinationOwner then
        .refuse (.validation "destination owner must differ from source owner")
      else
        let destination := (request.destinationOwner, repository.name)
        if (state.repos.lookup destination).isSome ||
            (state.repositoryAliases.lookup destination).isSome then
          .refuse (.conflict s!"destination repository {slugText destination}")
        else
          let journal : RepositoryTransferJournal :=
            { transactionId := core.uuids, idempotencyKey := request.idempotencyKey
              requestFingerprint := request.requestFingerprint, repositoryId := repository.id
              sourceOwner := repository.owner, sourceName := repository.name
              destinationOwner := request.destinationOwner, destinationName := repository.name
              status := .prepared, preparedAt := core.now, completedAt := none, failure := none
              receipt := none }
          let repositoryTransfers := state.repositoryTransfers.insert request.idempotencyKey journal
          .commit [] 1 { state with repositoryTransfers } none journal

def prepareRepositoryTransfer (request : PrepareRepositoryTransfer) :
    Method RepositoryTransferJournal := do
  .ofExcept (requireName "expected source owner" request.expectedSourceOwner)
  .ofExcept (requireName "expected source name" request.expectedSourceName)
  .ofExcept (requireName "destination owner" request.destinationOwner)
  .ofExcept (requireName "request fingerprint" request.requestFingerprint)
  .ofExcept (requireName "idempotency key" request.idempotencyKey)
  .locked (prepareTransferLocked request)

def State.transferForId (state : State) (transactionId : Uuid) :
    Option (String × RepositoryTransferJournal) :=
  state.repositoryTransfers.pairs.find? fun (_, journal) => journal.transactionId == transactionId

def commitTransferLocked (transactionId : Uuid) (receipt : Value) (core : ForgeCore) :
    Outcome RepositoryTransferJournal :=
  match core.state.transferForId transactionId with
  | none => .refuse (.notFound s!"repository transfer {transactionId}")
  | some (idempotencyKey, journal) =>
    match journal.status with
    | .committed => .unchanged journal
    | .failed => .refuse (.conflict s!"repository transfer {transactionId} already failed")
    | .prepared =>
      match rekeyRepository core.state journal core.now with
      | .error error => .refuse error
      | .ok rekeyed =>
        let aliased := recordAlias rekeyed journal .transfer core.now
        let committed := { journal with
          status := .committed, completedAt := some core.now, receipt := some receipt }
        let repositoryTransfers := aliased.repositoryTransfers.insert idempotencyKey committed
        .commit [] 0 { aliased with repositoryTransfers } none committed

def commitRepositoryTransfer (transactionId : Uuid) (receipt : Value) :
    Method RepositoryTransferJournal :=
  .locked (commitTransferLocked transactionId receipt)

def failTransferLocked (transactionId : Uuid) (reason : String) (core : ForgeCore) :
    Outcome RepositoryTransferJournal :=
  match core.state.transferForId transactionId with
  | none => .refuse (.notFound s!"repository transfer {transactionId}")
  | some (idempotencyKey, existing) =>
    match existing.status with
    | .committed => .refuse (.conflict s!"repository transfer {transactionId} is already committed")
    | .failed =>
      if existing.failure = some reason then .unchanged existing
      else .refuse (.conflict
        s!"repository transfer {transactionId} already failed with a different reason")
    | .prepared =>
      let failed := { existing with
        status := .failed, completedAt := some core.now, failure := some reason }
      let repositoryTransfers := core.state.repositoryTransfers.insert idempotencyKey failed
      .commit [] 0 { core.state with repositoryTransfers } none failed

def failRepositoryTransfer (transactionId : Uuid) (reason : String) :
    Method RepositoryTransferJournal := do
  .ofExcept (requireName "transfer failure reason" reason)
  .locked (failTransferLocked transactionId reason)

end Jeryu.Core
