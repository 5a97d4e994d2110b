import Jeryu.Core.Evaluate

namespace Jeryu.Core

open KeyedMap Text

/-- `(owner, name)`. -/
abbrev Slug := String × String

/-- A key of a repo-scoped map of triples: `(owner, repo, rest)`. -/
abbrev Scoped (κ : Type) := String × String × κ

/-- A key of the grants: `(login, owner, repo)`. -/
abbrev GrantKey := String × String × String

def slugText (slug : Slug) : String := slug.1 ++ "/" ++ slug.2

structure Counters where
  issue : Nat
  pull : Nat

structure BotRecord where
  id : Uuid
  owner : String
  ownerKind : BotOwnerKind
  /-- A team bot's steward team; `none` for a person's bot. -/
  stewardTeam : Option String
  slug : String
  displayName : String
  kind : BotKind
  status : BotStatus
  reach : BotReach
  /-- The owner's `authEpoch` as of the enrollment or the last key rotation. -/
  authEpoch : Nat
  credentialGeneration : Nat
  lastSuccessfulAccess : Option DateTime
  lastAuth : Option DateTime
  lastMutation : Option DateTime
  lastHeartbeat : Option DateTime
  lastAction : Option String
  lastOutcome : Option String
  lastRepo : Option String
  createdAt : DateTime
  updatedAt : DateTime

structure WebSession where
  id : Uuid
  login : String
  authEpoch : Nat
  tokenHash : Digest
  csrfToken : Secret
  createdAt : DateTime
  expiresAt : DateTime

structure PersonalAccessToken where
  id : Uuid
  login : String
  authEpoch : Nat
  name : String
  tokenHash : Digest
  createdAt : DateTime
  expiresAt : Option DateTime

structure PasswordRecoveryRecord where
  tokenId : Secret
  login : String
  secretHash : Digest
  authEpoch : Nat
  createdAt : DateTime
  expiresAt : DateTime
  consumedAt : Option DateTime
  attemptCount : Nat

structure BotKeyRecord where
  keyId : Secret
  botId : Uuid
  secretHash : Digest
  env : String
  createdAt : DateTime
  retiredAt : Option DateTime
  revokedAt : Option DateTime

structure BotRefreshRecord where
  tokenHash : Digest
  botId : Uuid
  keyId : Secret
  generation : Nat
  expiresAt : DateTime
  usedAt : Option DateTime

structure BotAccessTokenRecord where
  tokenHash : Digest
  tokenId : Secret
  botId : Uuid
  keyId : Secret
  generation : Nat
  label : Option String
  issuedBy : Option String
  createdAt : DateTime
  expiresAt : DateTime
  lastUsedAt : Option DateTime
  revokedAt : Option DateTime

/-- The key a caller names an operation by; a rotation's goes with the presented token. -/
inductive RequestKey where
  | plain (text : String)
  | refresh (presented : Digest) (text : String)
  deriving DecidableEq

/-- The row identity a sealed value is bound to. -/
structure SealBinding where
  connectionId : Digest
  ownerId : Uuid
  generation : Nat
  deriving DecidableEq

/-- What a rotation seals for the lost response of its successor. -/
structure RefreshReplay where
  botId : Uuid
  keyId : Secret
  generation : Nat
  refreshToken : Secret
  refreshExpiresAt : DateTime

/-- It opens under the vault key and the binding it was sealed with, and under no other. -/
structure SealedReplay where
  vaultKey : String
  binding : SealBinding
  replay : RefreshReplay

inductive OperationResult where
  | json (text : String)
  | sealed (replay : SealedReplay)

structure BotOperationRecord where
  botId : Uuid
  operation : String
  requestKey : RequestKey
  bodyDigest : String
  result : Option OperationResult
  createdAt : DateTime

structure BotActivityEvent where
  id : Uuid
  botId : Uuid
  keyId : Secret
  repo : Option String
  sessionId : Option String
  action : String
  outcome : String
  scope : String
  createdAt : DateTime

structure Team where
  id : Uuid
  organization : String
  slug : String
  name : String
  members : List String
  createdAt : DateTime

structure InvitationBindings where
  role : UserRole
  teams : List String

structure AccountInvitation where
  id : Uuid
  canonicalLogin : String
  displayName : String
  activationSecretHash : Digest
  issuerPrincipal : String
  intendedBindings : InvitationBindings
  createdAt : DateTime
  expiresAt : DateTime
  consumedAt : Option DateTime
  revokedAt : Option DateTime
  attemptCount : Nat
  bootstrapOwner : Bool

structure ActivationChallenge where
  id : Uuid
  invitationId : Uuid
  challengeHash : Digest
  createdAt : DateTime
  expiresAt : DateTime
  consumedAt : Option DateTime

/-- The tables only the account, bot and team methods read. -/
structure AuthTables where
  sessions : HashMap Digest WebSession
  personalTokens : HashMap Uuid PersonalAccessToken
  botKeys : HashMap Secret BotKeyRecord
  botRefresh : HashMap Digest BotRefreshRecord
  botAccessTokens : HashMap Digest BotAccessTokenRecord
  botOperations : HashMap (Uuid × String × RequestKey) BotOperationRecord
  botActivity : List BotActivityEvent
  invitations : HashMap Uuid AccountInvitation
  activationChallenges : HashMap Digest ActivationChallenge
  passwordRecoveries : HashMap Secret PasswordRecoveryRecord
  bootstrapOwnerConsumed : Bool
  teams : HashMap (String × String) Team

def AuthTables.empty : AuthTables where
  sessions := ∅
  personalTokens := ∅
  botKeys := ∅
  botRefresh := ∅
  botAccessTokens := ∅
  botOperations := ∅
  botActivity := []
  invitations := ∅
  activationChallenges := ∅
  passwordRecoveries := ∅
  bootstrapOwnerConsumed := false
  teams := ∅

structure State where
  users : HashMap String User
  accounts : HashMap String UserAccount
  bots : HashMap Uuid BotRecord
  botRepoGrants : HashMap (Uuid × Uuid) BotRepoAccess
  repoGrants : HashMap GrantKey RepoAccessGrant
  organizations : HashMap String Organization
  repos : HashMap Slug Repository
  labels : HashMap (Scoped String) Label
  issues : HashMap (Scoped Nat) Issue
  issueComments : HashMap (Scoped Nat) (List IssueComment)
  pulls : HashMap (Scoped Nat) PullRequest
  reviews : HashMap (Scoped Nat) (List Review)
  reviewComments : HashMap (Scoped Nat) (List ReviewComment)
  branchProtections : HashMap (Scoped String) BranchProtectionRule
  codeowners : HashMap Slug String
  readmes : HashMap Slug String
  statuses : HashMap (Scoped String) (List CommitStatus)
  checkRuns : HashMap Slug (List CheckRun)
  webhooks : HashMap Slug (List Webhook)
  webhookDeliveries : List WebhookDelivery
  counters : HashMap Slug Counters
  jankuraiScores : HashMap Slug (List JankuraiScore)
  repositoryAliases : HashMap Slug RepositoryAlias
  repositoryTransfers : HashMap String RepositoryTransferJournal
  deployments : HashMap Nat Deployment
  auth : AuthTables

def State.empty : State where
  users := ∅
  accounts := ∅
  bots := ∅
  botRepoGrants := ∅
  repoGrants := ∅
  organizations := ∅
  repos := ∅
  labels := ∅
  issues := ∅
  issueComments := ∅
  pulls := ∅
  reviews := ∅
  reviewComments := ∅
  branchProtections := ∅
  codeowners := ∅
  readmes := ∅
  statuses := ∅
  checkRuns := ∅
  webhooks := ∅
  webhookDeliveries := []
  counters := ∅
  jankuraiScores := ∅
  repositoryAliases := ∅
  repositoryTransfers := ∅
  deployments := ∅
  auth := .empty

/-- One durable write: a receipt on its own, a committed snapshot with the receipt that went into
    its transaction, or rows appended to a table outside the snapshot. -/
inductive Written where
  | receipt (entry : AuditEntry)
  | snapshot (next : State) (receipt : Option AuditEntry)
  | rows (append : State → State)

/-- What SQLite answers to a transaction, to an audit row and to a deployment row is up to
    the surroundings. -/
structure SqliteStore where
  /-- What has become durable, oldest first. -/
  journal : List Written
  transaction : State → Except ForgeError Unit
  /-- Dropping the staging tables once the transaction has committed. -/
  dropTables : Except ForgeError Unit
  append : AuditEntry → Except ForgeError Unit
  appendDeployment : Deployment → Except ForgeError Unit

structure ForgeCore where
  state : State
  /-- UUIDs drawn so far. -/
  uuids : Nat
  /-- What `Utc::now()` answers. -/
  now : DateTime
  storage : Option SqliteStore
  /-- `JERYU_AUDIT_ENFORCE_MERGE`. -/
  auditEnforceMerge : Option String
  repoMaterializer : Option (String → String → String → Except ForgeError Unit)
  repoRelocator : Option (Slug → Slug → Except ForgeError Unit)

/-- Git storage, as a caller of the core hands it in. -/
structure RepoBranches where
  branchExists : String → String → String → Except ForgeError Bool
  headBranch : String → String → Except ForgeError (Option String)
  pointHeadAt : String → String → String → Except ForgeError Unit

def ForgeCore.auditMergeEnforced (core : ForgeCore) : Bool :=
  match core.auditEnforceMerge with
  | some value => ["1", "true", "yes", "on"].contains (trim value)
  | none => false

def requireName (field value : String) : Except ForgeError Unit :=
  if isBlank value then .error (.validation (field ++ " cannot be empty")) else .ok ()

def requireLogin (login : String) : Except ForgeError Unit := do
  requireName "login" login
  if trim login != login ||
      !all login fun c => isAsciiLowercase c || isAsciiDigit c || c = '-' || c = '_' then
    throw (.validation
      "login must be canonical lowercase ASCII using letters, numbers, hyphen, or underscore")

def defaultBranchProtectionRule (owner repo branch : String) (now : DateTime) :
    BranchProtectionRule where
  owner
  repo
  branch
  requiredStatusChecks := []
  strict := false
  requiredApprovingReviewCount := 0
  allowMergeOverride := false
  allowAdminReviewDismissal := false
  mergeOverrideStatusChecks := []
  mergeOverrideStatusCreators := []
  enforceAdmins := false
  requiredLinearHistory := true
  allowForcePushes := false
  allowDeletions := false
  requireSignedCommits := false
  requireJankuraiProof := false
  dismissStaleApprovals := true
  requireExactShaApproval := true
  updatedAt := now

namespace State

/-- Whether any branch protection rule of `owner/repo` requires a status context. -/
def repoRequiresStatusContext (state : State) (owner repo : String) : Bool :=
  state.branchProtections.values.any fun rule =>
    rule.owner == owner && rule.repo == repo && !rule.requiredStatusChecks.isEmpty

def ensureDefaultBranchProtection (state : State) (repo : Repository) (now : DateTime) : State :=
  if repo.defaultBranchProtectionOptOut &&
      !state.repoRequiresStatusContext repo.owner repo.name then state
  else
    let key := (repo.owner, repo.name, repo.defaultBranch)
    let rule := defaultBranchProtectionRule repo.owner repo.name repo.defaultBranch now
    if (state.branchProtections.lookup key).isSome then state
    else { state with branchProtections := state.branchProtections.insert key rule }

/-- The automatic rule is the only thing it writes, and only where no rule is. -/
theorem ensureDefaultBranchProtection_eq (state : State) (repo : Repository) (now : DateTime) :
    state.ensureDefaultBranchProtection repo now = { state with
      branchProtections :=
        (state.ensureDefaultBranchProtection repo now).branchProtections } := by
  unfold ensureDefaultBranchProtection
  split
  · rfl
  · dsimp only
    split <;> rfl

theorem lookup_ensureDefaultBranchProtection {state : State} {repo : Repository} {now : DateTime}
    {key : Scoped String} {rule : BranchProtectionRule}
    (found : (state.ensureDefaultBranchProtection repo now).branchProtections.lookup key =
      some rule) :
    state.branchProtections.lookup key = some rule ∨
      (key = (repo.owner, repo.name, repo.defaultBranch) ∧
        state.branchProtections.lookup key = none ∧
        rule = defaultBranchProtectionRule repo.owner repo.name repo.defaultBranch now) := by
  unfold ensureDefaultBranchProtection at found
  split at found
  · exact .inl found
  · dsimp only at found
    split at found
    · exact .inl found
    · next absent =>
      rw [HashMap.lookup_insert_if] at found
      split at found
      · next same =>
        subst same
        exact .inr ⟨rfl, by simpa using absent, (Option.some.inj found).symm⟩
      · exact .inl found

/-- The repository a slug names: the canonical one, else the target of an old-name alias. -/
def resolveRepository (state : State) (owner name : String) : Option Repository :=
  match state.repos.lookup (owner, name) with
  | some repo => some repo
  | none =>
    match state.repositoryAliases.lookup (owner, name) with
    | some redirect =>
      (state.repos.lookup (redirect.canonicalOwner, redirect.canonicalName)).filter
        fun repo => repo.id == redirect.repositoryId
    | none => none

/-- Point every deployment at the current slug of its repository. -/
def refreshDeploymentSlugs (state : State) : State :=
  { state with deployments := state.deployments.mapValues fun _ deployment =>
      match state.repos.values.find? fun repo => repo.id == deployment.repositoryId with
      | some repo => { deployment with owner := repo.owner, repo := repo.name }
      | none => deployment }

/-- The next number of a repository's single issue and pull request space. -/
def nextRecordNumber (state : State) (owner repo : String) : Nat × State :=
  let counters := (state.counters.lookup (owner, repo)).getD ⟨0, 0⟩
  let number := max counters.issue counters.pull + 1
  (number, { state with counters := state.counters.insert (owner, repo) ⟨number, number⟩ })

def botAccountMatches (state : State) (bot : BotRecord) : Bool :=
  bot.status = .active &&
    match bot.ownerKind with
    | .organization => (state.organizations.lookup bot.owner).isSome
    | .user => (state.accounts.lookup bot.owner).any fun account =>
        account.status.permitsAuthentication && account.authEpoch == bot.authEpoch

def grantAccess (state : State) (botId : Uuid) (owner repo : String) : Option BotRepoAccess :=
  match state.repos.lookup (owner, repo) with
  | some repository => state.botRepoGrants.lookup (botId, repository.id)
  | none => none

/-- What a team bot's acting login may do on `owner/repo`. -/
def actingRepoAccess (state : State) (login owner repo : String) : Option RepoAccessLevel :=
  match parseTeamBotLogin login with
  | none => none
  | some (org, slug) =>
    match state.bots.values.find? fun bot =>
        bot.ownerKind = .organization && bot.owner == org && bot.slug == slug with
    | none => none
    | some bot =>
      if state.botAccountMatches bot then
        (state.grantAccess bot.id owner repo).map fun
          | .read => .read
          | .write => .write
      else none

def repoAccessForLocked (state : State) (login owner repo : String) : Option RepoAccessLevel :=
  if (parseTeamBotLogin login).isSome then state.actingRepoAccess login owner repo
  else match state.accounts.lookup login with
    | none => none
    | some account =>
      if !account.status.permitsAuthentication then none
      else if account.role = .admin then some .admin
      else (state.repoGrants.lookup (login, owner, repo)).map RepoAccessGrant.access

def isGlobalAdmin (state : State) (login : String) : Bool :=
  (state.accounts.lookup login).any fun account =>
    account.status.permitsAuthentication && account.role = .admin

def evaluateLocked (state : State) (jankuraiProofMandatory : Bool) (pr : PullRequest)
    (requestedSha : Option String) : BranchProtectionEvaluation :=
  let protection := state.branchProtections.lookup (pr.owner, pr.repo, pr.base.refName)
  let reviews := (state.reviews.lookup (pr.owner, pr.repo, pr.number)).getD []
  let statuses := (state.statuses.lookup (pr.owner, pr.repo, pr.head.sha)).getD []
  let checkRuns := ((state.checkRuns.lookup (pr.owner, pr.repo)).getD []).filter
    fun check => check.headSha == pr.head.sha
  let codeowners := state.codeowners.lookup (pr.owner, pr.repo)
  evaluateBranchProtectionWith pr protection reviews statuses checkRuns requestedSha
    { codeowners, actorIsAdmin := false, jankuraiProofMandatory }

end State

/-- Terminal states are sticky: only an open pull request takes the state its gate asks for. -/
def applyEvaluation (pr : PullRequest) (evaluation : BranchProtectionEvaluation) : PullRequest :=
  if pr.merged || pr.state = .merged then
    { pr with mergeable := false, mergeableState := "merged" }
  else if pr.state = .closed then
    { pr with mergeable := false, mergeableState := "closed" }
  else
    { pr with
      mergeable := evaluation.mergeable
      mergeableState := evaluation.state
      state := if pr.draft then .draft else if evaluation.mergeable then .mergeable
        else .blockedByChecks }

namespace State

/-- Re-evaluate the stored pull request under one key. -/
def reevaluate (jankuraiProofMandatory : Bool) (state : State) (key : Scoped Nat) : State :=
  match state.pulls.lookup key with
  | some snapshot =>
    let evaluation := state.evaluateLocked jankuraiProofMandatory snapshot none
    { state with pulls := state.pulls.insert key (applyEvaluation snapshot evaluation) }
  | none => state

def refreshPullMergeabilityForSha (state : State) (jankuraiProofMandatory : Bool)
    (owner repo sha : String) : State :=
  let keys := (state.pulls.pairs.filter fun (key, pr) =>
    key.1 == owner && key.2.1 == repo && pr.head.sha == sha).map Prod.fst
  keys.foldl (reevaluate jankuraiProofMandatory) state

def shouldDeliver (hook : Webhook) (event : String) : Bool :=
  hook.active && (hook.events.contains "*" || hook.events.contains event)

def emitEventLocked (state : State) (owner repo event : String) (payload : EventPayload)
    (now : DateTime) : State :=
  let hooks := (state.webhooks.lookup (owner, repo)).getD []
  { state with webhookDeliveries := state.webhookDeliveries ++
      (hooks.filter fun hook => shouldDeliver hook event).map fun hook =>
        { hookId := hook.id, owner, repo, event, targetUrl := hook.config.url, payload
          delivered := false, createdAt := now } }

end State

end Jeryu.Core
