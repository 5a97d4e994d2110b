import Jeryu.Library.KeyedMap
import Jeryu.Library.Text

namespace Jeryu.Core

open Text

/-- A version 4 UUID, named by its place in the order of draws: no two draws agree. -/
abbrev Uuid := Nat

/-- A UTC instant in nanoseconds. -/
abbrev DateTime := Int

def DateTime.timestamp (at_ : DateTime) : Int := at_ / 1000000000

/-- A JSON value: text supplied by a caller, or an object the core builds. -/
inductive Value where
  | text (json : String)
  | object (fields : List (String × String))

inductive MergeBlocker where
  | draftPullRequest
  | missingReview (required approved : Nat)
  | changesRequested (reviewers : List String)
  | missingStatusCheck (context : String)
  | failedStatusCheck (context : String)
  | jankuraiProofRequired
  | shaMismatch (expected actual : String)
  | nonLinearHistory (sha : String)
  | unsignedCommits (unsigned : List String)
  | missingCodeOwnerReview (paths owners : List String)
  deriving DecidableEq

structure BranchProtectionEvaluation where
  mergeable : Bool
  state : String
  blockers : List MergeBlocker
  deriving DecidableEq

inductive ForgeError where
  | notFound (message : String)
  | conflict (message : String)
  | validation (message : String)
  | forbidden (message : String)
  | branchProtection (message : String)
  /-- `BranchProtection` whose text is the debug print of the blockers. -/
  | blocked (blockers : List MergeBlocker)
  /-- `BranchProtection` of a blocker no override can clear. -/
  | notOverridable (blocker : MergeBlocker)
  | repositoryArchived (repository : String)
  | storage (message : String)
  | storeCustody (message : String)
  deriving DecidableEq

/-- How a call ends without a value: an error it returns, or a panic of its thread. -/
inductive Failure where
  | error (error : ForgeError)
  | panicked (message : String)
  deriving DecidableEq

inductive UserRole where
  | admin
  | user
  deriving DecidableEq

inductive AccountStatus where
  | pendingActivation
  | pendingMfa
  | active
  | disabled
  | locked
  deriving DecidableEq

def AccountStatus.permitsAuthentication (status : AccountStatus) : Bool := status = .active

structure User where
  id : Uuid
  login : String
  name : Option String
  email : Option String
  createdAt : DateTime

structure UserAccount where
  canonicalLogin : String
  displayName : String
  passwordHash : String
  role : UserRole
  status : AccountStatus
  authEpoch : Nat
  mustChangePassword : Bool
  createdAt : DateTime
  updatedAt : DateTime

structure AccountSummary where
  login : String
  displayName : String
  role : UserRole
  status : AccountStatus
  authEpoch : Nat
  mustChangePassword : Bool
  createdAt : DateTime
  updatedAt : DateTime

def UserAccount.summary (account : UserAccount) : AccountSummary where
  login := account.canonicalLogin
  displayName := account.displayName
  role := account.role
  status := account.status
  authEpoch := account.authEpoch
  mustChangePassword := account.mustChangePassword
  createdAt := account.createdAt
  updatedAt := account.updatedAt

structure CreateUserRequest where
  login : String
  name : Option String
  email : Option String

structure CreateOrganizationRequest where
  login : String
  displayName : Option String

inductive RepoAccessLevel where
  | read
  | write
  | admin
  deriving DecidableEq

def RepoAccessLevel.allowsAdmin (level : RepoAccessLevel) : Bool := level = .admin

structure RepoAccessGrant where
  login : String
  owner : String
  repo : String
  access : RepoAccessLevel
  grantedBy : String
  grantedAt : DateTime

structure Organization where
  id : Uuid
  login : String
  displayName : Option String
  createdAt : DateTime
  owners : List String
  createdBy : Option String

def teamBotLoginSuffix : String := "[bot]"

/-- A team bot's acting login, `organization.slug[bot]`, split into its two parts. -/
def parseTeamBotLogin (login : String) : Option (String × String) :=
  let canonical (part : String) : Bool :=
    part != "" && all part fun c => isAsciiLowercase c || isAsciiDigit c || c = '-' || c = '_'
  match stripSuffix login teamBotLoginSuffix with
  | none => none
  | some name =>
    match splitOnce name '.' with
    | none => none
    | some (organization, slug) =>
      if canonical organization && canonical slug then some (organization, slug) else none

inductive BotOwnerKind where
  | user
  | organization
  deriving DecidableEq

inductive BotRepoAccess where
  | read
  | write
  deriving DecidableEq

inductive BotStatus where
  | active
  | suspended
  | revoked
  deriving DecidableEq

inductive BotTaskKind where
  | issue
  | pull
  | branch
  deriving DecidableEq

inductive BotEffect where
  | read
  | write
  deriving DecidableEq

/-- A lowercase ASCII letter, then at most 31 lowercase letters, digits or hyphens. -/
def BotKind.isValid (text : String) : Bool :=
  match text.toList with
  | [] => false
  | first :: rest => isAsciiLowercase first && len text ≤ 32 &&
      rest.all fun c => isAsciiLowercase c || isAsciiDigit c || c = '-'

/-- What drives a bot. It grants nothing. -/
structure BotKind where
  text : String
  valid : BotKind.isValid text = true
  deriving DecidableEq

theorem BotKind.grokbot_valid : BotKind.isValid "grokbot" = true := by decide

structure BotRepoRef where
  owner : String
  name : String
  deriving DecidableEq

/-- What a bot may touch. -/
inductive BotReach where
  | general (refs : Option (List String))
  | owners (owners : List String) (refs : Option (List String))
  | repositories (repos : List BotRepoRef) (refs : Option (List String))
  | task (repo : BotRepoRef) (taskKind : BotTaskKind) (taskId : String)
      (refs : Option (List String))
  deriving DecidableEq

/-- A random secret or key id, named by its place in the order of draws as the UUIDs are: no
    two draws agree. -/
abbrev Secret := Nat

/-- A SHA-256, named by what it hashes. -/
structure Digest where
  secret : Secret
  deriving DecidableEq

def tokenHash (token : Secret) : Digest := ⟨token⟩

structure Repository where
  id : Uuid
  owner : String
  name : String
  fullName : String
  isPrivate : Bool
  description : Option String
  defaultBranch : String
  family : Option String
  archived : Bool
  disabled : Bool
  createdAt : DateTime
  updatedAt : DateTime
  pushedAt : Option DateTime
  defaultBranchProtectionOptOut : Bool

structure CreateRepositoryRequest where
  name : String
  isPrivate : Bool
  description : Option String
  defaultBranch : Option String

inductive IssueState where
  | opened
  | closed
  deriving DecidableEq

structure Label where
  id : Uuid
  name : String
  color : String
  description : Option String

structure CreateLabelRequest where
  name : String
  color : String
  description : Option String

structure PullRequestMarker where
  url : String
  htmlUrl : String

structure Issue where
  id : Uuid
  owner : String
  repo : String
  number : Nat
  title : String
  body : Option String
  state : IssueState
  author : String
  labels : List String
  assignees : List String
  milestone : Option String
  comments : Nat
  pullRequest : Option PullRequestMarker
  createdAt : DateTime
  updatedAt : DateTime
  closedAt : Option DateTime

structure CreateIssueRequest where
  title : String
  body : Option String
  labels : List String
  assignees : List String
  milestone : Option String

structure UpdateIssueRequest where
  title : Option String
  body : Option String
  state : Option IssueState
  labels : Option (List String)
  assignees : Option (List String)
  milestone : Option String

structure IssueComment where
  id : Uuid
  owner : String
  repo : String
  issueNumber : Nat
  author : String
  body : String
  createdAt : DateTime
  updatedAt : DateTime

inductive PullRequestState where
  | draft
  | opened
  | readyForReview
  | blockedByPolicy
  | blockedByChecks
  | approved
  | queued
  | speculativeMergeTesting
  | mergeable
  | merged
  | closed
  deriving DecidableEq

structure PullRequestCommit where
  sha : String
  verified : Bool
  parents : Nat

structure GitBranchRef where
  label : String
  refName : String
  sha : String

def GitBranchRef.new (label sha : String) : GitBranchRef :=
  { label
    refName := match splitOnce label ':' with
      | some (_, branch) => branch
      | none => label
    sha }

structure PullRequest where
  id : Uuid
  owner : String
  repo : String
  number : Nat
  issueNumber : Nat
  title : String
  body : Option String
  state : PullRequestState
  draft : Bool
  author : String
  sourceRepository : String
  head : GitBranchRef
  base : GitBranchRef
  mergeable : Bool
  mergeableState : String
  merged : Bool
  mergedAt : Option DateTime
  mergeCommitSha : Option String
  commits : List PullRequestCommit
  changedFiles : List String
  headPatchIds : List String
  createdAt : DateTime
  updatedAt : DateTime

structure CreatePullRequestRequest where
  title : String
  body : Option String
  head : String
  base : String
  headSha : Option String
  baseSha : Option String
  sourceRepository : Option String
  draft : Bool
  commits : List PullRequestCommit
  changedFiles : List String

structure UpdatePullRequestRequest where
  title : Option String
  body : Option String
  state : Option PullRequestState
  draft : Option Bool
  commits : Option (List PullRequestCommit)
  changedFiles : Option (List String)

structure RetargetPullRequestRequest where
  base : String
  baseSha : String
  headSha : String
  commits : List PullRequestCommit
  changedFiles : List String

inductive ReviewState where
  | approved
  | changesRequested
  | commented
  | dismissed
  deriving DecidableEq

inductive DismissalAuthority where
  | repositoryAdmin
  deriving DecidableEq

structure Review where
  id : Uuid
  owner : String
  repo : String
  pullNumber : Nat
  author : String
  state : ReviewState
  body : Option String
  headSha : Option String
  headPatchIds : List String
  dismissedReviewId : Option Uuid
  dismissalAuthority : Option DismissalAuthority
  submittedAt : DateTime

structure ReviewComment where
  id : Uuid
  reviewId : Uuid
  owner : String
  repo : String
  pullNumber : Nat
  path : String
  line : Option Nat
  author : String
  body : String
  createdAt : DateTime

structure ReviewCommentInput where
  path : String
  line : Option Nat
  body : String

structure CreateReviewRequest where
  body : Option String
  event : ReviewState
  comments : List ReviewCommentInput
  expectedHeadSha : Option String

structure DismissReviewRequest where
  reviewId : Uuid
  expectedHeadSha : String
  reason : String

structure MergeResult where
  sha : String
  merged : Bool
  message : String

structure BranchProtectionRule where
  owner : String
  repo : String
  branch : String
  requiredStatusChecks : List String
  strict : Bool
  requiredApprovingReviewCount : Nat
  enforceAdmins : Bool
  allowMergeOverride : Bool
  allowAdminReviewDismissal : Bool
  mergeOverrideStatusChecks : List String
  mergeOverrideStatusCreators : List String
  requiredLinearHistory : Bool
  allowForcePushes : Bool
  allowDeletions : Bool
  requireSignedCommits : Bool
  requireJankuraiProof : Bool
  dismissStaleApprovals : Bool
  requireExactShaApproval : Bool
  updatedAt : DateTime
  deriving DecidableEq

structure SetBranchProtectionRequest where
  requiredStatusChecks : List String
  requiredApprovingReviewCount : Nat
  enforceAdmins : Bool
  allowMergeOverride : Bool
  allowAdminReviewDismissal : Bool
  mergeOverrideStatusChecks : List String
  mergeOverrideStatusCreators : List String
  strict : Bool
  requiredLinearHistory : Bool
  allowForcePushes : Bool
  allowDeletions : Bool
  requireSignedCommits : Bool
  requireJankuraiProof : Bool
  dismissStaleApprovals : Bool
  requireExactShaApproval : Bool

/-- Every protection off except the two exact-head rules. -/
def SetBranchProtectionRequest.default : SetBranchProtectionRequest where
  requiredStatusChecks := []
  requiredApprovingReviewCount := 0
  enforceAdmins := false
  allowMergeOverride := false
  allowAdminReviewDismissal := false
  mergeOverrideStatusChecks := []
  mergeOverrideStatusCreators := []
  strict := false
  requiredLinearHistory := false
  allowForcePushes := false
  allowDeletions := false
  requireSignedCommits := false
  requireJankuraiProof := false
  dismissStaleApprovals := true
  requireExactShaApproval := true

inductive CommitStatusState where
  | error
  | failure
  | pending
  | success
  deriving DecidableEq

structure CommitStatus where
  id : Uuid
  owner : String
  repo : String
  sha : String
  state : CommitStatusState
  context : String
  base : Option String
  description : Option String
  targetUrl : Option String
  creator : String
  createdAt : DateTime
  updatedAt : DateTime
  deriving DecidableEq

structure CreateCommitStatusRequest where
  state : CommitStatusState
  context : String
  base : Option String
  description : Option String
  targetUrl : Option String

inductive CheckRunStatus where
  | queued
  | inProgress
  | completed
  deriving DecidableEq

inductive CheckConclusion where
  | actionRequired
  | cancelled
  | failure
  | neutral
  | success
  | skipped
  | superseded
  | timedOut
  deriving DecidableEq

structure CheckRunOutput where
  title : String
  summary : String
  text : Option String

structure CheckRun where
  id : Uuid
  owner : String
  repo : String
  name : String
  headSha : String
  status : CheckRunStatus
  conclusion : Option CheckConclusion
  detailsUrl : Option String
  output : Option CheckRunOutput
  startedAt : DateTime
  completedAt : Option DateTime
  creationSequence : Nat

structure CreateCheckRunRequest where
  name : String
  headSha : String
  status : Option CheckRunStatus
  conclusion : Option CheckConclusion
  detailsUrl : Option String
  output : Option CheckRunOutput

structure WebhookConfig where
  url : String
  contentType : String
  secret : Option String

structure Webhook where
  id : Uuid
  owner : String
  repo : String
  name : String
  active : Bool
  events : List String
  config : WebhookConfig
  createdAt : DateTime
  updatedAt : DateTime

structure CreateWebhookRequest where
  name : String
  active : Bool
  events : List String
  config : WebhookConfig

inductive EventObject where
  | issue (issue : Issue)
  | comment (comment : IssueComment)
  | pullRequest (pullRequest : PullRequest)
  | review (review : Review)
  | status (status : CommitStatus)
  | checkRun (checkRun : CheckRun)

/-- The body `event_payload` builds: the action, the object under its name, and the fixed
    sender. -/
structure EventPayload where
  action : String
  objectName : String
  object : EventObject

structure WebhookDelivery where
  hookId : Uuid
  owner : String
  repo : String
  event : String
  targetUrl : String
  payload : EventPayload
  delivered : Bool
  createdAt : DateTime

structure JankuraiScore where
  id : Uuid
  owner : String
  repo : String
  branch : String
  commitSha : String
  score : Option Nat
  hardFindings : Nat
  decision : String
  capsApplied : List String
  reportJson : Option String
  createdAt : DateTime

structure RecordJankuraiScoreRequest where
  branch : String
  commitSha : String
  score : Option Nat
  hardFindings : Option Nat
  decision : String
  capsApplied : List String
  /-- The report, already printed as JSON. -/
  report : Option String
  toolExit : Option Int

inductive RepositoryAliasOrigin where
  | transfer
  | rename
  deriving DecidableEq

structure RepositoryAlias where
  repositoryId : Uuid
  owner : String
  name : String
  canonicalOwner : String
  canonicalName : String
  createdAt : DateTime
  transactionId : Uuid
  origin : RepositoryAliasOrigin

inductive RepositoryTransferStatus where
  | prepared
  | committed
  | failed
  deriving DecidableEq

structure PrepareRepositoryTransfer where
  repositoryId : Uuid
  expectedSourceOwner : String
  expectedSourceName : String
  destinationOwner : String
  requestFingerprint : String
  idempotencyKey : String

structure RepositoryTransferJournal where
  transactionId : Uuid
  idempotencyKey : String
  requestFingerprint : String
  repositoryId : Uuid
  sourceOwner : String
  sourceName : String
  destinationOwner : String
  destinationName : String
  status : RepositoryTransferStatus
  preparedAt : DateTime
  completedAt : Option DateTime
  failure : Option String
  receipt : Option Value

structure Deployment where
  id : Nat
  repositoryId : Uuid
  owner : String
  repo : String
  sha : String
  refName : String
  task : String
  environment : String
  description : Option String
  payload : Value
  productionEnvironment : Bool
  transientEnvironment : Bool
  creator : String
  createdAt : DateTime

structure CreateDeploymentRequest where
  sha : String
  refName : Option String
  task : String
  environment : String
  description : Option String
  payload : Option Value
  productionEnvironment : Option Bool
  transientEnvironment : Bool

inductive AuditPhase where
  | requested
  | completed
  | failed
  deriving DecidableEq

/-- The detail of a receipt: those of a review dismissal and of a merge override by their fields,
    every other as it is handed in. -/
inductive AuditDetail where
  | dismissal (number : Nat) (dismissalId : Uuid) (reviewId : Option Uuid) (headSha : Option String)
      (reason : Option String) (authority : Option DismissalAuthority)
  | mergeOverride (number : Nat) (reason headSha passportHash : String)
      (blockers : List MergeBlocker) (statusEvidence : List CommitStatus) (mergeSha : Option String)
  | other (value : Value)

structure AuditEntry where
  occurredAt : DateTime
  actor : String
  action : String
  subject : String
  phase : AuditPhase
  detail : AuditDetail

/-- A base branch name without the `refs/heads/` prefix. -/
def normalizeBaseRef (name : String) : String :=
  let name := trim name
  (stripPrefix name "refs/heads/").getD name

def statusAnswersForBase (status : CommitStatus) (baseRef : String) : Bool :=
  match status.base with
  | some statusBase =>
    let baseRef := normalizeBaseRef baseRef
    baseRef != "" && normalizeBaseRef statusBase == baseRef
  | none => true

/-- The latest row for `context` that speaks for a merge into `baseRef`; a tie picks the
    last appended. -/
def currentStatusForBase (statuses : List CommitStatus) (context baseRef : String) :
    Option CommitStatus :=
  statuses.foldl
    (fun current status =>
      if status.context != context || !statusAnswersForBase status baseRef then current
      else match current with
        | none => some status
        | some seen => if status.updatedAt ≥ seen.updatedAt then some status else current)
    none

/-- Creation sequence, then start time, then id. -/
def CheckRun.recencyLe (a b : CheckRun) : Bool :=
  a.creationSequence < b.creationSequence ||
    (a.creationSequence == b.creationSequence &&
      (a.startedAt < b.startedAt || (a.startedAt == b.startedAt && a.id ≤ b.id)))

def CheckRun.newest (runs : List CheckRun) : Option CheckRun :=
  runs.foldl
    (fun current run =>
      match current with
      | none => some run
      | some seen => if seen.recencyLe run then some run else current)
    none

/-- Most commits a diff identity may cover. -/
def maxCommits : Nat := 256

/-- A digest of the base-, tree- and message-bound format: `v2:` and 64 hex digits. -/
def isReviewPatchId (value : String) : Bool :=
  match stripPrefix value "v2:" with
  | some digest => len digest == 64 && all digest isAsciiHexdigit
  | none => false

end Jeryu.Core
