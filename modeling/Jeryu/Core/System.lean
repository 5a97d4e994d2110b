import Jeryu.Core.Protection
import Jeryu.Core.Issues
import Jeryu.Core.Checks
import Jeryu.Core.Deployments
import Jeryu.Core.PullRequests
import Jeryu.Core.RecordReview
import Jeryu.Core.Relocation
import Jeryu.Library.TaskPool

namespace Jeryu.Core

open KeyedMap LockProgram

/-- The methods of the core, with what their callers and the outside answer them. -/
inductive Call where
  | createUser (request : CreateUserRequest)
  | ensureUser (login : String)
  | createOrganization (request : CreateOrganizationRequest)
  | createAccount (login password : String) (role : UserRole) (hash : Except ForgeError String)
  | getAccount (login : String)
  | getRepository (owner repo : String)
  | appendAuditAs (actor action subject : String) (phase : AuditPhase) (detail : AuditDetail)
  | grantRepoAccess (actor login owner repo : String) (access : RepoAccessLevel)
  | grantRepoAccessChecked (actor login owner repo : String) (access : RepoAccessLevel)
  | revokeRepoAccess (login owner repo : String)
  | revokeRepoAccessChecked (actor login owner repo : String)
  | createRepository (owner : String) (request : CreateRepositoryRequest)
  | setRepositoryFamily (owner repo : String) (family : Option String)
  | setRepositoryArchived (actor owner repo : String) (archived : Bool)
  | setRepositoryDefaultBranch (owner repo branch : String) (branches : RepoBranches)
  | setDefaultBranchProtectionOptOut (actor owner repo : String) (optOut : Bool)
  | recordRepositoryPush (owner repo : String) (time : DateTime)
  | backfillRepositoryPushedAt (history : Slug → Except ForgeError (Option DateTime))
  | deleteRepository (owner repo : String)
  | createLabel (owner repo : String) (request : CreateLabelRequest)
  | setBranchProtection (owner repo branch : String) (request : SetBranchProtectionRequest)
  | deleteBranchProtection (actor owner repo branch : String)
  | rekeyEncodedBranchProtections (actor : String) (branches : RepoBranches)
  | setCodeowners (owner repo contents : String)
  | createIssue (owner repo author : String) (request : CreateIssueRequest)
  | updateIssue (owner repo : String) (number : Nat) (request : UpdateIssueRequest)
  | addIssueComment (owner repo : String) (number : Nat) (author body : String)
  | createCommitStatus (owner repo sha creator : String) (request : CreateCommitStatusRequest)
  | createCheckRun (owner repo : String) (request : CreateCheckRunRequest)
  | recordJankuraiScore (owner repo : String) (request : RecordJankuraiScoreRequest)
  | createWebhook (owner repo : String) (request : CreateWebhookRequest)
  | setRepositoryReadme (owner repo markdown : String)
  | createDeployment (owner repo creator : String) (request : CreateDeploymentRequest)
  | prepareMergeOverride (owner repo : String) (number : Nat) (request : MergeOverrideRequest)
  | createPullRequest (owner repo author : String) (request : CreatePullRequestRequest)
  | updatePullRequest (owner repo : String) (number : Nat) (request : UpdatePullRequestRequest)
  | refreshPullRequestHeadsForRef (owner repo refName headSha : String)
  | refreshPullRequestHeadsForRefWithDiff (owner repo refName headSha baseSha : String)
      (headPatchIds : List String)
  | refreshPullRequestHeadsFromGit (owner repo refName headSha baseSha : String)
      (patchIds : Except String (List String))
      (reviewCommits : Except String (List PullRequestCommit))
  | retargetPullRequest (actor owner repo : String) (number : Nat)
      (request : RetargetPullRequestRequest) (branches : RepoBranches)
  | recordPullRequestBase (actor owner repo : String) (number : Nat) (headSha baseSha : String)
  | evaluateMergeReadiness (owner repo : String) (number : Nat) (requestedSha : Option String)
  | finalizeMerge (owner repo : String) (number : Nat) (mergeSha : String)
      (requestedSha : Option String) (base : MergeBase)
  /-- The permit is the one task `ticket` answered. -/
  | finalizeMergeWithOverride (ticket : Nat) (permit : MergeOverridePermit) (mergeSha : String)
  | mergePullRequest (owner repo : String) (number : Nat) (sha : Option String)
  | createReview (owner repo : String) (number : Nat) (author : String)
      (request : CreateReviewRequest)
  | dismissReview (owner repo : String) (number : Nat) (actor : String)
      (request : DismissReviewRequest)
  | renameRepository (actor owner repo newOwner newName : String)
  | prepareRepositoryTransfer (request : PrepareRepositoryTransfer)
  | commitRepositoryTransfer (transactionId : Uuid) (receipt : Value)
  | failRepositoryTransfer (transactionId : Uuid) (reason : String)

def Call.Answer : Call → Type
  | createUser .. | ensureUser .. => User
  | createOrganization .. => Organization
  | createAccount .. | getAccount .. => AccountSummary
  | getRepository .. | createRepository .. | setRepositoryFamily .. | setRepositoryArchived ..
  | setRepositoryDefaultBranch .. | setDefaultBranchProtectionOptOut ..
  | recordRepositoryPush .. | renameRepository .. => Repository
  | appendAuditAs .. | setCodeowners .. => Unit
  | grantRepoAccess .. | grantRepoAccessChecked .. => RepoAccessGrant
  | revokeRepoAccess .. | revokeRepoAccessChecked .. => Bool
  | backfillRepositoryPushedAt .. => Nat
  | deleteRepository .. => RepositoryDeletion
  | createLabel .. => Label
  | setBranchProtection .. | deleteBranchProtection .. => BranchProtectionRule
  | rekeyEncodedBranchProtections .. => EncodedProtectionReport
  | createIssue .. | updateIssue .. => Issue
  | addIssueComment .. => IssueComment
  | createCommitStatus .. => CommitStatus
  | createCheckRun .. => CheckRun
  | recordJankuraiScore .. => JankuraiScore
  | createWebhook .. => Webhook
  | setRepositoryReadme .. => String
  | createDeployment .. => Deployment
  | prepareMergeOverride .. => MergeOverrideTarget × MergeOverridePermit
  | createPullRequest .. | updatePullRequest .. | retargetPullRequest ..
  | recordPullRequestBase .. => PullRequest
  | refreshPullRequestHeadsForRef .. | refreshPullRequestHeadsForRefWithDiff ..
  | refreshPullRequestHeadsFromGit .. => List PullRequest
  | evaluateMergeReadiness .. => MergeReadiness
  | finalizeMerge .. | finalizeMergeWithOverride .. | mergePullRequest .. => MergeResult
  | createReview .. | dismissReview .. => Review
  | prepareRepositoryTransfer .. | commitRepositoryTransfer ..
  | failRepositoryTransfer .. => RepositoryTransferJournal

abbrev Call.Reply (call : Call) : Type := Except Failure call.Answer

def Call.method : (call : Call) → Method call.Answer
  | .createUser request => Core.createUser request
  | .ensureUser login => Core.ensureUser login
  | .createOrganization request => Core.createOrganization request
  | .createAccount login password role hash => Core.createAccount login password role hash
  | .getAccount login => Core.getAccount login
  | .getRepository owner repo => Core.getRepository owner repo
  | .appendAuditAs actor action subject phase detail =>
    Core.appendAuditWith actor action subject phase detail
  | .grantRepoAccess actor login owner repo access =>
    Core.grantRepoAccess actor login owner repo access
  | .grantRepoAccessChecked actor login owner repo access =>
    Core.grantRepoAccessChecked actor login owner repo access
  | .revokeRepoAccess login owner repo => Core.revokeRepoAccess login owner repo
  | .revokeRepoAccessChecked actor login owner repo =>
    Core.revokeRepoAccessChecked actor login owner repo
  | .createRepository owner request => Core.createRepository owner request
  | .setRepositoryFamily owner repo family => Core.setRepositoryFamily owner repo family
  | .setRepositoryArchived actor owner repo archived =>
    Core.setRepositoryArchived actor owner repo archived
  | .setRepositoryDefaultBranch owner repo branch branches =>
    Core.setRepositoryDefaultBranch owner repo branch branches
  | .setDefaultBranchProtectionOptOut actor owner repo optOut =>
    Core.setDefaultBranchProtectionOptOut actor owner repo optOut
  | .recordRepositoryPush owner repo time => Core.recordRepositoryPush owner repo time
  | .backfillRepositoryPushedAt history => Core.backfillRepositoryPushedAt history
  | .deleteRepository owner repo => Core.deleteRepository owner repo
  | .createLabel owner repo request => Core.createLabel owner repo request
  | .setBranchProtection owner repo branch request =>
    Core.setBranchProtection owner repo branch request
  | .deleteBranchProtection actor owner repo branch =>
    Core.deleteBranchProtection actor owner repo branch
  | .rekeyEncodedBranchProtections actor branches =>
    Core.rekeyEncodedBranchProtections actor branches
  | .setCodeowners owner repo contents => Core.setCodeowners owner repo contents
  | .createIssue owner repo author request => Core.createIssue owner repo author request
  | .updateIssue owner repo number request => Core.updateIssue owner repo number request
  | .addIssueComment owner repo number author body =>
    Core.addIssueComment owner repo number author body
  | .createCommitStatus owner repo sha creator request =>
    Core.createCommitStatus owner repo sha creator request
  | .createCheckRun owner repo request => Core.createCheckRun owner repo request
  | .recordJankuraiScore owner repo request => Core.recordJankuraiScore owner repo request
  | .createWebhook owner repo request => Core.createWebhook owner repo request
  | .setRepositoryReadme owner repo markdown => Core.setRepositoryReadme owner repo markdown
  | .createDeployment owner repo creator request =>
    Core.createDeployment owner repo creator request
  | .prepareMergeOverride owner repo number request =>
    Core.prepareMergeOverride owner repo number request
  | .createPullRequest owner repo author request =>
    Core.createPullRequest owner repo author request
  | .updatePullRequest owner repo number request =>
    Core.updatePullRequest owner repo number request
  | .refreshPullRequestHeadsForRef owner repo refName headSha =>
    Core.refreshPullRequestHeadsForRef owner repo refName headSha
  | .refreshPullRequestHeadsForRefWithDiff owner repo refName headSha baseSha headPatchIds =>
    Core.refreshPullRequestHeadsForRefWithDiff owner repo refName headSha baseSha headPatchIds
  | .refreshPullRequestHeadsFromGit owner repo refName headSha baseSha patchIds reviewCommits =>
    Core.refreshPullRequestHeadsFromGit owner repo refName headSha baseSha patchIds reviewCommits
  | .retargetPullRequest actor owner repo number request branches =>
    Core.retargetPullRequest actor owner repo number request branches
  | .recordPullRequestBase actor owner repo number headSha baseSha =>
    Core.recordPullRequestBase actor owner repo number headSha baseSha
  | .evaluateMergeReadiness owner repo number requestedSha =>
    Core.evaluateMergeReadiness owner repo number requestedSha
  | .finalizeMerge owner repo number mergeSha requestedSha base =>
    Core.finalizeMerge owner repo number mergeSha requestedSha base
  | .finalizeMergeWithOverride _ permit mergeSha => Core.finalizeMergeWithOverride permit mergeSha
  | .mergePullRequest owner repo number sha => Core.mergePullRequest owner repo number sha
  | .createReview owner repo number author request =>
    Core.createReview owner repo number author request
  | .dismissReview owner repo number actor request =>
    Core.dismissReview owner repo number actor request
  | .renameRepository actor owner repo newOwner newName =>
    Core.renameRepository actor owner repo newOwner newName
  | .prepareRepositoryTransfer request => Core.prepareRepositoryTransfer request
  | .commitRepositoryTransfer transactionId receipt =>
    Core.commitRepositoryTransfer transactionId receipt
  | .failRepositoryTransfer transactionId reason => Core.failRepositoryTransfer transactionId reason

/-- What the clock, the environment, SQLite, the git backend and the account, team and bot
    methods may do between two sections. -/
structure Ambient (core core' : ForgeCore) : Prop where
  uuids : core.uuids ≤ core'.uuids
  storage : core'.storage.isSome = core.storage.isSome
  state : ∃ users accounts bots botRepoGrants organizations auth, core'.state =
    { core.state with users, accounts, bots, botRepoGrants, organizations, auth }

/-- A permit is moved into the one call that spends it, so two calls never carry the same. -/
def Admits (tasks : List (Task ForgeCore Call.Reply)) : Call → Prop
  | .finalizeMergeWithOverride ticket permit _ =>
    (∃ owner repo number request target, tasks[ticket]? =
      some ⟨.prepareMergeOverride owner repo number request, .done (.ok (target, permit))⟩) ∧
    ∀ task ∈ tasks, ∀ permit' mergeSha',
      task.call ≠ .finalizeMergeWithOverride ticket permit' mergeSha'
  | _ => True

def forge : System ForgeCore Call.Reply where
  program call := call.method.run
  ambient := Ambient
  admits := Admits

abbrev Pool : Type := Config ForgeCore Call.Reply

/-- An empty store, no call under way. -/
def Pool.Initial (pool : Pool) : Prop := pool.shared.state = .empty ∧ pool.tasks = []

/-- A condition on the sections that do more than their surroundings may do at any time: a
    receipt or a profile is written whatever the condition says. -/
def Guarded (condition : Call → ForgeCore → Prop) (call : Call) (update : ForgeCore → ForgeCore)
    (core : ForgeCore) : Prop := (∀ core, Ambient core (update core)) ∨ condition call core

/-- Reached from an empty store by sections that find the condition met. -/
def Pool.ReachableWhen (condition : Call → ForgeCore → Prop) (pool : Pool) : Prop :=
  ∃ start : Pool, start.Initial ∧ Run forge (Guarded condition) start pool

/-- No condition. -/
def anyCall (_ : Call) (_ : ForgeCore) : Prop := True

abbrev Pool.Reachable (pool : Pool) : Prop := pool.ReachableWhen anyCall

end Jeryu.Core
