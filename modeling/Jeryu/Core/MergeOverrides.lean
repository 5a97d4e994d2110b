import Jeryu.Core.Accounts

namespace Jeryu.Core

open KeyedMap Text

structure MergeOverrideRequest where
  actor : String
  reason : String
  expectedHeadSha : String
  assertedPassportHash : String

/-- Authorization bound to one pull request and the gate it was decided on. -/
structure MergeOverridePermit where
  owner : String
  repo : String
  number : Nat
  actor : String
  reason : String
  headSha : String
  baseSha : String
  passportHash : String
  expiresAt : Int
  statusEvidence : List CommitStatus
  evaluation : BranchProtectionEvaluation
  protection : BranchProtectionRule

def MergeOverridePermit.subject (permit : MergeOverridePermit) : String :=
  s!"{permit.owner}/{permit.repo}#{permit.number}"

structure MergeOverrideTarget where
  baseRef : String
  baseSha : String
  headRef : String
  headSha : String
  requireLinearHistory : Bool

/-- An active repository administrator, never a team bot. -/
def State.isHumanRepoAdmin (state : State) (actor owner repo : String) : Bool :=
  (parseTeamBotLogin actor).isNone &&
    (state.repoAccessForLocked actor owner repo).any RepoAccessLevel.allowsAdmin

/-- Approvals the gate would count, from reviewers other than the actor. -/
def State.independentApprovals (state : State) (pr : PullRequest) (protection : BranchProtectionRule)
    (actor : String) : List Review :=
  let reviews := (state.reviews.lookup (pr.owner, pr.repo, pr.number)).getD []
  (effectiveReviewsForPullRequestWith reviews pr (.forRule (some protection))).filter fun review =>
    review.state = .approved && !eqIgnoreAsciiCase review.author actor

def validateOverride (state : State) (pr : PullRequest) (actor : String) : Except ForgeError Unit :=
  if !state.isHumanRepoAdmin actor pr.owner pr.repo then
    .error (.forbidden "merge override requires an active repository administrator")
  else match (state.branchProtections.lookup (pr.owner, pr.repo, pr.base.refName)).filter
      fun rule => rule.allowMergeOverride with
    | none => .error (.forbidden "merge override requires explicit allow_merge_override=true")
    | some protection =>
      if protection.enforceAdmins then
        .error (.forbidden "merge override is unavailable while the branch enforces administrators")
      else if actor = pr.author then
        .error (.forbidden "a pull request author cannot authorize its override")
      else if protection.requiredApprovingReviewCount > 0 &&
          (state.independentApprovals pr protection actor).length <
            protection.requiredApprovingReviewCount then
        .error (.forbidden
          s!"merge override requires {protection.requiredApprovingReviewCount} approving review(s) from reviewers other than the deciding administrator")
      else if pr.draft || pr.state = .closed || pr.state = .merged || pr.merged then
        .error (.validation "merge override requires an open pull request ready for review")
      else .ok ()

/-- Whether a check run of that name at the head is unfinished. -/
def State.checkRunning (state : State) (pr : PullRequest) (context : String) : Bool :=
  ((state.checkRuns.lookup (pr.owner, pr.repo)).getD []).any fun run =>
    run.headSha == pr.head.sha && run.name == context && run.status != .completed

def State.currentStatus (state : State) (pr : PullRequest) (context : String) : Option CommitStatus :=
  currentStatusForBase ((state.statuses.lookup (pr.owner, pr.repo, pr.head.sha)).getD []) context
    pr.base.refName

/-- The failing row that lets an override clear the blocker. -/
def overrideEvidence (state : State) (pr : PullRequest) (actor : String)
    (protection : BranchProtectionRule) (blocker : MergeBlocker) : Except ForgeError CommitStatus :=
  match blocker with
  | .failedStatusCheck context =>
    match state.currentStatus pr context with
    | some status =>
      if protection.mergeOverrideStatusChecks.contains context && !state.checkRunning pr context &&
          protection.mergeOverrideStatusCreators.contains status.creator &&
          (status.state = .failure || status.state = .error) then
        if eqIgnoreAsciiCase status.creator actor then
          .error (.forbidden "merge override evidence cannot come from the deciding administrator")
        else .ok status
      else .error (.notOverridable blocker)
    | none => .error (.notOverridable blocker)
  | _ => .error (.notOverridable blocker)

def collectEvidence (state : State) (pr : PullRequest) (actor : String)
    (protection : BranchProtectionRule) : List MergeBlocker → Except ForgeError (List CommitStatus)
  | [] => .ok []
  | blocker :: rest =>
    match overrideEvidence state pr actor protection blocker with
    | .error error => .error error
    | .ok status =>
      match collectEvidence state pr actor protection rest with
      | .error error => .error error
      | .ok evidence => .ok (status :: evidence)

def validateOverrideEvaluation (state : State) (pr : PullRequest) (actor : String)
    (protection : BranchProtectionRule) (evaluation : BranchProtectionEvaluation) :
    Except ForgeError (List CommitStatus) :=
  collectEvidence state pr actor protection evaluation.blockers

def passportHashWellFormed (hash : String) : Bool :=
  match stripPrefix hash "passport:" with
  | some digest => len digest == 64 && all digest isLowercaseHexdigit
  | none => false

def preparePermit (owner repo : String) (number : Nat) (request : MergeOverrideRequest)
    (core : ForgeCore) : Except ForgeError (MergeOverrideTarget × MergeOverridePermit) :=
  match core.state.pulls.lookup (owner, repo, number) with
  | none => .error (.notFound s!"pull request {owner}/{repo}#{number}")
  | some pr =>
    match validateOverride core.state pr request.actor with
    | .error error => .error error
    | .ok () =>
      if request.expectedHeadSha ≠ pr.head.sha then
        .error (.conflict "merge override head changed; refresh before deciding")
      else match core.state.branchProtections.lookup (owner, repo, pr.base.refName) with
        | none => .error (.conflict "override protection disappeared")
        | some protection =>
          let evaluation := core.state.evaluateLocked core.auditMergeEnforced pr (some pr.head.sha)
          match validateOverrideEvaluation core.state pr request.actor protection evaluation with
          | .error error => .error error
          | .ok statusEvidence =>
            .ok ({ baseRef := pr.base.refName, baseSha := pr.base.sha, headRef := pr.head.refName
                   headSha := pr.head.sha, requireLinearHistory := protection.requiredLinearHistory },
              { owner, repo, number, actor := request.actor, reason := trim request.reason
                headSha := pr.head.sha, baseSha := pr.base.sha
                passportHash := request.assertedPassportHash
                expiresAt := DateTime.timestamp core.now + 600
                statusEvidence, evaluation, protection })

def requireStorage (message : String) : Method Unit :=
  .reading fun core => if core.storage.isNone then .error (.validation message) else .ok ()

def MergeOverridePermit.auditDetail (permit : MergeOverridePermit) (mergeSha : Option String) :
    AuditDetail :=
  .mergeOverride permit.number permit.reason permit.headSha permit.passportHash
    permit.evaluation.blockers permit.statusEvidence mergeSha

def mergeOverrideAction : String := "pull.merge_override"

def prepareMergeOverrideInner (owner repo : String) (number : Nat) (request : MergeOverrideRequest) :
    Method (MergeOverrideTarget × MergeOverridePermit) := do
  ensureRepositoryWritable owner repo
  requireStorage "merge override requires durable audit storage"
  if isBlank request.reason || !passportHashWellFormed request.assertedPassportHash then
    throw (.error (.validation "merge override requires a reason and caller passport assertion"))
  let (target, permit) ← Method.reading (preparePermit owner repo number request)
  appendAuditWith permit.actor mergeOverrideAction permit.subject .requested
    (permit.auditDetail none)
  return (target, permit)

/-- Who a refused attempt is recorded for. -/
def refusedActor (actor : String) : String := if isBlank actor then "unknown" else actor

def prepareMergeOverride (owner repo : String) (number : Nat) (request : MergeOverrideRequest) :
    Method (MergeOverrideTarget × MergeOverridePermit) :=
  (prepareMergeOverrideInner owner repo number request).inspect fun
    | .ok _ => return ()
    | .error _ =>
      (appendAuditAs (refusedActor request.actor) mergeOverrideAction s!"{owner}/{repo}#{number}"
        .failed).ignored

end Jeryu.Core
