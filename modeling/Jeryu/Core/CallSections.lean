import Jeryu.Core.Writes

namespace Jeryu.Core

open KeyedMap LockProgram Method

/-- The state one settled outcome leaves, and its answer. -/
def Outcome.leaves {α : Type} (outcome : Outcome α) (core : ForgeCore) : ForgeCore :=
  (outcome.settle core).2

def Outcome.answers {α : Type} (outcome : Outcome α) (core : ForgeCore) : Except Failure α :=
  (outcome.settle core).1

/-- The receipts a call appends in a section of its own, by action and phase. -/
inductive Call.Audited : Call → String → AuditPhase → Prop where
  | appendAuditAs {actor action subject phase detail} :
      Audited (.appendAuditAs actor action subject phase detail) action phase
  | setRepositoryArchived {actor owner repo archived phase} :
      Audited (.setRepositoryArchived actor owner repo archived) "repository.archived" phase
  | setDefaultBranchProtectionOptOut {actor owner repo optOut phase} :
      Audited (.setDefaultBranchProtectionOptOut actor owner repo optOut)
        "repository.default_branch_protection_opt_out" phase
  | deleteBranchProtection {actor owner repo branch phase} :
      Audited (.deleteBranchProtection actor owner repo branch) "branch_protection.deleted" phase
  | rekeyEncodedBranchProtections {actor branches phase} :
      Audited (.rekeyEncodedBranchProtections actor branches) "branch_protection.encoded_rekey" phase
  | requestedOverride {owner repo number request} :
      Audited (.prepareMergeOverride owner repo number request) mergeOverrideAction .requested
  | refusedOverride {owner repo number request} :
      Audited (.prepareMergeOverride owner repo number request) mergeOverrideAction .failed
  | recordPullRequestBase {actor owner repo number headSha baseSha phase} :
      Audited (.recordPullRequestBase actor owner repo number headSha baseSha)
        "pull_request.base_recorded" phase
  | finalizeMergeWithOverride {ticket permit mergeSha} :
      Audited (.finalizeMergeWithOverride ticket permit mergeSha) mergeOverrideAction .failed
  | createReview {owner repo number author request phase} :
      Audited (.createReview owner repo number author request) dismissalAuditAction phase
  | dismissReview {owner repo number actor request phase} :
      Audited (.dismissReview owner repo number actor request) dismissalAuditAction phase
  | renameRepository {actor owner repo newOwner newName phase} :
      Audited (.renameRepository actor owner repo newOwner newName) "repository.renamed" phase

/-- The calls that write a missing profile in a section of its own. -/
inductive Call.Profiled : Call → Prop where
  | createIssue {owner repo author request} : Profiled (.createIssue owner repo author request)
  | addIssueComment {owner repo number author body} :
      Profiled (.addIssueComment owner repo number author body)
  | createCommitStatus {owner repo sha creator request} :
      Profiled (.createCommitStatus owner repo sha creator request)
  | createPullRequest {owner repo author request} :
      Profiled (.createPullRequest owner repo author request)

/-- The sections of each call under the write lock, with the answer of the call where the
    section is its last. -/
inductive Section : (call : Call) → ForgeCore → ForgeCore → Option call.Reply → Prop where
  | audit {call core reply} (entry : AuditEntry) (audited : call.Audited entry.action entry.phase) :
      Section call core (core.logged [entry]) reply
  | refused {call core reply action phase} (audited : call.Audited action phase) :
      Section call core core reply
  | profile {call core reply} (profiled : call.Profiled) (request : CreateUserRequest)
      (unfinished : ∀ value, reply ≠ some (.ok value)) :
      Section call core ((createUserLocked request core).leaves core) reply
  | createUser {request core reply} :
      Section (.createUser request) core ((createUserLocked request core).leaves core) reply
  | ensureUser {login core reply} (request : CreateUserRequest) :
      Section (.ensureUser login) core ((createUserLocked request core).leaves core) reply
  | createOrganization {request core reply} :
      Section (.createOrganization request) core
        ((createOrganizationLocked request core).leaves core) reply
  | createAccount {login password role hash core reply} :
      Section (.createAccount login password role hash) core
        ((createAccountLocked login role hash core).leaves core) reply
  | grantRepoAccess {actor login owner repo access core reply} :
      Section (.grantRepoAccess actor login owner repo access) core
        ((grantRepoAccessLocked actor login owner repo access core).leaves core) reply
  | grantRepoAccessChecked {actor login owner repo access core reply} :
      Section (.grantRepoAccessChecked actor login owner repo access) core
        ((grantRepoAccessLocked actor login owner repo access core).leaves core) reply
  | revokeRepoAccess {login owner repo core reply} :
      Section (.revokeRepoAccess login owner repo) core
        ((revokeRepoAccessLocked login owner repo core).leaves core) reply
  | revokeRepoAccessChecked {actor login owner repo core reply} :
      Section (.revokeRepoAccessChecked actor login owner repo) core
        ((revokeRepoAccessLocked login owner repo core).leaves core) reply
  | createRepository {owner request core reply} :
      Section (.createRepository owner request) core
        ((createRepositoryLocked owner request core).leaves core) reply
  | setRepositoryFamily {owner repo family core reply} (trimmed : Option String) :
      Section (.setRepositoryFamily owner repo family) core
        ((setFamilyLocked owner repo trimmed core).leaves core) reply
  | setRepositoryArchived {actor owner repo archived core reply} :
      Section (.setRepositoryArchived actor owner repo archived) core
        ((writeRepositoryArchived owner repo archived core).leaves core) reply
  | setRepositoryDefaultBranch {owner repo branch branches core reply} (slug : Slug) :
      Section (.setRepositoryDefaultBranch owner repo branch branches) core
        ((setDefaultBranchLocked slug.1 slug.2 branch core).leaves core) reply
  | setDefaultBranchProtectionOptOut {actor owner repo optOut core reply} :
      Section (.setDefaultBranchProtectionOptOut actor owner repo optOut) core
        ((setOptOutLocked owner repo optOut core).leaves core) reply
  | recordRepositoryPush {owner repo time core reply} :
      Section (.recordRepositoryPush owner repo time) core
        ((recordPushLocked owner repo time core).leaves core) reply
  | backfillRepositoryPushedAt {history core reply} (found : List (Slug × DateTime)) :
      Section (.backfillRepositoryPushedAt history) core ((backfillLocked found core).leaves core)
        reply
  | deleteRepository {owner repo core reply} :
      Section (.deleteRepository owner repo) core ((deleteRepositoryLocked owner repo core).leaves core)
        reply
  | createLabel {owner repo request core reply} :
      Section (.createLabel owner repo request) core
        ((createLabelLocked owner repo request core).leaves core) reply
  | setBranchProtection {owner repo branch request core reply} (now : DateTime) :
      Section (.setBranchProtection owner repo branch request) core
        ((setProtectionLocked (request.rule owner repo branch now) core).leaves core) reply
  | deleteBranchProtection {actor owner repo branch core reply} (slug : Slug) :
      Section (.deleteBranchProtection actor owner repo branch) core
        ((deleteProtectionLocked slug.1 slug.2 branch core).leaves core) reply
  | rekeyEncodedBranchProtections {actor branches core reply} (plan : List PlannedRekey)
      (spelled : ∀ step ∈ plan, step.Spells) :
      Section (.rekeyEncodedBranchProtections actor branches) core
        ((rekeyEncodedLocked plan core).leaves core) reply
  | setCodeowners {owner repo contents core reply} :
      Section (.setCodeowners owner repo contents) core
        ((setCodeownersLocked owner repo contents core).leaves core) reply
  | createIssue {owner repo author request core} :
      Section (.createIssue owner repo author request) core
        ((createIssueLocked owner repo author request core).leaves core)
        (some ((createIssueLocked owner repo author request core).answers core))
  | updateIssue {owner repo number request core reply} :
      Section (.updateIssue owner repo number request) core
        ((updateIssueLocked owner repo number request core).leaves core) reply
  | addIssueComment {owner repo number author body core reply} :
      Section (.addIssueComment owner repo number author body) core
        ((addIssueCommentLocked owner repo number author body core).leaves core) reply
  | createCommitStatus {owner repo sha creator request core reply} (base : Option String)
      (now : DateTime) :
      Section (.createCommitStatus owner repo sha creator request) core
        ((createStatusLocked owner repo sha creator request base now core).leaves core) reply
  | createCheckRun {owner repo request core reply} :
      Section (.createCheckRun owner repo request) core
        ((createCheckRunLocked owner repo request core).leaves core) reply
  | recordJankuraiScore {owner repo request core reply} (record : Uuid → JankuraiScore)
      (scope : ∀ id, (record id).owner = owner ∧ (record id).repo = repo) :
      Section (.recordJankuraiScore owner repo request) core
        ((recordScoreLocked record core).leaves core) reply
  | createWebhook {owner repo request core reply} (now : DateTime) :
      Section (.createWebhook owner repo request) core
        ((createWebhookLocked owner repo request now core).leaves core) reply
  | setRepositoryReadme {owner repo markdown core reply} :
      Section (.setRepositoryReadme owner repo markdown) core
        ((setReadmeLocked owner repo markdown core).leaves core) reply
  | createDeployment {owner repo creator request core reply} (refName : String) (payload : Value)
      (production : Bool) :
      Section (.createDeployment owner repo creator request) core
        ((createDeploymentLocked owner repo creator refName payload production request core).leaves
          core) reply
  | createPullRequest {owner repo author request core} :
      Section (.createPullRequest owner repo author request) core
        ((createPullLocked owner repo author request core).leaves core)
        (some ((createPullLocked owner repo author request core).answers core))
  | updatePullRequest {owner repo number request core} :
      Section (.updatePullRequest owner repo number request) core
        ((updatePullLocked owner repo number request core).leaves core)
        (some ((updatePullLocked owner repo number request core).answers core))
  | refreshForRef {owner repo refName headSha core reply} :
      Section (.refreshPullRequestHeadsForRef owner repo refName headSha) core
        ((refreshHeadsLocked owner repo refName headSha
          { baseSha := "", patchIds := [], commits := none } core).leaves core) reply
  | refreshForRefWithDiff {owner repo refName headSha baseSha headPatchIds core reply} :
      Section (.refreshPullRequestHeadsForRefWithDiff owner repo refName headSha baseSha headPatchIds)
        core ((refreshHeadsLocked owner repo refName headSha
          { baseSha, patchIds := [], commits := none } core).leaves core) reply
  | refreshFromGit {owner repo refName headSha baseSha patchIds reviewCommits core reply ids commits}
      (id : Slug) (named : repoId owner repo = .ok id) (answered : patchIds = .ok ids)
      (valid : validatePatchIds ids = .ok ()) (covered : reviewCommits = .ok commits) :
      Section (.refreshPullRequestHeadsFromGit owner repo refName headSha baseSha patchIds
        reviewCommits) core
        ((refreshHeadsLocked id.1 id.2 refName headSha
          { baseSha, patchIds := ids, commits := some commits } core).leaves core) reply
  | retargetPullRequest {actor owner repo number request branches core} :
      Section (.retargetPullRequest actor owner repo number request branches) core
        ((retargetLocked actor owner repo number (normalizeBaseRef request.base) request core).leaves
          core)
        (some ((retargetLocked actor owner repo number (normalizeBaseRef request.base) request
          core).answers core))
  | recordPullRequestBase {actor owner repo number headSha baseSha core reply} :
      Section (.recordPullRequestBase actor owner repo number headSha baseSha) core
        ((recordBaseLocked owner repo number headSha baseSha core).leaves core) reply
  | finalizeMerge {owner repo number mergeSha requestedSha base core} :
      Section (.finalizeMerge owner repo number mergeSha requestedSha base) core
        ((finalizeLocked owner repo number { mergeSha, requestedSha, base } none core).leaves core)
        (some ((finalizeLocked owner repo number { mergeSha, requestedSha, base } none core).answers
          core))
  | finalizeMergeWithOverride {ticket permit mergeSha core reply} :
      Section (.finalizeMergeWithOverride ticket permit mergeSha) core
        ((finalizeLocked permit.owner permit.repo permit.number (permit.binding mergeSha)
          (some permit) core).leaves core) reply
  | mergePullRequest {owner repo number sha core} (mergeSha : String) (base : MergeBase) :
      Section (.mergePullRequest owner repo number sha) core
        ((finalizeLocked owner repo number { mergeSha, requestedSha := sha, base } none core).leaves
          core)
        (some ((finalizeLocked owner repo number { mergeSha, requestedSha := sha, base } none
          core).answers core))
  | createReview {owner repo number author request core reply} (verdict : request.event ≠ .dismissed) :
      Section (.createReview owner repo number author request) core
        ((recordReviewLocked owner repo number author request none core).leaves core) reply
  | dismissReview {owner repo number actor request core reply} :
      Section (.dismissReview owner repo number actor request) core
        ((recordReviewLocked owner repo number actor
          { body := some request.reason, event := .dismissed, comments := []
            expectedHeadSha := some request.expectedHeadSha } (some request.reviewId) core).leaves core)
        reply
  | renameRepository {actor owner repo newOwner newName core reply} :
      Section (.renameRepository actor owner repo newOwner newName) core
        ((writeRenameLocked (owner, repo) (newOwner, newName) core).leaves core) reply
  | prepareRepositoryTransfer {request core reply} :
      Section (.prepareRepositoryTransfer request) core
        ((prepareTransferLocked request core).leaves core) reply
  | commitRepositoryTransfer {transactionId receipt core} :
      Section (.commitRepositoryTransfer transactionId receipt) core
        ((commitTransferLocked transactionId receipt core).leaves core)
        (some ((commitTransferLocked transactionId receipt core).answers core))
  | failRepositoryTransfer {transactionId reason core} :
      Section (.failRepositoryTransfer transactionId reason) core
        ((failTransferLocked transactionId reason core).leaves core)
        (some ((failTransferLocked transactionId reason core).answers core))

section Parts

variable {call : Call}

theorem auditReceipt_ok {core : ForgeCore} {actor action subject : String} {phase : AuditPhase}
    {detail : AuditDetail} {entry : AuditEntry}
    (receipt : core.auditReceipt actor action subject phase detail = .ok entry) :
    entry = { occurredAt := core.now, actor, action, subject, phase, detail } := by
  unfold ForgeCore.auditReceipt at receipt
  split at receipt
  · cases receipt
  · split at receipt
    · cases receipt
    · dsimp only at receipt
      split at receipt
      · exact (Except.ok.inj receipt).symm
      · split at receipt
        · exact (Except.ok.inj receipt).symm
        · cases receipt

theorem appendAuditWith_writes {action : String} {phase : AuditPhase}
    (audited : call.Audited action phase) (actor subject : String) (detail : AuditDetail) :
    (appendAuditWith actor action subject phase detail).Writes
      fun core core' _ => ∀ reply, Section call core core' reply := by
  refine writes_locked fun core reply => ?_
  cases receipt : core.auditReceipt actor action subject phase detail with
  | ok entry =>
    cases auditReceipt_ok receipt
    exact .audit _ audited
  | error _ => exact .refused audited

theorem appendAuditAs_writes {action : String} {phase : AuditPhase}
    (audited : call.Audited action phase) (actor subject : String) :
    (appendAuditAs actor action subject phase).Writes
      fun core core' _ => ∀ reply, Section call core core' reply :=
  appendAuditWith_writes audited actor subject _

theorem createUser_profile (profiled : call.Profiled) (request : CreateUserRequest) :
    (createUser request).Writes fun core core' _ =>
      ∀ reply, (∀ value, reply ≠ some (.ok value)) → Section call core core' reply := by
  unfold createUser
  refine (writes_ofExcept _).bind fun _ => writes_locked fun core reply unfinished => ?_
  exact .profile profiled request unfinished

theorem ensureUser_profile (profiled : call.Profiled) (login : String) :
    (ensureUser login).Writes fun core core' _ =>
      ∀ reply, (∀ value, reply ≠ some (.ok value)) → Section call core core' reply := by
  unfold ensureUser
  refine (writes_reading _).bind fun found => ?_
  cases found with
  | some user => exact writes_pure user
  | none => exact (createUser_profile profiled _).expect

theorem finalizeMergeChecked_writes {owner repo : String} {number : Nat} {binding : FinalizeBinding}
    {permit : Option MergeOverridePermit}
    {R : ForgeCore → ForgeCore → Option (Except Failure MergeResult) → Prop}
    (recorded : ∀ core, R core ((finalizeLocked owner repo number binding permit core).leaves core)
      (some ((finalizeLocked owner repo number binding permit core).answers core))) :
    (finalizeMergeChecked owner repo number binding permit).Writes R := by
  unfold finalizeMergeChecked
  exact (ensureRepositoryWritable_readOnly owner repo).bind fun _ => writes_locked recorded

theorem refreshIdentity_writes {owner repo refName headSha : String} {evidence : HeadEvidence}
    {R : ForgeCore → ForgeCore → Option (Except Failure (List PullRequest)) → Prop}
    (moved : ∀ core reply,
      R core ((refreshHeadsLocked owner repo refName headSha evidence core).leaves core) reply) :
    (refreshPullRequestHeadsWithIdentity owner repo refName headSha evidence).Writes R := by
  unfold refreshPullRequestHeadsWithIdentity
  exact (ensureRepoExists_readOnly owner repo).bind fun _ => writes_locked fun core => moved core _

theorem auditRekeys_writes (audited : call.Audited "branch_protection.encoded_rekey" .completed)
    (actor : String) (changes : List (Scoped String)) :
    (auditRekeys actor changes).Writes fun core core' _ => ∀ reply, Section call core core' reply := by
  induction changes with
  | nil => exact writes_pure _
  | cons key rest ih =>
    unfold auditRekeys
    exact (appendAuditAs_writes audited _ _).keep.bind fun _ => ih

theorem recordReview_writes (audited : call.Audited dismissalAuditAction .completed) {owner repo author : String} {number : Nat}
    {request : CreateReviewRequest} {dismissedReviewId : Option Uuid}
    (recorded : ∀ core reply, Section call core
      ((recordReviewLocked owner repo number author request dismissedReviewId core).leaves core) reply) :
    (recordReview owner repo number author request dismissedReviewId).Writes
      fun core core' _ => ∀ reply, Section call core core' reply := by
  unfold recordReview
  refine (ensureRepositoryWritable_readOnly owner repo).bind fun _ => ?_
  refine (writes_ofExcept _).bind fun _ => ?_
  refine Writes.bind (writes_locked fun core _ reply => recorded core reply) fun written => ?_
  have closed := appendAuditWith_writes audited author s!"{owner}/{repo}#{number}"
    written.1.auditDetail
  exact writes_ite (closed.ignored.keep.bind fun _ => writes_pure _) (writes_pure _)

end Parts

section Methods

variable {actor owner repo branch author : String} {number : Nat}

theorem appendAuditAs_last (actor action subject : String) (phase : AuditPhase) (detail : AuditDetail) :
    (appendAuditWith actor action subject phase detail).Writes
      (Section (.appendAuditAs actor action subject phase detail)) :=
  Writes.mono (appendAuditWith_writes .appendAuditAs actor subject detail)
    fun _ _ _ moved => moved _

theorem setRepositoryArchived_writes {archived : Bool} :
    (setRepositoryArchived actor owner repo archived).Writes
      (Section (.setRepositoryArchived actor owner repo archived)) := by
  unfold setRepositoryArchived
  refine (canonicalRepository_readOnly owner repo).bind fun current => ?_
  refine writes_ite (writes_pure _) ?_
  refine (appendAuditAs_writes .setRepositoryArchived ..).bind fun _ => Writes.inspect ?_ fun _ => ?_
  · exact writes_locked fun _ _ => .setRepositoryArchived
  · exact appendAuditAs_writes .setRepositoryArchived ..

theorem setRepositoryDefaultBranch_writes {branches : RepoBranches} :
    (setRepositoryDefaultBranch owner repo branch branches).Writes
      (Section (.setRepositoryDefaultBranch owner repo branch branches)) := by
  unfold setRepositoryDefaultBranch
  refine (writes_ofExcept _).bind fun _ => writes_unless ?_
  refine (canonicalRepository_readOnly owner repo).bind fun current => ?_
  refine (writes_ofExcept _).bind fun branchFound => writes_unless ?_
  refine (writes_ofExcept _).bind fun headBranch => ?_
  have write : (if current.defaultBranch = branch then pure current
      else Method.locked (setDefaultBranchLocked current.owner current.name branch)).Writes
      (Section (.setRepositoryDefaultBranch owner repo branch branches)) :=
    writes_ite (writes_pure _)
      (writes_locked fun _ => .setRepositoryDefaultBranch (current.owner, current.name))
  exact writes_ite ((writes_ofExcept _).bind fun _ => write) write

theorem setDefaultBranchProtectionOptOut_writes {optOut : Bool} :
    (setDefaultBranchProtectionOptOut actor owner repo optOut).Writes
      (Section (.setDefaultBranchProtectionOptOut actor owner repo optOut)) := by
  unfold setDefaultBranchProtectionOptOut
  refine (canonicalRepository_readOnly owner repo).bind fun _ => ?_
  refine (requireGlobalAdmin_readOnly actor).bind fun _ => ?_
  refine (writes_locked fun _ _ => .setDefaultBranchProtectionOptOut).bind fun found => ?_
  cases found with
  | requiresContext => exact (appendAuditAs_writes .setDefaultBranchProtectionOptOut ..).bind fun _ => writes_throw _
  | already entry => exact writes_pure entry
  | changed updated => exact (appendAuditAs_writes .setDefaultBranchProtectionOptOut ..).bind fun _ => writes_pure _

theorem deleteBranchProtection_writes :
    (deleteBranchProtection actor owner repo branch).Writes
      (Section (.deleteBranchProtection actor owner repo branch)) := by
  unfold deleteBranchProtection
  refine (canonicalRepository_readOnly owner repo).bind fun current => ?_
  refine (ensureRepositoryWritable_readOnly current.owner current.name).bind fun _ => ?_
  refine (writes_locked fun _ _ => .deleteBranchProtection (current.owner, current.name)).bind
    fun found => ?_
  cases found with
  | mandatory => exact (appendAuditAs_writes .deleteBranchProtection ..).bind fun _ => writes_throw _
  | removed rule => exact (appendAuditAs_writes .deleteBranchProtection ..).bind fun _ => writes_pure _

theorem rekeyEncodedBranchProtections_writes {branches : RepoBranches} :
    (rekeyEncodedBranchProtections actor branches).Writes
      (Section (.rekeyEncodedBranchProtections actor branches)) := by
  unfold rekeyEncodedBranchProtections
  refine (requireGlobalAdmin_readOnly actor).bind fun _ => ?_
  refine writes_reading_bind fun core encoded found => writes_ofExcept_bind fun plan planned => ?_
  refine writes_ite (writes_pure _) ?_
  have spelled : ∀ step ∈ plan, step.Spells := planRekeys_spells planned fun entry member => by
    cases found
    exact (List.mem_filter.mp member).2
  refine (writes_locked fun _ _ => .rekeyEncodedBranchProtections plan spelled).bind fun found => ?_
  exact (auditRekeys_writes .rekeyEncodedBranchProtections ..).bind fun _ => writes_pure _

theorem setRepositoryFamily_writes {family : Option String} :
    (setRepositoryFamily owner repo family).Writes
      (Section (.setRepositoryFamily owner repo family)) := by
  unfold setRepositoryFamily
  have write (trimmed : Option String) : (Method.locked (setFamilyLocked owner repo trimmed)).Writes
      (Section (.setRepositoryFamily owner repo family)) :=
    writes_locked fun _ => .setRepositoryFamily trimmed
  cases family with
  | some value =>
    exact writes_ite ((writes_throw _).bind write) ((writes_pure _).bind write)
  | none => exact (writes_pure _).bind write

theorem recordJankuraiScore_writes {request : RecordJankuraiScoreRequest} :
    (recordJankuraiScore owner repo request).Writes
      (Section (.recordJankuraiScore owner repo request)) := by
  unfold recordJankuraiScore
  refine (writes_ofExcept _).bind fun _ => (writes_ofExcept _).bind fun _ => ?_
  refine (writes_ofExcept _).bind fun _ => ?_
  have write (record : DateTime → Uuid → JankuraiScore)
      (scope : ∀ now id, (record now id).owner = owner ∧ (record now id).repo = repo) :
      (ensureRepoExists owner repo >>= fun _ => utcNow >>= fun now =>
        Method.locked (recordScoreLocked (record now))).Writes
        (Section (.recordJankuraiScore owner repo request)) :=
    (ensureRepoExists_readOnly owner repo).bind fun _ => utcNow_readOnly.bind fun now =>
      writes_locked fun _ => .recordJankuraiScore (record now) (scope now)
  cases request.score with
  | some score => exact writes_unless (write _ fun _ _ => ⟨rfl, rfl⟩)
  | none => exact write _ fun _ _ => ⟨rfl, rfl⟩

theorem createDeployment_writes {creator : String} {request : CreateDeploymentRequest} :
    (createDeployment owner repo creator request).Writes
      (Section (.createDeployment owner repo creator request)) := by
  unfold createDeployment
  refine (writes_ofExcept _).bind fun _ => (writes_ofExcept _).bind fun _ => ?_
  refine (writes_ofExcept _).bind fun _ => ?_
  cases request.refName with
  | some value =>
    refine (writes_ofExcept _).bind fun _ => (writes_pure _).bind fun _ => ?_
    exact writes_locked fun _ => .createDeployment ..
  | none => exact (writes_pure _).bind fun _ => writes_locked fun _ => .createDeployment ..

theorem retargetPullRequest_writes {request : RetargetPullRequestRequest} {branches : RepoBranches} :
    (retargetPullRequest actor owner repo number request branches).Writes
      (Section (.retargetPullRequest actor owner repo number request branches)) := by
  unfold retargetPullRequest
  refine (writes_ofExcept _).bind fun _ => (writes_ofExcept _).bind fun _ => ?_
  refine writes_unless (writes_unless (writes_unless ?_))
  refine (ensureRepositoryWritable_readOnly owner repo).bind fun _ => ?_
  refine (writes_ofExcept _).bind fun branchFound => writes_unless ?_
  exact writes_locked fun _ => .retargetPullRequest

theorem recordPullRequestBase_writes {headSha baseSha : String} :
    (recordPullRequestBase actor owner repo number headSha baseSha).Writes
      (Section (.recordPullRequestBase actor owner repo number headSha baseSha)) := by
  unfold recordPullRequestBase
  refine (writes_ofExcept _).bind fun _ => writes_unless ?_
  refine (ensureRepoExists_readOnly owner repo).bind fun _ => ?_
  refine (ensureRepositoryWritable_readOnly owner repo).bind fun _ => ?_
  refine (writes_locked fun _ _ => .recordPullRequestBase).bind fun found => ?_
  exact writes_ite ((appendAuditAs_writes .recordPullRequestBase ..).bind fun _ => writes_pure _)
    (writes_pure _)

theorem refreshFromGit_writes {refName headSha baseSha : String}
    {patchIds : Except String (List String)}
    {reviewCommits : Except String (List PullRequestCommit)} :
    (refreshPullRequestHeadsFromGit owner repo refName headSha baseSha patchIds reviewCommits).Writes
      (Section (.refreshPullRequestHeadsFromGit owner repo refName headSha baseSha patchIds
        reviewCommits)) := by
  unfold refreshPullRequestHeadsFromGit
  refine (writes_ofExcept _).bind fun _ => writes_ofExcept_bind fun id named => ?_
  refine writes_ofExcept_bind fun ids answered => writes_ofExcept_bind fun _ valid => ?_
  refine writes_ofExcept_bind fun commits covered => refreshIdentity_writes fun _ _ => ?_
  exact .refreshFromGit id named (mapError_eq_ok.mp answered) valid (mapError_eq_ok.mp covered)

theorem prepareMergeOverride_writes {request : MergeOverrideRequest} :
    (prepareMergeOverride owner repo number request).Writes
      (Section (.prepareMergeOverride owner repo number request)) := by
  unfold prepareMergeOverride
  refine Writes.inspect ?_ fun result => ?_
  · unfold prepareMergeOverrideInner
    refine (ensureRepositoryWritable_readOnly owner repo).bind fun _ => ?_
    refine (requireStorage_readOnly _).bind fun _ => writes_unless ?_
    refine (writes_reading _).bind fun prepared => ?_
    exact (appendAuditWith_writes .requestedOverride ..).keep.bind fun _ => writes_pure _
  · cases result with
    | ok _ => exact writes_pure _
    | error _ => exact (appendAuditAs_writes .refusedOverride ..).ignored

theorem finalizeMergeWithOverride_writes {ticket : Nat} {permit : MergeOverridePermit}
    {mergeSha : String} :
    (finalizeMergeWithOverride permit mergeSha).Writes
      (Section (.finalizeMergeWithOverride ticket permit mergeSha)) := by
  unfold finalizeMergeWithOverride
  refine Writes.inspect ?_ fun result => ?_
  · exact finalizeMergeChecked_writes fun _ _ => .finalizeMergeWithOverride
  · cases result with
    | ok _ => exact writes_pure _
    | error _ =>
      exact (appendAuditAs_writes .finalizeMergeWithOverride ..).orIgnored (appendAuditAs_writes .finalizeMergeWithOverride ..)

theorem mergePullRequest_writes {sha : Option String} :
    (mergePullRequest owner repo number sha).Writes
      (Section (.mergePullRequest owner repo number sha)) := by
  unfold mergePullRequest
  refine (ensureRepositoryWritable_readOnly owner repo).bind fun _ => ?_
  refine (writes_reading _).bind fun readiness => ?_
  cases readiness with
  | alreadyMerged sha => exact writes_pure _
  | ready baseRef baseSha headRef headSha linear =>
    exact finalizeMergeChecked_writes fun _ => .mergePullRequest _ _

theorem createReview_writes {request : CreateReviewRequest} :
    (createReview owner repo number author request).Writes
      (Section (.createReview owner repo number author request)) := by
  unfold createReview
  by_cases dismissal : request.event = .dismissed
  · rw [if_pos dismissal]
    exact writes_throw _
  · rw [if_neg dismissal]
    exact (recordReview_writes .createReview fun _ _ => .createReview dismissal).mono
      fun _ _ _ moved => moved _

theorem updatePullRequest_writes {request : UpdatePullRequestRequest} :
    (updatePullRequest owner repo number request).Writes
      (Section (.updatePullRequest owner repo number request)) := by
  unfold updatePullRequest
  refine (ensureRepositoryWritable_readOnly owner repo).bind fun _ => ?_
  cases request.title with
  | some title => exact (writes_ofExcept _).bind fun _ => writes_locked fun _ => .updatePullRequest
  | none => exact writes_locked fun _ => .updatePullRequest

theorem dismissReview_writes {request : DismissReviewRequest} :
    (dismissReview owner repo number actor request).Writes
      (Section (.dismissReview owner repo number actor request)) := by
  unfold dismissReview
  refine writes_unless (writes_unless (Writes.inspect ?_ fun result => ?_))
  · exact recordReview_writes .dismissReview fun _ _ => .dismissReview
  · cases result with
    | ok _ => exact writes_pure _
    | error _ =>
      refine (writes_reading _).bind fun targetAuthor => ?_
      exact writes_ite (appendAuditAs_writes .dismissReview ..).ignored (writes_pure _)

theorem renameRepository_writes {newOwner newName : String} :
    (renameRepository actor owner repo newOwner newName).Writes
      (Section (.renameRepository actor owner repo newOwner newName)) := by
  unfold renameRepository
  refine (canonicalRepository_readOnly owner repo).bind fun _ => ?_
  refine (appendAuditAs_writes .renameRepository ..).bind fun _ => Writes.inspect ?_ fun _ => ?_
  · refine (writes_ofExcept _).bind fun _ => (writes_ofExcept _).bind fun _ => ?_
    exact writes_locked fun _ _ => .renameRepository
  · exact appendAuditAs_writes .renameRepository ..

theorem createUser_writes {request : CreateUserRequest} :
    (Core.createUser request).Writes (Section (.createUser request)) := by
  unfold Core.createUser
  exact (writes_ofExcept _).bind fun _ => writes_locked fun _ => .createUser

theorem ensureUser_writes {login : String} :
    (Core.ensureUser login).Writes (Section (.ensureUser login)) := by
  unfold Core.ensureUser
  refine (writes_reading _).bind fun found => ?_
  cases found with
  | some user => exact writes_pure user
  | none =>
    refine (Writes.expect (T := fun core core' =>
      ∀ reply, Section (.ensureUser login) core core' reply) ?_).mono fun _ _ _ moved => moved _
    exact (writes_ofExcept _).bind fun _ => writes_locked fun _ _ => .ensureUser _

theorem createOrganization_writes {request : CreateOrganizationRequest} :
    (Core.createOrganization request).Writes (Section (.createOrganization request)) := by
  unfold Core.createOrganization
  exact (writes_ofExcept _).bind fun _ => writes_locked fun _ => .createOrganization

theorem createAccount_writes {login password : String} {role : UserRole} {hash : Except ForgeError String} :
    (Core.createAccount login password role hash).Writes (Section (.createAccount login password role hash)) := by
  unfold Core.createAccount
  exact (writes_ofExcept _).bind fun _ => (writes_ofExcept _).bind fun _ =>
    writes_locked fun _ => .createAccount

theorem grantRepoAccess_writes {actor login owner repo : String} {access : RepoAccessLevel} :
    (Core.grantRepoAccess actor login owner repo access).Writes (Section (.grantRepoAccess actor login owner repo access)) := by
  unfold Core.grantRepoAccess
  exact (getAccount_readOnly login).bind fun _ => (canonicalRepository_readOnly owner repo).bind
    fun _ => writes_locked fun _ => .grantRepoAccess

theorem grantRepoAccessChecked_writes {actor login owner repo : String} {access : RepoAccessLevel} :
    (Core.grantRepoAccessChecked actor login owner repo access).Writes (Section (.grantRepoAccessChecked actor login owner repo access)) := by
  unfold Core.grantRepoAccessChecked
  refine (canonicalRepository_readOnly owner repo).bind fun _ => ?_
  refine (requireRepoAdmin_readOnly owner repo actor).bind fun _ => ?_
  exact (getAccount_readOnly login).bind fun _ => (canonicalRepository_readOnly owner repo).bind
    fun _ => writes_locked fun _ => .grantRepoAccessChecked

theorem revokeRepoAccessChecked_writes {actor login owner repo : String} :
    (Core.revokeRepoAccessChecked actor login owner repo).Writes (Section (.revokeRepoAccessChecked actor login owner repo)) := by
  unfold Core.revokeRepoAccessChecked
  refine (canonicalRepository_readOnly owner repo).bind fun _ => ?_
  refine (requireRepoAdmin_readOnly owner repo actor).bind fun _ => ?_
  exact writes_locked fun _ => .revokeRepoAccessChecked

theorem createRepository_writes {owner : String} {request : CreateRepositoryRequest} :
    (Core.createRepository owner request).Writes (Section (.createRepository owner request)) := by
  unfold Core.createRepository
  exact (writes_ofExcept _).bind fun _ => (writes_locked fun _ _ => .createRepository).bind
    fun _ => (writes_reading _).bind fun _ => writes_pure _

theorem backfillRepositoryPushedAt_writes {history : Slug → Except ForgeError (Option DateTime)} :
    (Core.backfillRepositoryPushedAt history).Writes (Section (.backfillRepositoryPushedAt history)) := by
  unfold Core.backfillRepositoryPushedAt
  refine (writes_reading _).bind fun _ => (writes_ofExcept _).bind fun found => ?_
  exact writes_ite (writes_pure _) (writes_locked fun _ => .backfillRepositoryPushedAt found)

theorem createLabel_writes {owner repo : String} {request : CreateLabelRequest} :
    (Core.createLabel owner repo request).Writes (Section (.createLabel owner repo request)) := by
  unfold Core.createLabel
  exact (writes_ofExcept _).bind fun _ => (ensureRepoExists_readOnly owner repo).bind
    fun _ => writes_locked fun _ => .createLabel

theorem setBranchProtection_writes {owner repo branch : String} {request : SetBranchProtectionRequest} :
    (Core.setBranchProtection owner repo branch request).Writes (Section (.setBranchProtection owner repo branch request)) := by
  unfold Core.setBranchProtection
  exact (ensureRepoExists_readOnly owner repo).bind fun _ => (writes_ofExcept _).bind
    fun _ => utcNow_readOnly.bind fun now => writes_locked fun _ => .setBranchProtection now

theorem setCodeowners_writes {owner repo contents : String} :
    (Core.setCodeowners owner repo contents).Writes (Section (.setCodeowners owner repo contents)) := by
  unfold Core.setCodeowners
  exact (ensureRepoExists_readOnly owner repo).bind fun _ => writes_locked fun _ => .setCodeowners

theorem createIssue_writes {owner repo author : String} {request : CreateIssueRequest} :
    (Core.createIssue owner repo author request).Writes (Section (.createIssue owner repo author request)) := by
  unfold Core.createIssue
  refine (writes_ofExcept _).bind fun _ => (ensureRepoExists_readOnly owner repo).bind fun _ => ?_
  exact (ensureUser_profile .createIssue author).bind_unfinished (fun _ => rfl)
    fun _ => writes_locked fun _ => .createIssue

theorem addIssueComment_writes {owner repo : String} {number : Nat} {author body : String} :
    (Core.addIssueComment owner repo number author body).Writes (Section (.addIssueComment owner repo number author body)) := by
  unfold Core.addIssueComment
  refine (writes_ofExcept _).bind fun _ => ?_
  exact (ensureUser_profile .addIssueComment author).bind_unfinished (fun _ => rfl)
    fun _ => writes_locked fun _ => .addIssueComment

theorem createCommitStatus_writes {owner repo sha creator : String} {request : CreateCommitStatusRequest} :
    (Core.createCommitStatus owner repo sha creator request).Writes (Section (.createCommitStatus owner repo sha creator request)) := by
  unfold Core.createCommitStatus
  refine (writes_ofExcept _).bind fun _ => ?_
  refine (ensureRepositoryWritable_readOnly owner repo).bind fun _ => ?_
  exact (ensureUser_profile .createCommitStatus creator).bind_unfinished (fun _ => rfl)
    fun _ => utcNow_readOnly.bind fun now => writes_locked fun _ => .createCommitStatus _ now

theorem createCheckRun_writes {owner repo : String} {request : CreateCheckRunRequest} :
    (Core.createCheckRun owner repo request).Writes (Section (.createCheckRun owner repo request)) := by
  unfold Core.createCheckRun
  refine (writes_ofExcept _).bind fun _ => (writes_ofExcept _).bind fun _ => ?_
  exact (ensureRepositoryWritable_readOnly owner repo).bind
    fun _ => writes_locked fun _ => .createCheckRun

theorem createWebhook_writes {owner repo : String} {request : CreateWebhookRequest} :
    (Core.createWebhook owner repo request).Writes (Section (.createWebhook owner repo request)) := by
  unfold Core.createWebhook
  exact (ensureRepoExists_readOnly owner repo).bind fun _ => (writes_ofExcept _).bind
    fun _ => utcNow_readOnly.bind fun now => writes_locked fun _ => .createWebhook now

theorem setRepositoryReadme_writes {owner repo markdown : String} :
    (Core.setRepositoryReadme owner repo markdown).Writes (Section (.setRepositoryReadme owner repo markdown)) := by
  unfold Core.setRepositoryReadme
  exact (ensureRepoExists_readOnly owner repo).bind
    fun _ => writes_locked fun _ => .setRepositoryReadme

theorem createPullRequest_writes {owner repo author : String} {request : CreatePullRequestRequest} :
    (Core.createPullRequest owner repo author request).Writes (Section (.createPullRequest owner repo author request)) := by
  unfold Core.createPullRequest
  refine (writes_ofExcept _).bind fun _ => (writes_ofExcept _).bind fun _ => ?_
  refine (writes_ofExcept _).bind fun _ => ?_
  refine (ensureRepositoryWritable_readOnly owner repo).bind fun _ => ?_
  exact (ensureUser_profile .createPullRequest author).bind_unfinished (fun _ => rfl)
    fun _ => writes_locked fun _ => .createPullRequest

theorem refreshPullRequestHeadsForRefWithDiff_writes {owner repo refName headSha baseSha : String} {headPatchIds : List String} :
    (Core.refreshPullRequestHeadsForRefWithDiff owner repo refName headSha baseSha headPatchIds).Writes (Section (.refreshPullRequestHeadsForRefWithDiff owner repo refName headSha baseSha headPatchIds)) := by
  unfold Core.refreshPullRequestHeadsForRefWithDiff
  refine (writes_ofExcept _).bind fun _ => (writes_ofExcept _).bind fun _ => writes_unless ?_
  exact refreshIdentity_writes fun _ _ => .refreshForRefWithDiff

theorem prepareRepositoryTransfer_writes {request : PrepareRepositoryTransfer} :
    (Core.prepareRepositoryTransfer request).Writes (Section (.prepareRepositoryTransfer request)) := by
  unfold Core.prepareRepositoryTransfer
  refine (writes_ofExcept _).bind fun _ => (writes_ofExcept _).bind fun _ => ?_
  refine (writes_ofExcept _).bind fun _ => (writes_ofExcept _).bind fun _ => ?_
  exact (writes_ofExcept _).bind fun _ => writes_locked fun _ => .prepareRepositoryTransfer

theorem failRepositoryTransfer_writes {transactionId : Uuid} {reason : String} :
    (Core.failRepositoryTransfer transactionId reason).Writes (Section (.failRepositoryTransfer transactionId reason)) := by
  unfold Core.failRepositoryTransfer
  exact (writes_ofExcept _).bind fun _ => writes_locked fun _ => .failRepositoryTransfer

end Methods

/-- Whatever a call writes, it writes in one of its sections. -/
theorem call_writes (call : Call) : call.method.Writes (Section call) := by
  cases call with
  | createUser request => exact createUser_writes
  | ensureUser login => exact ensureUser_writes
  | createOrganization request => exact createOrganization_writes
  | createAccount login password role hash => exact createAccount_writes
  | getAccount login => exact (getAccount_readOnly login).writes
  | getRepository owner repo => exact (getRepository_readOnly owner repo).writes
  | appendAuditAs actor action subject phase detail =>
    exact appendAuditAs_last actor action subject phase detail
  | grantRepoAccess actor login owner repo access => exact grantRepoAccess_writes
  | grantRepoAccessChecked actor login owner repo access => exact grantRepoAccessChecked_writes
  | revokeRepoAccess login owner repo => exact writes_locked fun _ => .revokeRepoAccess
  | revokeRepoAccessChecked actor login owner repo => exact revokeRepoAccessChecked_writes
  | createRepository owner request => exact createRepository_writes
  | setRepositoryFamily owner repo family => exact setRepositoryFamily_writes
  | setRepositoryArchived actor owner repo archived => exact setRepositoryArchived_writes
  | setRepositoryDefaultBranch owner repo branch branches => exact setRepositoryDefaultBranch_writes
  | setDefaultBranchProtectionOptOut actor owner repo optOut =>
    exact setDefaultBranchProtectionOptOut_writes
  | recordRepositoryPush owner repo time => exact writes_locked fun _ => .recordRepositoryPush
  | backfillRepositoryPushedAt history => exact backfillRepositoryPushedAt_writes
  | deleteRepository owner repo => exact writes_locked fun _ => .deleteRepository
  | createLabel owner repo request => exact createLabel_writes
  | setBranchProtection owner repo branch request => exact setBranchProtection_writes
  | deleteBranchProtection actor owner repo branch => exact deleteBranchProtection_writes
  | rekeyEncodedBranchProtections actor branches => exact rekeyEncodedBranchProtections_writes
  | setCodeowners owner repo contents => exact setCodeowners_writes
  | createIssue owner repo author request => exact createIssue_writes
  | updateIssue owner repo number request => exact writes_locked fun _ => .updateIssue
  | addIssueComment owner repo number author body => exact addIssueComment_writes
  | createCommitStatus owner repo sha creator request => exact createCommitStatus_writes
  | createCheckRun owner repo request => exact createCheckRun_writes
  | recordJankuraiScore owner repo request => exact recordJankuraiScore_writes
  | createWebhook owner repo request => exact createWebhook_writes
  | setRepositoryReadme owner repo markdown => exact setRepositoryReadme_writes
  | createDeployment owner repo creator request => exact createDeployment_writes
  | prepareMergeOverride owner repo number request => exact prepareMergeOverride_writes
  | createPullRequest owner repo author request => exact createPullRequest_writes
  | updatePullRequest owner repo number request => exact updatePullRequest_writes
  | refreshPullRequestHeadsForRef owner repo refName headSha =>
    exact refreshIdentity_writes fun _ _ => .refreshForRef
  | refreshPullRequestHeadsForRefWithDiff owner repo refName headSha baseSha headPatchIds => exact refreshPullRequestHeadsForRefWithDiff_writes
  | refreshPullRequestHeadsFromGit owner repo refName headSha baseSha patchIds reviewCommits =>
    exact refreshFromGit_writes
  | retargetPullRequest actor owner repo number request branches => exact retargetPullRequest_writes
  | recordPullRequestBase actor owner repo number headSha baseSha =>
    exact recordPullRequestBase_writes
  | evaluateMergeReadiness owner repo number requestedSha => exact writes_reading _
  | finalizeMerge owner repo number mergeSha requestedSha base =>
    exact finalizeMergeChecked_writes fun _ => .finalizeMerge
  | finalizeMergeWithOverride ticket permit mergeSha => exact finalizeMergeWithOverride_writes
  | mergePullRequest owner repo number sha => exact mergePullRequest_writes
  | createReview owner repo number author request => exact createReview_writes
  | dismissReview owner repo number actor request =>
    change (Core.dismissReview owner repo number actor request).Writes _
    exact dismissReview_writes
  | renameRepository actor owner repo newOwner newName =>
    exact renameRepository_writes
  | prepareRepositoryTransfer request => exact prepareRepositoryTransfer_writes
  | commitRepositoryTransfer transactionId receipt =>
    exact writes_locked fun _ => .commitRepositoryTransfer
  | failRepositoryTransfer transactionId reason => exact failRepositoryTransfer_writes

end Jeryu.Core
