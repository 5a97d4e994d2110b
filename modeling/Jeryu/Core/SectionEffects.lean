import Jeryu.Core.Effects

namespace Jeryu.Core

open KeyedMap HashMap Relation

variable {call : Call} {core : ForgeCore} {owner repo : String} {number : Nat}

section Accounts

theorem createUserLocked_effect (request : CreateUserRequest) :
    Effect call core ((createUserLocked request core).leaves core) := by
  apply Outcome.effect
  unfold createUserLocked
  split
  · exact True.intro
  · exact .touches (.single (.people _ _ _ _ _ _))

theorem createOrganizationLocked_effect (request : CreateOrganizationRequest) :
    Effect call core ((createOrganizationLocked request core).leaves core) := by
  apply Outcome.effect
  unfold createOrganizationLocked
  split
  · exact True.intro
  · exact .touches (.single (.people _ _ _ _ _ _))

theorem createAccountLocked_effect (login : String) (role : UserRole)
    (hash : Except ForgeError String) :
    Effect call core ((createAccountLocked login role hash core).leaves core) := by
  apply Outcome.effect
  unfold createAccountLocked
  split
  · exact True.intro
  · cases hash with
    | error error => exact True.intro
    | ok passwordHash => exact .touches (.single (.people _ _ _ _ _ _))

theorem grantRepoAccessLocked_effect {actor login : String} {access : RepoAccessLevel}
    (opens : call.Opens) (within : call.touches core.state (owner, repo)) :
    Effect call core ((grantRepoAccessLocked actor login owner repo access core).leaves core) := by
  apply Outcome.effect
  unfold grantRepoAccessLocked
  let grant : RepoAccessGrant :=
    { login, owner, repo, access, grantedBy := actor, grantedAt := core.now }
  exact .touches (.single (.granted grant ⟨opens, within⟩ within))

theorem revokeRepoAccessLocked_effect {login : String}
    (within : call.touches core.state (owner, repo)) :
    Effect call core ((revokeRepoAccessLocked login owner repo core).leaves core) := by
  apply Outcome.effect
  unfold revokeRepoAccessLocked
  exact .touches (.single (.revoked (login, owner, repo) within))

end Accounts

section Repositories

theorem createRepositoryLocked_effect (request : CreateRepositoryRequest) (shifts : call.Shifts) :
    Effect call core ((createRepositoryLocked owner request core).leaves core) := by
  apply Outcome.effect
  unfold createRepositoryLocked
  dsimp only
  split
  · exact True.intro
  · next absent =>
    refine .shift shifts (.created _ _ ?_ ⟨Nat.le_refl _, Nat.lt_succ_self _⟩ ?_)
    · simpa [Repository.slug] using absent
    · rfl

theorem editRepositoryLocked_effect {edit : Repository → Repository}
    (edits : ∀ entry, ∃ family archived updatedAt pushedAt,
      edit entry = { entry with family, archived, updatedAt, pushedAt }) :
    Effect call core ((editRepositoryLocked owner repo edit core).leaves core) := by
  apply Outcome.effect
  unfold editRepositoryLocked
  split
  · exact True.intro
  · next entry found =>
    obtain ⟨family, archived, updatedAt, pushedAt, edited⟩ := edits entry
    simp only [edited]
    exact .touches (.single (.repositoryEdited found ..))

theorem setFamilyLocked_effect (family : Option String) :
    Effect call core ((setFamilyLocked owner repo family core).leaves core) :=
  editRepositoryLocked_effect fun entry => ⟨family, entry.archived, core.now, entry.pushedAt, rfl⟩

theorem writeRepositoryArchived_effect (archived : Bool) :
    Effect call core ((writeRepositoryArchived owner repo archived core).leaves core) :=
  editRepositoryLocked_effect fun entry => ⟨entry.family, archived, core.now, entry.pushedAt, rfl⟩

theorem setDefaultBranchLocked_effect (branch : String) (ruling : call.Rules)
    (within : core.state.Live (owner, repo) → call.touches core.state (owner, repo)) :
    Effect call core ((setDefaultBranchLocked owner repo branch core).leaves core) := by
  apply Outcome.effect
  unfold setDefaultBranchLocked
  split
  · exact True.intro
  · next entry found =>
    exact .touches (.single (.defaultBranchSet found (within ⟨entry, found⟩) branch core.now rfl
      ruling))

theorem setOptOutLocked_effect (optOut : Bool) (ruling : call.Rules)
    (within : core.state.Live (owner, repo) → call.touches core.state (owner, repo)) :
    Effect call core ((setOptOutLocked owner repo optOut core).leaves core) := by
  apply Outcome.effect
  unfold setOptOutLocked
  split
  · exact True.intro
  · next free =>
    split
    · exact True.intro
    · next entry found =>
      refine Outcome.alone_ite (fun _ => True.intro) fun _ => ?_
      refine .touches (.single ?_)
      exact .optOutSet found (within ⟨entry, found⟩) optOut core.now rfl
        (fun opting => by simpa [opting] using free) ruling

theorem recordPushLocked_effect (time : DateTime) :
    Effect call core ((recordPushLocked owner repo time core).leaves core) := by
  unfold recordPushLocked
  split
  · exact .unchanged
  · split
    · exact .unchanged
    · exact editRepositoryLocked_effect fun entry =>
        ⟨entry.family, entry.archived, entry.updatedAt, some time, rfl⟩

theorem touches_fillPushedAt {print : Footprint} (filled : Nat × State) (found : Slug × DateTime) :
    Touches print filled.2 (fillPushedAt filled found).2 := by
  unfold fillPushedAt
  split
  · next entry stored =>
    split
    · exact .single (.repositoryEdited stored entry.family entry.archived entry.updatedAt
        (some found.2))
    · exact .refl
  · exact .refl

theorem backfillLocked_effect (found : List (Slug × DateTime)) :
    Effect call core ((backfillLocked found core).leaves core) := by
  have fills (print : Footprint) (filled : Nat × State) :
      Touches print filled.2 (found.foldl fillPushedAt filled).2 := by
    induction found generalizing filled with
    | nil => exact .refl
    | cons first rest ih => exact (touches_fillPushedAt filled first).trans (ih _)
  apply Outcome.effect
  unfold backfillLocked
  dsimp only
  split
  · exact .touches (fills _ (0, core.state))
  · exact True.intro

theorem deleteRepositoryLocked_effect (shifts : call.Shifts) (drops : call.Drops) :
    Effect call core ((deleteRepositoryLocked owner repo core).leaves core) := by
  apply Outcome.effect
  unfold deleteRepositoryLocked
  split
  · exact True.intro
  · next removed found => exact .shift shifts (.deleted found drops)

theorem createLabelLocked_effect {request : CreateLabelRequest} (opens : call.Opens)
    (within : call.touches core.state (owner, repo)) :
    Effect call core ((createLabelLocked owner repo request core).leaves core) := by
  apply Outcome.effect
  unfold createLabelLocked
  dsimp only
  split
  · exact True.intro
  · let label : Label :=
      { id := core.uuids, name := request.name, color := request.color
        description := request.description }
    exact .touches (.single (.labelled owner repo label ⟨opens, within⟩ within))

end Repositories

section Protection

theorem setProtectionLocked_effect {rule : BranchProtectionRule} (opens : call.Opens)
    (ruling : call.Rules) (within : call.touches core.state (rule.owner, rule.repo)) (asked : call.protects rule) :
    Effect call core ((setProtectionLocked rule core).leaves core) := by
  apply Outcome.effect
  unfold setProtectionLocked
  exact .touches (.single (.ruleSet rule ⟨opens, within⟩ within asked ruling))

theorem deleteProtectionLocked_effect {branch : String} (ruling : call.Rules)
    (within : ∀ entry, core.state.repos.lookup (owner, repo) = some entry → entry.archived = false →
      call.touches core.state (owner, repo)) :
    Effect call core ((deleteProtectionLocked owner repo branch core).leaves core) := by
  apply Outcome.effect
  unfold deleteProtectionLocked
  split
  · exact True.intro
  · next live found =>
    refine Outcome.alone_ite (fun _ => True.intro) fun unarchived => ?_
    refine Outcome.alone_ite (fun _ => True.intro) fun optional => ?_
    split
    · exact True.intro
    · refine .touches (.single ?_)
      have may := within live found (by simpa using unarchived)
      exact .ruleRemoved branch may found (fun same => by simpa [same] using optional) ruling

/-- A planned re-key writes rules of a live, unarchived repository only. -/
theorem touches_rekeyStep {print : Footprint} {progress : Rekeying} {step : PlannedRekey}
    (ruling : print.rules) (within : ∀ slug entry, progress.state.repos.lookup slug = some entry → entry.archived = false →
      print.touches slug) :
    Touches print progress.state (rekeyStep progress step).state ∧
      (rekeyStep progress step).state.repos = progress.state.repos := by
  obtain ⟨state, report, changes⟩ := progress
  simp only [rekeyStep]
  split
  · exact ⟨.refl, rfl⟩
  · next removed =>
    obtain ⟨repository, live, unarchived, ordinary, -⟩ := decideRekey_change (.inr removed)
    have may := within _ _ live unarchived
    exact ⟨.single (.ruleRemoved step.key.2.2 may live (absurd · ordinary) ruling), rfl⟩
  · next rekeyed =>
    obtain ⟨repository, live, unarchived, ordinary, seen⟩ := decideRekey_change (.inl rekeyed)
    refine ⟨.single ?_, rfl⟩
    exact .ruleRekeyed (within _ _ live unarchived) seen live ordinary step.decoded
      (decideRekey_free rekeyed) ruling

theorem rekeyEncodedLocked_effect {plan : List PlannedRekey} (ruling : call.Rules)
    (within : ∀ slug entry, core.state.repos.lookup slug = some entry → entry.archived = false →
      call.touches core.state slug) :
    Effect call core ((rekeyEncodedLocked plan core).leaves core) := by
  have steps (print : Footprint) (progress : Rekeying)
      (rules : print.rules) (may : ∀ slug entry, progress.state.repos.lookup slug = some entry →
        entry.archived = false → print.touches slug) :
      Touches print progress.state (plan.foldl rekeyStep progress).state := by
    induction plan generalizing progress with
    | nil => exact .refl
    | cons step rest ih =>
      obtain ⟨one, repos⟩ := touches_rekeyStep rules may
      exact one.trans (ih _ (by rwa [repos]))
  apply Outcome.effect
  unfold rekeyEncodedLocked
  dsimp only
  split
  · exact True.intro
  · exact .touches (steps _ ⟨core.state, ⟨[], [], []⟩, []⟩ ruling within)

theorem setCodeownersLocked_effect {contents : String} (opens : call.Opens)
    (within : call.touches core.state (owner, repo)) :
    Effect call core ((setCodeownersLocked owner repo contents core).leaves core) := by
  apply Outcome.effect
  unfold setCodeownersLocked
  exact .touches (.single (.codeownersSet _ _ ⟨opens, within⟩ within))

end Protection

section Records

theorem createIssueLocked_effect {author : String} {request : CreateIssueRequest} (opens : call.Opens)
    (within : call.touches core.state (owner, repo)) :
    Effect call core ((createIssueLocked owner repo author request core).leaves core) := by
  apply Outcome.effect
  let number := (core.state.nextRecordNumber owner repo).1
  let issue := openedIssue owner repo author number core.uuids core.now request
  have counted : Touch (call.footprint core.state core.uuids (core.uuids + 1)) core.state _ :=
    .issueOpened issue ⟨opens, within⟩ within rfl
  refine .touches (.tail (.single counted) (touch_emit ?_ ..))
  exact @State.named_issue _ (owner, repo, number) issue (lookup_insert_self ..)

theorem UpdateIssueRequest.apply_key (request : UpdateIssueRequest) (issue : Issue) (now : DateTime) :
    (request.apply issue now).1.key = issue.key ∧ (request.apply issue now).1.id = issue.id ∧
      (request.apply issue now).1.pullRequest = issue.pullRequest := by
  unfold UpdateIssueRequest.apply
  split <;> exact ⟨rfl, rfl, rfl⟩

theorem updateIssueLocked_effect {request : UpdateIssueRequest}
    (within : call.touches core.state (owner, repo)) :
    Effect call core ((updateIssueLocked owner repo number request core).leaves core) := by
  apply Outcome.effect
  unfold updateIssueLocked
  split
  · exact True.intro
  · next issue found =>
    split
    · exact True.intro
    · obtain ⟨sameKey, identity, marker⟩ := request.apply_key issue core.now
      refine .touches (.tail (.single (.issueEdited found within sameKey identity marker)) (touch_emit ?_ ..))
      exact @State.named_issue _ (owner, repo, number) _ (lookup_insert_self ..)

theorem addIssueCommentLocked_effect {author body : String}
    (within : call.touches core.state (owner, repo)) :
    Effect call core ((addIssueCommentLocked owner repo number author body core).leaves core) := by
  apply Outcome.effect
  unfold addIssueCommentLocked
  dsimp only
  split
  · exact True.intro
  · next issue found =>
    let comment : IssueComment :=
      { id := core.uuids, owner, repo, issueNumber := number, author, body, createdAt := core.now
        updatedAt := core.now }
    let noted : State := { core.state with
      issueComments := core.state.issueComments.push comment.key comment }
    let edited : Issue := { issue with comments := issue.comments + 1, updatedAt := core.now }
    have first : Touch (call.footprint core.state core.uuids (core.uuids + 1)) core.state noted :=
      .commented comment found within
    have second : Touch (call.footprint core.state core.uuids (core.uuids + 1)) noted
        { noted with issues := noted.issues.insert (owner, repo, number) edited } :=
      .issueEdited found within rfl rfl rfl
    refine .touches (.tail (.tail (.single first) second) (touch_emit ?_ ..))
    exact @State.named_issue _ (owner, repo, number) edited (lookup_insert_self ..)

theorem createStatusLocked_effect {sha creator : String} {request : CreateCommitStatusRequest}
    {base : Option String} {now : DateTime} (opens : call.Opens)
    (within : call.touches core.state (owner, repo)) :
    Effect call core
      ((createStatusLocked owner repo sha creator request base now core).leaves core) := by
  apply Outcome.effect
  unfold createStatusLocked
  let status : CommitStatus :=
    { id := core.uuids, owner, repo, sha, state := request.state, context := request.context, base
      description := request.description, targetUrl := request.targetUrl, creator
      createdAt := now, updatedAt := now }
  have pushed : Touch (call.footprint core.state core.uuids (core.uuids + 1)) core.state _ :=
    .statusPushed status ⟨opens, within⟩ within
  refine .touches (.tail ((touches_refresh within core.auditMergeEnforced sha).head pushed) (touch_emit ?_ ..))
  rw [refresh_frame]
  exact @State.named_status _ (owner, repo, sha) _ (lookup_insert_self ..)

theorem createCheckRunLocked_effect {request : CreateCheckRunRequest} (opens : call.Opens)
    (within : call.touches core.state (owner, repo)) :
    Effect call core ((createCheckRunLocked owner repo request core).leaves core) := by
  apply Outcome.effect
  unfold createCheckRunLocked
  extract_lets completed runs run pushed refreshed next
  have first : Touch (call.footprint core.state core.uuids (core.uuids + 1)) core.state _ :=
    .checkRunPushed run ⟨opens, within⟩ within
  refine .touches (.tail ((touches_refresh within core.auditMergeEnforced run.headSha).head first) (touch_emit ?_ ..))
  rw [refresh_frame]
  exact State.named_checkRun (lookup_insert_self ..)

theorem recordScoreLocked_effect {record : Uuid → JankuraiScore} (opens : call.Opens)
    (within : call.touches core.state (record core.uuids).slug) :
    Effect call core ((recordScoreLocked record core).leaves core) := by
  apply Outcome.effect
  unfold recordScoreLocked
  extract_lets row key others scores jankuraiScores
  refine .touches (.single (.scored key _ ⟨opens, within⟩ within ?_ fun score member => ?_))
  · exact trimScores_ne_nil (by simp [scores])
  · rcases List.mem_append.mp (trimScores_subset member) with old | new
    · exact .inr (List.mem_filter.mp old).1
    · rw [List.mem_singleton.mp new]
      exact .inl rfl

theorem createWebhookLocked_effect {request : CreateWebhookRequest} {now : DateTime}
    (opens : call.Opens) (within : call.touches core.state (owner, repo)) :
    Effect call core ((createWebhookLocked owner repo request now core).leaves core) := by
  apply Outcome.effect
  unfold createWebhookLocked
  extract_lets hook webhooks
  exact .touches (.single (.hooked hook ⟨opens, within⟩ within))

theorem setReadmeLocked_effect {markdown : String} (opens : call.Opens)
    (within : call.touches core.state (owner, repo)) :
    Effect call core ((setReadmeLocked owner repo markdown core).leaves core) := by
  apply Outcome.effect
  unfold setReadmeLocked
  exact .touches (.single (.readmeSet _ _ ⟨opens, within⟩ within))

theorem createDeploymentLocked_effect {creator refName : String} {payload : Value}
    {production : Bool} {request : CreateDeploymentRequest} (deploys : call.Deploys) :
    Effect call core
      ((createDeploymentLocked owner repo creator refName payload production request core).leaves
        core) := by
  unfold createDeploymentLocked
  split
  · exact .unchanged
  · dsimp only
    split
    · exact .unchanged
    · exact
        { uuids := Nat.le_refl _
          storage := by simp [Outcome.leaves, Outcome.settle, ForgeCore.appended]
          moves := .touches (.single (.deployed deploys _))
          staged := fun _ => .inr ⟨_, rfl⟩
          written := ⟨_, Outcome.leaves_journal _ core, fun write member => by
            cases List.mem_singleton.mp (ForgeCore.mem_recorded member)
            exact ⟨⟨deploys, fun tables => ⟨_, rfl⟩⟩, True.intro⟩⟩ }

end Records

section PullRequests

variable {print : Footprint}

/-- Re-evaluating a pull request that is not merged does not make it merged. -/
theorem applyEvaluation_live {pr : PullRequest} {evaluation : BranchProtectionEvaluation}
    (live : pr.state ≠ .merged) : (applyEvaluation pr evaluation).state ≠ .merged := by
  unfold applyEvaluation
  split
  · exact live
  · split
    · exact live
    · dsimp only
      split
      · simp
      · split <;> simp

theorem createPullLocked_effect {author : String} {request : CreatePullRequestRequest}
    (coherent : core.state.Coherent core.uuids) (opens : call.Opens)
    (within : call.touches core.state (owner, repo)) :
    Effect call core ((createPullLocked owner repo author request core).leaves core) := by
  apply Outcome.effect
  let number := (core.state.nextRecordNumber owner repo).1
  let numbered := (core.state.nextRecordNumber owner repo).2
  let issue := backingIssue owner repo author number core.uuids core.now request
  let opened := openedPull owner repo author number (core.uuids + 1) core.now request
  let pr := applyEvaluation opened (numbered.evaluateLocked core.auditMergeEnforced opened none)
  let counted : State := { numbered with issues := numbered.issues.insert (owner, repo, number) issue }
  let print := call.footprint core.state core.uuids (core.uuids + 2)
  obtain ⟨key, sameNumber, issueNumber, id⟩ := applyEvaluation_key opened
    (numbered.evaluateLocked core.auditMergeEnforced opened none)
  have merge := applyEvaluation_sameMerge opened
    (numbered.evaluateLocked core.auditMergeEnforced opened none)
  have live : opened.state ≠ .merged := by
    change (if request.draft then PullRequestState.draft else .opened) ≠ .merged
    split <;> simp
  have first : Touch print core.state counted := .issueOpened issue ⟨opens, within⟩ within rfl
  have second : Touch print counted
      { counted with pulls := counted.pulls.insert (owner, repo, number) pr } := by
    refine .pullOpened pr key ⟨opens, within⟩ within ?_ ?_ (lookup_insert_self ..) rfl ?_
      merge.merged (applyEvaluation_live live) merge.mergedAt merge.mergeCommitSha
      (fun ordered => ordered owner repo) (applyEvaluation_gated _ _)
    · rw [id]
      change core.uuids ≤ core.uuids + 1 ∧ core.uuids + 1 < core.uuids + 2
      omega
    · intro other stored found same
      have below : stored.id < core.uuids := coherent.identified.pullIds other stored found
      have drawn : stored.id = core.uuids + 1 := same.trans id
      rw [drawn] at below
      exact Nat.not_succ_lt_self below
    · rw [issueNumber, sameNumber]
      rfl
  refine .touches (.tail (.tail (.single first) second) (touch_emit ?_ ..))
  exact @State.named_pull _ (owner, repo, number) pr (lookup_insert_self ..)

theorem updatePullLocked_effect {request : UpdatePullRequestRequest}
    (within : call.touches core.state (owner, repo))
    (asked : ∀ pr, core.state.pulls.lookup (owner, repo, number) = some pr →
      call.updates core.state pr request) :
    Effect call core ((updatePullLocked owner repo number request core).leaves core) := by
  apply Outcome.effect
  unfold updatePullLocked
  dsimp only
  split
  · exact True.intro
  · next pr found =>
    let edited := request.apply pr core.now
    let evaluation := core.state.evaluateLocked core.auditMergeEnforced edited none
    refine .touches (.tail (.single
      (.pullUpdated found within (asked pr found) core.now evaluation)) (touch_emit ?_ ..))
    exact @State.named_pull _ (owner, repo, number) _ (lookup_insert_self ..)

theorem HeadEvidence.apply_follows (evidence : HeadEvidence) (headSha : String) (now : DateTime)
    (pr : PullRequest) : (evidence.apply headSha now pr).Follows pr := by
  constructor <;> rfl

theorem touches_refreshHead {headSha : String} {evidence : HeadEvidence}
    (progress : State × List PullRequest) {key : Scoped Nat}
    (within : print.touches (key.1, key.2.1)) :
    Touches print progress.1 (refreshHead core headSha evidence progress key).1 := by
  unfold refreshHead
  split
  · exact .refl
  · next pr found =>
    exact @touches_storeEdited _ { core with state := progress.1 } _ _ _ found within
      (evidence.apply_follows headSha core.now pr) _

theorem State.mem_openPullsFrom {s : State} (keyed : s.WellKeyed) {refName : String}
    {key : Scoped Nat} (member : key ∈ s.openPullsFrom owner repo refName) :
    (key.1, key.2.1) = (owner, repo) := by
  obtain ⟨⟨key, pr⟩, found, rfl⟩ := List.mem_map.mp member
  obtain ⟨stored, matched⟩ := List.mem_filter.mp found
  have own := (keyed.pulls _ _ (mem_pairs.mp stored)).1
  simp only [Bool.and_eq_true, beq_iff_eq] at matched
  rw [← own]
  exact Prod.ext matched.1.1.1 matched.1.1.2

theorem refreshHeadsLocked_effect {refName headSha : String} {evidence : HeadEvidence}
    (keyed : core.state.WellKeyed) (within : call.touches core.state (owner, repo)) :
    Effect call core ((refreshHeadsLocked owner repo refName headSha evidence core).leaves core) := by
  have moves (print : Footprint) (may : print.touches (owner, repo)) (keys : List (Scoped Nat))
      (here : ∀ key ∈ keys, (key.1, key.2.1) = (owner, repo))
      (progress : State × List PullRequest) :
      Touches print progress.1 (keys.foldl (refreshHead core headSha evidence) progress).1 := by
    induction keys generalizing progress with
    | nil => exact .refl
    | cons key rest ih =>
      refine (touches_refreshHead progress ?_).trans (ih (fun other member => ?_) _)
      · rw [here key (by simp)]
        exact may
      · exact here other (List.mem_cons_of_mem _ member)
  apply Outcome.effect
  unfold refreshHeadsLocked
  dsimp only
  split
  · exact True.intro
  · refine .touches (moves _ within _ (fun key member => ?_) (core.state, []))
    exact State.mem_openPullsFrom keyed member

theorem retargetLocked_cases (core : ForgeCore) (actor owner repo base : String) (number : Nat)
    (request : RetargetPullRequestRequest) :
    (∃ error, retargetLocked actor owner repo number base request core = .refuse error) ∨
    ∃ pr, core.state.pulls.lookup (owner, repo, number) = some pr ∧ ∃ receipt : AuditEntry,
      receipt.action = "pull_request.retargeted" ∧
      retargetLocked actor owner repo number base request core =
        .commit [] 0 (storeEdited core (owner, repo, number) "edited" (request.apply base core.now pr)).2
          (some receipt)
          (storeEdited core (owner, repo, number) "edited" (request.apply base core.now pr)).1 := by
  unfold retargetLocked
  dsimp only
  split
  · exact .inl ⟨_, rfl⟩
  · next pr found =>
    split
    · exact .inl ⟨_, rfl⟩
    · split
      · exact .inl ⟨_, rfl⟩
      · split
        · exact .inl ⟨_, rfl⟩
        · split
          · exact .inl ⟨_, rfl⟩
          · exact .inr ⟨pr, found, _, rfl, rfl⟩

theorem retargetLocked_effect {actor base : String} {request : RetargetPullRequestRequest}
    {branches : RepoBranches} :
    Effect (.retargetPullRequest actor owner repo number request branches) core
      ((retargetLocked actor owner repo number base request core).leaves core) := by
  rcases retargetLocked_cases core actor owner repo base number request with
    ⟨error, refused⟩ | ⟨pr, found, receipt, action, moved⟩
  · rw [refused]
    exact .unchanged
  · rw [moved]
    apply Outcome.effect_told
    · refine .touches (touches_storeEdited found rfl ?_ _)
      constructor <;> rfl
    · refine ⟨fun entry none => (nomatch none), fun entry same => ?_⟩
      cases same
      exact action

theorem recordBaseLocked_effect {headSha baseSha : String}
    (within : call.touches core.state (owner, repo)) :
    Effect call core ((recordBaseLocked owner repo number headSha baseSha core).leaves core) := by
  apply Outcome.effect
  unfold recordBaseLocked
  dsimp only
  split
  · exact True.intro
  · next pr found =>
    refine Outcome.alone_ite (fun _ => True.intro) fun _ => ?_
    refine Outcome.alone_ite (fun _ => True.intro) fun _ => ?_
    refine Outcome.alone_ite (fun _ => True.intro) fun _ => ?_
    refine .touches (touches_storeEdited found within ?_ _)
    constructor <;> rfl

theorem touches_closeIssue {s : State} {key : Scoped Nat} (within : print.touches (key.1, key.2.1))
    (now : DateTime) : Touches print s (s.closeIssue key now) := by
  unfold State.closeIssue
  split
  · next issue found => exact .single (.issueEdited found within rfl rfl rfl)
  · exact .refl

theorem closeIssue_pulls (s : State) (key : Scoped Nat) (now : DateTime) :
    (s.closeIssue key now).pulls = s.pulls := by
  unfold State.closeIssue
  split <;> rfl

theorem touches_recordMerge {key : Scoped Nat} {pr : PullRequest}
    (found : core.state.pulls.lookup key = some pr) (within : print.touches (key.1, key.2.1))
    (unmerged : pr.merged = false) (unclosed : pr.state ≠ .closed) (mergeSha : String) :
    Touches print core.state (recordMerge core key pr mergeSha) := by
  unfold recordMerge
  dsimp only
  refine .tail (ReflTransGen.trans (.single (.pullMerged found within unmerged unclosed mergeSha core.now))
    (touches_closeIssue ?_ core.now)) (touch_emit ?_ ..)
  · exact within
  · refine @State.named_pull _ key (mergedPull pr mergeSha core.now) ?_
    rw [closeIssue_pulls]
    exact lookup_insert_self ..

/-- A pull request whose merge may be recorded now. -/
structure Finalizable (core : ForgeCore) (owner repo : String) (pr : PullRequest)
    (binding : FinalizeBinding) (permit : Option MergeOverridePermit) : Prop where
  unmerged : pr.merged = false
  unclosed : pr.state ≠ .closed
  baseRef : pr.base.refName = binding.base.baseRef
  baseSha : pr.base.sha = binding.base.baseSha
  passed : finalizeGate core owner repo pr permit
    (core.state.evaluateLocked core.auditMergeEnforced pr binding.requestedSha) = .ok ()

/-- The section refuses, finds the merge recorded, or records it. -/
theorem finalizeLocked_cases (core : ForgeCore) (owner repo : String) (number : Nat)
    (binding : FinalizeBinding) (permit : Option MergeOverridePermit) :
    (∃ error, finalizeLocked owner repo number binding permit core = .refuse error) ∨
    (∃ pr message, core.state.pulls.lookup (owner, repo, number) = some pr ∧ pr.merged = true ∧
      finalizeLocked owner repo number binding permit core =
        .unchanged { sha := pr.mergeCommitSha.getD binding.mergeSha, merged := true, message }) ∨
    (∃ pr message, core.state.pulls.lookup (owner, repo, number) = some pr ∧
      Finalizable core owner repo pr binding permit ∧
      finalizeLocked owner repo number binding permit core =
        .commit [] 0 (recordMerge core (owner, repo, number) pr binding.mergeSha)
          (permit.map fun permit => permit.completedReceipt binding.mergeSha core.now)
          { sha := binding.mergeSha, merged := true, message }) := by
  unfold finalizeLocked
  dsimp only
  split
  · exact .inl ⟨_, rfl⟩
  · next pr found =>
    by_cases merged : pr.merged = true
    · rw [if_pos merged]
      cases permit with
      | none => exact .inr (.inl ⟨pr, _, found, merged, rfl⟩)
      | some permit => exact .inl ⟨_, rfl⟩
    · rw [if_neg merged]
      split
      · exact .inl ⟨_, rfl⟩
      · next unclosed =>
        split
        · exact .inl ⟨_, rfl⟩
        · next sameBase =>
          split
          · exact .inl ⟨_, rfl⟩
          · next passed =>
            have finalizable : Finalizable core owner repo pr binding permit :=
              ⟨by simpa using merged, unclosed, by tauto, by tauto, passed⟩
            cases permit with
            | none => exact .inr (.inr ⟨pr, _, found, finalizable, rfl⟩)
            | some permit =>
              dsimp only
              split
              · exact .inl ⟨_, rfl⟩
              · exact .inr (.inr ⟨pr, _, found, finalizable, rfl⟩)

theorem lookup_recordMerge (core : ForgeCore) (key : Scoped Nat) (pr : PullRequest)
    (mergeSha : String) :
    (recordMerge core key pr mergeSha).pulls =
      core.state.pulls.insert key (mergedPull pr mergeSha core.now) := by
  simp only [recordMerge, State.emitEventLocked, State.closeIssue]
  split <;> rfl

theorem finalizeLocked_effect {binding : FinalizeBinding} {permit : Option MergeOverridePermit}
    (within : call.touches core.state (owner, repo))
    (accompanied : ∀ granted pr, permit = some granted →
      core.state.pulls.lookup (owner, repo, number) = some pr → pr.merged = false →
      call.Accompanies core (recordMerge core (owner, repo, number) pr binding.mergeSha)
        (granted.completedReceipt binding.mergeSha core.now)) :
    Effect call core ((finalizeLocked owner repo number binding permit core).leaves core) := by
  rcases finalizeLocked_cases core owner repo number binding permit with
    ⟨error, refused⟩ | ⟨pr, message, found, merged, unchanged⟩ |
    ⟨pr, message, found, finalizable, recorded⟩
  · rw [refused]
    exact .unchanged
  · rw [unchanged]
    exact .unchanged
  · rw [recorded]
    apply Outcome.effect_told
    · exact .touches (touches_recordMerge found within finalizable.unmerged finalizable.unclosed _)
    · refine ⟨fun entry none => (nomatch none), fun entry carried => ?_⟩
      obtain ⟨granted, given, rfl⟩ := Option.map_eq_some_iff.mp carried
      exact accompanied granted pr given found finalizable.unmerged

end PullRequests

section Reviews

theorem State.withProfile_eq (s : State) (login : String) (id : Uuid) (now : DateTime) :
    s.withProfile login id now = { s with users := (s.withProfile login id now).users } := by
  unfold State.withProfile
  split <;> rfl

theorem State.reevaluate_eq (s : State) (m : Bool) (key : Scoped Nat) :
    s.reevaluate m key = { s with pulls := (s.reevaluate m key).pulls } := by
  unfold State.reevaluate
  split <;> rfl

theorem State.lookup_reevaluate {s : State} {m : Bool} {key : Scoped Nat} {pr : PullRequest}
    (found : s.pulls.lookup key = some pr) :
    ∃ evaluation, (s.reevaluate m key).pulls.lookup key = some (applyEvaluation pr evaluation) := by
  unfold State.reevaluate
  rw [found]
  exact ⟨_, lookup_insert_self ..⟩

theorem touches_writeReview {print : Footprint} {review : Review} {comments : List ReviewCommentInput}
    {pr : PullRequest} (found : core.state.pulls.lookup review.key = some pr)
    (within : print.touches (review.owner, review.repo)) (drawn : print.drawn review.id)
    (aimed : ∀ id, review.dismissedReviewId = some id → ∃ rows row,
      core.state.reviews.lookup review.key = some rows ∧ row ∈ rows ∧ row.id = id)
    (fresh : ∀ key rows, core.state.reviews.lookup key = some rows → ∀ row ∈ rows,
      row.id ≠ review.id) (granted : review.dismissalAuthority.isSome = true → print.dismisses) :
    Touches print core.state (writeReview core review comments) := by
  unfold writeReview
  extract_lets key rows profiled written reevaluated
  have frame : profiled = { core.state with users := profiled.users } := State.withProfile_eq ..
  have first : Touch print core.state profiled := by
    rw [frame]
    exact .people _ _ _ _ _ _
  have stored : profiled.pulls.lookup key = some pr := by
    rw [frame]
    exact found
  have unread : profiled.reviews = core.state.reviews := by rw [frame]
  have second : Touch print profiled { profiled with reviews := profiled.reviews.push key review } :=
    .reviewed review stored within drawn (by rwa [unread]) (by rwa [unread]) granted
  have third : Touch print { profiled with reviews := profiled.reviews.push key review } written := by
    refine .reviewCommented rows stored within fun row member => ?_
    obtain ⟨index, bound, rfl⟩ := List.mem_mapIdx.mp member
    rfl
  refine .tail ((((ReflTransGen.single first).tail second).tail third).trans
    (touches_reevaluate within _)) (touch_emit ?_ ..)
  have kept : written.pulls.lookup key = some pr := stored
  obtain ⟨evaluation, again⟩ := State.lookup_reevaluate kept
  exact State.named_pull again

/-- What a recorded review looks like, and what was asked before it was recorded. -/
theorem recordReviewLocked_commits {author : String} {request : CreateReviewRequest}
    {dismissedReviewId : Option Uuid} {P : Nat → State → Review × Bool → Prop}
    (records : ∀ pr authority audited, core.state.pulls.lookup (owner, repo, number) = some pr →
      let reviews := (core.state.reviews.lookup (owner, repo, number)).getD []
      let subject := s!"{owner}/{repo}#{number}"
      let review : Review :=
        { id := core.uuids, owner, repo, pullNumber := number, author, state := request.event
          body := request.body, headSha := some pr.head.sha, headPatchIds := pr.headPatchIds
          dismissedReviewId, dismissalAuthority := authority, submittedAt := core.now }
      admitReview pr reviews author subject request = .ok () →
      (match dismissedReviewId with
        | some targetId => admitDismissal core pr reviews author subject targetId
        | none => .ok none) = .ok authority →
      P (2 + request.comments.length) (writeReview core review request.comments) (review, audited)) :
    (recordReviewLocked owner repo number author request dismissedReviewId core).Commits P := by
  unfold recordReviewLocked
  dsimp only
  split
  · exact True.intro
  · next pr found =>
    split
    · exact True.intro
    · next admitted =>
      split
      · exact True.intro
      · next authority allowed =>
        have recorded audited := records pr authority audited found admitted allowed
        cases authority with
        | none => exact recorded false
        | some authority =>
          dsimp only
          split
          · exact True.intro
          · exact recorded true

/-- A review is written with the receipt that requests it or with none. -/
theorem recordReviewLocked_told {call : Call} {author : String} {request : CreateReviewRequest}
    {dismissedReviewId : Option Uuid} (audited : call.Audited dismissalAuditAction .requested) :
    (recordReviewLocked owner repo number author request dismissedReviewId core).Told call core := by
  unfold recordReviewLocked
  dsimp only
  split
  · exact True.intro
  · split
    · exact True.intro
    · split
      · exact True.intro
      · split
        · exact ⟨fun entry none => (nomatch none), fun entry none => (nomatch none)⟩
        · split
          · exact True.intro
          · next receipt =>
            refine ⟨fun entry carried => ?_, fun entry none => (nomatch none)⟩
            cases List.mem_singleton.mp carried
            cases auditReceipt_ok receipt
            exact audited

/-- What is known of a dismissal that goes through. -/
structure Dismissible (core : ForgeCore) (pr : PullRequest) (reviews : List Review) (author : String)
    (authority : Option DismissalAuthority) (target : Review) : Prop where
  member : target ∈ reviews
  verdict : target.state = .approved ∨ target.state = .changesRequested
  counts : countsHere reviews pr target.id = true
  authorized : (target.author = author ∧ authority = none) ∨
    (target.author ≠ author ∧ authority = some .repositoryAdmin ∧
      authorizeCrossAuthorDismissal core.state pr reviews author = .ok ())

theorem admitDismissal_ok {pr : PullRequest} {reviews : List Review} {author subject : String}
    {targetId : Uuid} {authority : Option DismissalAuthority}
    (admitted : admitDismissal core pr reviews author subject targetId = .ok authority) :
    ∃ target, target.id = targetId ∧ Dismissible core pr reviews author authority target := by
  unfold admitDismissal at admitted
  split at admitted
  · cases admitted
  · next target found =>
    have member := List.mem_of_find?_eq_some found
    have same : target.id = targetId := by simpa using List.find?_some found
    subst same
    refine ⟨target, rfl, ?_⟩
    have closing {granted : Option DismissalAuthority}
        (closed : (if target.state ≠ .approved ∧ target.state ≠ .changesRequested then
            .error (.validation "dismissal target must be an explicit review verdict")
          else if (!countsHere reviews pr target.id) = true then
            .error (.conflict "dismissal target is not the reviewer's current-head verdict")
          else .ok granted : Except ForgeError (Option DismissalAuthority)) = .ok authority) :
        (target.state = .approved ∨ target.state = .changesRequested) ∧
          countsHere reviews pr target.id = true ∧ authority = granted := by
      split at closed
      · cases closed
      · next explicit =>
        split at closed
        · cases closed
        · next counts =>
          exact ⟨by simpa [or_iff_not_imp_left] using explicit, by simpa using counts,
            (Except.ok.inj closed).symm⟩
    simp only [bind, Except.bind, pure, Except.pure, throw, throwThe, MonadExceptOf.throw] at admitted
    by_cases own : target.author = author
    · rw [if_pos own] at admitted
      obtain ⟨verdict, counts, granted⟩ := closing admitted
      exact ⟨member, verdict, counts, .inl ⟨own, granted⟩⟩
    · rw [if_neg own] at admitted
      split at admitted
      · cases admitted
      · next authorized =>
        split at admitted
        · cases admitted
        · obtain ⟨verdict, counts, granted⟩ := closing admitted
          exact ⟨member, verdict, counts, .inr ⟨own, granted, authorized⟩⟩

theorem recordReviewLocked_effect {author : String} {request : CreateReviewRequest}
    {dismissedReviewId : Option Uuid} (coherent : core.state.Coherent core.uuids)
    (within : call.touches core.state (owner, repo))
    (dismisses : dismissedReviewId.isSome = true → call.Dismisses)
    (audited : call.Audited dismissalAuditAction .requested) :
    Effect call core
      ((recordReviewLocked owner repo number author request dismissedReviewId core).leaves core) := by
  refine Outcome.effect_told ?_ (recordReviewLocked_told audited)
  refine recordReviewLocked_commits fun pr authority audited found _ admitted => ?_
  refine .touches (touches_writeReview found within ⟨Nat.le_refl _, ?_⟩ (fun id target => ?_)
    (fun key rows stored row member => ?_) fun granted => dismisses ?_)
  · change core.uuids < core.uuids + (2 + request.comments.length)
    omega
  · cases target
    obtain ⟨row, same, known⟩ := admitDismissal_ok admitted
    cases found : core.state.reviews.lookup (owner, repo, number) with
    | none => simpa [found] using known.member
    | some rows => exact ⟨rows, row, found, by simpa [found] using known.member, same⟩
  · exact Nat.ne_of_lt ((coherent.identified.reviewIds key rows stored).1 row member)
  · cases dismissedReviewId with
    | none =>
      cases Except.ok.inj admitted
      cases granted
    | some targetId => rfl

end Reviews

section Relocation

/-- A move that goes through starts at a live repository and ends at a free slug. -/
theorem rekeyRepository_ok {s moved : State} {transfer : RepositoryTransferJournal} {now : DateTime}
    (rekeyed : rekeyRepository s transfer now = .ok moved) :
    ∃ repository, s.repos.lookup transfer.source = some repository ∧
      s.repos.lookup transfer.destination = none ∧
      s.repositoryAliases.lookup transfer.destination = none ∧
      repository.id = transfer.repositoryId ∧
      moved = s.rekeyed transfer.source transfer.destination
        (movedRepository transfer.destination now repository) := by
  unfold rekeyRepository at rekeyed
  dsimp only at rekeyed
  split at rekeyed
  · cases rekeyed
  · next free =>
    split at rekeyed
    · cases rekeyed
    · next repository found =>
      split at rekeyed
      · cases rekeyed
      · next same =>
        simp only [Bool.or_eq_true, not_or, Bool.not_eq_true, Option.isSome_eq_false_iff,
          Option.isNone_iff_eq_none] at free
        exact ⟨repository, found, free.1, free.2, not_not.mp same, (Except.ok.inj rekeyed).symm⟩

/-- `record_alias` after a move to a slug that is no alias any more. -/
theorem redirected_recordAlias {s t : State} {journal : RepositoryTransferJournal}
    {origin : RepositoryAliasOrigin} {now : DateTime}
    (different : journal.destination ≠ journal.source)
    (freed : ∀ slug, t.repositoryAliases.lookup slug =
      if slug = journal.destination then none else s.repositoryAliases.lookup slug) :
    s.Redirected journal.source journal.destination journal.repositoryId
      (recordAlias t journal origin now).repositoryAliases where
  left := lookup_recordAlias_source t journal origin now
  taken := by rw [lookup_recordAlias _ _ _ _ _ different, freed, if_pos rfl]; rfl
  others slug notSource notDestination := by
    rw [lookup_recordAlias _ _ _ _ _ notSource, freed, if_neg notDestination]

theorem writeRenameLocked_effect {old new : Slug} (shifts : call.Shifts) :
    Effect call core ((writeRenameLocked old new core).leaves core) := by
  apply Outcome.effect
  unfold writeRenameLocked
  dsimp only
  split
  · exact True.intro
  · next current found =>
    refine Outcome.alone_ite (fun _ => True.intro) fun _ => ?_
    refine Outcome.alone_ite (fun _ => True.intro) fun _ => ?_
    refine Outcome.alone_ite (fun _ => True.intro) fun _ => ?_
    refine Outcome.alone_ite (fun _ => True.intro) fun _ => ?_
    split
    · exact True.intro
    · next rekeyed moved =>
      split
      · exact True.intro
      · obtain ⟨repository, live, free, -, same, rfl⟩ := rekeyRepository_ok moved
        have live' : core.state.repos.lookup old = some repository := live
        have free' : core.state.repos.lookup new = none := free
        have own : repository.id = current.id := same
        refine .shift shifts (.relocated live' free' core.now ?_ _ _)
        rw [own]
        let journal := renameJournal old new current.id core.uuids core.now
        apply @redirected_recordAlias core.state _ journal
        · exact ne_of_lookup live' free'
        · exact fun slug => lookup_erase_if core.state.repositoryAliases new slug

theorem prepareTransferLocked_effect {request : PrepareRepositoryTransfer}
    (journals : call.Journals) :
    Effect call core ((prepareTransferLocked request core).leaves core) := by
  apply Outcome.effect
  unfold prepareTransferLocked
  dsimp only
  split
  · split <;> exact True.intro
  · split
    · exact True.intro
    · refine Outcome.alone_ite (fun _ => True.intro) fun _ => ?_
      refine Outcome.alone_ite (fun _ => True.intro) fun _ => ?_
      refine Outcome.alone_ite (fun _ => True.intro) fun _ => ?_
      exact .touches (.single (.journalled journals _))

theorem commitTransferLocked_effect {transactionId : Uuid} {receipt : Value} (shifts : call.Shifts) :
    Effect call core ((commitTransferLocked transactionId receipt core).leaves core) := by
  apply Outcome.effect
  unfold commitTransferLocked
  split
  · exact True.intro
  · split
    · exact True.intro
    · exact True.intro
    · split
      · exact True.intro
      · next rekeyed moved =>
        obtain ⟨repository, live, free, vacant, same, rfl⟩ := rekeyRepository_ok moved
        have redirected := @redirected_recordAlias core.state _ _ .transfer core.now
          (ne_of_lookup live free) fun slug => by
            split
            · next same => exact same ▸ vacant
            · rfl
        rw [← same] at redirected
        exact .shift shifts (.relocated live free core.now redirected _ _)

theorem failTransferLocked_effect {transactionId : Uuid} {reason : String}
    (journals : call.Journals) :
    Effect call core ((failTransferLocked transactionId reason core).leaves core) := by
  apply Outcome.effect
  unfold failTransferLocked
  split
  · exact True.intro
  · split
    · exact True.intro
    · split <;> exact True.intro
    · exact .touches (.single (.journalled journals _))

end Relocation

/-- Every section of every call writes within the footprint of the call. -/
theorem section_effect {core' : ForgeCore} {reply : Option call.Reply}
    (coherent : core.state.Coherent core.uuids) (sect : Section call core core' reply) :
    Effect call core core' := by
  cases sect with
  | audit entry audited => exact .logged audited
  | refused => exact .unchanged
  | profile profiled request => exact createUserLocked_effect request
  | createUser => exact createUserLocked_effect _
  | ensureUser request => exact createUserLocked_effect request
  | createOrganization => exact createOrganizationLocked_effect _
  | createAccount => exact createAccountLocked_effect ..
  | grantRepoAccess => exact grantRepoAccessLocked_effect True.intro rfl
  | grantRepoAccessChecked => exact grantRepoAccessLocked_effect True.intro rfl
  | revokeRepoAccess => exact revokeRepoAccessLocked_effect rfl
  | revokeRepoAccessChecked => exact revokeRepoAccessLocked_effect rfl
  | createRepository => exact createRepositoryLocked_effect _ True.intro
  | setRepositoryFamily trimmed => exact setFamilyLocked_effect trimmed
  | setRepositoryArchived => exact writeRepositoryArchived_effect _
  | setRepositoryDefaultBranch slug => exact setDefaultBranchLocked_effect _ True.intro id
  | setDefaultBranchProtectionOptOut => exact setOptOutLocked_effect _ True.intro id
  | recordRepositoryPush => exact recordPushLocked_effect _
  | backfillRepositoryPushedAt found => exact backfillLocked_effect found
  | deleteRepository => exact deleteRepositoryLocked_effect True.intro True.intro
  | createLabel => exact createLabelLocked_effect True.intro rfl
  | setBranchProtection now => exact setProtectionLocked_effect True.intro True.intro rfl ⟨now, rfl⟩
  | deleteBranchProtection slug =>
    exact deleteProtectionLocked_effect True.intro fun entry live unarchived => ⟨entry, live, unarchived⟩
  | rekeyEncodedBranchProtections plan =>
    exact rekeyEncodedLocked_effect True.intro fun _ entry live unarchived => ⟨entry, live, unarchived⟩
  | setCodeowners => exact setCodeownersLocked_effect True.intro rfl
  | createIssue => exact createIssueLocked_effect True.intro rfl
  | updateIssue => exact updateIssueLocked_effect rfl
  | addIssueComment => exact addIssueCommentLocked_effect rfl
  | createCommitStatus base now => exact createStatusLocked_effect True.intro rfl
  | createCheckRun => exact createCheckRunLocked_effect True.intro rfl
  | recordJankuraiScore record scope =>
    exact recordScoreLocked_effect True.intro (Prod.ext (scope _).1 (scope _).2)
  | createWebhook now => exact createWebhookLocked_effect True.intro rfl
  | setRepositoryReadme => exact setReadmeLocked_effect True.intro rfl
  | createDeployment => exact createDeploymentLocked_effect True.intro
  | createPullRequest => exact createPullLocked_effect coherent True.intro rfl
  | updatePullRequest => exact updatePullLocked_effect rfl fun pr found => ⟨found, rfl⟩
  | refreshForRef => exact refreshHeadsLocked_effect coherent.keyed rfl
  | refreshForRefWithDiff => exact refreshHeadsLocked_effect coherent.keyed rfl
  | refreshFromGit id named => exact refreshHeadsLocked_effect coherent.keyed named
  | retargetPullRequest => exact retargetLocked_effect
  | recordPullRequestBase => exact recordBaseLocked_effect rfl
  | finalizeMerge => exact finalizeLocked_effect rfl fun _ _ none => (nomatch none)
  | finalizeMergeWithOverride =>
    refine finalizeLocked_effect rfl fun granted pr given found unmerged => ?_
    cases given
    refine ⟨rfl, pr, found, unmerged, ?_⟩
    rw [lookup_recordMerge]
    exact lookup_insert_self ..
  | mergePullRequest => exact finalizeLocked_effect rfl fun _ _ none => (nomatch none)
  | createReview =>
    exact recordReviewLocked_effect coherent rfl (fun none => (nomatch none)) .createReview
  | dismissReview => exact recordReviewLocked_effect coherent rfl (fun _ => True.intro) .dismissReview
  | renameRepository => exact writeRenameLocked_effect True.intro
  | prepareRepositoryTransfer => exact prepareTransferLocked_effect True.intro
  | commitRepositoryTransfer => exact commitTransferLocked_effect True.intro
  | failRepositoryTransfer => exact failTransferLocked_effect True.intro

end Jeryu.Core
