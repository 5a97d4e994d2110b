import Jeryu.Core.LinearHistory
import Jeryu.Auth.Grounds

/-!
An archived repository is read-only. Every method that writes to one looks in a section of its own
whether it is archived, except for the refreshes of heads, which do not look, and the deletion of
a rule, which looks again as it writes.
-/

namespace Jeryu.Core

open KeyedMap HashMap LockProgram Method Auth

/-- The repository the name means, if there is one, is not archived. -/
def Unarchived (slug : Slug) (core : ForgeCore) : Prop :=
  ∀ repo, core.state.resolveRepository slug.1 slug.2 = some repo → repo.archived = false

/-- The repository whose archive flag the call looks at before the section it writes in. -/
def Call.looksAt : Call → Option Slug
  | .createPullRequest owner repo _ _ | .updatePullRequest owner repo _ _
  | .retargetPullRequest _ owner repo _ _ _ | .recordPullRequestBase _ owner repo _ _ _
  | .createReview owner repo _ _ _ | .dismissReview owner repo _ _ _
  | .finalizeMerge owner repo _ _ _ _ | .mergePullRequest owner repo _ _
  | .createCommitStatus owner repo _ _ _ | .createCheckRun owner repo _ => some (owner, repo)
  | .finalizeMergeWithOverride _ permit _ => some (permit.owner, permit.repo)
  | _ => none

def Call.archiveGrounds (call : Call) : List (ForgeCore → Prop) := call.looksAt.toList.map Unarchived

/-- The branch whose pull requests the call gives a new head, and its repository. -/
def Call.refreshes : Call → Option (Slug × String)
  | .refreshPullRequestHeadsForRef owner repo refName _
  | .refreshPullRequestHeadsForRefWithDiff owner repo refName _ _ _ => some ((owner, repo), refName)
  | .refreshPullRequestHeadsFromGit owner repo refName _ _ _ _ =>
    (repoId owner repo).toOption.map fun slug => (slug, refName)
  | _ => none

def Call.DeletesRule : Call → Prop
  | .deleteBranchProtection .. => True
  | _ => False

/-- The repository whose pull requests, reviews, statuses or check runs the call may change. -/
def Call.Changes (call : Call) (slug : Slug) : Prop :=
  call.looksAt = some slug ∨ ∃ refName, call.refreshes = some (slug, refName)

/-- The calls an archived repository refuses. -/
def Call.Refusable (call : Call) : Prop := (∃ slug, call.Changes slug) ∨ call.DeletesRule

/-- A refresh of heads finds its repository unarchived, or no open pull request to refresh. -/
def Call.SparesArchived (call : Call) (core : ForgeCore) : Prop :=
  ∀ slug refName, call.refreshes = some (slug, refName) →
    Unarchived slug core ∨ core.state.openPullsFrom slug.1 slug.2 refName = []

/-- The pull requests, reviews, statuses, check runs and rules of the repository are the same. -/
structure State.SameRecords (s s' : State) (slug : Slug) : Prop where
  pulls : ∀ n, s'.pulls.lookup (slug.1, slug.2, n) = s.pulls.lookup (slug.1, slug.2, n)
  reviews : ∀ n, s'.reviews.lookup (slug.1, slug.2, n) = s.reviews.lookup (slug.1, slug.2, n)
  statuses : ∀ sha, s'.statuses.lookup (slug.1, slug.2, sha) = s.statuses.lookup (slug.1, slug.2, sha)
  checkRuns : s'.checkRuns.lookup slug = s.checkRuns.lookup slug
  branchProtections : ∀ branch, s'.branchProtections.lookup (slug.1, slug.2, branch) =
    s.branchProtections.lookup (slug.1, slug.2, branch)

/-- What a section of a call that an archived repository refuses leaves alone. -/
structure LeavesArchived (call : Call) (core core' : ForgeCore) : Prop where
  records : ∀ slug repo, core.state.repos.lookup slug = some repo → repo.archived = true →
    core.state.SameRecords core'.state slug
  refused : ∀ slug repo, call.Changes slug → core.state.resolveRepository slug.1 slug.2 = some repo →
    repo.archived = true → core'.state = core.state
  deleted : call.DeletesRule → core'.state = core.state ∨ ∃ slug repo branch,
    core.state.repos.lookup slug = some repo ∧ repo.archived = false ∧
    core'.state = { core.state with
      branchProtections := core.state.branchProtections.erase (slug.1, slug.2, branch) }

section Records

variable {print : Footprint} {s s' last : State} {slug : Slug}

theorem State.SameRecords.refl (s : State) (slug : Slug) : s.SameRecords s slug :=
  ⟨fun _ => rfl, fun _ => rfl, fun _ => rfl, rfl, fun _ => rfl⟩

theorem State.SameRecords.trans (first : s.SameRecords s' slug) (second : s'.SameRecords last slug) :
    s.SameRecords last slug where
  pulls n := (second.pulls n).trans (first.pulls n)
  reviews n := (second.reviews n).trans (first.reviews n)
  statuses sha := (second.statuses sha).trans (first.statuses sha)
  checkRuns := second.checkRuns.trans first.checkRuns
  branchProtections branch := (second.branchProtections branch).trans (first.branchProtections branch)

/-- A record stored for another repository. -/
theorem lookup_insert_elsewhere {κ ν : Type} [DecidableEq κ] {m : HashMap (Scoped κ) ν} {key : Scoped κ}
    {value : ν} {rest : κ} (away : (key.1, key.2.1) ≠ slug) :
    (m.insert key value).lookup (slug.1, slug.2, rest) = m.lookup (slug.1, slug.2, rest) := by
  rw [lookup_insert_if, if_neg]
  rintro rfl
  exact away rfl

theorem Touch.sameRecords (touch : Touch print s s') (still : ¬print.rules)
    (elsewhere : ¬print.touches slug) : s.SameRecords s' slug := by
  have rules (branch : String) := congrArg (fun rules : HashMap (Scoped String) BranchProtectionRule =>
    rules.lookup (slug.1, slug.2, branch)) (touch.branchProtections still)
  have away {other : Slug} (within : print.touches other) : other ≠ slug := by
    rintro rfl
    exact elsewhere within
  cases touch with
  | defaultBranchSet found within branch now edited ruling => exact absurd ruling still
  | optOutSet found within optOut now edited free ruling => exact absurd ruling still
  | @issueOpened numbered issue may within next =>
    have counted : numbered = (s.nextRecordNumber issue.owner issue.repo).2 := by rw [next]
    subst counted
    exact ⟨fun _ => rfl, fun _ => rfl, fun _ => rfl, rfl, fun _ => rfl⟩
  | pullOpened pr own may within =>
    exact ⟨fun n => lookup_insert_elsewhere (away within), fun _ => rfl, fun _ => rfl, rfl, fun _ => rfl⟩
  | pullEdited found within =>
    exact ⟨fun n => lookup_insert_elsewhere (away within), fun _ => rfl, fun _ => rfl, rfl, fun _ => rfl⟩
  | pullUpdated found within =>
    exact ⟨fun n => lookup_insert_elsewhere (away within), fun _ => rfl, fun _ => rfl, rfl, fun _ => rfl⟩
  | pullMerged found within =>
    exact ⟨fun n => lookup_insert_elsewhere (away within), fun _ => rfl, fun _ => rfl, rfl, fun _ => rfl⟩
  | reviewed review found within =>
    exact ⟨fun _ => rfl, fun n => lookup_insert_elsewhere (away within), fun _ => rfl, rfl, fun _ => rfl⟩
  | statusPushed status may within =>
    exact ⟨fun _ => rfl, fun _ => rfl, fun sha => lookup_insert_elsewhere (away within), rfl, fun _ => rfl⟩
  | checkRunPushed run may within =>
    refine ⟨fun _ => rfl, fun _ => rfl, fun _ => rfl, ?_, fun _ => rfl⟩
    exact (lookup_insert_if _ _ _ _).trans (if_neg (away within).symm)
  | _ => exact ⟨fun _ => rfl, fun _ => rfl, fun _ => rfl, rfl, rules⟩

theorem Moves.sameRecords (moves : Moves print s s') (still : ¬print.rules) (settled : ¬print.shifts)
    (elsewhere : ¬print.touches slug) : s.SameRecords s' slug := by
  cases moves with
  | touches writes =>
    induction writes with
    | refl => exact .refl s slug
    | tail _ touch ih => exact ih.trans (touch.sameRecords still elsewhere)
  | shift may => exact absurd may settled

end Records

section Looking

variable {α β : Type} {I : ForgeCore → Prop} {owner repo : String} {number : Nat}

theorem ensureRepositoryWritable_finds :
    Finds I (Unarchived (owner, repo)) (ensureRepositoryWritable owner repo) := by
  unfold ensureRepositoryWritable
  refine finds_reading_bind fun core repository _ found => ?_
  by_cases archived : repository.archived = true
  · rw [if_pos archived]
    exact .inr (finds_throw _)
  · refine .inl fun stored there => ?_
    dsimp only at there
    rw [there] at found
    cases found
    simpa using archived

/-- A method that looks at the flag before anything else. -/
theorem looks_writable {rest : Unit → Method β} :
    Looks I (Unarchived (owner, repo)) (ensureRepositoryWritable owner repo >>= rest) :=
  ensureRepositoryWritable_finds.looks_bind
    (quiet_of_readOnly (@ensureRepositoryWritable_readOnly owner repo))

theorem recordReview_looksWritable {author : String} {request : CreateReviewRequest}
    {dismissedReviewId : Option Uuid} :
    Looks I (Unarchived (owner, repo))
      (recordReview owner repo number author request dismissedReviewId) := looks_writable

theorem finalizeMergeChecked_looks {binding : FinalizeBinding} {permit : Option MergeOverridePermit} :
    Looks I (Unarchived (owner, repo)) (finalizeMergeChecked owner repo number binding permit) :=
  looks_writable

theorem dismissReview_looksWritable {actor : String} {request : DismissReviewRequest} :
    Looks I (Unarchived (owner, repo)) (Core.dismissReview owner repo number actor request) := by
  unfold Core.dismissReview
  refine looks_unless (looks_unless (recordReview_looksWritable.inspect fun result => ?_))
  cases result with
  | ok review => exact writes_pure ()
  | error failure =>
    unfold auditRefusedDismissal
    refine (writes_reading _).bind fun author => writes_ite ?_ (writes_pure _)
    exact appendAuditWith_quiet.ignored

theorem finalizeMergeWithOverride_looks {permit : MergeOverridePermit} {mergeSha : String} :
    Looks I (Unarchived (permit.owner, permit.repo)) (Core.finalizeMergeWithOverride permit mergeSha) := by
  unfold Core.finalizeMergeWithOverride
  refine finalizeMergeChecked_looks.inspect fun result => ?_
  cases result with
  | ok merged => exact writes_pure ()
  | error failure => exact Writes.orIgnored appendAuditWith_quiet appendAuditWith_quiet

theorem recordPullRequestBase_looks {actor headSha baseSha : String} :
    Looks I (Unarchived (owner, repo))
      (Core.recordPullRequestBase actor owner repo number headSha baseSha) := by
  unfold Core.recordPullRequestBase
  refine looks_ofExcept_bind fun _ _ => looks_unless ?_
  exact looks_bind (quiet_of_readOnly (@ensureRepoExists_readOnly owner repo)) fun _ => looks_writable

theorem retargetPullRequest_looks {actor : String} {request : RetargetPullRequestRequest}
    {branches : RepoBranches} : Looks I (Unarchived (owner, repo))
      (Core.retargetPullRequest actor owner repo number request branches) := by
  unfold Core.retargetPullRequest
  refine looks_ofExcept_bind fun _ _ => looks_ofExcept_bind fun _ _ => ?_
  exact looks_unless (looks_unless (looks_unless looks_writable))

theorem createReview_looksWritable {author : String} {request : CreateReviewRequest} :
    Looks I (Unarchived (owner, repo)) (Core.createReview owner repo number author request) := by
  unfold Core.createReview
  exact looks_unless recordReview_looksWritable

theorem finalizeMerge_looks {mergeSha : String} {requestedSha : Option String} {base : MergeBase} :
    Looks I (Unarchived (owner, repo))
      (Core.finalizeMerge owner repo number mergeSha requestedSha base) := by
  unfold Core.finalizeMerge
  exact finalizeMergeChecked_looks

/-- Every call that is to look at the flag looks at it before it changes anything. -/
theorem call_looks {slug : Slug} (call : Call) (looked : call.looksAt = some slug) :
    Looks I (Unarchived slug) call.method := by
  cases call with
  | createPullRequest owner repo author request =>
    cases looked
    show Looks I _ (Core.createPullRequest owner repo author request)
    unfold Core.createPullRequest
    refine looks_ofExcept_bind fun _ _ => looks_ofExcept_bind fun _ _ => ?_
    exact looks_ofExcept_bind fun _ _ => looks_writable
  | updatePullRequest owner repo number request =>
    cases looked
    show Looks I _ (Core.updatePullRequest owner repo number request)
    unfold Core.updatePullRequest
    exact looks_writable
  | retargetPullRequest actor owner repo number request branches =>
    cases looked
    show Looks I _ (Core.retargetPullRequest actor owner repo number request branches)
    exact retargetPullRequest_looks
  | recordPullRequestBase actor owner repo number headSha baseSha =>
    cases looked
    show Looks I _ (Core.recordPullRequestBase actor owner repo number headSha baseSha)
    exact recordPullRequestBase_looks
  | createReview owner repo number author request =>
    cases looked
    show Looks I _ (Core.createReview owner repo number author request)
    exact createReview_looksWritable
  | dismissReview owner repo number actor request =>
    cases looked
    show Looks I _ (Core.dismissReview owner repo number actor request)
    exact dismissReview_looksWritable
  | finalizeMerge owner repo number mergeSha requestedSha base =>
    cases looked
    show Looks I _ (Core.finalizeMerge owner repo number mergeSha requestedSha base)
    exact finalizeMerge_looks
  | finalizeMergeWithOverride ticket permit mergeSha =>
    cases looked
    show Looks I _ (Core.finalizeMergeWithOverride permit mergeSha)
    exact finalizeMergeWithOverride_looks
  | mergePullRequest owner repo number sha =>
    cases looked
    show Looks I _ (Core.mergePullRequest owner repo number sha)
    unfold Core.mergePullRequest
    exact looks_writable
  | createCommitStatus owner repo sha creator request =>
    cases looked
    show Looks I _ (Core.createCommitStatus owner repo sha creator request)
    unfold Core.createCommitStatus
    exact looks_ofExcept_bind fun _ _ => looks_writable
  | createCheckRun owner repo request =>
    cases looked
    show Looks I _ (Core.createCheckRun owner repo request)
    unfold Core.createCheckRun
    exact looks_ofExcept_bind fun _ _ => looks_ofExcept_bind fun _ _ => looks_writable
  | _ => cases looked

end Looking

section Sections

variable {call : Call} {core core' : ForgeCore} {reply : Option call.Reply}

theorem resolves {slug : Slug} {repo : Repository} (live : core.state.repos.lookup slug = some repo) :
    core.state.resolveRepository slug.1 slug.2 = some repo := by
  unfold State.resolveRepository
  rw [show core.state.repos.lookup (slug.1, slug.2) = some repo from live]

theorem refreshHeadsLocked_idle {owner repo refName headSha : String} {evidence : HeadEvidence}
    (none : core.state.openPullsFrom owner repo refName = []) :
    ((refreshHeadsLocked owner repo refName headSha evidence core).leaves core).state = core.state := by
  unfold refreshHeadsLocked
  rw [none]
  rfl

/-- A refresh that finds no open pull request changes nothing. -/
theorem section_refreshes {slug : Slug} {refName : String} (sect : Section call core core' reply)
    (refreshes : call.refreshes = some (slug, refName))
    (none : core.state.openPullsFrom slug.1 slug.2 refName = []) : core'.state = core.state := by
  cases sect with
  | audit => rfl
  | refused => rfl
  | profile profiled => cases profiled <;> cases refreshes
  | refreshForRef =>
    cases refreshes
    exact refreshHeadsLocked_idle none
  | refreshForRefWithDiff =>
    cases refreshes
    exact refreshHeadsLocked_idle none
  | refreshFromGit id named =>
    change (repoId _ _).toOption.map _ = _ at refreshes
    rw [named] at refreshes
    cases refreshes
    exact refreshHeadsLocked_idle none
  | _ => cases refreshes

theorem deleteProtectionLocked_live (slug : Slug) (branch : String) :
    (deleteProtectionLocked slug.1 slug.2 branch core).Commits fun _ next _ =>
      ∃ repo, core.state.repos.lookup slug = some repo ∧ repo.archived = false ∧ next =
        { core.state with
          branchProtections := core.state.branchProtections.erase (slug.1, slug.2, branch) } := by
  unfold deleteProtectionLocked
  split
  · exact True.intro
  · next live found =>
    refine Outcome.commits_ite (fun _ => True.intro) fun unarchived => ?_
    refine Outcome.commits_ite (fun _ => True.intro) fun _ => ?_
    split
    · exact True.intro
    · exact ⟨live, found, by simpa using unarchived, rfl⟩

/-- A rule is deleted only where its repository is found unarchived as it is. -/
theorem section_deletes (sect : Section call core core' reply) (deletes : call.DeletesRule) :
    core'.state = core.state ∨ ∃ slug repo branch,
      core.state.repos.lookup slug = some repo ∧ repo.archived = false ∧
      core'.state = { core.state with
        branchProtections := core.state.branchProtections.erase (slug.1, slug.2, branch) } := by
  cases sect with
  | audit => exact .inl rfl
  | refused => exact .inl rfl
  | profile profiled => cases profiled <;> exact deletes.elim
  | @deleteBranchProtection _ _ _ branch _ _ slug =>
    rcases Outcome.leaves_state (deleteProtectionLocked_live slug branch) with
      same | ⟨draws, next, value, ⟨repo, live, unarchived, erased⟩, moved, -⟩
    · exact .inl same
    · exact .inr ⟨slug, repo, branch, live, unarchived, moved.trans erased⟩
  | _ => exact deletes.elim

/-- A call that changes the records of one repository writes to no other. -/
theorem Call.Changes.touches {s : State} {slug other : Slug} (changes : call.Changes slug)
    (touched : call.touches s other) : other = slug := by
  rcases changes with looked | ⟨refName, refreshed⟩
  · cases call with
    | createPullRequest | updatePullRequest | retargetPullRequest | recordPullRequestBase
    | createReview | dismissReview | finalizeMerge | finalizeMergeWithOverride | mergePullRequest
    | createCommitStatus | createCheckRun =>
      cases looked
      exact touched
    | _ => cases looked
  · cases call with
    | refreshPullRequestHeadsForRef | refreshPullRequestHeadsForRefWithDiff =>
      cases refreshed
      exact touched
    | refreshPullRequestHeadsFromGit owner repo =>
      have named : repoId owner repo = .ok other := touched
      have own : (repoId owner repo).toOption.map (fun slug => (slug, _)) = some (slug, refName) :=
        refreshed
      rw [named] at own
      cases own
      rfl
    | _ => cases refreshed

theorem Call.Changes.still {slug : Slug} (changes : call.Changes slug) : ¬call.Rules ∧ ¬call.Shifts := by
  rcases changes with looked | ⟨refName, refreshed⟩
  · cases call with
    | createPullRequest | updatePullRequest | retargetPullRequest | recordPullRequestBase
    | createReview | dismissReview | finalizeMerge | finalizeMergeWithOverride | mergePullRequest
    | createCommitStatus | createCheckRun => exact ⟨id, id⟩
    | _ => cases looked
  · cases call with
    | refreshPullRequestHeadsForRef | refreshPullRequestHeadsForRefWithDiff
    | refreshPullRequestHeadsFromGit => exact ⟨id, id⟩
    | _ => cases refreshed

/-- A section leaves the archived repositories alone if the call has found the one it changes
    unarchived, or has nothing to refresh in it. -/
theorem section_leavesArchived (coherent : core.Coherent) (sect : Section call core core' reply)
    (met : call.SparesArchived core) (refusable : call.Refusable)
    (found : core'.state ≠ core.state → ∀ slug, call.looksAt = some slug → Unarchived slug core) :
    LeavesArchived call core core' := by
  have refused (slug : Slug) (repo : Repository) (changes : call.Changes slug)
      (resolved : core.state.resolveRepository slug.1 slug.2 = some repo)
      (archived : repo.archived = true) : core'.state = core.state := by
    rcases changes with looked | ⟨refName, refreshed⟩
    · by_contra changed
      cases (found changed slug looked repo resolved).symm.trans archived
    · rcases met slug refName refreshed with unarchived | none
      · cases (unarchived repo resolved).symm.trans archived
      · exact section_refreshes sect refreshed none
  have deleted := section_deletes sect
  refine ⟨fun slug repo live archived => ?_, refused, deleted⟩
  rcases refusable with ⟨changed, changes⟩ | deletes
  · by_cases same : slug = changed
    · subst same
      rw [refused slug repo changes (resolves live) archived]
      exact .refl _ slug
    · refine (section_effect coherent sect).moves.sameRecords changes.still.1 changes.still.2 ?_
      exact fun touched => same (changes.touches touched)
  · rcases deleted deletes with same | ⟨other, found, branch, there, unarchived, erased⟩
    · rw [same]
      exact .refl _ slug
    · have away : other ≠ slug := by
        rintro rfl
        cases there.symm.trans live
        cases unarchived.symm.trans archived
      rw [erased]
      refine ⟨fun _ => rfl, fun _ => rfl, fun _ => rfl, rfl, fun rest => ?_⟩
      refine (lookup_erase_if ..).trans (if_neg fun same => away ?_)
      exact congrArg Scoped.slug same.symm

end Sections

section Runs

variable {start pool pool' : Pool} {call : Call} {reply : Option call.Reply}

/-- In runs that archive nothing under a call that has found it unarchived, and refresh no head of
    an archived repository, an archived repository is read-only. -/
theorem archived_read_only (initial : start.Initial)
    (run : HeedfulRun forge (Guarded Call.SparesArchived) (fun _ => True) Loud Call.archiveGrounds
      start pool) {i : Nat} (writes : pool.Writes i call reply pool')
    (met : call.SparesArchived pool.shared) (refusable : call.Refusable) :
    LeavesArchived call pool.shared pool'.shared := by
  have reachable : pool.ReachableWhen Call.SparesArchived := ⟨start, initial, run.run⟩
  have grounded : pool.Grounded (fun _ => True) Loud Call.archiveGrounds := by
    refine run.grounded (fun call g ground => ?_) (fun _ _ => True.intro) ?_
    · obtain ⟨slug, looked, rfl⟩ := List.mem_map.mp ground
      exact (call_looks call (Option.mem_toList.mp looked)).checks
    · rw [Config.Grounded, initial.2]
      exact fun _ member => nomatch member
  refine section_leavesArchived reachable.coherent (reachable.writes writes) met refusable ?_
  intro changed slug looked
  refine grounded.writes True.intro writes changed _ (List.mem_map_of_mem ?_)
  exact Option.mem_toList.mpr looked

end Runs

section Demo

def newRoot : Call := .createAccount "root" "correct horse battery" .admin (.ok "hash")

def archiveDemo : Call := .setRepositoryArchived "root" "acme" "demo" true

def deleteRelease : Call := .deleteBranchProtection "root" "acme" "demo" "release"

/-- The repository is archived between the look of the deletion and its write. -/
def archivedMeanwhile : List (Turn Call) :=
  [.alone newRoot, .alone .newDemo, .alone (.setBranchProtection "acme" "demo" "release" .default),
    .enter deleteRelease, .advance 3, .advance 3, .alone archiveDemo]

theorem archivedMeanwhile_heedful :
    HeedfulRun forge (Guarded Call.SparesArchived) (fun _ => True) Loud Call.archiveGrounds
      ⟨.durable, []⟩ (ForgeCore.durable.played archivedMeanwhile) := by
  apply HeedfulRun.of_groundless
  · apply play_run
    refine plays_of_calls (by decide) fun call member core slug refName refreshed => ?_
    simp only [archivedMeanwhile, Turn.call, List.filterMap, List.map_nil, List.nil_append,
      List.mem_cons, List.not_mem_nil, or_false] at member
    rcases member with rfl | rfl | rfl | rfl | rfl <;> cases refreshed
  · intro call member
    have calls : (ForgeCore.durable.played archivedMeanwhile).tasks.map Task.call =
        archivedMeanwhile.filterMap Turn.call := Config.play_calls
    rw [calls] at member
    simp only [archivedMeanwhile, Turn.call, List.filterMap, List.mem_cons, List.not_mem_nil,
      or_false] at member
    rcases member with rfl | rfl | rfl | rfl | rfl <;> rfl

def archivedDemo (s : State) : Bool := (s.repos.lookup ("acme", "demo")).any fun repo => repo.archived

theorem archived_read_only_demo :
    archivedDemo (ForgeCore.durable.played archivedMeanwhile).shared.state = true ∧
      LeavesArchived deleteRelease (ForgeCore.durable.played archivedMeanwhile).shared
        ((ForgeCore.durable.played archivedMeanwhile).turn forge (.advance 3)).shared := by
  have archived : archivedDemo (ForgeCore.durable.played archivedMeanwhile).shared.state = true := by
    decide +kernel
  have asked : ((ForgeCore.durable.played archivedMeanwhile).tasks.map Task.call)[3]? = some deleteRelease := by
    unfold ForgeCore.played
    rw [Config.play_calls]
    rfl
  obtain ⟨reply, writes⟩ : ∃ reply, (ForgeCore.durable.played archivedMeanwhile).Writes 3 deleteRelease reply
      ((ForgeCore.durable.played archivedMeanwhile).turn forge (.advance 3)) :=
    Config.call_writes asked (by decide +kernel)
  refine ⟨archived, archived_read_only ⟨rfl, rfl⟩ archivedMeanwhile_heedful writes ?_ (.inr True.intro)⟩
  exact fun _ _ refreshed => nomatch refreshed

def nextHead : String := "2222222222222222222222222222222222222222"

/-- A push to the branch of an open pull request of an archived repository. -/
def refreshArchived : Call := .refreshPullRequestHeadsForRef "acme" "demo" "feature" nextHead

def pulledThenArchived : List (Turn Call) :=
  [.alone newRoot, .alone .newDemo, .alone (.newPull "ada"), .alone archiveDemo,
    .enter refreshArchived, .advance 4]

def headOf (s : State) : Option String :=
  (s.pulls.lookup ("acme", "demo", 1)).map fun pr => pr.head.sha

/-- The refresh moves the head of the pull request. -/
theorem not_archived_read_only :
    ¬∀ (pool pool' : Pool) (call : Call) (i : Nat) (reply : Option call.Reply), pool.Reachable →
      pool.Writes i call reply pool' → call.Refusable → LeavesArchived call pool.shared pool'.shared := by
  intro readOnly
  have reachable : (ForgeCore.durable.played pulledThenArchived).Reachable := played_any rfl (by decide)
  have asked : ((ForgeCore.durable.played pulledThenArchived).tasks.map Task.call)[4]? =
      some refreshArchived := by
    unfold ForgeCore.played
    rw [Config.play_calls]
    rfl
  obtain ⟨reply, writes⟩ : ∃ reply, (ForgeCore.durable.played pulledThenArchived).Writes 4 refreshArchived
      reply ((ForgeCore.durable.played pulledThenArchived).turn forge (.advance 4)) :=
    Config.call_writes asked (by decide +kernel)
  have archived : archivedDemo (ForgeCore.durable.played pulledThenArchived).shared.state = true := by
    decide +kernel
  have before : headOf (ForgeCore.durable.played pulledThenArchived).shared.state = some Call.demoHead := by
    decide +kernel
  have after : headOf ((ForgeCore.durable.played pulledThenArchived).turn forge (.advance 4)).shared.state =
      some nextHead := by decide +kernel
  obtain ⟨repo, live, flag⟩ := (Option.any_eq_true _ _).mp archived
  have leaves := readOnly _ _ _ 4 reply reachable writes (.inl ⟨("acme", "demo"), .inr ⟨"feature", rfl⟩⟩)
  have same := (leaves.records ("acme", "demo") repo live flag).pulls 1
  rw [headOf, same] at after
  exact absurd (before.symm.trans after) (by decide)

end Demo

end Jeryu.Core
