import Jeryu.Core.MoveWhole
import Jeryu.Core.TerminalStates

/-!
A pull request is an issue: both are stored under one number. A merge is written to both. An
update of either is not written to the other, so they stay alike as long as no update changes
what they share.
-/

namespace Jeryu.Core

open KeyedMap HashMap LockProgram

/-- Merged or closed. -/
def PullRequestState.ended : PullRequestState → Bool
  | .merged | .closed => true
  | _ => false

structure Issue.Mirrors (issue : Issue) (pr : PullRequest) : Prop where
  closed : issue.state = .closed ↔ pr.state = .merged ∨ pr.state = .closed
  dated : issue.closedAt.isSome = true ↔ issue.state = .closed
  title : issue.title = pr.title
  body : issue.body = pr.body

/-- The two records under one number: an issue that carries the marker mirrors its pull
    request. -/
def Paired : Option PullRequest → Option Issue → Prop
  | some pr, some issue => issue.pullRequest.isSome = true → issue.Mirrors pr
  | some _, none => False
  | none, some issue => issue.pullRequest = none
  | none, none => True

/-- The update changes nothing the issue of the pull request shows as well. -/
structure UpdatePullRequestRequest.Leaves (request : UpdatePullRequestRequest) (pr : PullRequest) :
    Prop where
  title : ∀ title, request.title = some title → title = pr.title
  body : ∀ body, request.body = some body → pr.body = some body
  state : ∀ state, request.state = some state → state.ended = pr.state.ended
  draft : request.state = none → request.draft.isSome = true → pr.state.ended = false

structure UpdateIssueRequest.Leaves (request : UpdateIssueRequest) (issue : Issue) : Prop where
  title : ∀ title, request.title = some title → title = issue.title
  body : ∀ body, request.body = some body → issue.body = some body
  state : ∀ state, request.state = some state → state = issue.state

/-- An update of one of two records under one number leaves what they share. -/
def Call.LeavesPair (call : Call) (core : ForgeCore) : Prop :=
  match call with
  | .updatePullRequest owner repo number request => ∀ pr issue,
      core.state.pulls.lookup (owner, repo, number) = some pr →
      core.state.issues.lookup (owner, repo, number) = some issue →
      issue.pullRequest.isSome = true → request.Leaves pr
  | .updateIssue owner repo number request => ∀ pr issue,
      core.state.pulls.lookup (owner, repo, number) = some pr →
      core.state.issues.lookup (owner, repo, number) = some issue →
      issue.pullRequest.isSome = true → request.Leaves issue
  | _ => True

/-- What an issue mirrors of its pull request. -/
def PullRequest.face (pr : PullRequest) : String × Option String × Bool :=
  (pr.title, pr.body, pr.state.ended)

def Issue.face (issue : Issue) :
    String × Option String × IssueState × Option DateTime × Option PullRequestMarker :=
  (issue.title, issue.body, issue.state, issue.closedAt, issue.pullRequest)

section Faces

variable {pr pr' edited : PullRequest} {issue issue' : Issue}

theorem ended_iff (state : PullRequestState) : state.ended = true ↔ state = .merged ∨ state = .closed := by
  cases state <;> simp [PullRequestState.ended]

theorem Issue.Mirrors.faces (mirrors : issue.Mirrors pr) (pull : pr'.face = pr.face)
    (same : issue'.face = issue.face) : issue'.Mirrors pr' := by
  obtain ⟨title, body, ended⟩ : pr'.title = pr.title ∧ pr'.body = pr.body ∧
      pr'.state.ended = pr.state.ended := by simpa [PullRequest.face] using pull
  obtain ⟨title', body', state', closedAt', -⟩ : issue'.title = issue.title ∧
      issue'.body = issue.body ∧ issue'.state = issue.state ∧ issue'.closedAt = issue.closedAt ∧
      issue'.pullRequest = issue.pullRequest := by simpa [Issue.face] using same
  have closed := mirrors.closed
  rw [← ended_iff, ← ended, ended_iff] at closed
  exact
    { closed := by rw [state', closed]
      dated := by rw [closedAt', state', mirrors.dated]
      title := by rw [title', title, mirrors.title]
      body := by rw [body', body, mirrors.body] }

theorem Paired.faces {pull pull' : Option PullRequest} {row row' : Option Issue}
    (paired : Paired pull row) (pulls : pull'.map PullRequest.face = pull.map PullRequest.face)
    (issues : row'.map Issue.face = row.map Issue.face) : Paired pull' row' := by
  cases pull with
  | none =>
    obtain rfl : pull' = none := by simpa using pulls
    cases row with
    | none =>
      obtain rfl : row' = none := by simpa using issues
      exact True.intro
    | some issue =>
      obtain ⟨issue', rfl, same⟩ := Option.map_eq_some_iff.mp issues
      have marker : issue'.pullRequest = issue.pullRequest := by simp_all [Issue.face]
      exact marker.trans paired
  | some pr =>
    obtain ⟨pr', rfl, face⟩ := Option.map_eq_some_iff.mp pulls
    cases row with
    | none => exact paired.elim
    | some issue =>
      obtain ⟨issue', rfl, same⟩ := Option.map_eq_some_iff.mp issues
      intro marked
      have marker : issue'.pullRequest = issue.pullRequest := by simp_all [Issue.face]
      rw [marker] at marked
      exact (paired marked).faces face same

/-- A re-evaluation shows in none of what an issue mirrors. -/
theorem applyEvaluation_face (edited : PullRequest) (evaluation : BranchProtectionEvaluation) :
    (applyEvaluation edited evaluation).face = edited.face := by
  have state := applyEvaluation_state edited evaluation
  have ended : (applyEvaluation edited evaluation).state.ended = edited.state.ended := by
    rw [Bool.eq_iff_iff, ended_iff, ended_iff, state.1, state.2]
  have rest : (applyEvaluation edited evaluation).title = edited.title ∧
      (applyEvaluation edited evaluation).body = edited.body := by
    unfold applyEvaluation
    split
    · exact ⟨rfl, rfl⟩
    · split <;> exact ⟨rfl, rfl⟩
  unfold PullRequest.face
  rw [ended, rest.1, rest.2]

theorem UpdatePullRequestRequest.apply_title (request : UpdatePullRequestRequest) (pr : PullRequest)
    (now : DateTime) : (request.apply pr now).title = request.title.getD pr.title := by
  unfold UpdatePullRequestRequest.apply
  cases request.draft <;> cases request.state <;> rfl

theorem UpdatePullRequestRequest.apply_body (request : UpdatePullRequestRequest) (pr : PullRequest)
    (now : DateTime) : (request.apply pr now).body = request.body.or pr.body := by
  unfold UpdatePullRequestRequest.apply
  cases request.draft <;> cases request.state <;> rfl

/-- What an update writes of what a pull request shows as well. -/
theorem UpdateIssueRequest.apply_shown (request : UpdateIssueRequest) (issue : Issue) (now : DateTime) :
    (request.apply issue now).1.title = request.title.getD issue.title ∧
    (request.apply issue now).1.body = request.body.or issue.body ∧
    (request.apply issue now).1.state = request.state.getD issue.state ∧
    ((issue.closedAt.isSome = true ↔ issue.state = .closed) →
      ((request.apply issue now).1.closedAt.isSome = true ↔
        (request.apply issue now).1.state = .closed)) := by
  unfold UpdateIssueRequest.apply
  split
  · next asked => exact ⟨rfl, rfl, by rw [asked]; rfl, fun _ => by simp⟩
  · next asked => exact ⟨rfl, rfl, by rw [asked]; rfl, fun _ => by simp⟩
  · next asked => exact ⟨rfl, rfl, by rw [asked]; rfl, id⟩

theorem UpdatePullRequestRequest.Leaves.face {request : UpdatePullRequestRequest}
    (leaves : request.Leaves pr) (now : DateTime) : (request.apply pr now).face = pr.face := by
  have title : request.title.getD pr.title = pr.title := by
    cases asked : request.title with
    | none => rfl
    | some title => exact leaves.title title asked
  have body : request.body.or pr.body = pr.body := by
    cases asked : request.body with
    | none => rfl
    | some body => exact (leaves.body body asked).symm
  have ended : (request.apply pr now).state.ended = pr.state.ended := by
    rw [request.apply_state]
    cases asked : request.state with
    | some state => exact leaves.state state asked
    | none =>
      cases drafted : request.draft with
      | none => rfl
      | some draft =>
        have unended := leaves.draft asked (by rw [drafted]; rfl)
        rw [unended]
        cases draft <;> rfl
  unfold PullRequest.face
  rw [request.apply_title, request.apply_body, title, body, ended]

/-- The update of a pull request shows in its issue's mirror exactly where it changes what the
    two share. -/
theorem UpdatePullRequestRequest.leaves_iff (request : UpdatePullRequestRequest)
    (mirrors : issue.Mirrors pr) (now : DateTime) :
    issue.Mirrors (request.apply pr now) ↔ request.Leaves pr := by
  constructor
  · intro after
    have ended : (request.apply pr now).state.ended = pr.state.ended := by
      rw [Bool.eq_iff_iff, ended_iff, ended_iff, ← after.closed, ← mirrors.closed]
    have title := after.title.symm.trans mirrors.title
    have body := after.body.symm.trans mirrors.body
    rw [request.apply_title] at title
    rw [request.apply_body] at body
    rw [request.apply_state] at ended
    constructor
    · intro title' asked
      rwa [asked] at title
    · intro body' asked
      rw [asked] at body
      exact body.symm
    · intro state asked
      rwa [asked] at ended
    · intro unasked drafted
      obtain ⟨draft, given⟩ := Option.isSome_iff_exists.mp drafted
      rw [unasked, given] at ended
      rw [← ended]
      cases draft <;> rfl
  · intro leaves
    exact mirrors.faces (leaves.face now) rfl

theorem IssueState.eq_of_closed_iff {state state' : IssueState}
    (same : state = .closed ↔ state' = .closed) : state = state' := by
  cases state <;> cases state' <;> simp_all

/-- The same of the update of an issue. Where it is asked to stay closed, only its date is written
    anew. -/
theorem UpdateIssueRequest.leaves_iff (request : UpdateIssueRequest) (mirrors : issue.Mirrors pr)
    (now : DateTime) : (request.apply issue now).1.Mirrors pr ↔ request.Leaves issue := by
  obtain ⟨title, body, state, dated⟩ := request.apply_shown issue now
  constructor
  · intro after
    have title' := after.title.trans mirrors.title.symm
    have body' := after.body.trans mirrors.body.symm
    have state' := IssueState.eq_of_closed_iff (after.closed.trans mirrors.closed.symm)
    rw [title] at title'
    rw [body] at body'
    rw [state] at state'
    constructor
    · intro title asked
      rwa [asked] at title'
    · intro body asked
      rw [asked] at body'
      exact body'.symm
    · intro state asked
      rwa [asked] at state'
  · intro leaves
    have title' : request.title.getD issue.title = issue.title := by
      cases asked : request.title with
      | none => rfl
      | some title => exact leaves.title title asked
    have body' : request.body.or issue.body = issue.body := by
      cases asked : request.body with
      | none => rfl
      | some body => exact (leaves.body body asked).symm
    have state' : request.state.getD issue.state = issue.state := by
      cases asked : request.state with
      | none => rfl
      | some state => exact leaves.state state asked
    exact
      { closed := by rw [state, state', mirrors.closed]
        dated := dated mirrors.dated
        title := by rw [title, title', mirrors.title]
        body := by rw [body, body', mirrors.body] }

end Faces

/-- Under every number the two records belong together. -/
def State.OneRecord (s : State) : Prop :=
  ∀ key, Paired (s.pulls.lookup key) (s.issues.lookup key)

/-- Under every number the two records show what they showed. -/
def State.Steady (s s' : State) : Prop :=
  ∀ key, (s'.pulls.lookup key).map PullRequest.face = (s.pulls.lookup key).map PullRequest.face ∧
    (s'.issues.lookup key).map Issue.face = (s.issues.lookup key).map Issue.face

section Steady

variable {s s' last : State} {key : Scoped Nat} {pr edited : PullRequest} {issue edited' : Issue}

theorem State.Steady.same (pulls : s'.pulls = s.pulls) (issues : s'.issues = s.issues) :
    s.Steady s' := by
  intro key
  rw [pulls, issues]
  exact ⟨rfl, rfl⟩

theorem State.Steady.trans (first : s.Steady s') (second : s'.Steady last) : s.Steady last :=
  fun key => ⟨(second key).1.trans (first key).1, (second key).2.trans (first key).2⟩

theorem State.OneRecord.steady (one : s.OneRecord) (steady : s.Steady s') : s'.OneRecord :=
  fun key => (one key).faces (steady key).1 (steady key).2

theorem State.Steady.editPull (found : s.pulls.lookup key = some pr) (face : edited.face = pr.face)
    (pulls : s'.pulls = s.pulls.insert key edited) (issues : s'.issues = s.issues) : s.Steady s' := by
  intro other
  rw [pulls, issues, lookup_insert_if]
  refine ⟨?_, rfl⟩
  split
  · next here =>
    rw [here, found, Option.map_some, Option.map_some, face]
  · rfl

theorem State.Steady.editIssue (found : s.issues.lookup key = some issue)
    (face : edited'.face = issue.face) (pulls : s'.pulls = s.pulls)
    (issues : s'.issues = s.issues.insert key edited') : s.Steady s' := by
  intro other
  rw [pulls, issues, lookup_insert_if]
  refine ⟨rfl, ?_⟩
  split
  · next here =>
    rw [here, found, Option.map_some, Option.map_some, face]
  · rfl

theorem steady_reevaluate (s : State) (m : Bool) (key : Scoped Nat) : s.Steady (s.reevaluate m key) := by
  unfold State.reevaluate
  split
  · next pr found => exact .editPull found (applyEvaluation_face pr _) rfl rfl
  · exact .same rfl rfl

theorem steady_foldl {α : Type} {f : State → α → State} {items : List α}
    (each : ∀ (s : State) (item : α), s.Steady (f s item)) (s : State) : s.Steady (items.foldl f s) := by
  induction items generalizing s with
  | nil => exact .same rfl rfl
  | cons item rest ih => exact (each s item).trans (ih (f s item))

theorem steady_refresh (s : State) (m : Bool) (owner repo sha : String) :
    s.Steady (s.refreshPullMergeabilityForSha m owner repo sha) :=
  steady_foldl (fun s key => steady_reevaluate s m key) s

theorem steady_storeEdited {core : ForgeCore} (found : core.state.pulls.lookup key = some pr)
    (face : edited.face = pr.face) (action : String) :
    core.state.Steady (storeEdited core key action edited).2 :=
  .editPull found ((applyEvaluation_face edited _).trans face) rfl rfl

theorem steady_refreshHead {core : ForgeCore} {headSha : String} {evidence : HeadEvidence}
    (progress : State × List PullRequest) (key : Scoped Nat) :
    progress.1.Steady (refreshHead core headSha evidence progress key).1 := by
  unfold refreshHead
  split
  · exact .same rfl rfl
  · next pr found =>
    exact @steady_storeEdited key pr (evidence.apply headSha core.now pr)
      { core with state := progress.1 } found rfl "synchronize"

theorem steady_refreshHeads {core : ForgeCore} {headSha : String} {evidence : HeadEvidence}
    (keys : List (Scoped Nat)) (progress : State × List PullRequest) :
    progress.1.Steady (keys.foldl (refreshHead core headSha evidence) progress).1 := by
  induction keys generalizing progress with
  | nil => exact .same rfl rfl
  | cons key rest ih => exact (steady_refreshHead progress key).trans (ih _)

end Steady

section Aside

variable {print : Footprint} {s s' : State}

/-- Neither the pull requests nor the issues change. -/
def State.Aside (s s' : State) : Prop := s'.pulls = s.pulls ∧ s'.issues = s.issues

theorem Touch.aside (touch : Touch print s s') (untouched : ∀ slug, ¬print.touches slug) :
    s.Aside s' := by
  cases touch with
  | defaultBranchSet =>
    rw [State.ensureDefaultBranchProtection_eq]
    exact ⟨rfl, rfl⟩
  | optOutSet =>
    rw [State.withOptOut_eq]
    exact ⟨rfl, rfl⟩
  | issueOpened issue may within => exact absurd within (untouched _)
  | issueEdited found within => exact absurd within (untouched _)
  | pullOpened pr own may within => exact absurd within (untouched _)
  | pullEdited found within => exact absurd within (untouched _)
  | pullUpdated found within => exact absurd within (untouched _)
  | pullMerged found within => exact absurd within (untouched _)
  | _ => exact ⟨rfl, rfl⟩

theorem Moves.aside (moves : Moves print s s') (untouched : ∀ slug, ¬print.touches slug)
    (settled : ¬print.shifts) : s.Aside s' := by
  cases moves with
  | touches writes =>
    induction writes with
    | refl => exact ⟨rfl, rfl⟩
    | tail _ touch ih =>
      have one := touch.aside untouched
      exact ⟨one.1.trans ih.1, one.2.trans ih.2⟩
  | shift may moved => exact absurd may settled

theorem State.Aside.steady (aside : s.Aside s') : s.Steady s' := .same aside.1 aside.2

end Aside

section Locked

variable {core : ForgeCore} {owner repo : String} {number : Nat}

/-- A section that commits what keeps the records together leaves them together. -/
theorem Outcome.oneRecord {α : Type} {outcome : Outcome α} (one : core.state.OneRecord)
    (commits : outcome.Commits fun _ next _ => next.OneRecord) :
    (outcome.leaves core).state.OneRecord := by
  rcases Outcome.leaves_state commits with same | ⟨draws, next, value, known, moved, -⟩
  · rw [same]
    exact one
  · rw [moved]
    exact known

theorem Outcome.steady {α : Type} {outcome : Outcome α} (one : core.state.OneRecord)
    (commits : outcome.Commits fun _ next _ => core.state.Steady next) :
    (outcome.leaves core).state.OneRecord :=
  Outcome.oneRecord one (commits.mono fun _ _ _ steady => one.steady steady)

theorem deleteProtectionLocked_aside {branch : String} :
    (deleteProtectionLocked owner repo branch core).Commits fun _ next _ =>
      core.state.Steady next := by
  unfold deleteProtectionLocked
  split
  · exact True.intro
  · refine Outcome.commits_ite (fun _ => True.intro) fun _ => ?_
    refine Outcome.commits_ite (fun _ => True.intro) fun _ => ?_
    split
    · exact True.intro
    · exact .same rfl rfl

theorem steady_rekeyStep (progress : Rekeying) (step : PlannedRekey) :
    progress.state.Steady (rekeyStep progress step).state := by
  obtain ⟨state, report, changes⟩ := progress
  simp only [rekeyStep]
  split <;> exact .same rfl rfl

theorem rekeyEncodedLocked_aside {plan : List PlannedRekey} :
    (rekeyEncodedLocked plan core).Commits fun _ next _ => core.state.Steady next := by
  have steps (progress : Rekeying) :
      progress.state.Steady (plan.foldl rekeyStep progress).state := by
    induction plan generalizing progress with
    | nil => exact .same rfl rfl
    | cons step rest ih => exact (steady_rekeyStep progress step).trans (ih _)
  unfold rekeyEncodedLocked
  dsimp only
  split
  · exact True.intro
  · exact steps ⟨core.state, ⟨[], [], []⟩, []⟩

theorem setDefaultBranchLocked_aside {branch : String} :
    (setDefaultBranchLocked owner repo branch core).Commits fun _ next _ =>
      core.state.Steady next := by
  unfold setDefaultBranchLocked
  split
  · exact True.intro
  · rw [Outcome.commits_commit, State.ensureDefaultBranchProtection_eq]
    exact .same rfl rfl

theorem setOptOutLocked_aside {optOut : Bool} :
    (setOptOutLocked owner repo optOut core).Commits fun _ next _ => core.state.Steady next := by
  unfold setOptOutLocked
  refine Outcome.commits_ite (fun _ => True.intro) fun _ => ?_
  split
  · exact True.intro
  · refine Outcome.commits_ite (fun _ => True.intro) fun _ => ?_
    rw [Outcome.commits_commit, State.withOptOut_eq]
    exact .same rfl rfl

theorem createLabelLocked_aside {request : CreateLabelRequest} :
    (createLabelLocked owner repo request core).Commits fun _ next _ => core.state.Steady next := by
  unfold createLabelLocked
  dsimp only
  split
  · exact True.intro
  · exact .same rfl rfl

theorem retargetLocked_steady {actor base : String} {request : RetargetPullRequestRequest} :
    (retargetLocked actor owner repo number base request core).Commits fun _ next _ =>
      core.state.Steady next := by
  rcases retargetLocked_cases core actor owner repo base number request with
    ⟨error, refused⟩ | ⟨pr, found, receipt, action, moved⟩
  · rw [refused]
    exact True.intro
  · rw [moved, Outcome.commits_commit]
    refine steady_storeEdited found ?_ "edited"
    rfl

theorem recordBaseLocked_steady {headSha baseSha : String} :
    (recordBaseLocked owner repo number headSha baseSha core).Commits fun _ next _ =>
      core.state.Steady next := by
  unfold recordBaseLocked
  dsimp only
  split
  · exact True.intro
  · next pr found =>
    refine Outcome.commits_ite (fun _ => True.intro) fun _ => ?_
    refine Outcome.commits_ite (fun _ => True.intro) fun _ => ?_
    refine Outcome.commits_ite (fun _ => True.intro) fun _ => ?_
    refine steady_storeEdited found ?_ "edited"
    rfl

theorem refreshHeadsLocked_steady {refName headSha : String} {evidence : HeadEvidence} :
    (refreshHeadsLocked owner repo refName headSha evidence core).Commits fun _ next _ =>
      core.state.Steady next := by
  unfold refreshHeadsLocked
  dsimp only
  split
  · exact True.intro
  · exact steady_refreshHeads _ (core.state, [])

theorem addIssueCommentLocked_steady {author body : String} :
    (addIssueCommentLocked owner repo number author body core).Commits fun _ next _ =>
      core.state.Steady next := by
  unfold addIssueCommentLocked
  dsimp only
  split
  · exact True.intro
  · next issue found =>
    let edited : Issue := { issue with comments := issue.comments + 1, updatedAt := core.now }
    have face : edited.face = issue.face := rfl
    exact .editIssue found face rfl rfl

theorem writeReview_steady (review : Review) (comments : List ReviewCommentInput) :
    core.state.Steady (writeReview core review comments) := by
  unfold writeReview
  extract_lets key rows profiled written reevaluated
  have first : core.state.Steady written := by
    have frame : profiled = { core.state with users := profiled.users } := State.withProfile_eq ..
    have pulls : profiled.pulls = core.state.pulls := by rw [frame]
    have issues : profiled.issues = core.state.issues := by rw [frame]
    exact .same pulls issues
  have second : core.state.Steady reevaluated := first.trans (steady_reevaluate written _ key)
  exact second.trans (.same rfl rfl)

theorem recordReviewLocked_steady {author : String} {request : CreateReviewRequest}
    {dismissedReviewId : Option Uuid} :
    (recordReviewLocked owner repo number author request dismissedReviewId core).Commits
      fun _ next _ => core.state.Steady next :=
  recordReviewLocked_commits fun _ _ _ _ _ _ => writeReview_steady _ _

/-- A new issue is no pull request's, whatever was stored under its number. -/
theorem createIssueLocked_oneRecord {author : String} {request : CreateIssueRequest}
    (one : core.state.OneRecord) :
    (createIssueLocked owner repo author request core).Commits fun _ next _ => next.OneRecord := by
  intro key
  let number := (core.state.nextRecordNumber owner repo).1
  let issue := openedIssue owner repo author number core.uuids core.now request
  show Paired (core.state.pulls.lookup key)
    ((core.state.issues.insert (owner, repo, number) issue).lookup key)
  rw [lookup_insert_if]
  split
  · cases core.state.pulls.lookup key with
    | none => rfl
    | some pr => exact fun marked => Bool.noConfusion marked
  · exact one key

theorem createPullLocked_oneRecord {author : String} {request : CreatePullRequestRequest}
    (one : core.state.OneRecord) :
    (createPullLocked owner repo author request core).Commits fun _ next _ => next.OneRecord := by
  intro key
  let number := (core.state.nextRecordNumber owner repo).1
  let issue := backingIssue owner repo author number core.uuids core.now request
  let opened := openedPull owner repo author number (core.uuids + 1) core.now request
  let pr := applyEvaluation opened ((core.state.nextRecordNumber owner repo).2.evaluateLocked
    core.auditMergeEnforced opened none)
  show Paired ((core.state.pulls.insert (owner, repo, number) pr).lookup key)
    ((core.state.issues.insert (owner, repo, number) issue).lookup key)
  rw [lookup_insert_if, lookup_insert_if]
  split
  · intro marked
    have mirrors : issue.Mirrors opened := by
      refine ⟨?_, by simp [issue, backingIssue], rfl, rfl⟩
      show IssueState.opened = .closed ↔ _
      cases drafted : request.draft <;> simp [opened, openedPull, drafted]
    exact mirrors.faces (applyEvaluation_face opened _) rfl
  · exact one key

theorem updateIssueLocked_oneRecord {request : UpdateIssueRequest} (one : core.state.OneRecord)
    (met : Call.LeavesPair (.updateIssue owner repo number request) core) :
    (updateIssueLocked owner repo number request core).Commits fun _ next _ => next.OneRecord := by
  unfold updateIssueLocked
  split
  · exact True.intro
  · next issue found =>
    split
    · exact True.intro
    · intro key
      show Paired (core.state.pulls.lookup key) ((core.state.issues.insert (owner, repo, number)
        (request.apply issue core.now).1).lookup key)
      rw [lookup_insert_if]
      split
      · next here =>
        subst here
        have marker := (request.apply_key issue core.now).2.2
        have paired := one (owner, repo, number)
        rw [found] at paired
        cases stored : core.state.pulls.lookup (owner, repo, number) with
        | none =>
          rw [stored] at paired
          exact marker.trans paired
        | some pr =>
          rw [stored] at paired
          intro marked
          rw [marker] at marked
          exact (request.leaves_iff (paired marked) core.now).mpr (met pr issue stored found marked)
      · exact one key

theorem updatePullLocked_oneRecord {request : UpdatePullRequestRequest} (one : core.state.OneRecord)
    (met : Call.LeavesPair (.updatePullRequest owner repo number request) core) :
    (updatePullLocked owner repo number request core).Commits fun _ next _ => next.OneRecord := by
  unfold updatePullLocked
  dsimp only
  split
  · exact True.intro
  · next pr found =>
    intro key
    let evaluation := core.state.evaluateLocked core.auditMergeEnforced (request.apply pr core.now) none
    show Paired ((core.state.pulls.insert (owner, repo, number)
      (applyEvaluation (request.apply pr core.now) evaluation)).lookup key) (core.state.issues.lookup key)
    rw [lookup_insert_if]
    split
    · next here =>
      subst here
      have paired := one (owner, repo, number)
      rw [found] at paired
      cases stored : core.state.issues.lookup (owner, repo, number) with
      | none =>
        rw [stored] at paired
        exact paired.elim
      | some issue =>
        rw [stored] at paired
        intro marked
        have kept := (request.leaves_iff (paired marked) core.now).mpr (met pr issue found stored marked)
        exact kept.faces (applyEvaluation_face _ evaluation) rfl
    · exact one key

theorem closeIssue_issues {s : State} {key : Scoped Nat} {issue : Issue} {now : DateTime}
    (found : s.issues.lookup key = some issue) : (s.closeIssue key now).issues =
      s.issues.insert key { issue with state := .closed, closedAt := some now, updatedAt := now } := by
  unfold State.closeIssue
  rw [found]

/-- The merge is carried over to the issue. -/
theorem recordMerge_oneRecord {key : Scoped Nat} {pr : PullRequest} (one : core.state.OneRecord)
    (keyed : core.state.WellKeyed) (found : core.state.pulls.lookup key = some pr) (mergeSha : String) :
    (recordMerge core key pr mergeSha).OneRecord := by
  obtain ⟨own, issueNumber⟩ := keyed.pulls key pr found
  have here : (key.1, key.2.1, pr.issueNumber) = key := by
    rw [issueNumber, ← own]
    rfl
  have paired := one key
  rw [found] at paired
  cases stored : core.state.issues.lookup key with
  | none =>
    rw [stored] at paired
    exact paired.elim
  | some issue =>
    rw [stored] at paired
    let closed : Issue := { issue with
      state := .closed, closedAt := some core.now, updatedAt := core.now }
    have issues : (recordMerge core key pr mergeSha).issues = core.state.issues.insert key closed := by
      show (State.closeIssue { core.state with pulls := _ } (key.1, key.2.1, pr.issueNumber)
        core.now).issues = _
      rw [here]
      exact closeIssue_issues stored
    intro other
    rw [lookup_recordMerge, issues, lookup_insert_if, lookup_insert_if]
    split
    · intro marked
      have before := paired marked
      exact ⟨by simp [closed, mergedPull], by simp [closed], before.title, before.body⟩
    · exact one other

theorem finalizeLocked_oneRecord {binding : FinalizeBinding} {permit : Option MergeOverridePermit}
    (one : core.state.OneRecord) (keyed : core.state.WellKeyed) :
    (finalizeLocked owner repo number binding permit core).Commits fun _ next _ =>
      next.OneRecord := by
  rcases finalizeLocked_cases core owner repo number binding permit with
    ⟨error, refused⟩ | ⟨pr, message, found, merged, unchanged⟩ |
    ⟨pr, message, found, finalizable, recorded⟩
  · rw [refused]
    exact True.intro
  · rw [unchanged]
    exact True.intro
  · rw [recorded]
    exact recordMerge_oneRecord one keyed found binding.mergeSha

theorem createRepositoryLocked_aside {request : CreateRepositoryRequest} :
    (createRepositoryLocked owner request core).Commits fun _ next _ => core.state.Steady next := by
  unfold createRepositoryLocked
  dsimp only
  split
  · exact True.intro
  · rw [Outcome.commits_commit, State.ensureDefaultBranchProtection_eq]
    exact .same rfl rfl

theorem deleteRepositoryLocked_oneRecord (one : core.state.OneRecord) :
    (deleteRepositoryLocked owner repo core).Commits fun _ next _ => next.OneRecord := by
  unfold deleteRepositoryLocked
  split
  · exact True.intro
  · intro key
    show Paired ((drainScoped core.state.pulls owner repo).lookup key)
      ((drainScoped core.state.issues owner repo).lookup key)
    have pulls := lookup_drainScoped core.state.pulls (owner, repo) key
    have issues := lookup_drainScoped core.state.issues (owner, repo) key
    rw [pulls, issues]
    split
    · exact True.intro
    · exact one key

end Locked

section Relocated

variable {s : State} {old new : Slug}

theorem rekeyed_oneRecord (one : s.OneRecord) (different : new ≠ old) (repository : Repository) :
    (s.rekeyed old new repository).OneRecord := by
  intro key
  show Paired ((rekeyTriples s.pulls old new (movedPull old new)).lookup key)
    ((rekeyTriples s.issues old new fun issue : Issue =>
      { issue with owner := new.1, repo := new.2 }).lookup key)
  by_cases here : Scoped.slug key = new
  · rw [lookup_rekeyTriples different here, lookup_rekeyTriples different here]
    have arrives := one (movedKey old key)
    have stays := one key
    cases pull : s.pulls.lookup (movedKey old key) with
    | some pr =>
      rw [pull] at arrives
      cases row : s.issues.lookup (movedKey old key) with
      | none =>
        rw [row] at arrives
        exact arrives.elim
      | some issue =>
        rw [row] at arrives
        exact fun marked => (arrives marked).faces rfl rfl
    | none =>
      rw [pull] at arrives
      cases row : s.issues.lookup (movedKey old key) with
      | none => exact stays
      | some issue =>
        rw [row] at arrives
        -- A plain issue comes to lie over what was stored under its number.
        have plain : issue.pullRequest = none := arrives
        cases standing : s.pulls.lookup key with
        | none => exact plain
        | some pr => exact fun marked => absurd marked (by simp [plain])
  · have pulls := rekeyTriples_range s.pulls old new
    have issues := rekeyTriples_range s.issues old new
    unfold rekeyTriples
    by_cases there : Scoped.slug key = old
    · rw [pulls.lookup_old different there, issues.lookup_old different there]
      exact True.intro
    · rw [pulls.lookup_other there here, issues.lookup_other there here]
      exact one key

theorem Relocates.oneRecord {core core' : ForgeCore} (relocates : Relocates old new core core')
    (one : core.state.OneRecord) : core'.state.OneRecord := by
  obtain ⟨repo, found, free, aliases, transfers, deployments, moved⟩ := relocates
  rw [moved]
  exact rekeyed_oneRecord one (ne_of_lookup found free) (movedRepository new core.now repo)

end Relocated

section Runs

variable {call : Call} {core core' : ForgeCore} {pool : Pool}

theorem Effect.aside (effect : Effect call core core')
    (untouched : ∀ slug, ¬call.touches core.state slug) (settled : ¬call.Shifts) :
    core.state.Aside core'.state :=
  effect.moves.aside untouched settled

/-- A profile is of no repository. -/
theorem createUserLocked_aside (request : CreateUserRequest) :
    core.state.Aside ((createUserLocked request core).leaves core).state := by
  have effect : Effect (.createUser request) core ((createUserLocked request core).leaves core) :=
    createUserLocked_effect request
  exact effect.aside (fun _ touched => touched) fun shifts => shifts

theorem section_oneRecord {reply : Option call.Reply} (coherent : core.Coherent)
    (sect : Section call core core' reply) (met : call.LeavesPair core) (one : core.state.OneRecord) :
    core'.state.OneRecord := by
  have effect := section_effect coherent sect
  by_cases untouched : (∀ slug, ¬call.touches core.state slug) ∧ ¬call.Shifts
  · exact one.steady (effect.aside untouched.1 untouched.2).steady
  · cases sect with
    | audit => exact one
    | refused => exact one
    | profile profiled request => exact one.steady (createUserLocked_aside request).steady
    | grantRepoAccess => exact Outcome.steady one (.same rfl rfl)
    | grantRepoAccessChecked => exact Outcome.steady one (.same rfl rfl)
    | revokeRepoAccess => exact Outcome.steady one (.same rfl rfl)
    | revokeRepoAccessChecked => exact Outcome.steady one (.same rfl rfl)
    | createLabel => exact Outcome.steady one createLabelLocked_aside
    | setBranchProtection => exact Outcome.steady one (.same rfl rfl)
    | deleteBranchProtection => exact Outcome.steady one deleteProtectionLocked_aside
    | rekeyEncodedBranchProtections => exact Outcome.steady one rekeyEncodedLocked_aside
    | setRepositoryDefaultBranch => exact Outcome.steady one setDefaultBranchLocked_aside
    | setDefaultBranchProtectionOptOut => exact Outcome.steady one setOptOutLocked_aside
    | setCodeowners => exact Outcome.steady one (.same rfl rfl)
    | recordJankuraiScore => exact Outcome.steady one (.same rfl rfl)
    | createWebhook => exact Outcome.steady one (.same rfl rfl)
    | setRepositoryReadme => exact Outcome.steady one (.same rfl rfl)
    | createCommitStatus =>
      refine Outcome.steady one (State.Steady.trans ?_ (steady_refresh _ _ _ _ _))
      exact .same rfl rfl
    | createCheckRun =>
      refine Outcome.steady one (State.Steady.trans ?_ (steady_refresh _ _ _ _ _))
      exact .same rfl rfl
    | createReview => exact Outcome.steady one recordReviewLocked_steady
    | dismissReview => exact Outcome.steady one recordReviewLocked_steady
    | refreshForRef => exact Outcome.steady one refreshHeadsLocked_steady
    | refreshForRefWithDiff => exact Outcome.steady one refreshHeadsLocked_steady
    | refreshFromGit => exact Outcome.steady one refreshHeadsLocked_steady
    | retargetPullRequest => exact Outcome.steady one retargetLocked_steady
    | recordPullRequestBase => exact Outcome.steady one recordBaseLocked_steady
    | addIssueComment => exact Outcome.steady one addIssueCommentLocked_steady
    | createIssue => exact Outcome.oneRecord one (createIssueLocked_oneRecord one)
    | updateIssue => exact Outcome.oneRecord one (updateIssueLocked_oneRecord one met)
    | createPullRequest => exact Outcome.oneRecord one (createPullLocked_oneRecord one)
    | updatePullRequest => exact Outcome.oneRecord one (updatePullLocked_oneRecord one met)
    | finalizeMerge => exact Outcome.oneRecord one (finalizeLocked_oneRecord one coherent.keyed)
    | finalizeMergeWithOverride =>
      exact Outcome.oneRecord one (finalizeLocked_oneRecord one coherent.keyed)
    | mergePullRequest => exact Outcome.oneRecord one (finalizeLocked_oneRecord one coherent.keyed)
    | createRepository => exact Outcome.steady one createRepositoryLocked_aside
    | deleteRepository => exact Outcome.oneRecord one (deleteRepositoryLocked_oneRecord one)
    | renameRepository =>
      rcases writeRenameLocked_relocates _ _ core with same | relocates
      · rw [same]
        exact one
      · exact relocates.oneRecord one
    | commitRepositoryTransfer =>
      rcases commitTransferLocked_moved _ _ core with same | ⟨key, journal, -, relocates⟩
      · rw [same]
        exact one
      · exact relocates.oneRecord one
    | _ => exact absurd ⟨fun _ touched => touched, fun shifts => shifts⟩ untouched

theorem Pool.ReachableWhen.oneRecord (reachable : pool.ReachableWhen Call.LeavesPair) :
    pool.shared.state.OneRecord := by
  refine reachable.invariant (I := fun core => core.state.OneRecord) (fun core empty key => ?_)
    (fun core core' one ambient => ?_) fun call core core' reply coherent one met sect _ => ?_
  · rw [empty]
    exact True.intro
  · obtain ⟨users, accounts, bots, botRepoGrants, organizations, auth, same⟩ := ambient.state
    rw [same]
    exact one
  · exact section_oneRecord coherent sect met one

end Runs

/-- Every pull request has its issue, which, where it carries the marker, mirrors it. -/
def State.Mirrored (s : State) : Prop :=
  s.pulls.Every fun key pr => ∃ issue, s.issues.lookup key = some issue ∧
    (issue.pullRequest.isSome = true → issue.Mirrors pr)

theorem pulls_mirrored {pool : Pool} (reachable : pool.ReachableWhen Call.LeavesPair) :
    pool.shared.state.Mirrored := by
  intro key pr found
  have paired := reachable.oneRecord key
  rw [found] at paired
  cases stored : pool.shared.state.issues.lookup key with
  | none =>
    rw [stored] at paired
    exact paired.elim
  | some issue =>
    rw [stored] at paired
    exact ⟨issue, rfl, paired⟩

/-- A pull request whose issue is labelled, and which is merged then. -/
def labelledMerge : List Call :=
  [.newDemo, .newPull "alice",
    .updateIssue "acme" "demo" 1
      { title := none, body := none, state := none, labels := some ["parser"], assignees := none
        milestone := none },
    .mergePullRequest "acme" "demo" 1 none]

theorem pulls_mirrored_demo :
    (ForgeCore.inMemory.played (labelledMerge.map .alone)).shared.state.Mirrored := by
  refine pulls_mirrored (played_reachable rfl (plays_alone (by decide) fun call member core => ?_))
  rcases List.mem_cons.mp member with rfl | member
  · exact True.intro
  · rcases List.mem_cons.mp member with rfl | member
    · exact True.intro
    · rcases List.mem_pair.mp member with rfl | rfl
      · exact fun pr issue _ _ _ => by constructor <;> exact fun _ asked => nomatch asked
      · exact True.intro

/-- A pull request closed by an update of its own. -/
def closedByUpdate : List (Turn Call) :=
  [.alone .newDemo, .alone (.newPull "alice"),
    .alone (.updatePullRequest "acme" "demo" 1
      { title := none, body := none, state := some .closed, draft := none, commits := none
        changedFiles := none })]

/-- The pull request is closed, and its issue stays open. -/
theorem not_pulls_mirrored : ¬∀ pool : Pool, pool.Reachable → pool.shared.state.Mirrored := by
  intro mirrored
  have reachable : (ForgeCore.inMemory.played closedByUpdate).Reachable := played_any rfl (by decide)
  have closed : ((ForgeCore.inMemory.played closedByUpdate).shared.state.pulls.lookup
      ("acme", "demo", 1)).any (fun pr => decide (pr.state = .closed)) = true := by decide +kernel
  have standing : ((ForgeCore.inMemory.played closedByUpdate).shared.state.issues.lookup
      ("acme", "demo", 1)).all (fun issue =>
        issue.pullRequest.isSome && decide (issue.state = .opened)) = true := by decide +kernel
  obtain ⟨pr, found, ended⟩ := (Option.any_eq_true _ _).mp closed
  obtain ⟨issue, stored, mirrors⟩ := mirrored _ reachable _ pr found
  rw [stored] at standing
  simp only [Option.all_some, Bool.and_eq_true, decide_eq_true_eq] at standing ended
  have shut := (mirrors standing.1).closed.mpr (.inr ended)
  rw [standing.2] at shut
  cases shut

end Jeryu.Core
