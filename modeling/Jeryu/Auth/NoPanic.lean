import Jeryu.Auth.Requests
import Jeryu.Core.Numbering

namespace Jeryu.Auth

open Jeryu.Core KeyedMap LockProgram Method

section Answers

variable {owner repo : String}

theorem ensureRepositoryWritable_calm : Calm (ensureRepositoryWritable owner repo) :=
  (calm_reading _).bind fun _ => calm_ite (calm_throw _) (calm_pure _)

theorem ensureRepoExists_calm : Calm (ensureRepoExists owner repo) :=
  (calm_reading _).bind fun _ => calm_pure _

theorem recordReview_calm (number : Nat) (author : String) (request : CreateReviewRequest)
    (dismissedReviewId : Option Uuid) : Calm (recordReview owner repo number author request dismissedReviewId) := by
  unfold recordReview
  refine ensureRepositoryWritable_calm.bind fun _ => (calm_ofExcept _).bind fun _ => ?_
  refine (calm_locked _).bind fun stored => ?_
  obtain ⟨review, audited⟩ := stored
  exact calm_ite ((appendAuditWith_calm ..).ignored.bind fun _ => calm_pure _) (calm_pure _)

theorem createReview_calm (number : Nat) (author : String) (request : CreateReviewRequest) :
    Calm (createReview owner repo number author request) := by
  unfold createReview
  exact calm_unless (recordReview_calm ..)

theorem dismissReview_calm (number : Nat) (actor : String) (request : DismissReviewRequest) :
    Calm (dismissReview owner repo number actor request) := by
  unfold dismissReview
  refine calm_unless (calm_unless ((recordReview_calm ..).inspect fun result => ?_))
  cases result with
  | ok review => exact calm_pure ()
  | error failure =>
    unfold auditRefusedDismissal
    exact (calm_reading _).bind fun author => calm_ite (appendAuditWith_calm ..).ignored (calm_pure _)

theorem createCheckRun_calm (request : CreateCheckRunRequest) : Calm (createCheckRun owner repo request) := by
  unfold createCheckRun
  refine (calm_ofExcept _).bind fun _ => (calm_ofExcept _).bind fun _ => ?_
  exact ensureRepositoryWritable_calm.bind fun _ => calm_locked _

/-- Taken with care, the method does not panic. -/
structure Sure {α : Type} (careful : Program ForgeCore (Except Failure α) → ForgeCore → Prop)
    (method : Method α) : Prop where
  behaves : ∀ seen, method.run.Behaves Lasting careful Unpanicked seen

/-- What care there is at a call's lookup of a user and at the creation. -/
structure Heeded {α : Type} (careful : Program ForgeCore (Except Failure α) → ForgeCore → Prop)
    (stage : Profiling α) : Prop where
  named : ∀ core, careful stage.looks.run core → core.state.users.lookup stage.login = none →
    Text.isBlank stage.login = false
  creatable : ∀ core, careful stage.creates.run core → CanCreate stage.login core

section Care

variable {α β : Type} {careful : Program ForgeCore (Except Failure α) → ForgeCore → Prop}

theorem Calm.sure {method : Method α} (calm : Calm method) : Sure careful method :=
  ⟨fun seen => (calm.calm seen).behaves⟩

/-- No care is needed before the part that needs it. -/
theorem Calm.sure_bind {method : Method β} {rest : β → Method α} (calm : Calm method)
    (sure : ∀ b, Sure careful (rest b)) : Sure careful (method >>= rest) := by
  refine ⟨fun seen => ?_⟩
  rw [bind_run]
  refine (calm.calm seen).behaves_bind fun result core known => ?_
  cases result with
  | ok b => exact (sure b).behaves core
  | error failure => exact fun message same => known message (congrArg _ (Except.error.inj same))

theorem Heeded.sure {login : String} {after : User → Method α}
    (heeded : Heeded careful (profiledThen login after)) (calm : ∀ user, Calm (after user)) :
    Sure careful (ensureUser login >>= after) :=
  ⟨profiled_behaves calm heeded.named heeded.creatable⟩

end Care

theorem createIssue_sure {careful : Program ForgeCore (Except Failure Issue) → ForgeCore → Prop}
    {author : String} {request : CreateIssueRequest}
    (heeded : Heeded careful
      (profiledThen author fun _ => .locked (createIssueLocked owner repo author request))) :
    Sure careful (Core.createIssue owner repo author request) := by
  unfold Core.createIssue
  refine (calm_ofExcept _).sure_bind fun _ => ensureRepoExists_calm.sure_bind fun _ => ?_
  exact heeded.sure fun _ => calm_locked _

theorem addIssueComment_sure
    {careful : Program ForgeCore (Except Failure IssueComment) → ForgeCore → Prop} {number : Nat}
    {author body : String}
    (heeded : Heeded careful
      (profiledThen author fun _ => .locked (addIssueCommentLocked owner repo number author body))) :
    Sure careful (Core.addIssueComment owner repo number author body) := by
  unfold Core.addIssueComment
  exact (calm_ofExcept _).sure_bind fun _ => heeded.sure fun _ => calm_locked _

theorem createPullRequest_sure
    {careful : Program ForgeCore (Except Failure PullRequest) → ForgeCore → Prop} {author : String}
    {request : CreatePullRequestRequest}
    (heeded : Heeded careful
      (profiledThen author fun _ => .locked (createPullLocked owner repo author request))) :
    Sure careful (Core.createPullRequest owner repo author request) := by
  unfold Core.createPullRequest
  refine (calm_ofExcept _).sure_bind fun _ => (calm_ofExcept _).sure_bind fun _ => ?_
  refine (calm_ofExcept _).sure_bind fun _ => ensureRepositoryWritable_calm.sure_bind fun _ => ?_
  exact heeded.sure fun _ => calm_locked _

theorem createCommitStatus_sure
    {careful : Program ForgeCore (Except Failure CommitStatus) → ForgeCore → Prop} {sha creator : String}
    {request : CreateCommitStatusRequest}
    (heeded : Heeded careful (profiledThen creator fun _ => utcNow >>= fun now =>
      .locked (createStatusLocked owner repo sha creator request
        ((request.base.map normalizeBaseRef).filter (· != "")) now))) :
    Sure careful (Core.createCommitStatus owner repo sha creator request) := by
  unfold Core.createCommitStatus
  refine (calm_ofExcept _).sure_bind fun _ => ensureRepositoryWritable_calm.sure_bind fun _ => ?_
  exact heeded.sure fun _ => (calm_reading _).bind fun now => calm_locked _

theorem ensureUser_sure {careful : Program ForgeCore (Except Failure User) → ForgeCore → Prop}
    {login : String} (heeded : Heeded careful ⟨login, ensureUser login, newProfile login⟩) :
    Sure careful (ensureUser login) := by
  have ends (user : User) (core : ForgeCore) :
      (Program.done (.ok user)).EndsFrom Lasting (fun _ result => Unpanicked result) core := unpanicked_ok user
  refine ⟨fun seen => ?_⟩
  rw [← Program.bind_done (ExceptT.run (ensureUser login))]
  refine ensureUser_behaves ends (fun core care => heeded.named core ?_)
    (fun core care => heeded.creatable core ?_) seen
  · rwa [Program.bind_done] at care
  · rwa [Program.bind_done] at care

theorem heeded {request : Request} {stage : Profiling request.Answer}
    (profiles : request.profiling = some stage) : Heeded request.Careful stage :=
  ⟨fun _ care => care.named stage profiles rfl, fun _ care => care.creatable stage profiles rfl⟩

/-- A call taken with care answers, and does not panic. -/
theorem request_sure (request : Request) : Sure request.Careful request.method := by
  cases request with
  | account call =>
    by_cases ensures : ∃ login, call = .ensureUser login
    · obtain ⟨login, rfl⟩ := ensures
      have care := @heeded (.account (.ensureUser login)) _ rfl
      exact ensureUser_sure care
    · exact (account_calm call fun login same => ensures ⟨login, same⟩).sure
  | updateIssue owner repo number request => exact Calm.sure (calm_locked _)
  | createReview owner repo number author request =>
    have calm := @createReview_calm owner repo number author request
    exact calm.sure
  | dismissReview owner repo number actor request =>
    have calm := @dismissReview_calm owner repo number actor request
    exact calm.sure
  | createCheckRun owner repo request =>
    have calm := @createCheckRun_calm owner repo request
    exact calm.sure
  | createIssue owner repo author request =>
    have care := @heeded (.createIssue owner repo author request) _ rfl
    exact createIssue_sure care
  | addIssueComment owner repo number author body =>
    have care := @heeded (.addIssueComment owner repo number author body) _ rfl
    exact addIssueComment_sure care
  | createPullRequest owner repo author request =>
    have care := @heeded (.createPullRequest owner repo author request) _ rfl
    exact createPullRequest_sure care
  | createCommitStatus owner repo sha creator request =>
    have care := @heeded (.createCommitStatus owner repo sha creator request) _ rfl
    exact createCommitStatus_sure care

end Answers

end Jeryu.Auth
