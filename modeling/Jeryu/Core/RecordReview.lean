import Jeryu.Core.MergeOverrides

namespace Jeryu.Core

open KeyedMap Text

/-- The rules for withdrawing another reviewer's verdict. -/
def authorizeCrossAuthorDismissal (state : State) (pr : PullRequest) (reviews : List Review)
    (actor : String) : Except ForgeError Unit :=
  if !state.isHumanRepoAdmin actor pr.owner pr.repo then
    .error (.forbidden "dismissing another reviewer requires an active repository administrator")
  else match (state.branchProtections.lookup (pr.owner, pr.repo, pr.base.refName)).filter
      fun rule => rule.allowAdminReviewDismissal with
    | none =>
      .error (.forbidden
        "dismissing another reviewer requires explicit allow_admin_review_dismissal=true")
    | some protection =>
      if protection.enforceAdmins then
        .error (.forbidden
          "dismissing another reviewer is unavailable while the branch enforces administrators")
      else if eqIgnoreAsciiCase pr.author actor then
        .error (.forbidden "a pull request author cannot dismiss another reviewer's verdict on it")
      -- Separation of duties: no approval of the administrator may stand, at any head.
      else if reviews.any fun review => review.state = .approved &&
          eqIgnoreAsciiCase review.author actor && !(withdrawnVerdicts reviews).contains review.id then
        .error (.forbidden
          "an administrator with a standing approval cannot dismiss another reviewer's verdict")
      else .ok ()

/-- Whether the verdict counts at the pull request's head, written there or carried over an
    unchanged diff. -/
def countsHere (reviews : List Review) (pr : PullRequest) (targetId : Uuid) : Bool :=
  (effectiveReviewsForHead reviews pr.head.sha).any (·.id == targetId) ||
    (effectiveReviewsForPullRequestWith reviews pr .unchangedDiff).any (·.id == targetId)

/-- The authority a dismissal row records, once the dismissal is found admissible. -/
def admitDismissal (core : ForgeCore) (pr : PullRequest) (reviews : List Review) (author : String)
    (subject : String) (targetId : Uuid) : Except ForgeError (Option DismissalAuthority) :=
  match reviews.find? fun review => review.id == targetId with
  | none => .error (.notFound s!"review {targetId} in {subject}")
  | some target => do
    let authority ←
      if target.author = author then pure none
      else do
        authorizeCrossAuthorDismissal core.state pr reviews author
        if core.storage.isNone then
          throw (.validation "dismissing another reviewer requires durable audit storage")
        pure (some DismissalAuthority.repositoryAdmin)
    if target.state ≠ .approved ∧ target.state ≠ .changesRequested then
      throw (.validation "dismissal target must be an explicit review verdict")
    if !countsHere reviews pr targetId then
      throw (.conflict "dismissal target is not the reviewer's current-head verdict")
    pure authority

/-- Why a review of the pull request is refused before any dismissal rule is asked. -/
def admitReview (pr : PullRequest) (reviews : List Review) (author subject : String)
    (request : CreateReviewRequest) : Except ForgeError Unit :=
  if request.event = .approved && eqIgnoreAsciiCase pr.author author then
    .error (.forbidden "pull request authors cannot approve their own changes")
  else if request.event = .approved && reviews.any fun review =>
      eqIgnoreAsciiCase review.author author && isCrossAuthorDismissal reviews review then
    .error (.forbidden
      "an administrator who dismissed another reviewer's verdict cannot approve this pull request")
  else if request.expectedHeadSha.any (· != pr.head.sha) then
    .error (.conflict s!"pull request {subject} head changed")
  else .ok ()

/-- The profile a trusted caller's review leaves behind. -/
def State.withProfile (state : State) (login : String) (id : Uuid) (now : DateTime) : State :=
  if (state.users.lookup login).isSome then state
  else { state with
    users := state.users.insert login { id, login, name := none, email := none, createdAt := now } }

def reviewComment (owner repo : String) (number : Nat) (author : String) (reviewId id : Uuid)
    (now : DateTime) (comment : ReviewCommentInput) : ReviewComment :=
  { id, reviewId, owner, repo, pullNumber := number, path := comment.path, line := comment.line
    author, body := comment.body, createdAt := now }

/-- Write the row, its comments, the re-evaluated pull request and the event. -/
def writeReview (core : ForgeCore) (review : Review) (comments : List ReviewCommentInput) : State :=
  let key := (review.owner, review.repo, review.pullNumber)
  let rows := comments.mapIdx fun index comment =>
    reviewComment review.owner review.repo review.pullNumber review.author review.id
      (core.uuids + 2 + index) core.now comment
  let state := core.state.withProfile review.author (core.uuids + 1) core.now
  let state := { state with
    reviews := state.reviews.push key review
    reviewComments := state.reviewComments.insert key
      ((state.reviewComments.lookup key).getD [] ++ rows) }
  let state := state.reevaluate core.auditMergeEnforced key
  state.emitEventLocked review.owner review.repo "pull_request_review"
    ⟨"submitted", "review", .review review⟩ core.now

def dismissalAuditAction : String := "pull.review_dismissal"

def Review.auditDetail (review : Review) : AuditDetail :=
  .dismissal review.pullNumber review.id review.dismissedReviewId review.headSha
    (review.body.map trim) review.dismissalAuthority

/-- The second component says whether an administrator dismissal is to be closed with a
    receipt. -/
def recordReviewLocked (owner repo : String) (number : Nat) (author : String)
    (request : CreateReviewRequest) (dismissedReviewId : Option Uuid) (core : ForgeCore) :
    Outcome (Review × Bool) :=
  let key := (owner, repo, number)
  let subject := s!"{owner}/{repo}#{number}"
  match core.state.pulls.lookup key with
  | none => .refuse (.notFound s!"pull request {subject}")
  | some pr =>
    let reviews := (core.state.reviews.lookup key).getD []
    match admitReview pr reviews author subject request with
    | .error error => .refuse error
    | .ok () =>
      let admitted := match dismissedReviewId with
        | some targetId => admitDismissal core pr reviews author subject targetId
        | none => .ok none
      match admitted with
      | .error error => .refuse error
      | .ok dismissalAuthority =>
        let review : Review :=
          { id := core.uuids, owner, repo, pullNumber := number, author, state := request.event
            body := request.body, headSha := some pr.head.sha, headPatchIds := pr.headPatchIds
            dismissedReviewId, dismissalAuthority, submittedAt := core.now }
        let next := writeReview core review request.comments
        let draws := 2 + request.comments.length
        match dismissalAuthority with
        | none => .commit [] draws next none (review, false)
        | some _ =>
          -- Bound before the row exists: no administrator dismissal without its receipt.
          match core.auditReceipt author dismissalAuditAction subject .requested review.auditDetail with
          | .error error => .refuse error
          | .ok entry => .commit [entry] draws next none (review, true)

def recordReview (owner repo : String) (number : Nat) (author : String)
    (request : CreateReviewRequest) (dismissedReviewId : Option Uuid) : Method Review := do
  ensureRepositoryWritable owner repo
  .ofExcept (requireLogin author)
  let (review, audited) ← .locked
    (recordReviewLocked owner repo number author request dismissedReviewId)
  if audited then
    (appendAuditWith author dismissalAuditAction s!"{owner}/{repo}#{number}" .completed
      review.auditDetail).ignored
  return review

def createReview (owner repo : String) (number : Nat) (author : String)
    (request : CreateReviewRequest) : Method Review := do
  if request.event = .dismissed then
    throw (.error (.validation "use dismiss_review with a target review, exact head and reason"))
  recordReview owner repo number author request none

def fullLowercaseSha1 (sha : String) : Bool := len sha == 40 && all sha isLowercaseHexdigit

/-- The receipt of a refused attempt on another reviewer's verdict. -/
def auditRefusedDismissal (owner repo : String) (number : Nat) (actor : String) (targetId : Uuid) :
    Method Unit := do
  let targetAuthor ← Method.reading fun core =>
    .ok ((((core.state.reviews.lookup (owner, repo, number)).getD []).find?
      fun review => review.id == targetId).map Review.author)
  if targetAuthor.any (· != actor) then
    (appendAuditAs (refusedActor actor) dismissalAuditAction s!"{owner}/{repo}#{number}"
      .failed).ignored

def dismissReview (owner repo : String) (number : Nat) (actor : String)
    (request : DismissReviewRequest) : Method Review := do
  if isBlank request.reason then
    throw (.error (.validation "review dismissal requires a non-empty reason"))
  if !fullLowercaseSha1 request.expectedHeadSha then
    throw (.error (.validation "review dismissal requires a full lowercase SHA-1 head"))
  (recordReview owner repo number actor
    { body := some request.reason, event := .dismissed, comments := []
      expectedHeadSha := some request.expectedHeadSha } (some request.reviewId)).inspect fun
    | .ok _ => return ()
    | .error _ => auditRefusedDismissal owner repo number actor request.reviewId

end Jeryu.Core
