import Mathlib.Data.List.Sort
import Jeryu.Core.Model
import Jeryu.Library.KeyedFold

namespace Jeryu.Core

open KeyedMap KeyedFold Text

/-- Which heads a verdict can speak for. -/
inductive VerdictReach where
  | exactHead
  | unchangedDiff
  deriving DecidableEq

def VerdictReach.forRule (rule : Option BranchProtectionRule) : VerdictReach :=
  match rule with
  | some rule =>
    if !rule.dismissStaleApprovals && !rule.requireExactShaApproval then .unchangedDiff
    else .exactHead
  | none => .exactHead

/-- A recorded administrator dismissal of a verdict written by someone else on the same pull
    request. -/
def isCrossAuthorDismissal (reviews : List Review) (dismissal : Review) : Bool :=
  dismissal.state = .dismissed && dismissal.headSha.isSome &&
    dismissal.dismissalAuthority = some .repositoryAdmin &&
    dismissal.dismissedReviewId.any fun target =>
      reviews.any fun review => review.id == target && review.author != dismissal.author

/-- Verdicts a recorded targeted dismissal withdraws, for good, at every head. -/
def withdrawnVerdicts (reviews : List Review) : List Uuid :=
  (reviews.filter fun review => review.state = .dismissed && review.headSha.isSome).filterMap
    fun dismissal =>
      dismissal.dismissedReviewId.filter fun target =>
        reviews.any fun review => review.id == target &&
          (review.author == dismissal.author ||
            dismissal.dismissalAuthority = some .repositoryAdmin)

/-- Administrators who withdrew another reviewer's verdict here, in ASCII lowercase. -/
def dismissingAdmins (reviews : List Review) : List String :=
  (reviews.filter fun review => isCrossAuthorDismissal reviews review).map
    fun review => toAsciiLowercase review.author

def carriesUnchangedDiff (headPatchIds : List String) (reach : VerdictReach) : Bool :=
  reach = .unchangedDiff && !headPatchIds.isEmpty && headPatchIds.length ≤ maxCommits &&
    headPatchIds.all isReviewPatchId

/-- The rows that speak for a head with that diff identity. -/
def inScope (headSha : String) (headPatchIds : List String) (reach : VerdictReach)
    (review : Review) : Bool :=
  review.headSha == some headSha ||
    (carriesUnchangedDiff headPatchIds reach && review.headPatchIds == headPatchIds)

/-- Whether a dismissal row that withdrew nothing still clears the verdict `current`. -/
def clears (dismissal current : Review) : Bool :=
  match dismissal.dismissedReviewId with
  | some target => target == current.id
  | none => current.state = .approved

/-- One row of the reduction, into the latest verdict of each author. -/
def reduceReview (withdrawn : List Uuid) (admins : List String) (prAuthor : Option String)
    (latest : HashMap String Review) (review : Review) : HashMap String Review :=
  -- Still a later verdict by this reviewer: it replaces the earlier one.
  if withdrawn.contains review.id then latest.erase review.author
  else if review.state = .approved && prAuthor.any (eqIgnoreAsciiCase review.author) then latest
  else if review.state = .approved && admins.contains (toAsciiLowercase review.author) then latest
  else match review.state with
    | .approved | .changesRequested => latest.insert review.author review
    | .commented => latest
    | .dismissed =>
      match latest.lookup review.author with
      | some current => if clears review current then latest.erase review.author else latest
      | none => latest

/-- At most one effective review per reviewer, ordered by reviewer. -/
def reduceReviews (reviews : List Review) (headSha : String) (headPatchIds : List String)
    (reach : VerdictReach) (prAuthor : Option String) : List Review :=
  let latest := (reviews.filter (inScope headSha headPatchIds reach)).foldl
    (reduceReview (withdrawnVerdicts reviews) (dismissingAdmins reviews) prAuthor) ∅
  (latest.values.insertionSort fun a b => !decide (b.author < a.author))

def effectiveReviewsForHead (reviews : List Review) (headSha : String) : List Review :=
  reduceReviews reviews headSha [] .exactHead none

def effectiveReviewsForPullRequestWith (reviews : List Review) (pr : PullRequest)
    (reach : VerdictReach) : List Review :=
  reduceReviews reviews pr.head.sha pr.headPatchIds reach (some pr.author)

/-- What one row does to the verdict of its author. -/
def reviewAction (withdrawn : List Uuid) (admins : List String) (prAuthor : Option String)
    (review : Review) : Action Review :=
  if withdrawn.contains review.id then .clear
  else if review.state = .approved && prAuthor.any (eqIgnoreAsciiCase review.author) then .keep
  else if review.state = .approved && admins.contains (toAsciiLowercase review.author) then .keep
  else match review.state with
    | .approved | .changesRequested => .put review
    | .commented => .keep
    | .dismissed => .clearIf (clears review)

theorem reduceReview_eq_applyAt (withdrawn : List Uuid) (admins : List String)
    (prAuthor : Option String) (latest : HashMap String Review) (review : Review) :
    reduceReview withdrawn admins prAuthor latest review =
      applyAt latest review.author (reviewAction withdrawn admins prAuthor review) := by
  simp only [reduceReview, reviewAction]
  split
  · rfl
  · split
    · rfl
    · split
      · rfl
      · cases review.state with
        | approved => rfl
        | changesRequested => rfl
        | commented => rfl
        | dismissed =>
          simp only [applyAt]
          cases latest.lookup review.author <;> rfl

end Jeryu.Core
