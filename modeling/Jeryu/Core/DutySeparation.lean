import Jeryu.Core.DismissalSafety
import Jeryu.Core.OverrideSafety

/-!
Separation of duties. Nobody approves, dismisses or overrides in two roles on one pull
request, with logins compared up to ASCII case. The override path compares the author's login
exactly, so there the case has to match.
-/

namespace Jeryu.Core

open KeyedMap HashMap Relation LockProgram Text

/-- Where an override names the author of the pull request, it spells the login alike. -/
def Call.ActorSpelled : Call → ForgeCore → Prop
  | .finalizeMergeWithOverride _ permit _, core => ∀ pr,
    core.state.pulls.lookup (permit.owner, permit.repo, permit.number) = some pr →
    eqIgnoreAsciiCase permit.actor pr.author = true → permit.actor = pr.author
  | _, _ => True

/-- Nobody plays two roles where the override sections meet the condition. -/
structure DutiesSeparate (condition : Call → ForgeCore → Prop) (pool : Pool) : Prop where
  approvals : ∀ key pr rows reach, pool.shared.state.pulls.lookup key = some pr →
    pool.shared.state.reviews.lookup key = some rows →
    ∀ review ∈ effectiveReviewsForPullRequestWith rows pr reach, review.state = .approved →
      eqIgnoreAsciiCase review.author pr.author = false ∧
        ∀ dismissal ∈ rows, isCrossAuthorDismissal rows dismissal = true →
          eqIgnoreAsciiCase review.author dismissal.author = false
  dismissals : ∀ i owner repo number actor request reply pool' pr target,
    pool.Writes i (.dismissReview owner repo number actor request) reply pool' →
    pool'.shared.state.reviews ≠ pool.shared.state.reviews →
    pool.shared.state.pulls.lookup (owner, repo, number) = some pr →
    target ∈ pool.shared.reviewsOf (owner, repo, number) → target.id = request.reviewId →
    target.author ≠ actor → eqIgnoreAsciiCase actor pr.author = false
  overrides : ∀ i ticket permit mergeSha reply pool' pr pr',
    pool.Writes i (.finalizeMergeWithOverride ticket permit mergeSha) reply pool' →
    condition (.finalizeMergeWithOverride ticket permit mergeSha) pool.shared →
    pool.shared.state.pulls.lookup (permit.owner, permit.repo, permit.number) = some pr →
    pr.merged = false →
    pool'.shared.state.pulls.lookup (permit.owner, permit.repo, permit.number) = some pr' →
    pr'.merged = true → eqIgnoreAsciiCase permit.actor pr.author = false

section Rows

variable {rows : List Review} {review : Review} {pr : PullRequest} {reach : VerdictReach}

/-- What the gate counts as an approval is nobody's own, and no dismissing administrator's. -/
theorem approved_by_others (nodup : (rows.map Review.id).Nodup)
    (effective : review ∈ effectiveReviewsForPullRequestWith rows pr reach)
    (approved : review.state = .approved) :
    eqIgnoreAsciiCase review.author pr.author = false ∧
      ∀ dismissal ∈ rows, isCrossAuthorDismissal rows dismissal = true →
        eqIgnoreAsciiCase review.author dismissal.author = false := by
  obtain ⟨-, stands⟩ := (mem_reduceReviews_iff nodup).mp effective
  obtain ⟨-, -, -, -, ⟨-, verdict⟩, -⟩ := stands
  rcases verdict with requested | ⟨-, free, other⟩
  · have state : review.verdict.state = .approved := approved
    rw [state] at requested
    cases requested
  · refine ⟨other pr.author rfl, fun dismissal member cross => ?_⟩
    cases same : eqIgnoreAsciiCase review.author dismissal.author with
    | false => rfl
    | true =>
      have lower := eqIgnoreAsciiCase_iff.mp same
      exact absurd ⟨dismissal.verdict, List.mem_map_of_mem member,
        isCrossAuthorDismissal_iff.mp cross, lower.symm⟩ free

end Rows

/-- A dismissal of somebody else's verdict is not the author's. -/
theorem Dismissal.not_author {core core' : ForgeCore} {key : Scoped Nat} {actor : String}
    {targetId : Uuid} {pr : PullRequest} {target row : Review}
    (dismissal : Dismissal core core' key actor targetId pr target row)
    (other : target.author ≠ actor) : eqIgnoreAsciiCase actor pr.author = false := by
  rcases dismissal.allowed.authorized with ⟨own, -⟩ | ⟨-, -, authorized⟩
  · exact absurd own other
  · rw [eqIgnoreAsciiCase_comm]
    exact (authorizeCrossAuthorDismissal_ok authorized).1

theorem duties_separate {pool : Pool} (reachable : pool.Reachable) :
    DutiesSeparate Call.ActorSpelled pool where
  approvals key pr rows reach found stored review effective approved :=
    approved_by_others (reachable.coherent.identified.reviewIds key rows stored).2 effective approved
  dismissals i owner repo number actor request reply pool' pr target writes recorded found member
      same other := by
    obtain ⟨pr', target', row, dismissal⟩ := dismissReview_records (reachable.writes writes) recorded
    obtain rfl : pr' = pr := Option.some.inj (dismissal.found.symm.trans found)
    have nodup := reachable.coherent.reviewsOf_nodup (owner, repo, number)
    obtain rfl : target' = target := List.inj_on_of_nodup_map nodup dismissal.allowed.member member
      (dismissal.targetId.trans same.symm)
    exact dismissal.not_author other
  overrides i ticket permit mergeSha reply pool' pr pr' writes spelled found unmerged found' merged := by
    have other : permit.actor ≠ pr.author :=
      (finalizeMergeWithOverride_records reachable.coherent (reachable.writes writes) found unmerged
        found' merged).2
    exact Bool.eq_false_iff.mpr fun same => other (spelled pr found same)

theorem duties_separate_demo :
    DutiesSeparate Call.ActorSpelled (ForgeCore.durable.played dismissalAtLock) :=
  duties_separate (played_any rfl (by decide))

/-- The author `Root` overrides the gate of their own pull request as the account `root`. -/
theorem not_duties_separate :
    ¬∀ pool : Pool, pool.Reachable → DutiesSeparate anyCall pool := by
  intro separate
  have reachable : (ForgeCore.durable.played (overrideAtLock "Root")).Reachable :=
    overrideAtLock_reachable (by rfl)
  obtain ⟨reply, writes⟩ := @override_writes "Root" _ rfl (by decide +kernel)
  have author : ((ForgeCore.durable.played (overrideAtLock "Root")).shared.state.pulls.lookup
      ("acme", "demo", 1)).any (fun pr => pr.author == "Root") = true := by decide +kernel
  have merges : overrideMerges "Root" = true := by decide +kernel
  simp only [overrideMerges, Bool.and_eq_true, Option.any_eq_true, Bool.not_eq_true'] at merges
  obtain ⟨⟨pr, found, unmerged⟩, pr', found', merged⟩ := merges
  have root : pr.author = "Root" := by
    obtain ⟨same, known, root⟩ := (Option.any_eq_true _ _).mp author
    cases known.symm.trans found
    simpa using root
  have other := (separate _ reachable).overrides 6 _ _ _ _ _ pr pr' writes True.intro found unmerged
    found' merged
  rw [root] at other
  exact absurd other (by decide)

end Jeryu.Core
