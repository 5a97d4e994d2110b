import Mathlib.Data.List.Perm.Subperm
import Jeryu.Core.State
import Jeryu.Core.Verdicts

/-!
Whether a stricter rule keeps the gate at least as shut. Each gate asks for no less under the
stricter rule, but two of its settings choose the reviews that all of them read: a verdict that
carries over an unchanged diff is gone once the rule asks for the exact head, a rejection as
well as an approval.
-/

namespace Jeryu.Core

open KeyedMap KeyedFold Text

/-- `rule'` asks for everything `rule` asks for. -/
structure BranchProtectionRule.Tightens (rule rule' : BranchProtectionRule) : Prop where
  requiredApprovingReviewCount :
    rule.requiredApprovingReviewCount ≤ rule'.requiredApprovingReviewCount
  requiredStatusChecks : rule.requiredStatusChecks ⊆ rule'.requiredStatusChecks
  dismissStaleApprovals : rule.dismissStaleApprovals = true → rule'.dismissStaleApprovals = true
  requireExactShaApproval :
    rule.requireExactShaApproval = true → rule'.requireExactShaApproval = true
  requiredLinearHistory : rule.requiredLinearHistory = true → rule'.requiredLinearHistory = true
  requireSignedCommits : rule.requireSignedCommits = true → rule'.requireSignedCommits = true
  requireJankuraiProof : rule.requireJankuraiProof = true → rule'.requireJankuraiProof = true

/-- Any rule is stricter than none. -/
def Tightens : Option BranchProtectionRule → Option BranchProtectionRule → Prop
  | none, _ => True
  | some rule, some rule' => rule.Tightens rule'
  | some _, none => False

/-- The actor does not bypass the rule as an administrator. -/
def EvaluationContext.Binds (context : EvaluationContext) (protection : Option BranchProtectionRule) :
    Prop :=
  ∀ rule, protection = some rule → context.actorIsAdmin = true → rule.enforceAdmins = true

/-- Written against another head, whose diff is the one of this head. -/
def carriedOver (pr : PullRequest) (review : Review) : Bool :=
  carriesUnchangedDiff pr.headPatchIds .unchangedDiff && review.headSha != some pr.head.sha &&
    review.headPatchIds == pr.headPatchIds

/-- What carries over is of one kind, comments aside, and was not withdrawn. -/
def CarriesOnly (state : ReviewState) (reviews : List Review) (pr : PullRequest) : Prop :=
  ∀ review ∈ reviews, carriedOver pr review = true →
    (review.state = state ∨ review.state = .commented) ∧ review.id ∉ withdrawnVerdicts reviews

/-- Where only one of the rules reaches over an unchanged diff, what it reaches speaks for the
    side that reads it: approvals for the weaker rule, rejections for the stricter one. -/
def ReadsAlike (reviews : List Review) (pr : PullRequest)
    (protection protection' : Option BranchProtectionRule) : Prop :=
  match VerdictReach.forRule protection, VerdictReach.forRule protection' with
  | .unchangedDiff, .exactHead => CarriesOnly .approved reviews pr
  | .exactHead, .unchangedDiff => CarriesOnly .changesRequested reviews pr
  | _, _ => True

/-- The gates that read the reviews. -/
def MergeBlocker.readsReviews : MergeBlocker → Bool
  | changesRequested _ | missingReview _ _ | missingCodeOwnerReview _ _ => true
  | _ => false

section Carried

variable {reviews : List Review} {pr : PullRequest} {state : ReviewState} {author : String}

/-- One reviewer's verdict at the exact head, and with what carries over. -/
structure CarriesTo (reviews : List Review) (state : ReviewState) (author : String)
    (exact wide : Option Review) : Prop where
  verdict : ∀ review, exact = some review → review.state = .approved ∨ review.state = .changesRequested
  carried : wide = exact ∨
    (∃ review ∈ reviews, review.author = author ∧ review.state = state ∧
      review.id ∉ withdrawnVerdicts reviews ∧ wide = some review) ∨
    (state = .approved ∧ wide = none ∧ ∃ review, exact = some review ∧ review.state = .changesRequested)

/-- A dismissal at the head that names a verdict of its author withdraws it. -/
theorem withdrawn_of_dismissal {dismissal review : Review} (member : dismissal ∈ reviews)
    (stored : review ∈ reviews) (dismissed : dismissal.state = .dismissed)
    (here : dismissal.headSha.isSome = true) (named : dismissal.dismissedReviewId = some review.id)
    (own : review.author = dismissal.author) : review.id ∈ withdrawnVerdicts reviews := by
  refine mem_withdrawnVerdicts.mpr ⟨dismissal.verdict, List.mem_map_of_mem member, dismissed, here,
    named, review.verdict, List.mem_map_of_mem stored, rfl, .inl own⟩

/-- What one row at the head does to both. -/
theorem CarriesTo.shared {prAuthor : Option String} {event : Review} {exact wide : Option Review}
    (carries : CarriesTo reviews state author exact wide) (member : event ∈ reviews)
    (own : event.author = author) (here : event.headSha.isSome = true) :
    CarriesTo reviews state author
      ((reviewAction (withdrawnVerdicts reviews) (dismissingAdmins reviews) prAuthor event).apply exact)
      ((reviewAction (withdrawnVerdicts reviews) (dismissingAdmins reviews) prAuthor event).apply
        wide) := by
  unfold reviewAction
  split
  · exact ⟨fun _ gone => (nomatch gone), .inl rfl⟩
  split
  · exact carries
  split
  · exact carries
  cases verdict : event.state with
  | approved =>
    refine ⟨fun review same => .inl ?_, .inl rfl⟩
    cases same
    exact verdict
  | changesRequested =>
    refine ⟨fun review same => .inr ?_, .inl rfl⟩
    cases same
    exact verdict
  | commented => exact carries
  | dismissed =>
    refine ⟨fun review same => ?_, ?_⟩
    · exact carries.verdict review (Option.filter_eq_some_iff.mp same).1
    rcases carries.carried with rfl | ⟨review, stored, same, kind, standing, rfl⟩ |
      ⟨approval, rfl, rejection, rfl, rejects⟩
    · exact .inl rfl
    · -- The dismissal does not name what carries over, else it would be withdrawn.
      cases named : event.dismissedReviewId with
      | some target =>
        have other : (target == review.id) = false := by
          refine Bool.eq_false_iff.mpr fun aimed => standing ?_
          have aim : event.dismissedReviewId = some review.id := by
            rw [named, beq_iff_eq.mp aimed]
          exact withdrawn_of_dismissal member stored verdict here aim (same.trans own.symm)
        refine .inr (.inl ⟨review, stored, same, kind, standing, ?_⟩)
        simp [Action.apply, clears, named, other, Option.filter]
      | none =>
        by_cases approval : state = .approved
        · have cleared : (Action.clearIf (clears event)).apply (some review) = none := by
            simp [Action.apply, clears, named, kind, approval, Option.filter]
          rw [cleared]
          cases exact with
          | none => exact .inl rfl
          | some current =>
            rcases carries.verdict current rfl with approved | rejects
            · left
              simp [Action.apply, clears, named, approved, Option.filter]
            · right
              right
              refine ⟨approval, rfl, current, ?_, rejects⟩
              simp [Action.apply, clears, named, rejects, Option.filter]
        · refine .inr (.inl ⟨review, stored, same, kind, standing, ?_⟩)
          simp [Action.apply, clears, named, kind, approval, Option.filter]
    · cases kept : (Action.clearIf (clears event)).apply (some rejection) with
      | none => exact .inl rfl
      | some current =>
        rcases Action.apply_eq_some kept with put | ⟨was, -⟩
        · cases put
        · cases was
          exact .inr (.inr ⟨approval, rfl, rejection, rfl, rejects⟩)

/-- What one row that carries over does to the wider reading. -/
theorem CarriesTo.added {prAuthor : Option String} {event : Review} {exact wide : Option Review}
    (carries : CarriesTo reviews state author exact wide) (member : event ∈ reviews)
    (own : event.author = author) (kind : event.state = state ∨ event.state = .commented)
    (verdict : state = .approved ∨ state = .changesRequested)
    (standing : event.id ∉ withdrawnVerdicts reviews) :
    CarriesTo reviews state author exact
      ((reviewAction (withdrawnVerdicts reviews) (dismissingAdmins reviews) prAuthor event).apply
        wide) := by
  have put (same : event.state = state) : CarriesTo reviews state author exact (some event) :=
    ⟨carries.verdict, .inr (.inl ⟨event, member, own, same, standing, rfl⟩)⟩
  unfold reviewAction
  rw [if_neg (by simpa using standing)]
  split
  · exact carries
  split
  · exact carries
  rcases kind with same | commented
  · rcases verdict with approval | rejection
    · have approved : event.state = .approved := same.trans approval
      rw [approved]
      exact put same
    · have rejects : event.state = .changesRequested := same.trans rejection
      rw [rejects]
      exact put same
  · rw [commented]
    exact carries

end Carried

section Effective

variable {reviews : List Review} {pr : PullRequest} {reach : VerdictReach} {author : String}
variable {review : Review}

/-- The verdict of one reviewer in the gate's selection. -/
def verdictOf (reviews : List Review) (pr : PullRequest) (reach : VerdictReach) (author : String) :
    Option Review :=
  standing Review.author
    (reviewAction (withdrawnVerdicts reviews) (dismissingAdmins reviews) (some pr.author))
    (reviews.filter (inScope pr.head.sha pr.headPatchIds reach)) author

theorem mem_effective : review ∈ effectiveReviewsForPullRequestWith reviews pr reach ↔
    verdictOf reviews pr reach review.author = some review := by
  unfold effectiveReviewsForPullRequestWith reduceReviews
  rw [List.mem_insertionSort, HashMap.mem_values]
  simp only [reduceReviews_lookup]
  constructor
  · rintro ⟨author, found⟩
    obtain ⟨before, event, after, -, own, put, -⟩ := (standing_eq_some_iff _ _).mp found
    obtain ⟨rfl, -⟩ := reviewAction_put.mp put
    rw [← own] at found
    exact found
  · exact fun found => ⟨review.author, found⟩

theorem inScope_carried : inScope pr.head.sha pr.headPatchIds .unchangedDiff review =
    (inScope pr.head.sha pr.headPatchIds .exactHead review || carriedOver pr review) := by
  simp only [inScope, carriedOver, carriesUnchangedDiff]
  cases here : review.headSha == some pr.head.sha <;> simp [bne, here]

/-- A reviewer's verdict at the exact head beside the one that reaches over an unchanged diff. -/
theorem verdictOf_carries {state : ReviewState} (only : CarriesOnly state reviews pr)
    (verdict : state = .approved ∨ state = .changesRequested) (author : String) :
    CarriesTo reviews state author (verdictOf reviews pr .exactHead author)
      (verdictOf reviews pr .unchangedDiff author) := by
  unfold verdictOf
  apply standing_filter
  · intro event _ here
    rw [inScope_carried, here]
    rfl
  · exact ⟨fun _ gone => (nomatch gone), .inl rfl⟩
  · intro event member own here exact wide carries
    refine carries.shared member own ?_
    have same : event.headSha = some pr.head.sha := by
      simpa [inScope, carriesUnchangedDiff] using here
    rw [same]
    rfl
  · intro event member own absent here exact wide carries
    rw [inScope_carried, absent, Bool.false_or] at here
    obtain ⟨kind, standing⟩ := only event member here
    exact carries.added member own kind verdict standing

/-- The selection `loose` is no worse for the pull request than `strict`. -/
structure NoWorse (loose strict : List Review) : Prop where
  rejections : ∀ review ∈ loose, review.state = .changesRequested →
    ∃ other ∈ strict, other.state = .changesRequested
  approvals : ∀ review ∈ strict, review.state = .approved →
    ∃ other ∈ loose, other.author = review.author ∧ other.state = .approved

/-- What carries over an unchanged diff only helps where it is approvals. -/
theorem noWorse_of_approvals (only : CarriesOnly .approved reviews pr) :
    NoWorse (effectiveReviewsForPullRequestWith reviews pr .unchangedDiff)
      (effectiveReviewsForPullRequestWith reviews pr .exactHead) := by
  have carries := verdictOf_carries only (.inl rfl)
  constructor
  · intro review member rejects
    have wide := mem_effective.mp member
    rcases (carries review.author).carried with same | ⟨other, -, -, kind, -, now⟩ | ⟨-, none, -⟩
    · exact ⟨review, mem_effective.mpr (same.symm.trans wide), rejects⟩
    · cases wide.symm.trans now
      rw [kind] at rejects
      cases rejects
    · cases wide.symm.trans none
  · intro review member approved
    have here := mem_effective.mp member
    rcases (carries review.author).carried with same | ⟨other, -, own, kind, -, now⟩ |
      ⟨-, -, current, stands, rejects⟩
    · exact ⟨review, mem_effective.mpr (same.trans here), rfl, approved⟩
    · exact ⟨other, mem_effective.mpr (own ▸ now), own, kind⟩
    · cases here.symm.trans stands
      rw [rejects] at approved
      cases approved

/-- Where what carries over is rejections, none at the head is lost. -/
theorem rejected_of_carried (only : CarriesOnly .changesRequested reviews pr)
    (member : review ∈ effectiveReviewsForPullRequestWith reviews pr .exactHead)
    (rejects : review.state = .changesRequested) :
    ∃ other ∈ effectiveReviewsForPullRequestWith reviews pr .unchangedDiff,
      other.state = .changesRequested := by
  have here := mem_effective.mp member
  rcases (verdictOf_carries only (.inr rfl) review.author).carried with
    same | ⟨other, -, own, kind, -, now⟩ | ⟨approval, -⟩
  · exact ⟨review, mem_effective.mpr (same.trans here), rejects⟩
  · exact ⟨other, mem_effective.mpr (own ▸ now), kind⟩
  · cases approval

/-- No fewer approvals. -/
theorem NoWorse.count {strict : VerdictReach} {loose : VerdictReach}
    (noWorse : NoWorse (effectiveReviewsForPullRequestWith reviews pr loose)
      (effectiveReviewsForPullRequestWith reviews pr strict)) :
    ((effectiveReviewsForPullRequestWith reviews pr strict).filter
      fun review => review.state = .approved).length ≤
    ((effectiveReviewsForPullRequestWith reviews pr loose).filter
      fun review => review.state = .approved).length := by
  let approvers (reach : VerdictReach) := ((effectiveReviewsForPullRequestWith reviews pr reach).filter
    fun review => review.state = .approved).map Review.author
  have once (reach : VerdictReach) : (approvers reach).Nodup :=
    reduceReviews_nodup.sublist (List.filter_sublist.map _)
  have fewer : approvers strict ⊆ approvers loose := by
    intro author member
    obtain ⟨review, kept, rfl⟩ := List.mem_map.mp member
    obtain ⟨inside, approved⟩ := List.mem_filter.mp kept
    obtain ⟨other, there, own, approves⟩ := noWorse.approvals review inside (by simpa using approved)
    exact List.mem_map.mpr ⟨other, List.mem_filter.mpr ⟨there, by simpa using approves⟩, own⟩
  have bound := (List.subperm_of_subset (once strict) fewer).length_le
  simpa [approvers] using bound

end Effective

section Gates

variable {pr : PullRequest} {statuses : List CommitStatus} {checkRuns : List CheckRun}
variable {requestedSha : Option String} {context : EvaluationContext} {effective : List Review}
variable {rule rule' : BranchProtectionRule} {reviews : List Review}

/-- What the gates of a rule ask for. -/
structure BranchProtectionRule.Met (rule : BranchProtectionRule) (pr : PullRequest)
    (effective : List Review) (statuses : List CommitStatus) (checkRuns : List CheckRun)
    (context : EvaluationContext) : Prop where
  approvals : rule.requiredApprovingReviewCount ≤
    (effective.filter fun review => review.state = .approved).length
  checks : ∀ required ∈ rule.requiredStatusChecks,
    statusCheckBlocker pr statuses checkRuns required = none
  proof : rule.requireJankuraiProof = true → context.jankuraiProofMandatory = false →
    jankuraiProofBlockers pr statuses checkRuns = []
  history : rule.requiredLinearHistory = true → ∀ commit ∈ pr.commits, commit.parents ≤ 1
  signatures : rule.requireSignedCommits = true → ∀ commit ∈ pr.commits, commit.verified = true
  owners : ∀ codeowners, context.codeowners = some codeowners →
    codeOwnerBlockers pr effective codeowners = []

theorem ruleBlockers_eq_nil : ruleBlockers rule pr effective statuses checkRuns context = [] ↔
    rule.Met pr effective statuses checkRuns context := by
  unfold ruleBlockers
  simp only [List.append_eq_nil_iff]
  constructor
  · intro ⟨⟨⟨⟨⟨approvals, checks⟩, proof⟩, history⟩, signatures⟩, owners⟩
    refine ⟨?_, List.filterMap_eq_nil_iff.mp checks, by simpa using proof, ?_,
      by simpa using signatures, fun codeowners given => ?_⟩
    · simp at approvals
      omega
    · intro linear commit member
      rw [if_pos linear] at history
      split at history
      · cases history
      · next none => simpa using List.find?_eq_none.mp none commit member
    · simpa [given] using owners
  · intro met
    refine ⟨⟨⟨⟨⟨?_, List.filterMap_eq_nil_iff.mpr met.checks⟩, by simpa using met.proof⟩, ?_⟩,
      by simpa using met.signatures⟩, ?_⟩
    · have enough := met.approvals
      simp
      omega
    · split
      · next linear =>
        have straight : pr.commits.find? (fun commit => commit.parents > 1) = none :=
          List.find?_eq_none.mpr fun commit member => by simpa using met.history linear commit member
        rw [straight]
      · rfl
    · cases given : context.codeowners with
      | none => rfl
      | some codeowners => exact met.owners codeowners given

theorem intrinsicBlockers_eq_nil :
    intrinsicBlockers pr effective statuses checkRuns requestedSha context = [] ↔
      intrinsicBlockers pr [] statuses checkRuns requestedSha context = [] ∧
        ∀ review ∈ effective, review.state ≠ .changesRequested := by
  simp only [intrinsicBlockers, List.append_eq_nil_iff, List.filter_nil, List.map_nil]
  simp
  tauto

theorem mem_intrinsicBlockers {blocker : MergeBlocker}
    (clear : intrinsicBlockers pr [] statuses checkRuns requestedSha context = [])
    (member : blocker ∈ intrinsicBlockers pr effective statuses checkRuns requestedSha context) :
    blocker.readsReviews = true := by
  simp only [intrinsicBlockers, List.append_eq_nil_iff, List.filter_nil, List.map_nil] at clear
  simp only [intrinsicBlockers, List.mem_append] at member
  obtain ⟨⟨⟨sha, draft⟩, -⟩, proof⟩ := clear
  rcases member with ((sha' | draft') | requested) | proof'
  · rw [sha] at sha'
    cases sha'
  · rw [draft] at draft'
    cases draft'
  · split at requested
    · cases requested
    · cases List.mem_singleton.mp requested
      rfl
  · rw [proof] at proof'
    cases proof'

/-- Only the reviews can be wanting where a stricter rule is met. -/
theorem mem_ruleBlockers {strict : List Review} {blocker : MergeBlocker}
    (tightens : rule.Tightens rule') (met : rule'.Met pr strict statuses checkRuns context)
    (member : blocker ∈ ruleBlockers rule pr effective statuses checkRuns context) :
    blocker.readsReviews = true := by
  simp only [ruleBlockers, List.mem_append] at member
  rcases member with ((((approvals | check) | proof) | history) | signatures) | owners
  · split at approvals
    · cases List.mem_singleton.mp approvals
      rfl
    · cases approvals
  · obtain ⟨required, listed, blocks⟩ := List.mem_filterMap.mp check
    rw [met.checks required (tightens.requiredStatusChecks listed)] at blocks
    cases blocks
  · split at proof
    · next asked =>
      simp only [Bool.and_eq_true, Bool.not_eq_true'] at asked
      rw [met.proof (tightens.requireJankuraiProof asked.1) asked.2] at proof
      cases proof
    · cases proof
  · split at history
    · next asked =>
      have straight : pr.commits.find? (fun commit => commit.parents > 1) = none := by
        refine List.find?_eq_none.mpr fun commit inside => ?_
        simpa using met.history (tightens.requiredLinearHistory asked) commit inside
      rw [straight] at history
      cases history
    · cases history
  · split at signatures
    · next asked =>
      simp only [Bool.and_eq_true, Bool.not_eq_true', List.isEmpty_eq_false_iff_exists_mem] at asked
      obtain ⟨signing, sha, unsigned⟩ := asked
      obtain ⟨commit, kept, -⟩ := List.mem_map.mp unsigned
      obtain ⟨inside, unverified⟩ := List.mem_filter.mp kept
      rw [met.signatures (tightens.requireSignedCommits signing) commit inside] at unverified
      cases unverified
    · cases signatures
  · split at owners
    · unfold codeOwnerBlockers at owners
      dsimp only at owners
      split at owners
      · cases owners
      · cases List.mem_singleton.mp owners
        rfl
    · cases owners

theorem codeOwnerBlockers_eq_nil {codeowners : String} :
    codeOwnerBlockers pr effective codeowners = [] ↔ ∀ path ∈ pr.changedFiles,
      (CodeOwners.parse codeowners).ownersFor path ≠ [] → ∃ review ∈ effective,
        review.state = .approved ∧ review.author ∈ (CodeOwners.parse codeowners).ownersFor path := by
  unfold codeOwnerBlockers
  dsimp only
  have satisfied (path : String) : (!((CodeOwners.parse codeowners).ownersFor path).isEmpty &&
      !((CodeOwners.parse codeowners).ownersFor path).any ((effective.filter fun review =>
        review.state = .approved).map Review.author).contains) = false ↔
      ((CodeOwners.parse codeowners).ownersFor path ≠ [] → ∃ review ∈ effective,
        review.state = .approved ∧ review.author ∈ (CodeOwners.parse codeowners).ownersFor path) := by
    generalize (CodeOwners.parse codeowners).ownersFor path = owners
    simp only [Bool.and_eq_false_iff, Bool.not_eq_false', List.isEmpty_iff, List.any_eq_true,
      List.contains_iff_mem, List.mem_map, List.mem_filter, decide_eq_true_eq]
    constructor
    · rintro (none | ⟨owner, listed, review, ⟨member, approved⟩, rfl⟩) owned
      · exact absurd none owned
      · exact ⟨review, member, approved, listed⟩
    · intro approves
      by_cases none : owners = []
      · exact .inl none
      · obtain ⟨review, member, approved, listed⟩ := approves none
        exact .inr ⟨review.author, listed, review, ⟨member, approved⟩, rfl⟩
  simp only [← satisfied]
  split
  · next clear =>
    simp only [true_iff]
    intro path member
    exact by simpa using List.filter_eq_nil_iff.mp (List.isEmpty_iff.mp clear) path member
  · next raised =>
    simp only [List.cons_ne_nil, false_iff]
    intro clear
    refine raised (List.isEmpty_iff.mpr (List.filter_eq_nil_iff.mpr fun path member => ?_))
    exact Bool.eq_false_iff.mp (clear path member)

/-- A path somebody approved for is approved for still. -/
theorem codeOwnerBlockers_loosen {loose strict : List Review} {codeowners : String}
    (noWorse : NoWorse loose strict) (clear : codeOwnerBlockers pr strict codeowners = []) :
    codeOwnerBlockers pr loose codeowners = [] := by
  refine codeOwnerBlockers_eq_nil.mpr fun path member owned => ?_
  obtain ⟨review, inside, approved, listed⟩ := codeOwnerBlockers_eq_nil.mp clear path member owned
  obtain ⟨other, there, own, approves⟩ := noWorse.approvals review inside approved
  exact ⟨other, there, approves, own ▸ listed⟩

theorem BranchProtectionRule.Met.loosen {loose strict : VerdictReach}
    (tightens : rule.Tightens rule')
    (noWorse : NoWorse (effectiveReviewsForPullRequestWith reviews pr loose)
      (effectiveReviewsForPullRequestWith reviews pr strict))
    (met : rule'.Met pr (effectiveReviewsForPullRequestWith reviews pr strict) statuses checkRuns
      context) :
    rule.Met pr (effectiveReviewsForPullRequestWith reviews pr loose) statuses checkRuns context where
  approvals :=
    tightens.requiredApprovingReviewCount.trans (met.approvals.trans noWorse.count)
  checks required listed := met.checks required (tightens.requiredStatusChecks listed)
  proof asked := met.proof (tightens.requireJankuraiProof asked)
  history asked := met.history (tightens.requiredLinearHistory asked)
  signatures asked := met.signatures (tightens.requireSignedCommits asked)
  owners codeowners given := codeOwnerBlockers_loosen noWorse (met.owners codeowners given)

end Gates

section Tightening

variable {pr : PullRequest} {statuses : List CommitStatus} {checkRuns : List CheckRun}
variable {requestedSha : Option String} {context : EvaluationContext} {reviews : List Review}
variable {protection protection' : Option BranchProtectionRule}

theorem evaluate_blockers :
    (evaluateBranchProtectionWith pr protection reviews statuses checkRuns requestedSha
      context).blockers = [] ↔
    intrinsicBlockers pr (effectiveReviewsForPullRequestWith reviews pr (.forRule protection)) statuses
        checkRuns requestedSha context = [] ∧
      ∀ rule, protection = some rule → (context.actorIsAdmin && !rule.enforceAdmins) = false →
        rule.Met pr (effectiveReviewsForPullRequestWith reviews pr (.forRule protection)) statuses
          checkRuns context := by
  unfold evaluateBranchProtectionWith
  cases protection with
  | none => simp
  | some rule =>
    dsimp only
    split
    · next bypassed =>
      refine ⟨fun clear => ⟨clear, fun other same bound => ?_⟩, fun both => both.1⟩
      cases same
      rw [bypassed] at bound
      cases bound
    · next bound =>
      rw [fromBlockers_blockers, List.append_eq_nil_iff, ruleBlockers_eq_nil]
      refine and_congr_right fun _ => ⟨fun met other same _ => ?_, fun met => ?_⟩
      · cases same
        exact met
      · exact met rule rfl (by simpa using bound)

theorem mem_evaluate_blockers {blocker : MergeBlocker}
    (member : blocker ∈ (evaluateBranchProtectionWith pr protection reviews statuses checkRuns
      requestedSha context).blockers) :
    blocker ∈ intrinsicBlockers pr (effectiveReviewsForPullRequestWith reviews pr
        (.forRule protection)) statuses checkRuns requestedSha context ∨
      ∃ rule, protection = some rule ∧ blocker ∈ ruleBlockers rule pr
        (effectiveReviewsForPullRequestWith reviews pr (.forRule protection)) statuses checkRuns
        context := by
  unfold evaluateBranchProtectionWith at member
  cases protection with
  | none => exact .inl member
  | some rule =>
    dsimp only at member
    split at member
    · exact .inl member
    · exact (List.mem_append.mp member).imp id fun inside => ⟨rule, rfl, inside⟩

theorem NoWorse.refl (effective : List Review) : NoWorse effective effective where
  rejections review member rejects := ⟨review, member, rejects⟩
  approvals review member approved := ⟨review, member, rfl, approved⟩

theorem forRule_exact {rule rule' : BranchProtectionRule} (tightens : rule.Tightens rule')
    (exact : VerdictReach.forRule (some rule) = .exactHead) :
    VerdictReach.forRule (some rule') = .exactHead := by
  have stale := tightens.dismissStaleApprovals
  have sha := tightens.requireExactShaApproval
  simp only [VerdictReach.forRule] at exact ⊢
  cases one : rule.dismissStaleApprovals <;> cases two : rule.requireExactShaApproval <;>
    simp_all

/-- Where two rules read the reviews alike, the weaker one counts no fewer approvals. -/
theorem noWorse_of_alike {rule rule' : BranchProtectionRule} (tightens : rule.Tightens rule')
    (alike : ReadsAlike reviews pr (some rule) (some rule')) :
    NoWorse (effectiveReviewsForPullRequestWith reviews pr (.forRule (some rule)))
      (effectiveReviewsForPullRequestWith reviews pr (.forRule (some rule'))) := by
  unfold ReadsAlike at alike
  cases loose : VerdictReach.forRule (some rule) with
  | exactHead =>
    rw [forRule_exact tightens loose]
    exact .refl _
  | unchangedDiff =>
    cases strict : VerdictReach.forRule (some rule') with
    | exactHead =>
      rw [loose, strict] at alike
      exact noWorse_of_approvals alike
    | unchangedDiff => exact .refl _

/-- Where a rule reads the reviews as no rule does, it overlooks no rejection. -/
theorem unrejected_of_alike (alike : ReadsAlike reviews pr none protection')
    (unrejected : ∀ review ∈ effectiveReviewsForPullRequestWith reviews pr (.forRule protection'),
      review.state ≠ .changesRequested) :
    ∀ review ∈ effectiveReviewsForPullRequestWith reviews pr (.forRule none),
      review.state ≠ .changesRequested := by
  intro review member rejects
  unfold ReadsAlike at alike
  cases reach : VerdictReach.forRule protection' with
  | exactHead =>
    rw [reach] at unrejected
    exact unrejected review member rejects
  | unchangedDiff =>
    rw [reach] at unrejected alike
    obtain ⟨other, there, kind⟩ := rejected_of_carried alike member rejects
    exact unrejected other there kind

/-- A stricter rule never opens the gate where both rules read the reviews alike. However they
    read them, nothing but the reviews is wanting under the weaker rule. -/
theorem tightening_keeps_shut (tightens : Tightens protection protection')
    (binds : context.Binds protection')
    (mergeable : (evaluateBranchProtectionWith pr protection' reviews statuses checkRuns requestedSha
      context).mergeable = true) :
    (∀ blocker ∈ (evaluateBranchProtectionWith pr protection reviews statuses checkRuns requestedSha
      context).blockers, blocker.readsReviews = true) ∧
    (ReadsAlike reviews pr protection protection' →
      (evaluateBranchProtectionWith pr protection reviews statuses checkRuns requestedSha
        context).mergeable = true) := by
  obtain ⟨intrinsic, ruled⟩ := evaluate_blockers.mp (evaluate_mergeable_iff.mp mergeable)
  obtain ⟨plain, unrejected⟩ := intrinsicBlockers_eq_nil.mp intrinsic
  have met (rule' : BranchProtectionRule) (given : protection' = some rule') := ruled rule' given (by
    cases admin : context.actorIsAdmin with
    | false => rfl
    | true => simp [binds rule' given admin])
  constructor
  · intro blocker member
    rcases mem_evaluate_blockers member with inside | ⟨rule, rfl, inside⟩
    · exact mem_intrinsicBlockers plain inside
    · cases protection' with
      | none => exact tightens.elim
      | some rule' => exact mem_ruleBlockers tightens (met rule' rfl) inside
  · intro alike
    refine evaluate_mergeable_iff.mpr (evaluate_blockers.mpr ?_)
    cases protection with
    | none =>
      refine ⟨intrinsicBlockers_eq_nil.mpr ⟨plain, unrejected_of_alike alike unrejected⟩, ?_⟩
      exact fun rule none => nomatch none
    | some rule =>
      cases protection' with
      | none => exact tightens.elim
      | some rule' =>
        have noWorse := noWorse_of_alike tightens alike
        refine ⟨intrinsicBlockers_eq_nil.mpr ⟨plain, fun review member rejects => ?_⟩, ?_⟩
        · obtain ⟨other, there, kind⟩ := noWorse.rejections review member rejects
          exact unrejected other there kind
        · intro same given _
          cases given
          exact (met rule' rfl).loosen tightens noWorse

section Demo

/-- One commit, whose diff is known. -/
def rewrittenDiff : List String :=
  ["v2:0000000000000000000000000000000000000000000000000000000000000000"]

/-- A pull request whose head was rewritten to the same diff. -/
def rewrittenPull : PullRequest :=
  { id := 0, owner := "acme", repo := "demo", number := 1, issueNumber := 1, title := "Add a parser"
    body := none, state := .opened, draft := false, author := "alice", sourceRepository := "acme/demo"
    head := .new "feature" "2222", base := .new "main" "0000"
    mergeable := false, mergeableState := "blocked", merged := false, mergedAt := none
    mergeCommitSha := none, commits := [], changedFiles := [], headPatchIds := rewrittenDiff
    createdAt := 0, updatedAt := 0 }

/-- A review of `bob` under the diff of `rewrittenPull`. -/
def rewrittenReview (id : Uuid) (state : ReviewState) (headSha : String) : Review :=
  { demoReview id "bob" state none with headSha := some headSha, headPatchIds := rewrittenDiff }

def carryingRule (dismissStaleApprovals : Bool) : BranchProtectionRule :=
  { defaultBranchProtectionRule "acme" "demo" "main" 0 with
    requiredApprovingReviewCount := 0, dismissStaleApprovals, requireExactShaApproval := false }

def plainContext : EvaluationContext where
  codeowners := none
  actorIsAdmin := false
  jankuraiProofMandatory := false

theorem carryingRule_tightens : Tightens (some (carryingRule false)) (some (carryingRule true)) where
  requiredApprovingReviewCount := Nat.le_refl _
  requiredStatusChecks _ := id
  dismissStaleApprovals _ := rfl
  requireExactShaApproval := id
  requiredLinearHistory := id
  requireSignedCommits := id
  requireJankuraiProof := id

theorem plainContext_binds (protection : Option BranchProtectionRule) :
    plainContext.Binds protection := fun _ _ admin => nomatch admin

/-- An approval that carries over. -/
theorem tightening_demo : (evaluateBranchProtectionWith rewrittenPull (some (carryingRule false))
    [rewrittenReview 0 .approved "1111"] [] [] none plainContext).mergeable = true := by
  have mergeable : (evaluateBranchProtectionWith rewrittenPull (some (carryingRule true))
      [rewrittenReview 0 .approved "1111"] [] [] none plainContext).mergeable = true := by
    decide +kernel
  refine (tightening_keeps_shut carryingRule_tightens (plainContext_binds _) mergeable).2 ?_
  show CarriesOnly .approved [rewrittenReview 0 .approved "1111"] rewrittenPull
  intro review member _
  cases List.mem_singleton.mp member
  exact ⟨.inl rfl, by decide +kernel⟩

/-- A rejection that carries over blocks under the weaker rule alone. -/
theorem not_tightening_keeps_shut :
    ¬∀ (pr : PullRequest) (protection protection' : Option BranchProtectionRule)
      (reviews : List Review) (statuses : List CommitStatus) (checkRuns : List CheckRun)
      (requestedSha : Option String) (context : EvaluationContext),
      Tightens protection protection' → context.Binds protection → context.Binds protection' →
      (evaluateBranchProtectionWith pr protection' reviews statuses checkRuns requestedSha
        context).mergeable = true →
      (evaluateBranchProtectionWith pr protection reviews statuses checkRuns requestedSha
        context).mergeable = true := by
  intro keeps
  have mergeable : (evaluateBranchProtectionWith rewrittenPull (some (carryingRule true))
      [rewrittenReview 0 .changesRequested "1111"] [] [] none plainContext).mergeable = true := by
    decide +kernel
  have blocked : (evaluateBranchProtectionWith rewrittenPull (some (carryingRule false))
      [rewrittenReview 0 .changesRequested "1111"] [] [] none plainContext).mergeable = false := by
    decide +kernel
  have still := keeps _ _ _ _ _ _ _ _ carryingRule_tightens (plainContext_binds _)
    (plainContext_binds _) mergeable
  rw [blocked] at still
  cases still

end Demo

end Tightening

end Jeryu.Core
