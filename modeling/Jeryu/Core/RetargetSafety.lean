import Jeryu.Core.History

/-!
Approvals and the base they were given against. A retarget is refused while an approval
stands at a head it was given at; the gate may also count an approval through the diff
identity it was given for, which the refusal does not look at.
-/

namespace Jeryu.Core

open KeyedMap HashMap Relation LockProgram

/-- No approval counts, at any head, under the diff identity it was given for. -/
def ApprovalsLapsed (reviews : List Review) : Prop :=
  ∀ approval ∈ reviews, approval.state = .approved → ∀ headSha,
    approval ∉ reduceReviews reviews headSha approval.headPatchIds .unchangedDiff none

def ForgeCore.reviewsOf (core : ForgeCore) (key : Scoped Nat) : List Review :=
  (core.state.reviews.lookup key).getD []

/-- The gate counts the review for some pull request, at one reach or the other. -/
def ForgeCore.Counted (core : ForgeCore) (id : Uuid) : Prop :=
  ∃ key pr rows reach, core.state.pulls.lookup key = some pr ∧
    core.state.reviews.lookup key = some rows ∧
    ∃ review ∈ effectiveReviewsForPullRequestWith rows pr reach, review.id = id

def ForgeCore.countsUnchanged (core : ForgeCore) (key : Scoped Nat) (id : Uuid) : Bool :=
  (core.state.pulls.lookup key).any fun pr => (core.state.reviews.lookup key).any fun rows =>
    (effectiveReviewsForPullRequestWith rows pr .unchangedDiff).any fun review => review.id == id

theorem ForgeCore.counted_of_countsUnchanged {core : ForgeCore} {key : Scoped Nat} {id : Uuid}
    (counts : core.countsUnchanged key id = true) : core.Counted id := by
  obtain ⟨pr, found, counts⟩ := (Option.any_eq_true _ _).mp counts
  obtain ⟨rows, stored, counts⟩ := (Option.any_eq_true _ _).mp counts
  obtain ⟨review, member, same⟩ := List.any_eq_true.mp counts
  exact ⟨key, pr, rows, .unchangedDiff, found, stored, review, member, by simpa using same⟩

section Rows

variable {reviews rows : List Review} {approval review : Review} {pr : PullRequest}
variable {reach : VerdictReach}

/-- An approval at a head it was given at holds a retarget. -/
theorem standingApproval_of_effective {headSha : String} (stored : approval ∈ reviews)
    (approved : approval.state = .approved) (given : approval.headSha = some headSha)
    (effective : approval ∈ effectiveReviewsForHead reviews headSha) :
    standingApproval reviews = true := by
  have head : headSha ∈ (reviews.filter fun review => review.state = .approved).filterMap
      Review.headSha :=
    List.mem_filterMap.mpr ⟨approval, List.mem_filter.mpr ⟨stored, by simpa using approved⟩, given⟩
  have counted : ((effectiveReviewsForHead reviews headSha).any fun review =>
      review.state = .approved) = true :=
    List.any_eq_true.mpr ⟨approval, effective, by simpa using approved⟩
  exact List.any_eq_true.mpr ⟨headSha, head, counted⟩

theorem retargetLocked_ok {actor owner repo base : String} {number : Nat}
    {request : RetargetPullRequestRequest} {core : ForgeCore} {updated : PullRequest}
    (answered : (retargetLocked actor owner repo number base request core).answers core = .ok updated) :
    standingApproval (core.reviewsOf (owner, repo, number)) = false := by
  unfold retargetLocked at answered
  dsimp only at answered
  split at answered
  · cases answered
  · split at answered
    · cases answered
    · split at answered
      · cases answered
      · split at answered
        · cases answered
        · split at answered
          · cases answered
          · next unapproved => exact Bool.eq_false_iff.mpr unapproved

theorem retargetPullRequest_ok {actor owner repo : String} {number : Nat}
    {request : RetargetPullRequestRequest} {branches : RepoBranches} {core core' : ForgeCore}
    {reply : Option (Except Failure PullRequest)} {updated : PullRequest}
    (sect : Section (.retargetPullRequest actor owner repo number request branches) core core' reply)
    (answered : reply = some (.ok updated)) :
    standingApproval (core.reviewsOf (owner, repo, number)) = false := by
  cases sect with
  | audit entry audited => cases audited
  | refused audited => cases audited
  | profile profiled => cases profiled
  | retargetPullRequest => exact retargetLocked_ok (Option.some.inj answered)

/-- What counts among more rows counted before, at the head it was given at or under the diff
    identity it was given for. -/
theorem counted_before (nodup : (rows.map Review.id).Nodup) {later : Ledger}
    (grown : ledgerOf rows = ledgerOf reviews ++ later) (stored : approval ∈ reviews)
    (approved : approval.state = .approved) (same : review.id = approval.id)
    (effective : review ∈ effectiveReviewsForPullRequestWith rows pr reach) :
    (∃ headSha, approval.headSha = some headSha ∧
        approval ∈ effectiveReviewsForHead reviews headSha) ∨
      approval ∈ reduceReviews reviews pr.head.sha approval.headPatchIds .unchangedDiff none := by
  obtain ⟨member, stands⟩ := (mem_reduceReviews_iff nodup).mp effective
  have ids := nodup_of_grown nodup grown
  have before : (reviews.map Review.id).Nodup := by
    rw [List.map_append, List.nodup_append, ledgerOf, List.map_map] at ids
    exact ids.1
  have known : approval.verdict ∈ ledgerOf reviews := List.mem_map_of_mem stored
  have row : review.verdict = approval.verdict := verdict_of_grown nodup grown stored member same
  rw [row, grown] at stands
  obtain ⟨-, -, -, here, -⟩ := stands.split ids known
  rcases here with head | ⟨carried, identity⟩
  · left
    refine ⟨pr.head.sha, head, (mem_reduceReviews_iff before).mpr ⟨stored, ?_⟩⟩
    refine stands.approved_of_append ids known approved (.inl head) fun row here => ?_
    rcases here with head | ⟨carried, -⟩
    · exact .inl head
    · simp [carriesUnchangedDiff] at carried
  · right
    have identity : approval.headPatchIds = pr.headPatchIds := identity
    have far : reach = .unchangedDiff := by
      simp only [carriesUnchangedDiff, Bool.and_eq_true, decide_eq_true_eq] at carried
      exact carried.1.1.1
    subst far
    rw [← identity] at stands carried
    refine (mem_reduceReviews_iff before).mpr ⟨stored, ?_⟩
    exact stands.approved_of_append ids known approved (.inr ⟨carried, rfl⟩) fun row here => here

/-- A later rejection, given where the approval was given, takes its place wherever the
    approval could count. -/
theorem replaced_by_rejection (before : List Review) {after : List Review} {rejection : Review} {headSha : String}
    {headPatchIds : List String} {prAuthor : Option String}
    (nodup : ((before ++ approval :: after).map Review.id).Nodup) (later : rejection ∈ after)
    (rejects : rejection.state = .changesRequested) (author : rejection.author = approval.author)
    (head : rejection.headSha = approval.headSha)
    (identity : rejection.headPatchIds = approval.headPatchIds) :
    approval ∉ reduceReviews (before ++ approval :: after) headSha headPatchIds reach prAuthor := by
  intro counted
  have stands := ((mem_reduceReviews_iff nodup).mp counted).2
  have rows : ledgerOf (before ++ approval :: after) =
      (ledgerOf before ++ [approval.verdict]) ++ ledgerOf after := by simp [ledgerOf]
  rw [rows] at stands
  have ids : (((ledgerOf before ++ [approval.verdict]) ++ ledgerOf after).map Verdict.id).Nodup := by
    rw [← rows, ledgerOf, List.map_map]
    exact nodup
  obtain ⟨left, right, -, here, -, clear⟩ := stands.split ids (by simp)
  have member : rejection.verdict ∈ right ++ ledgerOf after :=
    List.mem_append_right _ (List.mem_map_of_mem later)
  have scope : InScope headSha headPatchIds reach rejection.verdict := by
    have same : rejection.verdict.headSha = approval.verdict.headSha := head
    have same' : rejection.verdict.headPatchIds = approval.verdict.headPatchIds := identity
    rw [InScope, same, same']
    exact here
  refine clear _ member scope author ?_
  by_cases gone : ((ledgerOf before ++ [approval.verdict]) ++ ledgerOf after).Withdrawn rejection.id
  · exact .inl gone
  · exact .inr (.inl ⟨gone, .inl rejects⟩)

end Rows

/-- Where no approval counts under its own diff identity, a retarget voids every approval for
    good. -/
theorem retarget_voids_approvals {pool pool' last : Pool} (reachable : pool.Reachable)
    {i number : Nat} {actor owner repo : String} {request : RetargetPullRequestRequest}
    {branches : RepoBranches} {updated : PullRequest}
    (writes : pool.Writes i (.retargetPullRequest actor owner repo number request branches)
      (some (.ok updated)) pool')
    (lapsed : ApprovalsLapsed (pool.shared.reviewsOf (owner, repo, number)))
    (run : Run forge (Guarded anyCall) pool' last) {approval : Review}
    (stored : approval ∈ pool.shared.reviewsOf (owner, repo, number))
    (approved : approval.state = .approved) : ¬last.shared.Counted approval.id := by
  rintro ⟨key, pr, rows, reach, -, found, review, effective, same⟩
  have refused : standingApproval (pool.shared.reviewsOf (owner, repo, number)) = false :=
    retargetPullRequest_ok (reachable.writes writes) rfl
  cases before : pool.shared.state.reviews.lookup (owner, repo, number) with
  | none => simp [ForgeCore.reviewsOf, before] at stored
  | some reviews =>
    simp only [ForgeCore.reviewsOf, before, Option.getD_some] at stored refused lapsed
    have whole : Run forge (Guarded anyCall) pool last := .head (writes.step fun _ => .any) run
    have nodup := ((reachable.run whole).coherent.identified.reviewIds key rows found).2
    have member : review ∈ rows := ((mem_reduceReviews_iff nodup).mp effective).1
    obtain ⟨later, grown⟩ := reachable.ledger_extends whole before stored found member same
    rcases counted_before nodup grown stored approved same effective with
      ⟨headSha, given, counted⟩ | counted
    · rw [standingApproval_of_effective stored approved given counted] at refused
      cases refused
    · exact lapsed approval stored approved _ counted

section Demo

def reviewBy (author : String) (event : ReviewState) : Call :=
  .createReview "acme" "demo" 1 author
    { body := some "reviewed", event, comments := [], expectedHeadSha := none }

/-- A repository with every branch anyone asks for. -/
def anyBranch : RepoBranches where
  branchExists _ _ _ := .ok true
  headBranch _ _ := .ok none
  pointHeadAt _ _ _ := .ok ()

def retargetToRelease : Call :=
  .retargetPullRequest "root" "acme" "demo" 1
    { base := "release", baseSha := Call.demoBase, headSha := Call.demoHead
      commits := [{ sha := Call.demoHead, verified := false, parents := 1 }]
      changedFiles := ["src/parser.rs"] } anyBranch

def demoPatchIds : List String :=
  ["v2:0000000000000000000000000000000000000000000000000000000000000000"]

def refreshTo (headSha : String) : Call :=
  .refreshPullRequestHeadsFromGit "acme" "demo" "feature" headSha Call.demoBase (.ok demoPatchIds)
    (.ok [{ sha := headSha, verified := false, parents := 1 }])

/-- An approval replaced where it was given, and a retarget that waits for the write lock. -/
def retargetReplaced : List (Turn Call) :=
  [.alone .newDemo, .alone (.newPull "alice"), .alone (reviewBy "bob" .approved),
    .alone (reviewBy "bob" .changesRequested), .enter retargetToRelease, .advance 4]

/-- An approval of a known diff, replaced after the base moved and took the identity away. -/
def retargetUnbound : List (Turn Call) :=
  [.alone .newDemo, .alone (.newPull "alice"), .alone (refreshTo Call.demoHead),
    .alone (reviewBy "bob" .approved),
    .alone (.recordPullRequestBase "root" "acme" "demo" 1 Call.demoHead
      "2222222222222222222222222222222222222222"),
    .alone (reviewBy "bob" .changesRequested), .enter retargetToRelease, .advance 6]

theorem retarget_writes {turns : List (Turn Call)} {i : Nat} {rest}
    (running : (ForgeCore.inMemory.played turns).tasks[i]? = some ⟨retargetToRelease, rest⟩)
    (answers : (rest.answerAtLock (ForgeCore.inMemory.played turns).shared).any Except.isOk = true) :
    ∃ updated, (ForgeCore.inMemory.played turns).Writes i retargetToRelease (some (.ok updated))
      ((ForgeCore.inMemory.played turns).turn forge (.advance i)) := by
  obtain ⟨reply, good, writes⟩ : ∃ reply, Except.isOk reply = true ∧
      (ForgeCore.inMemory.played turns).Writes i retargetToRelease (some reply)
        ((ForgeCore.inMemory.played turns).turn forge (.advance i)) :=
    Config.turn_answers running answers
  cases reply with
  | ok updated => exact ⟨updated, writes⟩
  | error failure => cases good

/-- Two rows: an approval, and the rejection that replaces it. -/
def replacedRows : List Review → Bool
  | [approval, rejection] =>
    decide (approval.state = .approved) && decide (rejection.state = .changesRequested) &&
      rejection.author == approval.author && rejection.headSha == approval.headSha &&
      rejection.headPatchIds == approval.headPatchIds
  | _ => false

theorem retarget_voids_demo : ∃ approval : Review, approval.state = .approved ∧
    ¬((ForgeCore.inMemory.played retargetReplaced).turn forge (.advance 4)).shared.Counted
      approval.id := by
  have reachable : (ForgeCore.inMemory.played retargetReplaced).Reachable :=
    played_any rfl (by decide)
  obtain ⟨updated, writes⟩ :=
    @retarget_writes retargetReplaced 4 _ rfl (by decide +kernel)
  have rows : replacedRows ((ForgeCore.inMemory.played retargetReplaced).shared.reviewsOf
      ("acme", "demo", 1)) = true := by decide +kernel
  have nodup : (((ForgeCore.inMemory.played retargetReplaced).shared.reviewsOf
      ("acme", "demo", 1)).map Review.id).Nodup := by decide +kernel
  generalize stored : (ForgeCore.inMemory.played retargetReplaced).shared.reviewsOf
    ("acme", "demo", 1) = reviews at rows nodup
  match reviews, rows with
  | [approval, rejection], rows =>
    simp only [replacedRows, Bool.and_eq_true, decide_eq_true_eq, beq_iff_eq] at rows
    obtain ⟨⟨⟨⟨approved, rejects⟩, author⟩, head⟩, identity⟩ := rows
    refine ⟨approval, approved, retarget_voids_approvals reachable writes ?_ .refl ?_ approved⟩
    · rw [stored]
      intro other member approved' headSha
      rcases List.mem_pair.mp member with rfl | rfl
      · exact replaced_by_rejection [] nodup (by simp) rejects author head identity
      · rw [rejects] at approved'
        cases approved'
    · rw [stored]
      simp

/-- The replaced approval counts again at a head with the diff it was given for. -/
theorem not_retarget_voids_approvals :
    ¬∀ (pool pool' last : Pool) (i number : Nat) (actor owner repo : String)
      (request : RetargetPullRequestRequest) (branches : RepoBranches) (updated : PullRequest),
      pool.Reachable →
      pool.Writes i (.retargetPullRequest actor owner repo number request branches)
        (some (.ok updated)) pool' →
      Run forge (Guarded anyCall) pool' last →
      ∀ approval ∈ pool.shared.reviewsOf (owner, repo, number), approval.state = .approved →
        ¬last.shared.Counted approval.id := by
  intro voids
  have reachable : (ForgeCore.inMemory.played retargetUnbound).Reachable :=
    played_any rfl (by decide)
  obtain ⟨updated, writes⟩ := @retarget_writes retargetUnbound 6 _ rfl (by decide +kernel)
  let head : String := "3333333333333333333333333333333333333333"
  have run : Run forge (Guarded anyCall)
      ((ForgeCore.inMemory.played retargetUnbound).turn forge (.advance 6))
      (((ForgeCore.inMemory.played retargetUnbound).turn forge (.advance 6)).play forge
        [.alone (refreshTo head)]) :=
    play_run (plays_of_plain (by decide) fun _ _ => True.intro)
  have revived : ((ForgeCore.inMemory.played retargetUnbound).shared.reviewsOf
      ("acme", "demo", 1)).any (fun approval => decide (approval.state = .approved) &&
        (((ForgeCore.inMemory.played retargetUnbound).turn forge (.advance 6)).play forge
          [.alone (refreshTo head)]).shared.countsUnchanged ("acme", "demo", 1) approval.id) = true := by
    decide +kernel
  obtain ⟨approval, stored, revived⟩ := List.any_eq_true.mp revived
  simp only [Bool.and_eq_true, decide_eq_true_eq] at revived
  exact voids _ _ _ _ _ _ _ _ _ _ _ reachable writes run approval stored revived.1
    (ForgeCore.counted_of_countsUnchanged revived.2)

end Demo

end Jeryu.Core
