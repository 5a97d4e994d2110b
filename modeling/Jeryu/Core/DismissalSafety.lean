import Jeryu.Core.RetargetSafety

/-!
Dismissals of review verdicts. A dismissal takes its target out of the count for good and
brings nothing back: neither what the target replaced, nor what its reviewer's rivals had
replaced.
-/

namespace Jeryu.Core

open KeyedMap HashMap Relation LockProgram Text

/-- What a recorded dismissal leaves behind. -/
structure Dismissal (core core' : ForgeCore) (key : Scoped Nat) (actor : String) (targetId : Uuid)
    (pr : PullRequest) (target row : Review) : Prop where
  found : core.state.pulls.lookup key = some pr
  appended : core'.state.reviews = core.state.reviews.push key row
  id : row.id = core.uuids
  author : row.author = actor
  state : row.state = .dismissed
  head : row.headSha = some pr.head.sha
  aimed : row.dismissedReviewId = some targetId
  targetId : target.id = targetId
  allowed : Dismissible core pr (core.reviewsOf key) actor row.dismissalAuthority target

section Recorded

variable {core core' : ForgeCore} {owner repo actor : String} {number : Nat}
variable {request : DismissReviewRequest} {reply : Option (Except Failure Review)}

theorem writeReview_reviews (core : ForgeCore) (review : Review) (comments : List ReviewCommentInput) :
    (writeReview core review comments).reviews = core.state.reviews.push review.key review := by
  unfold writeReview
  dsimp only [State.emitEventLocked]
  rw [State.reevaluate_eq, State.withProfile_eq]
  rfl

/-- The section of a dismissal that changes the reviews records the dismissal. -/
theorem dismissReview_records
    (sect : Section (.dismissReview owner repo number actor request) core core' reply)
    (recorded : core'.state.reviews ≠ core.state.reviews) :
    ∃ pr target row,
      Dismissal core core' (owner, repo, number) actor request.reviewId pr target row := by
  cases sect with
  | audit entry audited => exact absurd rfl recorded
  | refused audited => exact absurd rfl recorded
  | profile profiled => cases profiled
  | dismissReview =>
    have commits : (recordReviewLocked owner repo number actor
        { body := some request.reason, event := .dismissed, comments := []
          expectedHeadSha := some request.expectedHeadSha } (some request.reviewId) core).Commits
        fun _ next _ => ∃ pr target row, core.state.pulls.lookup (owner, repo, number) = some pr ∧
          next.reviews = core.state.reviews.push (owner, repo, number) row ∧ row.id = core.uuids ∧
          row.author = actor ∧ row.state = .dismissed ∧ row.headSha = some pr.head.sha ∧
          row.dismissedReviewId = some request.reviewId ∧ target.id = request.reviewId ∧
          Dismissible core pr (core.reviewsOf (owner, repo, number)) actor row.dismissalAuthority
            target := by
      refine recordReviewLocked_commits fun pr authority audited found _ admitted => ?_
      obtain ⟨target, same, allowed⟩ := admitDismissal_ok admitted
      exact ⟨pr, target, _, found, writeReview_reviews .., rfl, rfl, rfl, rfl, rfl, same, allowed⟩
    rcases Outcome.leaves_state commits with same | ⟨draws, next, value, known, moved, -⟩
    · rw [same] at recorded
      exact absurd rfl recorded
    · obtain ⟨pr, target, row, found, pushed, id, author, state, head, aimed, same, allowed⟩ := known
      exact ⟨pr, target, row, found, by rw [moved, pushed], id, author, state, head, aimed, same,
        allowed⟩

variable {key : Scoped Nat} {targetId : Uuid} {pr : PullRequest} {target row : Review}

theorem Dismissal.rows (dismissal : Dismissal core core' key actor targetId pr target row) :
    core'.reviewsOf key = core.reviewsOf key ++ [row] := by
  unfold ForgeCore.reviewsOf
  rw [dismissal.appended, lookup_push, if_pos rfl]
  rfl

theorem Dismissal.withdrawn (dismissal : Dismissal core core' key actor targetId pr target row) :
    (ledgerOf (core'.reviewsOf key)).Withdrawn targetId := by
  rw [dismissal.rows]
  have member := dismissal.allowed.member
  refine ⟨row.verdict, List.mem_map_of_mem (by simp), dismissal.state, ?_, dismissal.aimed,
    target.verdict, List.mem_map_of_mem (by simp [member]), dismissal.targetId, ?_⟩
  · simp [Review.verdict, dismissal.head]
  · rcases dismissal.allowed.authorized with ⟨own, -⟩ | ⟨-, admin, -⟩
    · exact .inl (own.trans dismissal.author.symm)
    · exact .inr admin

/-- No approval of the administrator who dismisses may stand. -/
theorem authorizeCrossAuthorDismissal_ok {state : State} {reviews : List Review}
    (authorized : authorizeCrossAuthorDismissal state pr reviews actor = .ok ()) :
    eqIgnoreAsciiCase pr.author actor = false ∧
      ∀ review ∈ reviews, review.state = .approved → eqIgnoreAsciiCase review.author actor = true →
        (ledgerOf reviews).Withdrawn review.id := by
  unfold authorizeCrossAuthorDismissal at authorized
  split at authorized
  · cases authorized
  · split at authorized
    · cases authorized
    · split at authorized
      · cases authorized
      · split at authorized
        · cases authorized
        · next other =>
          split at authorized
          · cases authorized
          · next unapproved =>
            refine ⟨by simpa using other, fun review member approved same => ?_⟩
            refine mem_withdrawnVerdicts.mp ?_
            by_contra standing
            refine unapproved (List.any_eq_true.mpr ⟨review, member, ?_⟩)
            simpa [approved, same] using standing

/-- Whom the dismissal bars from approving has no approval left. -/
theorem Dismissal.bars (dismissal : Dismissal core core' key actor targetId pr target row)
    (coherent : core.Coherent) (verdict : Verdict) (member : verdict ∈ ledgerOf (core.reviewsOf key))
    (approved : verdict.state = .approved)
    (barred : (ledgerOf (core'.reviewsOf key)).Barred verdict.author) :
    (ledgerOf (core.reviewsOf key)).Barred verdict.author ∨
      (ledgerOf (core'.reviewsOf key)).Withdrawn verdict.id := by
  have sub : ledgerOf (core.reviewsOf key) ⊆ ledgerOf (core'.reviewsOf key) := by
    rw [dismissal.rows, ledgerOf, ledgerOf, List.map_append]
    exact List.subset_append_left _ _
  obtain ⟨old, inside, ⟨dismissed, here, admin, id, aimed, aim, known, fits, other⟩, same⟩ := barred
  rw [dismissal.rows, ledgerOf, List.map_append] at inside known
  rcases List.mem_append.mp inside with before | new
  · left
    refine ⟨old, before, ⟨dismissed, here, admin, id, aimed, aim, ?_, fits, other⟩, same⟩
    rcases List.mem_append.mp known with known | fresh
    · exact known
    · -- An earlier dismissal cannot aim at a review that is only written now.
      obtain ⟨review, stored, rfl⟩ := mem_ledgerOf.mp before
      have below : id < core.uuids := by
        cases rows : core.state.reviews.lookup key with
        | none => simp [ForgeCore.reviewsOf, rows] at stored
        | some reviews =>
          have stored : review ∈ reviews := by simpa [ForgeCore.reviewsOf, rows] using stored
          exact coherent.identified.targets key reviews rows review stored id aimed
      obtain rfl : aim = row.verdict := by simpa using fresh
      have drawn : row.id = id := fits
      rw [← drawn, dismissal.id] at below
      exact absurd below (Nat.lt_irrefl _)
  · right
    obtain rfl : old = row.verdict := by simpa using new
    have granted : row.dismissalAuthority = some .repositoryAdmin := admin
    rcases dismissal.allowed.authorized with ⟨-, none_⟩ | ⟨-, -, authorized⟩
    · rw [granted] at none_
      cases none_
    · obtain ⟨review, stored, rfl⟩ := mem_ledgerOf.mp member
      have lower : toAsciiLowercase row.author = toAsciiLowercase review.author := same
      rw [dismissal.author] at lower
      exact ((authorizeCrossAuthorDismissal_ok authorized).2 review stored approved
        (eqIgnoreAsciiCase_iff.mpr lower.symm)).mono sub

theorem ForgeCore.Coherent.reviewsOf_nodup (coherent : core.Coherent) (key : Scoped Nat) :
    ((core.reviewsOf key).map Review.id).Nodup := by
  unfold ForgeCore.reviewsOf
  cases found : core.state.reviews.lookup key with
  | none => simp
  | some rows => exact (coherent.identified.reviewIds key rows found).2

/-- The gate counts nothing it did not count before. -/
theorem Dismissal.subset (dismissal : Dismissal core core' key actor targetId pr target row)
    (coherent : core.Coherent) (coherent' : core'.Coherent) (headSha : String)
    (headPatchIds : List String) (reach : VerdictReach) (prAuthor : Option String) :
    reduceReviews (core'.reviewsOf key) headSha headPatchIds reach prAuthor ⊆
      reduceReviews (core.reviewsOf key) headSha headPatchIds reach prAuthor := by
  intro review effective
  have nodup := coherent'.reviewsOf_nodup key
  have bars := dismissal.bars coherent
  obtain ⟨member, stands⟩ := (mem_reduceReviews_iff nodup).mp effective
  have grown : ledgerOf (core'.reviewsOf key) = ledgerOf (core.reviewsOf key) ++ [row.verdict] := by
    rw [dismissal.rows]
    simp [ledgerOf]
  rw [dismissal.rows] at member
  rw [grown] at stands bars
  rcases List.mem_append.mp member with before | new
  · refine (mem_reduceReviews_iff (coherent.reviewsOf_nodup key)).mpr ⟨before, ?_⟩
    exact stands.of_append (nodup_of_grown nodup grown) (List.mem_map_of_mem before) bars
  · obtain rfl : review = row := by simpa using new
    obtain ⟨-, -, -, -, ⟨-, verdict⟩, -⟩ := stands
    have dismissed : review.verdict.state = .dismissed := dismissal.state
    rw [dismissed] at verdict
    simp at verdict

end Recorded

/-- From the section that dismisses `targetId` on, nothing comes back. -/
structure OnlyRemoves (pool pool' : Pool) (key : Scoped Nat) (targetId : Uuid) : Prop where
  target : ∃ target ∈ pool.shared.reviewsOf key, target.id = targetId
  subset : ∀ headSha headPatchIds reach prAuthor,
    reduceReviews (pool'.shared.reviewsOf key) headSha headPatchIds reach prAuthor ⊆
      reduceReviews (pool.shared.reviewsOf key) headSha headPatchIds reach prAuthor
  /-- The target counts nowhere any more. -/
  gone : ∀ last, Run forge (Guarded anyCall) pool' last →
    ∀ key' rows headSha headPatchIds reach prAuthor,
      last.shared.state.reviews.lookup key' = some rows →
      ∀ review ∈ reduceReviews rows headSha headPatchIds reach prAuthor, review.id ≠ targetId
  /-- What its reviewer wrote before it does not come back where the target could count. -/
  replaced : ∀ last, Run forge (Guarded anyCall) pool' last →
    ∀ before target after, pool.shared.reviewsOf key = before ++ target :: after →
      target.id = targetId → ∀ earlier ∈ before, earlier.author = target.author →
      ∀ key' rows headSha headPatchIds reach prAuthor,
        last.shared.state.reviews.lookup key' = some rows →
        inScope headSha headPatchIds reach target = true →
        ∀ review ∈ reduceReviews rows headSha headPatchIds reach prAuthor, review.id ≠ earlier.id

section Runs

variable {pool pool' last : Pool} {key key' : Scoped Nat} {rows : List Review} {stored review : Review}

/-- A list that holds a review known at `key` continues the list known there. -/
theorem Pool.ReachableWhen.reviewsOf_extends {condition : Call → ForgeCore → Prop}
    (reachable : pool.ReachableWhen condition)
    (run : Run forge (Guarded condition) pool last) (member : stored ∈ pool.shared.reviewsOf key)
    (found : last.shared.state.reviews.lookup key' = some rows) (member' : review ∈ rows)
    (same : review.id = stored.id) :
    ∃ later, ledgerOf rows = ledgerOf (pool.shared.reviewsOf key) ++ later := by
  unfold ForgeCore.reviewsOf at member ⊢
  cases known : pool.shared.state.reviews.lookup key with
  | none => simp [known] at member
  | some reviews =>
    rw [known] at member
    exact reachable.ledger_extends run known member found member' same

/-- A verdict withdrawn before counts nowhere later. -/
theorem Ledger.Withdrawn.not_counted (reachable : pool.Reachable)
    (run : Run forge (Guarded anyCall) pool last)
    (withdrawn : (ledgerOf (pool.shared.reviewsOf key)).Withdrawn stored.id)
    (member : stored ∈ pool.shared.reviewsOf key)
    (found : last.shared.state.reviews.lookup key' = some rows) {headSha : String}
    {headPatchIds : List String} {reach : VerdictReach} {prAuthor : Option String}
    (effective : review ∈ reduceReviews rows headSha headPatchIds reach prAuthor) :
    review.id ≠ stored.id := by
  intro same
  have nodup := ((reachable.run run).coherent.identified.reviewIds key' rows found).2
  obtain ⟨member', stands⟩ := (mem_reduceReviews_iff nodup).mp effective
  obtain ⟨later, grown⟩ := reachable.reviewsOf_extends run member found member' same
  rw [grown] at stands
  have still : review.verdict.id = stored.id := same
  exact stands.not_withdrawn (still ▸ withdrawn.mono (List.subset_append_left _ _))

/-- What a withdrawn verdict had replaced counts nowhere the verdict could count. -/
theorem Ledger.Withdrawn.not_uncovered (reachable : pool.Reachable)
    (run : Run forge (Guarded anyCall) pool last) {before after : List Review} {target : Review}
    (split : pool.shared.reviewsOf key = before ++ target :: after)
    (withdrawn : (ledgerOf (pool.shared.reviewsOf key)).Withdrawn target.id)
    (member : stored ∈ before) (author : stored.author = target.author)
    (found : last.shared.state.reviews.lookup key' = some rows) {headSha : String}
    {headPatchIds : List String} {reach : VerdictReach} {prAuthor : Option String}
    (scope : inScope headSha headPatchIds reach target = true)
    (effective : review ∈ reduceReviews rows headSha headPatchIds reach prAuthor) :
    review.id ≠ stored.id := by
  intro same
  have nodup := ((reachable.run run).coherent.identified.reviewIds key' rows found).2
  obtain ⟨member', stands⟩ := (mem_reduceReviews_iff nodup).mp effective
  have known : stored ∈ pool.shared.reviewsOf key := by
    rw [split]
    simp [member]
  obtain ⟨later, grown⟩ := reachable.reviewsOf_extends run known found member' same
  have verdict := verdict_of_grown nodup grown known member' same
  have apart : ledgerOf (pool.shared.reviewsOf key) ++ later =
      ledgerOf before ++ (target.verdict :: (ledgerOf after ++ later)) := by
    rw [split]
    simp [ledgerOf]
  have ids := nodup_of_grown nodup grown
  rw [verdict, grown, apart] at stands
  rw [apart] at ids
  obtain ⟨-, right, -, -, -, clear⟩ := stands.split ids (List.mem_map_of_mem member)
  refine clear target.verdict (List.mem_append_right _ List.mem_cons_self) (inScope_iff.mp scope)
    author.symm (.inl ?_)
  rw [← apart]
  exact withdrawn.mono (List.subset_append_left _ _)

end Runs

theorem dismissal_only_removes {pool pool' : Pool} (reachable : pool.Reachable) {i number : Nat}
    {owner repo actor : String} {request : DismissReviewRequest}
    {reply : Option (Except Failure Review)}
    (writes : pool.Writes i (.dismissReview owner repo number actor request) reply pool')
    (recorded : pool'.shared.state.reviews ≠ pool.shared.state.reviews) :
    OnlyRemoves pool pool' (owner, repo, number) request.reviewId := by
  have step : Step forge (Guarded anyCall) pool pool' := writes.step fun _ => .any
  have reachable' : pool'.Reachable := reachable.run (.single step)
  obtain ⟨pr, target, row, dismissal⟩ := dismissReview_records (reachable.writes writes) recorded
  have member := dismissal.allowed.member
  have withdrawn := dismissal.withdrawn
  have kept : target ∈ pool'.shared.reviewsOf (owner, repo, number) := by
    rw [dismissal.rows]
    exact List.mem_append_left _ member
  refine ⟨⟨target, member, dismissal.targetId⟩, ?_, ?_, ?_⟩
  · exact dismissal.subset reachable.coherent reachable'.coherent
  · intro last run key' rows headSha headPatchIds reach prAuthor found review effective
    rw [← dismissal.targetId] at withdrawn ⊢
    exact withdrawn.not_counted reachable' run kept found effective
  · intro last run before other after split same earlier member author key' rows headSha
      headPatchIds reach prAuthor found scope review effective
    have whole : pool'.shared.reviewsOf (owner, repo, number) = before ++ other :: (after ++ [row]) := by
      rw [dismissal.rows, split]
      simp
    rw [← same] at withdrawn
    exact withdrawn.not_uncovered reachable' run whole member author found scope effective

section Demo

def dismissalRule : SetBranchProtectionRequest :=
  { SetBranchProtectionRequest.default with
    allowAdminReviewDismissal := true, enforceAdmins := false }

def dismissBob : Call :=
  .dismissReview "acme" "demo" 1 "root"
    { reviewId := 5, expectedHeadSha := Call.demoHead, reason := "wrong diff" }

/-- An administrator's dismissal of somebody else's approval, about to take the write lock. -/
def dismissalAtLock : List (Turn Call) :=
  [.alone (.createAccount "root" "correct horse battery" .admin (.ok "hash")), .alone .newDemo,
    .alone (.setBranchProtection "acme" "demo" "main" dismissalRule), .alone (.newPull "alice"),
    .alone (reviewBy "bob" .approved), .enter dismissBob, .advance 5]

theorem dismissal_demo :
    OnlyRemoves (ForgeCore.durable.played dismissalAtLock)
      ((ForgeCore.durable.played dismissalAtLock).turn forge (.advance 5)) ("acme", "demo", 1) 5 := by
  have reachable : (ForgeCore.durable.played dismissalAtLock).Reachable :=
    played_any rfl (by decide)
  obtain ⟨reply, writes⟩ : ∃ reply, (ForgeCore.durable.played dismissalAtLock).Writes 5 dismissBob
      reply ((ForgeCore.durable.played dismissalAtLock).turn forge (.advance 5)) :=
    Config.turn_writes rfl (by decide +kernel)
  refine dismissal_only_removes reachable writes fun same => ?_
  have before : ((ForgeCore.durable.played dismissalAtLock).shared.reviewsOf
      ("acme", "demo", 1)).length = 1 := by decide +kernel
  have after : (((ForgeCore.durable.played dismissalAtLock).turn forge (.advance 5)).shared.reviewsOf
      ("acme", "demo", 1)).length = 2 := by decide +kernel
  rw [ForgeCore.reviewsOf, same] at after
  rw [ForgeCore.reviewsOf, after] at before
  cases before

end Demo

end Jeryu.Core
