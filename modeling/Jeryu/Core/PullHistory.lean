import Jeryu.Core.Touch

/-!
Where the pull requests of a state come from: each was opened by the section that wrote the
state, or goes back step by step to one the section found.
-/

namespace Jeryu.Core

open KeyedMap HashMap Relation

/-- What happens to one pull request. The edits callers ask for satisfy `asks`. -/
inductive PullStep (asks : PullRequest → UpdatePullRequestRequest → Prop) :
    PullRequest → PullRequest → Prop where
  | edited {pr edited} (follows : edited.Follows pr) (evaluation : BranchProtectionEvaluation) :
      PullStep asks pr (applyEvaluation edited evaluation)
  | updated {pr request} (asked : asks pr request) (now : DateTime)
      (evaluation : BranchProtectionEvaluation) :
      PullStep asks pr (applyEvaluation (request.apply pr now) evaluation)
  | merged {pr} (unmerged : pr.merged = false) (unclosed : pr.state ≠ .closed) (mergeSha : String)
      (now : DateTime) : PullStep asks pr (mergedPull pr mergeSha now)
  | moved (pr : PullRequest) (old new : Slug) : PullStep asks pr (movedPull old new pr)

theorem PullStep.mono {asks asks' : PullRequest → UpdatePullRequestRequest → Prop}
    {pr pr' : PullRequest} (step : PullStep asks pr pr')
    (weaker : ∀ pr request, asks pr request → asks' pr request) : PullStep asks' pr pr' := by
  cases step with
  | edited follows evaluation => exact .edited follows evaluation
  | updated asked now evaluation => exact .updated (weaker _ _ asked) now evaluation
  | merged unmerged unclosed mergeSha now => exact .merged unmerged unclosed mergeSha now
  | moved old new => exact .moved pr old new

/-- A pull request as it is opened. -/
structure Footprint.Opened (print : Footprint) (pr : PullRequest) : Prop where
  drawn : print.drawn pr.id
  unmerged : pr.merged = false
  live : pr.state ≠ .merged
  undated : pr.mergedAt = none
  unrecorded : pr.mergeCommitSha = none
  gated : pr.Gated

def State.Derives (s : State) (print : Footprint) (pr' : PullRequest) : Prop :=
  ∃ pr, ReflTransGen (PullStep print.updates) pr pr' ∧
    (print.Opened pr ∨ ∃ key, s.pulls.lookup key = some pr)

section Steps

variable {print : Footprint} {s s' : State} {pr pr' : PullRequest}

theorem State.Derives.step (derives : s.Derives print pr) (step : PullStep print.updates pr pr') :
    s.Derives print pr' := by
  obtain ⟨first, steps, origin⟩ := derives
  exact ⟨first, steps.tail step, origin⟩

theorem State.derives_stored (s : State) : s.pulls.Every fun _ pr => s.Derives print pr :=
  fun key pr found => ⟨pr, .refl, .inr ⟨key, found⟩⟩

theorem Touch.derives (touch : Touch print s s') : s'.pulls.Every fun _ pr => s.Derives print pr := by
  have stored : s.pulls.Every fun _ pr => s.Derives print pr := s.derives_stored
  cases touch with
  | defaultBranchSet =>
    rw [State.ensureDefaultBranchProtection_eq]
    exact stored
  | optOutSet =>
    rw [State.withOptOut_eq]
    exact stored
  | @issueOpened numbered issue may within next =>
    have counted : numbered = (s.nextRecordNumber issue.owner issue.repo).2 := by rw [next]
    subst counted
    exact stored
  | pullOpened pr own may within drawn fresh backed marked number unmerged live undated unrecorded vacant
      gated =>
    exact stored.insert ⟨pr, .refl, .inl ⟨drawn, unmerged, live, undated, unrecorded, gated⟩⟩
  | pullEdited found within follows evaluation =>
    exact stored.insert ((stored _ _ found).step (.edited follows evaluation))
  | pullUpdated found within asked now evaluation =>
    exact stored.insert ((stored _ _ found).step (.updated asked now evaluation))
  | pullMerged found within unmerged unclosed mergeSha now =>
    exact stored.insert ((stored _ _ found).step (.merged unmerged unclosed mergeSha now))
  | _ => exact stored

theorem Touches.derives (touches : Touches print s s') :
    s'.pulls.Every fun _ pr => s.Derives print pr := by
  induction touches with
  | refl => exact s.derives_stored
  | tail _ touch ih =>
    intro key pr' found
    obtain ⟨pr, steps, opened | ⟨key, before⟩⟩ := touch.derives key pr' found
    · exact ⟨pr, steps, .inl opened⟩
    · obtain ⟨first, earlier, origin⟩ := ih key pr before
      exact ⟨first, earlier.trans steps, origin⟩

theorem Shift.derives (shift : Shift print s s') : s'.pulls.Every fun _ pr => s.Derives print pr := by
  have stored : s.pulls.Every fun _ pr => s.Derives print pr := s.derives_stored
  cases shift with
  | created =>
    rw [State.ensureDefaultBranchProtection_eq]
    exact stored
  | deleted found => exact stored.removeAll _
  | relocated found free now =>
    exact every_rekeyTriples (ne_of_lookup found free) stored fun _ pr derives =>
      derives.step (.moved pr _ _)

theorem Moves.derives (moves : Moves print s s') : s'.pulls.Every fun _ pr => s.Derives print pr := by
  cases moves with
  | touches writes => exact Touches.derives writes
  | shift may moved => exact moved.derives

/-- What holds of every pull request as it is opened, and what each step keeps. -/
theorem Moves.everyPull {P : PullRequest → Prop} (moves : Moves print s s')
    (every : s.pulls.Every fun _ pr => P pr) (opened : ∀ pr, print.Opened pr → P pr)
    (step : ∀ pr pr', PullStep print.updates pr pr' → P pr → P pr') : s'.pulls.Every fun _ pr => P pr := by
  intro key pr' found
  obtain ⟨pr, steps, origin⟩ := moves.derives key pr' found
  have first : P pr := by
    rcases origin with fresh | ⟨key, stored⟩
    · exact opened pr fresh
    · exact every key pr stored
  clear found
  induction steps with
  | refl => exact first
  | tail _ last ih => exact step _ _ last ih

end Steps

section Kept

variable {asks : PullRequest → UpdatePullRequestRequest → Prop} {pr edited : PullRequest}

theorem applyEvaluation_key (pr : PullRequest) (evaluation : BranchProtectionEvaluation) :
    (applyEvaluation pr evaluation).key = pr.key ∧
      (applyEvaluation pr evaluation).number = pr.number ∧
      (applyEvaluation pr evaluation).issueNumber = pr.issueNumber ∧
      (applyEvaluation pr evaluation).id = pr.id := by
  unfold applyEvaluation
  split
  · exact ⟨rfl, rfl, rfl, rfl⟩
  · split <;> exact ⟨rfl, rfl, rfl, rfl⟩

theorem UpdatePullRequestRequest.apply_key (request : UpdatePullRequestRequest) (pr : PullRequest)
    (now : DateTime) :
    (request.apply pr now).key = pr.key ∧ (request.apply pr now).number = pr.number ∧
      (request.apply pr now).issueNumber = pr.issueNumber ∧ (request.apply pr now).id = pr.id := by
  unfold UpdatePullRequestRequest.apply
  cases request.draft <;> cases request.state <;> exact ⟨rfl, rfl, rfl, rfl⟩

theorem PullRequest.Follows.key (follows : edited.Follows pr) : edited.key = pr.key := by
  simp [PullRequest.key, follows.owner, follows.repo, follows.number]

/-- The merge of a pull request, as far as no edit may rewrite it. -/
structure PullRequest.SameMerge (edited pr : PullRequest) : Prop where
  merged : edited.merged = pr.merged
  mergedAt : edited.mergedAt = pr.mergedAt
  mergeCommitSha : edited.mergeCommitSha = pr.mergeCommitSha

theorem PullRequest.SameMerge.trans {last : PullRequest} (later : last.SameMerge edited)
    (earlier : edited.SameMerge pr) : last.SameMerge pr :=
  ⟨later.merged.trans earlier.merged, later.mergedAt.trans earlier.mergedAt,
    later.mergeCommitSha.trans earlier.mergeCommitSha⟩

theorem applyEvaluation_sameMerge (pr : PullRequest) (evaluation : BranchProtectionEvaluation) :
    (applyEvaluation pr evaluation).SameMerge pr := by
  unfold applyEvaluation
  split
  · exact ⟨rfl, rfl, rfl⟩
  · split <;> exact ⟨rfl, rfl, rfl⟩

theorem UpdatePullRequestRequest.apply_sameMerge (request : UpdatePullRequestRequest)
    (pr : PullRequest) (now : DateTime) : (request.apply pr now).SameMerge pr := by
  unfold UpdatePullRequestRequest.apply
  cases request.draft <;> cases request.state <;> exact ⟨rfl, rfl, rfl⟩

theorem PullRequest.Follows.sameMerge (follows : edited.Follows pr) : edited.SameMerge pr :=
  ⟨follows.merged, follows.mergedAt, follows.mergeCommitSha⟩

theorem PullStep.id {pr' : PullRequest} (step : PullStep asks pr pr') : pr'.id = pr.id := by
  cases step with
  | edited follows evaluation => exact (applyEvaluation_key _ evaluation).2.2.2.trans follows.id
  | updated asked now evaluation =>
    exact (applyEvaluation_key _ evaluation).2.2.2.trans (UpdatePullRequestRequest.apply_key _ pr now).2.2.2
  | merged => rfl
  | moved => rfl

theorem PullStep.gated {pr' : PullRequest} (step : PullStep asks pr pr') (gated : pr.Gated) :
    pr'.Gated := by
  cases step with
  | edited follows evaluation => exact applyEvaluation_gated _ evaluation
  | updated asked now evaluation => exact applyEvaluation_gated _ evaluation
  | merged unmerged unclosed mergeSha now => exact fun still => absurd still (by simp [PullRequest.isOpen, mergedPull])
  | moved old new => exact gated

/-- Only a merge being recorded rewrites what is recorded of it. -/
theorem PullStep.merge {pr' : PullRequest} (step : PullStep asks pr pr') :
    pr'.SameMerge pr ∨ (pr.merged = false ∧ ∃ mergeSha now, pr' = mergedPull pr mergeSha now) := by
  cases step with
  | edited follows evaluation =>
    exact .inl ((applyEvaluation_sameMerge _ evaluation).trans follows.sameMerge)
  | updated asked now evaluation =>
    exact .inl ((applyEvaluation_sameMerge _ evaluation).trans
      (UpdatePullRequestRequest.apply_sameMerge _ pr now))
  | merged unmerged unclosed mergeSha now => exact .inr ⟨unmerged, mergeSha, now, rfl⟩
  | moved => exact .inl ⟨rfl, rfl, rfl⟩

/-- What is recorded of a merge is never rewritten. -/
theorem PullStep.sameMerge {pr' : PullRequest} (steps : ReflTransGen (PullStep asks) pr pr')
    (merged : pr.merged = true) : pr'.SameMerge pr := by
  induction steps with
  | refl => exact ⟨rfl, rfl, rfl⟩
  | tail _ step ih =>
    rcases step.merge with same | ⟨unmerged, -⟩
    · exact same.trans ih
    · rw [ih.merged, merged] at unmerged
      cases unmerged

end Kept

/-- A merge flag comes with its date and its commit, and they with the flag. -/
def PullRequest.Recorded (pr : PullRequest) : Prop :=
  if pr.merged then pr.mergedAt.isSome = true ∧ pr.mergeCommitSha.isSome = true
  else pr.mergedAt = none ∧ pr.mergeCommitSha = none

theorem PullRequest.Recorded.of_merged {pr : PullRequest} (recorded : pr.Recorded)
    (merged : pr.merged = true) : pr.mergedAt.isSome = true ∧ pr.mergeCommitSha.isSome = true := by
  unfold PullRequest.Recorded at recorded
  rwa [if_pos merged] at recorded

theorem Footprint.Opened.recorded {print : Footprint} {pr : PullRequest} (opened : print.Opened pr) :
    pr.Recorded := by
  unfold PullRequest.Recorded
  rw [opened.unmerged]
  exact ⟨opened.undated, opened.unrecorded⟩

theorem PullStep.recorded {asks : PullRequest → UpdatePullRequestRequest → Prop}
    {pr pr' : PullRequest} (step : PullStep asks pr pr') (recorded : pr.Recorded) : pr'.Recorded := by
  rcases step.merge with same | ⟨-, mergeSha, now, rfl⟩
  · unfold PullRequest.Recorded
    rw [same.merged, same.mergedAt, same.mergeCommitSha]
    exact recorded
  · exact ⟨rfl, rfl⟩

end Jeryu.Core
