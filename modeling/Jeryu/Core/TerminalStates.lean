import Jeryu.Core.History

/-!
Merged and closed pull requests. The merge flag, the state and the merge record agree, and
stay, as long as no update of the record asks for a state that contradicts the flag.
-/

namespace Jeryu.Core

open KeyedMap HashMap Relation LockProgram

/-- The flag, the state and the record of the merge say the same. -/
def PullRequest.Agrees (pr : PullRequest) : Prop :=
  (pr.merged = true ↔ pr.state = .merged) ∧
    (pr.state = .merged ↔ pr.mergedAt.isSome = true ∧ pr.mergeCommitSha.isSome = true)

/-- An update that leaves a merge alone, fakes none and reopens by its state only. -/
structure UpdatePullRequestRequest.Respects (request : UpdatePullRequestRequest)
    (pr : PullRequest) : Prop where
  merged : pr.merged = true → request.state = some .merged ∨
    (request.state = none ∧ request.draft = none)
  unmerged : pr.merged = false → request.state ≠ some .merged
  closed : pr.state = .closed → request.draft = none ∨ request.state.isSome = true

/-- Every update finds a pull request it respects. -/
def Call.RespectsTerminal (call : Call) (core : ForgeCore) : Prop :=
  ∀ pr request, call.updates core.state pr request → request.Respects pr

def Respectful (pr : PullRequest) (request : UpdatePullRequestRequest) : Prop := request.Respects pr

theorem PullRequest.Recorded.agrees {pr : PullRequest} (recorded : pr.Recorded)
    (flag : pr.merged = true ↔ pr.state = .merged) : pr.Agrees := by
  refine ⟨flag, ?_⟩
  unfold PullRequest.Recorded at recorded
  cases merged : pr.merged with
  | true =>
    rw [merged, if_pos rfl] at recorded
    simp [← flag, merged, recorded]
  | false =>
    rw [merged] at recorded
    simp only [Bool.false_eq_true, if_false] at recorded
    simp [← flag, merged, recorded]

section Steps

variable {asks : PullRequest → UpdatePullRequestRequest → Prop} {pr pr' : PullRequest}

/-- A re-evaluation never merges or closes, and never undoes either. -/
theorem applyEvaluation_state (pr : PullRequest) (evaluation : BranchProtectionEvaluation) :
    ((applyEvaluation pr evaluation).state = .merged ↔ pr.state = .merged) ∧
      ((applyEvaluation pr evaluation).state = .closed ↔ pr.state = .closed) := by
  unfold applyEvaluation
  split
  · exact ⟨Iff.rfl, Iff.rfl⟩
  · next open_ =>
    have unmerged : pr.state ≠ .merged := by simpa using fun merged => open_ (by simp [merged])
    split
    · exact ⟨Iff.rfl, Iff.rfl⟩
    · next unclosed =>
      cases pr.draft <;> cases evaluation.mergeable <;> simp [unmerged, unclosed]

theorem UpdatePullRequestRequest.apply_state (request : UpdatePullRequestRequest) (pr : PullRequest)
    (now : DateTime) :
    (request.apply pr now).state = request.state.getD
      (match request.draft with
        | some draft => if draft then .draft else .opened
        | none => pr.state) := by
  unfold UpdatePullRequestRequest.apply
  cases request.draft <;> cases request.state <;> rfl

theorem UpdatePullRequestRequest.Respects.state {request : UpdatePullRequestRequest} {now : DateTime}
    (respects : request.Respects pr) (flag : pr.merged = true ↔ pr.state = .merged) :
    (request.apply pr now).state = .merged ↔ pr.state = .merged := by
  rw [request.apply_state]
  cases merged : pr.merged with
  | true =>
    rw [← flag]
    rcases respects.merged merged with asked | ⟨state, draft⟩
    · simp [asked, merged]
    · simp [state, draft, merged, ← flag]
  | false =>
    have unmerged : pr.state ≠ .merged := by simp [← flag, merged]
    have asked := respects.unmerged merged
    cases state : request.state with
    | some state' =>
      rw [state] at asked
      simpa [unmerged] using asked
    | none =>
      cases request.draft with
      | none => simp
      | some draft => cases draft <;> simp [unmerged]

theorem PullStep.flag (step : PullStep Respectful pr pr') (flag : pr.merged = true ↔ pr.state = .merged) :
    pr'.merged = true ↔ pr'.state = .merged := by
  cases step with
  | @edited edited follows evaluation =>
    rw [(applyEvaluation_sameMerge edited evaluation).merged, (applyEvaluation_state edited evaluation).1,
      follows.merged, follows.state]
    exact flag
  | @updated request asked now evaluation =>
    rw [(applyEvaluation_sameMerge _ evaluation).merged, (applyEvaluation_state _ evaluation).1,
      (request.apply_sameMerge pr now).merged, asked.state flag]
    exact flag
  | merged => exact ⟨fun _ => rfl, fun _ => rfl⟩
  | moved => exact flag

theorem PullStep.flags (steps : ReflTransGen (PullStep Respectful) pr pr')
    (flag : pr.merged = true ↔ pr.state = .merged) : pr'.merged = true ↔ pr'.state = .merged := by
  induction steps with
  | refl => exact flag
  | tail _ step ih => exact step.flag ih

/-- Only an update takes a pull request out of the closed state. -/
theorem PullStep.reopened (steps : ReflTransGen (PullStep asks) pr pr') (closed : pr.state = .closed)
    (reopened : pr'.state ≠ .closed) :
    ∃ first request, ReflTransGen (PullStep asks) pr first ∧ first.state = .closed ∧
      asks first request ∧ request.state ≠ some .closed ∧
      (request.state.isSome = true ∨ request.draft.isSome = true) := by
  induction steps with
  | refl => exact absurd closed reopened
  | @tail mid last before step ih =>
    by_cases already : mid.state = .closed
    · cases step with
      | @edited edited follows evaluation =>
        refine absurd ((applyEvaluation_state edited evaluation).2.mpr ?_) reopened
        rw [follows.state, already]
      | @updated request asked now evaluation =>
        have moved : (request.apply mid now).state ≠ .closed :=
          fun same => reopened ((applyEvaluation_state _ evaluation).2.mpr same)
        rw [request.apply_state] at moved
        refine ⟨mid, request, before, already, asked, fun same => by simp [same] at moved, ?_⟩
        cases state : request.state with
        | some state' => exact .inl rfl
        | none =>
          cases draft : request.draft with
          | some draft' => exact .inr rfl
          | none => simp [state, draft, already] at moved
      | merged unmerged unclosed => exact absurd already unclosed
      | moved => exact absurd already reopened
    · exact ih already

end Steps

/-- Terminal states are sticky from `pool` on, in every run whose sections find the condition
    met. -/
structure TerminalSticky (condition : Call → ForgeCore → Prop) (pool : Pool) : Prop where
  agrees : pool.shared.state.pulls.Every fun _ pr => pr.Agrees
  merged : ∀ pool' : Pool, Run forge (Guarded condition) pool pool' → ∀ key key' pr pr',
    pool.shared.state.pulls.lookup key = some pr →
    pool'.shared.state.pulls.lookup key' = some pr' → pr'.id = pr.id → pr.merged = true →
    pr'.SameMerge pr ∧ pr'.state = pr.state
  closed : ∀ pool' : Pool, Step forge (Guarded condition) pool pool' → ∀ key key' pr pr',
    pool.shared.state.pulls.lookup key = some pr →
    pool'.shared.state.pulls.lookup key' = some pr' → pr'.id = pr.id → pr.state = .closed →
    pr'.state ≠ .closed → ∃ i owner repo number request reply state,
      pool.Writes i (.updatePullRequest owner repo number request) reply pool' ∧
      key = (owner, repo, number) ∧ request.state = some state ∧ state ≠ .closed

section Runs

variable {pool pool' : Pool}

theorem asks_respectful (call : Call) (core : ForgeCore) (met : call.RespectsTerminal core)
    (pr : PullRequest) (request : UpdatePullRequestRequest)
    (asked : call.updates core.state pr request) : Respectful pr request := met pr request asked

theorem every_agrees (reachable : pool.ReachableWhen Call.RespectsTerminal) :
    pool.shared.state.pulls.Every fun _ pr => pr.Agrees := by
  have flag := reachable.everyPull (P := fun pr => pr.merged = true ↔ pr.state = .merged)
    asks_respectful (fun print pr opened => by simp [opened.unmerged, opened.live])
    fun pr pr' step => step.flag
  exact fun key pr found => (reachable.coherent.recorded key pr found).agrees (flag key pr found)

theorem merged_kept (reachable : pool.ReachableWhen Call.RespectsTerminal)
    (run : Run forge (Guarded Call.RespectsTerminal) pool pool') {key key' : Scoped Nat}
    {pr pr' : PullRequest} (found : pool.shared.state.pulls.lookup key = some pr)
    (found' : pool'.shared.state.pulls.lookup key' = some pr') (same : pr'.id = pr.id)
    (merged : pr.merged = true) : pr'.SameMerge pr ∧ pr'.state = pr.state := by
  have agrees := every_agrees reachable key pr found
  have steps := reachable.pullSteps run asks_respectful found found' same
  have kept := PullStep.sameMerge steps merged
  refine ⟨kept, ?_⟩
  rw [agrees.1.mp merged, ← PullStep.flags steps agrees.1, kept.merged, merged]

/-- The step that reopens a pull request is an update of it, by the state it asks for. -/
theorem closed_left (reachable : pool.ReachableWhen Call.RespectsTerminal)
    (step : Step forge (Guarded Call.RespectsTerminal) pool pool') {key key' : Scoped Nat}
    {pr pr' : PullRequest} (found : pool.shared.state.pulls.lookup key = some pr)
    (found' : pool'.shared.state.pulls.lookup key' = some pr') (same : pr'.id = pr.id)
    (closed : pr.state = .closed) (reopened : pr'.state ≠ .closed) :
    ∃ i owner repo number request reply state,
      pool.Writes i (.updatePullRequest owner repo number request) reply pool' ∧
      key = (owner, repo, number) ∧ request.state = some state ∧ state ≠ .closed := by
  have identified := reachable.coherent.identified
  rcases step_cases step with ambient | ⟨i, call, reply, writes, met⟩
  · have origin : PullsFrom (fun _ _ => False) pool.shared pool'.shared := ambient.pullsFrom
    obtain ⟨-, -, -, -, impossible, -⟩ :=
      PullStep.reopened (origin.steps identified found found' same) closed reopened
    exact impossible.elim
  · have origin := (reachable.effect writes).pullsFrom fun _ _ asked => asked
    obtain ⟨first, request, before, still, asked, state, given⟩ :=
      PullStep.reopened (origin.steps identified found found' same) closed reopened
    have respects := met first request asked
    cases call with
    | updatePullRequest owner repo number request' =>
      obtain ⟨stored, rfl⟩ := asked
      obtain rfl := identified.pulls key (owner, repo, number) pr first pr.id found stored rfl
        (PullStep.id_of_steps before)
      have named : request.state.isSome = true := by
        rcases given with given | given
        · exact given
        · exact (respects.closed still).resolve_left fun none => by simp [none] at given
      obtain ⟨asked, equal⟩ := Option.isSome_iff_exists.mp named
      exact ⟨i, owner, repo, number, request, reply, asked, writes, rfl, equal,
        by simpa [equal] using state⟩
    | _ => exact asked.elim

end Runs

theorem terminal_sticky {pool : Pool} (reachable : pool.ReachableWhen Call.RespectsTerminal) :
    TerminalSticky Call.RespectsTerminal pool where
  agrees := every_agrees reachable
  merged _ run _ _ _ _ found found' same merged := merged_kept reachable run found found' same merged
  closed _ step _ _ _ _ found found' same closed reopened :=
    closed_left reachable step found found' same closed reopened

/-- A pull request that is merged. -/
def mergedDemo : List Call :=
  [.newDemo, .newPull "alice", .mergePullRequest "acme" "demo" 1 none]

theorem terminal_sticky_demo :
    TerminalSticky Call.RespectsTerminal (ForgeCore.inMemory.played (mergedDemo.map .alone)) := by
  refine terminal_sticky (played_reachable rfl (plays_alone (by decide) fun call member core => ?_))
  rcases List.mem_cons.mp member with rfl | member
  · exact fun _ _ asked => asked.elim
  · rcases List.mem_pair.mp member with rfl | rfl <;> exact fun _ _ asked => asked.elim

/-- A merged pull request, then an update that only clears the draft mark. -/
def undraftedMerge : List (Turn Call) :=
  mergedDemo.map .alone ++
    [.alone (.updatePullRequest "acme" "demo" 1
      { title := none, body := none, state := none, draft := some false, commits := none
        changedFiles := none })]

/-- An update that sets the draft mark alone reopens a merged pull request by its state. -/
theorem not_terminal_sticky :
    ¬∀ pool : Pool, pool.Reachable → TerminalSticky anyCall pool := by
  intro sticky
  have reachable : (ForgeCore.inMemory.played undraftedMerge).Reachable := played_any rfl (by decide)
  have reopened : ((ForgeCore.inMemory.played undraftedMerge).shared.state.pulls.lookup
      ("acme", "demo", 1)).any (fun pr => pr.merged && decide (pr.state = .opened)) = true := by
    decide +kernel
  obtain ⟨pr, found, differs⟩ := (Option.any_eq_true _ _).mp reopened
  have agrees := ((sticky _ reachable).agrees _ pr found).1
  simp only [Bool.and_eq_true, decide_eq_true_eq] at differs
  rw [differs.2] at agrees
  exact absurd (agrees.mp differs.1) (by decide)

end Jeryu.Core
