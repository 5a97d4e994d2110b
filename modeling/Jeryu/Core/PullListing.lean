import Jeryu.Core.History

/-!
Pull requests as they are read. The stored state of a pull request is what its gate answered when it
was last written; both reads ask the gate again.
-/

namespace Jeryu.Core

open KeyedMap HashMap LockProgram Relation

section Reads

/-- The stored pull requests of the repository that pass the filter. -/
def ForgeCore.pullsPassing (core : ForgeCore) (owner repo : String)
    (stateFilter : Option PullRequestState) : List PullRequest :=
  (core.state.pulls.values.filter fun pr => pr.owner == owner && pr.repo == repo).filter
    fun pr => stateFilter.all fun state => pr.state = state

def ForgeCore.pullsListed (core : ForgeCore) (owner repo : String)
    (stateFilter : Option PullRequestState) : List PullRequest :=
  ((core.pullsPassing owner repo stateFilter).map core.recomputed).insertionSort
    fun a b => a.number ≤ b.number

def listPullRequests (owner repo : String) (stateFilter : Option PullRequestState) :
    Method (List PullRequest) := do
  ensureRepoExists owner repo
  Method.reading fun core => .ok (core.pullsListed owner repo stateFilter)

theorem listPullRequests_ends (owner repo : String) (stateFilter : Option PullRequestState)
    (core : ForgeCore) : Program.EndsFrom (fun _ _ => True)
      (fun core reply => ∀ pulls, reply = .ok pulls → pulls = core.pullsListed owner repo stateFilter)
      (listPullRequests owner repo stateFilter).run core :=
  (Method.ends_reading _ _ core).mono fun _ _ answers pulls answered =>
    (Except.ok.inj (answers pulls answered)).symm

end Reads

section Agreement

variable {core : ForgeCore} {owner repo : String} {state : PullRequestState} {pr : PullRequest}

/-- The listing has the pull requests a single read answers with that state, in number order. -/
structure ListingAgrees (core : ForgeCore) (owner repo : String) (state : PullRequestState) : Prop where
  entries : ∀ pr, pr ∈ core.pullsListed owner repo (some state) ↔
    (∃ number, core.pullRead owner repo number = .ok pr) ∧ pr.state = state
  ordered : ((core.pullsListed owner repo (some state)).map PullRequest.number).Pairwise (· < ·)

/-- What every open pull request of the repository that is no draft has cached is what its gate
    answers now. -/
def CacheCurrent (core : ForgeCore) (owner repo : String) : Prop :=
  ∀ number pr, core.state.pulls.lookup (owner, repo, number) = some pr → pr.isOpen = true →
    pr.draft = false → (pr.state = .mergeable ↔
      (core.state.evaluateLocked core.auditMergeEnforced pr none).mergeable = true)

theorem pullRead_ok {number : Nat} : core.pullRead owner repo number = .ok pr ↔
    ∃ stored, core.state.pulls.lookup (owner, repo, number) = some stored ∧
      core.recomputed stored = pr := by
  unfold ForgeCore.pullRead
  cases core.state.pulls.lookup (owner, repo, number) with
  | none => simp
  | some stored => simp

theorem recomputed_key (core : ForgeCore) (pr : PullRequest) :
    (core.recomputed pr).key = pr.key := (applyEvaluation_key pr _).1

theorem mem_pullsListed (keyed : core.state.WellKeyed) :
    pr ∈ core.pullsListed owner repo (some state) ↔ ∃ number stored,
      core.state.pulls.lookup (owner, repo, number) = some stored ∧ stored.state = state ∧
        core.recomputed stored = pr := by
  unfold ForgeCore.pullsListed ForgeCore.pullsPassing
  simp only [List.mem_insertionSort, List.mem_map, List.mem_filter, mem_values, Option.all_some,
    decide_eq_true_eq, Bool.and_eq_true, beq_iff_eq]
  constructor
  · rintro ⟨stored, ⟨⟨⟨key, found⟩, rfl, rfl⟩, same⟩, rfl⟩
    have own : stored.key = key := (keyed.pulls key stored found).1
    subst own
    exact ⟨stored.number, stored, found, same, rfl⟩
  · rintro ⟨number, stored, found, same, rfl⟩
    have own : stored.key = (owner, repo, number) := (keyed.pulls _ stored found).1
    have names := Prod.mk.inj own
    exact ⟨stored, ⟨⟨⟨_, found⟩, names.1, (Prod.mk.inj names.2).1⟩, same⟩, rfl⟩

/-- No two stored pull requests of a repository have one number. -/
theorem pullsPassing_nodup (keyed : core.state.WellKeyed) (stateFilter : Option PullRequestState) :
    ((core.pullsPassing owner repo stateFilter).map PullRequest.number).Nodup := by
  have keys : (core.state.pulls.values.map PullRequest.key).Nodup :=
    nodup_values fun key pr found => (keyed.pulls key pr found).1
  have sub : (core.pullsPassing owner repo stateFilter).Sublist core.state.pulls.values :=
    List.filter_sublist.trans List.filter_sublist
  have own (pr : PullRequest) (member : pr ∈ core.pullsPassing owner repo stateFilter) :
      pr.key = (owner, repo, pr.number) := by
    have here := (List.mem_filter.mp (List.mem_filter.mp member).1).2
    simp only [Bool.and_eq_true, beq_iff_eq] at here
    exact Prod.ext here.1 (Prod.ext here.2 rfl)
  have distinct := (sub.map PullRequest.key).nodup keys
  rw [List.map_congr_left own] at distinct
  have split : (core.pullsPassing owner repo stateFilter).map (fun pr => (owner, repo, pr.number)) =
      ((core.pullsPassing owner repo stateFilter).map PullRequest.number).map
        fun number => (owner, repo, number) := by simp
  rw [split] at distinct
  exact distinct.of_map

theorem pullsListed_ordered (keyed : core.state.WellKeyed) (stateFilter : Option PullRequestState) :
    ((core.pullsListed owner repo stateFilter).map PullRequest.number).Pairwise (· < ·) := by
  have numbers (pr : PullRequest) : (core.recomputed pr).number = pr.number :=
    (Prod.mk.inj (Prod.mk.inj (recomputed_key core pr)).2).2
  have same : (core.pullsListed owner repo stateFilter).map PullRequest.number =
      ((core.pullsPassing owner repo stateFilter).map PullRequest.number).insertionSort (· ≤ ·) := by
    unfold ForgeCore.pullsListed
    rw [List.map_insertionSort _ (· ≤ ·) PullRequest.number _ fun _ _ _ _ => by simp, List.map_map]
    congr 1
    exact List.map_congr_left fun pr _ => numbers pr
  have sorted := List.pairwise_insertionSort (· ≤ ·)
    ((core.pullsPassing owner repo stateFilter).map PullRequest.number)
  have distinct : ((core.pullsPassing owner repo stateFilter).map PullRequest.number).Nodup :=
    pullsPassing_nodup keyed stateFilter
  have apart := (List.perm_insertionSort (· ≤ ·) _).nodup_iff.mpr distinct
  rw [same]
  exact (sorted.and apart).imp fun both => lt_of_le_of_ne both.1 both.2

/-- A filter on any other state never disagrees: an open pull request is a draft by its flag, and
    what is merged or closed keeps its state. -/
theorem recomputed_state (gated : pr.Gated) : (core.recomputed pr).state = pr.state ∨
    (pr.isOpen = true ∧ pr.draft = false ∧
      ((pr.state = .mergeable ∧ (core.recomputed pr).state = .blockedByChecks) ∨
        (pr.state = .blockedByChecks ∧ (core.recomputed pr).state = .mergeable))) := by
  unfold ForgeCore.recomputed
  rw [applyEvaluation_open]
  by_cases still : pr.isOpen = true
  · obtain ⟨cached, same⟩ := gated still
    rw [if_pos still, same]
    cases pr.draft <;> cases cached <;>
      cases (core.state.evaluateLocked core.auditMergeEnforced pr none).mergeable <;>
      simp [gateState, still]
  · rw [if_neg still]
    exact .inl rfl

/-- The listing agrees when every stored state passes the filter as the recomputed one does. -/
theorem entries_iff (keyed : core.state.WellKeyed) :
    (∀ pr, pr ∈ core.pullsListed owner repo (some state) ↔
      (∃ number, core.pullRead owner repo number = .ok pr) ∧ pr.state = state) ↔
    ∀ number stored, core.state.pulls.lookup (owner, repo, number) = some stored →
      (stored.state = state ↔ (core.recomputed stored).state = state) := by
  simp only [mem_pullsListed keyed, pullRead_ok]
  constructor
  · intro entries number stored found
    constructor
    · intro same
      exact ((entries _).mp ⟨number, stored, found, same, rfl⟩).2
    · intro same
      obtain ⟨other, twin, found', cached, read⟩ :=
        (entries (core.recomputed stored)).mpr ⟨⟨number, stored, found, rfl⟩, same⟩
      have keys : twin.key = stored.key := by
        rw [← recomputed_key core twin, read, recomputed_key]
      rw [(keyed.pulls _ _ found').1, (keyed.pulls _ _ found).1] at keys
      rw [keys] at found'
      cases found.symm.trans found'
      exact cached
  · intro alike pr
    constructor
    · rintro ⟨number, stored, found, same, rfl⟩
      exact ⟨⟨number, stored, found, rfl⟩, (alike number stored found).mp same⟩
    · rintro ⟨⟨number, stored, found, rfl⟩, same⟩
      exact ⟨number, stored, found, (alike number stored found).mpr same, rfl⟩

theorem Pool.ReachableWhen.gated {condition : Call → ForgeCore → Prop} {pool : Pool}
    (reachable : pool.ReachableWhen condition) :
    pool.shared.state.pulls.Every fun _ pr => pr.Gated :=
  reachable.everyPull asks_any (fun _ _ opened => opened.gated)
    fun _ _ step => step.gated

theorem listing_agrees_iff {pool : Pool} (reachable : pool.Reachable) (owner repo : String)
    (state : PullRequestState) : ListingAgrees pool.shared owner repo state ↔
      (state = .mergeable ∨ state = .blockedByChecks → CacheCurrent pool.shared owner repo) := by
  have keyed := reachable.coherent.keyed
  have gated := reachable.gated
  constructor
  · rintro ⟨entries, -⟩ gate number pr found still undrafted
    have alike := (entries_iff keyed).mp entries number pr found
    obtain ⟨cached, same⟩ := gated _ _ found still
    have read : (pool.shared.recomputed pr).state = gateState pr.draft _ :=
      (applyEvaluation_open pr _).trans (if_pos still)
    rw [read, same, undrafted] at alike
    rw [same, undrafted]
    rcases gate with rfl | rfl
    · cases cached <;> simpa [gateState] using alike
    · cases cached <;> simpa [gateState] using alike
  · intro current
    refine ⟨(entries_iff keyed).mpr fun number pr found => ?_, pullsListed_ordered keyed _⟩
    rcases @recomputed_state pool.shared pr (gated _ _ found) with same | ⟨still, undrafted, moved⟩
    · rw [same]
    · by_cases gate : state = .mergeable ∨ state = .blockedByChecks
      · have fresh := current gate number pr found still undrafted
        have read : (pool.shared.recomputed pr).state = gateState pr.draft _ :=
          (applyEvaluation_open pr _).trans (if_pos still)
        rw [undrafted] at read
        rcases moved with ⟨cached, now⟩ | ⟨cached, now⟩
        · rw [now, fresh.mp cached] at read
          cases read
        · have passes : (pool.shared.state.evaluateLocked pool.shared.auditMergeEnforced pr
              none).mergeable = true := by
            by_contra blocked
            rw [now, Bool.eq_false_iff.mpr blocked] at read
            cases read
          rw [fresh.mpr passes] at cached
          cases cached
      · obtain ⟨other, different⟩ := not_or.mp gate
        rcases moved with ⟨cached, now⟩ | ⟨cached, now⟩
        · rw [cached, now]
          exact ⟨fun same => absurd same.symm other, fun same => absurd same.symm different⟩
        · rw [cached, now]
          exact ⟨fun same => absurd same.symm different, fun same => absurd same.symm other⟩

end Agreement

section Demo

/-- A rule that asks for an approval, set after the pull request was found mergeable. -/
def approvalRule : SetBranchProtectionRequest :=
  { SetBranchProtectionRequest.default with requiredApprovingReviewCount := 1 }

def ruledLater : List (Turn Call) :=
  [.alone .newDemo, .alone (.newPull "alice"),
    .alone (.setBranchProtection "acme" "demo" "main" approvalRule)]

theorem listing_agrees_demo :
    ListingAgrees (ForgeCore.durable.played ruledLater).shared "acme" "demo" .draft :=
  (listing_agrees_iff (played_any rfl (by decide)) "acme" "demo" .draft).mpr fun gate =>
    absurd gate (by decide)

/-- The listing of mergeable pull requests has one that a read answers as blocked. -/
theorem mergeable_listing_has_blocked : ¬∀ pool : Pool, pool.Reachable → ∀ owner repo state,
    ListingAgrees pool.shared owner repo state := by
  intro every
  have reachable : (ForgeCore.durable.played ruledLater).Reachable := played_any rfl (by decide)
  have agrees := every _ reachable "acme" "demo" .mergeable
  have listed : ((ForgeCore.durable.played ruledLater).shared.pullsListed "acme" "demo"
      (some .mergeable)).any (fun pr => pr.state = .blockedByChecks) = true := by decide +kernel
  obtain ⟨pr, member, blocked⟩ := List.any_eq_true.mp listed
  have mergeable := ((agrees.entries pr).mp member).2
  rw [mergeable] at blocked
  cases blocked

end Demo

end Jeryu.Core
