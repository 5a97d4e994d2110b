import Jeryu.Core.History

/-!
The two-phase merge. Whatever happens between the two phases, the section that records a
merge finds the gate clear at the head and the base it was asked for; a merge is recorded
once.
-/

namespace Jeryu.Core

open KeyedMap HashMap Relation LockProgram

section Gate

variable {state : State} {enforced : Bool} {pr : PullRequest} {requestedSha : Option String}

theorem State.evaluateLocked_mergeable
    (mergeable : (state.evaluateLocked enforced pr requestedSha).mergeable = true) :
    (state.evaluateLocked enforced pr requestedSha).blockers = [] ∧ pr.draft = false ∧
      ∀ requested, requestedSha = some requested → pr.head.sha = requested := by
  unfold State.evaluateLocked at mergeable ⊢
  exact evaluate_mergeable mergeable

theorem mergeReadiness_head {core : ForgeCore} {owner repo requested : String} {number : Nat}
    {baseRef baseSha headRef headSha : String} {linear : Bool}
    (ready : mergeReadiness owner repo number (some requested) core =
      .ok (.ready baseRef baseSha headRef headSha linear)) : headSha = requested := by
  unfold mergeReadiness at ready
  split at ready
  · cases ready
  · next pr found =>
    split at ready
    · cases ready
    · split at ready
      · cases ready
      · dsimp only at ready
        split at ready
        · cases ready
        · next mergeable =>
          cases ready
          exact (State.evaluateLocked_mergeable (by simpa using mergeable)).2.2 requested rfl

end Gate

/-- What a call may answer, as far as the readiness of a merge goes. -/
def Call.Discloses : (call : Call) → call.Reply → Prop
  | .evaluateMergeReadiness _ _ _ requestedSha, reply =>
    ∀ baseRef baseSha headRef headSha linear requested,
      reply = .ok (.ready baseRef baseSha headRef headSha linear) → requestedSha = some requested →
      headSha = requested
  | _, _ => True

theorem forge_discloses (condition : Call → ForgeCore → Prop) :
    Certified forge (Guarded condition) (fun _ => True) (fun _ _ _ _ => True) Call.Discloses where
  programs call := by
    by_cases reads : ∃ owner repo number requestedSha,
        call = .evaluateMergeReadiness owner repo number requestedSha
    · obtain ⟨owner, repo, number, requestedSha, rfl⟩ := reads
      rintro core - baseRef baseSha headRef headSha linear requested answered rfl
      exact mergeReadiness_head (Method.mapError_eq_ok.mp answered)
    · refine (Program.meets_true _).mono (fun _ h => h) (fun _ _ _ _ h => h) fun reply _ => ?_
      cases call with
      | evaluateMergeReadiness => exact (reads ⟨_, _, _, _, rfl⟩).elim
      | _ => exact True.intro
  ambient _ _ _ _ := True.intro
  kept _ _ _ _ _ _ _ := True.intro

theorem Pool.ReachableWhen.discloses {condition : Call → ForgeCore → Prop} {pool : Pool}
    (reachable : pool.ReachableWhen condition) {i : Nat} {call : Call} {reply : call.Reply}
    (answered : pool.Answered i call reply) : call.Discloses reply := by
  obtain ⟨start, ⟨-, idle⟩, run⟩ := reachable
  refine ((forge_discloses condition).run run ⟨True.intro, ?_⟩).answered answered
  rw [idle]
  exact fun _ member => nomatch member

/-- The section turns the pull request `id` from not merged to merged. -/
def Merges (core core' : ForgeCore) (id : Uuid) : Prop :=
  ∃ key key' pr pr', core.state.pulls.lookup key = some pr ∧ pr.id = id ∧ pr.merged = false ∧
    core'.state.pulls.lookup key' = some pr' ∧ pr'.id = id ∧ pr'.merged = true

/-- The state in which a merge of `pr` at `headSha` into `base` may be recorded. -/
structure ForgeCore.Clear (core : ForgeCore) (pr : PullRequest) (headSha : String)
    (base : MergeBase) : Prop where
  head : pr.head.sha = headSha
  baseRef : pr.base.refName = base.baseRef
  baseSha : pr.base.sha = base.baseSha
  ready : pr.draft = false
  unclosed : pr.state ≠ .closed
  unblocked :
    (core.state.evaluateLocked core.auditMergeEnforced pr (some headSha)).blockers = []

theorem Finalizable.clear {core : ForgeCore} {owner repo mergeSha headSha : String}
    {pr : PullRequest} {base : MergeBase}
    (finalizable : Finalizable core owner repo pr { mergeSha, requestedSha := some headSha, base } none) :
    core.Clear pr headSha base := by
  have mergeable :
      (core.state.evaluateLocked core.auditMergeEnforced pr (some headSha)).mergeable = true := by
    have passed := finalizable.passed
    unfold finalizeGate at passed
    dsimp only at passed
    split at passed
    · next mergeable => exact mergeable
    · cases passed
  obtain ⟨unblocked, ready, head⟩ := State.evaluateLocked_mergeable mergeable
  exact ⟨head headSha rfl, finalizable.baseRef, finalizable.baseSha, ready, finalizable.unclosed,
    unblocked⟩

section Sections

variable {core core' : ForgeCore} {owner repo mergeSha : String} {number : Nat}
variable {requestedSha : Option String} {base : MergeBase} {pr pr' : PullRequest}

/-- A section that turns the pull request merged found it ready for that. -/
theorem finalizeLocked_records {binding : FinalizeBinding} {permit : Option MergeOverridePermit}
    (left : core' = (finalizeLocked owner repo number binding permit core).leaves core)
    (found : core.state.pulls.lookup (owner, repo, number) = some pr) (unmerged : pr.merged = false)
    (found' : core'.state.pulls.lookup (owner, repo, number) = some pr') (merged : pr'.merged = true) :
    Finalizable core owner repo pr binding permit ∧ pr' = mergedPull pr binding.mergeSha core.now := by
  have moved (same : core' = core) : False := by
    subst same
    cases found.symm.trans found'
    rw [unmerged] at merged
    cases merged
  rcases finalizeLocked_cases core owner repo number binding permit with
    ⟨error, refused⟩ | ⟨stored, message, known, recorded, unchanged⟩ |
    ⟨stored, message, known, finalizable, recorded⟩
  · exact (moved (left.trans (by rw [refused]; rfl))).elim
  · exact (moved (left.trans (by rw [unchanged]; rfl))).elim
  · cases known.symm.trans found
    refine ⟨finalizable, ?_⟩
    rw [left, recorded] at found'
    simp only [Outcome.leaves, Outcome.settle] at found'
    split at found'
    · rw [lookup_recordMerge, lookup_insert_self] at found'
      exact (Option.some.inj found').symm
    · cases found.symm.trans found'
      rw [unmerged] at merged
      cases merged

theorem finalizeMerge_records {reply}
    (sect : Section (.finalizeMerge owner repo number mergeSha requestedSha base) core core' reply)
    (found : core.state.pulls.lookup (owner, repo, number) = some pr) (unmerged : pr.merged = false)
    (found' : core'.state.pulls.lookup (owner, repo, number) = some pr') (merged : pr'.merged = true) :
    Finalizable core owner repo pr { mergeSha, requestedSha, base } none ∧
      pr' = mergedPull pr mergeSha core.now := by
  cases sect with
  | audit entry audited => cases audited
  | refused audited => cases audited
  | profile profiled => cases profiled
  | finalizeMerge => exact finalizeLocked_records rfl found unmerged found' merged

/-- A finalize that answers well records the merge or found it recorded. -/
theorem finalizeMerge_answers {reply} {result : MergeResult} (coherent : core.Coherent)
    (sect : Section (.finalizeMerge owner repo number mergeSha requestedSha base) core core' reply)
    (answered : reply = some (.ok result)) :
    ∃ pr, core.state.pulls.lookup (owner, repo, number) = some pr ∧
      ((pr.merged = true ∧ core' = core ∧ pr.mergeCommitSha = some result.sha) ∨
        (pr.merged = false ∧ result.sha = mergeSha ∧
          core'.state.pulls.lookup (owner, repo, number) = some (mergedPull pr mergeSha core.now))) := by
  cases sect with
  | audit entry audited => cases audited
  | refused audited => cases audited
  | profile profiled => cases profiled
  | finalizeMerge =>
    have answers := Option.some.inj answered
    rcases finalizeLocked_cases core owner repo number { mergeSha, requestedSha, base } none with
      ⟨error, refused⟩ | ⟨pr, message, known, merged, unchanged⟩ |
      ⟨pr, message, known, finalizable, recorded⟩
    · rw [refused] at answers
      cases answers
    · rw [unchanged] at answers ⊢
      cases answers
      refine ⟨pr, known, .inl ⟨merged, rfl, ?_⟩⟩
      obtain ⟨sha, stored⟩ :=
        Option.isSome_iff_exists.mp ((coherent.recorded _ _ known).of_merged merged).2
      rw [stored]
      rfl
    · rw [recorded] at answers ⊢
      simp only [Outcome.answers, Outcome.leaves, Outcome.settle] at answers ⊢
      split at answers
      · cases answers
        refine ⟨pr, known, .inr ⟨finalizable.unmerged, rfl, ?_⟩⟩
        rw [lookup_recordMerge, lookup_insert_self]
      · cases answers

end Sections

section Runs

variable {condition : Call → ForgeCore → Prop} {pool pool' last : Pool}

/-- Once merged, never merged again. -/
theorem Merges.once {id : Uuid} (reachable : pool.ReachableWhen condition)
    (merges : Merges pool.shared pool'.shared id) (step : Step forge (Guarded condition) pool pool')
    (run : Run forge (Guarded condition) pool' last) (core : ForgeCore) :
    ¬Merges last.shared core id := by
  rintro ⟨key, -, pr, -, found, same, unmerged, -⟩
  obtain ⟨-, key', -, pr', -, -, -, found', same', merged⟩ := merges
  have steps := (reachable.run (.single step)).pullSteps run asks_any found' found
    (same.trans same'.symm)
  rw [(PullStep.sameMerge steps merged).merged, merged] at unmerged
  cases unmerged

end Runs

/-- What a client of the two-phase merge may rely on. -/
structure TwoPhaseSafe (pool : Pool) : Prop where
  /-- The finalize that records the merge, for the base its readiness disclosed. -/
  records : ∀ i j owner repo number mergeSha headSha readiness base reply pool' pr pr',
    pool.Answered i (.evaluateMergeReadiness owner repo number (some headSha)) (.ok readiness) →
    readiness.mergeBase = some base →
    pool.Writes j (.finalizeMerge owner repo number mergeSha (some headSha) base) reply pool' →
    pool.shared.state.pulls.lookup (owner, repo, number) = some pr → pr.merged = false →
    pool'.shared.state.pulls.lookup (owner, repo, number) = some pr' → pr'.merged = true →
    (∃ headRef linear, readiness = .ready base.baseRef base.baseSha headRef headSha linear) ∧
      pool.shared.Clear pr headSha base ∧ pr' = mergedPull pr mergeSha pool.shared.now
  /-- No two sections, of whatever calls, record the merge of one pull request. -/
  once : ∀ pool' last last' id, Step forge (Guarded anyCall) pool pool' →
    Merges pool.shared pool'.shared id → Run forge (Guarded anyCall) pool' last →
    Step forge (Guarded anyCall) last last' → ¬Merges last.shared last'.shared id
  /-- Every other finalize that answers well answers the recorded commit and changes nothing. -/
  others : ∀ i owner repo number mergeSha requestedSha base result pool',
    pool.Writes i (.finalizeMerge owner repo number mergeSha requestedSha base)
      (some (.ok result)) pool' →
    ∃ pr, pool.shared.state.pulls.lookup (owner, repo, number) = some pr ∧
      ((pr.merged = true ∧ pool'.shared = pool.shared ∧ pr.mergeCommitSha = some result.sha) ∨
        (Merges pool.shared pool'.shared pr.id ∧ result.sha = mergeSha))

theorem two_phase_merge_safe {pool : Pool} (reachable : pool.Reachable) : TwoPhaseSafe pool where
  records i j owner repo number mergeSha headSha readiness base reply pool' pr pr' answered disclosed
      writes found unmerged found' merged := by
    obtain ⟨finalizable, recorded⟩ :=
      finalizeMerge_records (reachable.writes writes) found unmerged found' merged
    refine ⟨?_, finalizable.clear, recorded⟩
    cases readiness with
    | ready baseRef baseSha headRef head linear =>
      cases disclosed
      obtain rfl : head = headSha :=
        reachable.discloses answered baseRef baseSha headRef head linear headSha rfl rfl
      exact ⟨headRef, linear, rfl⟩
    | alreadyMerged sha => cases disclosed
  once pool' last last' id step merges run _ := Merges.once reachable merges step run _
  others i owner repo number mergeSha requestedSha base result pool' writes := by
    obtain ⟨pr, found, ⟨merged, same, recorded⟩ | ⟨unmerged, sha, found'⟩⟩ :=
      finalizeMerge_answers reachable.coherent (reachable.writes writes) rfl
    · exact ⟨pr, found, .inl ⟨merged, same, recorded⟩⟩
    · exact ⟨pr, found, .inr ⟨⟨_, _, pr, _, found, rfl, unmerged, found', rfl, rfl⟩, sha⟩⟩

section Demo

/-- A readiness for the head, then a finalize that waits for the write lock. -/
def readyToMerge : List (Turn Call) :=
  [.alone .newDemo, .alone (.newPull "alice"),
    .alone (.evaluateMergeReadiness "acme" "demo" 1 (some Call.demoHead)),
    .enter (.finalizeMerge "acme" "demo" 1 "merge-1" (some Call.demoHead)
      { baseRef := "main", baseSha := Call.demoBase }), .advance 3]

theorem two_phase_merge_demo :
    ∃ pr, (ForgeCore.inMemory.played readyToMerge).shared.Clear pr Call.demoHead
      { baseRef := "main", baseSha := Call.demoBase } := by
  have safe : TwoPhaseSafe (ForgeCore.inMemory.played readyToMerge) :=
    two_phase_merge_safe (played_any rfl (by decide))
  obtain ⟨reply, writes⟩ : ∃ reply, (ForgeCore.inMemory.played readyToMerge).Writes 3
      (.finalizeMerge "acme" "demo" 1 "merge-1" (some Call.demoHead)
        { baseRef := "main", baseSha := Call.demoBase }) reply
      ((ForgeCore.inMemory.played readyToMerge).turn forge (.advance 3)) :=
    Config.turn_writes rfl (by decide +kernel)
  have before : ((ForgeCore.inMemory.played readyToMerge).shared.state.pulls.lookup
      ("acme", "demo", 1)).any (fun pr => !pr.merged) = true := by decide +kernel
  have after : (((ForgeCore.inMemory.played readyToMerge).turn forge (.advance
      3)).shared.state.pulls.lookup ("acme", "demo", 1)).any PullRequest.merged = true := by
    decide +kernel
  obtain ⟨pr, found, unmerged⟩ := (Option.any_eq_true _ _).mp before
  obtain ⟨pr', found', merged⟩ := (Option.any_eq_true _ _).mp after
  have answered : (ForgeCore.inMemory.played readyToMerge).Answered 2
      (.evaluateMergeReadiness "acme" "demo" 1 (some Call.demoHead))
      (.ok (.ready "main" Call.demoBase "feature" Call.demoHead true)) := by rfl
  exact ⟨pr, (safe.records 2 3 _ _ _ _ _ _ _ _ _ pr pr' answered rfl writes found
    (by simpa using unmerged) found' merged).2.1⟩

end Demo

end Jeryu.Core
