import Jeryu.Core.MoveWhole
import Jeryu.Core.EncodedRules

/-!
The history a merge is told to keep. Readiness says whether the base asks for linear history,
and the caller makes the merge commit by it. The section that records the merge looks at the
base and at the gate again, but not at that answer, so a requirement turned on in between goes
unnoticed. Where no call turns it on, the answer stands.
-/

namespace Jeryu.Core

open KeyedMap HashMap Relation LockProgram

/-- The rule of the branch asks for linear history. -/
def State.linear (s : State) (key : Scoped String) : Bool :=
  (s.branchProtections.lookup key).any BranchProtectionRule.requiredLinearHistory

/-- The call would have the branch ask for linear history, by what it finds. -/
def Call.Straightens (s : State) (key : Scoped String) : Call → Prop
  | .setBranchProtection owner repo branch request =>
    key = (owner, repo, branch) ∧ request.requiredLinearHistory = true
  -- The automatic rule, which asks for it, where no rule stands.
  | .setRepositoryDefaultBranch _ _ branch _ =>
    key.2.2 = branch ∧ s.branchProtections.lookup key = none
  | .setDefaultBranchProtectionOptOut _ owner repo optOut =>
    Scoped.slug key = (owner, repo) ∧ optOut = false ∧ s.branchProtections.lookup key = none
  | .createRepository owner request =>
    key = (owner, request.name, request.defaultBranch.getD "main") ∧ ¬s.Live (Scoped.slug key) ∧
      s.branchProtections.lookup key = none
  -- A rule that comes from another name.
  | .rekeyEncodedBranchProtections _ _ => ∃ branch,
    hasEncodedSlash branch = true ∧ decodeSlashes branch = key.2.2 ∧
      s.linear (key.1, key.2.1, branch) = true
  | .renameRepository _ _ _ newOwner newName =>
    Scoped.slug key = (newOwner, newName) ∧ ¬s.Live (Scoped.slug key)
  | .commitRepositoryTransfer transactionId _ => ∃ name journal,
    s.transferForId transactionId = some (name, journal) ∧
      Scoped.slug key = journal.destination ∧ ¬s.Live (Scoped.slug key)
  | _ => False

/-- The branch asks for linear history after only where it did before. -/
def State.Bends (s s' : State) (key : Scoped String) : Prop :=
  s'.linear key = true → s.linear key = true

section Rules

variable {print : Footprint} {s s' last : State} {key : Scoped String}

theorem linear_iff : s.linear key = true ↔
    ∃ rule, s.branchProtections.lookup key = some rule ∧ rule.requiredLinearHistory = true :=
  Option.any_eq_true _ _

theorem State.Bends.trans (first : s.Bends s' key) (second : s'.Bends last key) :
    s.Bends last key := fun asked => first (second asked)

theorem State.Bends.same (rules : s'.branchProtections = s.branchProtections) : s.Bends s' key := by
  intro asked
  unfold State.linear at asked ⊢
  rwa [rules] at asked

/-- Rules that stood under their names before. -/
theorem State.Bends.kept (kept : ∀ rule, s'.branchProtections.lookup key = some rule →
    s.branchProtections.lookup key = some rule) : s.Bends s' key := by
  intro asked
  obtain ⟨rule, found, linear⟩ := linear_iff.mp asked
  exact linear_iff.mpr ⟨rule, kept rule found, linear⟩

theorem Touch.branchProtections (touch : Touch print s s') (still : ¬print.rules) :
    s'.branchProtections = s.branchProtections := by
  cases touch with
  | defaultBranchSet found within branch now edited ruling => exact absurd ruling still
  | optOutSet found within optOut now edited free ruling => exact absurd ruling still
  | ruleSet rule may within asked ruling => exact absurd ruling still
  | ruleRemoved branch within live optional ruling => exact absurd ruling still
  | ruleRekeyed within found live ordinary decoded free ruling => exact absurd ruling still
  | @issueOpened numbered issue may within next =>
    have counted : numbered = (s.nextRecordNumber issue.owner issue.repo).2 := by rw [next]
    subst counted
    rfl
  | _ => rfl

theorem Moves.branchProtections (moves : Moves print s s') (still : ¬print.rules)
    (settled : ¬print.shifts) : s'.branchProtections = s.branchProtections := by
  cases moves with
  | touches writes =>
    induction writes with
    | refl => rfl
    | tail _ touch ih => rw [touch.branchProtections still, ih]
  | shift may moved => exact absurd may settled

end Rules

section Locked

variable {core : ForgeCore} {owner repo branch : String} {key : Scoped String}

/-- A section that commits keeps to what it commits. -/
theorem Outcome.bends {α : Type} {outcome : Outcome α}
    (commits : outcome.Commits fun _ next _ => core.state.Bends next key) :
    core.state.Bends (outcome.leaves core).state key := by
  rcases Outcome.leaves_state commits with same | ⟨draws, next, value, known, moved, -⟩
  · exact .same (by rw [same])
  · rw [moved]
    exact known

/-- The automatic rule comes only where no rule stands. -/
theorem ensureDefaultBranchProtection_bends {s : State} {repository : Repository} {now : DateTime}
    (guarded : key = (repository.owner, repository.name, repository.defaultBranch) →
      s.branchProtections.lookup key ≠ none) :
    s.Bends (s.ensureDefaultBranchProtection repository now) key := by
  refine .kept fun rule found => ?_
  rcases State.lookup_ensureDefaultBranchProtection found with stored | ⟨own, absent, -⟩
  · exact stored
  · exact absurd absent (guarded own)

theorem setProtectionLocked_bends {rule : BranchProtectionRule}
    (loose : key = rule.key → rule.requiredLinearHistory = false) :
    core.state.Bends ((setProtectionLocked rule core).leaves core).state key := by
  apply Outcome.bends
  show core.state.Bends
    { core.state with branchProtections := core.state.branchProtections.insert rule.key rule } key
  intro asked
  obtain ⟨stored, found, linear⟩ := linear_iff.mp asked
  replace found : (core.state.branchProtections.insert rule.key rule).lookup key = some stored := found
  rw [lookup_insert_if] at found
  split at found
  · next own =>
    cases found
    rw [loose own] at linear
    cases linear
  · exact linear_iff.mpr ⟨stored, found, linear⟩

theorem deleteProtectionLocked_bends :
    core.state.Bends ((deleteProtectionLocked owner repo branch core).leaves core).state key := by
  apply Outcome.bends
  unfold deleteProtectionLocked
  split
  · exact True.intro
  · refine Outcome.commits_ite (fun _ => True.intro) fun _ => ?_
    refine Outcome.commits_ite (fun _ => True.intro) fun _ => ?_
    split
    · exact True.intro
    · refine State.Bends.kept fun rule found => ?_
      replace found :
          (core.state.branchProtections.erase (owner, repo, branch)).lookup key = some rule := found
      rw [lookup_erase_if] at found
      split at found
      · cases found
      · exact found

theorem setDefaultBranchLocked_bends
    (guarded : key.2.2 = branch → core.state.branchProtections.lookup key ≠ none) :
    core.state.Bends ((setDefaultBranchLocked owner repo branch core).leaves core).state key := by
  apply Outcome.bends
  unfold setDefaultBranchLocked
  split
  · exact True.intro
  · next entry found =>
    refine @ensureDefaultBranchProtection_bends key
      { core.state with repos := core.state.repos.insert (owner, repo) _ } _ _ fun own => ?_
    exact guarded (by rw [own])

theorem setOptOutLocked_bends {optOut : Bool} (coherent : core.Coherent)
    (guarded : Scoped.slug key = (owner, repo) → optOut = false →
      core.state.branchProtections.lookup key ≠ none) :
    core.state.Bends ((setOptOutLocked owner repo optOut core).leaves core).state key := by
  apply Outcome.bends
  unfold setOptOutLocked
  refine Outcome.commits_ite (fun _ => True.intro) fun _ => ?_
  split
  · exact True.intro
  · next entry found =>
    refine Outcome.commits_ite (fun _ => True.intro) fun _ => ?_
    have named : (entry.owner, entry.name) = (owner, repo) :=
      (coherent.keyed.repos _ _ found).1
    simp only [Outcome.commits_commit]
    unfold State.withOptOut
    dsimp only
    split
    · split
      · refine State.Bends.kept fun rule stands => ?_
        rw [lookup_erase_if] at stands
        split at stands
        · cases stands
        · exact stands
      · exact .same rfl
    · next opened =>
      refine @ensureDefaultBranchProtection_bends key
        { core.state with repos := core.state.repos.insert (owner, repo) _ } _ _ fun own => ?_
      refine guarded ?_ (by simpa using opened)
      rw [own, ← named]
      rfl

/-- Where the repair of encoded names has a rule from: its own name, or an encoded spelling of
    it. -/
def State.RulesFrom (s s' : State) : Prop :=
  ∀ key, s'.linear key = true → s.linear key = true ∨ ∃ branch,
    hasEncodedSlash branch = true ∧ decodeSlashes branch = key.2.2 ∧
      s.linear (key.1, key.2.1, branch) = true

/-- A decoded name is no encoded one, so no rule moves twice. -/
theorem rekeyStep_rulesFrom {s : State} {progress : Rekeying} {step : PlannedRekey}
    (spelled : step.Spells) (rules : s.RulesFrom progress.state) :
    s.RulesFrom (rekeyStep progress step).state := by
  obtain ⟨state, report, changes⟩ := progress
  simp only [rekeyStep]
  split
  · exact rules
  · intro key asked
    refine rules key ?_
    obtain ⟨rule, found, linear⟩ := linear_iff.mp asked
    replace found : (state.branchProtections.erase step.key).lookup key = some rule := found
    rw [lookup_erase_if] at found
    split at found
    · cases found
    · exact linear_iff.mpr ⟨rule, found, linear⟩
  · next rekeyed =>
    obtain ⟨-, -, -, -, seen⟩ := decideRekey_change (.inl rekeyed)
    intro key asked
    obtain ⟨rule, found, linear⟩ := linear_iff.mp asked
    replace found : ((state.branchProtections.erase step.key).insert step.target
      { step.seen with branch := step.decoded }).lookup key = some rule := found
    rw [lookup_insert_if, lookup_erase_if] at found
    split at found
    · next here =>
      cases found
      have source : state.linear step.key = true := linear_iff.mpr ⟨step.seen, seen, linear⟩
      have name : decodeSlashes step.key.2.2 = key.2.2 := by rw [here, ← spelled.2]; rfl
      have own : (key.1, key.2.1, step.key.2.2) = step.key := by rw [here]; rfl
      rcases rules step.key source with before | ⟨branch, -, decoded, -⟩
      · exact .inr ⟨step.key.2.2, spelled.1, name, own ▸ before⟩
      · have clean := decodeSlashes_clean branch
        rw [decoded, spelled.1] at clean
        cases clean
    · refine rules key ?_
      split at found
      · cases found
      · exact linear_iff.mpr ⟨rule, found, linear⟩

theorem foldl_rulesFrom {s : State} {plan : List PlannedRekey} {progress : Rekeying}
    (spelled : ∀ step ∈ plan, step.Spells) (rules : s.RulesFrom progress.state) :
    s.RulesFrom (plan.foldl rekeyStep progress).state := by
  induction plan generalizing progress with
  | nil => exact rules
  | cons step rest ih =>
    have one := rekeyStep_rulesFrom (spelled step List.mem_cons_self) rules
    exact ih (fun other member => spelled other (List.mem_cons_of_mem _ member)) one

theorem rekeyEncodedLocked_bends {plan : List PlannedRekey} (spelled : ∀ step ∈ plan, step.Spells)
    (decoded : ∀ branch, hasEncodedSlash branch = true → decodeSlashes branch = key.2.2 →
      core.state.linear (key.1, key.2.1, branch) = false) :
    core.state.Bends ((rekeyEncodedLocked plan core).leaves core).state key := by
  apply Outcome.bends
  unfold rekeyEncodedLocked
  dsimp only
  split
  · exact True.intro
  · have rules : core.state.RulesFrom (plan.foldl rekeyStep ⟨core.state, ⟨[], [], []⟩, []⟩).state :=
      foldl_rulesFrom spelled fun _ => .inl
    intro asked
    rcases rules key asked with before | ⟨branch, encoded, name, linear⟩
    · exact before
    · rw [decoded branch encoded name] at linear
      cases linear

theorem createRepositoryLocked_bends {request : CreateRepositoryRequest}
    (guarded : key = (owner, request.name, request.defaultBranch.getD "main") →
      core.state.Live (Scoped.slug key) ∨ core.state.branchProtections.lookup key ≠ none) :
    core.state.Bends ((createRepositoryLocked owner request core).leaves core).state key := by
  apply Outcome.bends
  unfold createRepositoryLocked
  dsimp only
  split
  · exact True.intro
  · next absent =>
    refine @ensureDefaultBranchProtection_bends key { core.state with counters := _, repos := _ } _ _
      fun own => ?_
    rcases guarded own with ⟨repo, live⟩ | stands
    · have taken : (core.state.repos.lookup (owner, request.name)).isSome = true := by
        rw [own] at live
        exact Option.isSome_iff_exists.mpr ⟨repo, live⟩
      exact absurd taken absent
    · exact stands

theorem deleteRepositoryLocked_bends :
    core.state.Bends ((deleteRepositoryLocked owner repo core).leaves core).state key := by
  apply Outcome.bends
  unfold deleteRepositoryLocked
  split
  · exact True.intro
  · refine State.Bends.kept fun rule found => ?_
    replace found : (drainScoped core.state.branchProtections owner repo).lookup key = some rule :=
      found
    have drained := lookup_drainScoped core.state.branchProtections (owner, repo) key
    rw [drained] at found
    split at found
    · cases found
    · exact found

/-- A repository that moves elsewhere brings no rule here. -/
theorem Relocates.bends {old new : Slug} {core' : ForgeCore} (relocates : Relocates old new core core')
    (settled : Scoped.slug key = new → core.state.Live (Scoped.slug key)) :
    core.state.Bends core'.state key := by
  obtain ⟨repository, found, free, aliases, transfers, deployments, moved⟩ := relocates
  have away : Scoped.slug key ≠ new := by
    intro same
    obtain ⟨stored, live⟩ := settled same
    rw [same, free] at live
    cases live
  refine State.Bends.kept fun rule stands => ?_
  rw [moved] at stands
  have range := rekeyTriples_range core.state.branchProtections old new
  rcases range.lookup_some (ne_of_lookup found free) stands with lands | ⟨-, kept⟩
  · exact absurd lands away
  · exact kept

end Locked

/-- No section turns the requirement on that the call does not turn on. -/
theorem section_bends {call : Call} {core core' : ForgeCore} {reply : Option call.Reply}
    {key : Scoped String} (coherent : core.Coherent) (sect : Section call core core' reply)
    (bent : ¬call.Straightens core.state key) : core.state.Bends core'.state key := by
  have effect := section_effect coherent sect
  by_cases still : call.Rules ∨ call.Shifts
  · cases sect with
    | audit => exact .same rfl
    | refused => exact .same rfl
    | profile profiled => cases profiled <;> exact absurd still (by simp [Call.Rules, Call.Shifts])
    | @setBranchProtection owner repo branch request _ _ now =>
      refine setProtectionLocked_bends fun own => Bool.eq_false_iff.mpr fun linear => bent ?_
      exact ⟨own, linear⟩
    | deleteBranchProtection => exact deleteProtectionLocked_bends
    | rekeyEncodedBranchProtections plan spelled =>
      refine rekeyEncodedLocked_bends spelled fun branch encoded decoded => ?_
      exact Bool.eq_false_iff.mpr fun linear => bent ⟨branch, encoded, decoded, linear⟩
    | setRepositoryDefaultBranch slug =>
      exact setDefaultBranchLocked_bends fun own absent => bent ⟨own, absent⟩
    | setDefaultBranchProtectionOptOut =>
      exact setOptOutLocked_bends coherent fun own opened absent => bent ⟨own, opened, absent⟩
    | createRepository =>
      refine createRepositoryLocked_bends fun own => ?_
      by_contra neither
      have both := not_or.mp neither
      exact bent ⟨own, both.1, not_not.mp both.2⟩
    | deleteRepository => exact deleteRepositoryLocked_bends
    | renameRepository =>
      rcases writeRenameLocked_relocates _ _ core with same | relocates
      · exact .same (by rw [same])
      · refine relocates.bends fun own => ?_
        by_contra absent
        exact bent ⟨own, absent⟩
    | commitRepositoryTransfer =>
      rcases commitTransferLocked_moved _ _ core with same | ⟨name, journal, found, relocates⟩
      · exact .same (by rw [same])
      · refine relocates.bends fun own => ?_
        by_contra absent
        exact bent ⟨name, journal, found, own, absent⟩
    | _ => exact absurd still (by simp [Call.Rules, Call.Shifts])
  · have both := not_or.mp still
    exact .same (effect.moves.branchProtections both.1 both.2)

/-- The finalize that would record the merge into `base` of an open pull request finds no rule
    that asks for more than was announced, or is refused and changes nothing. -/
def KeepsHistory (pool : Pool) (owner repo : String) (number : Nat) (base : MergeBase)
    (announced : Bool) : Prop :=
  ∀ i mergeSha requestedSha reply pool' pr,
    pool.Writes i (.finalizeMerge owner repo number mergeSha requestedSha base) reply pool' →
    pool.shared.state.pulls.lookup (owner, repo, number) = some pr → pr.merged = false →
    pool.shared.state.linear (owner, repo, base.baseRef) = true →
    announced = true ∨
      (pool'.shared.state = pool.shared.state ∧ ∃ failure, reply = some (.error failure))

/-- The calls between that turn the requirement on only where it was announced. -/
def Call.Announced (key : Scoped String) (announced : Bool) (call : Call) (core : ForgeCore) : Prop :=
  announced = true ∨ ¬call.Straightens core.state key

section Runs

variable {pool pool' : Pool} {owner repo : String} {number : Nat} {requestedSha : Option String}
variable {baseRef baseSha headRef headSha : String} {announced : Bool}

/-- A readiness announces what the rule of the base says. -/
theorem mergeReadiness_linear {core : ForgeCore}
    (ready : mergeReadiness owner repo number requestedSha core =
      .ok (.ready baseRef baseSha headRef headSha announced)) :
    core.state.linear (owner, repo, baseRef) = announced := by
  unfold mergeReadiness at ready
  split at ready
  · cases ready
  · next pr found =>
    split at ready
    · cases ready
    · split at ready
      · cases ready
      · dsimp only at ready
        split at ready
        · cases ready
        · cases ready
          rfl

theorem Ambient.bends {core core' : ForgeCore} (ambient : Ambient core core') (key : Scoped String) :
    core.state.Bends core'.state key :=
  .same (ambient.moves.branchProtections False.elim False.elim)

/-- From the section the readiness reads in, the rule asks for no more than was announced as long
    as no call turns the requirement on. -/
theorem history_as_announced (reachable : pool.Reachable)
    (ready : mergeReadiness owner repo number requestedSha pool.shared =
      .ok (.ready baseRef baseSha headRef headSha announced))
    (run : Run forge (Guarded (Call.Announced (owner, repo, baseRef) announced)) pool pool') :
    KeepsHistory pool' owner repo number { baseRef, baseSha } announced := by
  intro i mergeSha requested reply last pr writes found unmerged linear
  refine .inl ?_
  cases announced with
  | true => rfl
  | false =>
    have bends : pool.shared.state.Bends pool'.shared.state (owner, repo, baseRef) :=
      reachable.along (T := fun core core' => core.state.Bends core'.state (owner, repo, baseRef))
        run (fun _ => id) (fun _ _ _ first second => first.trans second)
        (fun _ _ moved => moved.bends _)
        fun call core core' reply coherent kept sect _ =>
          section_bends coherent sect (kept.resolve_left Bool.false_ne_true)
    rw [← mergeReadiness_linear ready]
    exact bends linear

end Runs

section Demo

def Call.setRule (linear : Bool) : Call :=
  .setBranchProtection "acme" "demo" "main"
    { SetBranchProtectionRequest.default with requiredLinearHistory := linear }

/-- A pull request into a branch that takes any history. -/
def looseBase : List (Turn Call) :=
  [.alone .newDemo, .alone (.setRule false), .alone (.newPull "alice")]

def finalizeDemo : Call :=
  .finalizeMerge "acme" "demo" 1 "merge-1" (some Call.demoHead)
    { baseRef := "main", baseSha := Call.demoBase }

theorem looseBase_ready :
    mergeReadiness "acme" "demo" 1 (some Call.demoHead) (ForgeCore.inMemory.played looseBase).shared =
      .ok (.ready "main" Call.demoBase "feature" Call.demoHead false) := by
  rfl

theorem history_demo : KeepsHistory
    ((ForgeCore.inMemory.played looseBase).play forge [.alone (.setRule false), .enter finalizeDemo])
    "acme" "demo" 1 { baseRef := "main", baseSha := Call.demoBase } false := by
  have reachable : (ForgeCore.inMemory.played looseBase).Reachable := played_any rfl (by decide)
  refine history_as_announced reachable looseBase_ready (play_run ⟨⟨True.intro, ?_⟩, True.intro, True.intro⟩)
  refine Program.permits_of_every (fun update core => .inr (.inr ?_)) _ _
  exact fun straightens => Bool.false_ne_true straightens.2

/-- The rule turned on after the readiness, and a finalize that waits for the write lock. -/
def straightened : List (Turn Call) := [.alone (.setRule true), .enter finalizeDemo, .advance 4]

/-- The merge is recorded all the same. -/
theorem not_history_as_announced :
    ¬∀ (pool pool' : Pool) (owner repo : String) (number : Nat) (requestedSha : Option String)
      (baseRef baseSha headRef headSha : String) (announced : Bool), pool.Reachable →
      mergeReadiness owner repo number requestedSha pool.shared =
        .ok (.ready baseRef baseSha headRef headSha announced) →
      Run forge (Guarded anyCall) pool pool' →
      KeepsHistory pool' owner repo number { baseRef, baseSha } announced := by
  intro keeps
  let pool := (ForgeCore.inMemory.played looseBase).play forge straightened
  have reachable : (ForgeCore.inMemory.played looseBase).Reachable := played_any rfl (by decide)
  have run : Run forge (Guarded anyCall) (ForgeCore.inMemory.played looseBase) pool :=
    play_run (plays_of_plain (by decide) fun _ _ => True.intro)
  obtain ⟨reply, writes⟩ : ∃ reply, pool.Writes 4 finalizeDemo reply (pool.turn forge (.advance 4)) :=
    Config.turn_writes rfl (by decide +kernel)
  have linear : pool.shared.state.linear ("acme", "demo", "main") = true := by decide +kernel
  have before : (pool.shared.state.pulls.lookup ("acme", "demo", 1)).any (fun pr => !pr.merged) =
      true := by decide +kernel
  have after : ((pool.turn forge (.advance 4)).shared.state.pulls.lookup ("acme", "demo", 1)).any
      PullRequest.merged = true := by decide +kernel
  obtain ⟨pr, found, unmerged⟩ := (Option.any_eq_true _ _).mp before
  rcases keeps _ _ _ _ _ _ _ _ _ _ _ reachable looseBase_ready run 4 _ _ _ _ pr writes found
    (by simpa using unmerged) linear with announced | ⟨same, -⟩
  · cases announced
  · rw [same] at after
    obtain ⟨pr', found', merged⟩ := (Option.any_eq_true _ _).mp after
    cases found.symm.trans found'
    rw [merged] at unmerged
    cases unmerged

end Demo

end Jeryu.Core
