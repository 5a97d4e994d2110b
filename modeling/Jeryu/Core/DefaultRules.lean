import Jeryu.Core.LinearHistory

/-!
The rule of a default branch is mandatory unless its repository opted out and none of its rules
requires a status. A rule set on another branch can make it mandatory where it is gone; so can a
move to a name under which rules were left. Nothing else leaves a default branch without it.
-/

namespace Jeryu.Core

open KeyedMap HashMap LockProgram

/-- Some rule of the repository requires a status. -/
def State.Requires (s : State) (slug : Slug) : Prop :=
  ∃ branch rule, s.branchProtections.lookup (slug.1, slug.2, branch) = some rule ∧
    rule.requiredStatusChecks ≠ []

/-- The repository has not opted out, or may not. -/
def State.Demands (s : State) (slug : Slug) (repo : Repository) : Prop :=
  repo.defaultBranchProtectionOptOut = false ∨ s.Requires slug

/-- There is a rule for the branch. -/
def State.Ruled (s : State) (slug : Slug) (branch : String) : Prop :=
  ∃ rule, s.branchProtections.lookup (slug.1, slug.2, branch) = some rule

/-- Every default branch whose rule is mandatory has one. -/
def State.DefaultsRuled (s : State) : Prop :=
  s.repos.Every fun slug repo => s.Demands slug repo → s.Ruled slug repo.defaultBranch

/-- What was left under the new name requires no status where it stays, or the default branch of
    the repository that moves there has a rule. -/
def State.Clears (s : State) (old new : Slug) : Prop :=
  ∀ repo, s.repos.lookup old = some repo → repo.defaultBranchProtectionOptOut = true →
    s.Ruled old repo.defaultBranch ∨ s.Ruled new repo.defaultBranch ∨ ∀ branch rule,
      s.branchProtections.lookup (new.1, new.2, branch) = some rule →
      rule.requiredStatusChecks = [] ∨ s.Ruled old branch

/-- The call brings no status requirement to a repository without the rule. -/
def Call.KeepsDefaultRule (call : Call) (core : ForgeCore) : Prop :=
  match call with
  | .setBranchProtection owner repo branch request => ∀ entry,
      core.state.repos.lookup (owner, repo) = some entry →
      entry.defaultBranchProtectionOptOut = true → request.requiredStatusChecks ≠ [] →
      branch = entry.defaultBranch ∨ core.state.Ruled (owner, repo) entry.defaultBranch
  | call => ∀ old new, call.MovesFrom core.state old new → core.state.Clears old new

/-- Every repository was there, as it opted and with its default branch. -/
def State.SameDefaults (s s' : State) : Prop :=
  s'.repos.Every fun slug repo => ∃ before, s.repos.lookup slug = some before ∧
    before.defaultBranchProtectionOptOut = repo.defaultBranchProtectionOptOut ∧
    before.defaultBranch = repo.defaultBranch

section Frames

variable {print : Footprint} {s s' last : State} {slug : Slug} {repo : Repository} {branch : String}

theorem requires_iff (keyed : s.branchProtections.Every fun key rule => rule.key = key) (slug : Slug) :
    s.repoRequiresStatusContext slug.1 slug.2 = true ↔ s.Requires slug := by
  unfold State.repoRequiresStatusContext State.Requires
  rw [List.any_eq_true]
  constructor
  · intro ⟨rule, listed, required⟩
    simp only [Bool.and_eq_true, beq_iff_eq, Bool.not_eq_true', List.isEmpty_eq_false_iff] at required
    obtain ⟨key, found⟩ := mem_values.mp listed
    refine ⟨rule.branch, rule, ?_, required.2⟩
    rw [← required.1.1, ← required.1.2]
    rwa [← keyed key rule found] at found
  · intro ⟨branch, rule, found, required⟩
    have own := keyed _ rule found
    refine ⟨rule, mem_values.mpr ⟨_, found⟩, ?_⟩
    have owner : rule.owner = slug.1 := congrArg (fun key : Scoped String => key.1) own
    have repo : rule.repo = slug.2 := congrArg (fun key : Scoped String => key.2.1) own
    simp [owner, repo, required]

theorem State.Requires.same (rules : s'.branchProtections = s.branchProtections)
    (requires : s'.Requires slug) : s.Requires slug := by
  obtain ⟨branch, rule, found, required⟩ := requires
  exact ⟨branch, rule, rules ▸ found, required⟩

theorem State.Ruled.same (rules : s'.branchProtections = s.branchProtections)
    (ruled : s.Ruled slug branch) : s'.Ruled slug branch := by
  obtain ⟨rule, found⟩ := ruled
  exact ⟨rule, rules ▸ found⟩

theorem State.SameDefaults.refl (s : State) : s.SameDefaults s :=
  fun _ repo found => ⟨repo, found, rfl, rfl⟩

theorem State.SameDefaults.same (repos : s'.repos = s.repos) : s.SameDefaults s' :=
  fun _ repo found => ⟨repo, repos ▸ found, rfl, rfl⟩

theorem State.SameDefaults.trans (first : s.SameDefaults s') (second : s'.SameDefaults last) :
    s.SameDefaults last := by
  intro slug repo found
  obtain ⟨middle, known, optOut, branch⟩ := second slug repo found
  obtain ⟨before, stored, optOut', branch'⟩ := first slug middle known
  exact ⟨before, stored, optOut'.trans optOut, branch'.trans branch⟩

/-- A write that leaves the rules, and the repositories up to what it says of them. -/
theorem State.DefaultsRuled.frame (ruled : s.DefaultsRuled)
    (rules : s'.branchProtections = s.branchProtections) (defaults : s.SameDefaults s') :
    s'.DefaultsRuled := by
  intro slug repo found demands
  obtain ⟨before, stored, optOut, branch⟩ := defaults slug repo found
  have there : s.Ruled slug before.defaultBranch := by
    refine ruled slug before stored (demands.imp (fun kept => ?_) (State.Requires.same rules))
    rw [optOut, kept]
  rw [branch] at there
  exact there.same rules

theorem Touch.sameDefaults (touch : Touch print s s') (still : ¬print.rules) : s.SameDefaults s' := by
  cases touch with
  | @repositoryEdited slug entry found family archived updatedAt pushedAt =>
    intro other repo there
    rw [lookup_insert_if] at there
    split at there
    · next here =>
      cases there
      exact ⟨entry, here ▸ found, rfl, rfl⟩
    · exact ⟨repo, there, rfl, rfl⟩
  | defaultBranchSet found within branch now edited ruling => exact absurd ruling still
  | optOutSet found within optOut now edited free ruling => exact absurd ruling still
  | @issueOpened numbered issue may within next =>
    have counted : numbered = (s.nextRecordNumber issue.owner issue.repo).2 := by rw [next]
    subst counted
    exact .same rfl
  | _ => exact .same rfl

theorem Moves.sameDefaults (moves : Moves print s s') (still : ¬print.rules) (settled : ¬print.shifts) :
    s.SameDefaults s' := by
  cases moves with
  | touches writes =>
    induction writes with
    | refl => exact .refl s
    | tail _ touch ih => exact ih.trans (touch.sameDefaults still)
  | shift may => exact absurd may settled

/-- Rules of other repositories are left, and new ones require no status: then only the
    repository at `slug` has to be looked at. -/
theorem State.DefaultsRuled.elsewhere (ruled : s.DefaultsRuled)
    (kept : ∀ key, Scoped.slug key ≠ slug →
      s'.branchProtections.lookup key = s.branchProtections.lookup key)
    (repos : ∀ other, other ≠ slug → s'.repos.lookup other = s.repos.lookup other)
    (here : ∀ repo, s'.repos.lookup slug = some repo → s'.Demands slug repo →
      s'.Ruled slug repo.defaultBranch) : s'.DefaultsRuled := by
  intro other repo found demands
  by_cases same : other = slug
  · subst same
    exact here repo found demands
  · rw [repos other same] at found
    have there : s.Ruled other repo.defaultBranch := by
      refine ruled other repo found (demands.imp_right fun requires => ?_)
      obtain ⟨branch, rule, stored, required⟩ := requires
      exact ⟨branch, rule, (kept (other.1, other.2, branch) same).symm.trans stored, required⟩
    obtain ⟨rule, stored⟩ := there
    exact ⟨rule, (kept (other.1, other.2, repo.defaultBranch) same).trans stored⟩

end Frames

section Ensure

variable {s : State} {repo : Repository} {now : DateTime}

/-- The automatic rule comes under its own key only. -/
theorem ensure_elsewhere {key : Scoped String} (other : Scoped.slug key ≠ repo.slug) :
    (s.ensureDefaultBranchProtection repo now).branchProtections.lookup key =
      s.branchProtections.lookup key := by
  unfold State.ensureDefaultBranchProtection
  split
  · rfl
  · dsimp only
    split
    · rfl
    · rw [lookup_insert_if, if_neg]
      rintro rfl
      exact other rfl

theorem ensure_ruled (keyed : s.branchProtections.Every fun key rule => rule.key = key)
    (demands : (s.ensureDefaultBranchProtection repo now).Demands repo.slug repo) :
    (s.ensureDefaultBranchProtection repo now).Ruled repo.slug repo.defaultBranch := by
  unfold State.ensureDefaultBranchProtection at demands ⊢
  split at demands
  · next free =>
    rw [if_pos free]
    simp only [Bool.and_eq_true, Bool.not_eq_true'] at free
    rcases demands with kept | requires
    · rw [kept] at free
      cases free.1
    · have asked := (requires_iff keyed repo.slug).mpr requires
      cases asked.symm.trans free.2
  · next bound =>
    rw [if_neg bound]
    dsimp only
    split
    · next stands => exact Option.isSome_iff_exists.mp stands
    · exact ⟨_, lookup_insert_self ..⟩

/-- The repository is stored as edited, and given the automatic rule where it has to have one. -/
theorem State.DefaultsRuled.ensure (ruled : s.DefaultsRuled)
    (keyed : s.branchProtections.Every fun key rule => rule.key = key)
    {counters : HashMap Slug Counters} :
    ({ s with counters, repos := s.repos.insert repo.slug repo }.ensureDefaultBranchProtection repo
      now).DefaultsRuled := by
  refine @State.DefaultsRuled.elsewhere s _ repo.slug ruled ?_ ?_ ?_
  · exact fun key other => ensure_elsewhere other
  · intro other away
    rw [State.ensureDefaultBranchProtection_eq]
    show (s.repos.insert repo.slug repo).lookup other = _
    rw [lookup_insert_if, if_neg away]
  · intro stored found demands
    rw [State.ensureDefaultBranchProtection_eq] at found
    have own : (s.repos.insert repo.slug repo).lookup repo.slug = some repo := lookup_insert_self ..
    cases own.symm.trans found
    exact ensure_ruled keyed demands

end Ensure

section Locked

variable {core : ForgeCore} {owner repo branch : String}

theorem Outcome.defaultsRuled {α : Type} {outcome : Outcome α} (ruled : core.state.DefaultsRuled)
    (commits : outcome.Commits fun _ next _ => next.DefaultsRuled) :
    (outcome.leaves core).state.DefaultsRuled := by
  rcases Outcome.leaves_state commits with same | ⟨draws, next, value, known, moved, -⟩
  · rw [same]
    exact ruled
  · rw [moved]
    exact known

/-- The rule of a branch set, whatever it was. -/
def State.withRule (s : State) (rule : BranchProtectionRule) : State :=
  { s with branchProtections := s.branchProtections.insert rule.key rule }

/-- A rule set leaves the default branch of its repository ruled exactly where it requires no
    status, is the rule of that branch, or finds one there. -/
theorem withRule_ruled_iff {s : State} {request : SetBranchProtectionRequest} {now : DateTime}
    (ruled : s.DefaultsRuled) : (s.withRule (request.rule owner repo branch now)).DefaultsRuled ↔
      ∀ entry, s.repos.lookup (owner, repo) = some entry →
        entry.defaultBranchProtectionOptOut = true → request.requiredStatusChecks ≠ [] →
        branch = entry.defaultBranch ∨ s.Ruled (owner, repo) entry.defaultBranch := by
  let rule := request.rule owner repo branch now
  have lookup (key : Scoped String) : (s.withRule rule).branchProtections.lookup key =
      if key = (owner, repo, branch) then some rule else s.branchProtections.lookup key :=
    lookup_insert_if _ _ _ _
  constructor
  · intro after entry found optedOut required
    by_cases same : branch = entry.defaultBranch
    · exact .inl same
    · have asks : (s.withRule rule).Requires (owner, repo) :=
        ⟨branch, rule, (lookup _).trans (if_pos rfl), required⟩
      obtain ⟨stored, there⟩ := after (owner, repo) entry found (.inr asks)
      refine .inr ⟨stored, ?_⟩
      have away : (owner, repo, entry.defaultBranch) ≠ (owner, repo, branch) :=
        fun equal => same (congrArg (fun key : Scoped String => key.2.2) equal).symm
      exact ((lookup _).trans (if_neg away)).symm.trans there
  · intro met
    have kept (name : String) (there : s.Ruled (owner, repo) name) :
        (s.withRule rule).Ruled (owner, repo) name := by
      obtain ⟨stored, found⟩ := there
      by_cases same : (owner, repo, name) = (owner, repo, branch)
      · exact ⟨rule, (lookup _).trans (if_pos same)⟩
      · exact ⟨stored, ((lookup _).trans (if_neg same)).trans found⟩
    refine @State.DefaultsRuled.elsewhere s _ (owner, repo) ruled (fun key other => ?_)
      (fun _ _ => rfl) fun entry found demands => ?_
    · refine (lookup key).trans (if_neg ?_)
      rintro rfl
      exact other rfl
    · by_cases before : s.Demands (owner, repo) entry
      · exact kept _ (ruled _ entry found before)
      · obtain ⟨optedOut, unrequired⟩ := not_or.mp before
        rcases demands with bound | ⟨name, stored, there, required⟩
        · exact absurd bound optedOut
        · replace there := (lookup _).symm.trans there
          split at there
          · cases there
            rcases met entry found (by simpa using optedOut) required with same | there
            · rw [← same]
              exact ⟨rule, (lookup _).trans (if_pos rfl)⟩
            · exact kept _ there
          · exact absurd ⟨name, stored, there, required⟩ unrequired

/-- A rule taken away that is not the mandatory one of its repository. -/
theorem State.DefaultsRuled.erase {s : State} {key : Scoped String} (ruled : s.DefaultsRuled)
    (optional : ∀ entry, s.repos.lookup (Scoped.slug key) = some entry →
      key.2.2 = entry.defaultBranch → ¬s.Demands (Scoped.slug key) entry) :
    ({ s with branchProtections := s.branchProtections.erase key } : State).DefaultsRuled := by
  refine @State.DefaultsRuled.elsewhere s _ (Scoped.slug key) ruled (fun other away => ?_)
    (fun _ _ => rfl) fun entry found demands => ?_
  · rw [lookup_erase_if, if_neg]
    rintro rfl
    exact away rfl
  · have before : s.Demands (Scoped.slug key) entry := by
      refine demands.imp_right fun ⟨branch, rule, there, required⟩ => ⟨branch, rule, ?_, required⟩
      rw [lookup_erase_if] at there
      split at there
      · cases there
      · exact there
    obtain ⟨rule, there⟩ := ruled _ entry found before
    refine ⟨rule, ?_⟩
    rw [lookup_erase_if, if_neg, there]
    intro same
    exact optional entry found (congrArg (fun key => key.2.2) same).symm before

theorem deleteProtectionLocked_ruled (ruled : core.state.DefaultsRuled)
    (keyed : core.state.WellKeyed) :
    (deleteProtectionLocked owner repo branch core).Commits fun _ next _ => next.DefaultsRuled := by
  unfold deleteProtectionLocked
  split
  · exact True.intro
  · next live found =>
    refine Outcome.commits_ite (fun _ => True.intro) fun _ => ?_
    refine Outcome.commits_ite (fun _ => True.intro) fun optional => ?_
    split
    · exact True.intro
    · refine @State.DefaultsRuled.erase core.state (owner, repo, branch) ruled
        fun entry there own demands => ?_
      cases found.symm.trans there
      have slug : (live.owner, live.name) = (owner, repo) := (keyed.repos _ _ found).1
      have free : core.state.defaultRuleIsMandatory live = false := by
        have same : live.defaultBranch = branch := own.symm
        simpa [same] using optional
      simp only [State.defaultRuleIsMandatory, Bool.or_eq_false_iff, Bool.not_eq_false'] at free
      rcases demands with bound | requires
      · cases bound.symm.trans free.1
      · have asked := (requires_iff keyed.branchProtections (owner, repo)).mpr requires
        rw [← slug] at asked
        cases asked.symm.trans free.2

/-- The repair leaves the rule of a default branch, and what it moves requires what it did. -/
theorem rekeyStep_ruled {progress : Rekeying} {step : PlannedRekey}
    (ruled : progress.state.DefaultsRuled) : (rekeyStep progress step).state.DefaultsRuled := by
  obtain ⟨state, report, changes⟩ := progress
  simp only [rekeyStep]
  split
  · exact ruled
  · next removed =>
    obtain ⟨entry, live, -, ordinary, -⟩ := decideRekey_change (.inr removed)
    refine @State.DefaultsRuled.erase state step.key ruled fun other there own _ => ?_
    cases live.symm.trans there
    exact ordinary own.symm
  · next rekeyed =>
    obtain ⟨entry, live, -, ordinary, seen⟩ := decideRekey_change (.inl rekeyed)
    let moved : BranchProtectionRule := { step.seen with branch := step.decoded }
    let slug : Slug := (step.key.1, step.key.2.1)
    show State.DefaultsRuled { state with
      branchProtections := (state.branchProtections.erase step.key).insert step.target moved }
    refine @State.DefaultsRuled.elsewhere state _ slug ruled (fun key away => ?_)
      (fun _ _ => rfl) fun other there demands => ?_
    · rw [lookup_insert_if, if_neg, lookup_erase_if, if_neg]
      · rintro rfl
        exact away rfl
      · rintro rfl
        exact away rfl
    · cases live.symm.trans there
      have before : state.Demands slug entry := by
        refine demands.imp_right fun asked => ?_
        obtain ⟨name, rule, found, required⟩ := asked
        rw [lookup_insert_if, lookup_erase_if] at found
        split at found
        · cases found
          exact ⟨step.key.2.2, step.seen, seen, required⟩
        · split at found
          · cases found
          · exact ⟨name, rule, found, required⟩
      obtain ⟨rule, found⟩ := ruled _ entry there before
      show ∃ rule', ((state.branchProtections.erase step.key).insert step.target moved).lookup
        (slug.1, slug.2, entry.defaultBranch) = some rule'
      rw [lookup_insert_if, lookup_erase_if]
      split
      · exact ⟨moved, rfl⟩
      · rw [if_neg]
        · exact ⟨rule, found⟩
        · intro same
          exact ordinary (congrArg (fun key => key.2.2) same)

theorem rekeyEncodedLocked_ruled {plan : List PlannedRekey} (ruled : core.state.DefaultsRuled) :
    (rekeyEncodedLocked plan core).Commits fun _ next _ => next.DefaultsRuled := by
  have steps (progress : Rekeying) (before : progress.state.DefaultsRuled) :
      (plan.foldl rekeyStep progress).state.DefaultsRuled := by
    induction plan generalizing progress with
    | nil => exact before
    | cons step rest ih => exact ih _ (rekeyStep_ruled before)
  unfold rekeyEncodedLocked
  dsimp only
  split
  · exact True.intro
  · exact steps ⟨core.state, ⟨[], [], []⟩, []⟩ ruled

theorem setDefaultBranchLocked_ruled (ruled : core.state.DefaultsRuled)
    (keyed : core.state.WellKeyed) :
    (setDefaultBranchLocked owner repo branch core).Commits fun _ next _ => next.DefaultsRuled := by
  unfold setDefaultBranchLocked
  split
  · exact True.intro
  · next entry found =>
    let updated : Repository := { entry with defaultBranch := branch, updatedAt := core.now }
    have own : updated.slug = (owner, repo) := (keyed.repos _ _ found).1
    have kept := @State.DefaultsRuled.ensure core.state updated core.now ruled keyed.branchProtections
    rw [own] at kept
    exact kept

theorem setOptOutLocked_ruled {optOut : Bool} (ruled : core.state.DefaultsRuled)
    (keyed : core.state.WellKeyed) :
    (setOptOutLocked owner repo optOut core).Commits fun _ next _ => next.DefaultsRuled := by
  unfold setOptOutLocked
  refine Outcome.commits_ite (fun _ => True.intro) fun free => ?_
  split
  · exact True.intro
  · next entry found =>
    refine Outcome.commits_ite (fun _ => True.intro) fun _ => ?_
    let updated : Repository := { entry with
      defaultBranchProtectionOptOut := optOut, updatedAt := core.now }
    have own : updated.slug = (owner, repo) := (keyed.repos _ _ found).1
    show (core.state.withOptOut owner repo updated core.now).DefaultsRuled
    unfold State.withOptOut
    dsimp only
    split
    · next opted =>
      -- The automatic rule goes only where no rule requires a status.
      have unrequired : ¬core.state.Requires (owner, repo) := by
        intro requires
        have asked := (requires_iff keyed.branchProtections (owner, repo)).mpr requires
        have out : optOut = true := opted
        exact free (by simpa [out] using asked)
      have stored : State.DefaultsRuled
          { core.state with repos := core.state.repos.insert (owner, repo) updated } := by
        refine @State.DefaultsRuled.elsewhere core.state _ (owner, repo) ruled (fun _ _ => rfl)
          (fun other away => ?_) fun other there demands => ?_
        · rw [lookup_insert_if, if_neg away]
        · have here : (core.state.repos.insert (owner, repo) updated).lookup (owner, repo) =
            some updated := lookup_insert_self ..
          cases here.symm.trans there
          rcases demands with bound | requires
          · cases bound.symm.trans opted
          · exact absurd requires unrequired
      split
      · refine @State.DefaultsRuled.erase _ (owner, repo, updated.defaultBranch) stored
          fun other there _ demands => ?_
        have here : (core.state.repos.insert (owner, repo) updated).lookup (owner, repo) =
          some updated := lookup_insert_self ..
        cases here.symm.trans there
        rcases demands with bound | requires
        · cases bound.symm.trans opted
        · exact absurd requires unrequired
      · exact stored
    · have kept := @State.DefaultsRuled.ensure core.state updated core.now ruled keyed.branchProtections
      rw [own] at kept
      exact kept

theorem createRepositoryLocked_ruled {request : CreateRepositoryRequest}
    (ruled : core.state.DefaultsRuled) (keyed : core.state.WellKeyed) :
    (createRepositoryLocked owner request core).Commits fun _ next _ => next.DefaultsRuled := by
  unfold createRepositoryLocked
  dsimp only
  split
  · exact True.intro
  · exact ruled.ensure keyed.branchProtections

theorem deleteRepositoryLocked_ruled (ruled : core.state.DefaultsRuled) :
    (deleteRepositoryLocked owner repo core).Commits fun _ next _ => next.DefaultsRuled := by
  unfold deleteRepositoryLocked
  split
  · exact True.intro
  · next removed found =>
    show (core.state.withoutRepository owner repo removed.id).DefaultsRuled
    refine @State.DefaultsRuled.elsewhere core.state _ (owner, repo) ruled (fun key away => ?_)
      (fun other away => ?_) fun entry there _ => ?_
    · have drained := lookup_drainScoped core.state.branchProtections (owner, repo) key
      exact drained.trans (if_neg away)
    · exact (lookup_erase_if _ _ _).trans (if_neg away)
    · have gone : (core.state.repos.erase (owner, repo)).lookup (owner, repo) = none :=
        (lookup_erase_if _ _ _).trans (if_pos rfl)
      cases gone.symm.trans there

/-- The rules of a repository move with it, over those left under its new name. -/
theorem rekeyed_ruled {s : State} {old new : Slug} {entry : Repository} {now : DateTime}
    (ruled : s.DefaultsRuled) (found : s.repos.lookup old = some entry)
    (free : s.repos.lookup new = none) (clears : s.Clears old new) :
    (s.rekeyed old new (movedRepository new now entry)).DefaultsRuled := by
  have different : new ≠ old := ne_of_lookup found free
  have range := rekeyTriples_range s.branchProtections old new
  let update (rule : BranchProtectionRule) : BranchProtectionRule :=
    { rule with owner := new.1, repo := new.2 }
  have atNew (branch : String) :
      (rekeyTriples s.branchProtections old new update).lookup (new.1, new.2, branch) =
        ((s.branchProtections.lookup (old.1, old.2, branch)).map update).or
          (s.branchProtections.lookup (new.1, new.2, branch)) :=
    lookup_rekeyTriples different rfl
  have arrives (branch : String) (there : s.Ruled old branch) :
      (s.rekeyed old new (movedRepository new now entry)).Ruled new branch := by
    obtain ⟨rule, stored⟩ := there
    refine ⟨update rule, (atNew branch).trans ?_⟩
    rw [stored]
    rfl
  have stays (branch : String) (there : s.Ruled new branch) :
      (s.rekeyed old new (movedRepository new now entry)).Ruled new branch := by
    by_cases moved : s.Ruled old branch
    · exact arrives branch moved
    · obtain ⟨rule, stored⟩ := there
      have none : s.branchProtections.lookup (old.1, old.2, branch) = none :=
        Option.eq_none_iff_forall_ne_some.mpr fun rule found => moved ⟨rule, found⟩
      refine ⟨rule, (atNew branch).trans ?_⟩
      rw [none, stored]
      rfl
  intro slug repo there demands
  replace there : ((s.repos.erase old).insert new (movedRepository new now entry)).lookup slug =
    some repo := there
  rw [lookup_insert_if, lookup_erase_if] at there
  split at there
  · next here =>
    subst here
    cases there
    show State.Ruled _ slug entry.defaultBranch
    by_cases before : s.Demands old entry
    · exact arrives _ (ruled old entry found before)
    · obtain ⟨optedOut, unrequired⟩ := not_or.mp before
      rcases demands with bound | ⟨branch, rule, stored, required⟩
      · exact absurd bound optedOut
      · rcases clears entry found (by simpa using optedOut) with moved | stands | left
        · exact arrives _ moved
        · exact stays _ stands
        · have stored' := (atNew branch).symm.trans stored
          cases source : s.branchProtections.lookup (old.1, old.2, branch) with
          | some rule' =>
            rw [source] at stored'
            cases stored'
            exact absurd ⟨branch, rule', source, required⟩ unrequired
          | none =>
            rw [source] at stored'
            rcases left branch rule stored' with unasked | ⟨rule', moved⟩
            · exact absurd unasked required
            · cases source.symm.trans moved
  · next notNew =>
    split at there
    · cases there
    · next notOld =>
      have kept (branch : String) :
          (rekeyTriples s.branchProtections old new update).lookup (slug.1, slug.2, branch) =
            s.branchProtections.lookup (slug.1, slug.2, branch) :=
        range.lookup_other notOld notNew
      have before : s.Ruled slug repo.defaultBranch := by
        refine ruled slug repo there (demands.imp_right fun ⟨branch, rule, stored, required⟩ => ?_)
        exact ⟨branch, rule, (kept branch).symm.trans stored, required⟩
      obtain ⟨rule, stored⟩ := before
      exact ⟨rule, (kept repo.defaultBranch).trans stored⟩

theorem Relocates.ruled {old new : Slug} {core' : ForgeCore} (relocates : Relocates old new core core')
    (ruled : core.state.DefaultsRuled) (clears : core.state.Clears old new) :
    core'.state.DefaultsRuled := by
  obtain ⟨repository, found, free, aliases, transfers, deployments, moved⟩ := relocates
  rw [moved]
  exact @rekeyed_ruled core.state old new repository core.now ruled found free clears

end Locked

section Runs

variable {call : Call} {core core' : ForgeCore} {pool : Pool}

theorem section_ruled {reply : Option call.Reply} (coherent : core.Coherent)
    (sect : Section call core core' reply) (met : call.KeepsDefaultRule core)
    (ruled : core.state.DefaultsRuled) : core'.state.DefaultsRuled := by
  have effect := section_effect coherent sect
  by_cases still : call.Rules ∨ call.Shifts
  · cases sect with
    | audit => exact ruled
    | refused => exact ruled
    | profile profiled => cases profiled <;> exact absurd still (by simp [Call.Rules, Call.Shifts])
    | setBranchProtection =>
      exact Outcome.defaultsRuled ruled ((withRule_ruled_iff ruled).mpr met)
    | deleteBranchProtection =>
      exact Outcome.defaultsRuled ruled (deleteProtectionLocked_ruled ruled coherent.keyed)
    | rekeyEncodedBranchProtections =>
      exact Outcome.defaultsRuled ruled (rekeyEncodedLocked_ruled ruled)
    | setRepositoryDefaultBranch =>
      exact Outcome.defaultsRuled ruled (setDefaultBranchLocked_ruled ruled coherent.keyed)
    | setDefaultBranchProtectionOptOut =>
      exact Outcome.defaultsRuled ruled (setOptOutLocked_ruled ruled coherent.keyed)
    | createRepository =>
      exact Outcome.defaultsRuled ruled (createRepositoryLocked_ruled ruled coherent.keyed)
    | deleteRepository => exact Outcome.defaultsRuled ruled (deleteRepositoryLocked_ruled ruled)
    | renameRepository =>
      rcases writeRenameLocked_relocates _ _ core with same | relocates
      · rw [same]
        exact ruled
      · exact relocates.ruled ruled (met _ _ ⟨rfl, rfl⟩)
    | commitRepositoryTransfer =>
      rcases commitTransferLocked_moved _ _ core with same | ⟨key, journal, found, relocates⟩
      · rw [same]
        exact ruled
      · exact relocates.ruled ruled (met _ _ ⟨key, journal, found, rfl, rfl⟩)
    | _ => exact absurd still (by simp [Call.Rules, Call.Shifts])
  · have both := not_or.mp still
    exact ruled.frame (effect.moves.branchProtections both.1 both.2)
      (effect.moves.sameDefaults both.1 both.2)

theorem default_branches_ruled (reachable : pool.ReachableWhen Call.KeepsDefaultRule) :
    pool.shared.state.DefaultsRuled := by
  refine reachable.invariant (I := fun core => core.state.DefaultsRuled) (fun core empty => ?_)
    (fun core core' ruled ambient => ?_) fun call core core' reply coherent ruled met sect _ => ?_
  · rw [empty]
    exact every_empty
  · obtain ⟨users, accounts, bots, botRepoGrants, organizations, auth, same⟩ := ambient.state
    rw [same]
    exact ruled
  · exact section_ruled coherent sect met ruled

end Runs

section Demo

/-- A repository that opts out of the rule of its default branch. -/
def optedOutDemo : List Call :=
  [.createAccount "root" "correct horse battery" .admin (.ok "hash"), .newDemo,
    .setDefaultBranchProtectionOptOut "root" "acme" "demo" true]

/-- A rule without statuses is set for another branch, and the repository opts in again. -/
def optedInDemo : List Call :=
  optedOutDemo ++ [.setBranchProtection "acme" "demo" "release" .default,
    .setDefaultBranchProtectionOptOut "root" "acme" "demo" false]

theorem default_branches_ruled_demo :
    (ForgeCore.durable.played (optedInDemo.map .alone)).shared.state.DefaultsRuled := by
  refine default_branches_ruled (played_reachable rfl (plays_alone (by decide) fun call member core => ?_))
  simp only [optedInDemo, optedOutDemo, List.cons_append, List.nil_append, List.mem_cons,
    List.not_mem_nil, or_false] at member
  rcases member with rfl | rfl | rfl | rfl | rfl
  · exact fun _ _ asked => asked.elim
  · exact fun _ _ asked => asked.elim
  · exact fun _ _ asked => asked.elim
  · exact fun entry _ _ required => absurd rfl required
  · exact fun _ _ asked => asked.elim

/-- A rule for another branch that requires a status. -/
def releaseChecked : List (Turn Call) :=
  optedOutDemo.map .alone ++ [.alone (.setBranchProtection "acme" "demo" "release"
    { SetBranchProtectionRequest.default with requiredStatusChecks := ["ci"] })]

/-- It makes the rule of the default branch mandatory, and there is none. -/
theorem not_default_branches_ruled :
    ¬∀ pool : Pool, pool.Reachable → pool.shared.state.DefaultsRuled := by
  intro ruled
  have reachable : (ForgeCore.durable.played releaseChecked).Reachable := played_any rfl (by decide)
  have asked : ((ForgeCore.durable.played releaseChecked).shared.state.branchProtections.lookup
      ("acme", "demo", "release")).any (fun rule => !rule.requiredStatusChecks.isEmpty) = true := by
    decide +kernel
  have live : ((ForgeCore.durable.played releaseChecked).shared.state.repos.lookup
      ("acme", "demo")).any (fun repo => repo.defaultBranch = "main") = true := by decide +kernel
  have gone : (ForgeCore.durable.played releaseChecked).shared.state.branchProtections.lookup
      ("acme", "demo", "main") = none := by decide +kernel
  obtain ⟨rule, found, required⟩ := (Option.any_eq_true _ _).mp asked
  obtain ⟨repo, stored, main⟩ := (Option.any_eq_true _ _).mp live
  have named : repo.defaultBranch = "main" := by simpa using main
  have demands : (ForgeCore.durable.played releaseChecked).shared.state.Demands ("acme", "demo") repo :=
    .inr ⟨"release", rule, found, by simpa using required⟩
  obtain ⟨standing, there⟩ := ruled _ reachable ("acme", "demo") repo stored demands
  rw [named] at there
  cases gone.symm.trans there

end Demo

end Jeryu.Core
