import Jeryu.Core.Rooted

/-!
The one number space of a repository's issues and pull requests. A number is handed out once in
the life of the repository, wherever the repository moves.
-/

namespace Jeryu.Core

open KeyedMap HashMap LockProgram

/-- The last number handed out for a slug. -/
def State.lastNumber (s : State) (slug : Slug) : Nat :=
  max ((s.counters.lookup slug).getD ⟨0, 0⟩).issue ((s.counters.lookup slug).getD ⟨0, 0⟩).pull

/-- No issue is numbered past the counter of its repository, and every pull request has its
    issue. -/
structure State.Numbered (s : State) : Prop where
  counted : s.issues.Every fun key _ => key.2.2 ≤ s.lastNumber (Scoped.slug key)
  backed : s.pulls.Every fun key _ => ∃ issue, s.issues.lookup key = some issue ∧
    issue.pullRequest.isSome = true

theorem numbered_empty : State.empty.Numbered := by
  constructor <;> exact every_empty

/-- Counters only grow, and what is numbered within an old counter was there. -/
structure State.NumbersGrow (s s' : State) : Prop where
  counters : ∀ slug, s.lastNumber slug ≤ s'.lastNumber slug
  issues : ∀ slug n issue', s'.issues.lookup (slug.1, slug.2, n) = some issue' →
    n ≤ s.lastNumber slug →
    ∃ issue, s.issues.lookup (slug.1, slug.2, n) = some issue ∧ issue.id = issue'.id

theorem State.NumbersGrow.refl (s : State) : s.NumbersGrow s :=
  ⟨fun _ => Nat.le_refl _, fun _ _ issue found _ => ⟨issue, found, rfl⟩⟩

theorem State.NumbersGrow.trans {s s' last : State} (earlier : s.NumbersGrow s')
    (later : s'.NumbersGrow last) : s.NumbersGrow last := by
  refine ⟨fun slug => (earlier.counters slug).trans (later.counters slug), ?_⟩
  intro slug n issue found within
  obtain ⟨issue', found', same'⟩ :=
    later.issues slug n issue found (within.trans (earlier.counters slug))
  obtain ⟨issue'', found'', same''⟩ := earlier.issues slug n issue' found' within
  exact ⟨issue'', found'', same''.trans same'⟩

section Touch

variable {print : Footprint} {s s' : State}

theorem State.nextRecordNumber_eq {owner repo : String} {number : Nat} {numbered : State}
    (next : s.nextRecordNumber owner repo = (number, numbered)) :
    number = s.lastNumber (owner, repo) + 1 ∧
      numbered = { s with counters := s.counters.insert (owner, repo) ⟨number, number⟩ } := by
  unfold State.nextRecordNumber at next
  obtain ⟨rfl, rfl⟩ := Prod.mk.inj next
  exact ⟨rfl, rfl⟩

theorem State.lastNumber_insert (s : State) (slug other : Slug) (number : Nat) :
    ({ s with counters := s.counters.insert slug ⟨number, number⟩ } : State).lastNumber other =
      if other = slug then number else s.lastNumber other := by
  unfold State.lastNumber
  rw [lookup_insert_if]
  split <;> simp

/-- Neither the counters nor the issues nor the pull requests change. -/
theorem State.Numbered.same (numbered : s.Numbered) (counters : s'.counters = s.counters)
    (issues : s'.issues = s.issues) (pulls : s'.pulls = s.pulls) : s'.Numbered := by
  obtain ⟨counted, backed⟩ := numbered
  constructor
  · intro key issue found
    unfold State.lastNumber
    rw [counters]
    exact counted key issue (issues ▸ found)
  · intro key pr found
    rw [issues]
    exact backed key pr (pulls ▸ found)

theorem State.NumbersGrow.same (counters : s'.counters = s.counters)
    (issues : s'.issues = s.issues) : s.NumbersGrow s' := by
  constructor
  · intro slug
    unfold State.lastNumber
    rw [counters]
  · intro slug n issue found _
    exact ⟨issue, issues ▸ found, rfl⟩

/-- A pull request stored where one is. -/
theorem State.Numbered.editPull (numbered : s.Numbered) {key : Scoped Nat} {pr edited : PullRequest}
    (found : s.pulls.lookup key = some pr) :
    ({ s with pulls := s.pulls.insert key edited } : State).Numbered :=
  ⟨numbered.counted, numbered.backed.insert (numbered.backed _ _ found)⟩

theorem State.Numbered.editIssue (numbered : s.Numbered) {key : Scoped Nat} {issue edited : Issue}
    (found : s.issues.lookup key = some issue) (marker : edited.pullRequest = issue.pullRequest) :
    ({ s with issues := s.issues.insert key edited } : State).Numbered := by
  refine ⟨numbered.counted.insert (numbered.counted _ _ found), fun other pr stored => ?_⟩
  obtain ⟨backing, known, marked⟩ := numbered.backed other pr stored
  show ∃ issue, (s.issues.insert key edited).lookup other = some issue ∧ _
  rw [lookup_insert_if]
  split
  · next here =>
    subst here
    cases known.symm.trans found
    exact ⟨edited, rfl, by rw [marker, marked]⟩
  · exact ⟨backing, known, marked⟩

/-- A new issue takes the number after the last. -/
theorem State.Numbered.openIssue (numbered : s.Numbered) {issue : Issue} {next : State}
    (counted : s.nextRecordNumber issue.owner issue.repo = (issue.number, next)) :
    ({ next with issues := next.issues.insert issue.key issue } : State).Numbered := by
  obtain ⟨number, rfl⟩ := State.nextRecordNumber_eq counted
  have last (slug : Slug) :
      ({ s with
        counters := s.counters.insert (issue.owner, issue.repo) ⟨issue.number, issue.number⟩
        issues := s.issues.insert issue.key issue } : State).lastNumber slug =
        if slug = (issue.owner, issue.repo) then issue.number else s.lastNumber slug :=
    State.lastNumber_insert s _ slug issue.number
  constructor
  · intro key stored found
    rw [last]
    rw [lookup_insert_if] at found
    split at found
    · next here =>
      subst here
      exact Nat.le_of_eq (if_pos rfl).symm
    · have below : key.2.2 ≤ s.lastNumber (Scoped.slug key) := numbered.counted _ _ found
      split
      · next here =>
        rw [here] at below
        omega
      · exact below
  · intro key pr stored
    obtain ⟨backing, known, marked⟩ := numbered.backed key pr stored
    have elsewhere : key ≠ issue.key := by
      rintro rfl
      have below : issue.number ≤ s.lastNumber (issue.owner, issue.repo) :=
        numbered.counted _ _ known
      omega
    refine ⟨backing, ?_, marked⟩
    show (s.issues.insert issue.key issue).lookup key = _
    rw [lookup_insert_if, if_neg elsewhere, known]

theorem State.numbersGrow_openIssue {issue : Issue} {next : State}
    (counted : s.nextRecordNumber issue.owner issue.repo = (issue.number, next)) :
    s.NumbersGrow { next with issues := next.issues.insert issue.key issue } := by
  obtain ⟨number, rfl⟩ := State.nextRecordNumber_eq counted
  constructor
  · intro slug
    have last := State.lastNumber_insert s (issue.owner, issue.repo) slug issue.number
    refine Nat.le_trans ?_ (Nat.le_of_eq last.symm)
    split
    · next here =>
      rw [here]
      omega
    · exact Nat.le_refl _
  · intro slug n stored found within
    replace found : (s.issues.insert issue.key issue).lookup (slug.1, slug.2, n) = some stored := found
    rw [lookup_insert_if] at found
    split at found
    · next here =>
      obtain ⟨owner, repo, same⟩ : slug.1 = issue.owner ∧ slug.2 = issue.repo ∧ n = issue.number := by
        simpa [Issue.key] using here
      have slugs : slug = (issue.owner, issue.repo) := Prod.ext owner repo
      rw [slugs] at within
      omega
    · exact ⟨stored, found, rfl⟩

theorem State.numbersGrow_editIssue {key : Scoped Nat} {issue edited : Issue}
    (found : s.issues.lookup key = some issue) (identity : edited.id = issue.id) :
    s.NumbersGrow { s with issues := s.issues.insert key edited } := by
  refine ⟨fun _ => Nat.le_refl _, fun slug n stored known _ => ?_⟩
  replace known : (s.issues.insert key edited).lookup (slug.1, slug.2, n) = some stored := known
  rw [lookup_insert_if] at known
  split at known
  · next here =>
    subst here
    cases known
    exact ⟨issue, found, identity.symm⟩
  · exact ⟨stored, known, rfl⟩

theorem Touch.numbered (touch : Touch print s s') (numbered : s.Numbered) :
    s'.Numbered ∧ s.NumbersGrow s' := by
  cases touch with
  | defaultBranchSet =>
    rw [State.ensureDefaultBranchProtection_eq]
    exact ⟨numbered.same rfl rfl rfl, .same rfl rfl⟩
  | optOutSet =>
    rw [State.withOptOut_eq]
    exact ⟨numbered.same rfl rfl rfl, .same rfl rfl⟩
  | issueOpened issue may within next =>
    exact ⟨numbered.openIssue next, State.numbersGrow_openIssue next⟩
  | issueEdited found within same identity marker =>
    exact ⟨numbered.editIssue found marker, State.numbersGrow_editIssue found identity⟩
  | pullOpened pr own may within drawn fresh backed marked =>
    exact ⟨⟨numbered.counted, numbered.backed.insert ⟨_, backed, marked⟩⟩, .same rfl rfl⟩
  | pullEdited found => exact ⟨numbered.editPull found, .same rfl rfl⟩
  | pullUpdated found => exact ⟨numbered.editPull found, .same rfl rfl⟩
  | pullMerged found => exact ⟨numbered.editPull found, .same rfl rfl⟩
  | _ => exact ⟨numbered.same rfl rfl rfl, .same rfl rfl⟩

theorem Touches.numbered (touches : Touches print s s') (numbered : s.Numbered) :
    s'.Numbered ∧ s.NumbersGrow s' := by
  induction touches with
  | refl => exact ⟨numbered, .refl s⟩
  | tail _ touch ih =>
    obtain ⟨before, grown⟩ := ih
    obtain ⟨after, more⟩ := touch.numbered before
    exact ⟨after, grown.trans more⟩

end Touch

/-- Every repository of `core'` is new, or its numbers go back to those it had in `core`, under
    the slug it had there. -/
structure NumbersFrom (core core' : ForgeCore) : Prop where
  uuids : core.uuids ≤ core'.uuids
  numbers : ∀ slug' repo', core'.state.repos.lookup slug' = some repo' → repo'.id < core.uuids →
    ∃ slug repo, core.state.repos.lookup slug = some repo ∧ repo.id = repo'.id ∧
      core.state.lastNumber slug ≤ core'.state.lastNumber slug' ∧
      ∀ n issue', core'.state.issues.lookup (slug'.1, slug'.2, n) = some issue' →
        n ≤ core.state.lastNumber slug →
        ∃ issue, core.state.issues.lookup (slug.1, slug.2, n) = some issue ∧ issue.id = issue'.id

section Shift

variable {print : Footprint} {s s' : State} {call : Call} {core core' : ForgeCore}

theorem State.lastNumber_congr {slug slug' : Slug}
    (same : s'.counters.lookup slug' = s.counters.lookup slug) :
    s'.lastNumber slug' = s.lastNumber slug := by
  unfold State.lastNumber
  rw [same]

theorem every_vacant {κ ν : Type} [DecidableEq κ] {m : HashMap κ ν} {slugOf : κ → Slug} {slug : Slug}
    (every : m.Every fun key _ => s.Live (slugOf key)) (free : s.repos.lookup slug = none) :
    ∀ key, slugOf key = slug → m.lookup key = none := by
  rintro key rfl
  cases found : m.lookup key with
  | none => rfl
  | some value =>
    obtain ⟨repo, live⟩ := every _ _ found
    cases free.symm.trans live

/-- A repository that was there has the counter and the issues it had. -/
def State.KeepsNumbers (s s' : State) (drawn : Uuid → Prop) : Prop :=
  ∀ slug' repo', s'.repos.lookup slug' = some repo' → ¬drawn repo'.id →
    ∃ slug repo, s.repos.lookup slug = some repo ∧ repo.id = repo'.id ∧
      s'.lastNumber slug' = s.lastNumber slug ∧
      ∀ n, ∃ update : Issue → Issue, (∀ issue, (update issue).id = issue.id) ∧
        s'.issues.lookup (slug'.1, slug'.2, n) =
          (s.issues.lookup (slug.1, slug.2, n)).map update

theorem numbered_created {repo : Repository} (rooted : s.Rooted) (numbered : s.Numbered)
    (free : s.repos.lookup repo.slug = none) (drawn : print.drawn repo.id) :
    ({ s with
      counters := s.counters.insert repo.slug ⟨0, 0⟩
      repos := s.repos.insert repo.slug repo } : State).Numbered ∧
    s.KeepsNumbers { s with
      counters := s.counters.insert repo.slug ⟨0, 0⟩
      repos := s.repos.insert repo.slug repo } print.drawn := by
  have elsewhere (slug : Slug) (other : slug ≠ repo.slug) :
      (s.counters.insert repo.slug ⟨0, 0⟩).lookup slug = s.counters.lookup slug := by
    rw [lookup_insert_if, if_neg other]
  constructor
  · refine ⟨fun key issue found => ?_, numbered.backed⟩
    have other : Scoped.slug key ≠ repo.slug := by
      intro here
      have none := every_vacant rooted.issues free key here
      cases none.symm.trans found
    have below := numbered.counted _ _ found
    exact Nat.le_trans below (Nat.le_of_eq (State.lastNumber_congr (elsewhere _ other)).symm)
  · intro slug' repo' found old
    replace found : (s.repos.insert repo.slug repo).lookup slug' = some repo' := found
    rw [lookup_insert_if] at found
    split at found
    · cases found
      exact absurd drawn old
    · next other =>
      refine ⟨slug', repo', found, rfl, State.lastNumber_congr (elsewhere _ other), fun n => ?_⟩
      exact ⟨id, fun _ => rfl, by simp⟩

theorem numbered_deleted {slug : Slug} (numbered : s.Numbered) (id : Uuid) :
    (s.withoutRepository slug.1 slug.2 id).Numbered ∧
    s.KeepsNumbers (s.withoutRepository slug.1 slug.2 id) print.drawn := by
  have elsewhere (other : Slug) (away : other ≠ slug) :
      (s.counters.erase slug).lookup other = s.counters.lookup other := by
    rw [lookup_erase_if, if_neg away]
  have issues := lookup_drainScoped s.issues slug
  refine ⟨⟨?_, ?_⟩, ?_⟩
  · intro key issue known
    replace known := (issues key).symm.trans known
    split at known
    · cases known
    · next away =>
      have below := numbered.counted _ _ known
      exact Nat.le_trans below (Nat.le_of_eq (State.lastNumber_congr (elsewhere _ away)).symm)
  · intro key pr known
    replace known := (lookup_drainScoped s.pulls slug key).symm.trans known
    split at known
    · cases known
    · next away =>
      obtain ⟨issue, backing, marked⟩ := numbered.backed _ _ known
      exact ⟨issue, (issues key).trans ((if_neg away).trans backing), marked⟩
  · intro slug' repo' known _
    replace known : (s.repos.erase slug).lookup slug' = some repo' := known
    rw [lookup_erase_if] at known
    split at known
    · cases known
    · next away =>
      refine ⟨slug', repo', known, rfl, State.lastNumber_congr (elsewhere _ away), fun n => ?_⟩
      have kept := (issues (slug'.1, slug'.2, n)).trans (if_neg away)
      exact ⟨fun issue => issue, fun _ => rfl, kept.trans (by simp)⟩

theorem numbered_relocated {old new : Slug} {repo : Repository} (rooted : s.Rooted)
    (numbered : s.Numbered) (found : s.repos.lookup old = some repo)
    (free : s.repos.lookup new = none) (now : DateTime) :
    (s.rekeyed old new (movedRepository new now repo)).Numbered ∧
    s.KeepsNumbers (s.rekeyed old new (movedRepository new now repo)) print.drawn := by
  have different : new ≠ old := ne_of_lookup found free
  have counters := @rekeyPairs_movedTo _ old new id s.counters different
    (every_vacant rooted.counters free)
  have issues := @rekeyTriples_movedTo _ _ _ old new
    (fun issue : Issue => { issue with owner := new.1, repo := new.2 }) s.issues different
    (every_vacant rooted.issues free)
  have pulls := @rekeyTriples_movedTo _ _ _ old new (movedPull old new) s.pulls different
    (every_vacant rooted.pulls free)
  have atNew : (s.rekeyed old new (movedRepository new now repo)).lastNumber new =
      s.lastNumber old := by
    refine State.lastNumber_congr ((counters new).trans ((if_pos rfl).trans ?_))
    simp
  have elsewhere (slug : Slug) (notNew : slug ≠ new) (notOld : slug ≠ old) :
      (s.rekeyed old new (movedRepository new now repo)).lastNumber slug = s.lastNumber slug :=
    State.lastNumber_congr ((counters slug).trans ((if_neg notNew).trans (if_neg notOld)))
  refine ⟨⟨?_, ?_⟩, ?_⟩
  · intro key issue known
    replace known := (issues key).symm.trans known
    show key.2.2 ≤ (s.rekeyed old new (movedRepository new now repo)).lastNumber (Scoped.slug key)
    split at known
    · next here =>
      obtain ⟨stored, was, -⟩ := Option.map_eq_some_iff.mp known
      rw [here, atNew]
      exact numbered.counted _ _ was
    · next notNew =>
      split at known
      · cases known
      · next notOld =>
        rw [elsewhere _ notNew notOld]
        exact numbered.counted _ _ known
  · intro key pr known
    replace known := (pulls key).symm.trans known
    split at known
    · next here =>
      obtain ⟨stored, was, -⟩ := Option.map_eq_some_iff.mp known
      obtain ⟨issue, backing, marked⟩ := numbered.backed _ _ was
      refine ⟨{ issue with owner := new.1, repo := new.2 }, (issues key).trans ?_, marked⟩
      rw [if_pos here, backing]
      rfl
    · next notNew =>
      split at known
      · cases known
      · next notOld =>
        obtain ⟨issue, backing, marked⟩ := numbered.backed _ _ known
        refine ⟨issue, (issues key).trans ?_, marked⟩
        rw [if_neg notNew, if_neg notOld, backing]
  · intro slug' repo' known _
    replace known : ((s.repos.erase old).insert new (movedRepository new now repo)).lookup slug' =
      some repo' := known
    rw [lookup_insert_if, lookup_erase_if] at known
    split at known
    · next here =>
      cases known
      subst here
      refine ⟨old, repo, found, rfl, atNew, fun n => ?_⟩
      refine ⟨fun issue => { issue with owner := slug'.1, repo := slug'.2 }, fun _ => rfl, ?_⟩
      exact (issues (slug'.1, slug'.2, n)).trans (if_pos rfl)
    · next notNew =>
      split at known
      · cases known
      · next notOld =>
        refine ⟨slug', repo', known, rfl, elsewhere _ notNew notOld, fun n => ?_⟩
        have kept := (issues (slug'.1, slug'.2, n)).trans ((if_neg notNew).trans (if_neg notOld))
        exact ⟨fun issue => issue, fun _ => rfl, kept.trans (by simp)⟩

theorem Shift.numbered (shift : Shift print s s') (rooted : s.Rooted) (numbered : s.Numbered) :
    s'.Numbered ∧ s.KeepsNumbers s' print.drawn := by
  cases shift with
  | created repo now free drawn named =>
    rw [State.ensureDefaultBranchProtection_eq]
    obtain ⟨kept, follows⟩ := numbered_created rooted numbered free drawn
    exact ⟨kept.same rfl rfl rfl, follows⟩
  | deleted found => exact numbered_deleted numbered _
  | relocated found free now redirected =>
    obtain ⟨kept, follows⟩ := numbered_relocated rooted numbered found free now
    exact ⟨kept.same rfl rfl rfl, follows⟩

end Shift

section Runs

variable {call : Call} {core core' : ForgeCore} {pool pool' : Pool}

theorem NumbersFrom.refl (core : ForgeCore) : NumbersFrom core core :=
  ⟨Nat.le_refl _, fun slug repo found _ =>
    ⟨slug, repo, found, rfl, Nat.le_refl _, fun _ issue known _ => ⟨issue, known, rfl⟩⟩⟩

theorem NumbersFrom.trans {last : ForgeCore} (earlier : NumbersFrom core core')
    (later : NumbersFrom core' last) : NumbersFrom core last := by
  refine ⟨earlier.uuids.trans later.uuids, fun slug'' repo'' found'' old => ?_⟩
  obtain ⟨slug', repo', found', same', grown', issues'⟩ :=
    later.numbers slug'' repo'' found'' (Nat.lt_of_lt_of_le old earlier.uuids)
  obtain ⟨slug, repo, found, same, grown, issues⟩ :=
    earlier.numbers slug' repo' found' (same' ▸ old)
  refine ⟨slug, repo, found, same.trans same', grown.trans grown', fun n issue'' known within => ?_⟩
  obtain ⟨issue', known', own'⟩ := issues' n issue'' known (within.trans grown)
  obtain ⟨issue, known, own⟩ := issues n issue' known' within
  exact ⟨issue, known, own.trans own'⟩

/-- The repositories stay where they are, and their numbers grow. -/
theorem NumbersFrom.of_grow (uuids : core.uuids ≤ core'.uuids)
    (same : core'.state.registry = core.state.registry)
    (grown : core.state.NumbersGrow core'.state) : NumbersFrom core core' := by
  refine ⟨uuids, fun slug repo' found _ => ?_⟩
  have held : core.state.registry.held slug = some repo'.id := by
    rw [← same]
    exact State.registry_held.mpr ⟨repo', found, rfl⟩
  obtain ⟨repo, known, own⟩ := State.registry_held.mp held
  exact ⟨slug, repo, known, own, grown.counters slug, grown.issues slug⟩

theorem Ambient.numbered (ambient : Ambient core core') (numbered : core.state.Numbered) :
    core'.state.Numbered ∧ NumbersFrom core core' := by
  have registry := ambient.registry
  obtain ⟨users, accounts, bots, botRepoGrants, organizations, auth, same⟩ := ambient.state
  refine ⟨?_, .of_grow ambient.uuids registry ?_⟩ <;> rw [same]
  · exact numbered.same rfl rfl rfl
  · exact .same rfl rfl

theorem Effect.numbered (effect : Effect call core core') (rooted : core.state.Rooted)
    (numbered : core.state.Numbered) : core'.state.Numbered ∧ NumbersFrom core core' := by
  cases effect.moves with
  | touches writes =>
    obtain ⟨kept, grown⟩ := Touches.numbered writes numbered
    exact ⟨kept, .of_grow effect.uuids (Touches.registry writes) grown⟩
  | shift may moved =>
    obtain ⟨kept, follows⟩ := moved.numbered rooted numbered
    refine ⟨kept, effect.uuids, fun slug' repo' found old => ?_⟩
    have known : ¬(call.footprint core.state core.uuids core'.uuids).drawn repo'.id :=
      fun drawn => absurd drawn.1 (Nat.not_le.mpr old)
    obtain ⟨slug, repo, was, same, last, issues⟩ := follows slug' repo' found known
    refine ⟨slug, repo, was, same, Nat.le_of_eq last.symm, fun n issue' stored _ => ?_⟩
    obtain ⟨update, identity, moved⟩ := issues n
    obtain ⟨issue, before, rfl⟩ := Option.map_eq_some_iff.mp (moved.symm.trans stored)
    exact ⟨issue, before, (identity issue).symm⟩

theorem Pool.ReachableWhen.numbered (reachable : pool.ReachableWhen Call.FindsLive) :
    pool.shared.state.Numbered := by
  have both : pool.shared.state.Rooted ∧ pool.shared.state.Numbered := by
    refine reachable.invariant (I := fun core => core.state.Rooted ∧ core.state.Numbered)
      (fun core empty => ?_)
      (fun core core' holds moved => ⟨moved.rooted holds.1, (moved.numbered holds.2).1⟩)
      fun call core core' reply coherent holds finds _ effect =>
        ⟨effect.rooted coherent finds holds.1, (effect.numbered holds.1 holds.2).1⟩
    rw [empty]
    exact ⟨rooted_empty, numbered_empty⟩
  exact both.2

theorem Pool.ReachableWhen.numbersFrom (reachable : pool.ReachableWhen Call.FindsLive)
    (run : Run forge (Guarded Call.FindsLive) pool pool') :
    NumbersFrom pool.shared pool'.shared := by
  induction run with
  | refl => exact .refl _
  | @tail mid last before step ih =>
    have here := reachable.run before
    refine ih.trans ?_
    rcases step_cases step with moved | ⟨i, call, reply, writes, -⟩
    · exact (moved.numbered here.numbered).2
    · exact ((here.effect writes).numbered here.rooted here.numbered).2

end Runs

/-- The section answers the number it took for a new issue or pull request of `slug`. -/
def HandsOut (slug : Slug) (number : Nat) : (call : Call) → Option call.Reply → Prop
  | .createIssue owner repo _ _, reply =>
    slug = (owner, repo) ∧ ∃ issue : Issue, reply = some (.ok issue) ∧ issue.number = number
  | .createPullRequest owner repo _ _, reply =>
    slug = (owner, repo) ∧ ∃ pr : PullRequest, reply = some (.ok pr) ∧ pr.number = number
  | _, _ => False

/-- Every repo-scoped record belongs to a repository, and the numbers of a repository are each
    handed out once. -/
structure RecordsRooted (condition : Call → ForgeCore → Prop) (pool : Pool) : Prop where
  live : pool.shared.state.RootedIn fun slug =>
    ∃ repo, pool.shared.state.repos.lookup slug = some repo
  backed : pool.shared.state.pulls.Every fun key pr => pr.number = key.2.2 ∧
    ∃ issue, pool.shared.state.issues.lookup key = some issue ∧ issue.number = key.2.2 ∧
      issue.pullRequest.isSome = true
  /-- What is handed out later for the same repository, wherever it is, is a later number. -/
  once : ∀ (i : Nat) (call : Call) (reply : Option call.Reply) (pool' : Pool) slug repo number,
    pool.Writes i call reply pool' → condition call pool.shared →
    pool.shared.state.repos.lookup slug = some repo → HandsOut slug number call reply →
    ∀ later : Pool, Run forge (Guarded condition) pool' later →
      ∀ (j : Nat) (call' : Call) (reply' : Option call'.Reply) (last : Pool) slug' repo' number',
        later.Writes j call' reply' last → later.shared.state.repos.lookup slug' = some repo' →
        repo'.id = repo.id → HandsOut slug' number' call' reply' → number < number'
  /-- A number names one issue for as long as the repository exists. -/
  names : ∀ later : Pool, Run forge (Guarded condition) pool later →
    ∀ slug repo slug' repo' n issue issue', pool.shared.state.repos.lookup slug = some repo →
      later.shared.state.repos.lookup slug' = some repo' → repo'.id = repo.id →
      pool.shared.state.issues.lookup (slug.1, slug.2, n) = some issue →
      later.shared.state.issues.lookup (slug'.1, slug'.2, n) = some issue' → issue'.id = issue.id

section Once

variable {call : Call} {core core' : ForgeCore} {pool : Pool} {owner repo author : String}

theorem createIssueLocked_number {request : CreateIssueRequest} {issue : Issue}
    (answered : (createIssueLocked owner repo author request core).answers core = .ok issue) :
    issue.number = core.state.lastNumber (owner, repo) + 1 ∧
      ((createIssueLocked owner repo author request core).leaves core).state.lastNumber
        (owner, repo) = issue.number := by
  simp only [createIssueLocked, Outcome.answers, Outcome.leaves, Outcome.settle] at answered ⊢
  split at answered
  · next persisted =>
    cases answered
    refine ⟨rfl, (State.lastNumber_insert core.state (owner, repo) (owner, repo) _).trans ?_⟩
    exact if_pos rfl
  · cases answered

theorem createPullLocked_number {request : CreatePullRequestRequest} {pr : PullRequest}
    (answered : (createPullLocked owner repo author request core).answers core = .ok pr) :
    pr.number = core.state.lastNumber (owner, repo) + 1 ∧
      ((createPullLocked owner repo author request core).leaves core).state.lastNumber
        (owner, repo) = pr.number := by
  simp only [createPullLocked, Outcome.answers, Outcome.leaves, Outcome.settle] at answered ⊢
  split at answered
  · next persisted =>
    cases answered
    obtain ⟨-, number, -⟩ := applyEvaluation_key (openedPull owner repo author
      (core.state.nextRecordNumber owner repo).1 (core.uuids + 1) core.now request)
      ((core.state.nextRecordNumber owner repo).2.evaluateLocked core.auditMergeEnforced
        (openedPull owner repo author (core.state.nextRecordNumber owner repo).1 (core.uuids + 1)
          core.now request) none)
    refine ⟨number, (State.lastNumber_insert core.state (owner, repo) (owner, repo) _).trans ?_⟩
    exact (if_pos rfl).trans number.symm
  · cases answered

/-- The number handed out is the one after the last. -/
theorem Section.handsOut {reply : Option call.Reply} {slug : Slug} {number : Nat}
    (sect : Section call core core' reply) (hands : HandsOut slug number call reply) :
    ¬call.Shifts ∧ number = core.state.lastNumber slug + 1 ∧ core'.state.lastNumber slug = number := by
  cases call with
  | createIssue owner repo author request =>
    obtain ⟨rfl, issue, answered, rfl⟩ := hands
    refine ⟨id, ?_⟩
    cases sect with
    | audit entry audited => cases audited
    | refused audited => cases audited
    | profile profiled request unfinished => exact absurd answered (unfinished issue)
    | createIssue => exact createIssueLocked_number (Option.some.inj answered)
  | createPullRequest owner repo author request =>
    obtain ⟨rfl, pr, answered, rfl⟩ := hands
    refine ⟨id, ?_⟩
    cases sect with
    | audit entry audited => cases audited
    | refused audited => cases audited
    | profile profiled request unfinished => exact absurd answered (unfinished pr)
    | createPullRequest => exact createPullLocked_number (Option.some.inj answered)
  | _ => exact hands.elim

end Once

theorem records_rooted {pool : Pool} (reachable : pool.ReachableWhen Call.FindsLive) :
    RecordsRooted Call.FindsLive pool where
  live := reachable.rooted
  backed key pr found := by
    have keyed := reachable.coherent.keyed
    obtain ⟨issue, backing, marked⟩ := reachable.numbered.backed key pr found
    have own := (keyed.pulls _ _ found).1
    have backingOwn := keyed.issues _ _ backing
    exact ⟨congrArg (fun key : Scoped Nat => key.2.2) own, issue, backing,
      congrArg (fun key : Scoped Nat => key.2.2) backingOwn, marked⟩
  once i call reply pool' slug repo number writes finds found hands later run j call' reply' last slug'
      repo' number' writes' found' same hands' := by
    have step : Step forge (Guarded Call.FindsLive) pool pool' := by
      obtain ⟨update, next, running, rfl, -⟩ := writes
      exact .write running (.inr finds)
    have between := reachable.run (.single step)
    have effect := reachable.effect writes
    obtain ⟨still, -, counter⟩ := (reachable.writes writes).handsOut hands
    obtain ⟨-, next, -⟩ := ((between.run run).writes writes').handsOut hands'
    -- The repository is still where it was when the number was handed out.
    have registry : pool'.shared.state.registry = pool.shared.state.registry := by
      cases effect.moves with
      | touches writes => exact Touches.registry writes
      | shift may => exact absurd may still
    have held : pool'.shared.state.registry.held slug = some repo.id := by
      rw [registry]
      exact State.registry_held.mpr ⟨repo, found, rfl⟩
    obtain ⟨stored, there, own⟩ := State.registry_held.mp held
    have old : repo'.id < pool'.shared.uuids := by
      rw [same, ← own]
      exact between.coherent.identified.repoIds _ _ there
    obtain ⟨slug₀, repo₀, found₀, same₀, grown, -⟩ :=
      (between.numbersFrom run).numbers slug' repo' found' old
    obtain rfl := between.coherent.identified.repos slug₀ slug repo₀ stored repo.id found₀ there
      (same₀.trans same) own
    omega
  names later run slug repo slug' repo' n issue issue' found found' same known known' := by
    have identified := reachable.coherent.identified
    have old : repo'.id < pool.shared.uuids := same ▸ identified.repoIds _ _ found
    obtain ⟨slug₀, repo₀, found₀, same₀, -, issues⟩ :=
      (reachable.numbersFrom run).numbers slug' repo' found' old
    obtain rfl := identified.repos slug₀ slug repo₀ repo repo.id found₀ found (same₀.trans same) rfl
    have within : n ≤ pool.shared.state.lastNumber slug₀ := reachable.numbered.counted _ _ known
    obtain ⟨before, stored, own⟩ := issues n issue' known' within
    cases stored.symm.trans known
    exact own.symm

/-- With a store attached every section meets the condition. -/
theorem stored_findsLive {core : ForgeCore} {turns : List (Turn Call)} (empty : core.state = .empty)
    (plain : turns.all fun turn => !spends turn) (attached : core.storage.isSome = true) :
    (core.played turns).ReachableWhen Call.FindsLive := by
  have start : Pool.Reachable ⟨core, []⟩ := ⟨⟨core, []⟩, ⟨empty, rfl⟩, .refl⟩
  have run : Run forge (Guarded anyCall) ⟨core, []⟩ (core.played turns) :=
    play_run (plays_of_plain plain fun _ _ => True.intro)
  have stays {mid : Pool} (before : Run forge (Guarded anyCall) ⟨core, []⟩ mid) :
      mid.shared.storage.isSome = core.storage.isSome :=
    start.along (T := fun core core' => core'.storage.isSome = core.storage.isSome) before
      (fun _ => rfl) (fun _ _ _ first second => second.trans first) (fun _ _ moved => moved.storage)
      fun _ _ _ _ _ _ _ effect => effect.storage
  refine ⟨⟨core, []⟩, ⟨empty, rfl⟩, ?_⟩
  generalize core.played turns = pool at run ⊢
  induction run with
  | refl => exact .refl
  | @tail mid last before step ih =>
    refine ih.tail ?_
    have kept : mid.shared.storage.isSome = true := (stays before).trans attached
    cases step with
    | enter admitted => exact .enter admitted
    | read running => exact .read running
    | write running => exact .write running (.inr fun _ => .inl kept)
    | ambient moved => exact .ambient moved

section Demo

/-- A pull request opened under the new name of the demo repository, then one under the old. -/
def pullUnder (name : String) : List (Turn Call) :=
  [.alone .newDemo, .alone (.renameRepository "root" "acme" "demo" "acme" "demo2"),
    .alone (.createPullRequest "acme" name "alice"
      { title := "Add a parser", body := none, head := "feature", base := "main"
        headSha := some Call.demoHead, baseSha := some Call.demoBase, sourceRepository := none
        draft := false, commits := [], changedFiles := ["src/parser.rs"] })]

theorem records_rooted_demo :
    RecordsRooted Call.FindsLive (ForgeCore.durable.played (pullUnder "demo2")) :=
  records_rooted (stored_findsLive rfl (by decide) rfl)

/-- `ensure_repository_writable` follows the alias, the write section does not. -/
theorem not_records_rooted : ¬∀ pool : Pool, pool.Reachable → RecordsRooted anyCall pool := by
  intro rooted
  have reachable : (ForgeCore.inMemory.played (pullUnder "demo")).Reachable :=
    played_any rfl (by decide)
  have orphan : ((ForgeCore.inMemory.played (pullUnder "demo")).shared.state.pulls.lookup
      ("acme", "demo", 1)).isSome = true := by decide +kernel
  have gone : (ForgeCore.inMemory.played (pullUnder "demo")).shared.state.repos.lookup
      ("acme", "demo") = none := by decide +kernel
  obtain ⟨pr, found⟩ := Option.isSome_iff_exists.mp orphan
  obtain ⟨repo, live⟩ := (rooted _ reachable).live.pulls _ pr found
  cases gone.symm.trans live

end Demo

end Jeryu.Core
