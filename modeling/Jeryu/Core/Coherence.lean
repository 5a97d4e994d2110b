import Jeryu.Core.PullHistory

namespace Jeryu.Core

open KeyedMap HashMap

/-- Every record sits under its own key, and no bucket is empty. -/
structure State.WellKeyed (s : State) : Prop where
  repos : s.repos.Every fun slug repo => repo.slug = slug ∧ repo.fullName = slugText slug
  repoGrants : s.repoGrants.Every fun key grant => grant.key = key
  issues : s.issues.Every fun key issue => issue.key = key
  issueComments : s.issueComments.Every fun key rows => ∀ row ∈ rows, row.key = key
  pulls : s.pulls.Every fun key pr => pr.key = key ∧ pr.issueNumber = pr.number
  reviews : s.reviews.Every fun key rows => rows ≠ [] ∧ ∀ row ∈ rows, row.key = key
  reviewComments : s.reviewComments.Every fun key rows => ∀ row ∈ rows, row.key = key
  branchProtections : s.branchProtections.Every fun key rule => rule.key = key
  statuses : s.statuses.Every fun key rows => rows ≠ [] ∧ ∀ row ∈ rows, row.key = key
  checkRuns : s.checkRuns.Every fun slug rows => rows ≠ [] ∧ ∀ row ∈ rows, row.slug = slug
  webhooks : s.webhooks.Every fun slug rows => rows ≠ [] ∧ ∀ row ∈ rows, row.slug = slug
  jankuraiScores : s.jankuraiScores.Every fun slug rows =>
    rows ≠ [] ∧ ∀ row ∈ rows, row.slug = slug

theorem wellKeyed_empty : State.empty.WellKeyed := by
  constructor <;> exact every_empty

/-- A bucket that was under its key, and one more record of the same key. -/
theorem every_push {κ ν : Type} [DecidableEq κ] {m : HashMap κ (List ν)} {keyOf : ν → κ} {value : ν}
    (every : m.Every fun key rows => rows ≠ [] ∧ ∀ row ∈ rows, keyOf row = key) :
    (m.push (keyOf value) value).Every fun key rows =>
      rows ≠ [] ∧ ∀ row ∈ rows, keyOf row = key := by
  refine every.push fun bucket old => ⟨by simp, fun row member => ?_⟩
  rcases List.mem_append.mp member with member | member
  · rcases old with found | rfl
    · exact (every _ _ found).2 row member
    · cases member
  · rw [List.mem_singleton.mp member]

theorem every_append {κ ν : Type} [DecidableEq κ] {m : HashMap κ (List ν)} {keyOf : ν → κ} {key : κ}
    {rows : List ν} (every : m.Every fun key rows => ∀ row ∈ rows, keyOf row = key)
    (own : ∀ row ∈ rows, keyOf row = key) :
    (m.insert key ((m.lookup key).getD [] ++ rows)).Every fun key rows =>
      ∀ row ∈ rows, keyOf row = key := by
  refine every.insert fun row member => ?_
  rcases List.mem_append.mp member with member | member
  · cases found : m.lookup key with
    | none => simp [found] at member
    | some bucket => exact every _ _ found row (by simpa [found] using member)
  · exact own row member

theorem every_ensureDefaultBranchProtection {s : State} {repo : Repository} {now : DateTime}
    (every : s.branchProtections.Every fun key rule => rule.key = key) :
    (s.ensureDefaultBranchProtection repo now).branchProtections.Every
      fun key rule => rule.key = key := by
  intro key rule found
  rcases State.lookup_ensureDefaultBranchProtection found with stored | ⟨rfl, -, rfl⟩
  · exact every _ _ stored
  · rfl

theorem every_withOptOut {s : State} {owner repo : String} {updated : Repository} {now : DateTime}
    (every : s.branchProtections.Every fun key rule => rule.key = key) :
    (s.withOptOut owner repo updated now).branchProtections.Every
      fun key rule => rule.key = key := by
  intro key rule found
  rcases State.lookup_withOptOut found with stored | ⟨rfl, rfl⟩
  · exact every _ _ stored
  · rfl

section WellKeyed

variable {print : Footprint} {s s' : State}

theorem Touch.wellKeyed (touch : Touch print s s') (keyed : s.WellKeyed) : s'.WellKeyed := by
  cases touch with
  | people users accounts bots botRepoGrants organizations auth => exact { keyed with }
  | granted grant => exact { keyed with repoGrants := keyed.repoGrants.insert rfl }
  | revoked key => exact { keyed with repoGrants := keyed.repoGrants.erase key }
  | repositoryEdited found =>
    have stored := keyed.repos _ _ found
    exact { keyed with repos := keyed.repos.insert stored }
  | @defaultBranchSet slug entry updated found within branch now edited =>
    rw [State.ensureDefaultBranchProtection_eq]
    subst edited
    have stored := keyed.repos _ _ found
    exact { keyed with
      repos := keyed.repos.insert stored
      branchProtections := every_ensureDefaultBranchProtection keyed.branchProtections }
  | @optOutSet slug entry updated found within optOut now edited =>
    rw [State.withOptOut_eq]
    subst edited
    have stored := keyed.repos _ _ found
    exact { keyed with
      repos := keyed.repos.insert stored
      branchProtections := every_withOptOut keyed.branchProtections }
  | ruleSet rule => exact { keyed with branchProtections := keyed.branchProtections.insert rfl }
  | ruleRemoved branch =>
    exact { keyed with branchProtections := keyed.branchProtections.erase _ }
  | @ruleRekeyed slug branch rule repository within found =>
    have stored := keyed.branchProtections _ _ found
    refine { keyed with branchProtections := (keyed.branchProtections.erase _).insert ?_ }
    simp only [BranchProtectionRule.key, Prod.mk.injEq] at stored ⊢
    exact ⟨stored.1, stored.2.1, True.intro⟩
  | labelled => exact { keyed with }
  | codeownersSet => exact { keyed with }
  | readmeSet => exact { keyed with }
  | hooked hook => exact { keyed with webhooks := every_push keyed.webhooks }
  | scored slug scores may within kept own =>
    refine { keyed with jankuraiScores := keyed.jankuraiScores.insert ⟨kept, fun row member => ?_⟩ }
    rcases own row member with here | stored
    · exact here
    · cases found : s.jankuraiScores.lookup slug with
      | none => simp [found] at stored
      | some rows => exact (keyed.jankuraiScores _ _ found).2 row (by simpa [found] using stored)
  | @issueOpened numbered issue may within next =>
    have counted : numbered = (s.nextRecordNumber issue.owner issue.repo).2 := by rw [next]
    subst counted
    exact { keyed with issues := keyed.issues.insert rfl }
  | issueEdited found within same =>
    exact { keyed with issues := keyed.issues.insert (same.trans (keyed.issues _ _ found)) }
  | commented comment =>
    exact { keyed with
      issueComments := every_append keyed.issueComments (by simp) }
  | pullOpened pr own _ _ _ _ _ _ issueNumber =>
    exact { keyed with pulls := keyed.pulls.insert ⟨own, issueNumber⟩ }
  | @pullEdited key pr edited found within follows evaluation =>
    obtain ⟨sameKey, number, issueNumber, -⟩ := applyEvaluation_key edited evaluation
    obtain ⟨stored, own⟩ := keyed.pulls _ _ found
    refine { keyed with pulls := keyed.pulls.insert ⟨?_, ?_⟩ }
    · rw [sameKey, follows.key, stored]
    · rw [issueNumber, number, follows.issueNumber, follows.number, own]
  | @pullUpdated key pr request found within asked now evaluation =>
    obtain ⟨sameKey, number, issueNumber, -⟩ := applyEvaluation_key (request.apply pr now) evaluation
    obtain ⟨sameKey', number', issueNumber', -⟩ := request.apply_key pr now
    obtain ⟨stored, own⟩ := keyed.pulls _ _ found
    refine { keyed with pulls := keyed.pulls.insert ⟨?_, ?_⟩ }
    · rw [sameKey, sameKey', stored]
    · rw [issueNumber, number, issueNumber', number', own]
  | pullMerged found =>
    have stored := keyed.pulls _ _ found
    exact { keyed with pulls := keyed.pulls.insert stored }
  | reviewed review => exact { keyed with reviews := every_push keyed.reviews }
  | reviewCommented comments found within own =>
    exact { keyed with reviewComments := every_append keyed.reviewComments own }
  | statusPushed status => exact { keyed with statuses := every_push keyed.statuses }
  | checkRunPushed run => exact { keyed with checkRuns := every_push keyed.checkRuns }
  | emitted => exact { keyed with }
  | journalled => exact { keyed with }
  | deployed => exact { keyed with }

theorem Touches.wellKeyed (touches : Touches print s s') (keyed : s.WellKeyed) : s'.WellKeyed := by
  induction touches with
  | refl => exact keyed
  | tail _ touch ih => exact touch.wellKeyed ih

/-- A bucket moved with its rows, each of them under the new key. -/
theorem every_moved {κ ν : Type} {keyOf : ν → κ} {key key' : κ} {update : ν → ν} {rows : List ν}
    (own : ∀ row ∈ rows, keyOf row = key)
    (moved : ∀ row, keyOf row = key → keyOf (update row) = key') :
    ∀ row ∈ rows.map update, keyOf row = key' := by
  intro row member
  obtain ⟨old, stored, rfl⟩ := List.mem_map.mp member
  exact moved old (own old stored)

theorem State.WellKeyed.rekeyed {old new : Slug} {repo : Repository} (keyed : s.WellKeyed)
    (different : new ≠ old) (own : repo.slug = new ∧ repo.fullName = slugText new) :
    (s.rekeyed old new repo).WellKeyed := by
  refine {
    repos := (keyed.repos.erase old).insert own
    repoGrants := ?_
    issues := every_rekeyTriples different keyed.issues ?_
    issueComments := every_rekeyTriples different keyed.issueComments ?_
    pulls := every_rekeyTriples different keyed.pulls ?_
    reviews := every_rekeyTriples different keyed.reviews ?_
    reviewComments := every_rekeyTriples different keyed.reviewComments ?_
    branchProtections := every_rekeyTriples different keyed.branchProtections ?_
    statuses := every_rekeyTriples different keyed.statuses ?_
    checkRuns := every_rekeyPairs different keyed.checkRuns ?_
    webhooks := every_rekeyPairs different keyed.webhooks ?_
    jankuraiScores := every_rekeyPairs different keyed.jankuraiScores ?_ }
  · refine keyed.repoGrants.moveAll ((rekeyGrants_range _ old new).apart different)
      fun key member grant stored => ?_
    subst stored
    rfl
  · rintro key issue rfl
    rfl
  · exact fun key rows own => every_moved own fun row same => by subst same; rfl
  · rintro key pr ⟨rfl, issueNumber⟩
    exact ⟨rfl, issueNumber⟩
  · rintro key rows ⟨filled, own⟩
    exact ⟨by simpa using filled, every_moved own fun row same => by subst same; rfl⟩
  · exact fun key rows own => every_moved own fun row same => by subst same; rfl
  · rintro key rule rfl
    rfl
  · rintro key rows ⟨filled, own⟩
    exact ⟨by simpa using filled, every_moved own fun row same => by subst same; rfl⟩
  all_goals
    rintro rows ⟨filled, own⟩
    exact ⟨by simpa using filled, every_moved own fun row same => rfl⟩

theorem State.WellKeyed.withoutRepository (keyed : s.WellKeyed) (owner repo : String) (id : Uuid) :
    (s.withoutRepository owner repo id).WellKeyed where
  repos := keyed.repos.erase _
  repoGrants := keyed.repoGrants.removeAll _
  issues := keyed.issues.removeAll _
  issueComments := keyed.issueComments.removeAll _
  pulls := keyed.pulls.removeAll _
  reviews := keyed.reviews.removeAll _
  reviewComments := keyed.reviewComments.removeAll _
  branchProtections := keyed.branchProtections.removeAll _
  statuses := keyed.statuses.removeAll _
  checkRuns := keyed.checkRuns.erase _
  webhooks := keyed.webhooks.erase _
  jankuraiScores := keyed.jankuraiScores.erase _

theorem Shift.wellKeyed (shift : Shift print s s') (keyed : s.WellKeyed) : s'.WellKeyed := by
  cases shift with
  | created repo now free drawn named =>
    rw [State.ensureDefaultBranchProtection_eq]
    exact { keyed with
      repos := keyed.repos.insert ⟨rfl, named⟩
      branchProtections := every_ensureDefaultBranchProtection keyed.branchProtections }
  | deleted found => exact keyed.withoutRepository ..
  | @relocated old new repo found free now =>
    have moved : (s.rekeyed old new (movedRepository new now repo)).WellKeyed :=
      keyed.rekeyed (ne_of_lookup found free) ⟨rfl, rfl⟩
    exact { moved with }

theorem Moves.wellKeyed (moves : Moves print s s') (keyed : s.WellKeyed) : s'.WellKeyed := by
  cases moves with
  | touches writes => exact Touches.wellKeyed writes keyed
  | shift may moved => exact moved.wellKeyed keyed

end WellKeyed

/-- No two repositories, pull requests or reviews share an identifier, and none holds one that
    is still to be drawn. -/
structure State.Identified (s : State) (uuids : Nat) : Prop where
  repos : s.repos.Apart fun repo id => repo.id = id
  repoIds : s.repos.Every fun _ repo => repo.id < uuids
  pulls : s.pulls.Apart fun pr id => pr.id = id
  pullIds : s.pulls.Every fun _ pr => pr.id < uuids
  reviews : s.reviews.Apart fun rows id => ∃ row ∈ rows, row.id = id
  reviewIds : s.reviews.Every fun _ rows =>
    (∀ row ∈ rows, row.id < uuids) ∧ (rows.map Review.id).Nodup
  targets : s.reviews.Every fun _ rows =>
    ∀ row ∈ rows, ∀ id, row.dismissedReviewId = some id → id < uuids

theorem identified_empty (uuids : Nat) : State.empty.Identified uuids := by
  constructor <;> first | exact apart_empty | exact every_empty

theorem State.Identified.mono {s : State} {uuids uuids' : Nat} (identified : s.Identified uuids)
    (more : uuids ≤ uuids') : s.Identified uuids' where
  repos := identified.repos
  repoIds := identified.repoIds.mono fun _ _ below => Nat.lt_of_lt_of_le below more
  pulls := identified.pulls
  pullIds := identified.pullIds.mono fun _ _ below => Nat.lt_of_lt_of_le below more
  reviews := identified.reviews
  reviewIds := identified.reviewIds.mono fun _ _ known =>
    ⟨fun row member => Nat.lt_of_lt_of_le (known.1 row member) more, known.2⟩
  targets := identified.targets.mono fun _ _ below row member id aimed =>
    Nat.lt_of_lt_of_le (below row member id aimed) more

section Identified

variable {print : Footprint} {s s' : State} {uuids : Nat}

/-- A pull request rewritten in its place, under its old identifier. -/
theorem State.Identified.editPull (identified : s.Identified uuids) {key : Scoped Nat}
    {pr edited : PullRequest} (found : s.pulls.lookup key = some pr) (same : edited.id = pr.id) :
    ({ s with pulls := s.pulls.insert key edited } : State).Identified uuids :=
  { identified with
    pulls := identified.pulls.insert_edit found fun _ held => same.symm.trans held
    pullIds := identified.pullIds.insert (same ▸ identified.pullIds _ _ found) }

/-- A repository rewritten in its place, under its old identifier. -/
theorem State.Identified.editRepository (identified : s.Identified uuids) {slug : Slug}
    {repo edited : Repository} (found : s.repos.lookup slug = some repo) (same : edited.id = repo.id) :
    ({ s with repos := s.repos.insert slug edited } : State).Identified uuids :=
  { identified with
    repos := identified.repos.insert_edit found fun _ held => same.symm.trans held
    repoIds := identified.repoIds.insert (same ▸ identified.repoIds _ _ found) }

theorem State.Identified.pushReview (identified : s.Identified uuids) (review : Review)
    (below : review.id < uuids)
    (aimed : ∀ id, review.dismissedReviewId = some id → id < uuids)
    (fresh : ∀ key rows, s.reviews.lookup key = some rows → ∀ row ∈ rows, row.id ≠ review.id) :
    ({ s with reviews := s.reviews.push review.key review } : State).Identified uuids := by
  refine { identified with
    reviews := ?_
    reviewIds := identified.reviewIds.push ?_
    targets := identified.targets.push ?_ }
  · refine identified.reviews.insert fun other stored id different was held held' => ?_
    obtain ⟨row, member, rfl⟩ := held
    obtain ⟨row', member', same⟩ := held'
    rcases List.mem_append.mp member with member | member
    · cases found : s.reviews.lookup review.key with
      | none => simp [found] at member
      | some rows =>
        exact different (identified.reviews other review.key stored rows row.id was found
          ⟨row', member', same⟩ ⟨row, by simpa [found] using member, rfl⟩)
    · rw [List.mem_singleton.mp member] at same
      exact fresh other stored was row' member' same
  · intro rows old
    have known : (∀ row ∈ rows, row.id < uuids) ∧ (rows.map Review.id).Nodup ∧
        ∀ row ∈ rows, row.id ≠ review.id := by
      rcases old with found | rfl
      · obtain ⟨ids, nodup⟩ := identified.reviewIds _ _ found
        exact ⟨ids, nodup, fresh _ _ found⟩
      · simp
    obtain ⟨ids, nodup, new⟩ := known
    refine ⟨fun row member => ?_, ?_⟩
    · rcases List.mem_append.mp member with member | member
      · exact ids row member
      · rw [List.mem_singleton.mp member]
        exact below
    · rw [List.map_append, List.nodup_append]
      refine ⟨nodup, by simp, fun a member b last => ?_⟩
      obtain ⟨row, stored, rfl⟩ := List.mem_map.mp member
      simp only [List.map_cons, List.map_nil, List.mem_singleton] at last
      exact last ▸ new row stored
  · intro rows old row member id target
    rcases List.mem_append.mp member with member | member
    · rcases old with found | rfl
      · exact identified.targets _ _ found row member id target
      · cases member
    · rw [List.mem_singleton.mp member] at target
      exact aimed id target

theorem Touch.identified (touch : Touch print s s') (drawn : ∀ id, print.drawn id → id < uuids)
    (identified : s.Identified uuids) : s'.Identified uuids := by
  cases touch with
  | repositoryEdited found => exact identified.editRepository found rfl
  | @defaultBranchSet slug entry updated found within branch now edited =>
    rw [State.ensureDefaultBranchProtection_eq]
    have stored : ({ s with repos := s.repos.insert slug updated } : State).Identified uuids :=
      identified.editRepository found (by rw [edited])
    exact { stored with }
  | @optOutSet slug entry updated found within optOut now edited =>
    rw [State.withOptOut_eq]
    have stored : ({ s with repos := s.repos.insert slug updated } : State).Identified uuids :=
      identified.editRepository found (by rw [edited])
    exact { stored with }
  | @issueOpened numbered issue may within next =>
    have counted : numbered = (s.nextRecordNumber issue.owner issue.repo).2 := by rw [next]
    subst counted
    exact { identified with }
  | pullOpened pr own may within drew fresh =>
    exact { identified with
      pulls := identified.pulls.insert fun other stored id _ was held held' =>
        fresh other stored was (held'.trans held.symm)
      pullIds := identified.pullIds.insert (drawn _ drew) }
  | @pullEdited key pr edited found within follows evaluation =>
    exact identified.editPull found ((applyEvaluation_key edited evaluation).2.2.2.trans follows.id)
  | @pullUpdated key pr request found within asked now evaluation =>
    exact identified.editPull found ((applyEvaluation_key _ evaluation).2.2.2.trans
      (request.apply_key pr now).2.2.2)
  | pullMerged found => exact identified.editPull found rfl
  | reviewed review found within drew aimed fresh =>
    refine identified.pushReview review (drawn _ drew) (fun id target => ?_) fresh
    obtain ⟨rows, row, stored, member, rfl⟩ := aimed id target
    exact (identified.reviewIds _ _ stored).1 row member
  | _ => exact { identified with }

theorem Touches.identified (touches : Touches print s s')
    (drawn : ∀ id, print.drawn id → id < uuids) (identified : s.Identified uuids) :
    s'.Identified uuids := by
  induction touches with
  | refl => exact identified
  | tail _ touch ih => exact touch.identified drawn ih

theorem Shift.identified (shift : Shift print s s') (drawn : ∀ id, print.drawn id → id < uuids)
    (fresh : ∀ id, print.drawn id → ∀ slug repo, s.repos.lookup slug = some repo → repo.id ≠ id)
    (identified : s.Identified uuids) : s'.Identified uuids := by
  cases shift with
  | created repo now free drew named =>
    rw [State.ensureDefaultBranchProtection_eq]
    exact { identified with
      repos := identified.repos.insert fun other stored id _ was held held' =>
        fresh _ drew other stored was (held'.trans held.symm)
      repoIds := identified.repoIds.insert (drawn _ drew) }
  | deleted found =>
    exact {
      repos := identified.repos.erase _
      repoIds := identified.repoIds.erase _
      pulls := identified.pulls.removeAll _
      pullIds := identified.pullIds.removeAll _
      reviews := identified.reviews.removeAll _
      reviewIds := identified.reviewIds.removeAll _
      targets := identified.targets.removeAll _ }
  | @relocated old new repo found free now =>
    have different : new ≠ old := ne_of_lookup found free
    have below := identified.repoIds _ _ found
    refine {
      repos := ?_
      repoIds := (identified.repoIds.erase old).insert below
      pulls := apart_rekeyTriples different identified.pulls fun _ _ held => held
      pullIds := every_rekeyTriples different identified.pullIds fun _ _ below => below
      reviews := apart_rekeyTriples different identified.reviews ?_
      reviewIds := every_rekeyTriples different identified.reviewIds ?_
      targets := every_rekeyTriples different identified.targets ?_ }
    · refine (identified.repos.erase old).insert fun other stored id elsewhere was held held' => ?_
      rw [lookup_erase_if] at was
      split at was
      · cases was
      · next apart => exact apart (identified.repos _ _ _ _ id was found held' held)
    · rintro rows id ⟨row, member, rfl⟩
      obtain ⟨old, stored, rfl⟩ := List.mem_map.mp member
      exact ⟨old, stored, rfl⟩
    · rintro key rows ⟨below, nodup⟩
      refine ⟨fun row member => ?_, by simpa [Function.comp_def] using nodup⟩
      obtain ⟨old, stored, rfl⟩ := List.mem_map.mp member
      exact below old stored
    · intro key rows below row member id target
      obtain ⟨old, stored, rfl⟩ := List.mem_map.mp member
      exact below old stored id target

end Identified

/-- What every section leaves true of the records. -/
structure State.Coherent (s : State) (uuids : Nat) : Prop where
  keyed : s.WellKeyed
  identified : s.Identified uuids
  recorded : s.pulls.Every fun _ pr => pr.Recorded

theorem coherent_empty (uuids : Nat) : State.empty.Coherent uuids :=
  ⟨wellKeyed_empty, identified_empty uuids, every_empty⟩

theorem State.Coherent.mono {s : State} {uuids uuids' : Nat} (coherent : s.Coherent uuids)
    (more : uuids ≤ uuids') : s.Coherent uuids' :=
  { coherent with identified := coherent.identified.mono more }

section Coherent

variable {print : Footprint} {s s' : State} {uuids : Nat}

/-- `uuids` is what is drawn when the section is over. -/
theorem Moves.coherent (moves : Moves print s s') (coherent : s.Coherent uuids)
    (drawn : ∀ id, print.drawn id → id < uuids)
    (fresh : ∀ id, print.drawn id → ∀ slug repo, s.repos.lookup slug = some repo → repo.id ≠ id) :
    s'.Coherent uuids := by
  refine ⟨moves.wellKeyed coherent.keyed, ?_, ?_⟩
  · cases moves with
    | touches writes => exact Touches.identified writes drawn coherent.identified
    | shift may moved => exact moved.identified drawn fresh coherent.identified
  · exact moves.everyPull coherent.recorded (fun _ opened => opened.recorded)
      fun _ _ step => step.recorded

end Coherent

end Jeryu.Core
