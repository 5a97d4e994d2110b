import Jeryu.Core.Reopen
import Jeryu.Core.History

/-!
Pull requests and reviews stay with their repository, wherever it moves: only dropping the
repository drops them.
-/

namespace Jeryu.Core

open KeyedMap HashMap LockProgram Relation

/-- The same dismissal, whatever the repository is called now. -/
def Review.Same (row row' : Review) : Prop :=
  row'.dismissalAuthority = row.dismissalAuthority ∧ row'.auditDetail = row.auditDetail

/-- Every pull request of `old` is under `new`, edited at most, and every review is there. -/
structure State.CarriesFrom (s s' : State) (print : Footprint) (old new : Slug) : Prop where
  pulls : ∀ n pr, s.pulls.lookup (old.1, old.2, n) = some pr → ∃ pr',
    s'.pulls.lookup (new.1, new.2, n) = some pr' ∧ ReflTransGen (PullStep print.updates) pr pr'
  reviews : ∀ n rows, s.reviews.lookup (old.1, old.2, n) = some rows → ∃ rows',
    s'.reviews.lookup (new.1, new.2, n) = some rows' ∧ ∀ row ∈ rows, ∃ row' ∈ rows', row.Same row'

/-- Every repository that was there has the pull requests and the reviews it had. -/
def State.Carries (s s' : State) (print : Footprint) : Prop :=
  ∀ slug' repo', s'.repos.lookup slug' = some repo' → ¬print.drawn repo'.id →
    ∃ slug repo, s.repos.lookup slug = some repo ∧ repo.id = repo'.id ∧
      s.CarriesFrom s' print slug slug'

section Carried

variable {print : Footprint} {s s' last : State} {slug : Slug}

theorem State.CarriesFrom.same (pulls : s'.pulls = s.pulls) (reviews : s'.reviews = s.reviews) :
    s.CarriesFrom s' print slug slug where
  pulls n pr found := ⟨pr, by rw [pulls, found], .refl⟩
  reviews n rows found := ⟨rows, by rw [reviews, found], fun row member => ⟨row, member, rfl, rfl⟩⟩

theorem State.CarriesFrom.trans {old middle new : Slug} (first : s.CarriesFrom s' print old middle)
    (second : s'.CarriesFrom last print middle new) : s.CarriesFrom last print old new := by
  constructor
  · intro n pr found
    obtain ⟨pr', there, steps⟩ := first.pulls n pr found
    obtain ⟨pr'', here, more⟩ := second.pulls n pr' there
    exact ⟨pr'', here, steps.trans more⟩
  · intro n rows found
    obtain ⟨rows', there, kept⟩ := first.reviews n rows found
    obtain ⟨rows'', here, more⟩ := second.reviews n rows' there
    refine ⟨rows'', here, fun row member => ?_⟩
    obtain ⟨row', member', same⟩ := kept row member
    obtain ⟨row'', member'', same'⟩ := more row' member'
    exact ⟨row'', member'', same'.1.trans same.1, same'.2.trans same.2⟩

/-- A pull request stored where one is that it goes back to, or where there is none. -/
theorem State.CarriesFrom.storePull {key : Scoped Nat} {edited : PullRequest}
    (derived : ∀ pr, s.pulls.lookup key = some pr →
      ReflTransGen (PullStep print.updates) pr edited) :
    s.CarriesFrom { s with pulls := s.pulls.insert key edited } print slug slug := by
  refine ⟨fun n pr found => ?_, fun n rows found =>
    ⟨rows, found, fun row member => ⟨row, member, rfl, rfl⟩⟩⟩
  show ∃ pr', (s.pulls.insert key edited).lookup (slug.1, slug.2, n) = some pr' ∧ _
  rw [lookup_insert_if]
  split
  · next here =>
    rw [here] at found
    exact ⟨edited, rfl, derived pr found⟩
  · exact ⟨pr, found, .refl⟩

theorem State.CarriesFrom.pushReview (review : Review) :
    s.CarriesFrom { s with reviews := s.reviews.push review.key review } print slug slug := by
  refine ⟨fun n pr found => ⟨pr, found, .refl⟩, fun n rows found => ?_⟩
  show ∃ rows', (s.reviews.push review.key review).lookup (slug.1, slug.2, n) = some rows' ∧ _
  rw [lookup_push]
  split
  · next here =>
    rw [here] at found
    rw [found]
    exact ⟨_, rfl, fun row member => ⟨row, by simp [member], rfl, rfl⟩⟩
  · exact ⟨rows, found, fun row member => ⟨row, member, rfl, rfl⟩⟩

theorem Touch.carriesFrom (touch : Touch print s s') (ordered : print.ordered) :
    s.CarriesFrom s' print slug slug := by
  cases touch with
  | defaultBranchSet =>
    rw [State.ensureDefaultBranchProtection_eq]
    exact .same rfl rfl
  | optOutSet =>
    rw [State.withOptOut_eq]
    exact .same rfl rfl
  | @issueOpened numbered issue may within next =>
    have counted : numbered = (s.nextRecordNumber issue.owner issue.repo).2 := by rw [next]
    subst counted
    exact .same rfl rfl
  | pullOpened pr own may within drawn fresh backed marked number unmerged live undated unrecorded
      vacant =>
    refine .storePull fun stored found => ?_
    cases (vacant ordered).symm.trans found
  | pullEdited found within follows evaluation =>
    refine .storePull fun stored known => ?_
    cases found.symm.trans known
    exact .single (.edited follows evaluation)
  | pullUpdated found within asked now evaluation =>
    refine .storePull fun stored known => ?_
    cases found.symm.trans known
    exact .single (.updated asked now evaluation)
  | pullMerged found within unmerged unclosed mergeSha now =>
    refine .storePull fun stored known => ?_
    cases found.symm.trans known
    exact .single (.merged unmerged unclosed mergeSha now)
  | reviewed review => exact .pushReview review
  | _ => exact .same rfl rfl

theorem Touches.carries (touches : Touches print s s') (ordered : print.ordered) :
    s.Carries s' print := by
  intro slug repo' found drawn
  have held : s.registry.held slug = some repo'.id := by
    rw [← Touches.registry touches]
    exact State.registry_held.mpr ⟨repo', found, rfl⟩
  obtain ⟨repo, known, own⟩ := State.registry_held.mp held
  refine ⟨slug, repo, known, own, ?_⟩
  clear found held known
  induction touches with
  | refl => exact .same rfl rfl
  | tail _ touch ih => exact ih.trans (touch.carriesFrom ordered)

theorem Shift.carries (shift : Shift print s s') (rooted : s.Rooted) : s.Carries s' print := by
  cases shift with
  | created repo now free drawn named =>
    rw [State.ensureDefaultBranchProtection_eq]
    intro slug repo' found old
    replace found : (s.repos.insert repo.slug repo).lookup slug = some repo' := found
    rw [lookup_insert_if] at found
    split at found
    · cases found
      exact absurd drawn old
    · exact ⟨slug, repo', found, rfl, .same rfl rfl⟩
  | @deleted old repo known may =>
    intro slug repo' found drawn
    replace found : (s.repos.erase old).lookup slug = some repo' := found
    rw [lookup_erase_if] at found
    split at found
    · cases found
    · next away =>
      refine ⟨slug, repo', found, rfl, fun n pr stored => ?_, fun n rows stored => ?_⟩
      · exact ⟨pr, (lookup_drainScoped s.pulls old _).trans ((if_neg away).trans stored), .refl⟩
      · exact ⟨rows, (lookup_drainScoped s.reviews old _).trans ((if_neg away).trans stored),
          fun row member => ⟨row, member, rfl, rfl⟩⟩
  | @relocated old new repo known free now =>
    have different : new ≠ old := ne_of_lookup known free
    have pulls := @rekeyTriples_movedTo _ _ _ old new (movedPull old new) s.pulls different
      (every_vacant rooted.pulls free)
    have reviews := @rekeyTriples_movedTo _ _ _ old new
      (fun rows : List Review => rows.map fun row => { row with owner := new.1, repo := new.2 })
      s.reviews different (every_vacant rooted.reviews free)
    intro slug repo' found drawn
    replace found : ((s.repos.erase old).insert new (movedRepository new now repo)).lookup slug =
      some repo' := found
    rw [lookup_insert_if, lookup_erase_if] at found
    split at found
    · next here =>
      cases found
      subst here
      refine ⟨old, repo, known, rfl, fun n pr stored => ?_, fun n rows stored => ?_⟩
      · refine ⟨movedPull old slug pr, (pulls (slug.1, slug.2, n)).trans ?_, .single (.moved pr old slug)⟩
        refine (if_pos rfl).trans ?_
        show (s.pulls.lookup (old.1, old.2, n)).map _ = _
        rw [stored]
        rfl
      · refine ⟨rows.map fun row => { row with owner := slug.1, repo := slug.2 },
          (reviews (slug.1, slug.2, n)).trans ((if_pos rfl).trans ?_), fun row member => ?_⟩
        · show (s.reviews.lookup (old.1, old.2, n)).map _ = _
          rw [stored]
          rfl
        · exact ⟨_, List.mem_map_of_mem member, rfl, rfl⟩
    · next notNew =>
      split at found
      · cases found
      · next notOld =>
        refine ⟨slug, repo', found, rfl, fun n pr stored => ?_, fun n rows stored => ?_⟩
        · have kept := (pulls (slug.1, slug.2, n)).trans ((if_neg notNew).trans (if_neg notOld))
          exact ⟨pr, kept.trans stored, .refl⟩
        · have kept := (reviews (slug.1, slug.2, n)).trans ((if_neg notNew).trans (if_neg notOld))
          exact ⟨rows, kept.trans stored, fun row member => ⟨row, member, rfl, rfl⟩⟩

theorem Moves.carries (moves : Moves print s s') (ordered : print.ordered) (rooted : s.Rooted) :
    s.Carries s' print := by
  cases moves with
  | touches writes => exact Touches.carries writes ordered
  | shift may moved => exact moved.carries rooted

end Carried

/-- The dismissal that `detail` tells of is recorded under the slug. -/
def State.DismissedAt (s : State) (detail : AuditDetail) (slug : Slug) : Prop :=
  ∃ n rows row, s.reviews.lookup (slug.1, slug.2, n) = some rows ∧ row ∈ rows ∧
    row.dismissalAuthority.isSome = true ∧ row.auditDetail = detail

/-- The pull request is recorded as merged under the slug. -/
def State.MergedAt (s : State) (id : Uuid) (mergeSha : String) (slug : Slug) : Prop :=
  ∃ n pr, s.pulls.lookup (slug.1, slug.2, n) = some pr ∧ pr.id = id ∧ pr.merged = true ∧
    pr.mergeCommitSha = some mergeSha

/-- Wherever the repository is, if it is there at all, `At` holds. -/
def State.With (s : State) (repository : Uuid) (At : Slug → Prop) : Prop :=
  ∀ slug repo, s.repos.lookup slug = some repo → repo.id = repository → At slug

/-- What a repository's records tell, in memory and on disk, as long as it has any. -/
structure ForgeCore.Keeps (core : ForgeCore) (repository : Uuid) (At : State → Slug → Prop) : Prop where
  memory : core.state.With repository (At core.state)
  tables : core.tables.With repository (At core.tables)

section Told

variable {print : Footprint} {s s' : State} {repository : Uuid} {detail : AuditDetail} {id : Uuid}
variable {mergeSha : String}

/-- A record that stays with its repository. -/
def Stays (At : State → Slug → Prop) : Prop :=
  (∀ (s s' : State) (print : Footprint) (old new : Slug), s.CarriesFrom s' print old new → At s old →
    At s' new) ∧
  ∀ (s s' : State) (slug : Slug), s'.pulls = s.pulls → s'.reviews = s.reviews → At s slug → At s' slug

theorem dismissed_stays (detail : AuditDetail) : Stays fun s => s.DismissedAt detail := by
  constructor
  · rintro s s' print old new carries ⟨n, rows, row, found, member, granted, same⟩
    obtain ⟨rows', there, kept⟩ := carries.reviews n rows found
    obtain ⟨row', member', authority, detailed⟩ := kept row member
    exact ⟨n, rows', row', there, member', by rw [authority, granted], detailed.trans same⟩
  · rintro s s' slug pulls reviews ⟨n, rows, row, found, rest⟩
    exact ⟨n, rows, row, by rw [reviews, found], rest⟩

theorem merged_stays (id : Uuid) (mergeSha : String) : Stays fun s => s.MergedAt id mergeSha := by
  constructor
  · rintro s s' print old new carries ⟨n, pr, found, own, merged, sha⟩
    obtain ⟨pr', there, steps⟩ := carries.pulls n pr found
    have same := PullStep.sameMerge steps merged
    exact ⟨n, pr', there, (PullStep.id_of_steps steps).trans own, same.merged.trans merged,
      same.mergeCommitSha.trans sha⟩
  · rintro s s' slug pulls reviews ⟨n, pr, found, rest⟩
    exact ⟨n, pr, by rw [pulls, found], rest⟩

variable {At : State → Slug → Prop}

theorem State.With.carried (holds : s.With repository (At s)) (stays : Stays At)
    (carries : s.Carries s' print) (known : ¬print.drawn repository) : s'.With repository (At s') := by
  rintro slug' repo' found rfl
  obtain ⟨slug, repo, was, own, carried⟩ := carries slug' repo' found known
  exact stays.1 s s' print slug slug' carried (holds slug repo was own)

/-- Nothing that counts here has changed. -/
theorem State.With.same (holds : s.With repository (At s)) (stays : Stays At)
    (repos : s'.repos = s.repos) (pulls : s'.pulls = s.pulls) (reviews : s'.reviews = s.reviews) :
    s'.With repository (At s') := by
  intro slug repo found own
  exact stays.2 s s' slug pulls reviews (holds slug repo (repos ▸ found) own)

end Told

end Jeryu.Core
