import Jeryu.Auth.Grounds
import Jeryu.Core.Coherence

/-!
The calls that change who may do what, or decide over another's verdict, each with what it rests on:
its actor's authority and what it names.
-/

namespace Jeryu.Auth

open Jeryu.Core KeyedMap LockProgram Method

/-- The account, bot and team calls, and those of the repository methods that go by an actor's
    repository rights. -/
inductive Deed where
  | account (call : Call)
  | grantRepoAccessChecked (actor login owner repo : String) (access : RepoAccessLevel)
  | revokeRepoAccessChecked (actor login owner repo : String)
  | dismissReview (owner repo : String) (number : Nat) (actor : String) (request : DismissReviewRequest)

def Deed.Answer : Deed → Type
  | account call => call.Answer
  | grantRepoAccessChecked .. => RepoAccessGrant
  | revokeRepoAccessChecked .. => Bool
  | dismissReview .. => Review

abbrev Deed.Reply (deed : Deed) : Type := Except Failure deed.Answer

def Deed.method : (deed : Deed) → Method deed.Answer
  | .account call => call.method
  | .grantRepoAccessChecked actor login owner repo access =>
    Core.grantRepoAccessChecked actor login owner repo access
  | .revokeRepoAccessChecked actor login owner repo =>
    Core.revokeRepoAccessChecked actor login owner repo
  | .dismissReview owner repo number actor request =>
    Core.dismissReview owner repo number actor request

/-- Every pull request is stored under its own key. -/
def PullsKeyed (s : State) : Prop :=
  ∀ key pr, s.pulls.lookup key = some pr → pr.owner = key.1 ∧ pr.repo = key.2.1

/-- What the clock, the environment, SQLite and the other methods may do between two sections: they
    keep pull requests under their keys. -/
structure Elsewhere (core core' : ForgeCore) : Prop where
  ambient : Ambient anyTicks core core'
  pulls : PullsKeyed core.state → PullsKeyed core'.state

def deeds : System ForgeCore Deed.Reply where
  program deed := deed.method.run
  ambient := Elsewhere
  admits _ _ := True

abbrev DeedPool : Type := Config ForgeCore Deed.Reply

section Grounds

variable (actor owner repo org : String)

def RepositoryThere (core : ForgeCore) : Prop := (core.state.repos.lookup (owner, repo)).isSome

/-- The slug names a repository, under its own name or an old one. -/
def RepositoryNamed (core : ForgeCore) : Prop := (core.state.resolveRepository owner repo).isSome

def AccountThere (login : String) (core : ForgeCore) : Prop := (core.state.accounts.lookup login).isSome

def TeamThere (team : String) (core : ForgeCore) : Prop :=
  (core.state.auth.teams.lookup (org, team)).isSome

def TeamBotThere (botId : Uuid) (core : ForgeCore) : Prop :=
  ∃ bot, core.state.bots.lookup botId = some bot ∧ bot.ownerKind = .organization

/-- An active account that administers the repository, by a grant or as a forge administrator. -/
def Administers (core : ForgeCore) : Prop :=
  core.state.isActive actor = true ∧ core.state.administersRepository actor owner repo = true

/-- An active account that may run the organization, which is there. -/
def RunsOrganization (core : ForgeCore) : Prop :=
  core.state.isActive actor = true ∧ (core.state.organizations.lookup org).isSome ∧
    core.state.mayRunOrganization actor org = true

/-- The review a dismissal aims at is another's. -/
def AnothersReview (number : Nat) (targetId : Uuid) (s : State) : Prop :=
  ∃ target, ((s.reviews.lookup (owner, repo, number)).getD []).find? (fun review => review.id == targetId) =
    some target ∧ target.author ≠ actor

/-- The branch of the pull request lets administrators dismiss reviews. -/
def DismissalOptIn (number : Nat) (s : State) : Prop :=
  ∃ pr, s.pulls.lookup (owner, repo, number) = some pr ∧
    ∃ rule, s.branchProtections.lookup (owner, repo, pr.base.refName) = some rule ∧
      rule.allowAdminReviewDismissal = true

/-- Another's review is dismissed by an administrator of the repository, where the branch opts in. -/
def MayDismiss (number : Nat) (targetId : Uuid) (core : ForgeCore) : Prop :=
  AnothersReview actor owner repo number targetId core.state →
    Administers actor owner repo core ∧ DismissalOptIn owner repo number core.state

end Grounds

/-- The repositories and the owners a reach names. -/
def reachGrounds : BotReach → List (ForgeCore → Prop)
  | .general _ => []
  | .owners owners _ => owners.map fun owner core =>
    core.state.ownerIsKnown (Text.toAsciiLowercase (Text.trim owner)) = true
  | .repositories repos _ => repos.map fun repo => RepositoryThere repo.owner repo.name
  | .task repo .. => [RepositoryThere repo.owner repo.name]

/-- What the calls rest on that the forge decides over. -/
def Deed.grounds : Deed → List (ForgeCore → Prop)
  | .grantRepoAccessChecked actor login owner repo _ =>
    [Administers actor owner repo, RepositoryThere owner repo, AccountThere login]
  | .revokeRepoAccessChecked actor _ owner repo =>
    [Administers actor owner repo, RepositoryThere owner repo]
  | .dismissReview owner repo number actor request =>
    [MayDismiss actor owner repo number request.reviewId, RepositoryNamed owner repo]
  | .account (.grantBotRepository actor botId owner repo _)
  | .account (.revokeBotRepositoryGrant actor botId owner repo) =>
    [Administers actor owner repo, RepositoryThere owner repo, TeamBotThere botId]
  | .account (.enrollTeamBot actor org stewardTeam _ _ _ reach _) =>
    RunsOrganization actor org :: TeamThere org stewardTeam :: reachGrounds reach
  | .account (.addOrganizationOwner actor org _) | .account (.removeOrganizationOwner actor org _)
  | .account (.createTeamAs actor org ..) => [RunsOrganization actor org]
  | .account (.addTeamMember actor org team _) | .account (.removeTeamMember actor org team _) =>
    [RunsOrganization actor org, TeamThere org team]
  | _ => []

section Decisions

variable {s : State} {actor owner repo org : String}

theorem isGlobalAdmin_active (admin : s.isGlobalAdmin actor = true) : s.isActive actor = true := by
  unfold State.isGlobalAdmin at admin
  unfold State.isActive
  cases found : s.accounts.lookup actor with
  | none =>
    rw [found] at admin
    cases admin
  | some account =>
    rw [found] at admin
    exact (Bool.and_eq_true_iff.mp admin).1

theorem repoAdmin_administers
    (admin : (s.repoAccessForLocked actor owner repo).any RepoAccessLevel.allowsAdmin = true) :
    s.isActive actor = true ∧ s.administersRepository actor owner repo = true := by
  unfold State.repoAccessForLocked at admin
  split at admin
  · -- A team bot's own grants are never more than `write`.
    unfold State.actingRepoAccess at admin
    split at admin
    · cases admin
    · split at admin
      · cases admin
      · split at admin
        · cases granted : s.grantAccess _ owner repo with
          | none =>
            rw [granted] at admin
            cases admin
          | some access =>
            rw [granted] at admin
            cases access <;> cases admin
        · cases admin
  · cases found : s.accounts.lookup actor with
    | none =>
      rw [found] at admin
      cases admin
    | some account =>
      rw [found] at admin
      dsimp only at admin
      split at admin
      · cases admin
      · next permits =>
        have active : s.isActive actor = true := by
          unfold State.isActive
          rw [found]
          simpa using permits
        refine ⟨active, ?_⟩
        unfold State.administersRepository
        split at admin
        · next role =>
          have global : s.isGlobalAdmin actor = true := by
            unfold State.isGlobalAdmin
            rw [found]
            simpa [role] using permits
          rw [global]
          rfl
        · rw [active, Bool.true_and]
          refine Bool.or_eq_true_iff.mpr (.inr ?_)
          cases granted : s.repoGrants.lookup (actor, owner, repo) with
          | none =>
            rw [granted] at admin
            cases admin
          | some grant =>
            rw [granted] at admin
            simpa [RepoAccessLevel.allowsAdmin] using admin

theorem administersRepository_active (administers : s.administersRepository actor owner repo = true) :
    s.isActive actor = true := by
  unfold State.administersRepository at administers
  rcases Bool.or_eq_true_iff.mp administers with admin | granted
  · exact isGlobalAdmin_active admin
  · exact (Bool.and_eq_true_iff.mp granted).1

theorem mayRunOrganization_active (may : s.mayRunOrganization actor org = true) :
    s.isActive actor = true := by
  unfold State.mayRunOrganization at may
  rcases Bool.or_eq_true_iff.mp may with admin | owns
  · exact isGlobalAdmin_active admin
  · exact (Bool.and_eq_true_iff.mp owns).1

theorem managedOrganization_runs {core : ForgeCore} {organization : Organization}
    (managed : core.state.managedOrganization actor org = .ok organization) :
    RunsOrganization actor org core := by
  have found := managedOrganization_ok managed
  unfold State.managedOrganization at managed
  split at managed
  · cases managed
  · rw [found] at managed
    dsimp only at managed
    split at managed
    · cases managed
    · split at managed
      · cases managed
      · next may =>
        have runs : core.state.mayRunOrganization actor org = true := by simpa using may
        exact ⟨mayRunOrganization_active runs, by rw [found]; rfl, runs⟩

theorem grantingContext_grounds {core : ForgeCore} {botId repoId : Uuid} {bot : BotRecord}
    (granting : core.state.grantingContext actor botId owner repo = .ok (bot, repoId)) :
    ∀ g ∈ [Administers actor owner repo, RepositoryThere owner repo, TeamBotThere botId], g core := by
  unfold State.grantingContext at granting
  split at granting
  · cases granting
  · next repository found =>
    split at granting
    · cases granting
    · next administers =>
      have administers : core.state.administersRepository actor owner repo = true := by
        simpa using administers
      split at granting
      · cases granting
      · next stored team =>
        obtain ⟨known, kind⟩ := Option.filter_eq_some_iff.mp team
        have there : RepositoryThere owner repo core := by
          unfold RepositoryThere
          rw [found]
          rfl
        intro g ground
        simp only [List.mem_cons, List.not_mem_nil, or_false] at ground
        rcases ground with rfl | rfl | rfl
        · exact ⟨administersRepository_active administers, administers⟩
        · exact there
        · exact ⟨stored, known, by simpa using kind⟩

theorem isHumanRepoAdmin_administers {core : ForgeCore}
    (admin : core.state.isHumanRepoAdmin actor owner repo = true) : Administers actor owner repo core := by
  unfold State.isHumanRepoAdmin at admin
  exact repoAdmin_administers (Bool.and_eq_true_iff.mp admin).2

end Decisions

end Jeryu.Auth
