import Jeryu.Auth.Deeds
import Jeryu.Core.SectionEffects

/-!
Each call looks for everything it rests on, in its writing section or in an earlier one.
-/

namespace Jeryu.Auth

open Jeryu.Core KeyedMap LockProgram Method

/-- Owners and members who have accounts, and pull requests under their own keys. -/
structure Orderly (core : ForgeCore) : Prop where
  people : Peopled core.state
  pulls : PullsKeyed core.state

section Quiet

variable {α : Type} {g : ForgeCore → Prop}

/-- A membership change, by what its section finds. -/
theorem audited_looks {actor action subject : String} {f : ForgeCore → Core.Outcome (α × Bool)}
    (ends : ∀ core, Orderly core → Outcome.Ends (fun _ _ _ => g core) (f core)) :
    Looks Orderly g (audited actor action subject (.locked f)) := by
  unfold audited
  refine (looks_locked ends).bind_quiet fun stored => ?_
  obtain ⟨stored, changed⟩ := stored
  exact writes_ite (Writes.bind (appendAuditWith_quiet.mono fun _ _ _ same _ => same)
    fun _ => writes_pure _) (writes_pure _)

end Quiet

section Parts

variable {I : ForgeCore → Prop} {actor owner repo login : String}

theorem canonicalRepository_finds : Finds I (RepositoryThere owner repo) (canonicalRepository owner repo) := by
  refine finds_reading fun core repository _ found => ?_
  unfold RepositoryThere
  cases there : core.state.repos.lookup (owner, repo) with
  | some repository => rfl
  | none =>
    rw [there] at found
    cases found

theorem getRepository_finds : Finds I (RepositoryNamed owner repo) (getRepository owner repo) := by
  refine finds_reading fun core repository _ found => ?_
  unfold RepositoryNamed
  cases there : core.state.resolveRepository owner repo with
  | some repository => rfl
  | none =>
    rw [there] at found
    cases found

theorem getAccount_finds : Finds I (AccountThere login) (getAccount login) := by
  refine finds_reading fun core account _ found => ?_
  unfold AccountThere
  cases there : core.state.accounts.lookup login with
  | some account => rfl
  | none =>
    rw [there] at found
    cases found

theorem requireRepoAdmin_finds :
    Finds I (Administers actor owner repo) (requireRepoAdmin actor owner repo) := by
  refine finds_reading fun core done _ found => ?_
  split at found
  · next admin => exact repoAdmin_administers admin
  · cases found

end Parts

section Repository

variable {actor login owner repo : String}

theorem grantRepoAccessChecked_looks {access : RepoAccessLevel} :
    ∀ g ∈ (Deed.grantRepoAccessChecked actor login owner repo access).grounds,
      Looks Orderly g (Core.grantRepoAccessChecked actor login owner repo access) := by
  have repository := quiet_of_readOnly (@canonicalRepository_readOnly owner repo)
  have admin := quiet_of_readOnly (@requireRepoAdmin_readOnly owner repo actor)
  have account := quiet_of_readOnly (getAccount_readOnly login)
  unfold Core.grantRepoAccessChecked Core.grantRepoAccess
  intro g ground
  rcases List.mem_cons.mp ground with rfl | ground
  · exact looks_bind repository fun _ => requireRepoAdmin_finds.looks_bind admin
  rcases List.mem_cons.mp ground with rfl | ground
  · exact canonicalRepository_finds.looks_bind repository
  cases List.mem_singleton.mp ground
  refine looks_bind repository fun _ => looks_bind admin fun _ => ?_
  exact getAccount_finds.looks_bind account

theorem revokeRepoAccessChecked_looks :
    ∀ g ∈ (Deed.revokeRepoAccessChecked actor login owner repo).grounds,
      Looks Orderly g (Core.revokeRepoAccessChecked actor login owner repo) := by
  have repository := quiet_of_readOnly (@canonicalRepository_readOnly owner repo)
  have admin := quiet_of_readOnly (@requireRepoAdmin_readOnly owner repo actor)
  unfold Core.revokeRepoAccessChecked
  intro g ground
  rcases List.mem_cons.mp ground with rfl | ground
  · exact looks_bind repository fun _ => requireRepoAdmin_finds.looks_bind admin
  cases List.mem_singleton.mp ground
  exact canonicalRepository_finds.looks_bind repository

theorem authorizeCrossAuthorDismissal_may {state : State} {pr : PullRequest} {reviews : List Review}
    (authorized : authorizeCrossAuthorDismissal state pr reviews actor = .ok ()) :
    state.isHumanRepoAdmin actor pr.owner pr.repo = true ∧
      ∃ rule, state.branchProtections.lookup (pr.owner, pr.repo, pr.base.refName) = some rule ∧
        rule.allowAdminReviewDismissal = true := by
  unfold authorizeCrossAuthorDismissal at authorized
  split at authorized
  · cases authorized
  · next admin =>
    have admin : state.isHumanRepoAdmin actor pr.owner pr.repo = true := by simpa using admin
    split at authorized
    · cases authorized
    · next rule optIn => exact ⟨admin, rule, Option.filter_eq_some_iff.mp optIn⟩

theorem admitDismissal_another {core : ForgeCore} {pr : PullRequest} {reviews : List Review}
    {subject : String} {targetId : Uuid} {authority : Option DismissalAuthority} {target : Review}
    (aimed : reviews.find? (fun review => review.id == targetId) = some target)
    (another : target.author ≠ actor)
    (admitted : admitDismissal core pr reviews actor subject targetId = .ok authority) :
    authorizeCrossAuthorDismissal core.state pr reviews actor = .ok () := by
  unfold admitDismissal at admitted
  rw [aimed] at admitted
  dsimp only at admitted
  rw [if_neg another] at admitted
  cases authorized : authorizeCrossAuthorDismissal core.state pr reviews actor with
  | ok done => rfl
  | error error =>
    rw [authorized] at admitted
    cases admitted

theorem commits_ends {α : Type} {P : Nat → State → α → Prop} {outcome : Core.Outcome α}
    (commits : outcome.Commits P) : Outcome.Ends P outcome := by
  cases outcome with
  | refuse error => exact True.intro
  | unchanged value => exact True.intro
  | direct audits next value => exact commits.elim
  | append rows value => exact commits
  | commit audits draws next receipt value => exact commits

/-- A dismissal that is stored was allowed in the same section. -/
theorem recordReviewLocked_may {number : Nat} {request : CreateReviewRequest} {targetId : Uuid}
    {core : ForgeCore} (keyed : PullsKeyed core.state) :
    Outcome.Ends (fun _ _ _ => MayDismiss actor owner repo number targetId core)
      (recordReviewLocked owner repo number actor request (some targetId) core) := by
  refine commits_ends (recordReviewLocked_commits fun pr authority audited found _ admitted => ?_)
  intro ⟨target, aimed, another⟩
  have authorized := admitDismissal_another aimed another admitted
  obtain ⟨admin, rule, guarded, optIn⟩ := authorizeCrossAuthorDismissal_may authorized
  obtain ⟨sameOwner, sameRepo⟩ := keyed _ pr found
  dsimp only at sameOwner sameRepo
  rw [sameOwner, sameRepo] at admin guarded
  exact ⟨isHumanRepoAdmin_administers admin, pr, found, rule, guarded, optIn⟩

theorem recordReview_looks {number : Nat} {request : CreateReviewRequest} {targetId : Uuid} :
    ∀ g ∈ [MayDismiss actor owner repo number targetId, RepositoryNamed owner repo],
      Looks Orderly g (recordReview owner repo number actor request (some targetId)) := by
  have writable := quiet_of_readOnly (@ensureRepositoryWritable_readOnly owner repo)
  unfold recordReview
  intro g ground
  rcases List.mem_cons.mp ground with rfl | ground
  · refine looks_bind writable fun _ => looks_ofExcept_bind fun _ _ => ?_
    refine (looks_locked fun core orderly => recordReviewLocked_may orderly.pulls).bind_quiet
      fun stored => ?_
    obtain ⟨review, audited⟩ := stored
    exact writes_ite ((appendAuditWith_quiet.ignored.mono fun _ _ _ same _ => same).bind
      fun _ => writes_pure _) (writes_pure _)
  cases List.mem_singleton.mp ground
  refine Finds.looks_bind ?_ writable
  unfold ensureRepositoryWritable
  exact getRepository_finds.bind

theorem dismissReview_looks {number : Nat} {request : DismissReviewRequest} :
    ∀ g ∈ (Deed.dismissReview owner repo number actor request).grounds,
      Looks Orderly g (Core.dismissReview owner repo number actor request) := by
  intro g ground
  unfold Core.dismissReview
  refine looks_unless (looks_unless ((recordReview_looks g ground).inspect fun result => ?_))
  cases result with
  | ok review => exact writes_pure ()
  | error failure =>
    unfold auditRefusedDismissal
    refine (writes_reading _).bind fun author => writes_ite ?_ (writes_pure _)
    exact appendAuditWith_quiet.ignored

end Repository

section Teams

variable {core : ForgeCore} {actor org login team : String}

theorem managed_ends {α : Type} {P : Nat → State → α → Prop} {outcome : Core.Outcome α}
    (ends : Outcome.Ends P outcome)
    (refused : ∀ error, core.state.managedOrganization actor org = .error error → outcome = .refuse error) :
    Outcome.Ends (fun _ _ _ => RunsOrganization actor org core) outcome := by
  cases managed : core.state.managedOrganization actor org with
  | error error =>
    rw [refused error managed]
    exact True.intro
  | ok organization => exact ends.mono fun _ _ _ _ => managedOrganization_runs managed

theorem addOrganizationOwner_looks : ∀ g ∈ (Deed.account (.addOrganizationOwner actor org login)).grounds,
    Looks Orderly g (Core.addOrganizationOwner actor org login) := by
  intro g ground
  cases List.mem_singleton.mp ground
  refine audited_looks fun core _ => managed_ends addOrganizationOwnerLocked_owners fun error managed => ?_
  unfold addOrganizationOwnerLocked
  rw [managed]

theorem removeOrganizationOwner_looks :
    ∀ g ∈ (Deed.account (.removeOrganizationOwner actor org login)).grounds,
      Looks Orderly g (Core.removeOrganizationOwner actor org login) := by
  intro g ground
  cases List.mem_singleton.mp ground
  refine audited_looks fun core _ => managed_ends removeOrganizationOwnerLocked_owners fun error managed => ?_
  unfold removeOrganizationOwnerLocked
  rw [managed]

theorem createTeamAs_looks {name : String} {slug : Option String} {members : List String} :
    ∀ g ∈ (Deed.account (.createTeamAs actor org name slug members)).grounds,
      Looks Orderly g (Core.createTeamAs actor org name slug members) := by
  intro g ground
  cases List.mem_singleton.mp ground
  unfold Core.createTeamAs
  refine looks_ofExcept_bind fun _ _ => looks_unless (looks_unless ?_)
  refine (looks_locked fun core _ => ?_).bind_quiet fun stored => ?_
  · have members : Outcome.Ends (fun _ next _ => MembersFrom (fun _ => False) core.state next)
        (createTeamAsLocked actor org name (teamSlug name slug) members core) := createTeamAsLocked_members
    refine managed_ends members fun error managed => ?_
    unfold createTeamAsLocked
    rw [managed]
  · exact (appendAuditWith_quiet.mono fun _ _ _ same _ => same).bind fun _ => writes_pure _

/-- A member's change to a team that is there. -/
theorem teamThere_ends {α : Type} {P : Nat → State → α → Prop} {outcome : Core.Outcome α}
    (ends : Outcome.Ends P outcome)
    (refused : core.state.auth.teams.lookup (org, team) = none → ∃ error, outcome = .refuse error) :
    Outcome.Ends (fun _ _ _ => TeamThere org team core) outcome := by
  cases there : core.state.auth.teams.lookup (org, team) with
  | none =>
    obtain ⟨error, same⟩ := refused there
    rw [same]
    exact True.intro
  | some stored =>
    refine ends.mono fun _ _ _ _ => ?_
    unfold TeamThere
    rw [there]
    rfl

theorem addTeamMember_looks : ∀ g ∈ (Deed.account (.addTeamMember actor org team login)).grounds,
    Looks Orderly g (Core.addTeamMember actor org team login) := by
  intro g ground
  have members (core : ForgeCore) :
      Outcome.Ends (fun _ next _ => MembersFrom (fun _ => False) core.state next)
        (addTeamMemberLocked actor org team login core) := addTeamMemberLocked_members
  rcases List.mem_cons.mp ground with rfl | ground
  · refine audited_looks fun core _ => managed_ends (members core) fun error managed => ?_
    unfold addTeamMemberLocked
    rw [managed]
  cases List.mem_singleton.mp ground
  refine audited_looks fun core _ => teamThere_ends (members core) fun missing => ?_
  unfold addTeamMemberLocked
  rw [missing]
  split
  · exact ⟨_, rfl⟩
  · exact ⟨_, rfl⟩

theorem removeTeamMember_looks : ∀ g ∈ (Deed.account (.removeTeamMember actor org team login)).grounds,
    Looks Orderly g (Core.removeTeamMember actor org team login) := by
  intro g ground
  have members (core : ForgeCore) (now : DateTime) :
      Outcome.Ends (fun _ next _ => MembersFrom (fun _ => False) core.state next)
        (removeTeamMemberLocked actor org team login now core) := removeTeamMemberLocked_members
  unfold Core.removeTeamMember
  refine looks_bind (quiet_of_readOnly utcNow_readOnly) fun now => ?_
  rcases List.mem_cons.mp ground with rfl | ground
  · refine audited_looks fun core _ => managed_ends (members core now) fun error managed => ?_
    unfold removeTeamMemberLocked
    rw [managed]
  cases List.mem_singleton.mp ground
  refine audited_looks fun core _ => teamThere_ends (members core now) fun missing => ?_
  unfold removeTeamMemberLocked
  rw [missing]
  split
  · exact ⟨_, rfl⟩
  · exact ⟨_, rfl⟩

end Teams

section Bots

variable {I : ForgeCore → Prop} {core : ForgeCore} {actor owner repo org stewardTeam : String} {botId : Uuid}

theorem grantBotRepository_looks {access : BotRepoAccess} :
    ∀ g ∈ (Deed.account (.grantBotRepository actor botId owner repo access)).grounds,
      Looks Orderly g (Core.grantBotRepository actor botId owner repo access) := by
  intro g ground
  unfold Core.grantBotRepository
  refine looks_bind (quiet_of_readOnly utcNow_readOnly) fun now => ?_
  refine (looks_locked fun core _ => ?_).bind_quiet fun granted => ?_
  · unfold grantBotRepositoryLocked
    split
    · exact True.intro
    · next bot repoId granting =>
      exact ends_ite (fun _ => True.intro) fun _ => grantingContext_grounds granting g ground
  · obtain ⟨bot, grant⟩ := granted
    exact (appendAuditWith_quiet.mono fun _ _ _ same _ => same).bind fun _ => writes_pure _

theorem revokeBotRepositoryGrant_looks :
    ∀ g ∈ (Deed.account (.revokeBotRepositoryGrant actor botId owner repo)).grounds,
      Looks Orderly g (Core.revokeBotRepositoryGrant actor botId owner repo) := by
  intro g ground
  unfold Core.revokeBotRepositoryGrant
  refine (looks_locked fun core _ => ?_).bind_quiet fun revoked => ?_
  · unfold revokeBotRepositoryGrantLocked
    split
    · exact True.intro
    · next bot repoId granting =>
      exact ends_ite (fun _ => True.intro) fun _ => grantingContext_grounds granting g ground
  · obtain ⟨bot, removed⟩ := revoked
    exact writes_ite appendAuditWith_quiet (writes_pure _)

theorem requireActiveAccount_eq (login : String) :
    requireActiveAccount login = .reading fun core =>
      match core.state.accounts.lookup login with
      | none => .error (.notFound s!"account {login}")
      | some account =>
        if account.status.permitsAuthentication then .ok account.summary
        else .error (.validation "account is not active") := by
  refine congrArg Program.read (funext fun core => ?_)
  dsimp only
  cases core.state.accounts.lookup login with
  | none => rfl
  | some account =>
    dsimp only
    have status : account.summary.status = account.status := rfl
    cases permits : account.status.permitsAuthentication with
    | true =>
      simp only [ExceptT.bindCont, Except.mapError, status, permits, Program.bind]
      rfl
    | false =>
      simp only [ExceptT.bindCont, Except.mapError, status, permits, Program.bind]
      rfl

theorem enrollTeamBotCheck_grounds
    (checked : enrollTeamBotCheck actor org stewardTeam core = .ok ()) :
    RunsOrganization actor org core ∧ TeamThere org stewardTeam core := by
  unfold enrollTeamBotCheck at checked
  dsimp only at checked
  rw [ite_error_eq_ok, ite_error_eq_ok, ite_error_eq_ok] at checked
  obtain ⟨there, runs, team, -⟩ := checked
  have runs : core.state.mayRunOrganization actor org = true := by
    unfold State.mayRunOrganization
    simpa only [Bool.not_eq_true', Bool.not_eq_false] using runs
  refine ⟨⟨mayRunOrganization_active runs, ?_, runs⟩, ?_⟩
  · simpa [Option.isSome_iff_ne_none] using there
  · simpa [TeamThere, Option.isSome_iff_ne_none] using team

theorem normalizeOwners_known {s : State} {owners seen reach : List String}
    (normalized : s.normalizeOwners owners seen = .ok reach)
    (known : ∀ owner ∈ seen, s.ownerIsKnown owner = true) :
    ∀ owner ∈ owners, s.ownerIsKnown (Text.toAsciiLowercase (Text.trim owner)) = true := by
  induction owners generalizing seen with
  | nil => exact fun _ member => nomatch member
  | cons first rest ih =>
    unfold State.normalizeOwners at normalized
    dsimp only at normalized
    intro owner member
    split at normalized
    · cases normalized
    · split at normalized
      · next repeated =>
        rcases List.mem_cons.mp member with rfl | later
        · exact known _ (List.contains_iff_mem.mp repeated)
        · exact ih normalized known owner later
      · split at normalized
        · cases normalized
        · split at normalized
          · cases normalized
          · next there =>
            have there : s.ownerIsKnown (Text.toAsciiLowercase (Text.trim first)) = true := by
              simpa using there
            rcases List.mem_cons.mp member with rfl | later
            · exact there
            · refine ih normalized (fun owner inside => ?_) owner later
              rcases List.mem_append.mp inside with before | new
              · exact known owner before
              · rw [List.mem_singleton.mp new]
                exact there

theorem normalizeRepos_finds {repos seen : List BotRepoRef} {ref : BotRepoRef} (member : ref ∈ repos) :
    Finds I (RepositoryThere ref.owner ref.name) (normalizeRepos actor repos seen) := by
  induction repos generalizing seen with
  | nil => cases member
  | cons first rest ih =>
    unfold normalizeRepos
    rcases List.mem_cons.mp member with rfl | later
    · exact Finds.bind canonicalRepository_finds.bind
    · exact finds_bind fun _ => ih later

theorem normalizeReach_finds {reach : BotReach} :
    ∀ g ∈ reachGrounds reach, Finds I g (normalizeReach actor reach) := by
  intro g ground
  unfold normalizeReach
  refine finds_bind fun _ => ?_
  cases reach with
  | general refs => cases ground
  | owners owners refs =>
    obtain ⟨owner, member, rfl⟩ := List.mem_map.mp ground
    refine finds_unless (Finds.bind (finds_reading fun core reach _ normalized => ?_))
    exact normalizeOwners_known normalized (fun _ none => nomatch none) owner member
  | repositories repos refs =>
    obtain ⟨ref, member, rfl⟩ := List.mem_map.mp ground
    exact finds_unless (normalizeRepos_finds member).bind
  | task ref taskKind taskId refs =>
    cases List.mem_singleton.mp ground
    exact Finds.bind canonicalRepository_finds.bind

theorem enrollTeamBot_looks {slug displayName : String} {kind : BotKind} {reach : BotReach}
    {random : Except ForgeError Unit} :
    ∀ g ∈ (Deed.account
        (.enrollTeamBot actor org stewardTeam slug displayName kind reach random)).grounds,
      Looks Orderly g (Core.enrollTeamBot actor org stewardTeam slug displayName kind reach random) := by
  have active := quiet_of_readOnly (requireActiveAccount_readOnly actor)
  intro g ground
  unfold Core.enrollTeamBot
  rcases List.mem_cons.mp ground with rfl | ground
  · rw [requireActiveAccount_eq]
    refine looks_reading_bind fun core account orderly found => .inr ?_
    have same : account.login = actor := by
      cases stored : core.state.accounts.lookup actor with
      | none =>
        rw [stored] at found
        cases found
      | some record =>
        rw [stored] at found
        dsimp only at found
        split at found
        · cases found
          refine orderly.people.keyed actor _ ?_
          unfold loginAt
          rw [stored]
          rfl
        · cases found
    rw [same]
    refine looks_ofExcept_bind fun _ _ => looks_reading_bind fun core _ _ checked => .inl ?_
    exact (enrollTeamBotCheck_grounds checked).1
  refine looks_bind active fun account => looks_ofExcept_bind fun _ _ => ?_
  rcases List.mem_cons.mp ground with rfl | ground
  · exact looks_reading_bind fun core _ _ checked => .inl (enrollTeamBotCheck_grounds checked).2
  refine looks_bind (writes_reading _) fun _ => ?_
  exact (normalizeReach_finds g ground).looks_bind (quiet_of_readOnly (normalizeReach_readOnly _ reach))

end Bots

/-- Whatever a call rests on, it looks for before it changes anything. -/
theorem deed_looks (deed : Deed) : ∀ g ∈ deed.grounds, Looks Orderly g deed.method := by
  cases deed with
  | grantRepoAccessChecked => exact grantRepoAccessChecked_looks
  | revokeRepoAccessChecked => exact revokeRepoAccessChecked_looks
  | dismissReview => exact dismissReview_looks
  | account call =>
    cases call with
    | addOrganizationOwner => exact addOrganizationOwner_looks
    | removeOrganizationOwner => exact removeOrganizationOwner_looks
    | createTeamAs => exact createTeamAs_looks
    | addTeamMember => exact addTeamMember_looks
    | removeTeamMember => exact removeTeamMember_looks
    | enrollTeamBot => exact enrollTeamBot_looks
    | grantBotRepository => exact grantBotRepository_looks
    | revokeBotRepositoryGrant => exact revokeBotRepositoryGrant_looks
    | _ => exact fun _ none => nomatch none

end Jeryu.Auth
