import Jeryu.Auth.Runs
import Jeryu.Core.Runs

namespace Jeryu.Auth

open Jeryu.Core KeyedMap LockProgram

/-- The login names an account or a user. -/
def Person (s : State) (login : String) : Prop :=
  (s.accounts.lookup login).isSome ∨ (s.users.lookup login).isSome

/-- No login names a person and an organization. -/
def OnePrincipal (s : State) : Prop :=
  ∀ login, Person s login → s.organizations.lookup login = none

/-- The call writes no login in one kind of table that the other kind holds. -/
def Call.Separate (call : Call) (core : ForgeCore) : Prop :=
  match call with
  | .createUser request => core.state.organizations.lookup request.login = none
  | .ensureUser login => core.state.organizations.lookup login = none
  | .completeAccountActivation challenge .. => ∀ record invitation,
    core.state.auth.activationChallenges.lookup (tokenHash challenge) = some record →
    core.state.auth.invitations.lookup record.invitationId = some invitation →
      core.state.organizations.lookup invitation.canonicalLogin = none
  | .createOrganization request => ¬Person core.state request.login
  | _ => True

/-- The logins a section names anew: none, a person's, or an organization's. -/
inductive Names (separate : Prop) (s s' : State) : Prop where
  | kept (people : ∀ login, Person s' login → Person s login)
      (organizations : ∀ login, s.organizations.lookup login = none →
        s'.organizations.lookup login = none)
  | person (login : String) (free : separate → s.organizations.lookup login = none)
      (people : ∀ other, Person s' other → Person s other ∨ other = login)
      (organizations : s'.organizations = s.organizations)
  | organization (login : String) (free : separate → ¬Person s login)
      (people : ∀ other, Person s' other → Person s other)
      (organizations : ∀ other, s.organizations.lookup other = none →
        s'.organizations.lookup other = none ∨ other = login)

section Names

variable {separate : Prop} {s s' : State} {login : String}

theorem Names.onePrincipal (names : Names separate s s') (apart : separate) (one : OnePrincipal s) :
    OnePrincipal s' := by
  intro other person
  cases names with
  | kept people organizations => exact organizations other (one other (people other person))
  | person login free people organizations =>
    rw [organizations]
    rcases people other person with before | rfl
    · exact one other before
    · exact free apart
  | organization login free people organizations =>
    have before := people other person
    rcases organizations other (one other before) with absent | rfl
    · exact absent
    · exact absurd before (free apart)

theorem names_same (users : s'.users = s.users) (accounts : s'.accounts = s.accounts)
    (organizations : s'.organizations = s.organizations) : Names separate s s' := by
  refine .kept (fun login person => ?_) fun login absent => ?_
  · unfold Person at person ⊢
    rwa [users, accounts] at person
  · rwa [organizations]

theorem Within.names {tables : List Table} (within : Within tables s s')
    (users : Table.users ∉ tables) (accounts : Table.accounts ∉ tables)
    (organizations : Table.organizations ∉ tables) : Names separate s s' :=
  names_same (within _ users) (within _ accounts) (within _ organizations)

/-- An account that is there is rewritten. -/
theorem names_account {account updated : UserAccount} (found : s.accounts.lookup login = some account)
    (users : s'.users = s.users) (accounts : s'.accounts = s.accounts.insert login updated)
    (organizations : s'.organizations = s.organizations) : Names separate s s' := by
  refine .kept (fun other person => ?_) fun other absent => ?_
  · unfold Person at person ⊢
    rw [users, accounts, HashMap.lookup_insert_if] at person
    by_cases same : other = login
    · subst same
      exact .inl (by rw [found]; rfl)
    · rwa [if_neg same] at person
  · rwa [organizations]

theorem lookup_insert_isSome {ν : Type} {m : HashMap String ν} {value : ν} {other : String}
    (known : ((m.insert login value).lookup other).isSome) : (m.lookup other).isSome ∨ other = login := by
  by_cases same : other = login
  · exact .inr same
  · rw [HashMap.lookup_insert_if, if_neg same] at known
    exact .inl known

theorem names_user {user : User} (free : separate → s.organizations.lookup login = none) :
    Names separate s { s with users := s.users.insert login user } := by
  refine .person login free (fun other person => ?_) rfl
  rcases person with known | known
  · exact .inl (.inl known)
  · exact (lookup_insert_isSome known).imp .inr id

theorem names_person {account : UserAccount} {user : User} (free : s.organizations.lookup login = none)
    (users : s'.users = if (s.users.lookup login).isSome then s.users else s.users.insert login user)
    (accounts : s'.accounts = s.accounts.insert login account)
    (organizations : s'.organizations = s.organizations) : Names separate s s' := by
  refine .person login (fun _ => free) (fun other person => ?_) organizations
  unfold Person at person
  rw [users, accounts] at person
  rcases person with known | known
  · exact (lookup_insert_isSome known).imp .inl id
  · split at known
    · exact .inl (.inr known)
    · exact (lookup_insert_isSome known).imp .inr id

theorem names_organization {organization : Organization} (free : separate → ¬Person s login) :
    Names separate s { s with organizations := s.organizations.insert login organization } := by
  refine .organization login free (fun _ person => person) fun other absent => ?_
  by_cases same : other = login
  · exact .inr same
  · refine .inl ?_
    show (s.organizations.insert login organization).lookup other = none
    rw [HashMap.lookup_insert_if, if_neg same]
    exact absent

theorem names_owners {organization organization' : Organization}
    (found : s.organizations.lookup login = some organization) :
    Names separate s { s with organizations := s.organizations.insert login organization' } := by
  refine .kept (fun _ person => person) fun other absent => ?_
  have differs : other ≠ login := fun same => by
    rw [same, found] at absent
    cases absent
  show (s.organizations.insert login organization').lookup other = none
  rw [HashMap.lookup_insert_if, if_neg differs]
  exact absent

theorem Edited.names {account edited : UserAccount} {now : DateTime}
    {answer : Except Failure AccountSummary} (found : s.accounts.lookup login = some account)
    (edit : Edited s login edited now s' answer) : Names separate s s' := by
  cases edit with
  | spoiled failure => exact names_account found rfl rfl rfl
  | moved epoch same => exact names_account found rfl rfl rfl

end Names

section Sections

variable {core : ForgeCore} {separate : Prop} {login : String}

theorem names_refl {s : State} : Names separate s s := names_same rfl rfl rfl

theorem createUser_names {request : CreateUserRequest}
    (free : separate → core.state.organizations.lookup request.login = none) :
    Names separate core.state ((createUserLocked request core).leaves core).state := by
  refine (createUserLocked_ends.mono fun _ next _ made => ?_).leaves names_refl
  obtain ⟨-, user, rfl⟩ := made
  exact names_user free

theorem createAccount_names {role : UserRole} {hash : Except ForgeError String} :
    Names separate core.state ((createAccountLocked login role hash core).leaves core).state := by
  refine (createAccountLocked_ends.mono fun _ next _ made => ?_).leaves names_refl
  obtain ⟨-, free, account, user, -, -, -, rfl⟩ := made
  exact names_person free rfl rfl rfl

theorem reset_names {hash : Except ForgeError String} :
    Names separate core.state ((resetAccountPasswordLocked login hash core).leaves core).state := by
  refine (resetAccountPasswordLocked_ends.mono fun _ next _ made => ?_).leaves names_refl
  obtain ⟨account, passwordHash, found, -, edit⟩ := made
  exact edit.names found

theorem change_names {hash : Except ForgeError String} :
    Names separate core.state ((changeAccountPasswordLocked login hash core).leaves core).state := by
  refine (changeAccountPasswordLocked_ends.mono fun _ next _ made => ?_).leaves names_refl
  obtain ⟨account, passwordHash, found, -, edit⟩ := made
  exact edit.names found

theorem force_names {forced : Bool} :
    Names separate core.state ((forcePasswordChangeLocked login forced core).leaves core).state := by
  refine (forcePasswordChangeLocked_ends.mono fun _ next _ made => ?_).leaves names_refl
  obtain ⟨account, found, ⟨-, rfl⟩ | edit⟩ := made
  · exact names_account found rfl rfl rfl
  · exact edit.names found

theorem transition_names {status : AccountStatus} {allowed : Option (List AccountStatus)} :
    Names separate core.state
      ((transitionAccountStatusLocked login status allowed core).leaves core).state := by
  refine (transitionAccountStatusLocked_ends.mono fun _ next _ made => ?_).leaves names_refl
  obtain ⟨account, found, -, mid, edit, ⟨rfl, -⟩ | ⟨-, rfl⟩⟩ := made
  · exact edit.names found
  · cases edit with
    | spoiled failure => exact names_account found rfl rfl rfl
    | moved epoch same => exact names_account found rfl rfl rfl

theorem recoverPassword_names {tokenId secret : Secret} {checked : VerifiedSpend}
    {passwordHash : String} {now : DateTime} :
    Names separate core.state
      ((recoverPasswordLocked tokenId secret checked passwordHash now core).leaves core).state := by
  refine (recoverPasswordLocked_ends.mono fun _ next _ made => ?_).leaves names_refl
  obtain ⟨account, mid, moved, -, -, found, rfl, edit, -⟩ := made
  cases edit with
  | spoiled failure => exact names_account found rfl rfl rfl
  | moved epoch same => exact names_account found rfl rfl rfl

theorem activation_names {challenge : Digest} {passwordHash : String} {now : DateTime}
    (free : separate → ∀ record invitation,
      core.state.auth.activationChallenges.lookup challenge = some record →
      core.state.auth.invitations.lookup record.invitationId = some invitation →
        core.state.organizations.lookup invitation.canonicalLogin = none) :
    Names separate core.state
      ((completeAccountActivationLocked challenge passwordHash now core).leaves core).state := by
  refine (completeAccountActivationLocked_ends.mono fun _ next _ made => ?_).leaves names_refl
  obtain ⟨record, invitation, account, user, known, -, invited, -, -, -, -, -, named, -, -, rfl⟩ := made
  refine .person account.canonicalLogin (fun apart => ?_) (fun other person => ?_)
    (activated_within .organizations (by decide))
  · rw [named]
    exact free apart record invitation known invited
  · have joined {s : State} : (s.joinTeams account.canonicalLogin
        invitation.intendedBindings.teams).users = s.users := joinTeams_within .users (by decide)
    have stored {s : State} : (s.joinTeams account.canonicalLogin
        invitation.intendedBindings.teams).accounts = s.accounts :=
      joinTeams_within .accounts (by decide)
    unfold Person State.activated at person
    dsimp only at person
    rw [joined, stored] at person
    rcases person with known | known
    · exact (lookup_insert_isSome known).imp .inl id
    · split at known
      · exact .inl (.inr known)
      · exact (lookup_insert_isSome known).imp .inr id

theorem createOrganization_names {request : CreateOrganizationRequest}
    (free : separate → ¬Person core.state request.login) :
    Names separate core.state ((createOrganizationLocked request core).leaves core).state := by
  refine (createOrganizationLocked_ends.mono fun _ next _ made => ?_).leaves names_refl
  obtain ⟨-, organization, rfl⟩ := made
  exact names_organization free

theorem createOrganizationAs_names {actor : String} {displayName : Option String}
    {owners : List String} :
    Names separate core.state
      ((createOrganizationAsLocked actor login displayName owners core).leaves core).state := by
  refine (createOrganizationAsLocked_ends.mono fun _ next _ made => ?_).leaves names_refl
  obtain ⟨-, noAccount, noUser, organization, rfl⟩ := made
  refine names_organization fun _ person => ?_
  unfold Person at person
  simp [noAccount, noUser] at person

theorem addOrganizationOwner_names {actor org : String} :
    Names separate core.state ((addOrganizationOwnerLocked actor org login core).leaves core).state := by
  refine (addOrganizationOwnerLocked_ends.mono fun _ next _ made => ?_).leaves names_refl
  obtain ⟨organization, organization', found, rfl⟩ := made
  exact names_owners found

theorem removeOrganizationOwner_names {actor org : String} :
    Names separate core.state
      ((removeOrganizationOwnerLocked actor org login core).leaves core).state := by
  refine (removeOrganizationOwnerLocked_ends.mono fun _ next _ made => ?_).leaves names_refl
  obtain ⟨organization, organization', found, rfl⟩ := made
  exact names_owners found

/-- Every section, by the tables it writes. -/
theorem Section.names {call : Call} {core core' : ForgeCore} {reply : Option call.Reply}
    (moved : Section call core core' reply) :
    Names (call.Separate core) core.state core'.state := by
  have within := moved.within
  cases moved with
  | audit audited entry => exact names_refl
  | refused audited => exact names_refl
  | createUser => exact createUser_names id
  | ensureUser => exact createUser_names id
  | createAccount => exact createAccount_names
  | createTemporary => exact createAccount_names
  | forceTemporary => exact force_names
  | resetAccountPassword => exact reset_names
  | changeAccountPassword => exact change_names
  | forcePasswordChange => exact force_names
  | transition asks answered => exact transition_names
  | recoverPassword checked passwordHash now => exact recoverPassword_names
  | completeAccountActivation passwordHash now => exact activation_names id
  | createOrganization => exact createOrganization_names id
  | createOrganizationAs name => exact createOrganizationAs_names
  | addOrganizationOwner => exact addOrganizationOwner_names
  | removeOrganizationOwner => exact removeOrganizationOwner_names
  | checkRecovery =>
    exact (checkRecovery_within.names (by decide) (by decide) (by decide))
  | _ => exact within.names (by simp [Call.tables]) (by simp [Call.tables]) (by simp [Call.tables])

end Sections

/-- Where no section names a person by an organization's login, or an organization by a person's,
    no login comes to name both. -/
theorem onePrincipal_of_run {start pool : Pool} (initial : start.Initial)
    (run : Run (accounts anyTicks) (When Call.Separate) start pool) : OnePrincipal pool.shared.state := by
  refine accounts_invariant (I := fun core => OnePrincipal core.state) initial run ?_ ?_ ?_
  · intro core empty login _
    rw [empty]
    rfl
  · intro core core' one ambient
    have same : Names True core.state core'.state :=
      names_same ambient.users ambient.accounts ambient.organizations
    exact same.onePrincipal True.intro one
  · exact fun call update core reply one separate moved => moved.names.onePrincipal separate one

section Demo

def newRoot : Turn Call :=
  .alone (.createAccount "root" "correct horse" .admin (.ok "$argon2id$salt$correct horse"))

def newAcme : Turn Call := .alone (.createOrganizationAs "root" "acme" none ["root"])

/-- `acme` is invited, then made an organization, and then the invitation is taken up. -/
def takenUp : List (Turn Call) :=
  [newRoot, .alone (.createAccountInvitation "root" "acme" "Acme" ⟨.user, []⟩ hour false (.ok ())),
    newAcme, .alone (.startAccountActivation "acme" 1 (.ok ())),
    .alone (.completeAccountActivation 4 "correct horse" (.ok "salt"))]

theorem takenUp_account :
    ((scheduled .durable takenUp).shared.state.accounts.lookup "acme").isSome = true := by
  decide +kernel

theorem takenUp_organization :
    ((scheduled .durable takenUp).shared.state.organizations.lookup "acme").isSome = true := by
  decide +kernel

/-- Activation looks for an account of the invited login, not for an organization. -/
theorem invited_login_names_two :
    ∃ pool : Pool, pool.Reachable ∧ ∃ login, (pool.shared.state.accounts.lookup login).isSome ∧
      (pool.shared.state.organizations.lookup login).isSome :=
  ⟨scheduled .durable takenUp, scheduled_reachable rfl, "acme", takenUp_account, takenUp_organization⟩

/-- An organization, and a user of another login. -/
def settledApart : List (Turn Call) :=
  [newRoot, newAcme, .alone (.createUser ⟨"ada", none, none⟩)]

theorem settledApart_plays :
    Config.Plays (accounts anyTicks) (When Call.Separate) ⟨.durable, []⟩ settledApart := by
  refine ⟨⟨True.intro, Program.permits_of_every (fun _ _ => True.intro) _ _⟩,
    ⟨True.intro, Program.permits_of_every (fun _ _ => True.intro) _ _⟩, ⟨True.intro, ?_, True.intro⟩,
    True.intro⟩
  show AList.lookup "ada" _ = none
  decide +kernel

theorem settledApart_onePrincipal : ∃ core, core = ForgeCore.durable ∧
    OnePrincipal (scheduled core settledApart).shared.state :=
  ⟨_, rfl, onePrincipal_of_run ⟨rfl, rfl⟩ (play_run settledApart_plays)⟩

end Demo

end Jeryu.Auth
