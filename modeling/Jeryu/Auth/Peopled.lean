import Jeryu.Auth.BotNames

/-!
Accounts under their own logins, and organizations and teams of people who have one.
-/

namespace Jeryu.Auth

open Jeryu.Core KeyedMap LockProgram

section People

variable {s s' : State} {login person : String}

/-- A person an account was stored for. -/
def Known (s : State) (person : String) : Prop := ∃ login, loginAt s login = some person

theorem activePerson_ok (found : s.activePerson login = .ok person) : Known s person := by
  unfold State.activePerson at found
  dsimp only at found
  split at found
  · next account stored =>
    split at found
    · cases found
      exact ⟨_, loginAt_found stored⟩
    · cases found
  · cases found

theorem joined_known {logins people joined : List String}
    (folded : logins.foldlM (fun people login => do
      let login ← s.activePerson login
      return if people.contains login then people else people ++ [login]) people = .ok joined)
    (known : ∀ person ∈ people, Known s person) : ∀ person ∈ joined, Known s person := by
  induction logins generalizing people with
  | nil =>
    cases folded
    exact known
  | cons login rest ih =>
    rw [List.foldlM_cons] at folded
    cases active : s.activePerson login with
    | error error =>
      rw [active] at folded
      cases folded
    | ok person =>
      rw [active] at folded
      refine ih folded fun other member => ?_
      by_cases already : people.contains person = true
      · rw [if_pos already] at member
        exact known other member
      · rw [if_neg already] at member
        rcases List.mem_append.mp member with old | new
        · exact known other old
        · rw [List.mem_singleton.mp new]
          exact activePerson_ok active

theorem activePeople_ok {logins people : List String} {limit : Nat} {role : String}
    (found : s.activePeople logins limit role = .ok people) : ∀ person ∈ people, Known s person := by
  unfold State.activePeople at found
  dsimp only at found
  cases folded : logins.foldlM (fun people login => do
      let login ← s.activePerson login
      return if people.contains login then people else people ++ [login]) [] with
  | error error =>
    rw [folded] at found
    cases found
  | ok joined =>
    rw [folded] at found
    change (if joined.length > limit then throw _ else pure (sorted joined)) = _ at found
    split at found
    · cases found
    · cases found
      intro person member
      exact joined_known folded (fun _ none => nomatch none) person (mem_sorted.mp member)

/-- Whom a section names as an owner or a member: whoever was one, or a person. -/
def Joins (s s' : State) (before : Prop) (person : String) : Prop :=
  before ∨ Known s person ∨ loginAt s' person = some person

/-- The owners a section leaves. -/
def OwnersFrom (s s' : State) : Prop :=
  ∀ org organization, s'.organizations.lookup org = some organization → ∀ owner ∈ organization.owners,
    Joins s s' (∃ before, s.organizations.lookup org = some before ∧ owner ∈ before.owners) owner

/-- The team members a section leaves. -/
def MembersFrom (named : String → Prop) (s s' : State) : Prop :=
  ∀ key team, s'.auth.teams.lookup key = some team → ∀ member ∈ team.members, named member ∨
    Joins s s' (∃ before, s.auth.teams.lookup key = some before ∧ member ∈ before.members) member

theorem ownersFrom_same (same : s'.organizations = s.organizations) : OwnersFrom s s' := by
  intro org organization found owner owns
  rw [same] at found
  exact .inl ⟨organization, found, owns⟩

theorem ownersFrom_insert {org : String} {organization : Organization}
    (stored : s'.organizations = s.organizations.insert org organization)
    (owners : ∀ owner ∈ organization.owners,
      (∃ before, s.organizations.lookup org = some before ∧ owner ∈ before.owners) ∨ Known s owner) :
    OwnersFrom s s' := by
  intro other found there owner owns
  rw [stored, HashMap.lookup_insert_if] at there
  split at there
  · next same =>
    cases there
    rw [same]
    exact (owners owner owns).imp id .inl
  · exact .inl ⟨found, there, owns⟩

variable {named : String → Prop}

theorem membersFrom_same (same : s'.auth.teams = s.auth.teams) : MembersFrom named s s' := by
  intro key team found member belongs
  rw [same] at found
  exact .inr (.inl ⟨team, found, belongs⟩)

theorem membersFrom_insert {key : String × String} {team : Team}
    (stored : s'.auth.teams = s.auth.teams.insert key team)
    (members : ∀ member ∈ team.members, named member ∨
      (∃ before, s.auth.teams.lookup key = some before ∧ member ∈ before.members) ∨ Known s member) :
    MembersFrom named s s' := by
  intro other found there member belongs
  rw [stored, HashMap.lookup_insert_if] at there
  split at there
  · next same =>
    cases there
    rw [same]
    exact (members member belongs).imp id fun joins => joins.imp id .inl
  · exact .inr (.inl ⟨found, there, belongs⟩)

/-- Whoever accepts an invitation is added to the teams it bound. -/
theorem joinTeams_members {bindings : List String} {key : String × String} {team : Team}
    (found : (s.joinTeams login bindings).auth.teams.lookup key = some team) :
    ∀ member ∈ team.members, member = login ∨
      ∃ before, s.auth.teams.lookup key = some before ∧ member ∈ before.members := by
  induction bindings generalizing s with
  | nil => exact fun member belongs => .inr ⟨team, found, belongs⟩
  | cons binding rest ih =>
    unfold State.joinTeams at found
    split at found
    · exact ih found
    · next slot named =>
      split at found
      · exact ih found
      · next stored there =>
        split at found
        · exact ih found
        · intro member belongs
          rcases ih found member belongs with same | ⟨before, known, inside⟩
          · exact .inl same
          · change (s.auth.teams.insert slot _).lookup key = some before at known
            rw [HashMap.lookup_insert_if] at known
            split at known
            · next same =>
              cases known
              rcases List.mem_append.mp (mem_sorted.mp inside) with old | new
              · exact .inr ⟨stored, by rw [same]; exact there, old⟩
              · exact .inl (List.mem_singleton.mp new)
            · exact .inr ⟨before, known, inside⟩

end People

section Sections

variable {core : ForgeCore} {actor org login : String} {named : String → Prop}

theorem createOrganizationLocked_owners {request : CreateOrganizationRequest} :
    Outcome.Ends (fun _ next _ => OwnersFrom core.state next) (createOrganizationLocked request core) := by
  unfold createOrganizationLocked
  refine ends_ite (fun _ => True.intro) fun _ => ?_
  exact ownersFrom_insert rfl fun _ none => nomatch none

theorem createOrganizationAsLocked_owners {displayName : Option String} {owners : List String} :
    Outcome.Ends (fun _ next _ => OwnersFrom core.state next)
      (createOrganizationAsLocked actor login displayName owners core) := by
  unfold createOrganizationAsLocked
  refine ends_ite (fun _ => True.intro) fun _ => ends_ite (fun _ => True.intro) fun _ => ?_
  split
  · exact True.intro
  · exact True.intro
  · next people found =>
    exact ownersFrom_insert rfl fun owner owns => .inr (activePeople_ok found owner owns)

theorem addOrganizationOwnerLocked_owners :
    Outcome.Ends (fun _ next _ => OwnersFrom core.state next)
      (addOrganizationOwnerLocked actor org login core) := by
  unfold addOrganizationOwnerLocked
  cases managed : core.state.managedOrganization actor org with
  | error error => exact True.intro
  | ok organization =>
    have stored := managedOrganization_ok managed
    dsimp only
    split
    · exact True.intro
    · next person active =>
      refine ends_ite (fun _ => True.intro) fun _ => ends_ite (fun _ => True.intro) fun _ => ?_
      refine ownersFrom_insert rfl fun owner owns => ?_
      rcases List.mem_append.mp (mem_sorted.mp owns) with old | new
      · exact .inl ⟨organization, stored, old⟩
      · rw [List.mem_singleton.mp new]
        exact .inr (activePerson_ok active)

theorem removeOrganizationOwnerLocked_owners :
    Outcome.Ends (fun _ next _ => OwnersFrom core.state next)
      (removeOrganizationOwnerLocked actor org login core) := by
  unfold removeOrganizationOwnerLocked
  cases managed : core.state.managedOrganization actor org with
  | error error => exact True.intro
  | ok organization =>
    have stored := managedOrganization_ok managed
    refine ends_ite (fun _ => True.intro) fun _ => ends_ite (fun _ => True.intro) fun _ => ?_
    exact ownersFrom_insert rfl fun owner owns =>
      .inl ⟨organization, stored, (List.mem_filter.mp owns).1⟩

theorem createTeamLocked_members {slug : String} {request : CreateTeamRequest}
    (names : ∀ member ∈ request.members, named member) :
    Outcome.Ends (fun _ next _ => MembersFrom named core.state next)
      (createTeamLocked org slug request core) := by
  unfold createTeamLocked
  refine ends_ite (fun _ => True.intro) fun _ => ends_ite (fun _ => True.intro) fun _ => ?_
  exact membersFrom_insert rfl fun member belongs => .inl (names member belongs)

theorem createTeamAsLocked_members {name slug : String} {members : List String} :
    Outcome.Ends (fun _ next _ => MembersFrom named core.state next)
      (createTeamAsLocked actor org name slug members core) := by
  unfold createTeamAsLocked
  split
  · exact True.intro
  · refine ends_ite (fun _ => True.intro) fun _ => ?_
    split
    · exact True.intro
    · next people found =>
      exact membersFrom_insert rfl fun member belongs =>
        .inr (.inr (activePeople_ok found member belongs))

theorem addTeamMemberLocked_members {team : String} :
    Outcome.Ends (fun _ next _ => MembersFrom named core.state next)
      (addTeamMemberLocked actor org team login core) := by
  unfold addTeamMemberLocked
  split
  · exact True.intro
  · cases stored : core.state.auth.teams.lookup (org, team) with
    | none => exact True.intro
    | some before =>
      dsimp only
      split
      · exact True.intro
      · next person active =>
        refine ends_ite (fun _ => True.intro) fun _ => ends_ite (fun _ => True.intro) fun _ => ?_
        refine membersFrom_insert rfl fun member belongs => .inr ?_
        rcases List.mem_append.mp (mem_sorted.mp belongs) with old | new
        · exact .inl ⟨before, stored, old⟩
        · rw [List.mem_singleton.mp new]
          exact .inr (activePerson_ok active)

theorem removeTeamMemberLocked_members {team : String} {now : DateTime} :
    Outcome.Ends (fun _ next _ => MembersFrom named core.state next)
      (removeTeamMemberLocked actor org team login now core) := by
  unfold removeTeamMemberLocked
  split
  · exact True.intro
  · cases stored : core.state.auth.teams.lookup (org, team) with
    | none => exact True.intro
    | some before =>
      refine ends_ite (fun _ => True.intro) fun _ => ?_
      refine membersFrom_insert rfl fun member belongs => .inr (.inl ⟨before, stored, ?_⟩)
      exact (List.mem_filter.mp belongs).1

/-- Every section, by the owners it leaves. -/
theorem Section.ownersFrom {call : Call} {core core' : ForgeCore} {reply : Option call.Reply}
    (moved : Section call core core' reply) : OwnersFrom core.state core'.state := by
  have within := moved.within
  cases moved with
  | audit audited entry => exact ownersFrom_same rfl
  | refused audited => exact ownersFrom_same rfl
  | createOrganization =>
    exact createOrganizationLocked_owners.leaves (ownersFrom_same rfl)
  | createOrganizationAs name => exact createOrganizationAsLocked_owners.leaves (ownersFrom_same rfl)
  | addOrganizationOwner => exact addOrganizationOwnerLocked_owners.leaves (ownersFrom_same rfl)
  | removeOrganizationOwner => exact removeOrganizationOwnerLocked_owners.leaves (ownersFrom_same rfl)
  | transition asks answered => exact ownersFrom_same (transition_within .organizations (by decide))
  | _ => exact ownersFrom_same (within .organizations (by simp [Call.tables, credentialTables]))

/-- Every section, by the members it leaves: `create_team` takes them as they are named. -/
theorem Section.membersFrom {call : Call} {core core' : ForgeCore} {reply : Option call.Reply}
    (moved : Section call core core' reply) :
    MembersFrom (fun member => ∃ org request, call = .createTeam org request ∧ member ∈ request.members)
      core.state core'.state := by
  have within := moved.within
  cases moved with
  | audit audited entry => exact membersFrom_same rfl
  | refused audited => exact membersFrom_same rfl
  | createTeam slug =>
    exact (createTeamLocked_members fun member belongs => ⟨_, _, rfl, belongs⟩).leaves
      (membersFrom_same rfl)
  | createTeamAs slug => exact createTeamAsLocked_members.leaves (membersFrom_same rfl)
  | addTeamMember => exact addTeamMemberLocked_members.leaves (membersFrom_same rfl)
  | removeTeamMember now => exact removeTeamMemberLocked_members.leaves (membersFrom_same rfl)
  | completeAccountActivation passwordHash now =>
    refine (completeAccountActivationLocked_ends.mono fun _ next _ made => ?_).leaves (membersFrom_same rfl)
    obtain ⟨record, invitation, account, user, -, -, -, -, -, -, -, -, -, -, -, rfl⟩ := made
    intro key team found member belongs
    refine .inr ?_
    rcases joinTeams_members found member belongs with rfl | before
    · refine .inr (.inr ?_)
      unfold loginAt
      rw [activated_accounts, HashMap.lookup_insert_self]
      rfl
    · exact .inl before
  | transition asks answered => exact membersFrom_same (transition_within .teams (by decide))
  | _ => exact membersFrom_same (within .teams (by simp [Call.tables, credentialTables]))

end Sections

section Peopled

variable {s s' : State} {core core' : ForgeCore} {person : String}

/-- Every account is stored under its login, and every owner and member has an account. -/
structure Peopled (s : State) : Prop where
  keyed : ∀ login person, loginAt s login = some person → person = login
  owners : ∀ org organization, s.organizations.lookup org = some organization →
    ∀ owner ∈ organization.owners, (s.accounts.lookup owner).isSome
  members : ∀ key team, s.auth.teams.lookup key = some team →
    ∀ member ∈ team.members, (s.accounts.lookup member).isSome

theorem peopled_empty : Peopled .empty where
  keyed _ _ found := nomatch found
  owners _ _ found := nomatch found
  members _ _ found := nomatch found

theorem loginAt_isSome {login : String} : (loginAt s login).isSome = (s.accounts.lookup login).isSome :=
  Option.isSome_map ..

theorem Peopled.known (peopled : Peopled s) (known : Known s person) :
    (s.accounts.lookup person).isSome := by
  obtain ⟨login, found⟩ := known
  rw [← loginAt_isSome, peopled.keyed login person found, found]
  rfl

/-- An account that is there stays. -/
theorem AccountsFrom.stays {new : String → Prop} (accounts : AccountsFrom new s s') {login : String}
    (there : (s.accounts.lookup login).isSome) : (s'.accounts.lookup login).isSome := by
  rw [← loginAt_isSome] at there ⊢
  rcases accounts login with same | ⟨-, made⟩
  · rwa [same]
  · rw [made]
    rfl

theorem Joins.account {before : Prop} {new : String → Prop} (joins : Joins s s' before person)
    (peopled : Peopled s) (accounts : AccountsFrom new s s')
    (there : before → (s.accounts.lookup person).isSome) : (s'.accounts.lookup person).isSome := by
  rcases joins with old | known | made
  · exact accounts.stays (there old)
  · exact accounts.stays (peopled.known known)
  · rw [← loginAt_isSome, made]
    rfl

/-- The members `create_team` is asked for have accounts. -/
def Call.NamesAccounts (call : Call) (core : ForgeCore) : Prop :=
  match call with
  | .createTeam _ request => ∀ member ∈ request.members, (core.state.accounts.lookup member).isSome
  | _ => True

theorem Peopled.step {call : Call} {reply : Option call.Reply} (peopled : Peopled core.state)
    (moved : Section call core core' reply) (names : call.NamesAccounts core) : Peopled core'.state := by
  have accounts := moved.accountsFrom
  refine ⟨fun login person found => ?_, fun org organization found owner owns => ?_,
    fun key team found member belongs => ?_⟩
  · rcases accounts login with same | ⟨-, made⟩
    · exact peopled.keyed login person (by rwa [← same])
    · rw [made] at found
      exact (Option.some.inj found).symm
  · have joins := moved.ownersFrom org organization found owner owns
    exact joins.account peopled accounts fun ⟨before, stored, inside⟩ =>
      peopled.owners org before stored owner inside
  · rcases moved.membersFrom key team found member belongs with ⟨org, request, rfl, asked⟩ | joins
    · exact accounts.stays (names member asked)
    · exact joins.account peopled accounts fun ⟨before, stored, inside⟩ =>
        peopled.members key before stored member inside

theorem Peopled.same (peopled : Peopled s) (accounts : s'.accounts = s.accounts)
    (organizations : s'.organizations = s.organizations) (teams : s'.auth.teams = s.auth.teams) :
    Peopled s' := by
  obtain ⟨keyed, owners, members⟩ := peopled
  have logins (login : String) : loginAt s' login = loginAt s login := by
    unfold loginAt
    rw [accounts]
  refine ⟨fun login person found => keyed login person (by rwa [← logins]), ?_, ?_⟩
  · rw [organizations, accounts]
    exact owners
  · rw [teams, accounts]
    exact members

end Peopled

end Jeryu.Auth
