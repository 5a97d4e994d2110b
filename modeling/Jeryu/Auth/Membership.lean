import Jeryu.Auth.Peopled
import Jeryu.Auth.Principals
import Jeryu.Library.SortedSet

/-!
Owners and members as lists: in order, without repeats, and no longer than allowed. An activation adds
to the teams of its invitation without looking at how many are there.
-/

namespace Jeryu.Auth

open Jeryu.Core KeyedMap LockProgram

/-- In order, without repeats, at most `limit`. -/
structure Rostered (limit : Nat) (people : List String) : Prop where
  strict : people.Pairwise (· < ·)
  few : people.length ≤ limit

section Lists

variable {limit : Nat} {people : List String} {login : String}

theorem sorted_strict (apart : people.Nodup) : (sorted people).Pairwise (· < ·) := by
  have perm : (sorted people).Perm people := List.perm_insertionSort _ people
  have ordered : (sorted people).Pairwise (· ≤ ·) := List.pairwise_insertionSort _ people
  have distinct : (sorted people).Pairwise (· ≠ ·) := perm.nodup_iff.2 apart
  exact (ordered.and distinct).imp fun both => lt_of_le_of_ne both.1 both.2

theorem length_sorted : (sorted people).length = people.length := (List.perm_insertionSort _ people).length_eq

theorem rostered_sorted (apart : people.Nodup) (few : people.length ≤ limit) : Rostered limit (sorted people) :=
  ⟨sorted_strict apart, by rwa [length_sorted]⟩

theorem Rostered.nodup (rostered : Rostered limit people) : people.Nodup :=
  SortedSet.nodup_of_pairwise rostered.strict

theorem Rostered.join (rostered : Rostered limit people) (absent : people.contains login = false)
    (room : people.length < limit) : Rostered limit (sorted (people ++ [login])) := by
  apply rostered_sorted
  · have new : login ∉ people := by
      intro member
      rw [List.contains_iff_mem.2 member] at absent
      cases absent
    simpa [List.nodup_append] using ⟨rostered.nodup, fun other member => ne_of_mem_of_not_mem member new⟩
  · rw [List.length_append, List.length_singleton]
    omega

theorem Rostered.leave (rostered : Rostered limit people) : Rostered limit (people.filter (· != login)) := by
  constructor
  · exact rostered.strict.filter _
  · exact (List.length_filter_le _ _).trans rostered.few

/-- Someone is left where there was more than one. -/
theorem Rostered.left (rostered : Rostered limit people) (belongs : people.contains login = true)
    (more : people.length ≠ 1) : people.filter (· != login) ≠ [] := by
  intro none
  have only : ∀ other ∈ people, other = login := by
    intro other member
    by_contra different
    have kept : other ∈ people.filter (· != login) := List.mem_filter.2 ⟨member, by simpa using different⟩
    rw [none] at kept
    cases kept
  have replicated : people = List.replicate people.length login := List.eq_replicate_iff.2 ⟨rfl, only⟩
  have single : people.length ≤ 1 := by
    have apart := rostered.nodup
    rw [replicated] at apart
    exact List.nodup_replicate.1 apart
  have present : 0 < people.length := List.length_pos_of_mem (List.contains_iff_mem.1 belongs)
  omega

theorem joined_nodup {s : State} {logins joined : List String}
    (folded : logins.foldlM (fun people login => do
      let login ← s.activePerson login
      return if people.contains login then people else people ++ [login]) people = .ok joined)
    (apart : people.Nodup) : joined.Nodup := by
  induction logins generalizing people with
  | nil =>
    cases folded
    exact apart
  | cons login rest ih =>
    rw [List.foldlM_cons] at folded
    cases active : s.activePerson login with
    | error error =>
      rw [active] at folded
      cases folded
    | ok person =>
      rw [active] at folded
      apply ih folded
      by_cases already : people.contains person = true
      · rw [if_pos already]
        exact apart
      · rw [if_neg already]
        have new : person ∉ people := fun member => already (List.contains_iff_mem.2 member)
        simpa [List.nodup_append] using ⟨apart, fun other member => ne_of_mem_of_not_mem member new⟩

theorem activePeople_rostered {s : State} {logins : List String} {role : String}
    (found : s.activePeople logins limit role = .ok people) : Rostered limit people := by
  unfold State.activePeople at found
  dsimp only at found
  cases folded : logins.foldlM (fun people login => do
      let login ← s.activePerson login
      return if people.contains login then people else people ++ [login]) [] with
  | error error =>
    rw [folded] at found
    cases found
  | ok joined =>
    rw [folded] at found
    change (if joined.length > limit then throw _ else pure (sorted joined)) = _ at found
    split at found
    · cases found
    · next few =>
      cases found
      exact rostered_sorted (joined_nodup folded List.nodup_nil) (by omega)

end Lists

/-- An organization that a forge administrator made for its owners keeps one. -/
def Governed (organization : Organization) : Prop :=
  Rostered maxOwners organization.owners ∧ (organization.createdBy.isSome → organization.owners ≠ [])

def Governs (s : State) : Prop := s.organizations.Every fun _ organization => Governed organization

def Staffs (s : State) : Prop := s.auth.teams.Every fun _ team => Rostered maxMembers team.members

section Owners

/-- The organization a call makes or whose owners it changes. -/
def Call.organization : Call → Option String
  | .createOrganization request => some request.login
  | .createOrganizationAs _ login .. => some login
  | .addOrganizationOwner _ org _ | .removeOrganizationOwner _ org _ => some org
  | _ => none

/-- An organization is as it was, or stored anew under its login. -/
def Reorganized (named : Option String) (s s' : State) : Prop :=
  ∀ org, s'.organizations.lookup org = s.organizations.lookup org ∨ named = some org ∧
    ∃ organization, s'.organizations.lookup org = some organization ∧ (Governs s → Governed organization)

variable {core : ForgeCore} {actor org login : String} {s s' : State}

theorem reorganized_insert {organization : Organization} (governed : Governs s → Governed organization)
    (stored : s'.organizations = s.organizations.insert org organization) : Reorganized (some org) s s' := by
  intro other
  rw [stored, HashMap.lookup_insert_if]
  split
  · next same => exact .inr ⟨by rw [same], organization, rfl, governed⟩
  · exact .inl rfl

theorem Reorganized.governs {named : Option String} (stored : Reorganized named s s') (governs : Governs s) :
    Governs s' := by
  intro org organization found
  rcases stored org with same | ⟨-, other, there, governed⟩
  · rw [same] at found
    exact governs org organization found
  · rw [there] at found
    cases found
    exact governed governs

theorem createOrganizationLocked_stores {request : CreateOrganizationRequest} :
    Outcome.Ends (fun _ next _ => Reorganized (some request.login) core.state next)
      (createOrganizationLocked request core) := by
  unfold createOrganizationLocked
  refine ends_ite (fun _ => True.intro) fun _ => ?_
  have governed : Governed ⟨core.uuids, request.login, request.displayName, core.now, [], none⟩ :=
    ⟨⟨.nil, Nat.zero_le _⟩, fun made => nomatch made⟩
  exact reorganized_insert (fun _ => governed) rfl

theorem createOrganizationAsLocked_stores {displayName : Option String} {owners : List String} :
    Outcome.Ends (fun _ next _ => Reorganized (some login) core.state next)
      (createOrganizationAsLocked actor login displayName owners core) := by
  unfold createOrganizationAsLocked
  refine ends_ite (fun _ => True.intro) fun _ => ends_ite (fun _ => True.intro) fun _ => ?_
  split
  · exact True.intro
  · exact True.intro
  · next people some found => exact reorganized_insert (fun _ => ⟨activePeople_rostered found, fun _ => some⟩) rfl

theorem addOrganizationOwnerLocked_stores :
    Outcome.Ends (fun _ next _ => Reorganized (some org) core.state next)
      (addOrganizationOwnerLocked actor org login core) := by
  unfold addOrganizationOwnerLocked
  cases managed : core.state.managedOrganization actor org with
  | error error => exact True.intro
  | ok organization =>
    dsimp only
    split
    · exact True.intro
    · next person active =>
      refine ends_ite (fun _ => True.intro) fun absent => ends_ite (fun _ => True.intro) fun room => ?_
      apply reorganized_insert _ rfl
      intro governs
      have governed := governs org organization (managedOrganization_ok managed)
      have added : person ∈ sorted (organization.owners ++ [person]) := mem_sorted.2 (by simp)
      exact ⟨governed.1.join (by simpa using absent) (Nat.lt_of_not_ge room), fun _ => List.ne_nil_of_mem added⟩

theorem removeOrganizationOwnerLocked_stores :
    Outcome.Ends (fun _ next _ => Reorganized (some org) core.state next)
      (removeOrganizationOwnerLocked actor org login core) := by
  unfold removeOrganizationOwnerLocked
  cases managed : core.state.managedOrganization actor org with
  | error error => exact True.intro
  | ok organization =>
    refine ends_ite (fun _ => True.intro) fun belongs => ends_ite (fun _ => True.intro) fun more => ?_
    apply reorganized_insert _ rfl
    intro governs
    have governed := governs org organization (managedOrganization_ok managed)
    exact ⟨governed.1.leave, fun _ => governed.1.left (by simpa using belongs) more⟩

theorem Section.reorganized {call : Call} {core core' : ForgeCore} {reply : Option call.Reply}
    (moved : Section call core core' reply) : Reorganized call.organization core.state core'.state := by
  have same : ∀ {named : Option String} {s : State}, s.organizations = core.state.organizations →
      Reorganized named core.state s := by
    intro named s same org
    rw [same]
    exact .inl rfl
  have within := moved.within
  cases moved with
  | audit audited entry => exact same rfl
  | refused audited => exact same rfl
  | createOrganization => exact createOrganizationLocked_stores.leaves (same rfl)
  | createOrganizationAs name => exact createOrganizationAsLocked_stores.leaves (same rfl)
  | addOrganizationOwner => exact addOrganizationOwnerLocked_stores.leaves (same rfl)
  | removeOrganizationOwner => exact removeOrganizationOwnerLocked_stores.leaves (same rfl)
  | transition asks answered => exact same (transition_within .organizations (by decide))
  | _ => exact same (within .organizations (by simp [Call.tables, credentialTables]))

end Owners

section Room

/-- The teams an invitation binds have room for one more. -/
def Roomy (s : State) (bindings : List String) : Prop :=
  ∀ binding ∈ bindings, ∀ key team, splitTeamBinding binding = .ok key → s.auth.teams.lookup key = some team →
    team.members.length < maxMembers

/-- What an activation is about to take up. -/
def Opens (s : State) (challenge : Digest) (invitation : AccountInvitation) : Prop :=
  ∃ record, s.auth.activationChallenges.lookup challenge = some record ∧ record.consumedAt = none ∧
    s.auth.invitations.lookup record.invitationId = some invitation ∧ invitation.isOpen = true ∧
    s.accounts.lookup invitation.canonicalLogin = none

/-- The calls that make organizations and teams as an administrator and an owner may, each activation
    with room in the teams it joins. -/
def Call.FindsRoom (call : Call) (core : ForgeCore) : Prop :=
  match call with
  | .createTeam .. => False
  | .completeAccountActivation challenge .. => ∀ invitation, Opens core.state (tokenHash challenge) invitation →
      Roomy core.state invitation.intendedBindings.teams
  | _ => True

/-- The teams a call is about: a new one, the one it names, or those of an invitation. -/
def Call.Concerns (call : Call) (core : ForgeCore) (key : String × String) : Prop :=
  match call with
  | .createTeam org _ | .createTeamAs _ org .. => key.1 = org ∧ core.state.auth.teams.lookup key = none
  | .addTeamMember _ org team _ | .removeTeamMember _ org team _ => key = (org, team)
  | .completeAccountActivation challenge .. => ∃ invitation, Opens core.state (tokenHash challenge) invitation ∧
      ∃ binding ∈ invitation.intendedBindings.teams, splitTeamBinding binding = .ok key
  | _ => False

end Room

section Members

variable {core : ForgeCore} {actor org login : String} {s s' : State}

/-- A team is as it was, or stored anew where a call is about it. -/
def Restaffed (about : String × String → Prop) (room : Prop) (s s' : State) : Prop :=
  ∀ key, s'.auth.teams.lookup key = s.auth.teams.lookup key ∨ about key ∧
    ∃ team, s'.auth.teams.lookup key = some team ∧ (Staffs s → room → Rostered maxMembers team.members)

theorem restaffed_insert {about : String × String → Prop} {room : Prop} {key : String × String} {team : Team}
    (concerned : about key) (rostered : Staffs s → room → Rostered maxMembers team.members)
    (stored : s'.auth.teams = s.auth.teams.insert key team) : Restaffed about room s s' := by
  intro other
  rw [stored, HashMap.lookup_insert_if]
  split
  · next same =>
    subst same
    exact .inr ⟨concerned, team, rfl, rostered⟩
  · exact .inl rfl

theorem Restaffed.staffs {about : String × String → Prop} {room : Prop} (stored : Restaffed about room s s') (met : room)
    (staffs : Staffs s) : Staffs s' := by
  intro key team found
  rcases stored key with same | ⟨-, other, there, rostered⟩
  · rw [same] at found
    exact staffs key team found
  · rw [there] at found
    cases found
    exact rostered staffs met

/-- A team is as it was, or bound and joined. -/
theorem joinTeams_lookup {bindings : List String} (key : String × String) :
    (s.joinTeams login bindings).auth.teams.lookup key = s.auth.teams.lookup key ∨
      ∃ before, s.auth.teams.lookup key = some before ∧ before.members.contains login = false ∧
        (∃ binding ∈ bindings, splitTeamBinding binding = .ok key) ∧
        (s.joinTeams login bindings).auth.teams.lookup key =
          some { before with members := sorted (before.members ++ [login]) } := by
  induction bindings generalizing s with
  | nil => exact .inl rfl
  | cons binding rest ih =>
    have later : ∀ {s : State}, (s.joinTeams login rest).auth.teams.lookup key = s.auth.teams.lookup key ∨
        ∃ before, s.auth.teams.lookup key = some before ∧ before.members.contains login = false ∧
          (∃ binding' ∈ binding :: rest, splitTeamBinding binding' = .ok key) ∧
          (s.joinTeams login rest).auth.teams.lookup key =
            some { before with members := sorted (before.members ++ [login]) } := by
      intro s
      rcases ih (s := s) with same | ⟨before, there, absent, ⟨other, member, names⟩, joined⟩
      · exact .inl same
      · exact .inr ⟨before, there, absent, ⟨other, List.mem_cons_of_mem _ member, names⟩, joined⟩
    unfold State.joinTeams
    split
    · exact later
    · next slot names =>
      split
      · exact later
      · next team there =>
        split
        · exact later
        · next absent =>
          have stored : (s.withTeam slot.1 slot.2 { team with members := sorted (team.members ++ [login]) }).auth.teams =
              s.auth.teams.insert slot { team with members := sorted (team.members ++ [login]) } := rfl
          by_cases same : key = slot
          · subst same
            have joined : login ∈ sorted (team.members ++ [login]) := mem_sorted.2 (by simp)
            refine .inr ⟨team, there, by simpa using absent, ⟨binding, List.mem_cons_self, names⟩, ?_⟩
            rcases ih (s := s.withTeam key.1 key.2 { team with members := sorted (team.members ++ [login]) }) with
              kept | ⟨before, again, out, -, -⟩
            · rw [kept, stored, HashMap.lookup_insert_self]
            · rw [stored, HashMap.lookup_insert_self] at again
              cases again
              rw [List.contains_iff_mem.2 joined] at out
              cases out
          · have untouched : (s.withTeam slot.1 slot.2
                { team with members := sorted (team.members ++ [login]) }).auth.teams.lookup key =
                s.auth.teams.lookup key := by rw [stored, HashMap.lookup_insert_if, if_neg same]
            rw [← untouched]
            exact later

/-- The teams after an activation. -/
theorem activated_lookup {challenge : Digest} {record : ActivationChallenge} {invitation : AccountInvitation}
    {account : UserAccount} {user : User} {now : DateTime} (key : String × String) :
    (s.activated challenge record invitation account user now).auth.teams.lookup key = s.auth.teams.lookup key ∨
      ∃ before, s.auth.teams.lookup key = some before ∧ before.members.contains account.canonicalLogin = false ∧
        (∃ binding ∈ invitation.intendedBindings.teams, splitTeamBinding binding = .ok key) ∧
        (s.activated challenge record invitation account user now).auth.teams.lookup key =
          some { before with members := sorted (before.members ++ [account.canonicalLogin]) } := joinTeams_lookup key

theorem createTeamLocked_stores {slug : String} {request : CreateTeamRequest} :
    Outcome.Ends (fun _ next _ => Restaffed (fun key => key.1 = org ∧ core.state.auth.teams.lookup key = none) False
      core.state next) (createTeamLocked org slug request core) := by
  unfold createTeamLocked
  refine ends_ite (fun _ => True.intro) fun _ => ends_ite (fun _ => True.intro) fun free => ?_
  exact restaffed_insert ⟨rfl, by simpa using free⟩ (fun _ => False.elim) rfl

theorem createTeamAsLocked_stores {name slug : String} {members : List String} :
    Outcome.Ends (fun _ next _ => Restaffed (fun key => key.1 = org ∧ core.state.auth.teams.lookup key = none) True
      core.state next) (createTeamAsLocked actor org name slug members core) := by
  unfold createTeamAsLocked
  split
  · exact True.intro
  · refine ends_ite (fun _ => True.intro) fun free => ?_
    split
    · exact True.intro
    · next people found =>
      exact restaffed_insert ⟨rfl, by simpa using free⟩ (fun _ _ => activePeople_rostered found) rfl

theorem addTeamMemberLocked_stores {team : String} :
    Outcome.Ends (fun _ next _ => Restaffed (· = (org, team)) True core.state next)
      (addTeamMemberLocked actor org team login core) := by
  unfold addTeamMemberLocked
  split
  · exact True.intro
  · cases stored : core.state.auth.teams.lookup (org, team) with
    | none => exact True.intro
    | some before =>
      dsimp only
      split
      · exact True.intro
      · next person active =>
        refine ends_ite (fun _ => True.intro) fun absent => ends_ite (fun _ => True.intro) fun room => ?_
        have rostered : Staffs core.state → True → Rostered maxMembers (sorted (before.members ++ [person])) := by
          intro staffs _
          exact (staffs _ before stored).join (by simpa using absent) (Nat.lt_of_not_ge room)
        exact restaffed_insert rfl rostered rfl

theorem removeTeamMemberLocked_stores {team : String} {now : DateTime} :
    Outcome.Ends (fun _ next _ => Restaffed (· = (org, team)) True core.state next)
      (removeTeamMemberLocked actor org team login now core) := by
  unfold removeTeamMemberLocked
  split
  · exact True.intro
  · cases stored : core.state.auth.teams.lookup (org, team) with
    | none => exact True.intro
    | some before =>
      refine ends_ite (fun _ => True.intro) fun _ => ?_
      exact restaffed_insert rfl (fun staffs _ => (staffs _ before stored).leave) rfl

theorem completeAccountActivationLocked_stores {challenge : Digest} {passwordHash : String} {now : DateTime} :
    Outcome.Ends (fun _ next _ => Restaffed
      (fun key => ∃ invitation, Opens core.state challenge invitation ∧
        ∃ binding ∈ invitation.intendedBindings.teams, splitTeamBinding binding = .ok key)
      (∀ invitation, Opens core.state challenge invitation → Roomy core.state invitation.intendedBindings.teams)
      core.state next) (completeAccountActivationLocked challenge passwordHash now core) := by
  refine completeAccountActivationLocked_ends.mono fun _ next _ made => ?_
  obtain ⟨record, invitation, account, user, stored, fresh, kept, isOpen, -, free, -, -, -, -, -, rfl⟩ := made
  have opens : Opens core.state challenge invitation := ⟨record, stored, fresh, kept, isOpen, free⟩
  intro key
  rcases activated_lookup key with same | ⟨before, there, absent, ⟨binding, member, names⟩, joined⟩
  · exact .inl same
  · refine .inr ⟨⟨invitation, opens, binding, member, names⟩, _, joined, fun staffs room => ?_⟩
    exact (staffs key before there).join absent (room invitation opens binding member key before names there)

theorem Section.restaffed {call : Call} {core core' : ForgeCore} {reply : Option call.Reply}
    (moved : Section call core core' reply) :
    Restaffed (call.Concerns core) (call.FindsRoom core) core.state core'.state := by
  have same : ∀ {about : String × String → Prop} {room : Prop} {s : State}, s.auth.teams = core.state.auth.teams →
      Restaffed about room core.state s := by
    intro about room s same key
    rw [same]
    exact .inl rfl
  have within := moved.within
  cases moved with
  | audit audited entry => exact same rfl
  | refused audited => exact same rfl
  | createTeam slug => exact createTeamLocked_stores.leaves (same rfl)
  | createTeamAs slug => exact createTeamAsLocked_stores.leaves (same rfl)
  | addTeamMember => exact addTeamMemberLocked_stores.leaves (same rfl)
  | removeTeamMember now => exact removeTeamMemberLocked_stores.leaves (same rfl)
  | completeAccountActivation passwordHash now => exact completeAccountActivationLocked_stores.leaves (same rfl)
  | transition asks answered => exact same (transition_within .teams (by decide))
  | _ => exact same (within .teams (by simp [Call.tables, credentialTables]))

end Members

section Runs

/-- Owners and members as lists of people who have an account. -/
structure WellFormed (s : State) : Prop where
  owners : ∀ org organization, s.organizations.lookup org = some organization →
    Rostered maxOwners organization.owners ∧ (organization.createdBy.isSome → 1 ≤ organization.owners.length) ∧
      ∀ owner ∈ organization.owners, (s.accounts.lookup owner).isSome
  members : ∀ key team, s.auth.teams.lookup key = some team →
    Rostered maxMembers team.members ∧ ∀ member ∈ team.members, (s.accounts.lookup member).isSome

/-- The organizations and the teams a call is not about. -/
structure KeepsOthers (call : Call) (core core' : ForgeCore) : Prop where
  organizations : ∀ org, call.organization ≠ some org →
    core'.state.organizations.lookup org = core.state.organizations.lookup org
  teams : ∀ key, ¬call.Concerns core key → core'.state.auth.teams.lookup key = core.state.auth.teams.lookup key

theorem Section.keepsOthers {call : Call} {core core' : ForgeCore} {reply : Option call.Reply}
    (moved : Section call core core' reply) : KeepsOthers call core core' where
  organizations org other := by
    rcases moved.reorganized org with same | ⟨named, -⟩
    · exact same
    · exact absurd named other
  teams key other := by
    rcases moved.restaffed key with same | ⟨concerned, -⟩
    · exact same
    · exact absurd concerned other

theorem Call.FindsRoom.namesAccounts {call : Call} {core : ForgeCore} (room : call.FindsRoom core) :
    call.NamesAccounts core := by
  cases call with
  | createTeam => exact room.elim
  | _ => exact True.intro

/-- What a run keeps where every activation finds room. -/
structure Manned (s : State) : Prop where
  peopled : Peopled s
  governs : Governs s
  staffs : Staffs s

theorem Manned.wellFormed {s : State} (manned : Manned s) : WellFormed s where
  owners org organization found := by
    have governed := manned.governs org organization found
    exact ⟨governed.1, fun made => List.length_pos_iff.2 (governed.2 made), manned.peopled.owners org organization found⟩
  members key team found := ⟨manned.staffs key team found, manned.peopled.members key team found⟩

theorem manned_certified : Certified (accounts anyTicks) (When Call.FindsRoom) (fun core => Manned core.state)
    (fun call => Section call) fun _ _ => True := by
  apply accounts_certified
  · intro core core' manned ambient
    obtain ⟨peopled, governs, staffs⟩ := manned
    refine ⟨peopled.same ambient.accounts ambient.organizations (by rw [ambient.auth]), ?_, ?_⟩
    · unfold Governs
      rw [ambient.organizations]
      exact governs
    · unfold Staffs
      rw [ambient.auth]
      exact staffs
  · intro call update core reply manned room moved
    have peopled := manned.peopled.step moved (Call.FindsRoom.namesAccounts room)
    exact ⟨peopled, moved.reorganized.governs manned.governs, moved.restaffed.staffs room manned.staffs⟩

theorem manned_empty : Manned .empty where
  peopled := peopled_empty
  governs _ _ found := nomatch found
  staffs _ _ found := nomatch found

/-- Where every activation finds room in the teams it joins, owners and members are well formed in every
    state, and a call changes no organization and no team but those it is about. -/
theorem membership_kept {start pool : Pool} (initial : start.Initial)
    (run : Run (accounts anyTicks) (When Call.FindsRoom) start pool) :
    WellFormed pool.shared.state ∧ ∀ (i : Nat) (call : Call) (reply : Option call.Reply) (pool' : Pool),
      pool.Writes i call reply pool' → KeepsOthers call pool.shared pool'.shared := by
  have empty : Manned start.shared.state := by
    rw [initial.1]
    exact manned_empty
  have sound := manned_certified.run run (initial.sound empty)
  exact ⟨sound.holds.wellFormed, fun i call reply pool' writes => (sound.writes writes).keepsOthers⟩

end Runs

section Demo

/-- Whole calls one after the other, each allowed wherever it stands. -/
theorem plays_free {condition : Call → ForgeCore → Prop} {pool : Pool} {calls : List Call}
    (free : ∀ call ∈ calls, ∀ core, condition call core) :
    pool.Plays (accounts anyTicks) (When condition) (calls.map .alone) := by
  induction calls generalizing pool with
  | nil => exact True.intro
  | cons call rest ih =>
    have first := Program.permits_of_every (fun _ core => free call List.mem_cons_self core)
      ((accounts anyTicks).program call) pool.shared
    exact ⟨⟨True.intro, first⟩, ih fun other member => free other (List.mem_cons_of_mem _ member)⟩

/-- Zed is invited into an empty team of `acme`, and is about to activate the account. -/
def invited : List Call :=
  [.createAccount "root" "correct horse" .admin (.ok "$argon2id$salt$correct horse"),
    .createOrganizationAs "root" "acme" none ["root"], .createTeamAs "root" "acme" "Ops" (some "ops") [],
    .createAccountInvitation "root" "zed" "Zed" ⟨.user, ["acme/ops"]⟩ hour false (.ok ()),
    .startAccountActivation "zed" 3 (.ok ())]

def takeUp : Call := .completeAccountActivation 5 "correct horse" (.ok "salt")

def seeded : Pool := scheduled .inMemory (invited.map .alone)

def membersOf (s : State) : Option (List String) := (s.auth.teams.lookup ("acme", "ops")).map Team.members

theorem invited_free : ∀ call ∈ invited, ∀ core, call.FindsRoom core := by
  intro call member core
  simp only [invited, List.mem_cons, List.not_mem_nil, or_false] at member
  rcases member with rfl | rfl | rfl | rfl | rfl <;> exact True.intro

theorem seeded_plays : seeded.Plays (accounts anyTicks) (When Call.FindsRoom) [.alone takeUp] := by
  refine ⟨⟨True.intro, ?_⟩, True.intro⟩
  have few : seeded.shared.state.auth.teams.values.all (fun team => team.members.length < maxMembers) = true := by
    decide +kernel
  have room : takeUp.FindsRoom seeded.shared := by
    intro invitation opens binding member key team names found
    exact of_decide_eq_true (List.all_eq_true.1 few team (HashMap.mem_values.2 ⟨key, found⟩))
  have long : requirePassword "correct horse" = .ok () := if_neg (by decide)
  show Program.Permits _ (ExceptT.run (completeAccountActivation 5 "correct horse" (.ok "salt"))) _
  unfold completeAccountActivation
  rw [long]
  exact ⟨room, True.intro⟩

theorem membership_kept_demo : membersOf (seeded.play (accounts anyTicks) [.alone takeUp]).shared.state = some ["zed"] ∧
    WellFormed (seeded.play (accounts anyTicks) [.alone takeUp]).shared.state := by
  have seedRun : Run (accounts anyTicks) (When Call.FindsRoom) ⟨.inMemory, []⟩ seeded :=
    play_run (plays_free invited_free)
  exact ⟨by decide +kernel, (membership_kept ⟨rfl, rfl⟩ (seedRun.trans (play_run seeded_plays))).1⟩

end Demo

section Crowd

/-- The core after a call run alone. -/
def after (call : Call) (core : ForgeCore) : ForgeCore := (call.method.run.exec core).2

variable {core : ForgeCore} {name : String}

/-- In memory every commit is stored. -/
theorem settle_memory {α : Type} (memory : core.storage = none) (draws : Nat) (next : State) (value : α) :
    (Outcome.commit [] draws next none value).settle core =
      (.ok value, { core with state := next, uuids := core.uuids + draws }) := by
  cases core
  cases memory
  rfl

/-- A receipt leaves memory as it is. -/
theorem audit_memory (memory : core.storage = none) (actor action subject : String) (phase : AuditPhase) :
    ((appendAuditAs actor action subject phase).run.exec core).2 = core := by
  unfold appendAuditAs appendAuditWith
  rw [Method.exec_locked]
  split
  · next entry written =>
    have kept : core.logged [entry] = core := by
      unfold ForgeCore.logged
      rw [memory]
      cases core
      cases memory
      rfl
    show { core.logged [entry] with state := core.state } = core
    rw [kept]
  · rfl

theorem audited_memory {α : Type} (actor action subject : String) (change : Method (α × Bool))
    (still : (change.run.exec core).2.storage = none) :
    ((audited actor action subject change).run.exec core).2 = (change.run.exec core).2 := by
  unfold audited
  rw [Program.exec_bind_run]
  rcases ran : change.run.exec core with ⟨_ | ⟨stored, changed⟩, core'⟩
  · rfl
  · rw [ran] at still
    cases changed with
    | false => rfl
    | true =>
      show ((appendAuditAs actor action subject .completed >>= fun _ => (pure stored : Method α)).run.exec core').2 = core'
      rw [Program.exec_bind_run]
      have same := audit_memory still actor action subject .completed
      rcases wrote : (appendAuditAs actor action subject .completed).run.exec core' with ⟨_ | _, core''⟩
      · rw [wrote] at same
        exact same
      · rw [wrote] at same
        exact same

def joining (name : String) : Call := .createAccount name "correct horse" .user (.ok "$argon2id$salt$correct horse")

def enlisting (name : String) : Call := .addTeamMember "root" "acme" "ops" name

def grown (core : ForgeCore) (users : HashMap String User) (name : String) (account : UserAccount) : ForgeCore :=
  { core with
    state := { core.state with users, accounts := core.state.accounts.insert name account }
    uuids := core.uuids + 1 }

theorem joining_after (memory : core.storage = none) (valid : requireLogin name = .ok ())
    (free : core.state.accounts.lookup name = none) (other : core.state.organizations.lookup name = none) :
    ∃ users account, account.canonicalLogin = name ∧ account.status = .active ∧
      after (joining name) core = grown core users name account := by
  have long : requirePassword "correct horse" = .ok () := if_neg (by decide)
  show ∃ users account, _ ∧ _ ∧ ((createAccount name _ _ _).run.exec core).2 = _
  unfold createAccount
  rw [valid, long]
  show ∃ users account, _ ∧ _ ∧ ((createAccountLocked name _ _ core).settle core).2 = _
  unfold createAccountLocked
  rw [free, other]
  show ∃ users account, _ ∧ _ ∧ ((Outcome.commit _ _ _ _ _).settle core).2 = _
  rw [settle_memory memory]
  exact ⟨_, _, rfl, rfl, rfl⟩

/-- An administrator adds a person to a team that has room. -/
theorem enlisting_after {organization : Organization} {team : Team} (memory : core.storage = none)
    (admin : core.state.isGlobalAdmin "root" = true) (active : core.state.isActive "root" = true)
    (there : core.state.organizations.lookup "acme" = some organization)
    (stored : core.state.auth.teams.lookup ("acme", "ops") = some team)
    (person : core.state.activePerson name = .ok name) (new : team.members.contains name = false)
    (room : team.members.length < maxMembers) :
    after (enlisting name) core = { core with
      state := core.state.withTeam "acme" "ops" { team with members := sorted (team.members ++ [name]) } } := by
  have runs : core.state.mayRunOrganization "root" "acme" = true := by simp [State.mayRunOrganization, admin]
  have managed : core.state.managedOrganization "root" "acme" = .ok organization := by
    simp [State.managedOrganization, State.mayViewOrganization, active, there, runs]
  have added : addTeamMemberLocked "root" "acme" "ops" name core = .commit [] 0
      (core.state.withTeam "acme" "ops" { team with members := sorted (team.members ++ [name]) }) none
      ({ team with members := sorted (team.members ++ [name]) }, true) := by
    have absent : name ∉ team.members := by simpa using new
    unfold addTeamMemberLocked
    simp [managed, stored, person, absent, Nat.not_le_of_lt room]
  have ran : ((.locked (addTeamMemberLocked "root" "acme" "ops" name) : Method (Team × Bool)).run.exec core).2 =
      { core with
        state := core.state.withTeam "acme" "ops" { team with members := sorted (team.members ++ [name]) } } := by
    rw [Method.exec_locked, added, settle_memory memory]
    rfl
  show ((addTeamMember "root" "acme" "ops" name).run.exec core).2 = _
  unfold addTeamMember
  rw [audited_memory _ _ _ _ (by rw [ran]; exact memory), ran]

/-- A person for every number. -/
def nameOf (n : Nat) : String := String.ofList (List.replicate (n + 1) 'a')

theorem nameOf_ne {s : String} {c : Char} (member : c ∈ s.toList) (other : c ≠ 'a') (n : Nat) : nameOf n ≠ s := by
  rintro rfl
  rw [nameOf, String.toList_ofList] at member
  exact other (List.eq_of_mem_replicate member)

theorem nameOf_injective {n m : Nat} (same : nameOf n = nameOf m) : n = m := by
  have lists := congrArg String.toList same
  rw [nameOf, nameOf, String.toList_ofList, String.toList_ofList] at lists
  have lengths := congrArg List.length lists
  rw [List.length_replicate, List.length_replicate] at lengths
  omega

theorem trim_nameOf (n : Nat) : Text.trim (nameOf n) = nameOf n := by
  apply Text.trim_solid
  intro c member
  rw [nameOf, String.toList_ofList] at member
  rw [List.eq_of_mem_replicate member]
  decide

theorem lowercase_nameOf (n : Nat) : Text.toAsciiLowercase (nameOf n) = nameOf n := by
  have kept : Text.toAsciiLowercaseChar 'a' = 'a' := by decide
  unfold Text.toAsciiLowercase nameOf
  rw [String.toList_ofList, List.map_replicate, kept]

theorem requireLogin_nameOf (n : Nat) : requireLogin (nameOf n) = .ok () := by
  have some : nameOf n ≠ "" := by
    intro none
    have lists := congrArg String.toList none
    rw [nameOf, String.toList_ofList] at lists
    cases lists
  have letters : Text.all (nameOf n) (fun c =>
      Text.isAsciiLowercase c || Text.isAsciiDigit c || c = '-' || c = '_') = true := by
    unfold Text.all
    rw [nameOf, String.toList_ofList, List.all_eq_true]
    intro c member
    rw [List.eq_of_mem_replicate member]
    decide
  have present : Text.isBlank (nameOf n) = false := by
    unfold Text.isBlank
    rw [trim_nameOf]
    exact decide_eq_false some
  simp [requireLogin, requireName, present, trim_nameOf, letters]

theorem activePerson_nameOf {s : State} {account : UserAccount} {n : Nat}
    (found : s.accounts.lookup (nameOf n) = some account) (status : account.status = .active)
    (login : account.canonicalLogin = nameOf n) :
    s.activePerson (nameOf n) = .ok (nameOf n) := by
  have permitted : account.status.permitsAuthentication = true := by
    rw [status]
    rfl
  unfold State.activePerson
  rw [trim_nameOf, lowercase_nameOf]
  simp only [found, permitted, if_true, login]

/-- Nothing but the first accounts and team members has been added to the seed. -/
structure Filled (seed core : ForgeCore) (n : Nat) : Prop where
  memory : core.storage = none
  clock : core.now = seed.now
  organizations : core.state.organizations = seed.state.organizations
  invitations : core.state.auth.invitations = seed.state.auth.invitations
  challenges : core.state.auth.activationChallenges = seed.state.auth.activationChallenges
  known : ∀ login, (∀ k, login ≠ nameOf k) → core.state.accounts.lookup login = seed.state.accounts.lookup login
  free : ∀ k, n ≤ k → core.state.accounts.lookup (nameOf k) = none
  team : ∃ team, core.state.auth.teams.lookup ("acme", "ops") = some team ∧ team.members.length = n ∧
    ∀ member ∈ team.members, ∃ k < n, member = nameOf k

variable {seed : ForgeCore}

theorem filled_seed (memory : seed.storage = none) (accounts : seed.state.accounts.keys = ["root"])
    (stored : membersOf seed.state = some []) : Filled seed seed 0 where
  memory := memory
  clock := rfl
  organizations := rfl
  invitations := rfl
  challenges := rfl
  known _ _ := rfl
  free k _ := by
    apply AList.lookup_eq_none.2
    intro member
    rw [AList.mem_keys, accounts, List.mem_singleton] at member
    exact nameOf_ne (show 'r' ∈ "root".toList by decide) (by decide) k member
  team := by
    obtain ⟨team, found, empty⟩ := Option.map_eq_some_iff.1 stored
    exact ⟨team, found, by rw [empty]; rfl, by simp [empty]⟩

/-- One more account, and one more member. -/
theorem Filled.more {n : Nat} (filled : Filled seed core n) (room : n < maxMembers)
    (admin : seed.state.isGlobalAdmin "root" = true) (active : seed.state.isActive "root" = true)
    (acme : seed.state.organizations.keys = ["acme"]) :
    Filled seed (after (enlisting (nameOf n)) (after (joining (nameOf n)) core)) (n + 1) := by
  have other : core.state.organizations.lookup (nameOf n) = none := by
    rw [filled.organizations]
    apply AList.lookup_eq_none.2
    intro member
    rw [AList.mem_keys, acme, List.mem_singleton] at member
    exact nameOf_ne (show 'c' ∈ "acme".toList by decide) (by decide) n member
  obtain ⟨users, account, login, status, joined⟩ :=
    joining_after filled.memory (requireLogin_nameOf n) (filled.free n (Nat.le_refl n)) other
  obtain ⟨team, stored, length, names⟩ := filled.team
  have root : ∀ k, "root" ≠ nameOf k := fun k => (nameOf_ne (show 'r' ∈ "root".toList by decide) (by decide) k).symm
  have kept : (core.state.accounts.insert (nameOf n) account).lookup "root" = seed.state.accounts.lookup "root" := by
    rw [HashMap.lookup_insert_if, if_neg (root n), filled.known "root" root]
  have listed : "acme" ∈ seed.state.organizations.keys := by
    rw [acme]
    exact List.mem_cons_self
  obtain ⟨organization, there⟩ := HashMap.exists_of_mem_keys listed
  have new : team.members.contains (nameOf n) = false := by
    rw [Bool.eq_false_iff]
    intro inside
    obtain ⟨k, before, same⟩ := names _ (List.contains_iff_mem.1 inside)
    have equal := nameOf_injective same
    omega
  rw [joined]
  have enlisted := @enlisting_after (grown core users (nameOf n) account) (nameOf n) organization team filled.memory
    ?_ ?_ ?_ stored ?_ new (by omega)
  · rw [enlisted]
    refine ⟨filled.memory, filled.clock, filled.organizations, filled.invitations, filled.challenges, ?_, ?_, ?_⟩
    · intro login others
      show (core.state.accounts.insert (nameOf n) account).lookup login = _
      rw [HashMap.lookup_insert_if, if_neg (others n)]
      exact filled.known login others
    · intro k later
      show (core.state.accounts.insert (nameOf n) account).lookup (nameOf k) = none
      have apart : nameOf k ≠ nameOf n := by
        intro same
        have equal := nameOf_injective same
        omega
      rw [HashMap.lookup_insert_if, if_neg apart]
      exact filled.free k (by omega)
    · refine ⟨_, HashMap.lookup_insert_self _ _ _, ?_, ?_⟩
      · rw [length_sorted, List.length_append, length, List.length_singleton]
      · intro member belongs
        rcases List.mem_append.1 (mem_sorted.1 belongs) with old | added
        · obtain ⟨k, before, same⟩ := names member old
          exact ⟨k, by omega, same⟩
        · exact ⟨n, by omega, List.mem_singleton.1 added⟩
  · simpa [State.isGlobalAdmin, grown, kept] using admin
  · simpa [State.isActive, grown, kept] using active
  · show core.state.organizations.lookup "acme" = some organization
    rw [filled.organizations, there]
  · exact activePerson_nameOf (HashMap.lookup_insert_self _ _ _) status login

/-- As many people as `n` get an account and are added to the team. -/
def filling (n : Nat) : List Call := (List.range n).flatMap fun k => [joining (nameOf k), enlisting (nameOf k)]

theorem play_two (pool : Pool) (first second : Call) :
    (pool.play (accounts anyTicks) [.alone first, .alone second]).shared = after second (after first pool.shared) := rfl

theorem play_one (pool : Pool) (call : Call) :
    (pool.play (accounts anyTicks) ([call].map .alone)).shared = after call pool.shared := rfl

theorem filling_filled {pool : Pool} (start : Filled pool.shared pool.shared 0)
    (admin : pool.shared.state.isGlobalAdmin "root" = true) (active : pool.shared.state.isActive "root" = true)
    (acme : pool.shared.state.organizations.keys = ["acme"]) {n : Nat} (room : n ≤ maxMembers) :
    Filled pool.shared (pool.play (accounts anyTicks) ((filling n).map .alone)).shared n := by
  induction n with
  | zero =>
    have none : filling 0 = [] := rfl
    rw [none]
    exact start
  | succ n ih =>
    have filled := ih (by omega)
    have split : filling (n + 1) = filling n ++ [joining (nameOf n), enlisting (nameOf n)] := by
      unfold filling
      rw [List.range_succ, List.flatMap_append, List.flatMap_singleton]
    have played : pool.play (accounts anyTicks) ((filling (n + 1)).map .alone) =
        (pool.play (accounts anyTicks) ((filling n).map .alone)).play (accounts anyTicks)
          [.alone (joining (nameOf n)), .alone (enlisting (nameOf n))] := by
      unfold Config.play
      rw [split, List.map_append, List.foldl_append]
      rfl
    rw [played, play_two]
    exact filled.more (by omega) admin active acme

/-- Whoever takes up an invitation joins, however many are there. -/
theorem takeUp_after {team : Team} {record : ActivationChallenge} {invitation : AccountInvitation}
    (memory : core.storage = none)
    (challenged : core.state.auth.activationChallenges.lookup (tokenHash 5) = some record)
    (live : (record.consumedAt.isNone && record.expiresAt > core.now : Bool) = true)
    (kept : core.state.auth.invitations.lookup record.invitationId = some invitation)
    (standing : (invitation.isOpen && invitation.expiresAt > core.now &&
      invitation.attemptCount ≤ activationMaxAttempts : Bool) = true)
    (bindings : invitation.intendedBindings.teams = ["acme/ops"]) (login : invitation.canonicalLogin = "zed")
    (plain : invitation.bootstrapOwner = false) (free : core.state.accounts.lookup "zed" = none)
    (stored : core.state.auth.teams.lookup ("acme", "ops") = some team) (new : team.members.contains "zed" = false) :
    membersOf (after takeUp core).state = some (sorted (team.members ++ ["zed"])) := by
  have long : requirePassword "correct horse" = .ok () := if_neg (by decide)
  have slot : splitTeamBinding "acme/ops" = .ok ("acme", "ops") := by rfl
  have there : core.state.missingTeam ["acme/ops"] = .ok none := by
    unfold State.missingTeam
    rw [slot]
    show (if (core.state.auth.teams.lookup ("acme", "ops")).isNone then _ else _) = _
    rw [stored]
    rfl
  have joined : ∀ s : State, s.auth.teams = core.state.auth.teams →
      membersOf (s.joinTeams "zed" ["acme/ops"]) = some (sorted (team.members ++ ["zed"])) := by
    intro s same
    have there : s.auth.teams.lookup ("acme", "ops") = some team := by rw [same, stored]
    unfold State.joinTeams
    rw [slot]
    dsimp only
    rw [there]
    dsimp only
    rw [new]
    show ((s.auth.teams.insert ("acme", "ops") _).lookup ("acme", "ops")).map Team.members = _
    rw [HashMap.lookup_insert_self]
    rfl
  show membersOf ((completeAccountActivation 5 "correct horse" (.ok "salt")).run.exec core).2.state = _
  unfold completeAccountActivation
  rw [long]
  show membersOf ((completeAccountActivationLocked (tokenHash 5) _ core.now core).settle core).2.state = _
  unfold completeAccountActivationLocked
  rw [challenged, Option.filter_some, if_pos live]
  dsimp only
  rw [kept, Option.filter_some, if_pos standing]
  dsimp only
  rw [login, free, bindings, there, plain]
  show membersOf ((Outcome.commit [] 1 (State.activated ..) none _).settle core).2.state = _
  rw [settle_memory memory]
  unfold membersOf State.activated
  dsimp only
  rw [bindings]
  exact joined _ rfl

/-- No call is the plain one that takes owners and members as it is given them. -/
def Call.Governing (call : Call) (_ : ForgeCore) : Prop :=
  match call with
  | .createTeam .. | .createOrganization .. => False
  | _ => True

def crowded : Pool := seeded.play (accounts anyTicks) ((filling maxMembers).map .alone)

theorem seeded_filled : Filled seeded.shared crowded.shared maxMembers := by
  have memory : seeded.shared.storage.isNone = true := by decide +kernel
  have accounts : seeded.shared.state.accounts.keys = ["root"] := by decide +kernel
  have acme : seeded.shared.state.organizations.keys = ["acme"] := by decide +kernel
  have stored : membersOf seeded.shared.state = some [] := by decide +kernel
  have admin : seeded.shared.state.isGlobalAdmin "root" = true := by decide +kernel
  have active : seeded.shared.state.isActive "root" = true := by decide +kernel
  have start := filled_seed (Option.isNone_iff_eq_none.1 memory) accounts stored
  exact filling_filled start admin active acme (Nat.le_refl _)

theorem crowded_joined : ∃ members, membersOf (after takeUp crowded.shared).state = some members ∧
    members.length = maxMembers + 1 := by
  have filled := seeded_filled
  have found : (seeded.shared.state.auth.activationChallenges.lookup (tokenHash 5)).any (fun record =>
      (record.consumedAt.isNone && record.expiresAt > seeded.shared.now) &&
        (seeded.shared.state.auth.invitations.lookup record.invitationId).any fun invitation =>
          (invitation.isOpen && invitation.expiresAt > seeded.shared.now &&
            invitation.attemptCount ≤ activationMaxAttempts) && invitation.intendedBindings.teams = ["acme/ops"] &&
          invitation.canonicalLogin = "zed" && !invitation.bootstrapOwner) = true := by decide +kernel
  obtain ⟨record, challenged, holds⟩ := (Option.any_eq_true _ _).1 found
  obtain ⟨live, invited⟩ := Bool.and_eq_true_iff.1 holds
  obtain ⟨invitation, kept, holds⟩ := (Option.any_eq_true _ _).1 invited
  obtain ⟨holds, plain⟩ := Bool.and_eq_true_iff.1 holds
  obtain ⟨holds, login⟩ := Bool.and_eq_true_iff.1 holds
  obtain ⟨standing, bindings⟩ := Bool.and_eq_true_iff.1 holds
  have zed : ∀ k, "zed" ≠ nameOf k := fun k => (nameOf_ne (show 'z' ∈ "zed".toList by decide) (by decide) k).symm
  have unknown : (seeded.shared.state.accounts.lookup "zed").isNone = true := by decide +kernel
  obtain ⟨team, stored, length, names⟩ := filled.team
  have new : team.members.contains "zed" = false := by
    rw [Bool.eq_false_iff]
    intro inside
    obtain ⟨k, -, same⟩ := names _ (List.contains_iff_mem.1 inside)
    exact zed k same
  have joined := takeUp_after filled.memory (by rw [filled.challenges]; exact challenged) (by rw [filled.clock]; exact live)
    (by rw [filled.invitations]; exact kept) (by rw [filled.clock]; exact standing) (of_decide_eq_true bindings)
    (of_decide_eq_true login) (by simpa using plain)
    (by rw [filled.known "zed" zed]; exact Option.isNone_iff_eq_none.1 unknown) stored new
  refine ⟨_, joined, ?_⟩
  rw [length_sorted, List.length_append, length, List.length_singleton]

/-- An activation joins a team that is full. -/
theorem team_overfilled : ∃ pool : Pool, Run (accounts anyTicks) (When Call.Governing) ⟨.inMemory, []⟩ pool ∧
    (∃ members, membersOf pool.shared.state = some members ∧ members.length = maxMembers + 1) ∧
    ¬WellFormed pool.shared.state := by
  have before : ∀ call ∈ invited, ∀ core, call.Governing core := by
    intro call member core
    simp only [invited, List.mem_cons, List.not_mem_nil, or_false] at member
    rcases member with rfl | rfl | rfl | rfl | rfl <;> exact True.intro
  have between : ∀ call ∈ filling maxMembers, ∀ core, call.Governing core := by
    intro call member core
    obtain ⟨k, -, among⟩ := List.mem_flatMap.1 member
    rcases List.mem_cons.1 among with rfl | among
    · exact True.intro
    · rw [List.mem_singleton.1 among]
      exact True.intro
  have last : ∀ call ∈ [takeUp], ∀ core, call.Governing core := by
    intro call member core
    rw [List.mem_singleton.1 member]
    exact True.intro
  have seedRun : Run (accounts anyTicks) (When Call.Governing) ⟨.inMemory, []⟩ seeded := play_run (plays_free before)
  have fillRun : Run (accounts anyTicks) (When Call.Governing) seeded crowded := play_run (plays_free between)
  have lastRun : Run (accounts anyTicks) (When Call.Governing) crowded _ := play_run (plays_free last)
  obtain ⟨members, joined, length⟩ := crowded_joined
  rw [← play_one] at joined
  refine ⟨_, (seedRun.trans fillRun).trans lastRun, ⟨members, joined, length⟩, fun wellFormed => ?_⟩
  obtain ⟨team, found, same⟩ := Option.map_eq_some_iff.1 joined
  have few := (wellFormed.members ("acme", "ops") team found).1.few
  rw [same, length] at few
  omega

end Crowd

end Jeryu.Auth
