import Jeryu.Auth.CredentialFence
import Jeryu.Auth.Membership
import Jeryu.Auth.Panics

/-!
What becomes of an invitation over a run: it is spent by one activation at most, on the account it was
made for.
-/

namespace Jeryu.Auth

open Jeryu.Core KeyedMap LockProgram Method

section Invitations

/-- The same invitation later on: nothing it promises has changed, and what is over stays over. -/
structure Aged (before after : AccountInvitation) : Prop where
  same : after = { before with
    consumedAt := after.consumedAt, revokedAt := after.revokedAt, attemptCount := after.attemptCount }
  spent : before.consumedAt.isSome = true → after.consumedAt = before.consumedAt
  revoked : before.revokedAt.isSome = true → after.revokedAt.isSome = true
  attempts : before.attemptCount ≤ after.attemptCount

theorem Aged.refl (invitation : AccountInvitation) : Aged invitation invitation :=
  ⟨rfl, fun _ => rfl, fun revoked => revoked, Nat.le_refl _⟩

theorem Aged.trans {a b c : AccountInvitation} (first : Aged a b) (second : Aged b c) : Aged a c where
  same := by rw [second.same, first.same]
  spent spent := by
    have kept := first.spent spent
    rw [second.spent (by rwa [kept]), kept]
  revoked revoked := second.revoked (first.revoked revoked)
  attempts := Nat.le_trans first.attempts second.attempts

/-- Invitations stay, each as it was made, and a bootstrap that is consumed stays consumed. -/
structure Ages (s s' : State) : Prop where
  invitations : ∀ id before, s.auth.invitations.lookup id = some before →
    ∃ after, s'.auth.invitations.lookup id = some after ∧ Aged before after
  bootstrap : s.auth.bootstrapOwnerConsumed = true → s'.auth.bootstrapOwnerConsumed = true

variable {s s' s'' : State}

theorem Ages.refl (s : State) : Ages s s :=
  ⟨fun _ before found => ⟨before, found, .refl before⟩, fun done => done⟩

theorem Ages.trans (first : Ages s s') (second : Ages s' s'') : Ages s s'' where
  invitations id before found := by
    obtain ⟨mid, there, aged⟩ := first.invitations id before found
    obtain ⟨after, stored, more⟩ := second.invitations id mid there
    exact ⟨after, stored, aged.trans more⟩
  bootstrap done := second.bootstrap (first.bootstrap done)

theorem ages_same (invitations : s'.auth.invitations = s.auth.invitations)
    (bootstrap : s'.auth.bootstrapOwnerConsumed = s.auth.bootstrapOwnerConsumed) : Ages s s' :=
  ⟨fun _ before found => ⟨before, by rwa [invitations], .refl before⟩, fun done => by rwa [bootstrap]⟩

theorem Within.ages {tables : List Table} (within : Within tables s s')
    (outside : Table.invitations ∉ tables) : Ages s s' := by
  obtain ⟨invitations, -, bootstrap⟩ := within .invitations outside
  exact ages_same invitations bootstrap

theorem ages_insert {id : Uuid} {before after : AccountInvitation}
    (found : s.auth.invitations.lookup id = some before) (aged : Aged before after)
    (stored : s'.auth.invitations = s.auth.invitations.insert id after)
    (bootstrap : s.auth.bootstrapOwnerConsumed = true → s'.auth.bootstrapOwnerConsumed = true) : Ages s s' := by
  refine ⟨fun other old there => ?_, bootstrap⟩
  rw [stored, HashMap.lookup_insert_if]
  by_cases same : other = id
  · subst same
    cases found.symm.trans there
    exact ⟨after, if_pos rfl, aged⟩
  · exact ⟨old, by rwa [if_neg same], .refl old⟩

/-- Every invitation is stored under its own id, one of those drawn. -/
def KeyedBelow (s : State) (drawn : Uuid) : Prop :=
  ∀ id invitation, s.auth.invitations.lookup id = some invitation → invitation.id = id ∧ id < drawn

def InvitationsDrawn (core : ForgeCore) : Prop := KeyedBelow core.state core.uuids

end Invitations

section Sections

variable {core core' : ForgeCore} {s : State} {login : String}

theorem createAccountInvitation_ages {issuer displayName : String} {bindings : InvitationBindings}
    {now expiresAt : DateTime} {bootstrapOwner : Bool} (keyed : InvitationsDrawn core) :
    Ages core.state ((createAccountInvitationLocked issuer login displayName bindings now expiresAt
      bootstrapOwner core).leaves core).state := by
  refine (createAccountInvitationLocked_ends.mono fun _ next _ made => ?_).leaves (.refl _)
  obtain ⟨-, -, -, invitation, fresh, -, -, -, -, -, -, -, -, rfl⟩ := made
  refine ⟨fun id before found => ?_, fun done => done⟩
  show ∃ after, ((core.state.auth.invitations.mapValues _).insert invitation.id invitation).lookup id =
    some after ∧ Aged before after
  have other : id ≠ invitation.id := by
    intro same
    have known := (keyed id before found).2
    rw [same, fresh] at known
    exact absurd known (Nat.not_lt.mpr (Nat.le_succ _))
  rw [HashMap.lookup_insert_if, if_neg other, HashMap.lookup_mapValues, found]
  refine ⟨_, rfl, ?_⟩
  dsimp only
  split
  · exact ⟨rfl, fun _ => rfl, fun _ => rfl, Nat.le_refl _⟩
  · exact .refl before

theorem revokeAccountInvitation_ages {id : Uuid} :
    Ages core.state ((revokeAccountInvitationLocked id core).leaves core).state := by
  refine (revokeAccountInvitationLocked_ends.mono fun _ next _ made => ?_).leaves (.refl _)
  obtain ⟨-, rfl | ⟨invitation, found, rfl⟩⟩ := made
  · exact .refl _
  · have aged : Aged invitation { invitation with revokedAt := some core.now } :=
      ⟨rfl, fun _ => rfl, fun _ => rfl, Nat.le_refl _⟩
    exact ages_insert found aged rfl fun done => done

theorem startAccountActivation_ages {secret : Secret} {now : DateTime} (keyed : InvitationsDrawn core) :
    Ages core.state ((startAccountActivationLocked login secret now core).leaves core).state := by
  refine (startAccountActivationLocked_ends.mono fun _ next _ made => ?_).leaves (.refl _)
  obtain ⟨invitation, member, -, -, -, -, left⟩ := made
  obtain ⟨id, found⟩ := HashMap.mem_values.mp member
  obtain ⟨own, -⟩ := keyed id invitation found
  subst own
  have aged : Aged invitation { invitation with attemptCount := invitation.attemptCount + 1 } :=
    ⟨rfl, fun _ => rfl, fun revoked => revoked, Nat.le_succ _⟩
  have counted : Ages core.state (attempted core.state invitation) :=
    ages_insert found aged rfl fun done => done
  rcases left with ⟨-, -, -, rfl⟩ | ⟨record, -, -, -, -, -, rfl⟩
  · exact counted
  · exact counted.trans (ages_same rfl rfl)

theorem activated_bootstrap {challenge : Digest} {record : ActivationChallenge}
    {invitation : AccountInvitation} {account : UserAccount} {user : User} {now : DateTime} :
    (s.activated challenge record invitation account user now).auth.bootstrapOwnerConsumed =
      (s.auth.bootstrapOwnerConsumed || invitation.bootstrapOwner) := by
  unfold State.activated
  dsimp only
  rw [(joinTeams_within .invitations (by decide)).2.2]
  rfl

theorem activated_ages {challenge : Digest} {record : ActivationChallenge} {invitation : AccountInvitation}
    {account : UserAccount} {user : User} {now : DateTime}
    (found : s.auth.invitations.lookup invitation.id = some invitation) (isOpen : invitation.isOpen = true) :
    Ages s (s.activated challenge record invitation account user now) := by
  have aged : Aged invitation { invitation with consumedAt := some now } := by
    refine ⟨rfl, fun spent => ?_, fun revoked => revoked, Nat.le_refl _⟩
    have unspent := (Bool.and_eq_true_iff.mp isOpen).1
    rw [Option.isNone_iff_eq_none.mp unspent] at spent
    cases spent
  refine ages_insert found aged activated_invitations fun done => ?_
  rw [activated_bootstrap, done]
  rfl

theorem completeAccountActivation_ages {challenge : Digest} {passwordHash : String} {now : DateTime}
    (keyed : InvitationsDrawn core) :
    Ages core.state ((completeAccountActivationLocked challenge passwordHash now core).leaves core).state := by
  refine (completeAccountActivationLocked_ends.mono fun _ next _ made => ?_).leaves (.refl _)
  obtain ⟨record, invitation, account, user, -, -, found, isOpen, -, -, -, -, -, -, -, rfl⟩ := made
  obtain ⟨own, -⟩ := keyed _ invitation found
  rw [← own] at found
  exact activated_ages found isOpen

/-- Every section, by the invitations it leaves. -/
theorem Section.ages {call : Call} {reply : Option call.Reply} (moved : Section call core core' reply)
    (keyed : InvitationsDrawn core) : Ages core.state core'.state := by
  have within := moved.within
  cases moved with
  | audit audited entry => exact .refl _
  | refused audited => exact .refl _
  | createAccountInvitation teams now => exact createAccountInvitation_ages keyed
  | revokeAccountInvitation => exact revokeAccountInvitation_ages
  | startAccountActivation now => exact startAccountActivation_ages keyed
  | completeAccountActivation passwordHash now => exact completeAccountActivation_ages keyed
  | transition asks answered => exact transition_within.ages (by decide)
  | _ => exact within.ages (by simp [Call.tables, credentialTables])

theorem KeyedBelow.later {drawn more : Uuid} (keyed : KeyedBelow s drawn) (later : drawn ≤ more) :
    KeyedBelow s more := fun id invitation found =>
  ⟨(keyed id invitation found).1, Nat.lt_of_lt_of_le (keyed id invitation found).2 later⟩

theorem KeyedBelow.same {s' : State} {drawn : Uuid} (keyed : KeyedBelow s drawn)
    (same : s'.auth.invitations = s.auth.invitations) : KeyedBelow s' drawn := by
  intro id invitation found
  rw [same] at found
  exact keyed id invitation found

theorem KeyedBelow.insert {s' : State} {drawn : Uuid} {invitation : AccountInvitation}
    (keyed : KeyedBelow s drawn) (fits : invitation.id < drawn)
    (stored : s'.auth.invitations = s.auth.invitations.insert invitation.id invitation) :
    KeyedBelow s' drawn := by
  intro id other found
  rw [stored, HashMap.lookup_insert_if] at found
  split at found
  · next same =>
    cases found
    exact ⟨same.symm, same ▸ fits⟩
  · exact keyed id other found

theorem keyed_leaves {α : Type} {outcome : Core.Outcome α} {P : Nat → State → α → Prop}
    (ends : Outcome.Ends P outcome) (keyed : InvitationsDrawn core)
    (keeps : ∀ draws next value, P draws next value → KeyedBelow next (core.uuids + draws)) :
    InvitationsDrawn (outcome.leaves core) := by
  rcases ends.settled core with ⟨same, drawn⟩ | ⟨draws, value, holds, drawn, -⟩
  · exact (keyed.later drawn).same (by rw [same])
  · have kept := keeps draws _ value holds
    rw [← drawn] at kept
    exact kept

/-- Every section keeps the invitations under their ids. -/
theorem Section.invitationsDrawn {call : Call} {reply : Option call.Reply}
    (moved : Section call core core' reply) (keyed : InvitationsDrawn core) : InvitationsDrawn core' := by
  have within := moved.within
  have drawn := moved.paces.1
  have unmoved (outside : Table.invitations ∉ call.tables) : InvitationsDrawn core' :=
    (keyed.later drawn).same (within .invitations outside).1
  cases moved with
  | audit audited entry => exact (keyed.later drawn).same rfl
  | refused audited => exact keyed
  | createAccountInvitation teams now =>
    refine keyed_leaves createAccountInvitationLocked_ends keyed fun draws next _ made => ?_
    obtain ⟨rfl, -, -, invitation, fresh, -, -, -, -, -, -, -, -, rfl⟩ := made
    have aged : KeyedBelow (core.state.withInvitations fun rows => rows.mapValues fun _ row =>
        if row.isOpen && row.expiresAt ≤ now then { row with revokedAt := some now } else row)
        (core.uuids + 2) := by
      intro id row found
      have mapped : (core.state.auth.invitations.mapValues fun _ row =>
        if row.isOpen && row.expiresAt ≤ now then { row with revokedAt := some now } else row).lookup id =
          some row := found
      rw [HashMap.lookup_mapValues] at mapped
      obtain ⟨before, there, rfl⟩ := Option.map_eq_some_iff.mp mapped
      obtain ⟨own, below⟩ := keyed id before there
      refine ⟨?_, Nat.lt_of_lt_of_le below (Nat.le_add_right _ _)⟩
      split <;> exact own
    exact aged.insert (by rw [fresh]; exact Nat.lt_succ_self _) rfl
  | revokeAccountInvitation =>
    refine keyed_leaves revokeAccountInvitationLocked_ends keyed fun draws next _ made => ?_
    obtain ⟨rfl, rfl | ⟨invitation, found, rfl⟩⟩ := made
    · exact keyed
    · obtain ⟨rfl, below⟩ := keyed _ invitation found
      have revoked : ({ invitation with revokedAt := some core.now } : AccountInvitation).id < core.uuids := below
      exact KeyedBelow.insert keyed revoked rfl
  | startAccountActivation now =>
    refine keyed_leaves startAccountActivationLocked_ends keyed fun draws next _ made => ?_
    obtain ⟨invitation, member, -, -, -, -, left⟩ := made
    obtain ⟨id, found⟩ := HashMap.mem_values.mp member
    obtain ⟨rfl, below⟩ := keyed id invitation found
    have fits : ({ invitation with attemptCount := invitation.attemptCount + 1 } : AccountInvitation).id <
      core.uuids := below
    have counted : KeyedBelow (attempted core.state invitation) core.uuids := KeyedBelow.insert keyed fits rfl
    rcases left with ⟨rfl, -, -, rfl⟩ | ⟨record, rfl, -, -, -, -, rfl⟩
    · exact counted
    · exact (counted.same rfl).later (Nat.le_add_right _ _)
  | completeAccountActivation passwordHash now =>
    refine keyed_leaves completeAccountActivationLocked_ends keyed fun draws next _ made => ?_
    obtain ⟨record, invitation, account, user, -, -, found, -, -, -, -, -, -, -, -, rfl⟩ := made
    obtain ⟨own, below⟩ := keyed _ invitation found
    have fits : ({ invitation with consumedAt := some now } : AccountInvitation).id < core.uuids := by
      rw [← own] at below
      exact below
    exact (KeyedBelow.insert keyed fits activated_invitations).later (Nat.le_add_right _ _)
  | transition asks answered =>
    exact (keyed.later drawn).same (transition_within .invitations (by decide)).1
  | _ => exact unmoved (by simp [Call.tables, credentialTables])

end Sections

section Activations

variable {core core' : ForgeCore} {s : State} {login : String}

/-- An activation takes up an invitation that is open and has not been tried too often, and makes the one
    account the invitation is for, in the role and the teams it binds. -/
structure Activates (id : Uuid) (invitation : AccountInvitation) (summary : AccountSummary) (s s' : State) :
    Prop where
  found : s.auth.invitations.lookup id = some invitation
  isOpen : invitation.isOpen = true
  tried : invitation.attemptCount ≤ activationMaxAttempts
  spent : ∃ time, s'.auth.invitations.lookup id = some { invitation with consumedAt := some time }
  free : s.accounts.lookup invitation.canonicalLogin = none
  account : ∃ account, s'.accounts = s.accounts.insert invitation.canonicalLogin account ∧
    account.summary = summary ∧ account.canonicalLogin = invitation.canonicalLogin ∧
    account.role = invitation.intendedBindings.role ∧ account.status = .pendingMfa
  teams : ∀ binding ∈ invitation.intendedBindings.teams, ∃ key team,
    splitTeamBinding binding = .ok key ∧ s'.auth.teams.lookup key = some team ∧
      invitation.canonicalLogin ∈ team.members
  bootstrap : invitation.bootstrapOwner = true → s.auth.bootstrapOwnerConsumed = false ∧
    s.hasAdmin = false ∧ s'.auth.bootstrapOwnerConsumed = true

theorem missingTeam_lookup {bindings : List String} (named : s.missingTeam bindings = .ok none) :
    ∀ binding ∈ bindings, ∃ key team, splitTeamBinding binding = .ok key ∧
      s.auth.teams.lookup key = some team := by
  induction bindings with
  | nil => exact fun _ member => nomatch member
  | cons first rest ih =>
    obtain ⟨key, split, there, others⟩ := missingTeam_none named
    obtain ⟨team, stored⟩ := Option.isSome_iff_exists.mp there
    intro binding member
    rcases List.mem_cons.mp member with rfl | later
    · exact ⟨key, team, split, stored⟩
    · exact ih others binding later

/-- Joining teams takes nobody out of one. -/
theorem joinTeams_keeps {bindings : List String} {key : String × String} {team : Team} {member : String}
    (there : s.auth.teams.lookup key = some team) (belongs : member ∈ team.members) :
    ∃ team', (s.joinTeams login bindings).auth.teams.lookup key = some team' ∧ member ∈ team'.members := by
  rcases @joinTeams_lookup login s bindings key with same | ⟨before, stored, -, -, joined⟩
  · exact ⟨team, by rw [same, there], belongs⟩
  · cases there.symm.trans stored
    exact ⟨_, joined, mem_sorted.2 (List.mem_append_left _ belongs)⟩

theorem joinTeams_joins {bindings : List String}
    (there : ∀ binding ∈ bindings, ∃ key team, splitTeamBinding binding = .ok key ∧
      s.auth.teams.lookup key = some team) :
    ∀ binding ∈ bindings, ∃ key team, splitTeamBinding binding = .ok key ∧
      (s.joinTeams login bindings).auth.teams.lookup key = some team ∧ login ∈ team.members := by
  induction bindings generalizing s with
  | nil => exact fun _ member => nomatch member
  | cons first rest ih =>
    obtain ⟨key, team, split, stored⟩ := there first List.mem_cons_self
    unfold State.joinTeams
    rw [split]
    dsimp only
    rw [stored]
    dsimp only
    have others := fun binding member => there binding (List.mem_cons_of_mem first member)
    by_cases already : team.members.contains login = true
    · rw [if_pos already]
      intro binding member
      rcases List.mem_cons.mp member with rfl | later
      · obtain ⟨team', kept, belongs⟩ :=
          joinTeams_keeps stored (List.contains_iff_mem.mp already)
        exact ⟨key, team', split, kept, belongs⟩
      · exact ih others binding later
    · rw [if_neg already]
      have now : (s.withTeam key.1 key.2
          { team with members := sorted (team.members ++ [login]) }).auth.teams =
            s.auth.teams.insert key { team with members := sorted (team.members ++ [login]) } := rfl
      intro binding member
      rcases List.mem_cons.mp member with rfl | later
      · have joined : (s.withTeam key.1 key.2
            { team with members := sorted (team.members ++ [login]) }).auth.teams.lookup key =
              some { team with members := sorted (team.members ++ [login]) } := by
          rw [now, HashMap.lookup_insert_self]
        have listed : login ∈ sorted (team.members ++ [login]) :=
          mem_sorted.2 (List.mem_append_right team.members (List.mem_singleton.mpr rfl))
        obtain ⟨team', kept, belongs⟩ := joinTeams_keeps joined listed
        exact ⟨key, team', split, kept, belongs⟩
      · refine ih (fun binding member => ?_) binding later
        obtain ⟨other, old, split, there⟩ := others binding member
        rw [now]
        by_cases same : other = key
        · exact ⟨other, _, split, by rw [same, HashMap.lookup_insert_self]⟩
        · exact ⟨other, old, split, by rw [HashMap.lookup_insert_if, if_neg same, there]⟩

theorem activated_teams {challenge : Digest} {record : ActivationChallenge} {invitation : AccountInvitation}
    {account : UserAccount} {user : User} {now : DateTime}
    (there : s.missingTeam invitation.intendedBindings.teams = .ok none) :
    ∀ binding ∈ invitation.intendedBindings.teams, ∃ key team, splitTeamBinding binding = .ok key ∧
      (s.activated challenge record invitation account user now).auth.teams.lookup key = some team ∧
        account.canonicalLogin ∈ team.members := by
  have stored := missingTeam_lookup there
  unfold State.activated
  refine joinTeams_joins fun binding member => ?_
  exact stored binding member

theorem completeAccountActivationLocked_activates {challenge : Digest} {passwordHash : String} {now : DateTime}
    {summary : AccountSummary} (keyed : InvitationsDrawn core)
    (succeeds : Outcome.ends (completeAccountActivationLocked challenge passwordHash now core) core = .ok summary) :
    ∃ id invitation, Activates id invitation summary core.state
      ((completeAccountActivationLocked challenge passwordHash now core).leaves core).state ∧
        now < invitation.expiresAt := by
  unfold completeAccountActivationLocked at succeeds ⊢
  cases found : (core.state.auth.activationChallenges.lookup challenge).filter fun record =>
      record.consumedAt.isNone && record.expiresAt > now with
  | none =>
    rw [found] at succeeds
    cases succeeds
  | some record =>
    rw [found] at succeeds
    dsimp only at succeeds ⊢
    cases invited : (core.state.auth.invitations.lookup record.invitationId).filter fun invitation =>
        invitation.isOpen && invitation.expiresAt > now &&
          invitation.attemptCount ≤ activationMaxAttempts with
    | none =>
      rw [invited] at succeeds
      cases succeeds
    | some invitation =>
      rw [invited] at succeeds
      obtain ⟨kept, standing⟩ := Option.filter_eq_some_iff.mp invited
      simp only [Bool.and_eq_true, decide_eq_true_eq] at standing
      obtain ⟨own, -⟩ := keyed _ invitation kept
      dsimp only at succeeds ⊢
      by_cases taken : (core.state.accounts.lookup invitation.canonicalLogin).isSome = true
      · rw [if_pos taken] at succeeds
        cases succeeds
      · rw [if_neg taken] at succeeds ⊢
        cases teams : core.state.missingTeam invitation.intendedBindings.teams with
        | error error =>
          rw [teams] at succeeds
          cases succeeds
        | ok missing =>
          rw [teams] at succeeds
          cases missing with
          | some binding => cases succeeds
          | none =>
            dsimp only at succeeds ⊢
            by_cases second : (invitation.bootstrapOwner &&
                (core.state.auth.bootstrapOwnerConsumed || core.state.hasAdmin)) = true
            · rw [if_pos second] at succeeds
              cases succeeds
            · rw [if_neg second] at succeeds ⊢
              refine ⟨record.invitationId, invitation, ?_, standing.1.2⟩
              rcases commit_ends core [] 1 _ none (Except.ok _ : Except Failure AccountSummary) with
                ⟨error, -, -, refused⟩ | ⟨moved, -, answered⟩
              · unfold Outcome.ends at succeeds
                rw [refused] at succeeds
                cases succeeds
              · rw [moved]
                unfold Outcome.ends at succeeds
                rw [answered] at succeeds
                exact
                  { found := kept
                    isOpen := standing.1.1
                    tried := standing.2
                    spent := ⟨now, by rw [activated_invitations, own, HashMap.lookup_insert_self]⟩
                    free := by simpa using taken
                    account := ⟨_, activated_accounts, Except.ok.inj succeeds, rfl, rfl, rfl⟩
                    teams := activated_teams teams
                    bootstrap := fun owner => by
                      rw [activated_bootstrap, owner, Bool.or_true]
                      simpa [owner] using second }

end Activations

section Completing

variable {core core' : ForgeCore} {id : Uuid} {invitation : AccountInvitation} {summary : AccountSummary}

/-- A completion that is answered has taken up an invitation. -/
def Completes : (call : Call) → ForgeCore → ForgeCore → Option call.Reply → Prop
  | .completeAccountActivation .., core, core', reply => ∀ summary, reply = some (.ok summary) →
      InvitationsDrawn core → ∃ id invitation, Activates id invitation summary core.state core'.state
  | _, _, _, _ => True

theorem writes_completes {call : Call} (free : ∀ core core' reply, Completes call core core' reply) :
    call.method.Writes (Completes call) :=
  ⟨(Program.meets_true _).mono (fun _ h => h) (fun _ _ _ _ _ => free _ _ _) fun _ h => h⟩

theorem call_completes (call : Call) : call.method.Writes (Completes call) := by
  cases call with
  | completeAccountActivation challenge password salt =>
    show (Core.completeAccountActivation challenge password salt).Writes
      (Completes (.completeAccountActivation challenge password salt))
    unfold Core.completeAccountActivation
    refine writes_ofExcept_bind fun _ _ => writes_ofExcept_bind fun passwordHash _ => ?_
    refine utcNow_readOnly.bind fun now => writes_settled fun core summary answered keyed => ?_
    have succeeds := Option.some.inj answered
    obtain ⟨id, invitation, activates, -⟩ := completeAccountActivationLocked_activates keyed succeeds
    exact ⟨id, invitation, activates⟩
  | _ => exact writes_completes fun _ _ _ => True.intro

/-- The one section of a completion, by the clock it read before. -/
def Call.Clocked : Call → (ForgeCore → Prop) → ForgeCore → ForgeCore → Prop
  | .completeAccountActivation challenge .., seen, core, core' => ∃ clock passwordHash, seen clock ∧
      core' = (completeAccountActivationLocked (tokenHash challenge) passwordHash clock.now core).leaves core
  | _, _, _, _ => True

theorem rests_clocked {call : Call} (free : ∀ seen core core', call.Clocked seen core core') :
    RestsOn (fun _ => True) call.Clocked (fun _ => False) call.method :=
  ⟨Program.Meets.rests ((Program.meets_true _).mono (fun _ h => h)
    (fun _ _ _ _ _ seen => free seen _ _) fun _ h => h)⟩

theorem call_clocked (call : Call) : RestsOn (fun _ => True) call.Clocked (fun _ => False) call.method := by
  cases call with
  | completeAccountActivation challenge password salt =>
    show RestsOn (fun _ => True) (Call.completeAccountActivation challenge password salt).Clocked
      (fun _ => False) (Core.completeAccountActivation challenge password salt)
    unfold Core.completeAccountActivation
    refine rests_ofExcept_bind fun _ _ => rests_ofExcept_bind fun passwordHash _ => ?_
    unfold utcNow
    refine rests_reading_bind fun clock now _ read => ⟨fun core _ => ⟨?_, True.intro⟩⟩
    cases read
    exact ⟨clock, passwordHash, .inl (.inr rfl), rfl⟩
  | _ => exact rests_clocked fun _ _ _ => True.intro

/-- A completion that leaves an invitation spent has read the clock before it expires. -/
theorem clock_of_activates {challenge : Digest} {passwordHash : String} {now : DateTime}
    (keyed : InvitationsDrawn core)
    (activates : Activates id invitation summary core.state
      ((completeAccountActivationLocked challenge passwordHash now core).leaves core).state) :
    now < invitation.expiresAt := by
  obtain ⟨time, spent⟩ := activates.spent
  have unspent := Option.isNone_iff_eq_none.mp (Bool.and_eq_true_iff.mp activates.isOpen).1
  have untouched (stored : ((completeAccountActivationLocked challenge passwordHash now core).leaves
      core).state.auth.invitations.lookup id = core.state.auth.invitations.lookup id) : False := by
    rw [stored, activates.found] at spent
    have consumed := congrArg AccountInvitation.consumedAt (Option.some.inj spent)
    rw [unspent] at consumed
    cases consumed
  rcases completeAccountActivationLocked_ends.settled core with ⟨same, -⟩ | ⟨draws, value, made, -, -⟩
  · rw [same] at untouched
    exact (untouched rfl).elim
  · obtain ⟨record, taken, account, user, -, -, found, -, before, -, -, -, -, -, -, left⟩ := made
    obtain ⟨own, -⟩ := keyed _ taken found
    rw [left, activated_invitations, HashMap.lookup_insert_if] at untouched
    by_cases same : id = taken.id
    · rw [same, own] at activates
      cases found.symm.trans activates.found
      exact before
    · rw [if_neg same] at untouched
      exact (untouched rfl).elim

end Completing

section Runs

variable {start pool pool' later : Pool} {i : Nat} {id : Uuid} {invitation : AccountInvitation}
variable {summary : AccountSummary} {challenge : Secret} {password : String} {salt : Except ForgeError String}

theorem invitations_certified : Certified (accounts anyTicks) anySection InvitationsDrawn
    (fun call => Section call) fun _ _ => True := by
  apply accounts_certified
  · intro core core' keyed moved
    exact (KeyedBelow.later keyed moved.uuids).same (by rw [moved.auth])
  · intro call update core reply keyed _ moved
    exact moved.invitationsDrawn keyed

theorem invitations_sound (initial : start.Initial) (run : Runs start pool) :
    Sound InvitationsDrawn (fun call => Section call) (fun _ _ => True) pool := by
  refine invitations_certified.run run (initial.sound fun id invitation found => ?_)
  rw [initial.1] at found
  cases found

theorem invitations_age (run : Runs pool later)
    (sound : Sound InvitationsDrawn (fun call => Section call) (fun _ _ => True) pool) :
    Ages pool.shared.state later.shared.state :=
  invitations_certified.along (fun core => .refl core.state) (fun _ _ _ first second => first.trans second)
    (fun _ _ _ moved => ages_same (by rw [moved.auth]) (by rw [moved.auth]))
    (fun _ _ _ _ keyed _ moved => moved.ages keyed) run sound

theorem completes_of_writes (run : Runs start pool) (initial : start.Initial)
    (writes : pool.Writes i (.completeAccountActivation challenge password salt) (some (.ok summary)) pool') :
    ∃ id invitation, Activates id invitation summary pool.shared.state pool'.shared.state := by
  have certified : Certified (accounts anyTicks) anySection (fun _ => True) Completes fun _ _ => True :=
    ⟨fun call => (call_completes call).meets, fun _ _ _ _ => True.intro, fun _ _ _ _ _ _ _ => True.intro⟩
  have completes := (certified.run run (initial.sound True.intro)).writes writes
  exact completes summary rfl (invitations_sound initial run).holds

/-- What is taken up at the end of a run is not what was taken up before it. -/
theorem Activates.apart {s' : State} {id' : Uuid} {other : AccountInvitation} {answer : AccountSummary}
    (activates : Activates id invitation summary pool.shared.state pool'.shared.state)
    (initial : start.Initial) (before : Runs start pool') (run : Runs pool' later)
    (again : Activates id' other answer later.shared.state s') :
    id' ≠ id ∧ other.canonicalLogin ≠ invitation.canonicalLogin ∧
      (invitation.bootstrapOwner = true → other.bootstrapOwner = false) := by
  have ages := invitations_age run (invitations_sound initial before)
  have known : pool'.Known := known_certified.run before (initial.sound True.intro)
  refine ⟨?_, ?_, ?_⟩
  · rintro rfl
    obtain ⟨time, spent⟩ := activates.spent
    obtain ⟨after, stored, aged⟩ := ages.invitations _ _ spent
    cases stored.symm.trans again.found
    have unspent := Option.isNone_iff_eq_none.mp (Bool.and_eq_true_iff.mp again.isOpen).1
    have kept := aged.spent rfl
    rw [unspent] at kept
    cases kept
  · intro same
    obtain ⟨account, stored, -⟩ := activates.account
    have there : pool'.shared.state.accounts.lookup invitation.canonicalLogin = some account := by
      rw [stored, HashMap.lookup_insert_self]
    obtain ⟨kept, found, -⟩ := epochs_grow run known _ account there
    rw [← same, again.free] at found
    cases found
  · intro owner
    obtain ⟨-, -, consumed⟩ := activates.bootstrap owner
    cases own : other.bootstrapOwner with
    | false => rfl
    | true =>
      obtain ⟨unconsumed, -⟩ := again.bootstrap own
      rw [ages.bootstrap consumed] at unconsumed
      cases unconsumed

/-- A completion that is answered takes up an invitation the clock had not run past as it began, and
    nothing takes up that invitation, makes that account or makes a first owner again. -/
theorem invitation_spent_once (initial : start.Initial) (run : Runs start pool)
    (writes : pool.Writes i (.completeAccountActivation challenge password salt) (some (.ok summary)) pool') :
    ∃ id invitation, Activates id invitation summary pool.shared.state pool'.shared.state ∧
      (∃ core, Since (accounts anyTicks) anySection start pool i
        (.completeAccountActivation challenge password salt) core ∧ core.now < invitation.expiresAt) ∧
      ∀ later, Runs pool' later → ∀ id' other answer s', Activates id' other answer later.shared.state s' →
        id' ≠ id ∧ other.canonicalLogin ≠ invitation.canonicalLogin ∧
          (invitation.bootstrapOwner = true → other.bootstrapOwner = false) := by
  obtain ⟨id, invitation, activates⟩ := completes_of_writes run initial writes
  have rests : pool.Rests (accounts anyTicks) anySection (fun _ => True) Call.Clocked start :=
    Run.rests (fun call => (call_clocked call).rests) run (fun _ _ => True.intro) initial.2
  have clocked := rests.writes (fun seen seen' core core' more clocked => ?_) run True.intro writes
  · obtain ⟨clock, passwordHash, since, left⟩ := clocked
    have keyed := (invitations_sound initial run).holds
    have read := clock_of_activates keyed (left ▸ activates)
    have step : Runs start pool' := run.tail (writes.step fun _ => True.intro)
    exact ⟨id, invitation, activates, ⟨clock, since, read⟩, fun later after _ _ _ _ again =>
      activates.apart initial step after again⟩
  · obtain ⟨clock, passwordHash, known, left⟩ := clocked
    exact ⟨clock, passwordHash, more clock known, left⟩

end Runs

section Demo

def adasCompletion : Call := .completeAccountActivation 2 "correct horse" (.ok "salt")

/-- `ada` is invited as the first owner, and takes the invitation up twice at once. -/
def twiceAtOnce : List (Turn Call) :=
  [.alone (.createAccountInvitation "local-operator" "ada" "Ada" ⟨.admin, []⟩ hour true (.ok ())),
    .alone (.startAccountActivation "ada" 0 (.ok ())), .enter adasCompletion, .advance 2,
    .enter adasCompletion, .advance 3]

def answersWell (call : Call) (reply : call.Reply) : Bool := reply.isOk

theorem twiceAtOnce_once : ∃ (summary : AccountSummary) (pool' : Pool) (id : Uuid)
    (invitation : AccountInvitation),
    (scheduled .durable twiceAtOnce).Writes 2 adasCompletion (some (.ok summary)) pool' ∧
      ∀ later, Runs pool' later → ∀ id' other answer s', Activates id' other answer later.shared.state s' →
        id' ≠ id ∧ other.canonicalLogin ≠ invitation.canonicalLogin ∧
          (invitation.bootstrapOwner = true → other.bootstrapOwner = false) := by
  have asked : ((scheduled .durable twiceAtOnce).tasks.map Task.call)[2]? = some adasCompletion := by
    unfold scheduled
    rw [Config.play_calls]
    rfl
  obtain ⟨reply, good, writes⟩ : ∃ reply, answersWell adasCompletion reply = true ∧
      (scheduled .durable twiceAtOnce).Writes 2 adasCompletion (some reply)
        ((scheduled .durable twiceAtOnce).turn (accounts anyTicks) (.advance 2)) := by
    apply Config.call_answers asked
    decide +kernel
  cases reply with
  | error failure => cases good
  | ok summary =>
    obtain ⟨id, invitation, -, -, apart⟩ := invitation_spent_once ⟨rfl, rfl⟩ (play_run plays_any) writes
    exact ⟨summary, _, id, invitation, writes, apart⟩

end Demo

end Jeryu.Auth
