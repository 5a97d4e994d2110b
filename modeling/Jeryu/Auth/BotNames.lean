import Jeryu.Auth.Runs

/-!
The names of accounts and bots: what they are made of, what a section does to them, and that a team
bot's acting login names that bot alone.
-/

namespace Jeryu.Auth

open Jeryu.Core KeyedMap LockProgram Method

section Logins

variable {login org slug : String}

/-- What a login is made of. -/
def canonical (part : String) : Bool :=
  part != "" && Text.all part fun c =>
    Text.isAsciiLowercase c || Text.isAsciiDigit c || c = '-' || c = '_'

theorem requireLogin_canonical (passed : requireLogin login = .ok ()) : canonical login = true := by
  unfold requireLogin requireName at passed
  by_cases blank : Text.isBlank login = true
  · rw [if_pos blank] at passed
    cases passed
  · rw [if_neg blank] at passed
    have filled : login ≠ "" := by
      intro same
      rw [same] at blank
      exact blank (by decide)
    have letters : Text.all login (fun c =>
        Text.isAsciiLowercase c || Text.isAsciiDigit c || c = '-' || c = '_') = true := by
      by_cases every : Text.all login (fun c =>
        Text.isAsciiLowercase c || Text.isAsciiDigit c || c = '-' || c = '_') = true
      · exact every
      · simp only [every, Bool.not_false, Bool.or_true] at passed
        cases passed
    unfold canonical
    rw [letters, Bool.and_true]
    exact bne_iff_ne.mpr filled

theorem canonical_letters (login_canonical : canonical login = true) {c : Char}
    (member : c ∈ login.toList) :
    (Text.isAsciiLowercase c || Text.isAsciiDigit c || c = '-' || c = '_') = true := by
  unfold canonical at login_canonical
  have every := (Bool.and_eq_true_iff.mp login_canonical).2
  exact List.all_eq_true.mp every c member

/-- What is no letter of a login keeps it from being one. -/
theorem not_canonical {c : Char} (member : c ∈ login.toList)
    (other : (Text.isAsciiLowercase c || Text.isAsciiDigit c || c = '-' || c = '_') = false) :
    canonical login = false := by
  cases made : canonical login with
  | false => rfl
  | true =>
    have letter := canonical_letters made member
    rw [other] at letter
    cases letter

theorem teamBotLogin_chars : (teamBotLogin org slug).toList =
    org.toList ++ '.' :: (slug.toList ++ teamBotLoginSuffix.toList) := by
  unfold teamBotLogin
  simp only [String.toList_append, List.append_assoc]
  rfl

/-- No account's login has the shape of a team bot's. -/
theorem teamBotLogin_not_canonical : canonical (teamBotLogin org slug) = false := by
  have dot : '.' ∈ (teamBotLogin org slug).toList := by
    rw [teamBotLogin_chars]
    exact List.mem_append_right _ List.mem_cons_self
  exact not_canonical dot (by decide)

/-- The acting logins are those of a canonical organization and slug. -/
theorem parseTeamBotLogin_eq_some {found : String × String} :
    parseTeamBotLogin login = some found ↔
      login = teamBotLogin found.1 found.2 ∧ canonical found.1 = true ∧ canonical found.2 = true := by
  obtain ⟨org, slug⟩ := found
  constructor
  · intro parsed
    unfold parseTeamBotLogin at parsed
    split at parsed
    · cases parsed
    · next name stripped =>
      split at parsed
      · cases parsed
      · next organization rest cut =>
        change (if (canonical organization && canonical rest) = true then some (organization, rest)
          else none) = some (org, slug) at parsed
        split at parsed
        · next parts =>
          cases parsed
          have whole := Text.stripSuffix_eq_some.mp stripped
          have chars := (Text.splitOnce_eq_some.mp cut).1
          have both := Bool.and_eq_true_iff.mp parts
          refine ⟨?_, both.1, both.2⟩
          rw [← String.toList_inj, teamBotLogin_chars, whole, String.toList_append, chars]
          simp
        · cases parsed
  · rintro ⟨rfl, organization, part⟩
    have stripped : Text.stripSuffix (teamBotLogin org slug) teamBotLoginSuffix =
        some (org ++ "." ++ slug) := Text.stripSuffix_eq_some.mpr rfl
    have noDot : '.' ∉ org.toList := by
      intro member
      have letter := canonical_letters organization member
      exact absurd letter (by decide)
    have cut : Text.splitOnce (org ++ "." ++ slug) '.' = some (org, slug) := by
      refine Text.splitOnce_eq_some.mpr ⟨?_, noDot⟩
      simp only [String.toList_append, List.append_assoc]
      rfl
    have parts : (canonical org && canonical slug) = true := by
      rw [organization, part]
      rfl
    unfold parseTeamBotLogin
    rw [stripped]
    simp only [cut]
    exact if_pos parts

end Logins

section Bots

variable {s s' s'' : State} {id : Uuid} {bot : BotRecord}

/-- What a bot is known by. -/
def identity (bot : BotRecord) : Uuid × BotOwnerKind × String × String :=
  (bot.id, bot.ownerKind, bot.owner, bot.slug)

/-- Every bot keeps what it is known by, and none is added or erased. -/
def SameBots (s s' : State) : Prop :=
  ∀ id, (s'.bots.lookup id).map identity = (s.bots.lookup id).map identity

theorem sameBots_refl : SameBots s s := fun _ => rfl

theorem sameBots_same (same : s'.bots = s.bots) : SameBots s s' := fun id => by rw [same]

theorem SameBots.trans (first : SameBots s s') (second : SameBots s' s'') : SameBots s s'' :=
  fun id => (second id).trans (first id)

theorem sameBots_insert {edited : BotRecord} (found : s.bots.lookup id = some bot)
    (stored : s'.bots = s.bots.insert id edited) (same : identity edited = identity bot) :
    SameBots s s' := by
  intro other
  rw [stored, HashMap.lookup_insert_if]
  by_cases here : other = id
  · rw [if_pos here, here, found]
    exact congrArg some same
  · rw [if_neg here]

theorem sameBots_mapped {f : Uuid → BotRecord → BotRecord} (same : ∀ id bot, identity (f id bot) = identity bot)
    (mapped : s'.bots = s.bots.mapValues f) : SameBots s s' := by
  intro id
  rw [mapped, HashMap.lookup_mapValues, Option.map_map]
  exact congrArg (fun g => (s.bots.lookup id).map g) (funext (same id))

theorem SameBots.found (same : SameBots s s') (found : s'.bots.lookup id = some bot) :
    ∃ before, s.bots.lookup id = some before ∧ identity before = identity bot := by
  have names := same id
  rw [found] at names
  obtain ⟨before, known, same⟩ := Option.map_eq_some_iff.mp names.symm
  exact ⟨before, known, same⟩

theorem noteAuth_sameBots {now : DateTime} : SameBots s (s.noteAuth id now) := by
  unfold State.noteAuth
  cases found : s.bots.lookup id with
  | none => exact sameBots_refl
  | some bot => exact sameBots_insert found rfl rfl

theorem invalidateAccountBots_sameBots {login : String} {now : DateTime} :
    SameBots s (s.invalidateAccountBots login now) := by
  have same (id : Uuid) (bot : BotRecord) :
      identity (if (s.ownedBots login).contains id then bot.regenerated now else bot) = identity bot := by
    split <;> rfl
  exact sameBots_mapped same rfl

theorem Edited.sameBots {login : String} {edited : UserAccount} {now : DateTime} {next : State}
    {answer : Except Failure AccountSummary} (edit : Edited s login edited now next answer) :
    SameBots s next := by
  cases edit with
  | spoiled failure => exact sameBots_same rfl
  | moved epoch same =>
    unfold fenced
    exact (sameBots_same rfl).trans invalidateAccountBots_sameBots

theorem revokeRefreshFamily_sameBots {now : DateTime} : SameBots s (s.revokeRefreshFamily id now) := by
  unfold State.revokeRefreshFamily
  dsimp only
  have dropped : SameBots s (s.dropRefresh fun token => token.botId = id) := sameBots_same rfl
  cases found : (s.dropRefresh fun token => token.botId = id).bots.lookup id with
  | none => exact dropped
  | some bot => exact dropped.trans (sameBots_insert found rfl rfl)

end Bots

section BotSections

variable {core : ForgeCore}

theorem Presented.sameBots {presented : Digest} {now : DateTime} {existing : BotRefreshRecord}
    {next : State} {answer : Except Failure RefreshAnswer}
    (left : Presented core presented now existing next answer) : SameBots core.state next := by
  cases left with
  | spoiled failure unused => exact sameBots_same rfl
  | reused actor subject used => exact revokeRefreshFamily_sameBots

theorem succeeded_sameBots {presented : Digest} {now : DateTime} {bot : BotRecord} {key : BotKeyRecord} :
    SameBots core.state (succeeded core presented now bot key).2 :=
  sameBots_same (succeeded_within .bots (by decide))

theorem rotateIdempotent_sameBots {vaultKey : Option String} {presented : Digest}
    {requestKey bodyDigest : String} {random : Except ForgeError Unit} {now : DateTime} :
    SameBots core.state ((rotateIdempotentLocked vaultKey presented requestKey bodyDigest random now
      core).leaves core).state := by
  refine (rotateIdempotentLocked_ends.mono fun _ next _ made => ?_).leaves sameBots_refl
  obtain ⟨existing, -, ⟨-, left⟩ | ⟨bot, key, vault, -, -, -, -, -, rfl⟩⟩ := made
  · exact left.sameBots
  · have stored : SameBots core.state ((succeeded core presented now bot key).2.withOperations
        fun rows => rows.insert (refreshOperationKey existing.botId presented requestKey) (rotation
          existing presented requestKey bodyDigest vault (succeeded core presented now bot key).1
            now)) := succeeded_sameBots.trans (sameBots_same (withOperations_within _ .bots (by decide)))
    exact stored.trans noteAuth_sameBots

/-- What a section does to the bots: they stay what they are, or one of a new name is added. -/
inductive Enrolled (slug : String → Prop) (team : String → Prop) (s s' : State) : Prop where
  | kept (same : SameBots s s')
  | added (bot : BotRecord) (stored : s'.bots = s.bots.insert bot.id bot) (named : slug bot.slug)
      (fresh : ∀ id other, s.bots.lookup id = some other → other.owner = bot.owner → other.slug ≠ bot.slug)
      (owned : bot.ownerKind = .organization → team bot.owner)

theorem storeEnrolledBotLocked_fresh {record : Uuid → BotRecord} {env : String} :
    Outcome.Ends (fun _ next _ => next.bots =
        core.state.bots.insert (record core.uuids).id (record core.uuids) ∧
      ∀ id other, core.state.bots.lookup id = some other →
        other.owner = (record core.uuids).owner → other.slug ≠ (record core.uuids).slug)
      (storeEnrolledBotLocked record env core) := by
  unfold storeEnrolledBotLocked
  refine ends_ite (fun _ => True.intro) fun free => ⟨rfl, fun id other found owner slug => free ?_⟩
  refine List.any_eq_true.mpr ⟨other, HashMap.mem_values.mpr ⟨id, found⟩, ?_⟩
  rw [owner, slug]
  simp

theorem storeEnrolled_enrolled {record : Uuid → BotRecord} {env : String} {slug team : String → Prop}
    (named : slug (record core.uuids).slug)
    (owned : (record core.uuids).ownerKind = .organization → team (record core.uuids).owner) :
    Enrolled slug team core.state ((storeEnrolledBotLocked record env core).leaves core).state := by
  refine (storeEnrolledBotLocked_fresh.mono fun _ next _ made => ?_).leaves (.kept sameBots_refl)
  obtain ⟨stored, fresh⟩ := made
  exact .added _ stored named fresh owned

/-- The login or slug a call gives to an account, an invitation or a bot. -/
def Call.named : Call → Option String
  | .createAccount login .. | .createTemporaryAccount login ..
  | .createAccountInvitation _ login .. => some login
  | .enrollBot _ slug .. | .enrollTeamBot _ _ _ slug .. => some slug
  | _ => none

/-- The organization a call enrolls a bot for. -/
def Call.team : Call → Option String
  | .enrollTeamBot _ org .. => some org
  | _ => none

theorem rekeyed_bots {s : State} {bot : BotRecord} {key : BotKeyRecord} {stale : Bool} {now : DateTime} :
    (rekeyed s bot key stale now).bots = s.bots.insert key.botId bot := by cases stale <;> rfl

/-- Every section, by what it does to the bots. -/
theorem Section.enrolled {call : Call} {core core' : ForgeCore} {reply : Option call.Reply}
    (moved : Section call core core' reply) :
    Enrolled (call.named = some ·) (call.team = some ·) core.state core'.state := by
  have within := moved.within
  cases moved with
  | audit audited entry => exact .kept sameBots_refl
  | refused audited => exact .kept sameBots_refl
  | createTemporary => exact .kept (sameBots_same (createAccount_within .bots (by decide)))
  | forceTemporary | forcePasswordChange =>
    refine .kept ((forcePasswordChangeLocked_ends.mono fun _ next _ made => ?_).leaves sameBots_refl)
    obtain ⟨account, -, ⟨-, rfl⟩ | edit⟩ := made
    · exact sameBots_same rfl
    · exact edit.sameBots
  | resetAccountPassword =>
    refine .kept ((resetAccountPasswordLocked_ends.mono fun _ next _ made => ?_).leaves sameBots_refl)
    obtain ⟨account, passwordHash, -, -, edit⟩ := made
    exact edit.sameBots
  | changeAccountPassword =>
    refine .kept ((changeAccountPasswordLocked_ends.mono fun _ next _ made => ?_).leaves sameBots_refl)
    obtain ⟨account, passwordHash, -, -, edit⟩ := made
    exact edit.sameBots
  | transition asks answered =>
    refine .kept ((transitionAccountStatusLocked_ends.mono fun _ next _ made => ?_).leaves sameBots_refl)
    obtain ⟨account, -, -, mid, edit, ⟨rfl, -⟩ | ⟨-, rfl⟩⟩ := made
    · exact edit.sameBots
    · exact edit.sameBots.trans (sameBots_same rfl)
  | checkRecovery => exact .kept (sameBots_same (checkRecovery_within .bots (by decide)))
  | recoverPassword checked passwordHash now =>
    refine .kept ((recoverPasswordLocked_ends.mono fun _ next _ made => ?_).leaves sameBots_refl)
    obtain ⟨account, mid, moved, -, -, -, rfl, edit, -⟩ := made
    have retired : SameBots core.state
        ((core.state.retireLiveSecrets checked.login now).pruneDeadRecoveries now) := sameBots_same rfl
    exact retired.trans edit.sameBots
  | enrollBot account normalized now => exact storeEnrolled_enrolled rfl fun other => nomatch other
  | enrollTeamBot normalized now => exact storeEnrolled_enrolled rfl fun _ => rfl
  | rotateBotKey account now =>
    refine .kept ((rotateBotKeyLocked_ends.mono fun _ next _ made => ?_).leaves sameBots_refl)
    obtain ⟨bot, stored, stale, bot', key, -, found, -, -, -, rfl, -, keyed, -, -, -, rfl⟩ := made
    rw [← keyed] at found
    exact sameBots_insert found rekeyed_bots rfl
  | suspendBot =>
    refine .kept ((suspendBotLocked_ends.mono fun _ next _ made => ?_).leaves sameBots_refl)
    obtain ⟨bot, found, rfl⟩ := made
    exact sameBots_insert found rfl rfl
  | revokeBot now =>
    refine .kept ((revokeBotLocked_ends.mono fun _ next _ made => ?_).leaves sameBots_refl)
    obtain ⟨bot, found, rfl⟩ := made
    exact sameBots_insert found rfl rfl
  | exchangeBotEnrollmentKey verifiedHash now =>
    refine .kept ((exchangeBotEnrollmentKeyLocked_ends.mono fun _ next _ made => ?_).leaves sameBots_refl)
    obtain ⟨key, bot, -, -, -, -, -, -, -, -, rfl⟩ := made
    exact (sameBots_same (issueRefresh_within .bots (by decide))).trans noteAuth_sameBots
  | rotateBotRefreshToken now =>
    refine .kept ((rotateBotRefreshTokenLocked_ends.mono fun _ next _ made => ?_).leaves sameBots_refl)
    obtain ⟨existing, -, ⟨-, left⟩ | ⟨bot, key, -, -, -, rfl⟩⟩ := made
    · exact left.sameBots
    · exact succeeded_sameBots.trans noteAuth_sameBots
  | rotateBotRefreshTokenIdempotent now pruned prunes =>
    have before : SameBots core.state pruned.state := by
      rw [prunes]
      exact sameBots_same (pruneForRefresh_within .bots (by decide))
    exact .kept (before.trans rotateIdempotent_sameBots)
  | noteBotObservation now =>
    refine .kept ((noteBotObservationLocked_ends.mono fun _ next _ made => ?_).leaves sameBots_refl)
    obtain ⟨bot, _, found, ⟨_, _, _, _, _, _, _, _, rfl⟩, botActivity, rfl⟩ := made
    exact sameBots_insert found rfl rfl
  | _ => exact .kept (sameBots_same (within .bots (by simp [Call.tables])))

end BotSections

section AccountSections

variable {s s' : State} {core : ForgeCore} {login : String}

/-- The login an account has, as it is stored. -/
def loginAt (s : State) (login : String) : Option String :=
  (s.accounts.lookup login).map UserAccount.canonicalLogin

/-- The accounts a section leaves are those it found, or have a login that is `new`. -/
def AccountsFrom (new : String → Prop) (s s' : State) : Prop :=
  ∀ login, loginAt s' login = loginAt s login ∨ new login ∧ loginAt s' login = some login

/-- The logins invited are those invited before, or `new`. -/
def InvitedFrom (new : String → Prop) (s s' : State) : Prop :=
  ∀ id invitation, s'.auth.invitations.lookup id = some invitation →
    (∃ id before, s.auth.invitations.lookup id = some before ∧
      before.canonicalLogin = invitation.canonicalLogin) ∨ new invitation.canonicalLogin

variable {new : String → Prop}

theorem accountsFrom_same (same : s'.accounts = s.accounts) : AccountsFrom new s s' := by
  intro login
  unfold loginAt
  rw [same]
  exact .inl rfl

theorem accountsFrom_insert {account : UserAccount} (stored : s'.accounts = s.accounts.insert login account)
    (known : loginAt s login = some account.canonicalLogin ∨ new login ∧ account.canonicalLogin = login) :
    AccountsFrom new s s' := by
  intro other
  unfold loginAt at known ⊢
  rw [stored, HashMap.lookup_insert_if]
  by_cases same : other = login
  · rw [if_pos same, same]
    exact known.imp Eq.symm fun known => ⟨known.1, congrArg some known.2⟩
  · rw [if_neg same]
    exact .inl rfl

theorem loginAt_found {account : UserAccount} (found : s.accounts.lookup login = some account) :
    loginAt s login = some account.canonicalLogin := by
  unfold loginAt
  rw [found]
  rfl

theorem Edited.accountsFrom {account edited : UserAccount} {now : DateTime} {next : State}
    {answer : Except Failure AccountSummary} (found : s.accounts.lookup login = some account)
    (edit : Edited s login edited now next answer)
    (sameLogin : edited.canonicalLogin = account.canonicalLogin) : AccountsFrom new s next := by
  have known := loginAt_found found
  rw [← sameLogin] at known
  cases edit with
  | spoiled failure => exact accountsFrom_insert rfl (.inl known)
  | moved epoch same =>
    refine accountsFrom_insert rfl (.inl ?_)
    rw [same]
    exact known

theorem createAccount_accountsFrom {role : UserRole} {hash : Except ForgeError String}
    (named : new login) :
    AccountsFrom new core.state ((createAccountLocked login role hash core).leaves core).state := by
  refine (createAccountLocked_ends.mono fun _ next _ made => ?_).leaves (accountsFrom_same rfl)
  obtain ⟨-, -, account, user, given, -, -, rfl⟩ := made
  exact accountsFrom_insert rfl (.inr ⟨named, given⟩)

theorem activated_accounts {challenge : Digest} {record : ActivationChallenge}
    {invitation : AccountInvitation} {account : UserAccount} {user : User} {now : DateTime} :
    (s.activated challenge record invitation account user now).accounts =
      s.accounts.insert account.canonicalLogin account := by
  unfold State.activated
  dsimp only
  rw [joinTeams_within .accounts (by decide)]
  rfl

/-- Every section, by the accounts it leaves. -/
theorem Section.accountsFrom {call : Call} {core core' : ForgeCore} {reply : Option call.Reply}
    (moved : Section call core core' reply) :
    AccountsFrom (fun login => call.named = some login ∨ ∃ id invitation,
      core.state.auth.invitations.lookup id = some invitation ∧ invitation.canonicalLogin = login)
      core.state core'.state := by
  have within := moved.within
  cases moved with
  | audit audited entry => exact accountsFrom_same rfl
  | refused audited => exact accountsFrom_same rfl
  | createAccount | createTemporary => exact createAccount_accountsFrom (.inl rfl)
  | forceTemporary | forcePasswordChange =>
    refine (forcePasswordChangeLocked_ends.mono fun _ next _ made => ?_).leaves (accountsFrom_same rfl)
    obtain ⟨account, found, ⟨-, rfl⟩ | edit⟩ := made
    · have known := loginAt_found found
      exact accountsFrom_insert rfl (.inl known)
    · exact edit.accountsFrom found rfl
  | resetAccountPassword =>
    refine (resetAccountPasswordLocked_ends.mono fun _ next _ made => ?_).leaves (accountsFrom_same rfl)
    obtain ⟨account, passwordHash, found, -, edit⟩ := made
    exact edit.accountsFrom found rfl
  | changeAccountPassword =>
    refine (changeAccountPasswordLocked_ends.mono fun _ next _ made => ?_).leaves (accountsFrom_same rfl)
    obtain ⟨account, passwordHash, found, -, edit⟩ := made
    exact edit.accountsFrom found rfl
  | transition asks answered =>
    refine (transitionAccountStatusLocked_ends.mono fun _ next _ made => ?_).leaves (accountsFrom_same rfl)
    obtain ⟨account, found, -, mid, edit, ⟨rfl, -⟩ | ⟨-, rfl⟩⟩ := made
    · exact edit.accountsFrom found rfl
    · have kept {new : String → Prop} : AccountsFrom new core.state mid := edit.accountsFrom found rfl
      exact kept
  | checkRecovery => exact accountsFrom_same (checkRecovery_within .accounts (by decide))
  | recoverPassword checked passwordHash now =>
    refine (recoverPasswordLocked_ends.mono fun _ next _ made => ?_).leaves (accountsFrom_same rfl)
    obtain ⟨account, mid, moved, -, -, found, rfl, edit, -⟩ := made
    have kept {new : String → Prop} : AccountsFrom new
        ((core.state.retireLiveSecrets checked.login now).pruneDeadRecoveries now) next :=
      edit.accountsFrom found rfl
    exact kept
  | completeAccountActivation passwordHash now =>
    refine (completeAccountActivationLocked_ends.mono fun _ next _ made => ?_).leaves (accountsFrom_same rfl)
    obtain ⟨record, invitation, account, user, -, -, invited, -, -, -, -, -, named, -, -, rfl⟩ := made
    have invites : ∃ id invitation, core.state.auth.invitations.lookup id = some invitation ∧
        invitation.canonicalLogin = account.canonicalLogin := ⟨_, invitation, invited, named.symm⟩
    exact accountsFrom_insert activated_accounts (.inr ⟨.inr invites, rfl⟩)
  | _ => exact accountsFrom_same (within .accounts (by simp [Call.tables]))

theorem invitedFrom_same (same : s'.auth.invitations = s.auth.invitations) : InvitedFrom new s s' :=
  fun id invitation found => .inl ⟨id, invitation, by rwa [← same], rfl⟩

theorem invitedFrom_insert {id : Uuid} {invitation : AccountInvitation}
    (stored : s'.auth.invitations = s.auth.invitations.insert id invitation)
    (known : (∃ id before, s.auth.invitations.lookup id = some before ∧
      before.canonicalLogin = invitation.canonicalLogin) ∨ new invitation.canonicalLogin) :
    InvitedFrom new s s' := by
  intro other there found
  rw [stored, HashMap.lookup_insert_if] at found
  by_cases same : other = id
  · rw [if_pos same] at found
    cases found
    exact known
  · rw [if_neg same] at found
    exact .inl ⟨other, there, found, rfl⟩

theorem InvitedFrom.withChallenges
    {f : HashMap Digest ActivationChallenge → HashMap Digest ActivationChallenge}
    (invited : InvitedFrom new s s') : InvitedFrom new s (s'.withChallenges f) := invited

theorem activated_invitations {challenge : Digest} {record : ActivationChallenge}
    {invitation : AccountInvitation} {account : UserAccount} {user : User} {now : DateTime} :
    (s.activated challenge record invitation account user now).auth.invitations =
      s.auth.invitations.insert invitation.id { invitation with consumedAt := some now } := by
  unfold State.activated
  dsimp only
  rw [(joinTeams_within .invitations (by decide)).1]
  rfl

/-- Every section, by the logins it leaves invited. -/
theorem Section.invitedFrom {call : Call} {core core' : ForgeCore} {reply : Option call.Reply}
    (moved : Section call core core' reply) :
    InvitedFrom (call.named = some ·) core.state core'.state := by
  have within := moved.within
  cases moved with
  | audit audited entry => exact invitedFrom_same rfl
  | refused audited => exact invitedFrom_same rfl
  | createAccountInvitation teams now =>
    refine (createAccountInvitationLocked_ends.mono fun _ next _ made => ?_).leaves (invitedFrom_same rfl)
    obtain ⟨-, -, -, invitation, -, rfl, -, -, -, -, -, -, -, rfl⟩ := made
    intro id there found
    change ((core.state.auth.invitations.mapValues _).insert invitation.id invitation).lookup id =
      some there at found
    rw [HashMap.lookup_insert_if] at found
    split at found
    · cases found
      exact .inr rfl
    · rw [HashMap.lookup_mapValues] at found
      obtain ⟨before, known, rfl⟩ := Option.map_eq_some_iff.mp found
      refine .inl ⟨id, before, known, ?_⟩
      split <;> rfl
  | revokeAccountInvitation =>
    refine (revokeAccountInvitationLocked_ends.mono fun _ next _ made => ?_).leaves (invitedFrom_same rfl)
    obtain ⟨-, rfl | ⟨invitation, known, rfl⟩⟩ := made
    · exact invitedFrom_same rfl
    · exact invitedFrom_insert rfl (.inl ⟨_, invitation, known, rfl⟩)
  | startAccountActivation now =>
    refine (startAccountActivationLocked_ends.mono fun _ next _ made => ?_).leaves (invitedFrom_same rfl)
    obtain ⟨invitation, member, -, -, -, -, left⟩ := made
    obtain ⟨id, known⟩ := HashMap.mem_values.mp member
    have counted {new : String → Prop} : InvitedFrom new core.state (attempted core.state invitation) :=
      invitedFrom_insert rfl (.inl ⟨id, invitation, known, rfl⟩)
    rcases left with ⟨-, -, -, rfl⟩ | ⟨record, -, -, -, -, -, rfl⟩
    · exact counted
    · exact counted.withChallenges
  | completeAccountActivation passwordHash now =>
    refine (completeAccountActivationLocked_ends.mono fun _ next _ made => ?_).leaves (invitedFrom_same rfl)
    obtain ⟨record, invitation, account, user, -, -, invited, -, -, -, -, -, -, -, -, rfl⟩ := made
    exact invitedFrom_insert activated_invitations (.inl ⟨_, invitation, invited, rfl⟩)
  | transition asks answered =>
    exact invitedFrom_same (transition_within .invitations (by decide)).1
  | _ => exact invitedFrom_same (within .invitations (by simp [Call.tables, credentialTables])).1

end AccountSections

section Checked

/-- What a call gives an account, an invitation or a bot is a login. -/
structure Call.Checked (call : Call) : Prop where
  named : ∀ name, call.named = some name → canonical name = true

theorem checked_login {call : Call} {login : String} (named : call.named = some login)
    (passed : requireLogin login = .ok ()) : call.Checked := by
  refine ⟨fun name same => ?_⟩
  rw [named] at same
  cases same
  exact requireLogin_canonical passed

theorem writes_always {α : Type} {method : Method α} {P : Prop} (holds : P) :
    method.Writes fun _ _ _ => P :=
  ⟨(Program.meets_true method.run).mono (fun _ _ => True.intro) (fun _ _ _ _ _ => holds) fun _ h => h⟩

theorem checked_bind {α : Type} {call : Call} {login : String} {rest : Unit → Method α}
    (named : call.named = some login) :
    (ofExcept (requireLogin login) >>= rest).Writes fun _ _ _ => call.Checked :=
  writes_ofExcept_bind fun _ passed => writes_always (checked_login named passed)

theorem validateEnrollment_login {slug displayName env : String}
    (passed : validateEnrollment slug displayName env = .ok ()) : requireLogin slug = .ok () := by
  unfold validateEnrollment at passed
  cases login : requireLogin slug with
  | ok done => rfl
  | error error =>
    rw [login] at passed
    cases passed

theorem enrollment_bind {α : Type} {call : Call} {slug displayName env : String}
    {rest : Unit → Method α} (named : call.named = some slug) :
    (ofExcept (validateEnrollment slug displayName env) >>= rest).Writes fun _ _ _ => call.Checked :=
  writes_ofExcept_bind fun _ passed =>
    writes_always (checked_login named (validateEnrollment_login passed))

/-- A call writes only once the login it names has been checked. -/
theorem call_checked (call : Call) : call.method.Writes fun _ _ _ => call.Checked := by
  cases call with
  | createAccount login password role hash => exact checked_bind rfl
  | createTemporaryAccount login password role hash =>
    show (Core.createTemporaryAccount login password role hash).Writes _
    unfold Core.createTemporaryAccount Core.createAccount
    cases passed : requireLogin login with
    | ok done => exact writes_always (checked_login rfl passed)
    | error error => exact ⟨True.intro⟩
  | createAccountInvitation issuer login displayName bindings expiresAt bootstrapOwner random =>
    exact checked_bind rfl
  | enrollBot actor slug displayName kind reach env random =>
    exact (requireActiveAccount_readOnly actor).bind fun _ => enrollment_bind rfl
  | enrollTeamBot actor org stewardTeam slug displayName kind reach random =>
    exact (requireActiveAccount_readOnly actor).bind fun _ => enrollment_bind rfl
  | _ => exact writes_always ⟨fun _ named => nomatch named⟩

end Checked

section Names

variable {s s' : State} {core core' : ForgeCore} {id other : Uuid} {bot bot' : BotRecord}

/-- What the names of accounts, invitations and bots are made of, in any state. -/
structure Named (team : String → Prop) (s : State) : Prop where
  accounts : ∀ login, (s.accounts.lookup login).isSome → canonical login = true
  invitations : ∀ id invitation, s.auth.invitations.lookup id = some invitation →
    canonical invitation.canonicalLogin = true
  ids : ∀ id bot, s.bots.lookup id = some bot → bot.id = id
  slugs : ∀ id bot, s.bots.lookup id = some bot → canonical bot.slug = true
  teams : ∀ id bot, s.bots.lookup id = some bot → bot.ownerKind = .organization → team bot.owner
  unique : ∀ id id' bot bot', s.bots.lookup id = some bot → s.bots.lookup id' = some bot' →
    bot.owner = bot'.owner → bot.slug = bot'.slug → id = id'

variable {team : String → Prop}

theorem named_empty : Named team .empty where
  accounts _ known := nomatch known
  invitations _ _ found := nomatch found
  ids _ _ found := nomatch found
  slugs _ _ found := nomatch found
  teams _ _ found := nomatch found
  unique _ _ _ _ found := nomatch found

theorem identity_eq (same : identity bot = identity bot') :
    bot.id = bot'.id ∧ bot.ownerKind = bot'.ownerKind ∧ bot.owner = bot'.owner ∧ bot.slug = bot'.slug := by
  simpa [identity] using same

/-- One section keeps the names, where a team bot is added only for a `team`. -/
theorem Named.step {call : Call} {reply : Option call.Reply} (named : Named team core.state)
    (moved : Section call core core' reply) (checked : call.Checked)
    (allowed : ∀ org, call.team = some org → team org) : Named team core'.state := by
  have accounts : ∀ login, (core'.state.accounts.lookup login).isSome → canonical login = true := by
    intro login known
    rcases moved.accountsFrom login with same | ⟨given | ⟨id, invitation, found, rfl⟩, -⟩
    · have before := congrArg Option.isSome same
      unfold loginAt at before
      rw [Option.isSome_map, Option.isSome_map] at before
      exact named.accounts login (by rwa [← before])
    · exact checked.named login given
    · exact named.invitations id invitation found
  have invitations : ∀ id invitation, core'.state.auth.invitations.lookup id = some invitation →
      canonical invitation.canonicalLogin = true := by
    intro id invitation found
    rcases moved.invitedFrom id invitation found with ⟨id, before, known, same⟩ | given
    · rw [← same]
      exact named.invitations id before known
    · exact checked.named _ given
  cases moved.enrolled with
  | kept same =>
    refine ⟨accounts, invitations, fun id bot found => ?_, fun id bot found => ?_,
      fun id bot found kind => ?_, fun id id' bot bot' found found' owner slug => ?_⟩
    · obtain ⟨before, known, same⟩ := same.found found
      rw [← (identity_eq same).1]
      exact named.ids id before known
    · obtain ⟨before, known, same⟩ := same.found found
      rw [← (identity_eq same).2.2.2]
      exact named.slugs id before known
    · obtain ⟨before, known, same⟩ := same.found found
      obtain ⟨-, sameKind, sameOwner, -⟩ := identity_eq same
      rw [← sameOwner]
      exact named.teams id before known (sameKind.trans kind)
    · obtain ⟨before, known, same₁⟩ := same.found found
      obtain ⟨before', known', same₂⟩ := same.found found'
      obtain ⟨-, -, owner₁, slug₁⟩ := identity_eq same₁
      obtain ⟨-, -, owner₂, slug₂⟩ := identity_eq same₂
      exact named.unique id id' before before' known known' (by rw [owner₁, owner₂, owner])
        (by rw [slug₁, slug₂, slug])
  | added bot stored given fresh owned =>
    have entry (id : Uuid) (found : BotRecord) (known : core'.state.bots.lookup id = some found) :
        id = bot.id ∧ found = bot ∨ core.state.bots.lookup id = some found := by
      rw [stored, HashMap.lookup_insert_if] at known
      split at known
      · next same =>
        cases known
        exact .inl ⟨same, rfl⟩
      · exact .inr known
    refine ⟨accounts, invitations, fun id found known => ?_, fun id found known => ?_,
      fun id found known kind => ?_, fun id id' found found' known known' owner slug => ?_⟩
    · rcases entry id found known with ⟨rfl, rfl⟩ | before
      · rfl
      · exact named.ids id found before
    · rcases entry id found known with ⟨rfl, rfl⟩ | before
      · exact checked.named _ given
      · exact named.slugs id found before
    · rcases entry id found known with ⟨rfl, rfl⟩ | before
      · exact allowed _ (owned kind)
      · exact named.teams id found before kind
    · rcases entry id found known with ⟨rfl, rfl⟩ | before
      · rcases entry id' found' known' with ⟨rfl, rfl⟩ | before'
        · rfl
        · exact absurd slug.symm (fresh id' found' before' owner.symm)
      · rcases entry id' found' known' with ⟨rfl, rfl⟩ | before'
        · exact absurd slug (fresh id found before owner)
        · exact named.unique id id' found found' before before' owner slug

/-- In a run that enrolls team bots only for a `team`. -/
theorem named_of_run {ticks : DateTime → DateTime → Prop} {start pool : Pool} (initial : start.Initial)
    (run : Run (accounts ticks) (When fun call _ => ∀ org, call.team = some org → team org) start pool) :
    Named team pool.shared.state := by
  have certified : Certified (accounts ticks)
      (When fun call _ => ∀ org, call.team = some org → team org) (fun core => Named team core.state)
      (fun call core core' reply => Section call core core' reply ∧ call.Checked) fun _ _ => True := by
    refine ⟨fun call => ?_, fun core core' named ambient => ?_, fun call update core reply named allowed moved => ?_⟩
    · have meets := (call_writes call).meets.and (call_checked call).meets
      exact meets.mono (fun _ _ => True.intro) (fun _ _ _ _ moved => moved) fun _ _ => True.intro
    · obtain ⟨accounts, invitations, ids, slugs, teams, unique⟩ := named
      rw [← ambient.accounts] at accounts
      rw [← ambient.auth] at invitations
      rw [← ambient.bots] at ids slugs teams unique
      exact ⟨accounts, invitations, ids, slugs, teams, unique⟩
    · exact named.step moved.1 moved.2 allowed
  have empty : Named team start.shared.state := by
    rw [initial.1]
    exact named_empty
  exact (certified.run run (initial.sound empty)).holds

end Names

end Jeryu.Auth
