import Jeryu.Auth.Effects

namespace Jeryu.Auth

open Jeryu.Core KeyedMap

section Bots

variable {core : ForgeCore} {actor : String} {botId : Uuid}

theorem managedBot_ok {s : State} {bot : BotRecord} (managed : s.managedBot actor botId = .ok bot) :
    s.bots.lookup botId = some bot ∧ s.mayManageBot actor bot = true := by
  unfold State.managedBot at managed
  split at managed
  · next found =>
    split at managed
    · next may =>
      cases managed
      exact ⟨found, may⟩
    · cases managed
  · cases managed

theorem storeEnrolledBotLocked_ends {record : Uuid → BotRecord} {env : String} :
    Outcome.Ends (fun draws next answer => draws = 3 ∧ answer.1 = record core.uuids ∧
      ∃ key : BotKeyRecord, key.keyId = core.uuids + 1 ∧ key.botId = (record core.uuids).id ∧
        key.secretHash = tokenHash (core.uuids + 2) ∧ key.revokedAt = none ∧
        answer.2 = ⟨(record core.uuids).summary, core.uuids + 1, core.uuids + 2⟩ ∧
        next = (core.state.withKey key).withBot (record core.uuids))
      (storeEnrolledBotLocked record env core) := by
  unfold storeEnrolledBotLocked
  exact ends_ite (fun _ => True.intro) fun _ => ⟨rfl, rfl, _, rfl, rfl, rfl, rfl, rfl, rfl⟩

/-- The state once a key of the bot has been rotated; `stale` is whether the account moved on since
    the last time. -/
def rekeyed (s : State) (bot : BotRecord) (key : BotKeyRecord) (stale : Bool) (now : DateTime) : State :=
  let s := s.mapKeys (rotatedKey key.botId stale now)
  let s := if stale then s.dropRefresh fun token => token.botId = key.botId else s
  { s.withKey key with bots := s.bots.insert key.botId bot }

theorem rotateBotKeyLocked_ends {account : AccountSummary} {now : DateTime} :
    Outcome.Ends (fun draws next answer => ∃ bot stored stale bot', ∃ key : BotKeyRecord, draws = 2 ∧
      core.state.bots.lookup botId = some bot ∧ core.state.mayManageBot actor bot = true ∧
      core.state.accounts.lookup account.login = some stored ∧
      stale = (bot.ownerKind = .user && bot.authEpoch != stored.authEpoch) ∧
      bot' = { bot with
        authEpoch := if bot.ownerKind = .user then stored.authEpoch else bot.authEpoch
        updatedAt := now
        credentialGeneration :=
          if stale then bot.credentialGeneration + 1 else bot.credentialGeneration } ∧
      key.keyId = core.uuids ∧ key.botId = botId ∧ key.secretHash = tokenHash (core.uuids + 1) ∧
      key.revokedAt = none ∧ answer.keyId = core.uuids ∧ next = rekeyed core.state bot' key stale now)
      (rotateBotKeyLocked actor account botId now core) := by
  unfold rotateBotKeyLocked
  cases managed : core.state.managedBot actor botId with
  | error error => exact True.intro
  | ok bot =>
    obtain ⟨found, may⟩ := managedBot_ok managed
    refine ends_ite (fun _ => True.intro) fun _ => ?_
    cases known : core.state.accounts.lookup account.login with
    | none => exact True.intro
    | some stored =>
      refine ends_ite (fun _ => True.intro) fun _ => ?_
      exact ⟨bot, stored, _, _, { keyId := core.uuids, botId, secretHash := tokenHash (core.uuids + 1)
                                  env := "live", createdAt := now, retiredAt := none
                                  revokedAt := none }, rfl, found, may, rfl, rfl, rfl, rfl, rfl, rfl,
        rfl, rfl, rfl⟩

theorem suspendBotLocked_ends :
    Outcome.Ends (fun _ next _ => ∃ bot, core.state.bots.lookup botId = some bot ∧
      next = { core.state with bots := (core.state.bots.insert botId
        { bot with status := .suspended, updatedAt := core.now }) })
      (suspendBotLocked actor botId core) := by
  unfold suspendBotLocked
  cases managed : core.state.managedBot actor botId with
  | error error => exact True.intro
  | ok bot =>
    exact ends_ite (fun _ => True.intro) fun _ => ⟨bot, (managedBot_ok managed).1, rfl⟩

/-- The state once the bot has been revoked. -/
def retired (s : State) (bot : BotRecord) (botId : Uuid) (now : DateTime) : State :=
  let s := { s with bots := s.bots.insert botId { bot.regenerated now with status := .revoked } }
  let s := s.mapKeys fun key => if key.botId = botId then { key with revokedAt := some now } else key
  s.dropRefresh fun token => token.botId = botId

theorem revokeBotLocked_ends {now : DateTime} :
    Outcome.Ends (fun _ next _ => ∃ bot, core.state.bots.lookup botId = some bot ∧
      next = retired core.state bot botId now) (revokeBotLocked actor botId now core) := by
  unfold revokeBotLocked
  cases managed : core.state.managedBot actor botId with
  | error error => exact True.intro
  | ok bot => exact ⟨bot, (managedBot_ok managed).1, rfl⟩

theorem noteBotObservationLocked_ends {observation : BotObservation} {now : DateTime} :
    Outcome.Ends (fun _ next _ => ∃ bot bot' : BotRecord, core.state.bots.lookup botId = some bot ∧
      (∃ access auth mutation heartbeat action outcome repo updated, bot' =
        { bot with lastSuccessfulAccess := access, lastAuth := auth, lastMutation := mutation
                   lastHeartbeat := heartbeat, lastAction := action, lastOutcome := outcome
                   lastRepo := repo, updatedAt := updated }) ∧
      ∃ botActivity, next = { core.state with
        bots := core.state.bots.insert botId bot', auth := { core.state.auth with botActivity } })
      (noteBotObservationLocked botId observation now core) := by
  unfold noteBotObservationLocked
  cases found : core.state.bots.lookup botId with
  | none => exact True.intro
  | some bot =>
    refine ends_ite (fun _ => ?_) fun _ => ends_ite (fun _ => ?_) fun _ => ?_
    · split
      · exact True.intro
      · exact ⟨bot, _, rfl, ⟨_, _, _, _, _, _, _, _, rfl⟩, _, rfl⟩
    · exact ⟨bot, _, rfl, ⟨_, _, _, _, _, _, _, _, rfl⟩, _, rfl⟩
    · exact ⟨bot, _, rfl, ⟨_, _, _, _, _, _, _, _, rfl⟩, _, rfl⟩

end Bots

section Refresh

variable {core : ForgeCore}

theorem exchangeBotEnrollmentKeyLocked_ends {keyId : Secret} {verifiedHash : Digest}
    {random : Except ForgeError Unit} {now : DateTime} :
    Outcome.Ends (fun draws next answer => ∃ key bot, draws = 1 ∧
      core.state.auth.botKeys.lookup keyId = some key ∧ key.secretHash = verifiedHash ∧
      key.isLive now = true ∧ core.state.bots.lookup key.botId = some bot ∧ bot.ownerKind = .user ∧
      core.state.botAccountMatches bot = true ∧
      answer = .ok (bot, (core.state.issueRefresh bot key core.uuids now).1) ∧
      next = (core.state.issueRefresh bot key core.uuids now).2.noteAuth bot.id now)
      (exchangeBotEnrollmentKeyLocked keyId verifiedHash random now core) := by
  unfold exchangeBotEnrollmentKeyLocked
  cases stored : core.state.auth.botKeys.lookup keyId with
  | none => exact True.intro
  | some key =>
    refine ends_ite (fun _ => True.intro) fun sound => ?_
    simp only [Bool.or_eq_true, bne_iff_ne, ne_eq, Bool.not_eq_true', not_or, not_not,
      Bool.not_eq_false] at sound
    cases found : core.state.bots.lookup key.botId with
    | none => exact True.intro
    | some bot =>
      refine ends_ite (fun _ => True.intro) fun stands => ?_
      simp only [Bool.or_eq_true, decide_eq_true_eq, Bool.not_eq_true', not_or,
        Bool.not_eq_false] at stands
      have personal : bot.ownerKind = .user := by
        cases kind : bot.ownerKind with
        | user => rfl
        | organization => exact absurd kind stands.1
      cases random with
      | error error => exact True.intro
      | ok done => exact ⟨key, bot, rfl, rfl, sound.1, sound.2, found, personal, stands.2, rfl, rfl⟩

/-- What a presented refresh token leaves: a reuse revokes the family. -/
inductive Presented (core : ForgeCore) (presented : Digest) (now : DateTime)
    (existing : BotRefreshRecord) : State → Except Failure RefreshAnswer → Prop where
  | reused (actor subject : String) (used : existing.usedAt.isSome = true) :
      Presented core presented now existing (core.state.revokeRefreshFamily existing.botId now)
        (.ok (.reused actor subject))
  | spoiled (failure : Failure) (unused : existing.usedAt = none) :
      Presented core presented now existing (core.state.spendRefresh presented now) (.error failure)

/-- A refresh token spent on its successor. -/
structure Succeeds (core : ForgeCore) (presented : Digest) (now : DateTime)
    (existing : BotRefreshRecord) (bot : BotRecord) (key : BotKeyRecord) : Prop where
  found : core.state.auth.botRefresh.lookup presented = some existing
  unused : existing.usedAt = none
  unexpired : now < existing.expiresAt
  known : core.state.bots.lookup existing.botId = some bot
  kept : core.state.auth.botKeys.lookup existing.keyId = some key
  stands : core.state.standsBehind existing bot key now = true

/-- The state a spent token leaves, and the session it is answered with. -/
def succeeded (core : ForgeCore) (presented : Digest) (now : DateTime) (bot : BotRecord)
    (key : BotKeyRecord) : BotSession × State :=
  (core.state.spendRefresh presented now).issueRefresh bot key core.uuids now

theorem revokeReused_ends {existing : BotRefreshRecord} {presented : Digest} {now : DateTime}
    (used : existing.usedAt.isSome = true) :
    Outcome.Ends (fun draws next answer =>
      draws = 0 ∧ Presented core presented now existing next answer)
      (revokeReused existing now core) := by
  unfold revokeReused
  cases core.state.bots.lookup existing.botId with
  | none => exact ⟨rfl, .reused _ _ used⟩
  | some bot => exact ⟨rfl, .reused _ _ used⟩

theorem rotateBotRefreshTokenLocked_ends {presented : Digest} {random : Except ForgeError Unit}
    {now : DateTime} :
    Outcome.Ends (fun draws next answer => ∃ existing,
      core.state.auth.botRefresh.lookup presented = some existing ∧
      (draws = 0 ∧ Presented core presented now existing next answer ∨
        ∃ bot key, draws = 1 ∧ Succeeds core presented now existing bot key ∧
          answer = .ok (.session (succeeded core presented now bot key).1) ∧
          next = (succeeded core presented now bot key).2.noteAuth bot.id now))
      (rotateBotRefreshTokenLocked presented random now core) := by
  unfold rotateBotRefreshTokenLocked
  cases found : core.state.auth.botRefresh.lookup presented with
  | none => exact True.intro
  | some existing =>
    refine ends_ite (fun used => ?_) fun unused => ends_ite (fun _ => True.intro) fun unexpired => ?_
    · exact (revokeReused_ends used).mono fun _ _ _ reused => ⟨existing, rfl, .inl reused⟩
    · have unused : existing.usedAt = none := by simpa using unused
      cases known : core.state.bots.lookup existing.botId with
      | none => exact True.intro
      | some bot =>
        cases kept : core.state.auth.botKeys.lookup existing.keyId with
        | none => exact True.intro
        | some key =>
          refine ends_ite (fun _ => True.intro) fun stands => ?_
          cases random with
          | error error => exact ⟨existing, rfl, .inl ⟨rfl, .spoiled _ unused⟩⟩
          | ok done =>
            exact ⟨existing, rfl, .inr ⟨bot, key, rfl,
              ⟨found, unused, not_le.mp unexpired, known, kept, by simpa using stands⟩, rfl, rfl⟩⟩

/-- The record of a rotation, for a lost response. -/
def rotation (existing : BotRefreshRecord) (presented : Digest) (requestKey bodyDigest vaultKey : String)
    (session : BotSession) (now : DateTime) : BotOperationRecord :=
  { botId := existing.botId, operation := refreshOperation
    requestKey := .refresh presented requestKey, bodyDigest
    result := some (.sealed (sealReplay vaultKey presented session)), createdAt := now }

theorem rotateIdempotentLocked_ends {vaultKey : Option String} {presented : Digest}
    {requestKey bodyDigest : String} {random : Except ForgeError Unit} {now : DateTime} :
    Outcome.Ends (fun draws next answer => ∃ existing,
      core.state.auth.botRefresh.lookup presented = some existing ∧
      (draws = 0 ∧ Presented core presented now existing next answer ∨
        ∃ bot key vault, draws = 1 ∧ Succeeds core presented now existing bot key ∧
          vaultKey = some vault ∧ core.state.auth.botOperations.lookup
            (refreshOperationKey existing.botId presented requestKey) = none ∧
          answer = .ok (.session (succeeded core presented now bot key).1) ∧
          next = ((succeeded core presented now bot key).2.withOperations fun rows =>
            rows.insert (refreshOperationKey existing.botId presented requestKey) (rotation existing
              presented requestKey bodyDigest vault (succeeded core presented now bot key).1
                now)).noteAuth bot.id now))
      (rotateIdempotentLocked vaultKey presented requestKey bodyDigest random now core) := by
  unfold rotateIdempotentLocked
  cases found : core.state.auth.botRefresh.lookup presented with
  | none => exact True.intro
  | some existing =>
    refine ends_ite (fun _ => True.intro) fun _ => ends_ite (fun _ => True.intro) fun finished => ?_
    cases known : core.state.bots.lookup existing.botId with
    | none => exact True.intro
    | some bot =>
      cases kept : core.state.auth.botKeys.lookup existing.keyId with
      | none => exact True.intro
      | some key =>
        refine ends_ite (fun _ => True.intro) fun stands => ?_
        cases stored : core.state.auth.botOperations.lookup
            (refreshOperationKey existing.botId presented requestKey) with
        | some operation =>
          rw [stored] at finished
          cases result : operation.result with
          | none => exact absurd (by simp [result]) finished
          | some result' =>
            simp only [Option.bind_some, result]
            cases used : existing.usedAt with
            | none => exact True.intro
            | some usedAt =>
              refine ends_ite (fun _ => ?_) fun _ => ?_
              · unfold replayRefresh
                cases vaultKey with
                | none => exact True.intro
                | some vault =>
                  dsimp only
                  split <;> exact True.intro
              · exact (revokeReused_ends (by rw [used]; rfl)).mono
                  fun _ _ _ reused => ⟨existing, rfl, .inl reused⟩
        | none =>
          cases used : existing.usedAt with
          | some usedAt =>
            exact (revokeReused_ends (by rw [used]; rfl)).mono
              fun _ _ _ reused => ⟨existing, rfl, .inl reused⟩
          | none =>
            refine ends_ite (fun _ => True.intro) fun unexpired => ?_
            unfold rotateFirst
            cases random with
            | error error => exact True.intro
            | ok done =>
              cases vaultKey with
              | none => exact True.intro
              | some vault =>
                exact ⟨existing, rfl, .inr ⟨bot, key, vault, rfl,
                  ⟨found, used, not_le.mp unexpired, known, kept, by simpa using stands⟩, rfl, stored,
                  rfl, rfl⟩⟩

end Refresh

section Tokens

variable {core : ForgeCore} {actor : String} {botId : Uuid} {now : DateTime}

theorem issueBotAccessTokenLocked_ends {label : Option String} {ttlDays : Nat} :
    Outcome.Ends (fun draws next answer => ∃ bot, ∃ record : BotAccessTokenRecord, draws = 2 ∧
      core.state.bots.lookup botId = some bot ∧ core.state.mayManageBot actor bot = true ∧
      core.state.botAccountMatches bot = true ∧ record.tokenHash = tokenHash core.uuids ∧
      record.botId = bot.id ∧ record.generation = bot.credentialGeneration ∧
      record.issuedBy = some actor ∧ answer.2.token = core.uuids ∧ next = core.state.withToken record)
      (issueBotAccessTokenLocked actor botId label ttlDays now core) := by
  unfold issueBotAccessTokenLocked
  cases managed : core.state.managedBot actor botId with
  | error error => exact True.intro
  | ok bot =>
    obtain ⟨found, may⟩ := managedBot_ok managed
    refine ends_ite (fun _ => True.intro) fun stands => ?_
    cases core.state.newestLiveKey bot now with
    | none => exact True.intro
    | some keyId =>
      refine ends_ite (fun _ => True.intro) fun _ => ?_
      exact ⟨bot, _, rfl, found, may, by simpa using stands, rfl, rfl, rfl, rfl, rfl, rfl⟩

theorem revokeBotAccessTokenLocked_ends {tokenId : Secret} :
    Outcome.Ends (fun _ next _ => ∃ hash record revoked,
      core.state.auth.botAccessTokens.lookup hash = some record ∧
      revoked = { record with revokedAt := some (record.revokedAt.getD now) } ∧
      next = { core.state with auth := { core.state.auth with
        botAccessTokens := core.state.auth.botAccessTokens.insert hash revoked } })
      (revokeBotAccessTokenLocked actor botId tokenId now core) := by
  unfold revokeBotAccessTokenLocked
  cases managed : core.state.managedBot actor botId with
  | error error => exact True.intro
  | ok bot =>
    dsimp only
    split
    · exact True.intro
    · next hash record found =>
      have stored := HashMap.mem_pairs.mp (List.mem_of_find?_eq_some found)
      exact ⟨hash, record, _, stored, rfl, rfl⟩

theorem noteTokenUseLocked_ends {token : Secret} :
    Outcome.Ends (fun _ next _ => ∃ record,
      core.state.auth.botAccessTokens.lookup (tokenHash token) = some record ∧
      next = { core.state with auth := { core.state.auth with
        botAccessTokens := (core.state.auth.botAccessTokens.insert (tokenHash token)
          { record with lastUsedAt := some now }) } })
      (noteTokenUseLocked token now core) := by
  unfold noteTokenUseLocked
  cases found : core.state.auth.botAccessTokens.lookup (tokenHash token) with
  | none => exact True.intro
  | some record => exact ⟨record, rfl, rfl⟩

theorem revokeIssuedTeamBotTokensLocked_ends :
    Outcome.Ends (fun _ next _ => next = (core.state.revokeTokensIssuedBy actor now).2)
      (revokeIssuedTeamBotTokensLocked actor now core) :=
  ends_ite (fun _ => True.intro) fun _ => rfl

theorem grantBotRepositoryLocked_ends {owner repo : String} {access : BotRepoAccess} :
    Outcome.Ends (fun _ next _ => ∃ botRepoGrants, next = { core.state with botRepoGrants })
      (grantBotRepositoryLocked actor botId owner repo access now core) := by
  unfold grantBotRepositoryLocked
  split
  · exact True.intro
  · exact ends_ite (fun _ => True.intro) fun _ => ⟨_, rfl⟩

theorem revokeBotRepositoryGrantLocked_ends {owner repo : String} :
    Outcome.Ends (fun _ next _ => ∃ botRepoGrants, next = { core.state with botRepoGrants })
      (revokeBotRepositoryGrantLocked actor botId owner repo core) := by
  unfold revokeBotRepositoryGrantLocked
  split
  · exact True.intro
  · exact ends_ite (fun _ => True.intro) fun _ => ⟨_, rfl⟩

end Tokens

section Operations

variable {core : ForgeCore} {botId : Uuid} {operation requestKey : String}

theorem reserveBotOperationLocked_ends {bodyDigest : String} {now : DateTime} :
    Outcome.Ends (fun _ next answer =>
      (answer ≠ .start ∧ next = core.state.pruneBotOperations now) ∨
      ∃ record : BotOperationRecord, answer = .start ∧
        (core.state.pruneBotOperations now).auth.botOperations.lookup
          (botId, operation, RequestKey.plain requestKey) = none ∧
        record.operation = operation ∧ record.bodyDigest = bodyDigest ∧ record.result = none ∧
        record.createdAt = now ∧ next = (core.state.pruneBotOperations now).withOperations fun rows =>
          rows.insert (botId, operation, RequestKey.plain requestKey) record)
      (reserveBotOperationLocked botId operation requestKey bodyDigest now core) := by
  unfold reserveBotOperationLocked
  refine ends_ite (fun _ => True.intro) fun _ => ?_
  dsimp only
  cases stored : (core.state.pruneBotOperations now).auth.botOperations.lookup
      (botId, operation, RequestKey.plain requestKey) with
  | none => exact .inr ⟨_, rfl, rfl, rfl, rfl, rfl, rfl, rfl⟩
  | some existing =>
    refine ends_ite (fun _ => True.intro) fun _ => ?_
    cases existing.result with
    | none => exact .inl ⟨(fun same => nomatch same), rfl⟩
    | some result => exact .inl ⟨(fun same => nomatch same), rfl⟩

theorem finishBotOperationLocked_ends {result : String} :
    Outcome.Ends (fun _ next _ => ∃ existing, core.state.auth.botOperations.lookup
        (botId, operation, RequestKey.plain requestKey) = some existing ∧ existing.result = none ∧
      next = core.state.withOperations fun rows => rows.insert
        (botId, operation, RequestKey.plain requestKey) { existing with result := some (.json result) })
      (finishBotOperationLocked botId operation requestKey result core) := by
  unfold finishBotOperationLocked
  dsimp only
  cases stored : core.state.auth.botOperations.lookup (botId, operation, RequestKey.plain requestKey) with
  | none => exact True.intro
  | some existing =>
    refine ends_ite (fun _ => True.intro) fun open_ => ?_
    exact ⟨existing, rfl, by simpa using open_, rfl⟩

end Operations

end Jeryu.Auth
