import Jeryu.Auth.TeamBots
import Jeryu.Core.Runs

namespace Jeryu.Auth

open Jeryu.Core KeyedMap LockProgram

section Grants

/-- An explicit grant of the principal a bot acts under, on exactly this repository: the owner's
    for a person's bot, the bot's own for a team bot. -/
inductive HoldsGrant (state : State) (bot : BotRecord) (owner repo : String) (effect : BotEffect) :
    Prop where
  | owners (kind : bot.ownerKind = .user) {grant : RepoAccessGrant}
      (granted : state.repoGrants.lookup (bot.owner, owner, repo) = some grant)
      (enough : effect = .write → grant.access = .write ∨ grant.access = .admin)
  | own (kind : bot.ownerKind = .organization) {repository : Repository} {access : BotRepoAccess}
      (found : state.repos.lookup (owner, repo) = some repository)
      (granted : state.botRepoGrants.lookup (bot.id, repository.id) = some access)
      (enough : effect = .write → access = .write)

def IsPublic (state : State) (owner repo : String) : Prop :=
  ∃ repository, state.repos.lookup (owner, repo) = some repository ∧ repository.isPrivate = false

variable {state : State} {bot : BotRecord} {login owner repo : String}

theorem ownerGrantAllows_write (kind : bot.ownerKind = .user)
    (allows : state.ownerGrantAllows bot.owner owner repo true = true) :
    HoldsGrant state bot owner repo .write := by
  unfold State.ownerGrantAllows at allows
  split at allows
  · cases allows
  · split at allows
    · cases allows
    · split at allows
      · cases allows
      · simp only [Bool.not_true, Bool.false_and, Bool.false_eq_true, if_false, if_true] at allows
        split at allows
        · cases allows
        · next grant granted =>
          refine .owners kind granted fun _ => ?_
          simpa [RepoAccessLevel.allowsWrite] using allows

theorem ownerGrantAllows_read (kind : bot.ownerKind = .user)
    (allows : state.ownerGrantAllows bot.owner owner repo false = true) :
    HoldsGrant state bot owner repo .read ∨ IsPublic state owner repo := by
  unfold State.ownerGrantAllows at allows
  split at allows
  · cases allows
  · split at allows
    · cases allows
    · split at allows
      · cases allows
      · next row found =>
        split at allows
        · next isPublic =>
          exact .inr ⟨row, found, by simpa using isPublic⟩
        · split at allows
          · cases allows
          · next grant granted =>
            exact .inl (.owners kind granted fun absurd => nomatch absurd)

theorem grantAccess_some {access : BotRepoAccess}
    (granted : state.grantAccess bot.id owner repo = some access) :
    ∃ repository, state.repos.lookup (owner, repo) = some repository ∧
      state.botRepoGrants.lookup (bot.id, repository.id) = some access := by
  unfold State.grantAccess at granted
  split at granted
  · next repository found => exact ⟨repository, found, granted⟩
  · cases granted

theorem grantAllows_write (kind : bot.ownerKind = .organization)
    (allows : state.grantAllows bot.id owner repo true = true) :
    HoldsGrant state bot owner repo .write := by
  unfold State.grantAllows at allows
  split at allows
  · cases allows
  · simp only [Bool.not_true, Bool.false_and, Bool.false_eq_true, if_false, Bool.false_or,
      Option.any_eq_true] at allows
    obtain ⟨access, granted, enough⟩ := allows
    obtain ⟨repository, found, held⟩ := grantAccess_some granted
    exact .own kind found held fun _ => by simpa [BotRepoAccess.allowsWrite] using enough

theorem grantAllows_read (kind : bot.ownerKind = .organization)
    (allows : state.grantAllows bot.id owner repo false = true) :
    HoldsGrant state bot owner repo .read ∨ IsPublic state owner repo := by
  unfold State.grantAllows at allows
  split at allows
  · cases allows
  · next row found =>
    split at allows
    · next isPublic => exact .inr ⟨row, found, by simpa using isPublic⟩
    · obtain ⟨access, granted, -⟩ := (Option.any_eq_true _ _).mp allows
      obtain ⟨repository, found, held⟩ := grantAccess_some granted
      exact .inl (.own kind found held fun absurd => nomatch absurd)

theorem botGrantAllows_write (allows : state.botGrantAllows bot owner repo true = true) :
    HoldsGrant state bot owner repo .write := by
  unfold State.botGrantAllows at allows
  split at allows
  · next kind => exact ownerGrantAllows_write kind allows
  · next kind => exact grantAllows_write kind allows

theorem botGrantAllows_read (allows : state.botGrantAllows bot owner repo false = true) :
    HoldsGrant state bot owner repo .read ∨ IsPublic state owner repo := by
  unfold State.botGrantAllows at allows
  split at allows
  · next kind => exact ownerGrantAllows_read kind allows
  · next kind => exact grantAllows_read kind allows

theorem botHasGrant_holds (has : state.botHasGrant bot owner repo = true) :
    HoldsGrant state bot owner repo .read := by
  unfold State.botHasGrant at has
  split at has
  · next kind =>
    obtain ⟨account, -, holds⟩ := (Option.any_eq_true _ _).mp has
    obtain ⟨-, granted⟩ := Bool.and_eq_true_iff.mp holds
    obtain ⟨grant, found, -⟩ := (Option.any_eq_true _ _).mp granted
    exact .owners kind found fun absurd => nomatch absurd
  · next kind =>
    obtain ⟨access, granted⟩ := Option.isSome_iff_exists.mp has
    obtain ⟨repository, found, held⟩ := grantAccess_some granted
    exact .own kind found held fun absurd => nomatch absurd

end Grants

/-- The repository of a call lies inside a reach, and so does the task of a write under a task
    reach. -/
def Covers (state : State) (bot : BotRecord) (call : BotCall) : BotReach → Prop
  | .general _ => True
  | .owners owners _ => call.owner ∈ owners ∧ HoldsGrant state bot call.owner call.repo .read
  | .repositories repos _ => ⟨call.owner, call.repo⟩ ∈ repos
  | .task repo taskKind taskId _ => repo = ⟨call.owner, call.repo⟩ ∧
      (call.effect = .write → call.taskKind = some taskKind ∧ call.taskId = some taskId)

theorem reachAllows_covers {state : State} {bot : BotRecord} {call : BotCall}
    (allows : state.reachAllows bot call = true) : Covers state bot call bot.reach := by
  unfold State.reachAllows at allows
  cases same : bot.reach with
  | general refs => exact True.intro
  | owners owners refs =>
    rw [same] at allows
    obtain ⟨named, granted⟩ := Bool.and_eq_true_iff.mp allows
    exact ⟨List.contains_iff_mem.mp named, botHasGrant_holds granted⟩
  | repositories repos refs =>
    rw [same] at allows
    obtain ⟨repo, member, here⟩ := List.any_eq_true.mp allows
    simp only [Bool.and_eq_true, decide_eq_true_eq] at here
    obtain ⟨owner, name⟩ := repo
    obtain ⟨rfl, rfl⟩ := here
    exact member
  | task repo taskKind taskId refs =>
    rw [same] at allows
    dsimp only at allows
    split at allows
    · cases allows
    · next here =>
      simp only [Bool.or_eq_true, decide_eq_true_eq, not_or, not_not] at here
      obtain ⟨owner, name⟩ := repo
      obtain ⟨rfl, rfl⟩ := here
      refine ⟨rfl, fun writes => ?_⟩
      rw [if_neg (by rw [writes]; decide)] at allows
      simpa using allows

/-- What stands behind an authorized call: five tables, every one of which has to agree. -/
structure WithinAuthority (state : State) (now : DateTime) (call : BotCall)
    (reference : Option String) (bot : BotRecord) : Prop where
  found : state.bots.lookup call.botId = some bot
  active : bot.status = .active
  generation : bot.credentialGeneration = call.generation
  key : ∃ key, state.auth.botKeys.lookup call.keyId = some key ∧ key.botId = bot.id ∧
    key.revokedAt = none ∧ ∀ retired, key.retiredAt = some retired → now < retired
  owner : bot.ownerKind = .user → ∃ account, state.accounts.lookup bot.owner = some account ∧
    account.status = .active ∧ account.authEpoch = bot.authEpoch
  write : call.effect = .write → HoldsGrant state bot call.owner call.repo .write
  read : call.effect = .read →
    HoldsGrant state bot call.owner call.repo .read ∨ IsPublic state call.owner call.repo
  reach : Covers state bot call bot.reach
  refs : ∀ destination patterns, reference = some destination → bot.reach.refs = some patterns →
    ∃ pattern ∈ patterns, Glob.Fits '*' pattern.toList destination.toList

theorem allowsRef_fits {reach : BotReach} {reference : String} {patterns : List String}
    (allows : reach.allowsRef reference = true) (limited : reach.refs = some patterns) :
    ∃ pattern ∈ patterns, Glob.Fits '*' pattern.toList reference.toList := by
  unfold BotReach.allowsRef at allows
  rw [limited] at allows
  obtain ⟨-, some⟩ := Bool.and_eq_true_iff.mp allows
  obtain ⟨pattern, member, fits⟩ := List.any_eq_true.mp some
  exact ⟨pattern, member, (Glob.matches_iff_fits ..).mp (Bool.and_eq_true_iff.mp fits).2⟩

theorem botAccountMatches_active {state : State} {bot : BotRecord}
    (same : state.botAccountMatches bot = true) : bot.status = .active ∧
      (bot.ownerKind = .user → ∃ account, state.accounts.lookup bot.owner = some account ∧
        account.status = .active ∧ account.authEpoch = bot.authEpoch) := by
  unfold State.botAccountMatches at same
  obtain ⟨active, behind⟩ := Bool.and_eq_true_iff.mp same
  refine ⟨by simpa using active, fun kind => ?_⟩
  rw [kind] at behind
  obtain ⟨account, found, holds⟩ := (Option.any_eq_true _ _).mp behind
  simp only [AccountStatus.permitsAuthentication, Bool.and_eq_true, decide_eq_true_eq, beq_iff_eq] at holds
  exact ⟨account, found, holds⟩

theorem BotKeyRecord.isLive_iff {key : BotKeyRecord} {now : DateTime} :
    key.isLive now = true ↔
      key.revokedAt = none ∧ ∀ retired, key.retiredAt = some retired → now < retired := by
  unfold BotKeyRecord.isLive
  rw [Bool.and_eq_true, Option.isNone_iff_eq_none]
  cases key.retiredAt <;> simp

/-- The decision, table by table. -/
theorem authorizeBotCall_within {state : State} {now : DateTime} {call : BotCall}
    {reference : Option String} {bot : BotRecord}
    (granted : state.authorizeBotCall now call reference = .ok (bot, none)) :
    WithinAuthority state now call reference bot := by
  unfold State.authorizeBotCall at granted
  split at granted
  · cases granted
  · next stored found =>
    split at granted
    · cases granted
    · next matched =>
      split at granted
      · cases granted
      · next keyed =>
        obtain ⟨rfl, permitted⟩ := Prod.mk.inj (Except.ok.inj granted)
        have matches' : state.botAccountMatches stored = true ∧
            stored.credentialGeneration = call.generation := by
          simpa using matched
        have held : ∃ key, state.auth.botKeys.lookup call.keyId = some key ∧
            (key.botId = stored.id ∧ key.isLive now = true) := by
          simpa [Option.any_eq_true] using keyed
        obtain ⟨key, keyFound, keyBot, live⟩ := held
        obtain ⟨active, behind⟩ := botAccountMatches_active matches'.1
        split at permitted
        · cases permitted
        · next written =>
          split at permitted
          · cases permitted
          · next read =>
            split at permitted
            · cases permitted
            · next reached =>
              split at permitted
              · cases permitted
              · next referred =>
                refine ⟨found, active, matches'.2, ⟨key, keyFound, keyBot, ?_⟩, behind, ?_, ?_, ?_, ?_⟩
                · exact BotKeyRecord.isLive_iff.mp live
                · intro writes
                  have allows : state.botGrantAllows stored call.owner call.repo true = true := by
                    simpa [writes] using written
                  exact botGrantAllows_write allows
                · intro reads
                  have allows : state.botGrantAllows stored call.owner call.repo false = true := by
                    simpa [reads] using read
                  exact botGrantAllows_read allows
                · have allows : state.reachAllows stored call = true := by simpa using reached
                  exact reachAllows_covers allows
                · intro destination patterns named limited
                  have allows : stored.reach.allowsRef destination = true := by
                    simpa [named] using referred
                  exact allowsRef_fits allows limited

section Roles

/-- The same state with the roles of the accounts handed out anew. -/
def withRoles (roles : String → UserRole) (state : State) : State :=
  { state with accounts := state.accounts.mapValues fun login account =>
      { account with role := roles login } }

variable (roles : String → UserRole) (state : State)

theorem botAccountMatches_withRoles (bot : BotRecord) :
    (withRoles roles state).botAccountMatches bot = state.botAccountMatches bot := by
  unfold State.botAccountMatches withRoles
  simp only [HashMap.lookup_mapValues, Option.any_map]

theorem botGrantAllows_withRoles (bot : BotRecord) (owner repo : String) (write : Bool) :
    (withRoles roles state).botGrantAllows bot owner repo write =
      state.botGrantAllows bot owner repo write := by
  unfold State.botGrantAllows
  cases bot.ownerKind with
  | organization => rfl
  | user =>
    dsimp only [State.ownerGrantAllows, withRoles]
    rw [HashMap.lookup_mapValues]
    cases state.accounts.lookup bot.owner <;> rfl

theorem reachAllows_withRoles (bot : BotRecord) (call : BotCall) :
    (withRoles roles state).reachAllows bot call = state.reachAllows bot call := by
  unfold State.reachAllows
  cases bot.reach with
  | owners owners refs =>
    dsimp only [State.botHasGrant]
    cases bot.ownerKind with
    | organization => rfl
    | user =>
      dsimp only [State.ownerHasGrant, withRoles]
      rw [HashMap.lookup_mapValues, Option.any_map]
  | general | repositories | task => rfl

/-- The decision does not look at a role. -/
theorem authorizeBotCall_withRoles (now : DateTime) (call : BotCall) (reference : Option String) :
    (withRoles roles state).authorizeBotCall now call reference =
      state.authorizeBotCall now call reference := by
  unfold State.authorizeBotCall
  simp only [botAccountMatches_withRoles, botGrantAllows_withRoles, reachAllows_withRoles]
  rfl

end Roles

/-- The two ways to ask: for a repository, and for a write to one of its refs. -/
def ask (call : BotCall) : Option String → Method BotSummary
  | none => authorizeBot call
  | some reference => authorizeBotRefWrite call reference

/-- What is asked for: a write, where a ref is named. -/
def asked (call : BotCall) : Option String → BotCall
  | none => call
  | some _ => { call with effect := .write }

theorem ask_eq (call : BotCall) (reference : Option String) :
    ask call reference = authorizeBotCall (asked call reference) reference := by
  cases reference <;> rfl

/-- What follows the decision: a denial is audited. -/
def conclude (bot : BotRecord) : Option String → Method BotSummary
  | some code => do
    recordBotAudit bot.actingLogin "bot.authorize" bot.subject .failed
    throw (.error (explainBot (.forbidden code)))
  | none => return bot.summary

theorem authorizeBotCall_exec (core : ForgeCore) (call : BotCall) (reference : Option String) :
    (authorizeBotCall call reference).run.exec core =
      match core.state.authorizeBotCall core.now call reference with
      | .error error => (.error (.error error), core)
      | .ok (bot, denied) => (conclude bot denied).run.exec core := by
  unfold authorizeBotCall
  rw [Program.exec_bind_run, Method.exec_reading]
  rcases core.state.authorizeBotCall core.now call reference with error | ⟨bot, _ | code⟩ <;> rfl

theorem conclude_denied (bot : BotRecord) (code : String) (core : ForgeCore) (summary : BotSummary) :
    ((conclude bot (some code)).run.exec core).1 ≠ .ok summary := by
  unfold conclude
  rw [Program.exec_bind_run]
  split
  · exact fun same => nomatch same
  · exact fun same => nomatch same

/-- A bot is answered only where the decision denies nothing, and the answer is the bot. -/
theorem authorizeBotCall_answers {core : ForgeCore} {call : BotCall} {reference : Option String}
    {summary : BotSummary} : ((authorizeBotCall call reference).run.exec core).1 = .ok summary ↔
      ∃ bot, core.state.authorizeBotCall core.now call reference = .ok (bot, none) ∧
        bot.summary = summary := by
  rw [authorizeBotCall_exec]
  constructor
  · intro answers
    split at answers
    · cases answers
    · next bot denied decided =>
      cases denied with
      | none => exact ⟨bot, decided, Except.ok.inj answers⟩
      | some code => exact absurd answers (conclude_denied bot code core summary)
  · rintro ⟨bot, decided, rfl⟩
    rw [decided]
    rfl

/-- Everything the bot was granted stands behind the answer, and no role does. -/
theorem bot_within_authority {core : ForgeCore} {call : BotCall} {reference : Option String}
    {summary : BotSummary} (granted : ((ask call reference).run.exec core).1 = .ok summary) :
    (∃ bot, bot.summary = summary ∧
      WithinAuthority core.state core.now (asked call reference) reference bot) ∧
    ∀ roles : String → UserRole,
      ((ask call reference).run.exec { core with state := withRoles roles core.state }).1 =
        .ok summary := by
  rw [ask_eq] at granted ⊢
  obtain ⟨bot, decided, rfl⟩ := authorizeBotCall_answers.mp granted
  refine ⟨⟨bot, rfl, authorizeBotCall_within decided⟩, fun roles => ?_⟩
  have still : (withRoles roles core.state).authorizeBotCall core.now (asked call reference) reference =
      .ok (bot, none) := by rw [authorizeBotCall_withRoles, decided]
  exact authorizeBotCall_answers.mpr ⟨bot, still, rfl⟩

/-- A forge where `ada`, who administers nothing, may write to the private `acme/demo`, with a bot
    of hers enrolled for one branch of it. -/
def enrolled : Except Failure BotEnrollment × ForgeCore :=
  let setup : Method BotEnrollment := do
    let _ ← createAccount "ada" "correct horse" .user (.ok "$argon2id$salt$correct horse")
    let _ ← createRepository "acme"
      { name := "demo", isPrivate := true, description := none, defaultBranch := none }
    let _ ← grantRepoAccess "root" "ada" "acme" "demo" .write
    enrollBot "ada" "helper" "Helper" ⟨"grokbot", BotKind.grokbot_valid⟩
      (.task ⟨"acme", "demo"⟩ .branch "feature" (some ["refs/heads/feature*"])) (.ok ())
  setup.run.exec .durable

/-- The first credentials of a bot, used on the branch it was enrolled for. -/
def branchWrite (botId keyId : Nat) : BotCall :=
  { botId, generation := 1, keyId, owner := "acme", repo := "demo", effect := .write
    taskKind := some .branch, taskId := some "feature" }

theorem bot_within_authority_demo : ∃ core botId keyId, ∃ summary : BotSummary, core = enrolled.2 ∧
    (∃ bot, bot.summary = summary ∧ WithinAuthority core.state core.now
      (asked (branchWrite botId keyId) (some "refs/heads/feature/a")) (some "refs/heads/feature/a") bot) ∧
    ∀ roles : String → UserRole, ((ask (branchWrite botId keyId) (some "refs/heads/feature/a")).run.exec
      { core with state := withRoles roles core.state }).1 = .ok summary := by
  have granted : (((ask (branchWrite 2 3) (some "refs/heads/feature/a")).run.exec enrolled.2).1.map
      fun summary => summary.slug) = .ok "helper" := by decide +kernel
  cases answer : ((ask (branchWrite 2 3) (some "refs/heads/feature/a")).run.exec enrolled.2).1 with
  | error error =>
    rw [answer] at granted
    cases granted
  | ok summary => exact ⟨_, 2, 3, summary, rfl, bot_within_authority answer⟩

end Jeryu.Auth
