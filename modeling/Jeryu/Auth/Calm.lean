import Jeryu.Auth.System
import Jeryu.Core.Writes
import Jeryu.Library.CarefulPool

/-!
Methods that answer with a value or an error, and never panic, as long as no account goes away.
-/

namespace Jeryu.Auth

open Jeryu.Core KeyedMap LockProgram Method

/-- Accounts that are there stay. -/
def Lasting (core core' : ForgeCore) : Prop :=
  ∀ login, (core.state.accounts.lookup login).isSome → (core'.state.accounts.lookup login).isSome

theorem lasting_refl (core : ForgeCore) : Lasting core core := fun _ there => there

theorem lasting_trans (a b c : ForgeCore) (first : Lasting a b) (second : Lasting b c) : Lasting a c :=
  fun login there => second login (first login there)

def Unpanicked {α : Type} (result : Except Failure α) : Prop :=
  ∀ message, result ≠ .error (.panicked message)

/-- What is known of the value a section answers. -/
def Outcome.Values {α : Type} (P : α → Prop) : Core.Outcome α → Prop
  | .refuse _ => True
  | .unchanged value | .direct _ _ value | .append _ value | .commit _ _ _ _ value => P value

section Methods

variable {α β : Type} {method : Method α}

theorem unpanicked_ok (value : α) : Unpanicked (.ok value : Except Failure α) := fun _ same => nomatch same

theorem unpanicked_error (error : ForgeError) : Unpanicked (.error (.error error) : Except Failure α) :=
  fun _ same => nomatch same

/-- From `seen` on, the method does not panic. -/
def CalmFrom (method : Method α) (seen : ForgeCore) : Prop :=
  method.run.EndsFrom Lasting (fun _ result => Unpanicked result) seen

structure Calm (method : Method α) : Prop where
  calm : ∀ seen, CalmFrom method seen

theorem calm_pure (value : α) : Calm (pure value : Method α) := ⟨fun _ => unpanicked_ok value⟩

theorem calm_throw (error : ForgeError) : Calm (throw (.error error) : Method α) :=
  ⟨fun _ => unpanicked_error error⟩

theorem unpanicked_mapError (result : Except ForgeError α) : Unpanicked (result.mapError Failure.error) := by
  cases result with
  | ok value => exact unpanicked_ok value
  | error error => exact unpanicked_error error

theorem calm_ofExcept (result : Except ForgeError α) : Calm (ofExcept result) :=
  ⟨fun _ => unpanicked_mapError result⟩

theorem calm_reading (f : ForgeCore → Except ForgeError α) : Calm (reading f) :=
  ⟨fun _ core _ => unpanicked_mapError (f core)⟩

theorem settle_unpanicked (outcome : Core.Outcome α) (core : ForgeCore) :
    Unpanicked (outcome.settle core).1 := by
  cases outcome with
  | refuse error => exact unpanicked_error error
  | unchanged value => exact unpanicked_ok value
  | direct audits next value => exact unpanicked_ok value
  | append rows value => exact unpanicked_ok value
  | commit audits draws next receipt value =>
    unfold Core.Outcome.settle
    dsimp only
    split
    · exact unpanicked_ok value
    · exact unpanicked_error _

theorem calm_locked (f : ForgeCore → Core.Outcome α) : Calm (locked f) :=
  ⟨fun _ core _ => settle_unpanicked (f core) core⟩

theorem CalmFrom.bind {P : ForgeCore → α → Prop} {f : α → Method β} {seen : ForgeCore}
    (first : method.run.EndsFrom Lasting
      (fun core result => Unpanicked result ∧ ∀ a, result = .ok a → P core a) seen)
    (rest : ∀ a core, P core a → CalmFrom (f a) core) : CalmFrom (method >>= f) seen := by
  refine Program.EndsFrom.bind first fun result core known => ?_
  obtain ⟨calm, here⟩ := known
  cases result with
  | ok a => exact rest a core (here a rfl)
  | error failure => exact fun message same => calm message (congrArg _ (Except.error.inj same))

theorem Calm.bind {f : α → Method β} (first : Calm method) (rest : ∀ a, Calm (f a)) :
    Calm (method >>= f) := by
  refine ⟨fun seen => CalmFrom.bind (P := fun _ _ => True) ?_ fun a core _ => (rest a).calm core⟩
  exact (first.calm seen).mono fun _ _ calm => ⟨calm, fun _ _ => True.intro⟩

theorem calm_ite {p : Prop} [Decidable p] {yes no : Method α} (left : Calm yes) (right : Calm no) :
    Calm (if p then yes else no) := by
  split
  · exact left
  · exact right

/-- An early refusal in a `do` block. -/
theorem calm_unless {p : Prop} [Decidable p] {error : ForgeError} {rest : Unit → Method β}
    (after : Calm (rest ())) :
    Calm (if p then (throw (.error error) : Method Unit) >>= fun r => rest r else rest ()) :=
  calm_ite ⟨fun _ => unpanicked_error error⟩ after

theorem settled_unpanicked {outcome : Core.Outcome (Except Failure α)} {core : ForgeCore}
    (values : Outcome.Values Unpanicked outcome) : Unpanicked ((outcome.settle core).1.bind id) := by
  cases outcome with
  | refuse error => exact unpanicked_error error
  | unchanged value => exact values
  | direct audits next value => exact values
  | append rows value => exact values
  | commit audits draws next receipt value =>
    unfold Core.Outcome.settle
    dsimp only
    split
    · exact values
    · exact unpanicked_error _

theorem calm_settledAfter {prepare : State → State} {f : ForgeCore → Core.Outcome (Except Failure α)}
    (values : ∀ core, Outcome.Values Unpanicked (f core)) : Calm (settledAfter prepare f) :=
  ⟨fun _ _ _ => settled_unpanicked (values _)⟩

/-- A method whose answer is looked at without another section. -/
theorem calm_recovered {after : Except Failure α → Program ForgeCore (Except Failure β)}
    (calm : Calm method)
    (ends : ∀ result, Unpanicked result → ∃ answer, after result = .done answer ∧ Unpanicked answer) :
    Calm (ExceptT.mk (method.run >>= after)) := by
  refine ⟨fun seen => Program.EndsFrom.bind (calm.calm seen) fun result core known => ?_⟩
  obtain ⟨answer, same, calm⟩ := ends result known
  rw [same]
  exact calm

theorem Calm.ignored (calm : Calm method) : Calm method.ignored :=
  calm_recovered calm fun _ _ => ⟨_, rfl, unpanicked_ok ()⟩

theorem Calm.inspect {after : Except Failure α → Method Unit} (calm : Calm method)
    (rest : ∀ result, Calm (after result)) : Calm (method.inspect after) := by
  refine ⟨fun seen => Program.EndsFrom.bind (calm.calm seen) fun result core known => ?_⟩
  refine Program.EndsFrom.bind ((rest result).calm core) fun closed later quiet => ?_
  cases closed with
  | ok done => exact known
  | error failure => exact fun message same => quiet message (congrArg _ (Except.error.inj same))

end Methods

section Values

variable {α : Type} {P : α → Prop}

theorem values_ite {p : Prop} [Decidable p] {yes no : Core.Outcome α} (left : Outcome.Values P yes)
    (right : Outcome.Values P no) : Outcome.Values P (if p then yes else no) := by
  split
  · exact left
  · exact right

end Values

section Parts

variable {owner repo : String}

theorem appendAuditWith_calm (actor action subject : String) (phase : AuditPhase) (detail : AuditDetail) :
    Calm (appendAuditWith actor action subject phase detail) := calm_locked _

/-- A receipt, and then the answer. -/
theorem calm_audit {α : Type} {actor action subject : String} {phase : AuditPhase} {rest : Method α}
    (after : Calm rest) : Calm (appendAuditAs actor action subject phase >>= fun _ => rest) :=
  (appendAuditWith_calm ..).bind fun _ => after

theorem audited_calm {α : Type} {actor action subject : String} {f : ForgeCore → Core.Outcome (α × Bool)} :
    Calm (audited actor action subject (.locked f)) := by
  unfold audited
  refine (calm_locked f).bind fun stored => ?_
  obtain ⟨stored, changed⟩ := stored
  exact calm_ite (calm_audit (calm_pure _)) (calm_pure _)

theorem requireActiveAccount_calm (login : String) : Calm (requireActiveAccount login) :=
  (calm_reading _).bind fun _ => calm_unless (calm_pure _)

theorem requireReadableRepo_calm (actor : String) : Calm (requireReadableRepo actor owner repo) :=
  (calm_reading _).bind fun _ => calm_reading _

theorem normalizeRepos_calm (actor : String) (repos seen : List BotRepoRef) :
    Calm (normalizeRepos actor repos seen) := by
  induction repos generalizing seen with
  | nil => exact calm_pure _
  | cons ref rest ih =>
    unfold normalizeRepos
    exact (requireReadableRepo_calm actor).bind fun _ => ih _

theorem validateTask_calm (ref : BotRepoRef) (kind : BotTaskKind) (taskId : String) :
    Calm (validateTask ref kind taskId) := by
  unfold validateTask
  refine calm_unless ?_
  cases kind with
  | branch => exact calm_ite (calm_throw _) (calm_pure _)
  | issue =>
    dsimp only
    split
    · exact calm_throw _
    · exact (calm_reading _).bind fun _ => calm_pure _
  | pull =>
    dsimp only
    split
    · exact calm_throw _
    · exact (calm_reading _).bind fun _ => calm_pure _

theorem normalizeReach_calm (actor : String) (reach : BotReach) : Calm (normalizeReach actor reach) := by
  unfold normalizeReach
  refine (calm_ofExcept _).bind fun _ => ?_
  cases reach with
  | general refs => exact calm_pure _
  | owners owners refs => exact calm_unless ((calm_reading _).bind fun _ => calm_pure _)
  | repositories repos refs =>
    exact calm_unless ((normalizeRepos_calm actor repos []).bind fun _ => calm_pure _)
  | task ref taskKind taskId refs =>
    exact (requireReadableRepo_calm actor).bind fun _ => (validateTask_calm _ _ _).bind fun _ => calm_pure _

end Parts

section Accounts

variable {login : String}

theorem createUser_calm (request : CreateUserRequest) : Calm (createUser request) :=
  (calm_ofExcept _).bind fun _ => calm_locked _

theorem createAccount_calm (password : String) (role : UserRole) (hash : Except ForgeError String) :
    Calm (createAccount login password role hash) :=
  (calm_ofExcept _).bind fun _ => (calm_ofExcept _).bind fun _ => calm_locked _

theorem moved_values (core : ForgeCore) (edited : UserAccount) :
    Outcome.Values Unpanicked (.moved core login edited) := by
  unfold Core.Outcome.moved
  split
  · exact unpanicked_error _
  · exact unpanicked_ok _

theorem resetAccountPassword_calm (newPassword : String) (salt : Except ForgeError String) :
    Calm (resetAccountPassword login newPassword salt) := by
  unfold resetAccountPassword
  refine (calm_ofExcept _).bind fun _ => calm_settledAfter fun core => ?_
  unfold resetAccountPasswordLocked
  split
  · exact True.intro
  · split
    · exact True.intro
    · exact moved_values _ _

theorem forcePasswordChange_calm (forced : Bool) : Calm (forcePasswordChange login forced) := by
  unfold forcePasswordChange
  refine calm_settledAfter fun core => ?_
  unfold forcePasswordChangeLocked
  split
  · exact True.intro
  · exact values_ite (moved_values _ _) (unpanicked_ok _)

theorem createTemporaryAccount_calm (password : String) (role : UserRole) (hash : Except ForgeError String) :
    Calm (createTemporaryAccount login password role hash) := by
  unfold createTemporaryAccount
  refine (createAccount_calm password role hash).bind fun account => ?_
  refine (forcePasswordChange_calm true).bind fun _ => calm_recovered (calm_reading _) fun result _ => ?_
  cases result with
  | ok stored => exact ⟨_, rfl, unpanicked_ok _⟩
  | error failure => exact ⟨_, rfl, unpanicked_ok _⟩

/-- The account found by the first section is there for the second. -/
theorem changeAccountPassword_calm (currentPassword newPassword : String) (salt : Except ForgeError String) :
    Calm (changeAccountPassword login currentPassword newPassword salt) := by
  unfold changeAccountPassword
  refine (calm_ofExcept _).bind fun _ => ⟨fun seen => ?_⟩
  refine CalmFrom.bind (P := fun core _ => (core.state.accounts.lookup login).isSome) ?_ fun _ core there => ?_
  · intro core _
    refine ⟨unpanicked_mapError _, fun value checked => ?_⟩
    cases stored : core.state.accounts.lookup login with
    | some account => rfl
    | none =>
      simp only [changeAccountPasswordCheck, stored] at checked
      cases checked
  · intro later lasting
    have still := lasting login there
    refine settled_unpanicked ?_
    unfold changeAccountPasswordLocked
    cases stored : later.state.accounts.lookup login with
    | none =>
      rw [stored] at still
      cases still
    | some account =>
      show Outcome.Values Unpanicked (changeAccountPasswordLocked login _ later)
      unfold changeAccountPasswordLocked
      rw [stored]
      dsimp only
      split
      · exact True.intro
      · exact moved_values _ _

theorem transition_calm (status : AccountStatus) (allowed : Option (List AccountStatus)) :
    Calm (transitionAccountStatus login status allowed) := by
  unfold transitionAccountStatus
  refine calm_settledAfter fun core => ?_
  unfold transitionAccountStatusLocked
  split
  · exact True.intro
  · refine values_ite True.intro (values_ite (unpanicked_ok _) ?_)
    split
    · exact unpanicked_error _
    · exact unpanicked_ok _

theorem issuePasswordRecovery_calm (random : Except ForgeError Unit) :
    Calm (issuePasswordRecovery login random) := by
  unfold issuePasswordRecovery
  refine calm_unless ((calm_ofExcept _).bind fun _ => (calm_reading _).bind
    fun now => calm_settledAfter fun core => ?_)
  unfold issuePasswordRecoveryLocked
  dsimp only
  split
  · exact unpanicked_error _
  · exact unpanicked_ok _

/-- A secret that is accepted is an account's. -/
theorem verifySpend_account {s : State} {tokenId secret : Secret} {now : DateTime} {verified : VerifiedSpend}
    (accepted : s.verifySpend tokenId secret now = .ok verified) :
    (s.accounts.lookup verified.login).isSome := by
  unfold State.verifySpend at accepted
  split at accepted
  · cases accepted
  · split at accepted
    · cases accepted
    · split at accepted
      · cases accepted
      · next account stored =>
        split at accepted
        · cases accepted
          rw [stored]
          rfl
        · cases accepted

theorem recoverPassword_calm (presented : PresentedRecovery) (newPassword : String)
    (salt : Except ForgeError String) : Calm (recoverPassword presented newPassword salt) := by
  unfold recoverPassword
  refine (calm_ofExcept _).bind fun _ => ?_
  cases presented with
  | none => exact calm_throw _
  | some secret =>
    obtain ⟨tokenId, secret⟩ := secret
    refine (calm_recovered (calm_locked _) fun result _ => ?_).bind fun checked => ?_
    · rcases result with failure | _ | checked
      · exact ⟨_, rfl, unpanicked_error _⟩
      · exact ⟨_, rfl, unpanicked_error _⟩
      · exact ⟨_, rfl, unpanicked_ok _⟩
    · refine (calm_ofExcept _).bind fun passwordHash => (calm_reading _).bind fun now => ?_
      refine calm_settledAfter fun core => ?_
      unfold recoverPasswordLocked
      split
      · exact unpanicked_error _
      · next verified accepted =>
        have there := verifySpend_account accepted
        refine values_ite (unpanicked_error _) ?_
        split
        · next missing =>
          rw [missing] at there
          cases there
        · dsimp only
          split
          · exact unpanicked_error _
          · exact unpanicked_ok _

theorem createSession_calm (ttl : Int) (random : Except ForgeError Unit) :
    Calm (createSessionWithTtl login ttl random) := by
  unfold createSessionWithTtl
  refine calm_unless ((requireActiveAccount_calm login).bind fun account => (calm_ofExcept _).bind fun _ => ?_)
  exact (calm_reading _).bind fun createdAt => calm_unless (calm_locked _)

theorem createPersonalAccessToken_calm (name : String) (expiresAt : Option DateTime)
    (random : Except ForgeError Unit) : Calm (createPersonalAccessToken login name expiresAt random) := by
  unfold createPersonalAccessToken
  refine (requireActiveAccount_calm login).bind fun account => (calm_ofExcept _).bind fun _ => ?_
  refine (calm_reading _).bind fun now => (calm_ofExcept _).bind fun expires => ?_
  exact (calm_ofExcept _).bind fun _ => calm_locked _

theorem createAccountInvitation_calm (issuer displayName : String) (bindings : InvitationBindings)
    (expiresAt : DateTime) (bootstrapOwner : Bool) (random : Except ForgeError Unit) :
    Calm (createAccountInvitationInner issuer login displayName bindings expiresAt bootstrapOwner random) := by
  unfold createAccountInvitationInner
  refine (calm_ofExcept _).bind fun _ => (calm_ofExcept _).bind fun _ => (calm_ofExcept _).bind fun _ => ?_
  refine (calm_ofExcept _).bind fun teams => (calm_reading _).bind fun now => ?_
  exact calm_unless (calm_unless ((calm_ofExcept _).bind fun _ => calm_locked _))

theorem startAccountActivation_calm (activationSecret : Secret) (random : Except ForgeError Unit) :
    Calm (startAccountActivation login activationSecret random) := by
  unfold startAccountActivation
  refine calm_unless ((calm_ofExcept _).bind fun _ => (calm_reading _).bind
    fun now => calm_settledAfter fun core => ?_)
  unfold startAccountActivationLocked
  split
  · exact unpanicked_error _
  · exact values_ite (unpanicked_error _) (values_ite (unpanicked_error _) (unpanicked_ok _))

theorem completeAccountActivation_calm (challenge : Secret) (password : String)
    (salt : Except ForgeError String) : Calm (completeAccountActivation challenge password salt) := by
  unfold completeAccountActivation
  refine (calm_ofExcept _).bind fun _ => (calm_ofExcept _).bind fun hash => (calm_reading _).bind fun now => ?_
  refine calm_settledAfter fun core => ?_
  unfold completeAccountActivationLocked
  split
  · exact unpanicked_error _
  · split
    · exact unpanicked_error _
    · refine values_ite (unpanicked_error _) ?_
      split
      · exact True.intro
      · exact unpanicked_error _
      · exact values_ite (unpanicked_error _) (unpanicked_ok _)

end Accounts

section Bots

theorem storeEnrolledBot_calm (actor : String) (record : Uuid → BotRecord) (env : String)
    (random : Except ForgeError Unit) : Calm (storeEnrolledBot actor record env random) := by
  unfold storeEnrolledBot
  refine (calm_ofExcept _).bind fun _ => (calm_locked _).bind fun stored => ?_
  exact calm_audit (calm_pure _)

theorem enrollBot_calm (actor slug displayName : String) (kind : BotKind) (reach : BotReach) (env : String)
    (random : Except ForgeError Unit) :
    Calm (enrollBotWithEnv actor slug displayName kind reach env random) := by
  unfold enrollBotWithEnv
  refine (requireActiveAccount_calm actor).bind fun account => (calm_ofExcept _).bind fun _ => ?_
  refine (normalizeReach_calm _ reach).bind fun normalized => (calm_reading _).bind fun now => ?_
  exact storeEnrolledBot_calm ..

theorem enrollTeamBot_calm (actor org stewardTeam slug displayName : String) (kind : BotKind)
    (reach : BotReach) (random : Except ForgeError Unit) :
    Calm (enrollTeamBot actor org stewardTeam slug displayName kind reach random) := by
  unfold enrollTeamBot
  refine (requireActiveAccount_calm actor).bind fun account => (calm_ofExcept _).bind fun _ => ?_
  refine (calm_reading _).bind fun _ => (normalizeReach_calm _ reach).bind fun normalized => ?_
  exact (calm_reading _).bind fun now => storeEnrolledBot_calm ..

theorem rotateBotKey_calm (actor : String) (botId : Uuid) (random : Except ForgeError Unit) :
    Calm (rotateBotKey actor botId random) := by
  unfold rotateBotKey
  refine (requireActiveAccount_calm actor).bind fun account => (calm_reading _).bind fun now => ?_
  exact (calm_ofExcept _).bind fun _ => (calm_locked _).bind fun _ => calm_audit (calm_pure _)

theorem exchangeBotEnrollmentKeyLocked_values (keyId : Secret) (verifiedHash : Digest)
    (random : Except ForgeError Unit) (now : DateTime) (core : ForgeCore) :
    Outcome.Values Unpanicked (exchangeBotEnrollmentKeyLocked keyId verifiedHash random now core) := by
  unfold exchangeBotEnrollmentKeyLocked
  split
  · exact unpanicked_error _
  · refine values_ite (unpanicked_error _) ?_
    split
    · exact unpanicked_error _
    · refine values_ite (unpanicked_error _) ?_
      split
      · exact True.intro
      · exact unpanicked_ok _

theorem exchangeBotEnrollmentKey_calm (presented : PresentedKey) (random : Except ForgeError Unit) :
    Calm (exchangeBotEnrollmentKey presented random) := by
  unfold exchangeBotEnrollmentKey
  cases presented with
  | none => exact calm_throw _
  | some key =>
    obtain ⟨keyId, secret⟩ := key
    refine (calm_reading _).bind fun verified => ?_
    cases verified with
    | none => exact calm_throw _
    | some verifiedHash =>
      refine calm_unless ((calm_reading _).bind fun now => ?_)
      refine (calm_settledAfter fun core => exchangeBotEnrollmentKeyLocked_values ..).bind fun issued => ?_
      exact calm_audit (calm_pure _)

theorem rotateBotRefreshTokenLocked_values (presented : Digest) (random : Except ForgeError Unit)
    (now : DateTime) (core : ForgeCore) :
    Outcome.Values Unpanicked (rotateBotRefreshTokenLocked presented random now core) := by
  unfold rotateBotRefreshTokenLocked
  split
  · exact unpanicked_error _
  · refine values_ite (unpanicked_ok _) (values_ite (unpanicked_error _) ?_)
    split
    · refine values_ite (unpanicked_error _) ?_
      split
      · exact unpanicked_error _
      · exact unpanicked_ok _
    · exact unpanicked_error _

theorem replayRefresh_values (vaultKey : Option String) (existing : BotRefreshRecord) (presented : Digest)
    (result : OperationResult) (bot : BotRecord) (core : ForgeCore) :
    Outcome.Values Unpanicked (replayRefresh vaultKey existing presented result bot core) := by
  unfold replayRefresh
  split
  · exact unpanicked_error _
  · split
    · exact unpanicked_ok _
    · exact unpanicked_error _

theorem rotateFirst_values (vaultKey : Option String) (existing : BotRefreshRecord) (presented : Digest)
    (requestKey bodyDigest : String) (random : Except ForgeError Unit) (bot : BotRecord)
    (key : BotKeyRecord) (now : DateTime) (core : ForgeCore) : Outcome.Values Unpanicked
      (rotateFirst vaultKey existing presented requestKey bodyDigest random bot key now core) := by
  unfold rotateFirst
  split
  · exact True.intro
  · exact unpanicked_error _
  · exact unpanicked_ok _

theorem rotateIdempotentLocked_values (vaultKey : Option String) (presented : Digest)
    (requestKey bodyDigest : String) (random : Except ForgeError Unit) (now : DateTime) (core : ForgeCore) :
    Outcome.Values Unpanicked
      (rotateIdempotentLocked vaultKey presented requestKey bodyDigest random now core) := by
  unfold rotateIdempotentLocked
  split
  · exact unpanicked_error _
  · refine values_ite True.intro (values_ite True.intro ?_)
    split
    · refine values_ite (unpanicked_error _) ?_
      split
      · exact unpanicked_error _
      · exact values_ite (replayRefresh_values ..) (unpanicked_ok _)
      · exact unpanicked_ok _
      · exact values_ite (unpanicked_error _) (rotateFirst_values ..)
    · exact unpanicked_error _

theorem answerRefresh_calm (answer : RefreshAnswer) : Calm (answerRefresh answer) := by
  cases answer with
  | session session => exact calm_pure _
  | replayed actor subject session => exact calm_audit (calm_pure _)
  | reused actor subject => exact calm_audit (calm_throw _)

theorem authorizeBotCall_calm (asked : BotCall) (reference : Option String) :
    Calm (authorizeBotCall asked reference) := by
  unfold authorizeBotCall
  refine (calm_reading _).bind fun decided => ?_
  obtain ⟨bot, _ | code⟩ := decided
  · exact calm_pure _
  · exact calm_audit (calm_throw _)

theorem authenticateBotAccessToken_calm (presented : Option Secret) :
    Calm (authenticateBotAccessToken presented) := by
  unfold authenticateBotAccessToken
  cases presented with
  | none => exact calm_throw _
  | some token =>
    refine (calm_reading _).bind fun now => (calm_reading _).bind fun found => ?_
    obtain ⟨auth, stale⟩ := found
    exact calm_ite ((calm_locked _).bind fun _ => calm_pure _) (calm_pure _)

end Bots

/-- No account, bot or team call panics but `ensure_user`. -/
theorem account_calm (call : Call) (other : ∀ login, call ≠ .ensureUser login) : Calm call.method := by
  cases call with
  | ensureUser login => exact absurd rfl (other login)
  | createUser request => exact createUser_calm request
  | createAccount login password role hash => exact @createAccount_calm login password role hash
  | createTemporaryAccount login password role hash =>
    exact @createTemporaryAccount_calm login password role hash
  | authenticatePassword | sessionForToken | authenticatePersonalAccessToken | authenticateBotAccess =>
    exact calm_reading _
  | resetAccountPassword login newPassword salt => exact @resetAccountPassword_calm login newPassword salt
  | changeAccountPassword login currentPassword newPassword salt =>
    exact @changeAccountPassword_calm login currentPassword newPassword salt
  | forcePasswordChange login forced => exact @forcePasswordChange_calm login forced
  | disableAccount login => exact @transition_calm login .disabled none
  | lockAccount login => exact @transition_calm login .locked none
  | reactivateAccount login => exact @transition_calm login .pendingMfa (some [.disabled, .locked])
  | markAccountMfaActive login => exact @transition_calm login .active (some [.pendingMfa])
  | issuePasswordRecovery login random => exact @issuePasswordRecovery_calm login random
  | recoverPassword presented newPassword salt => exact recoverPassword_calm presented newPassword salt
  | createSession login ttl random => exact @createSession_calm login ttl random
  | revokeSession | revokeAccountInvitation => exact calm_locked _
  | createPersonalAccessToken login name expiresAt random =>
    exact @createPersonalAccessToken_calm login name expiresAt random
  | revokePersonalAccessToken => exact (calm_reading _).bind fun _ => calm_locked _
  | createAccountInvitation issuer login displayName bindings expiresAt bootstrapOwner random =>
    exact @createAccountInvitation_calm login issuer displayName bindings expiresAt bootstrapOwner random
  | startAccountActivation login activationSecret random =>
    exact @startAccountActivation_calm login activationSecret random
  | completeAccountActivation challenge password salt =>
    exact completeAccountActivation_calm challenge password salt
  | createOrganization => exact (calm_ofExcept _).bind fun _ => calm_locked _
  | createOrganizationAs =>
    exact (calm_ofExcept _).bind fun _ => (calm_ofExcept _).bind fun _ =>
      (calm_locked _).bind fun _ => calm_audit (calm_pure _)
  | addOrganizationOwner | removeOrganizationOwner | addTeamMember => exact audited_calm
  | removeTeamMember => exact (calm_reading _).bind fun now => audited_calm
  | createTeam => exact (calm_ofExcept _).bind fun _ => (calm_ofExcept _).bind fun _ => calm_locked _
  | createTeamAs =>
    exact (calm_ofExcept _).bind fun _ => calm_unless (calm_unless
      ((calm_locked _).bind fun _ => calm_audit (calm_pure _)))
  | enrollBot actor slug displayName kind reach env random =>
    exact enrollBot_calm actor slug displayName kind reach env random
  | enrollTeamBot actor org stewardTeam slug displayName kind reach random =>
    exact enrollTeamBot_calm actor org stewardTeam slug displayName kind reach random
  | rotateBotKey actor botId random => exact rotateBotKey_calm actor botId random
  | suspendBot => exact (calm_locked _).bind fun _ => calm_audit (calm_pure _)
  | revokeBot => exact (calm_reading _).bind fun now => (calm_locked _).bind fun _ => calm_audit (calm_pure _)
  | exchangeBotEnrollmentKey presented random => exact exchangeBotEnrollmentKey_calm presented random
  | rotateBotRefreshToken =>
    exact (calm_reading _).bind fun now =>
      (calm_settledAfter fun core => rotateBotRefreshTokenLocked_values ..).bind answerRefresh_calm
  | rotateBotRefreshTokenIdempotent =>
    exact (calm_ofExcept _).bind fun _ => (calm_ofExcept _).bind fun _ => (calm_reading _).bind fun now =>
      (calm_settledAfter fun core => rotateIdempotentLocked_values ..).bind answerRefresh_calm
  | authorizeBot call => exact authorizeBotCall_calm call none
  | authorizeBotRefWrite call reference => exact authorizeBotCall_calm _ (some reference)
  | issueBotAccessToken =>
    exact (requireActiveAccount_calm _).bind fun _ => (calm_ofExcept _).bind fun _ =>
      (calm_ofExcept _).bind fun _ => (calm_ofExcept _).bind fun _ => (calm_reading _).bind fun now =>
        (calm_locked _).bind fun _ => calm_audit (calm_pure _)
  | revokeBotAccessToken =>
    exact (calm_reading _).bind fun now => (calm_locked _).bind fun _ => calm_audit (calm_pure _)
  | authenticateBotAccessToken => exact authenticateBotAccessToken_calm _
  | grantBotRepository =>
    exact (calm_reading _).bind fun now => (calm_locked _).bind fun _ => calm_audit (calm_pure _)
  | revokeBotRepositoryGrant =>
    exact (calm_locked _).bind fun _ => calm_ite (appendAuditWith_calm ..) (calm_pure _)
  | revokeIssuedTeamBotTokens =>
    exact (calm_reading _).bind fun now => (calm_locked _).bind fun _ =>
      calm_ite (calm_audit (calm_pure _)) (calm_pure _)
  | noteBotObservation =>
    exact (calm_ofExcept _).bind fun _ => calm_unless ((calm_reading _).bind fun now => calm_locked _)
  | reserveBotOperation =>
    exact (calm_ofExcept _).bind fun _ => (calm_ofExcept _).bind fun _ => (calm_ofExcept _).bind fun _ =>
      (calm_ofExcept _).bind fun _ => (calm_reading _).bind fun now => calm_locked _
  | finishBotOperation botId operation requestKey result isJson =>
    show Calm (Core.finishBotOperation botId operation requestKey result isJson)
    unfold Core.finishBotOperation
    exact calm_unless ((calm_ofExcept _).bind fun _ => calm_locked _)

end Jeryu.Auth
