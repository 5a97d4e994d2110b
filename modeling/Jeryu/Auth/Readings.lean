import Jeryu.Auth.Runs
import Jeryu.Library.PacedPool

/-!
Runs under a clock that is never set back: what a call has read of the clock lies behind the clock
its next section finds.
-/

namespace Jeryu.Auth

open Jeryu.Core KeyedMap LockProgram Method

/-- A clock that is never set back. -/
def forward (past now : DateTime) : Prop := past ≤ now

def Ahead (core core' : ForgeCore) : Prop := core.now ≤ core'.now

/-- The calls whose answer depends on when they read the clock. -/
def Call.timed : Call → Bool
  | .issuePasswordRecovery .. | .recoverPassword .. | .createAccountInvitation ..
  | .startAccountActivation .. | .completeAccountActivation .. | .reserveBotOperation ..
  | .finishBotOperation .. | .rotateBotRefreshTokenIdempotent .. => true
  | _ => false

/-- The sections of a run under such a clock, `now` what the call read of it before, and no earlier
    than `since`. -/
inductive Timely (since : DateTime) : (call : Call) → ForgeCore → ForgeCore → Option call.Reply → Prop where
  | untimed {call core core' reply} (quiet : call.timed = false)
      (moved : Section call core core' reply) : Timely since call core core' reply
  | receipt {call core core' reply} (audited : call.Audited) (same : core'.state = core.state)
      (drawn : core'.uuids = core.uuids) (clock : core'.now = core.now) : Timely since call core core' reply
  | issuePasswordRecovery {login random core} (now : DateTime) (after : since ≤ now) (behind : now ≤ core.now) :
      Timely since (.issuePasswordRecovery login random) core
        ((issuePasswordRecoveryLocked login now core).leaves core)
        (some (Outcome.ends (issuePasswordRecoveryLocked login now core) core))
  | checkRecovery {tokenId secret newPassword salt core reply}
      (unanswered : ∀ receipt, reply ≠ some (.ok receipt)) :
      Timely since (.recoverPassword (some (tokenId, secret)) newPassword salt) core
        ((checkRecoveryLocked tokenId secret core).leaves core) reply
  | recoverPassword {tokenId secret newPassword salt core} (checked : VerifiedSpend)
      (passwordHash : String) (now : DateTime) (after : since ≤ now) (behind : now ≤ core.now) :
      Timely since (.recoverPassword (some (tokenId, secret)) newPassword salt) core
        ((recoverPasswordLocked tokenId secret checked passwordHash now core).leaves core)
        (some (Outcome.ends (recoverPasswordLocked tokenId secret checked passwordHash now core) core))
  | createAccountInvitation {issuer login displayName bindings expiresAt bootstrapOwner random core}
      (teams : List String) (bound : normalizeTeamBindings bindings.teams = .ok teams)
      (now : DateTime) (after : since ≤ now) (behind : now ≤ core.now) (later : now < expiresAt) :
      Timely since (.createAccountInvitation issuer login displayName bindings expiresAt bootstrapOwner random)
        core ((createAccountInvitationLocked issuer login displayName { bindings with teams } now
          expiresAt bootstrapOwner core).leaves core)
        (some ((createAccountInvitationLocked issuer login displayName { bindings with teams } now
          expiresAt bootstrapOwner core).answers core))
  | startAccountActivation {login activationSecret random core} (now : DateTime)
      (after : since ≤ now) (behind : now ≤ core.now) :
      Timely since (.startAccountActivation login activationSecret random) core
        ((startAccountActivationLocked login activationSecret now core).leaves core)
        (some (Outcome.ends (startAccountActivationLocked login activationSecret now core) core))
  | completeAccountActivation {challenge password salt core} (passwordHash : String)
      (now : DateTime) (after : since ≤ now) (behind : now ≤ core.now) :
      Timely since (.completeAccountActivation challenge password salt) core
        ((completeAccountActivationLocked (tokenHash challenge) passwordHash now core).leaves core)
        (some (Outcome.ends
          (completeAccountActivationLocked (tokenHash challenge) passwordHash now core) core))
  | reserveBotOperation {botId operation requestKey bodyDigest core}
      (plain : operation ≠ refreshOperation) (now : DateTime) (after : since ≤ now) (behind : now ≤ core.now) :
      Timely since (.reserveBotOperation botId operation requestKey bodyDigest) core
        ((reserveBotOperationLocked botId operation requestKey bodyDigest now core).leaves core)
        (some ((reserveBotOperationLocked botId operation requestKey bodyDigest now core).answers core))
  | finishBotOperation {botId operation requestKey result isJson core}
      (plain : operation ≠ refreshOperation) :
      Timely since (.finishBotOperation botId operation requestKey result isJson) core
        ((finishBotOperationLocked botId operation requestKey result core).leaves core)
        (some ((finishBotOperationLocked botId operation requestKey result core).answers core))
  | rotateBotRefreshTokenIdempotent {vaultKey refreshToken requestKey bodyDigest random core reply}
      (now : DateTime) (after : since ≤ now) (behind : now ≤ core.now) (pruned : ForgeCore)
      (prunes : pruned =
        { core with state := pruneForRefresh (tokenHash refreshToken) now core.state }) :
      Timely since (.rotateBotRefreshTokenIdempotent vaultKey refreshToken requestKey bodyDigest random) core
        ((rotateIdempotentLocked vaultKey (tokenHash refreshToken) requestKey bodyDigest random now
          pruned).leaves pruned) reply

/-- A section is one of its call's. -/
theorem Timely.section {since : DateTime} {call : Call} {core core' : ForgeCore} {reply : Option call.Reply}
    (moved : Timely since call core core' reply) :
    Section call core core' reply ∨
      core'.state = core.state ∧ core'.uuids = core.uuids ∧ core'.now = core.now := by
  cases moved with
  | untimed quiet moved => exact .inl moved
  | receipt audited same drawn clock => exact .inr ⟨same, drawn, clock⟩
  | issuePasswordRecovery now after behind => exact .inl (.issuePasswordRecovery now)
  | checkRecovery unanswered => exact .inl .checkRecovery
  | recoverPassword checked passwordHash now after behind =>
    exact .inl (.recoverPassword checked passwordHash now)
  | createAccountInvitation teams bound now after behind later =>
    exact .inl (.createAccountInvitation teams now)
  | startAccountActivation now after behind => exact .inl (.startAccountActivation now)
  | completeAccountActivation passwordHash now after behind =>
    exact .inl (.completeAccountActivation passwordHash now)
  | reserveBotOperation plain now after behind => exact .inl (.reserveBotOperation now plain)
  | finishBotOperation plain => exact .inl (.finishBotOperation plain)
  | rotateBotRefreshTokenIdempotent now after behind pruned prunes =>
    exact .inl (.rotateBotRefreshTokenIdempotent now pruned prunes)

theorem Timely.clock {since : DateTime} {call : Call} {core core' : ForgeCore} {reply : Option call.Reply}
    (moved : Timely since call core core' reply) : core'.now = core.now :=
  moved.section.elim (fun moved => moved.paces.2) fun same => same.2.2

theorem Timely.uuids {since : DateTime} {call : Call} {core core' : ForgeCore}
    {reply : Option call.Reply} (moved : Timely since call core core' reply) :
    core.uuids ≤ core'.uuids :=
  moved.section.elim (fun moved => moved.paces.1) fun same => same.2.1.ge

/-- Whatever a section does to the tables, it does to those of its call. -/
theorem Timely.within {since : DateTime} {call : Call} {core core' : ForgeCore} {reply : Option call.Reply}
    (moved : Timely since call core core' reply) : Within call.tables core.state core'.state := by
  rcases moved.section with moved | ⟨same, -⟩
  · exact moved.within
  · rw [same]
    exact within_refl

/-- What was read no earlier than a time was read no earlier than the times before it. -/
theorem Timely.mono {since since' : DateTime} {call : Call} {core core' : ForgeCore}
    {reply : Option call.Reply} (moved : Timely since' call core core' reply)
    (earlier : since ≤ since') : Timely since call core core' reply := by
  cases moved with
  | untimed quiet moved => exact .untimed quiet moved
  | receipt audited same drawn clock => exact .receipt audited same drawn clock
  | issuePasswordRecovery now after behind =>
    exact .issuePasswordRecovery now (earlier.trans after) behind
  | checkRecovery unanswered => exact .checkRecovery unanswered
  | recoverPassword checked passwordHash now after behind =>
    exact .recoverPassword checked passwordHash now (earlier.trans after) behind
  | createAccountInvitation teams bound now after behind later =>
    exact .createAccountInvitation teams bound now (earlier.trans after) behind later
  | startAccountActivation now after behind =>
    exact .startAccountActivation now (earlier.trans after) behind
  | completeAccountActivation passwordHash now after behind =>
    exact .completeAccountActivation passwordHash now (earlier.trans after) behind
  | reserveBotOperation plain now after behind =>
    exact .reserveBotOperation plain now (earlier.trans after) behind
  | finishBotOperation plain => exact .finishBotOperation plain
  | rotateBotRefreshTokenIdempotent now after behind pruned prunes =>
    exact .rotateBotRefreshTokenIdempotent now (earlier.trans after) behind pruned prunes

/-- Every section of the method, from a clock at `seen` on, moves the core along `R`. -/
structure WritesFrom {α : Type} (seen : ForgeCore) (method : Method α)
    (R : ForgeCore → ForgeCore → Option (Except Failure α) → Prop) : Prop where
  meets : method.run.MeetsFrom Ahead R seen

section Methods

variable {α β : Type} {seen : ForgeCore}
variable {R : ForgeCore → ForgeCore → Option (Except Failure α) → Prop}
variable {S : ForgeCore → ForgeCore → Option (Except Failure β) → Prop}

theorem ahead_refl (core : ForgeCore) : Ahead core core := le_refl _

theorem ahead_trans (a b c : ForgeCore) (first : Ahead a b) (second : Ahead b c) : Ahead a c :=
  le_trans first second

theorem writesFrom_of {method : Method α} (writes : method.Writes R) : WritesFrom seen method R :=
  ⟨writes.meets.meetsFrom seen⟩

theorem writesFrom_ofExcept_bind {result : Except ForgeError α} {f : α → Method β}
    (rest : ∀ a, result = .ok a → WritesFrom seen (f a) S) :
    WritesFrom seen (ofExcept result >>= f) S := by
  cases result with
  | ok a => exact ⟨(rest a rfl).meets⟩
  | error e => exact ⟨True.intro⟩

theorem writesFrom_ite {p : Prop} [Decidable p] {yes no : Method α} (left : WritesFrom seen yes R)
    (right : ¬p → WritesFrom seen no R) : WritesFrom seen (if p then yes else no) R := by
  split
  · exact left
  · next fails => exact right fails

/-- An early refusal in a `do` block. -/
theorem writesFrom_unless {p : Prop} [Decidable p] {failure : Failure} {rest : Unit → Method β}
    (after : ¬p → WritesFrom seen (rest ()) S) :
    WritesFrom seen (if p then (throw failure : Method Unit) >>= fun r => rest r else rest ()) S :=
  writesFrom_ite ⟨True.intro⟩ after

theorem writesFrom_utcNow_bind {f : DateTime → Method β}
    (rest : ∀ core, seen.now ≤ core.now → WritesFrom core (f core.now) S) :
    WritesFrom seen (utcNow >>= f) S := ⟨fun core ahead => (rest core ahead).meets⟩

theorem writesFrom_locked {f : ForgeCore → Core.Outcome α}
    (moved : ∀ core, seen.now ≤ core.now →
      R core ((f core).leaves core) (some ((f core).answers core))) :
    WritesFrom seen (locked f) R := ⟨fun core ahead => ⟨moved core ahead, True.intro⟩⟩

theorem writesFrom_settled {f : ForgeCore → Core.Outcome (Except Failure α)}
    (moved : ∀ core, seen.now ≤ core.now →
      R core ((f core).leaves core) (some (Outcome.ends (f core) core))) :
    WritesFrom seen (settled f) R := ⟨fun core ahead => ⟨moved core ahead, True.intro⟩⟩

theorem WritesFrom.bind {method : Method α} {f : α → Method β}
    (first : WritesFrom seen method fun core core' _ =>
      Ahead core core' ∧ ∀ reply, S core core' reply)
    (rest : ∀ a core, Ahead seen core → WritesFrom core (f a) S) :
    WritesFrom seen (method >>= f) S := by
  have sections := first.meets.mono fun _ _ _ moved =>
    (⟨moved.1, fun reply (_ : True) => moved.2 reply⟩ : _ ∧ ∀ reply, True → _)
  refine ⟨Program.MeetsFrom.bind ahead_trans ahead_refl (fun _ => True.intro) sections
    fun result core ahead => ?_⟩
  cases result with
  | ok a => exact (rest a core ahead).meets
  | error e => exact True.intro

/-- `WritesFrom.bind` before a section that is still to come. -/
theorem WritesFrom.bind_unfinished {method : Method α} {f : α → Method β}
    (first : WritesFrom seen method fun core core' _ =>
      Ahead core core' ∧ ∀ reply, (∀ value, reply ≠ some (.ok value)) → S core core' reply)
    (unfinished : ∀ a value, (f a).run.reply ≠ some (.ok value))
    (rest : ∀ a core, Ahead seen core → WritesFrom core (f a) S) :
    WritesFrom seen (method >>= f) S := by
  have answers (q : Program ForgeCore (Except Failure α)) (value : β) :
      (q >>= ExceptT.bindCont f).reply ≠ some (.ok value) := by
    cases q with
    | done result =>
      cases result with
      | error e => exact fun same => nomatch same
      | ok a => exact unfinished a value
    | read next => simp
    | write update next => simp
  refine ⟨Program.MeetsFrom.bind ahead_trans ahead_refl answers first.meets fun result core ahead => ?_⟩
  cases result with
  | ok a => exact (rest a core ahead).meets
  | error e => exact True.intro

end Methods

section Calls

theorem issuePasswordRecovery_timely {login : String} {random : Except ForgeError Unit}
    {seen : ForgeCore} : WritesFrom seen (Core.issuePasswordRecovery login random)
      (Timely seen.now (.issuePasswordRecovery login random)) := by
  unfold Core.issuePasswordRecovery
  refine writesFrom_unless fun _ => writesFrom_ofExcept_bind fun _ _ => ?_
  exact writesFrom_utcNow_bind fun read after => writesFrom_settled
    fun core ahead => .issuePasswordRecovery read.now after ahead

theorem recoverPassword_timely {presented : PresentedRecovery} {newPassword : String}
    {salt : Except ForgeError String} {seen : ForgeCore} :
    WritesFrom seen (Core.recoverPassword presented newPassword salt)
      (Timely seen.now (.recoverPassword presented newPassword salt)) := by
  unfold Core.recoverPassword
  refine writesFrom_ofExcept_bind fun _ _ => ?_
  cases presented with
  | none => exact ⟨True.intro⟩
  | some presented =>
    obtain ⟨tokenId, secret⟩ := presented
    have check : (Method.locked (checkRecoveryLocked tokenId secret)).Writes fun core core' _ =>
        Ahead core core' ∧ ∀ reply, (∀ receipt, reply ≠ some (.ok receipt)) →
          Timely seen.now (.recoverPassword (some (tokenId, secret)) newPassword salt) core core'
            reply :=
      writes_locked fun core => ⟨(leaves_now _ core).ge, fun _ => .checkRecovery⟩
    refine WritesFrom.bind_unfinished (writesFrom_of (writes_recovered check fun result => ?_))
      (fun checked receipt => ?_) fun checked core later => ?_
    · rcases result with failure | _ | checked <;> exact ⟨_, rfl⟩
    · cases hashPassword salt newPassword with
      | ok passwordHash => exact fun same => nomatch same
      | error failure => exact fun same => nomatch same
    · refine writesFrom_ofExcept_bind fun passwordHash _ => ?_
      exact writesFrom_utcNow_bind fun read after => writesFrom_settled
        fun core ahead => .recoverPassword checked passwordHash read.now (later.trans after) ahead

theorem createAccountInvitation_timely {issuer login displayName : String}
    {bindings : InvitationBindings} {expiresAt : DateTime} {bootstrapOwner : Bool}
    {random : Except ForgeError Unit} {seen : ForgeCore} :
    WritesFrom seen (Core.createAccountInvitationInner issuer login displayName bindings expiresAt
      bootstrapOwner random)
      (Timely seen.now (.createAccountInvitation issuer login displayName bindings expiresAt bootstrapOwner
        random)) := by
  unfold Core.createAccountInvitationInner
  refine writesFrom_ofExcept_bind fun _ _ => writesFrom_ofExcept_bind fun _ _ => ?_
  refine writesFrom_ofExcept_bind fun _ _ => writesFrom_ofExcept_bind fun teams bound => ?_
  refine writesFrom_utcNow_bind fun read after => writesFrom_unless fun later => ?_
  refine writesFrom_unless fun _ => writesFrom_ofExcept_bind fun _ _ => ?_
  exact writesFrom_locked fun core ahead =>
    .createAccountInvitation teams bound read.now after ahead (not_le.mp later)

theorem startAccountActivation_timely {login : String} {activationSecret : Secret}
    {random : Except ForgeError Unit} {seen : ForgeCore} :
    WritesFrom seen (Core.startAccountActivation login activationSecret random)
      (Timely seen.now (.startAccountActivation login activationSecret random)) := by
  unfold Core.startAccountActivation
  refine writesFrom_unless fun _ => writesFrom_ofExcept_bind fun _ _ => ?_
  exact writesFrom_utcNow_bind fun read after => writesFrom_settled
    fun core ahead => .startAccountActivation read.now after ahead

theorem completeAccountActivation_timely {challenge : Secret} {password : String}
    {salt : Except ForgeError String} {seen : ForgeCore} :
    WritesFrom seen (Core.completeAccountActivation challenge password salt)
      (Timely seen.now (.completeAccountActivation challenge password salt)) := by
  unfold Core.completeAccountActivation
  refine writesFrom_ofExcept_bind fun _ _ => writesFrom_ofExcept_bind fun passwordHash _ => ?_
  exact writesFrom_utcNow_bind fun read after => writesFrom_settled
    fun core ahead => .completeAccountActivation passwordHash read.now after ahead

theorem reserveBotOperation_timely {botId : Uuid} {operation requestKey bodyDigest : String}
    {seen : ForgeCore} : WritesFrom seen (Core.reserveBotOperation botId operation requestKey bodyDigest)
      (Timely seen.now (.reserveBotOperation botId operation requestKey bodyDigest)) := by
  unfold Core.reserveBotOperation
  refine writesFrom_ofExcept_bind fun _ _ => writesFrom_ofExcept_bind fun _ passed => ?_
  refine writesFrom_ofExcept_bind fun _ _ => writesFrom_ofExcept_bind fun _ _ => ?_
  exact writesFrom_utcNow_bind fun read after => writesFrom_locked
    fun core ahead => .reserveBotOperation (requirePlainOperation_ok passed) read.now after ahead

theorem finishBotOperation_timely {botId : Uuid} {operation requestKey result : String}
    {isJson : Bool} {seen : ForgeCore} :
    WritesFrom seen (Core.finishBotOperation botId operation requestKey result isJson)
      (Timely seen.now (.finishBotOperation botId operation requestKey result isJson)) := by
  unfold Core.finishBotOperation
  refine writesFrom_unless fun _ => writesFrom_ofExcept_bind fun _ passed => ?_
  exact writesFrom_locked fun core _ => .finishBotOperation (requirePlainOperation_ok passed)

/-- The receipts a presented refresh token is owed. -/
theorem answerRefresh_timely {since : DateTime} {call : Call} (audited : call.Audited) (answer : RefreshAnswer) :
    (answerRefresh answer).Writes fun core core' _ => ∀ reply, Timely since call core core' reply := by
  have receipts (actor action subject : String) (phase : AuditPhase) :
      (recordBotAudit actor action subject phase).Writes
        fun core core' _ => ∀ reply, Timely since call core core' reply := by
    refine writes_locked fun core reply => ?_
    cases core.auditReceipt actor action subject phase (.other (.object [])) with
    | ok entry => exact .receipt audited rfl rfl rfl
    | error _ => exact .receipt audited rfl rfl rfl
  cases answer with
  | session session => exact writes_pure _
  | replayed actor subject session =>
    exact Writes.bind (Writes.mono (receipts ..) fun _ _ _ moved _ => moved) fun _ => writes_pure _
  | reused actor subject =>
    exact Writes.bind (Writes.mono (receipts ..) fun _ _ _ moved _ => moved) fun _ => writes_throw _

theorem rotateBotRefreshTokenIdempotent_timely {vaultKey : Option String} {refreshToken : Secret}
    {requestKey bodyDigest : String} {random : Except ForgeError Unit} {seen : ForgeCore} :
    WritesFrom seen
      (Core.rotateBotRefreshTokenIdempotent vaultKey refreshToken requestKey bodyDigest random)
      (Timely seen.now (.rotateBotRefreshTokenIdempotent vaultKey refreshToken requestKey bodyDigest random)) := by
  unfold Core.rotateBotRefreshTokenIdempotent
  refine writesFrom_ofExcept_bind fun _ _ => writesFrom_ofExcept_bind fun _ _ => ?_
  refine writesFrom_utcNow_bind fun read after => WritesFrom.bind ⟨fun core ahead => ?_⟩ fun answer _ _ =>
    writesFrom_of (Writes.mono (answerRefresh_timely .rotateBotRefreshTokenIdempotent answer)
      fun _ _ _ moved => moved _)
  refine ⟨⟨(leaves_now _ _).ge, fun reply => ?_⟩, True.intro⟩
  exact .rotateBotRefreshTokenIdempotent read.now after ahead _ rfl

/-- Whatever a call writes, it writes in one of its sections, its readings behind the clock. -/
theorem call_timely (call : Call) (seen : ForgeCore) :
    WritesFrom seen call.method (Timely seen.now call) := by
  have others (quiet : call.timed = false) : WritesFrom seen call.method (Timely seen.now call) :=
    writesFrom_of (Writes.mono (call_writes call) fun _ _ _ moved => .untimed quiet moved)
  cases call with
  | issuePasswordRecovery login random => exact @issuePasswordRecovery_timely login random seen
  | recoverPassword presented newPassword salt =>
    exact @recoverPassword_timely presented newPassword salt seen
  | createAccountInvitation issuer login displayName bindings expiresAt bootstrapOwner random =>
    exact @createAccountInvitation_timely issuer login displayName bindings expiresAt bootstrapOwner
      random seen
  | startAccountActivation login activationSecret random =>
    exact @startAccountActivation_timely login activationSecret random seen
  | completeAccountActivation challenge password salt =>
    exact @completeAccountActivation_timely challenge password salt seen
  | reserveBotOperation botId operation requestKey bodyDigest =>
    exact @reserveBotOperation_timely botId operation requestKey bodyDigest seen
  | finishBotOperation botId operation requestKey result isJson =>
    exact @finishBotOperation_timely botId operation requestKey result isJson seen
  | rotateBotRefreshTokenIdempotent vaultKey refreshToken requestKey bodyDigest random =>
    exact @rotateBotRefreshTokenIdempotent_timely vaultKey refreshToken requestKey bodyDigest random
      seen
  | _ => exact others rfl

end Calls

/-- The relation every section of a run keeps to, whenever its call was entered. -/
def InTime (call : Call) (core core' : ForgeCore) (reply : Option call.Reply) : Prop :=
  ∃ since, Timely since call core core' reply

/-- Any interleaving of calls, under a clock that is never set back. -/
abbrev ForwardRuns (pool pool' : Pool) : Prop := Run (accounts forward) anySection pool pool'

def Pool.ForwardReachable (pool : Pool) : Prop :=
  ∃ start : Pool, start.Initial ∧ ForwardRuns start pool

theorem accounts_paced : Paced (accounts forward) Ahead InTime where
  refl := ahead_refl
  trans := ahead_trans
  programs call seen := (call_timely call seen).meets.mono fun _ _ _ moved => ⟨_, moved⟩
  ambient _ _ moved := moved.clock
  sections := fun _ _ _ _ ⟨_, moved⟩ => moved.clock.ge

section Pools

variable {pool pool' before : Pool} {i : Nat} {call : Call} {reply : Option call.Reply}

theorem Pool.ForwardReachable.step (reachable : pool.ForwardReachable) (run : ForwardRuns pool pool') :
    pool'.ForwardReachable := by
  obtain ⟨start, initial, first⟩ := reachable
  exact ⟨start, initial, first.trans run⟩

theorem Pool.Initial.onPace (initial : pool.Initial) : pool.OnPace Ahead InTime := by
  intro task member
  rw [initial.2] at member
  cases member

theorem Pool.ForwardReachable.onPace (reachable : pool.ForwardReachable) :
    pool.OnPace Ahead InTime := by
  obtain ⟨start, initial, run⟩ := reachable
  exact (accounts_paced.run run initial.onPace).1

/-- The clock is never set back. -/
theorem Pool.ForwardReachable.ahead (reachable : pool.ForwardReachable) (run : ForwardRuns pool pool') :
    pool.shared.now ≤ pool'.shared.now := (accounts_paced.run run reachable.onPace).2

/-- A call that was entered later on read the clock later on. -/
theorem Pool.ForwardReachable.timely (reachable : before.ForwardReachable)
    (run : ForwardRuns before pool) (later : before.tasks.length ≤ i)
    (writes : pool.Writes i call reply pool') :
    Timely before.shared.now call pool.shared pool'.shared reply := by
  have programs (call : Call) (core : ForgeCore) (after : before.shared.now ≤ core.now) :
      call.method.run.MeetsFrom Ahead (Timely before.shared.now call) core :=
    (call_timely call core).meets.mono fun _ _ _ moved => moved.mono after
  obtain ⟨update, next, running, rfl, rfl⟩ := writes
  have meets := accounts_paced.since programs (fun _ _ => le_trans) run reachable.onPace (le_refl _)
    i call _ later running
  exact (meets pool.shared (ahead_refl _)).1

end Pools

section Schedules

variable {pool : Pool}

theorem played_forward {turns : List (Turn Call)} :
    ForwardRuns pool (Config.play (accounts forward) pool turns) := play_run plays_any

/-- The pool after a while in which nothing runs. -/
def waited (pool : Pool) (span : DateTime) : Pool :=
  ⟨{ pool.shared with now := pool.shared.now + span }, pool.tasks⟩

theorem waited_forward {span : DateTime} (ahead : 0 ≤ span) : ForwardRuns pool (waited pool span) :=
  .single (Step.ambient ⟨le_refl _, Int.le_add_of_nonneg_right ahead, rfl, rfl, rfl, rfl, rfl⟩)

end Schedules

end Jeryu.Auth
