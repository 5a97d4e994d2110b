import Jeryu.Auth.BotNames
import Jeryu.Auth.Diligence
import Jeryu.Auth.Runs
import Jeryu.Core.Runs
import Jeryu.Library.SeenPool

/-!
What fences the sessions and tokens of an account: each carries the epoch the account had as the call
that made it read the account, and an epoch never comes back.
-/

namespace Jeryu.Auth

open Jeryu.Core KeyedMap LockProgram Method

section Epochs

variable {s s' s'' : State} {login : String}

/-- Accounts stay, and their epochs never go back. -/
def EpochsGrow (s s' : State) : Prop :=
  ∀ login account, s.accounts.lookup login = some account →
    ∃ account', s'.accounts.lookup login = some account' ∧ account.authEpoch ≤ account'.authEpoch

theorem EpochsGrow.refl (s : State) : EpochsGrow s s := fun _ account found => ⟨account, found, Nat.le_refl _⟩

theorem EpochsGrow.trans (first : EpochsGrow s s') (second : EpochsGrow s' s'') : EpochsGrow s s'' := by
  intro login account found
  obtain ⟨next, there, grows⟩ := first login account found
  obtain ⟨last, stored, more⟩ := second login next there
  exact ⟨last, stored, Nat.le_trans grows more⟩

theorem epochsGrow_same (same : s'.accounts = s.accounts) : EpochsGrow s s' := by
  intro login account found
  exact ⟨account, by rwa [same], Nat.le_refl _⟩

theorem epochsGrow_insert {account : UserAccount} (stored : s'.accounts = s.accounts.insert login account)
    (grows : ∀ old, s.accounts.lookup login = some old → old.authEpoch ≤ account.authEpoch) :
    EpochsGrow s s' := by
  intro other old found
  rw [stored, HashMap.lookup_insert_if]
  by_cases same : other = login
  · subst same
    exact ⟨account, if_pos rfl, grows old found⟩
  · exact ⟨old, by rwa [if_neg same], Nat.le_refl _⟩

theorem Edited.epochsGrow {account edited : UserAccount} {now : DateTime} {next : State}
    {answer : Except Failure AccountSummary} (found : s.accounts.lookup login = some account)
    (edit : Edited s login edited now next answer) (sameEpoch : edited.authEpoch = account.authEpoch) :
    EpochsGrow s next := by
  cases edit with
  | spoiled failure =>
    refine epochsGrow_insert rfl fun old there => ?_
    cases found.symm.trans there
    omega
  | moved epoch same =>
    refine epochsGrow_insert rfl fun old there => ?_
    cases found.symm.trans there
    omega

theorem createAccount_epochsGrow {core : ForgeCore} {role : UserRole} {hash : Except ForgeError String} :
    EpochsGrow core.state ((createAccountLocked login role hash core).leaves core).state := by
  refine (createAccountLocked_ends.mono fun _ next _ made => ?_).leaves (.refl _)
  obtain ⟨free, -, account, user, -, -, -, rfl⟩ := made
  exact epochsGrow_insert rfl fun old there => nomatch free.symm.trans there

/-- Every section, by the epochs it leaves. -/
theorem Section.epochsGrow {call : Call} {core core' : ForgeCore} {reply : Option call.Reply}
    (moved : Section call core core' reply) : EpochsGrow core.state core'.state := by
  have within := moved.within
  cases moved with
  | audit audited entry => exact .refl _
  | refused audited => exact .refl _
  | createAccount | createTemporary => exact createAccount_epochsGrow
  | forceTemporary | forcePasswordChange =>
    refine (forcePasswordChangeLocked_ends.mono fun _ next _ made => ?_).leaves (.refl _)
    obtain ⟨account, found, ⟨-, rfl⟩ | edit⟩ := made
    · refine epochsGrow_insert rfl fun old there => ?_
      cases found.symm.trans there
      exact Nat.le_refl _
    · exact edit.epochsGrow found rfl
  | resetAccountPassword =>
    refine (resetAccountPasswordLocked_ends.mono fun _ next _ made => ?_).leaves (.refl _)
    obtain ⟨account, passwordHash, found, -, edit⟩ := made
    exact edit.epochsGrow found rfl
  | changeAccountPassword =>
    refine (changeAccountPasswordLocked_ends.mono fun _ next _ made => ?_).leaves (.refl _)
    obtain ⟨account, passwordHash, found, -, edit⟩ := made
    exact edit.epochsGrow found rfl
  | transition asks answered =>
    refine (transitionAccountStatusLocked_ends.mono fun _ next _ made => ?_).leaves (.refl _)
    obtain ⟨account, found, -, mid, edit, ⟨rfl, -⟩ | ⟨-, rfl⟩⟩ := made
    · exact edit.epochsGrow found rfl
    · have kept : EpochsGrow core.state mid := edit.epochsGrow found rfl
      exact kept
  | checkRecovery => exact epochsGrow_same (checkRecovery_within .accounts (by decide))
  | recoverPassword checked passwordHash now =>
    refine (recoverPasswordLocked_ends.mono fun _ next _ made => ?_).leaves (.refl _)
    obtain ⟨account, mid, moved, -, -, found, rfl, edit, -⟩ := made
    have kept : EpochsGrow ((core.state.retireLiveSecrets checked.login now).pruneDeadRecoveries now) next :=
      edit.epochsGrow found rfl
    exact kept
  | completeAccountActivation passwordHash now =>
    refine (completeAccountActivationLocked_ends.mono fun _ next _ made => ?_).leaves (.refl _)
    obtain ⟨record, invitation, account, user, -, -, -, -, -, free, -, -, named, -, -, rfl⟩ := made
    refine epochsGrow_insert activated_accounts fun old there => ?_
    rw [named] at there
    cases free.symm.trans there
  | _ => exact epochsGrow_same (within .accounts (by simp [Call.tables]))

end Epochs

section Credentials

/-- A session or a token that stands for the account as it was at the epoch. -/
inductive Held (s : State) : String × Nat → Prop where
  | session {key : Digest} {session : WebSession} (stored : s.auth.sessions.lookup key = some session) :
      Held s (session.login, session.authEpoch)
  | token {id : Uuid} {token : PersonalAccessToken}
      (stored : s.auth.personalTokens.lookup id = some token) : Held s (token.login, token.authEpoch)

/-- The call makes a session or a token for the login. -/
def Call.IssuesFor (login : String) : Call → Prop
  | .createSession own .. | .createPersonalAccessToken own .. => own = login
  | _ => False

/-- The sessions and the tokens are among those there were. -/
structure Fewer (s s' : State) : Prop where
  sessions : ∀ key session, s'.auth.sessions.lookup key = some session →
    s.auth.sessions.lookup key = some session
  tokens : ∀ id token, s'.auth.personalTokens.lookup id = some token →
    s.auth.personalTokens.lookup id = some token

variable {s s' s'' : State} {login : String}

theorem lookup_of_erase {κ ν : Type} [DecidableEq κ] {rows : HashMap κ ν} {key other : κ} {row : ν}
    (stored : (rows.erase key).lookup other = some row) : rows.lookup other = some row := by
  rw [HashMap.lookup_erase_if] at stored
  split at stored
  · cases stored
  · exact stored

theorem Fewer.refl (s : State) : Fewer s s := ⟨fun _ _ stored => stored, fun _ _ stored => stored⟩

theorem Fewer.trans (first : Fewer s s') (second : Fewer s' s'') : Fewer s s'' :=
  ⟨fun key session stored => first.sessions key session (second.sessions key session stored),
    fun id token stored => first.tokens id token (second.tokens id token stored)⟩

theorem Fewer.held (fewer : Fewer s s') {fact : String × Nat} (held : Held s' fact) : Held s fact := by
  cases held with
  | session stored => exact .session (fewer.sessions _ _ stored)
  | token stored => exact .token (fewer.tokens _ _ stored)

theorem fewer_same (sessions : s'.auth.sessions = s.auth.sessions)
    (tokens : s'.auth.personalTokens = s.auth.personalTokens) : Fewer s s' :=
  ⟨fun _ _ stored => by rwa [← sessions], fun _ _ stored => by rwa [← tokens]⟩

theorem Within.fewer {tables : List Table} (within : Within tables s s') (sessions : Table.sessions ∉ tables)
    (tokens : Table.personalTokens ∉ tables) : Fewer s s' :=
  fewer_same (within .sessions sessions) (within .personalTokens tokens)

theorem fenced_fewer {updated : UserAccount} {now : DateTime} : Fewer s (fenced s login updated now) := by
  constructor
  · intro key session stored
    have kept : (s.auth.sessions.retain fun _ session => session.login != login).lookup key = some session :=
      stored
    rw [HashMap.lookup_retain] at kept
    exact (Option.filter_eq_some_iff.mp kept).1
  · intro id token stored
    have kept : (s.auth.personalTokens.retain fun _ token => token.login != login).lookup id = some token :=
      stored
    rw [HashMap.lookup_retain] at kept
    exact (Option.filter_eq_some_iff.mp kept).1

theorem Edited.fewer {edited : UserAccount} {now : DateTime} {next : State}
    {answer : Except Failure AccountSummary} (edit : Edited s login edited now next answer) :
    Fewer s next := by
  cases edit with
  | spoiled failure => exact fewer_same rfl rfl
  | moved epoch same => exact fenced_fewer

/-- Every section but those that make a session or a token, by those it leaves. -/
theorem Section.fewer {call : Call} {core core' : ForgeCore} {reply : Option call.Reply}
    (moved : Section call core core' reply) (issues : ∀ login, ¬call.IssuesFor login) :
    Fewer core.state core'.state := by
  have within := moved.within
  cases moved with
  | audit audited entry => exact .refl _
  | refused audited => exact .refl _
  | createTemporary =>
    refine (createAccountLocked_ends.mono fun _ next _ made => ?_).leaves (.refl _)
    obtain ⟨-, -, account, user, -, -, -, rfl⟩ := made
    exact fewer_same rfl rfl
  | forceTemporary | forcePasswordChange =>
    refine (forcePasswordChangeLocked_ends.mono fun _ next _ made => ?_).leaves (.refl _)
    obtain ⟨account, found, ⟨-, rfl⟩ | edit⟩ := made
    · exact fewer_same rfl rfl
    · exact edit.fewer
  | resetAccountPassword =>
    refine (resetAccountPasswordLocked_ends.mono fun _ next _ made => ?_).leaves (.refl _)
    obtain ⟨account, passwordHash, found, -, edit⟩ := made
    exact edit.fewer
  | changeAccountPassword =>
    refine (changeAccountPasswordLocked_ends.mono fun _ next _ made => ?_).leaves (.refl _)
    obtain ⟨account, passwordHash, found, -, edit⟩ := made
    exact edit.fewer
  | transition asks answered =>
    refine (transitionAccountStatusLocked_ends.mono fun _ next _ made => ?_).leaves (.refl _)
    obtain ⟨account, found, -, mid, edit, ⟨rfl, -⟩ | ⟨-, rfl⟩⟩ := made
    · exact edit.fewer
    · have kept : Fewer core.state mid := edit.fewer
      exact kept.trans (fewer_same rfl rfl)
  | checkRecovery =>
    exact fewer_same (checkRecovery_within .sessions (by decide))
      (checkRecovery_within .personalTokens (by decide))
  | recoverPassword checked passwordHash now =>
    refine (recoverPasswordLocked_ends.mono fun _ next _ made => ?_).leaves (.refl _)
    obtain ⟨account, mid, moved, -, -, found, rfl, edit, -⟩ := made
    have pruned : Fewer core.state
        ((core.state.retireLiveSecrets checked.login now).pruneDeadRecoveries now) := fewer_same rfl rfl
    exact pruned.trans edit.fewer
  | createSession | createPersonalAccessToken => exact absurd rfl (issues _)
  | revokeSession =>
    refine (revokeSessionLocked_ends.mono fun _ next _ made => ?_).leaves (.refl _)
    subst made
    refine ⟨fun key session stored => ?_, fun _ _ stored => stored⟩
    exact lookup_of_erase stored
  | revokePersonalAccessToken =>
    refine (revokePersonalTokenLocked_ends.mono fun _ next _ made => ?_).leaves (.refl _)
    rcases made with rfl | rfl
    · refine ⟨fun _ _ stored => stored, fun id token stored => ?_⟩
      exact lookup_of_erase stored
    · exact .refl _
  | _ => exact within.fewer (by simp [Call.tables]) (by simp [Call.tables])

end Credentials

section Methods

variable {α β : Type} {I : ForgeCore → Prop} {R : (ForgeCore → Prop) → ForgeCore → ForgeCore → Prop}
variable {seen : ForgeCore → Prop}

/-- The method makes its changes on what it has seen, `seen` included. -/
structure RestsOn (I : ForgeCore → Prop) (R : (ForgeCore → Prop) → ForgeCore → ForgeCore → Prop)
    (seen : ForgeCore → Prop) (method : Method α) : Prop where
  rests : method.run.Rests I R (fun _ _ => True) seen

theorem rests_reading_bind {f : ForgeCore → Except ForgeError α} {rest : α → Method β}
    (after : ∀ core a, I core → f core = .ok a → RestsOn I R (Sees seen core) (rest a)) :
    RestsOn I R seen (reading f >>= rest) := by
  refine ⟨fun core holds => ?_⟩
  show Program.Rests I R (fun _ _ => True)
    (Program.done ((f core).mapError Failure.error) >>= ExceptT.bindCont rest) (Sees seen core)
  cases answered : f core with
  | ok a => exact (after core a holds answered).rests
  | error error => exact True.intro

theorem rests_ofExcept_bind {result : Except ForgeError α} {f : α → Method β}
    (rest : ∀ a, result = .ok a → RestsOn I R seen (f a)) : RestsOn I R seen (ofExcept result >>= f) := by
  cases result with
  | ok a => exact ⟨(rest a rfl).rests⟩
  | error error => exact ⟨True.intro⟩

end Methods

section Issuing

variable {login name : String} {core shown : ForgeCore} {account : AccountSummary} {fact : String × Nat}

end Issuing

section Runs

variable {start pool : Pool} {login : String} {epoch : Nat}

/-- The sections of what is under way are known. -/
abbrev Pool.Known (pool : Pool) : Prop :=
  Sound (fun _ => True) (fun call => Section call) (fun _ _ => True) pool

theorem known_certified : Certified (accounts anyTicks) anySection (fun _ => True) (fun call => Section call)
    fun _ _ => True :=
  accounts_certified (fun _ _ _ _ => True.intro) fun _ _ _ _ _ _ _ => True.intro

theorem epochs_grow (run : Runs start pool) (known : start.Known) :
    EpochsGrow start.shared.state pool.shared.state :=
  known_certified.along (fun core => .refl core.state) (fun _ _ _ first second => first.trans second)
    (fun _ _ _ moved => epochsGrow_same moved.accounts) (fun _ _ _ _ _ _ moved => moved.epochsGrow) run known

end Runs

section Demo

/-- `ada` signs in, and so does a call that has read her account as she does. -/
def signedIn : List (Turn Call) :=
  [.alone (.createAccount "ada" "correct horse" .user (.ok "$argon2id$salt$correct horse")),
    .enter (.createSession "ada" day (.ok ())), .advance 1, .alone (.createSession "ada" day (.ok ())),
    .advance 1, .advance 1]

end Demo

end Jeryu.Auth
