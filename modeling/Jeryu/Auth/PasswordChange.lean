import Jeryu.Auth.Grounds
import Jeryu.Auth.Runs
import Jeryu.Core.Runs
import Jeryu.Library.SeenPool

/-!
A password is changed by who knows it: the password is shown in one section and written over in a
later one.
-/

namespace Jeryu.Auth

open Jeryu.Core KeyedMap LockProgram Method

/-- The account has the new hash and nothing else new but its epoch; its sessions and tokens are gone, and
    no other account is touched. -/
structure Replaces (login : String) (hash : Except ForgeError String) (s s' : State) : Prop where
  account : ∃ account updated, s.accounts.lookup login = some account ∧
    s'.accounts.lookup login = some updated ∧ hash = .ok updated.passwordHash ∧
    updated = { account with
      passwordHash := updated.passwordHash, mustChangePassword := false
      authEpoch := account.authEpoch + 1, updatedAt := updated.updatedAt }
  others : ∀ other, other ≠ login → s'.accounts.lookup other = s.accounts.lookup other
  sessions : ∀ hash session, s'.auth.sessions.lookup hash = some session → session.login ≠ login
  tokens : ∀ id token, s'.auth.personalTokens.lookup id = some token → token.login ≠ login

section Sections

variable {core core' : ForgeCore} {login currentPassword newPassword : String}
variable {salt hash : Except ForgeError String} {summary : AccountSummary}

/-- An edit that is answered has moved the epoch of the account, and been stored. -/
theorem moved_ok {edited : UserAccount}
    (succeeds : Outcome.ends (Outcome.moved core login edited) core = .ok summary) :
    ∃ updated, updated = { edited with authEpoch := edited.authEpoch + 1, updatedAt := core.now } ∧
      ((Outcome.moved core login edited).leaves core).state = fenced core.state login updated core.now := by
  unfold Outcome.moved State.epochMoved nextAuthEpoch at succeeds ⊢
  by_cases bounded : edited.authEpoch + 1 < 2 ^ 64
  · rw [if_pos bounded] at succeeds ⊢
    refine ⟨_, rfl, ?_⟩
    dsimp only at succeeds ⊢
    rcases commit_ends core [] 0 _ none (Except.ok _ : Except Failure AccountSummary) with
      ⟨error, -, -, refused⟩ | ⟨moved, -, -⟩
    · unfold Outcome.ends at succeeds
      rw [refused] at succeeds
      cases succeeds
    · exact moved
  · rw [if_neg bounded] at succeeds
    cases succeeds

theorem fenced_sessions {s : State} {updated : UserAccount} {now : DateTime} {key : Digest}
    {session : WebSession} (there : (fenced s login updated now).auth.sessions.lookup key = some session) :
    session.login ≠ login := by
  have kept : (s.auth.sessions.retain fun _ session => session.login != login).lookup key = some session :=
    there
  rw [HashMap.lookup_retain] at kept
  simpa using (Option.filter_eq_some_iff.mp kept).2

theorem fenced_tokens {s : State} {updated : UserAccount} {now : DateTime} {id : Uuid}
    {token : PersonalAccessToken}
    (there : (fenced s login updated now).auth.personalTokens.lookup id = some token) :
    token.login ≠ login := by
  have kept : (s.auth.personalTokens.retain fun _ token => token.login != login).lookup id = some token :=
    there
  rw [HashMap.lookup_retain] at kept
  simpa using (Option.filter_eq_some_iff.mp kept).2

theorem changeAccountPasswordLocked_replaces
    (succeeds : Outcome.ends (changeAccountPasswordLocked login hash core) core = .ok summary) :
    Replaces login hash core.state ((changeAccountPasswordLocked login hash core).leaves core).state := by
  unfold changeAccountPasswordLocked at succeeds ⊢
  cases found : core.state.accounts.lookup login with
  | none =>
    rw [found] at succeeds
    cases succeeds
  | some account =>
    rw [found] at succeeds
    cases hash with
    | error error => cases succeeds
    | ok passwordHash =>
      obtain ⟨updated, same, left⟩ := moved_ok succeeds
      rw [left]
      have accounts : (fenced core.state login updated core.now).accounts =
        core.state.accounts.insert login updated := rfl
      refine ⟨⟨account, updated, found, ?_, ?_, ?_⟩, fun other away => ?_, fun _ _ => fenced_sessions,
        fun _ _ => fenced_tokens⟩
      · rw [accounts, HashMap.lookup_insert_self]
      · rw [same]
      · rw [same]
      · rw [accounts, HashMap.lookup_insert_if, if_neg away]

/-- The only section of a change of a password that writes. -/
theorem Section.replaces
    (moved : Section (.changeAccountPassword login currentPassword newPassword salt) core core'
      (some (.ok summary))) : Replaces login (hashPassword salt newPassword) core.state core'.state := by
  generalize answered : (some (.ok summary) :
    Option (Call.changeAccountPassword login currentPassword newPassword salt).Reply) = reply at moved
  cases moved with
  | audit audited entry => cases audited
  | refused audited => cases audited
  | transition asks => cases asks
  | changeAccountPassword => exact changeAccountPasswordLocked_replaces (Option.some.inj answered).symm

end Sections

section Runs

variable {start pool pool' : Pool} {i : Nat}
variable {login currentPassword newPassword : String} {salt : Except ForgeError String}

end Runs

section Demo

end Demo

end Jeryu.Auth
