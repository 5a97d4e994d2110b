import Jeryu.Auth.Calm
import Jeryu.Auth.AuthorityAtWrite

namespace Jeryu.Auth

open Jeryu.Core KeyedMap LockProgram Method

/-- The account, bot and team calls, and those that write issues, pull requests, reviews, statuses
    and check runs. -/
inductive Request where
  | account (call : Call)
  | createIssue (owner repo author : String) (request : CreateIssueRequest)
  | updateIssue (owner repo : String) (number : Nat) (request : UpdateIssueRequest)
  | addIssueComment (owner repo : String) (number : Nat) (author body : String)
  | createPullRequest (owner repo author : String) (request : CreatePullRequestRequest)
  | createReview (owner repo : String) (number : Nat) (author : String) (request : CreateReviewRequest)
  | dismissReview (owner repo : String) (number : Nat) (actor : String) (request : DismissReviewRequest)
  | createCheckRun (owner repo : String) (request : CreateCheckRunRequest)
  | createCommitStatus (owner repo sha creator : String) (request : CreateCommitStatusRequest)

def Request.Answer : Request → Type
  | account call => call.Answer
  | createIssue .. | updateIssue .. => Issue
  | addIssueComment .. => IssueComment
  | createPullRequest .. => PullRequest
  | createReview .. | dismissReview .. => Review
  | createCheckRun .. => CheckRun
  | createCommitStatus .. => CommitStatus

abbrev Request.Reply (request : Request) : Type := Except Failure request.Answer

def Request.method : (request : Request) → Method request.Answer
  | .account call => call.method
  | .createIssue owner repo author request => Core.createIssue owner repo author request
  | .updateIssue owner repo number request => Core.updateIssue owner repo number request
  | .addIssueComment owner repo number author body => Core.addIssueComment owner repo number author body
  | .createPullRequest owner repo author request => Core.createPullRequest owner repo author request
  | .createReview owner repo number author request => Core.createReview owner repo number author request
  | .dismissReview owner repo number actor request => Core.dismissReview owner repo number actor request
  | .createCheckRun owner repo request => Core.createCheckRun owner repo request
  | .createCommitStatus owner repo sha creator request =>
    Core.createCommitStatus owner repo sha creator request

/-- Every invitation is filed under its id. -/
def InvitationsKeyed (s : State) : Prop :=
  s.auth.invitations.Every fun id invitation => invitation.id = id

/-- No account is taken away, and no invitation is filed elsewhere. -/
structure Steady (core core' : ForgeCore) : Prop where
  lasting : Lasting core core'
  keyed : InvitationsKeyed core.state → InvitationsKeyed core'.state

/-- Between two sections anything may happen that is steady. -/
def requests : System ForgeCore Request.Reply where
  program request := request.method.run
  ambient := Steady
  admits _ _ := True

abbrev RequestPool : Type := Config ForgeCore Request.Reply

/-- What `ensure_user` does where it finds no user. -/
def newProfile (login : String) : Method User :=
  (createUser { login, name := none, email := none }).expect
    "ensure_user creates a unique user after not-found"

/-- A call that makes sure of a user: what it does from the lookup on, and what from there where no
    user is found. -/
structure Profiling (α : Type) where
  login : String
  looks : Method α
  creates : Method α

def profiledThen {α : Type} (login : String) (after : User → Method α) : Profiling α :=
  ⟨login, ensureUser login >>= after, newProfile login >>= after⟩

def Request.profiling : (request : Request) → Option (Profiling request.Answer)
  | .account (.ensureUser login) => some ⟨login, Core.ensureUser login, newProfile login⟩
  | .createIssue owner repo author request =>
    some (profiledThen author fun _ => .locked (createIssueLocked owner repo author request))
  | .addIssueComment owner repo number author body =>
    some (profiledThen author fun _ => .locked (addIssueCommentLocked owner repo number author body))
  | .createPullRequest owner repo author request =>
    some (profiledThen author fun _ => .locked (createPullLocked owner repo author request))
  | .createCommitStatus owner repo sha creator request =>
    let base := (request.base.map normalizeBaseRef).filter (· != "")
    some (profiledThen creator fun _ => utcNow >>= fun now =>
      .locked (createStatusLocked owner repo sha creator request base now))
  | _ => none

/-- The state with a user for the login. -/
def withProfile (login : String) (core : ForgeCore) : State :=
  let user : User := { id := core.uuids, login, name := none, email := none, createdAt := core.now }
  { core.state with users := core.state.users.insert login user }

/-- The login has no user yet, and the snapshot with one is stored. -/
structure CanCreate (login : String) (core : ForgeCore) : Prop where
  absent : core.state.users.lookup login = none
  stored : core.persist (withProfile login core) none = .ok ()

/-- Before a call looks a user up, the login is not blank or has one; before it creates one, it can. -/
structure Request.Careful (request : Request) (rest : Program ForgeCore request.Reply)
    (core : ForgeCore) : Prop where
  named : ∀ stage, request.profiling = some stage → rest = stage.looks.run →
    core.state.users.lookup stage.login = none → Text.isBlank stage.login = false
  creatable : ∀ stage, request.profiling = some stage → rest = stage.creates.run →
    CanCreate stage.login core

section Profiles

variable {α : Type} {careful : Program ForgeCore (Except Failure α) → ForgeCore → Prop} {login : String}

theorem createUserLocked_settles {core : ForgeCore} (can : CanCreate login core) :
    ∃ user, (((createUserLocked { login, name := none, email := none } core).settle core).1 :
      Except Failure User) = .ok user := by
  have stored : core.persist (withProfile login core) none = .ok () := can.stored
  unfold withProfile at stored
  unfold createUserLocked
  dsimp only
  rw [can.absent]
  unfold Core.Outcome.settle
  simp only [Option.isSome_none, Bool.false_eq_true, if_false]
  rw [core.persist_logged, stored]
  exact ⟨_, rfl⟩

/-- `ensure_user`, and what follows it, taken with care. -/
theorem ensureUser_behaves {after : Except Failure User → Program ForgeCore (Except Failure α)}
    (calm : ∀ user core, (after (.ok user)).EndsFrom Lasting (fun _ result => Unpanicked result) core)
    (named : ∀ core, careful ((ensureUser login).run >>= after) core →
      core.state.users.lookup login = none → Text.isBlank login = false)
    (creatable : ∀ core, careful ((newProfile login).run >>= after) core → CanCreate login core)
    (seen : ForgeCore) : ((ensureUser login).run >>= after).Behaves Lasting careful Unpanicked seen := by
  intro core _ care
  cases found : core.state.users.lookup login with
  | some user =>
    simp only [found]
    exact (calm user core).behaves
  | none =>
    have named := named core care found
    simp only [found]
    show Program.Behaves Lasting careful Unpanicked ((newProfile login).run >>= after) core
    have careAt := creatable
    unfold newProfile createUser requireName at careAt ⊢
    rw [named] at careAt ⊢
    intro later _ care
    obtain ⟨user, settled⟩ := createUserLocked_settles (careAt later care)
    dsimp only
    rw [settled]
    exact (calm user _).behaves

theorem bind_run {β : Type} (method : Method β) (after : β → Method α) :
    (method >>= after).run = method.run >>= ExceptT.bindCont after := rfl

theorem profiled_behaves {after : User → Method α} (calm : ∀ user, Calm (after user))
    (named : ∀ core, careful (profiledThen login after).looks.run core →
      core.state.users.lookup login = none → Text.isBlank login = false)
    (creatable : ∀ core, careful (profiledThen login after).creates.run core → CanCreate login core)
    (seen : ForgeCore) :
    (profiledThen login after).looks.run.Behaves Lasting careful Unpanicked seen := by
  have ends (user : User) (core : ForgeCore) :
      (ExceptT.bindCont after (.ok user)).EndsFrom Lasting (fun _ result => Unpanicked result) core :=
    (calm user).calm core
  simp only [profiledThen, bind_run] at named creatable ⊢
  exact ensureUser_behaves ends named creatable seen

end Profiles

end Jeryu.Auth
