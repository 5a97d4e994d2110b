import Jeryu.Auth.Diligence
import Jeryu.Auth.Frames
import Jeryu.Auth.TeamBotNames

namespace Jeryu.Auth

open Jeryu.Core KeyedMap LockProgram Method

/-- People are left as they are, and pull requests under their own keys. -/
structure Aside (s s' : State) : Prop where
  accounts : s'.accounts = s.accounts
  organizations : s'.organizations = s.organizations
  teams : s'.auth.teams = s.auth.teams
  pulls : PullsKeyed s → PullsKeyed s'

section Sections

variable {core core' : ForgeCore} {actor login owner repo : String}

theorem aside_refl {s : State} : Aside s s := ⟨rfl, rfl, rfl, fun keyed => keyed⟩

theorem Aside.orderly (aside : Aside core.state core'.state) (orderly : Orderly core) : Orderly core' :=
  ⟨orderly.people.same aside.accounts aside.organizations aside.teams, aside.pulls orderly.pulls⟩

theorem writes_aside {α : Type} {f : ForgeCore → Core.Outcome α}
    (ends : ∀ core, Outcome.Ends (fun _ next _ => Aside core.state next) (f core)) :
    (Method.locked f).Writes fun core core' _ => Aside core.state core'.state :=
  writes_locked fun core => (ends core).leaves aside_refl

theorem grantRepoAccessChecked_aside {access : RepoAccessLevel} :
    (Core.grantRepoAccessChecked actor login owner repo access).Writes
      fun core core' _ => Aside core.state core'.state := by
  unfold Core.grantRepoAccessChecked Core.grantRepoAccess
  refine (canonicalRepository_readOnly owner repo).bind fun _ => (requireRepoAdmin_readOnly owner repo actor).bind fun _ => ?_
  refine (getAccount_readOnly login).bind fun _ => (canonicalRepository_readOnly owner repo).bind fun _ => ?_
  exact writes_aside fun core => ⟨rfl, rfl, rfl, fun keyed => keyed⟩

theorem revokeRepoAccessChecked_aside :
    (Core.revokeRepoAccessChecked actor login owner repo).Writes
      fun core core' _ => Aside core.state core'.state := by
  unfold Core.revokeRepoAccessChecked
  refine (canonicalRepository_readOnly owner repo).bind fun _ => (requireRepoAdmin_readOnly owner repo actor).bind fun _ => ?_
  exact writes_aside fun core => ⟨rfl, rfl, rfl, fun keyed => keyed⟩

theorem reevaluate_keyed {s : State} {m : Bool} {key : Scoped Nat} (keyed : PullsKeyed s) :
    PullsKeyed (s.reevaluate m key) := by
  unfold State.reevaluate
  split
  · next pr stored =>
    intro other found there
    dsimp only at there
    rw [HashMap.lookup_insert_if] at there
    split at there
    · next same =>
      cases there
      have kept : (applyEvaluation pr (s.evaluateLocked m pr none)).owner = pr.owner ∧
          (applyEvaluation pr (s.evaluateLocked m pr none)).repo = pr.repo := by
        unfold applyEvaluation
        split
        · exact ⟨rfl, rfl⟩
        · split <;> exact ⟨rfl, rfl⟩
      rw [same, kept.1, kept.2]
      exact keyed key pr stored
    · exact keyed other found there
  · exact keyed

theorem writeReview_aside {review : Review} {comments : List ReviewCommentInput} :
    Aside core.state (writeReview core review comments) := by
  unfold writeReview
  extract_lets key rows profiled written reevaluated
  have frame : profiled = { core.state with users := profiled.users } := State.withProfile_eq ..
  have again : reevaluated = { written with pulls := reevaluated.pulls } := State.reevaluate_eq ..
  refine ⟨?_, ?_, ?_, fun keyed => ?_⟩
  · show reevaluated.accounts = _
    rw [again]
    show profiled.accounts = _
    rw [frame]
  · show reevaluated.organizations = _
    rw [again]
    show profiled.organizations = _
    rw [frame]
  · show reevaluated.auth.teams = _
    rw [again]
    show profiled.auth.teams = _
    rw [frame]
  · have kept : PullsKeyed written := by
      show PullsKeyed profiled
      rw [frame]
      exact keyed
    exact reevaluate_keyed kept

theorem dismissReview_aside {number : Nat} {request : DismissReviewRequest} :
    (Core.dismissReview owner repo number actor request).Writes
      fun core core' _ => Aside core.state core'.state := by
  have audited {who action subject : String} {phase : AuditPhase} {detail : AuditDetail} :
      (appendAuditWith who action subject phase detail).Writes
        fun core core' _ => Aside core.state core'.state := by
    refine writes_aside fun core => ?_
    cases core.auditReceipt who action subject phase detail with
    | ok entry => exact aside_refl
    | error error => exact True.intro
  unfold Core.dismissReview
  refine writes_unless (writes_unless (Writes.inspect ?_ fun result => ?_))
  · unfold recordReview
    refine (ensureRepositoryWritable_readOnly owner repo).bind fun _ => (writes_ofExcept _).bind fun _ => ?_
    refine Writes.bind (Writes.mono (writes_aside fun core => commits_ends
      (recordReviewLocked_commits fun _ _ _ _ _ _ => writeReview_aside)) fun _ _ _ aside _ _ => aside)
      fun stored => ?_
    obtain ⟨review, receipted⟩ := stored
    exact writes_ite ((audited.ignored.mono fun _ _ _ aside _ _ => aside).bind fun _ => writes_pure _)
      (writes_pure _)
  · cases result with
    | ok review => exact writes_pure ()
    | error failure =>
      unfold auditRefusedDismissal
      refine (writes_reading _).bind fun author => writes_ite ?_ (writes_pure _)
      exact audited.ignored.mono fun _ _ _ aside _ => aside

end Sections

/-- What a section of the call does. -/
def Deed.Section : (deed : Deed) → ForgeCore → ForgeCore → Option deed.Reply → Prop
  | .account call => Auth.Section call
  | .grantRepoAccessChecked .. | .revokeRepoAccessChecked .. | .dismissReview .. =>
    fun core core' _ => Aside core.state core'.state

/-- The members `create_team` is asked for have accounts as it writes. -/
def Deed.NamesAccounts (deed : Deed) (_ : ForgeCore → ForgeCore) (core : ForgeCore) : Prop :=
  match deed with
  | .account call => call.NamesAccounts core
  | _ => True

section Runs

variable {core core' : ForgeCore} {start pool pool' : DeedPool} {deed : Deed} {reply : Option deed.Reply}

def DeedPool.Initial (pool : DeedPool) : Prop := pool.shared.state = .empty ∧ pool.tasks = []

theorem deed_writes (deed : Deed) : deed.method.Writes deed.Section := by
  cases deed with
  | account call => exact call_writes call
  | grantRepoAccessChecked => exact grantRepoAccessChecked_aside
  | revokeRepoAccessChecked => exact revokeRepoAccessChecked_aside
  | dismissReview owner repo number actor request =>
    have aside := @dismissReview_aside actor owner repo number request
    exact aside

theorem orderly_certified : Certified deeds Deed.NamesAccounts Orderly Deed.Section fun _ _ => True where
  programs deed := (deed_writes deed).meets.mono (fun _ _ => True.intro) (fun _ _ _ _ moved => moved)
    fun _ known => known
  ambient core core' orderly moved := by
    obtain ⟨ambient, pulls⟩ := moved
    have aside : Aside core.state core'.state :=
      ⟨ambient.accounts, ambient.organizations, by rw [ambient.auth], pulls⟩
    exact aside.orderly orderly
  kept deed update core reply orderly names moved := by
    cases deed with
    | account call =>
      refine ⟨orderly.people.step moved names, ?_⟩
      have pulls : (update core).state.pulls = core.state.pulls :=
        moved.within .pulls (by cases call <;> simp [Call.tables, credentialTables])
      unfold PullsKeyed
      rw [pulls]
      exact orderly.pulls
    | _ => exact Aside.orderly moved orderly

theorem orderly_initial (initial : start.Initial) :
    Sound Orderly Deed.Section (fun _ _ => True) start := by
  obtain ⟨empty, idle⟩ := initial
  refine ⟨⟨?_, ?_⟩, ?_⟩
  · rw [empty]
    exact peopled_empty
  · rw [empty]
    exact fun _ _ found => nomatch found
  · rw [idle]
    exact fun _ member => nomatch member

/-- A call of those that rest on something writes from a state in which it is all there, and whoever
    its record names has an account. -/
structure Authorized (deed : Deed) (core core' : ForgeCore) : Prop where
  grounds : ∀ g ∈ deed.grounds, g core
  owners : ∀ org organization, core'.state.organizations.lookup org = some organization →
    ∀ owner ∈ organization.owners, AccountThere owner core
  members : ∀ key team, core'.state.auth.teams.lookup key = some team →
    ∀ member ∈ team.members, AccountThere member core

/-- A call that rests on something makes no account, and `create_team` is none of them. -/
theorem Deed.Section.accounts_same (resting : deed.grounds ≠ []) (moved : deed.Section core core' reply) :
    core'.state.accounts = core.state.accounts ∧ ∀ update, deed.NamesAccounts update core := by
  cases deed with
  | account call =>
    cases call with
    | addOrganizationOwner | removeOrganizationOwner | createTeamAs | addTeamMember | removeTeamMember
    | enrollTeamBot | grantBotRepository | revokeBotRepositoryGrant =>
      exact ⟨Section.within moved .accounts (by simp [Call.tables]), fun _ => True.intro⟩
    | _ => exact absurd rfl resting
  | _ => exact ⟨Aside.accounts moved, fun _ => True.intro⟩

/-- In runs that take nothing from a call between its check and its write, every change is made on an
    authority that is there as it is made. -/
theorem authority_at_write (initial : start.Initial)
    (run : HeedfulRun deeds Deed.NamesAccounts Orderly Loud Deed.grounds start pool) {i : Nat}
    (writes : pool.Writes i deed reply pool') (changed : pool'.shared.state ≠ pool.shared.state)
    (resting : deed.grounds ≠ []) : Authorized deed pool.shared pool'.shared := by
  have sound {mid : DeedPool} (run : Run deeds Deed.NamesAccounts start mid) :
      Sound Orderly Deed.Section (fun _ _ => True) mid := orderly_certified.run run (orderly_initial initial)
  have now := sound run.run
  have grounded : pool.Grounded Orderly Loud Deed.grounds := by
    refine run.grounded (fun deed g ground => (deed_looks deed g ground).checks)
      (fun mid before => (sound before).holds) ?_
    rw [Config.Grounded, initial.2]
    exact fun _ member => nomatch member
  obtain ⟨accounts, names⟩ := (now.writes writes).accounts_same resting
  have after : Orderly pool'.shared := (sound (run.run.tail (writes.step names))).holds
  refine ⟨grounded.writes now.holds writes changed, fun org organization found owner owns => ?_,
    fun key team found member belongs => ?_⟩
  · have known := after.people.owners org organization found owner owns
    rwa [accounts] at known
  · have known := after.people.members key team found member belongs
    rwa [accounts] at known

end Runs

section Demo

/-- No condition on a section. -/
def anyDeed (_ : Deed) (_ : ForgeCore → ForgeCore) (_ : ForgeCore) : Prop := True

def played (turns : List (Turn Deed)) : DeedPool := Config.play deeds ⟨.durable, []⟩ turns

def newPerson (login : String) (role : UserRole) : Turn Deed :=
  .alone (.account (.createAccount login "correct horse" role (.ok "$argon2id$salt$correct horse")))

/-- `root` runs the organization `acme`, and `ada` has an account. -/
def withAcme : List (Turn Deed) :=
  [newPerson "root" .admin, newPerson "ada" .user,
    .alone (.account (.createOrganizationAs "root" "acme" none ["root"]))]

def addAda : Deed := .account (.addOrganizationOwner "root" "acme" "ada")

def adaOwns (s : State) : Bool :=
  (s.organizations.lookup "acme").any fun organization => organization.owners.contains "ada"

theorem withAcme_heedful :
    HeedfulRun deeds Deed.NamesAccounts Orderly Loud Deed.grounds ⟨.durable, []⟩ (played withAcme) := by
  apply HeedfulRun.of_groundless
  · apply play_run
    refine ⟨⟨True.intro, Program.permits_of_every (fun _ _ => True.intro) _ _⟩,
      ⟨True.intro, Program.permits_of_every (fun _ _ => True.intro) _ _⟩,
      ⟨True.intro, Program.permits_of_every (fun _ _ => True.intro) _ _⟩, True.intro⟩
  · intro call member
    have calls : (played withAcme).tasks.map Task.call = withAcme.filterMap Turn.call := Config.play_calls
    rw [calls] at member
    simp only [withAcme, newPerson, Turn.call, List.filterMap, List.mem_cons, List.not_mem_nil,
      or_false] at member
    rcases member with rfl | rfl | rfl <;> rfl

def addingAda : DeedPool := ⟨(played withAcme).shared, (played withAcme).tasks ++ [⟨addAda, addAda.method.run⟩]⟩

theorem addingAda_authorized :
    adaOwns (addingAda.turn deeds (.advance 3)).shared.state = true ∧
      Authorized addAda addingAda.shared (addingAda.turn deeds (.advance 3)).shared := by
  have run : HeedfulRun deeds Deed.NamesAccounts Orderly Loud Deed.grounds ⟨.durable, []⟩ addingAda :=
    withAcme_heedful.idle (Step.enter True.intro)
  obtain ⟨reply, writes⟩ : ∃ reply, addingAda.Writes 3 addAda reply
      (addingAda.turn deeds (.advance 3)) := Config.turn_writes rfl (by decide +kernel)
  have before : adaOwns addingAda.shared.state = false := by decide +kernel
  have after : adaOwns (addingAda.turn deeds (.advance 3)).shared.state = true := by decide +kernel
  refine ⟨after, authority_at_write ⟨rfl, rfl⟩ run writes (fun same => ?_) (by simp [addAda, Deed.grounds])⟩
  rw [same, before] at after
  cases after

def enrollCi : Deed :=
  .account (.enrollTeamBot "ada" "acme" "ops" "ci" "CI" ⟨"grokbot", BotKind.grokbot_valid⟩ (.general none) (.ok ()))

/-- `ada` is found an owner as she enrolls a team bot, and is removed before it is stored. -/
def removedOwner : List (Turn Deed) :=
  withAcme ++ [.alone addAda, .alone (.account (.createTeamAs "root" "acme" "Ops" (some "ops") ["root"])),
    .enter enrollCi, .advance 5, .advance 5, .advance 5,
    .alone (.account (.removeOrganizationOwner "root" "acme" "ada"))]

theorem removedOwner_run : Run deeds anyDeed ⟨.durable, []⟩ (played removedOwner) := by
  apply play_run
  have alone (deed : Deed) (pool : DeedPool) : pool.Admits deeds anyDeed (.alone deed) :=
    ⟨True.intro, Program.permits_of_every (fun _ _ => True.intro) _ _⟩
  exact ⟨alone _ _, alone _ _, alone _ _, alone _ _, alone _ _, True.intro, fun _ _ _ _ => True.intro,
    fun _ _ _ _ => True.intro, fun _ _ _ _ => True.intro, alone _ _, True.intro⟩

/-- The bot is stored on the word of an owner who is none any more. -/
theorem removedOwner_enrolls :
    ∃ (pool pool' : DeedPool) (deed : Deed) (i : Nat) (reply : Option deed.Reply),
      Run deeds anyDeed ⟨.durable, []⟩ pool ∧ pool.Writes i deed reply pool' ∧
        pool'.shared.state ≠ pool.shared.state ∧ deed.grounds ≠ [] ∧
        ¬Authorized deed pool.shared pool'.shared := by
  have asked : ((played removedOwner).tasks.map Task.call)[5]? = some enrollCi := by
    unfold played
    rw [Config.play_calls]
    rfl
  obtain ⟨reply, writes⟩ : ∃ reply, (played removedOwner).Writes 5 enrollCi reply
      ((played removedOwner).turn deeds (.advance 5)) := Config.call_writes asked (by decide +kernel)
  have before : hasTeamBot (played removedOwner).shared.state = false := by decide +kernel
  have after : hasTeamBot ((played removedOwner).turn deeds (.advance 5)).shared.state = true := by
    decide +kernel
  have removed : (played removedOwner).shared.state.mayRunOrganization "ada" "acme" = false := by
    decide +kernel
  refine ⟨_, _, enrollCi, 5, reply, removedOwner_run, writes, fun same => ?_,
    by simp [enrollCi, Deed.grounds], fun authorized => ?_⟩
  · rw [same, before] at after
    cases after
  · have runs := authorized.grounds (RunsOrganization "ada" "acme") List.mem_cons_self
    have may := runs.2.2
    rw [removed] at may
    cases may

end Demo

end Jeryu.Auth
