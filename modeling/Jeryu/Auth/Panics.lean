import Jeryu.Auth.NoPanic

/-!
No call panics in a run whose steps are taken with care: none comes to the `expect` of `ensure_user`,
and every `expect` under the write lock finds its row.
-/

namespace Jeryu.Auth

open Jeryu.Core KeyedMap LockProgram Method

section Steady

variable {core core' : ForgeCore} {owner repo : String}

theorem steady_of_same (accounts : core'.state.accounts = core.state.accounts)
    (auth : core'.state.auth = core.state.auth) : Steady core core' := by
  refine ⟨fun login there => by rwa [accounts], fun keyed => ?_⟩
  unfold InvitationsKeyed
  rwa [auth]

theorem steady_locked {α : Type} {f : ForgeCore → Core.Outcome α}
    (ends : ∀ core, Outcome.Ends (fun _ next _ =>
      next.accounts = core.state.accounts ∧ next.auth = core.state.auth) (f core)) :
    (Method.locked f).Writes fun core core' _ => Steady core core' := by
  refine writes_locked fun core => ?_
  have same := (ends core).leaves
    (H := fun next => next.accounts = core.state.accounts ∧ next.auth = core.state.auth) ⟨rfl, rfl⟩
  exact steady_of_same same.1 same.2

theorem refresh_same {s : State} {m : Bool} {sha : String} :
    (s.refreshPullMergeabilityForSha m owner repo sha).accounts = s.accounts ∧
      (s.refreshPullMergeabilityForSha m owner repo sha).auth = s.auth := by
  unfold State.refreshPullMergeabilityForSha
  dsimp only
  generalize (s.pulls.pairs.filter _).map Prod.fst = keys
  induction keys generalizing s with
  | nil => exact ⟨rfl, rfl⟩
  | cons key rest ih =>
    have frame := @ih (s.reevaluate m key)
    rw [State.reevaluate_eq] at frame
    rw [List.foldl_cons, State.reevaluate_eq]
    exact frame

theorem writeReview_same {review : Review} {comments : List ReviewCommentInput} :
    (writeReview core review comments).accounts = core.state.accounts ∧
      (writeReview core review comments).auth = core.state.auth := by
  unfold writeReview
  extract_lets key rows profiled written reevaluated
  have frame : profiled = { core.state with users := profiled.users } := State.withProfile_eq ..
  have again : reevaluated = { written with pulls := reevaluated.pulls } := State.reevaluate_eq ..
  constructor
  · show reevaluated.accounts = _
    rw [again]
    show profiled.accounts = _
    rw [frame]
  · show reevaluated.auth = _
    rw [again]
    show profiled.auth = _
    rw [frame]

theorem ensureUser_steady {login : String} :
    (ensureUser login).Writes fun core core' _ => Steady core core' := by
  unfold ensureUser createUser
  refine (writes_reading _).bind fun found => ?_
  cases found with
  | some user => exact writes_pure user
  | none =>
    refine Writes.expect ((writes_ofExcept _).bind fun _ => steady_locked fun core => ?_)
    unfold createUserLocked
    exact ends_ite (fun _ => True.intro) fun _ => ⟨rfl, rfl⟩

theorem appendAudit_steady {who action subject : String} {phase : AuditPhase} {detail : AuditDetail} :
    (appendAuditWith who action subject phase detail).Writes fun core core' _ => Steady core core' :=
  appendAuditWith_quiet.mono fun _ _ _ same =>
    steady_of_same (congrArg State.accounts same) (congrArg State.auth same)

theorem recordReview_steady {number : Nat} {author : String} {request : CreateReviewRequest}
    {dismissedReviewId : Option Uuid} :
    (recordReview owner repo number author request dismissedReviewId).Writes
      fun core core' _ => Steady core core' := by
  unfold recordReview
  refine (ensureRepositoryWritable_readOnly owner repo).bind fun _ => (writes_ofExcept _).bind fun _ => ?_
  refine Writes.bind (Writes.mono (steady_locked fun core => commits_ends
    (recordReviewLocked_commits fun _ _ _ _ _ _ => writeReview_same)) fun _ _ _ steady _ => steady)
    fun stored => ?_
  obtain ⟨review, audited⟩ := stored
  exact writes_ite ((appendAudit_steady.ignored.mono fun _ _ _ steady _ => steady).bind fun _ => writes_pure _)
    (writes_pure _)

theorem dismissReview_steady {number : Nat} {actor : String} {request : DismissReviewRequest} :
    (Core.dismissReview owner repo number actor request).Writes fun core core' _ => Steady core core' := by
  unfold Core.dismissReview
  refine writes_unless (writes_unless (Writes.inspect
    (recordReview_steady.mono fun _ _ _ steady _ => steady) fun result => ?_))
  cases result with
  | ok review => exact writes_pure ()
  | error failure =>
    unfold auditRefusedDismissal
    refine (writes_reading _).bind fun author => writes_ite ?_ (writes_pure _)
    exact appendAudit_steady.ignored.mono fun _ _ _ steady _ => steady

/-- Every section of an account call leaves the invitations under their ids. -/
theorem Section.keyed {call : Call} {reply : Option call.Reply} (moved : Section call core core' reply)
    (keyed : InvitationsKeyed core.state) : InvitationsKeyed core'.state := by
  have within := moved.within
  have same (rows : core'.state.auth.invitations = core.state.auth.invitations) :
      InvitationsKeyed core'.state := by
    unfold InvitationsKeyed
    rwa [rows]
  cases moved with
  | createAccountInvitation teams now =>
    refine (createAccountInvitationLocked_ends.mono fun _ next _ made => ?_).leaves keyed
    obtain ⟨-, -, -, invitation, -, -, -, -, -, -, -, -, -, rfl⟩ := made
    refine HashMap.Every.insert (HashMap.Every.mapValues keyed fun id row known => ?_) rfl
    split <;> exact known
  | revokeAccountInvitation =>
    refine (revokeAccountInvitationLocked_ends.mono fun _ next _ made => ?_).leaves keyed
    obtain ⟨-, rfl | ⟨invitation, known, rfl⟩⟩ := made
    · exact keyed
    · have named : invitation.id = _ := keyed _ _ known
      exact HashMap.Every.insert keyed named
  | startAccountActivation now =>
    refine (startAccountActivationLocked_ends.mono fun _ next _ made => ?_).leaves keyed
    obtain ⟨invitation, -, -, -, -, -, ⟨-, -, -, rfl⟩ | ⟨record, -, -, -, -, -, rfl⟩⟩ := made
    · exact HashMap.Every.insert keyed rfl
    · exact HashMap.Every.insert keyed rfl
  | completeAccountActivation passwordHash now =>
    refine (completeAccountActivationLocked_ends.mono fun _ next _ made => ?_).leaves keyed
    obtain ⟨record, invitation, account, user, -, -, -, -, -, -, -, -, -, -, -, rfl⟩ := made
    unfold InvitationsKeyed
    rw [activated_invitations]
    exact HashMap.Every.insert keyed rfl
  | audit audited entry => exact keyed
  | refused audited => exact keyed
  | transition asks answered => exact same (transition_within .invitations (by decide)).1
  | _ => exact same (within .invitations (by simp [Call.tables, credentialTables])).1

theorem request_steady (request : Request) :
    request.method.Writes fun core core' _ => Steady core core' := by
  cases request with
  | account call =>
    have writes : call.method.Writes fun core core' _ => Steady core core' :=
      (call_writes call).mono fun _ _ _ moved =>
        ⟨fun login there => moved.accountsFrom.stays there, moved.keyed⟩
    exact writes
  | createIssue owner repo author request =>
    have writes : (Core.createIssue owner repo author request).Writes
        fun core core' _ => Steady core core' := by
      unfold Core.createIssue
      refine (writes_ofExcept _).bind fun _ => (ensureRepoExists_readOnly owner repo).bind fun _ => ?_
      exact (ensureUser_steady.mono fun _ _ _ steady _ => steady).bind fun _ =>
        steady_locked fun core => ⟨rfl, rfl⟩
    exact writes
  | updateIssue owner repo number request =>
    have writes : (Core.updateIssue owner repo number request).Writes
        fun core core' _ => Steady core core' := by
      refine steady_locked fun core => ?_
      unfold updateIssueLocked
      split
      · exact True.intro
      · exact ends_ite (fun _ => True.intro) fun _ => ⟨rfl, rfl⟩
    exact writes
  | addIssueComment owner repo number author body =>
    have writes : (Core.addIssueComment owner repo number author body).Writes
        fun core core' _ => Steady core core' := by
      unfold Core.addIssueComment
      refine (writes_ofExcept _).bind fun _ =>
        (ensureUser_steady.mono fun _ _ _ steady _ => steady).bind fun _ => steady_locked fun core => ?_
      unfold addIssueCommentLocked
      dsimp only
      split
      · exact True.intro
      · exact ⟨rfl, rfl⟩
    exact writes
  | createPullRequest owner repo author request =>
    have writes : (Core.createPullRequest owner repo author request).Writes
        fun core core' _ => Steady core core' := by
      unfold Core.createPullRequest
      refine (writes_ofExcept _).bind fun _ => (writes_ofExcept _).bind fun _ =>
        (writes_ofExcept _).bind fun _ => ?_
      refine (ensureRepositoryWritable_readOnly owner repo).bind fun _ => ?_
      exact (ensureUser_steady.mono fun _ _ _ steady _ => steady).bind fun _ =>
        steady_locked fun core => ⟨rfl, rfl⟩
    exact writes
  | createReview owner repo number author request =>
    have writes : (Core.createReview owner repo number author request).Writes
        fun core core' _ => Steady core core' := by
      unfold Core.createReview
      exact writes_unless recordReview_steady
    exact writes
  | dismissReview owner repo number actor request =>
    have writes := @dismissReview_steady owner repo number actor request
    exact writes
  | createCheckRun owner repo request =>
    have writes : (Core.createCheckRun owner repo request).Writes
        fun core core' _ => Steady core core' := by
      unfold Core.createCheckRun
      refine (writes_ofExcept _).bind fun _ => (writes_ofExcept _).bind fun _ => ?_
      exact (ensureRepositoryWritable_readOnly owner repo).bind fun _ =>
        steady_locked fun core => refresh_same
    exact writes
  | createCommitStatus owner repo sha creator request =>
    have writes : (Core.createCommitStatus owner repo sha creator request).Writes
        fun core core' _ => Steady core core' := by
      unfold Core.createCommitStatus
      refine (writes_ofExcept _).bind fun _ => (ensureRepositoryWritable_readOnly owner repo).bind fun _ => ?_
      refine (ensureUser_steady.mono fun _ _ _ steady _ => steady).bind fun _ =>
        utcNow_readOnly.bind fun now => ?_
      exact steady_locked fun core => refresh_same
    exact writes

end Steady

section Expects

variable {κ ν : Type} [DecidableEq κ]

/-- `get_mut(key).expect(..)` and a change of the row there; none where it panics. -/
def expectMut (rows : HashMap κ ν) (key : κ) (change : ν → ν) : Option (HashMap κ ν) :=
  (rows.lookup key).map fun row => rows.insert key (change row)

/-- The invitations `create_account_invitation` finds expired. -/
def expiredIds (s : State) (now : DateTime) : List Uuid :=
  (s.auth.invitations.values.filter fun invitation =>
    invitation.isOpen && invitation.expiresAt ≤ now).map AccountInvitation.id

def revokeExpired (now : DateTime) (ids : List Uuid) (rows : HashMap Uuid AccountInvitation) :
    Option (HashMap Uuid AccountInvitation) :=
  ids.foldlM (fun rows id => expectMut rows id fun row => { row with revokedAt := some now }) rows

/-- The teams `complete_account_activation` adds its account to. -/
def enterTeams (login : String) :
    List String → HashMap (String × String) Team → Option (HashMap (String × String) Team)
  | [], teams => some teams
  | binding :: rest, teams =>
    match splitTeamBinding binding with
    | .error _ => some teams
    | .ok key =>
      (expectMut teams key fun team =>
        if team.members.contains login then team
        else { team with members := sorted (team.members ++ [login]) }).bind (enterTeams login rest)

/-- Every `expect` under the write lock finds the row that was seen under the same lock. -/
structure ExpectsHold (s : State) : Prop where
  present : ∀ login change, (s.accounts.lookup login).isSome → (expectMut s.accounts login change).isSome
  expired : ∀ now, (revokeExpired now (expiredIds s now) s.auth.invitations).isSome
  started : ∀ invitation ∈ s.auth.invitations.values, ∀ change,
    (expectMut s.auth.invitations invitation.id change).isSome
  challenged : ∀ challenge record change, s.auth.activationChallenges.lookup challenge = some record →
    (expectMut s.auth.activationChallenges challenge change).isSome
  invited : ∀ id invitation change, s.auth.invitations.lookup id = some invitation →
    (expectMut s.auth.invitations invitation.id change).isSome
  teamed : ∀ login bindings, s.missingTeam bindings = .ok none →
    (enterTeams login bindings s.auth.teams).isSome
  token : ∀ picks found change, s.auth.botAccessTokens.pairs.find? picks = some found →
    (expectMut s.auth.botAccessTokens found.1 change).isSome

variable {rows rows' : HashMap κ ν} {key other : κ} {change : ν → ν} {s : State}

theorem expectMut_isSome (there : (rows.lookup key).isSome) : (expectMut rows key change).isSome := by
  unfold expectMut
  rwa [Option.isSome_map]

theorem expectMut_keeps (changed : expectMut rows key change = some rows')
    (there : (rows.lookup other).isSome) : (rows'.lookup other).isSome := by
  obtain ⟨row, -, rfl⟩ := Option.map_eq_some_iff.mp changed
  rw [HashMap.lookup_insert_if]
  split
  · rfl
  · exact there

theorem revokeExpired_isSome {now : DateTime} {ids : List Uuid} {rows : HashMap Uuid AccountInvitation}
    (there : ∀ id ∈ ids, (rows.lookup id).isSome) : (revokeExpired now ids rows).isSome := by
  unfold revokeExpired
  induction ids generalizing rows with
  | nil => rfl
  | cons id rest ih =>
    let change (row : AccountInvitation) : AccountInvitation := { row with revokedAt := some now }
    have found : (expectMut rows id change).isSome := expectMut_isSome (there id List.mem_cons_self)
    obtain ⟨next, changed⟩ := Option.isSome_iff_exists.mp found
    rw [List.foldlM_cons, changed]
    exact ih fun later member => expectMut_keeps changed (there later (List.mem_cons_of_mem id member))

theorem missingTeam_none {binding : String} {rest : List String}
    (named : s.missingTeam (binding :: rest) = .ok none) :
    ∃ key, splitTeamBinding binding = .ok key ∧ (s.auth.teams.lookup key).isSome ∧
      s.missingTeam rest = .ok none := by
  unfold State.missingTeam at named
  cases split : splitTeamBinding binding with
  | error error =>
    rw [split] at named
    cases named
  | ok key =>
    rw [split] at named
    change (if (s.auth.teams.lookup key).isNone then .ok (some binding) else s.missingTeam rest) = _ at named
    by_cases absent : (s.auth.teams.lookup key).isNone
    · rw [if_pos absent] at named
      cases named
    · rw [if_neg absent] at named
      exact ⟨key, rfl, by simpa [Option.isSome_iff_ne_none] using absent, named⟩

theorem enterTeams_isSome {login : String} {bindings : List String}
    {teams : HashMap (String × String) Team} (named : s.missingTeam bindings = .ok none)
    (kept : ∀ key, (s.auth.teams.lookup key).isSome → (teams.lookup key).isSome) :
    (enterTeams login bindings teams).isSome := by
  induction bindings generalizing teams with
  | nil => rfl
  | cons binding rest ih =>
    obtain ⟨key, split, there, more⟩ := missingTeam_none named
    unfold enterTeams
    rw [split]
    dsimp only
    let change (team : Team) : Team := if team.members.contains login then team
      else { team with members := sorted (team.members ++ [login]) }
    have found : (expectMut teams key change).isSome := expectMut_isSome (kept key there)
    obtain ⟨next, changed⟩ := Option.isSome_iff_exists.mp found
    rw [changed]
    exact ih more fun other known => expectMut_keeps changed (kept other known)

theorem expects_hold (keyed : InvitationsKeyed s) : ExpectsHold s := by
  have invited (invitation : AccountInvitation) (member : invitation ∈ s.auth.invitations.values) :
      (s.auth.invitations.lookup invitation.id).isSome := by
    obtain ⟨id, known⟩ := HashMap.mem_values.mp member
    have named : invitation.id = id := keyed id invitation known
    rw [named, known]
    rfl
  constructor
  · intro login change there
    exact expectMut_isSome there
  · intro now
    apply revokeExpired_isSome
    intro id member
    obtain ⟨invitation, listed, rfl⟩ := List.mem_map.mp member
    exact invited invitation (List.mem_of_mem_filter listed)
  · intro invitation member change
    exact expectMut_isSome (invited invitation member)
  · intro challenge record change known
    exact expectMut_isSome (by rw [known]; rfl)
  · intro id invitation change known
    exact expectMut_isSome (invited invitation (HashMap.mem_values.mpr ⟨id, known⟩))
  · intro login bindings named
    exact enterTeams_isSome named fun _ there => there
  · intro picks found change first
    obtain ⟨hash, record⟩ := found
    have known := HashMap.mem_pairs.mp (List.mem_of_find?_eq_some first)
    exact expectMut_isSome (by rw [known]; rfl)

end Expects

section Runs

variable {start pool : RequestPool}

/-- No condition on a section. -/
def anyRequest (_ : Request) (_ : ForgeCore → ForgeCore) (_ : ForgeCore) : Prop := True

def RequestPool.Initial (pool : RequestPool) : Prop := pool.shared.state = .empty ∧ pool.tasks = []

/-- No call has panicked, and none can under the write lock. -/
structure Panicless (pool : RequestPool) : Prop where
  answers : ∀ i request reply, pool.Answered i request reply → Unpanicked reply
  expects : ExpectsHold pool.shared.state

theorem keyed_certified : Certified requests anyRequest (fun core => InvitationsKeyed core.state)
    (fun _ core core' _ => Steady core core') fun _ _ => True where
  programs request := (request_steady request).meets.mono (fun _ _ => True.intro)
    (fun _ _ _ _ steady => steady) fun _ known => known
  ambient _ _ keyed steady := steady.keyed keyed
  kept _ _ _ _ keyed _ steady := steady.keyed keyed

/-- In runs whose steps are taken with care, no call panics. -/
theorem careful_run_panicless (initial : start.Initial)
    (run : CarefulRun requests anyRequest Request.Careful start pool) : Panicless pool := by
  obtain ⟨empty, idle⟩ := initial
  have none_yet {P : Task ForgeCore Request.Reply → Prop} : ∀ task ∈ start.tasks, P task := by
    rw [idle]
    exact fun _ member => nomatch member
  have first : InvitationsKeyed start.shared.state := by
    rw [empty]
    exact HashMap.every_empty
  have sound {mid : RequestPool} (run : Run requests anyRequest start mid) :=
    keyed_certified.run run ⟨first, none_yet⟩
  have moves (mid mid' : RequestPool) (before : Run requests anyRequest start mid)
      (step : Step requests anyRequest mid mid') : Lasting mid.shared mid'.shared :=
    keyed_certified.along lasting_refl lasting_trans (fun _ _ _ steady => steady.lasting)
      (fun _ _ _ _ _ _ steady => steady.lasting) (.single step) (sound before)
  have behaves := run.behaves lasting_refl lasting_trans
    (fun request core => (request_sure request).behaves core) moves none_yet
  exact ⟨fun _ _ _ answered => behaves.answered answered, expects_hold (sound run.run).holds⟩

end Runs

section Demo

def ensureAda : Request := .account (.ensureUser "ada")

/-- `ada` asks for her profile, and it is made. -/
def adaAsks : RequestPool := ⟨.durable, [⟨ensureAda, ensureAda.method.run⟩]⟩

def adaLooks : RequestPool := adaAsks.turn requests (.advance 0)

def adaStays : RequestPool := adaLooks.turn requests (.advance 0)

/-- Nothing is amiss with `ada`'s call at any section while the core is new. -/
theorem ensureAda_careful (rest : Program ForgeCore ensureAda.Reply) :
    ensureAda.Careful rest .durable := by
  have stage (found : Profiling ensureAda.Answer) (profiles : ensureAda.profiling = some found) :
      found.login = "ada" := by
    cases profiles
    rfl
  constructor
  · intro found profiles _ _
    rw [stage found profiles]
    decide +kernel
  · intro found profiles _
    rw [stage found profiles]
    exact ⟨rfl, rfl⟩

theorem adaStays_careful : CarefulRun requests anyRequest Request.Careful ⟨.durable, []⟩ adaStays := by
  have care (rest : Program ForgeCore ensureAda.Reply) :
      ∀ task ∈ [(⟨ensureAda, rest⟩ : Task ForgeCore Request.Reply)], task.call.Careful task.rest .durable := by
    intro task only
    cases List.mem_singleton.mp only
    exact ensureAda_careful rest
  have asks : CarefulRun requests anyRequest Request.Careful ⟨.durable, []⟩ adaAsks :=
    .single ⟨Step.enter True.intro, fun i call rest running => nomatch running⟩
  have looks : CarefulRun requests anyRequest Request.Careful ⟨.durable, []⟩ adaLooks :=
    asks.advance (fun _ _ _ _ => True.intro) (care _)
  exact looks.advance (fun _ _ _ _ => True.intro) (care _)

theorem adaStays_panicless :
    (adaStays.shared.state.users.lookup "ada").isSome = true ∧ Panicless adaStays :=
  ⟨by decide +kernel, careful_run_panicless ⟨rfl, rfl⟩ adaStays_careful⟩

/-- A profile is asked for under a blank login. -/
def blankAsked : RequestPool := Config.play requests ⟨.durable, []⟩ [.alone (.account (.ensureUser ""))]

theorem blankAsked_panics :
    ∃ (pool : RequestPool) (i : Nat) (request : Request) (reply : request.Reply) (message : String),
      Run requests anyRequest ⟨.durable, []⟩ pool ∧ pool.Answered i request reply ∧
        reply = .error (.panicked message) := by
  refine ⟨blankAsked, 0, .account (.ensureUser ""), _, _, ?_, rfl, rfl⟩
  apply play_run
  exact ⟨⟨True.intro, Program.permits_of_every (fun _ _ => True.intro) _ _⟩, True.intro⟩

end Demo

end Jeryu.Auth
