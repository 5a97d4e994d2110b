import Jeryu.Auth.Authority

/-!
Who works on a repository: the roster of bots its writers see. A row tells nothing of any other
repository.
-/

namespace Jeryu.Core

open KeyedMap

/-- A public repository is readable by every account, so only an explicit grant puts a general bot
    on the roster. -/
def State.reachListsRepo (state : State) (bot : BotRecord) (owner repo : String) : Bool :=
  match bot.reach with
  | .general _ => state.botHasGrant bot owner repo
  | .owners owners _ => owners.contains owner && state.botHasGrant bot owner repo
  | .repositories repos _ => repos.any fun item => item.owner = owner && item.name = repo
  | .task bound .. => bound.owner = owner && bound.name = repo

def clipReach (reach : BotReach) (owner repo : String) : BotReach :=
  match reach with
  | .owners _ refs => .repositories [⟨owner, repo⟩] refs
  | .repositories repos refs => .repositories (repos.filter fun item => item.owner = owner && item.name = repo) refs
  | other => other

/-- What a bot did last is kept where it did it here. -/
def clipActivity (summary : BotSummary) (owner repo : String) : BotSummary :=
  if summary.lastRepo ≠ some (slugText (owner, repo)) then
    { summary with lastRepo := none, lastAction := none, lastOutcome := none, lastMutation := none }
  else summary

def BotRecord.row (bot : BotRecord) (owner repo : String) : BotSummary :=
  clipActivity { bot.summary with reach := clipReach bot.summary.reach owner repo } owner repo

def State.repositoryBots (state : State) (owner repo : String) : List BotSummary :=
  ((state.bots.values.filter fun bot => state.reachListsRepo bot owner repo).map fun bot =>
    bot.row owner repo).insertionSort fun a b => !decide (b.slug < a.slug)

def userCanWriteRepo (login owner repo : String) : Method Bool :=
  .reading fun core => .ok ((core.state.repoAccessForLocked login owner repo).any RepoAccessLevel.allowsWrite)

def listRepositoryBots (actor owner repo : String) : Method (List BotSummary) := do
  let _ ← canonicalRepository owner repo
  if !(← userCanWriteRepo actor owner repo) then
    throw (.error (.forbidden "repo write access required"))
  .reading fun core => .ok (core.state.repositoryBots owner repo)

end Jeryu.Core

namespace Jeryu.Auth

open Jeryu.Core KeyedMap LockProgram

theorem listRepositoryBots_exec (actor owner repo : String) (core : ForgeCore) :
    ((listRepositoryBots actor owner repo).run.exec core).1 =
      if (core.state.repos.lookup (owner, repo)).isNone then
        .error (.error (.notFound s!"repository {owner}/{repo}"))
      else if (core.state.repoAccessForLocked actor owner repo).any RepoAccessLevel.allowsWrite then
        .ok (core.state.repositoryBots owner repo)
      else .error (.error (.forbidden "repo write access required")) := by
  unfold listRepositoryBots canonicalRepository userCanWriteRepo
  rw [Program.exec_bind_run, Method.exec_reading]
  cases core.state.repos.lookup (owner, repo) with
  | none => rfl
  | some repository =>
    show (Program.exec (ExceptT.run (_ >>= _)) core).1 = _
    rw [Program.exec_bind_run, Method.exec_reading]
    cases (core.state.repoAccessForLocked actor owner repo).any RepoAccessLevel.allowsWrite with
    | false => rfl
    | true => rfl

theorem listed_eq {actor owner repo : String} {core : ForgeCore} {roster : List BotSummary}
    (listed : ((listRepositoryBots actor owner repo).run.exec core).1 = .ok roster) :
    roster = core.state.repositoryBots owner repo := by
  rw [listRepositoryBots_exec] at listed
  split at listed
  · cases listed
  · split at listed
    · exact (Except.ok.inj listed).symm
    · cases listed

section Complete

variable {state : State} {now : DateTime} {call : BotCall} {reference : Option String} {bot : BotRecord}

theorem botGrantAllows_known {owner repo : String} {write : Bool} (allows : state.botGrantAllows bot owner repo write = true) :
    (state.repos.lookup (owner, repo)).isNone = false := by
  unfold State.botGrantAllows State.ownerGrantAllows State.grantAllows at allows
  cases found : state.repos.lookup (owner, repo) with
  | some repository => rfl
  | none =>
    rw [found] at allows
    split at allows
    · split at allows
      · cases allows
      · split at allows <;> cases allows
    · cases allows

/-- Only a repository that exists is written to. -/
theorem authorized_known (decided : state.authorizeBotCall now call reference = .ok (bot, none))
    (writes : call.effect = .write) : (state.repos.lookup (call.owner, call.repo)).isNone = false := by
  unfold State.authorizeBotCall at decided
  split at decided
  · cases decided
  · next stored found =>
    split at decided
    · cases decided
    · split at decided
      · cases decided
      · obtain ⟨-, permitted⟩ := Prod.mk.inj (Except.ok.inj decided)
        cases allowed : state.botGrantAllows stored call.owner call.repo true with
        | true => exact botGrantAllows_known allowed
        | false => simp [writes, allowed] at permitted

/-- A bot that may write holds a grant. -/
theorem WithinAuthority.hasGrant (within : WithinAuthority state now call reference bot) (writes : call.effect = .write) :
    state.botHasGrant bot call.owner call.repo = true := by
  unfold State.botHasGrant
  cases within.write writes with
  | @owners kind grant granted enough =>
    obtain ⟨account, found, active, -⟩ := within.owner kind
    have reads : grant.access.allowsRead = true := by cases grant.access <;> rfl
    simp [kind, State.ownerHasGrant, found, active, AccountStatus.permitsAuthentication, granted, reads]
  | @own kind repository access found granted enough =>
    simp [kind, State.grantAccess, found, granted]

/-- It is on the roster, whatever its reach. -/
theorem WithinAuthority.listed (within : WithinAuthority state now call reference bot) (writes : call.effect = .write) :
    state.reachListsRepo bot call.owner call.repo = true := by
  have granted := within.hasGrant writes
  have covered := within.reach
  unfold State.reachListsRepo
  cases reach : bot.reach with
  | general refs => exact granted
  | owners owners refs =>
    rw [reach] at covered
    exact Bool.and_eq_true_iff.2 ⟨List.contains_iff_mem.2 covered.1, granted⟩
  | repositories repos refs =>
    rw [reach] at covered
    exact List.any_eq_true.2 ⟨_, covered, by simp⟩
  | task bound taskKind taskId refs =>
    rw [reach] at covered
    simp [covered.1]

theorem WithinAuthority.row_mem (within : WithinAuthority state now call reference bot) (writes : call.effect = .write) :
    bot.row call.owner call.repo ∈ state.repositoryBots call.owner call.repo := by
  unfold State.repositoryBots
  rw [List.mem_insertionSort]
  have stored : bot ∈ state.bots.values := HashMap.mem_values.2 ⟨call.botId, within.found⟩
  exact List.mem_map.2 ⟨bot, List.mem_filter.2 ⟨stored, within.listed writes⟩, rfl⟩

end Complete

section Alike

variable (owner repo : String)

/-- Two reaches that differ in what they name of other owners and repositories. -/
inductive ReachAlike : BotReach → BotReach → Prop where
  | general (refs : Option (List String)) : ReachAlike (.general refs) (.general refs)
  | owners {owners owners' : List String} (refs : Option (List String))
      (here : owners.filter (· = owner) = owners'.filter (· = owner)) :
      ReachAlike (.owners owners refs) (.owners owners' refs)
  | repositories {repos repos' : List BotRepoRef} (refs : Option (List String))
      (here : (repos.filter fun item => item.owner = owner && item.name = repo) =
        repos'.filter fun item => item.owner = owner && item.name = repo) :
      ReachAlike (.repositories repos refs) (.repositories repos' refs)
  | task (bound : BotRepoRef) (taskKind : BotTaskKind) (taskId : String) (refs : Option (List String)) :
      ReachAlike (.task bound taskKind taskId refs) (.task bound taskKind taskId refs)

/-- Two records of one bot, which may have last worked in other repositories. -/
structure BotAlike (bot bot' : BotRecord) : Prop where
  reach : ReachAlike owner repo bot.reach bot'.reach
  activity : bot.lastRepo = bot'.lastRepo ∧ bot.lastAction = bot'.lastAction ∧ bot.lastOutcome = bot'.lastOutcome ∧
      bot.lastMutation = bot'.lastMutation ∨
    bot.lastRepo ≠ some (slugText (owner, repo)) ∧ bot'.lastRepo ≠ some (slugText (owner, repo))
  rest : bot' = { bot with
    reach := bot'.reach, lastRepo := bot'.lastRepo, lastAction := bot'.lastAction
    lastOutcome := bot'.lastOutcome, lastMutation := bot'.lastMutation }

/-- Two states that agree on the accounts, the organizations, this repository, the grants on it and
    the bots. They may differ in all else. -/
structure Alike (state state' : State) : Prop where
  accounts : ∀ login, state.accounts.lookup login = state'.accounts.lookup login
  organizations : ∀ org, state.organizations.lookup org = state'.organizations.lookup org
  repository : state.repos.lookup (owner, repo) = state'.repos.lookup (owner, repo)
  repoGrants : ∀ login, state.repoGrants.lookup (login, owner, repo) = state'.repoGrants.lookup (login, owner, repo)
  botRepoGrants : ∀ repository, state.repos.lookup (owner, repo) = some repository → ∀ botId,
    state.botRepoGrants.lookup (botId, repository.id) = state'.botRepoGrants.lookup (botId, repository.id)
  bots : List.Forall₂ (BotAlike owner repo) state.bots.values state'.bots.values

variable {owner repo} {state state' : State} {bot bot' : BotRecord}

theorem ReachAlike.clipReach {reach reach' : BotReach} (alike : ReachAlike owner repo reach reach') :
    clipReach reach owner repo = clipReach reach' owner repo := by
  cases alike with
  | general refs => rfl
  | owners refs here => rfl
  | repositories refs here => exact congrArg (BotReach.repositories · refs) here
  | task bound taskKind taskId refs => rfl

/-- Away from here, what a bot did last is not shown. -/
theorem row_away (away : bot.lastRepo ≠ some (slugText (owner, repo))) : bot.row owner repo =
    { bot.summary with
      reach := clipReach bot.reach owner repo, lastRepo := none, lastAction := none, lastOutcome := none
      lastMutation := none } := if_pos away

theorem BotAlike.row (alike : BotAlike owner repo bot bot') : bot.row owner repo = bot'.row owner repo := by
  have clipped : clipReach bot.reach owner repo = clipReach bot'.reach owner repo := alike.reach.clipReach
  rcases alike.activity with ⟨lastRepo, lastAction, lastOutcome, lastMutation⟩ | ⟨away, away'⟩
  · have same : bot' = { bot with reach := bot'.reach } := by
      rw [alike.rest, ← lastRepo, ← lastAction, ← lastOutcome, ← lastMutation]
    have shown : { bot.summary with reach := clipReach bot.reach owner repo } =
        { bot'.summary with reach := clipReach bot'.reach owner repo } := by
      rw [← clipped, same]
      rfl
    exact congrArg (clipActivity · owner repo) shown
  · rw [row_away away, row_away away', ← clipped, alike.rest]
    rfl

theorem Alike.grantAccess (alike : Alike owner repo state state') (botId : Uuid) :
    state.grantAccess botId owner repo = state'.grantAccess botId owner repo := by
  unfold State.grantAccess
  rw [← alike.repository]
  cases found : state.repos.lookup (owner, repo) with
  | none => rfl
  | some repository => exact alike.botRepoGrants repository found botId

theorem Alike.botHasGrant (alike : Alike owner repo state state') (same : BotAlike owner repo bot bot') :
    state.botHasGrant bot owner repo = state'.botHasGrant bot' owner repo := by
  rw [same.rest]
  unfold State.botHasGrant State.ownerHasGrant
  simp only [alike.accounts, alike.repoGrants, alike.grantAccess]

theorem Alike.botAccountMatches (alike : Alike owner repo state state') (same : BotAlike owner repo bot bot') :
    state.botAccountMatches bot = state'.botAccountMatches bot' := by
  rw [same.rest]
  unfold State.botAccountMatches
  simp only [alike.accounts, alike.organizations]

theorem any_of_filter {α : Type} {p : α → Bool} {items items' : List α} (same : items.filter p = items'.filter p) :
    items.any p = items'.any p := by
  have whole : ∀ items : List α, items.any p = (items.filter p).any p := by
    intro items
    rw [List.any_filter]
    simp
  rw [whole items, whole items', same]

theorem Alike.reachListsRepo (alike : Alike owner repo state state') (same : BotAlike owner repo bot bot') :
    state.reachListsRepo bot owner repo = state'.reachListsRepo bot' owner repo := by
  have granted := alike.botHasGrant same
  have reach := same.reach
  unfold State.reachListsRepo
  generalize bot.reach = first at reach ⊢
  generalize bot'.reach = second at reach ⊢
  cases reach with
  | general refs => exact granted
  | @owners owners owners' refs here =>
    have named : owners.contains owner = owners'.contains owner := by
      have present : ∀ names : List String, names.contains owner = names.any fun name => name = owner := by
        intro names
        rw [Bool.eq_iff_iff, List.contains_iff_mem, List.any_eq_true]
        simp
      rw [present, present]
      exact any_of_filter here
    simp only [named, granted]
  | repositories refs here => exact any_of_filter here
  | task bound taskKind taskId refs => rfl

/-- The rows of two lists of bots, the bots in one order. -/
theorem Alike.rows (alike : Alike owner repo state state') {bots bots' : List BotRecord}
    (same : List.Forall₂ (BotAlike owner repo) bots bots') :
    ((bots.filter fun bot => state.reachListsRepo bot owner repo).map fun bot => bot.row owner repo) =
      (bots'.filter fun bot => state'.reachListsRepo bot owner repo).map fun bot => bot.row owner repo := by
  induction same with
  | nil => rfl
  | @cons bot bot' bots bots' first rest ih =>
    rw [List.filter_cons, List.filter_cons, alike.reachListsRepo first]
    split
    · rw [List.map_cons, List.map_cons, first.row, ih]
    · exact ih

theorem Alike.repositoryBots (alike : Alike owner repo state state') :
    state.repositoryBots owner repo = state'.repositoryBots owner repo := by
  unfold State.repositoryBots
  rw [alike.rows alike.bots]

/-- The first bots found of one name. -/
theorem first_alike {name : BotRecord → Bool} (named : ∀ bot bot', BotAlike owner repo bot bot' → name bot = name bot')
    {bots bots' : List BotRecord} (same : List.Forall₂ (BotAlike owner repo) bots bots') :
    bots.find? name = none ∧ bots'.find? name = none ∨
      ∃ bot bot', bots.find? name = some bot ∧ bots'.find? name = some bot' ∧ BotAlike owner repo bot bot' := by
  induction same with
  | nil => exact .inl ⟨rfl, rfl⟩
  | @cons bot bot' bots bots' first rest ih =>
    rw [List.find?_cons, List.find?_cons, ← named bot bot' first]
    cases name bot with
    | true => exact .inr ⟨bot, bot', rfl, rfl, first⟩
    | false => exact ih

theorem Alike.repoAccess (alike : Alike owner repo state state') (actor : String) :
    state.repoAccessForLocked actor owner repo = state'.repoAccessForLocked actor owner repo := by
  unfold State.repoAccessForLocked
  rw [alike.accounts, alike.repoGrants]
  split
  · unfold State.actingRepoAccess
    split
    · rfl
    · next org slug parsed =>
      have named : ∀ bot bot', BotAlike owner repo bot bot' →
          (bot.ownerKind = .organization && bot.owner == org && bot.slug == slug : Bool) =
            (bot'.ownerKind = .organization && bot'.owner == org && bot'.slug == slug : Bool) := by
        intro bot bot' same
        rw [same.rest]
      rcases first_alike named alike.bots with ⟨none, none'⟩ | ⟨bot, bot', first, first', same⟩
      · rw [none, none']
      · have id : bot.id = bot'.id := by rw [same.rest]
        rw [first, first']
        simp only [alike.botAccountMatches same, alike.grantAccess, id]
  · rfl

end Alike

section Order

variable {state state' : State}

/-- Where only the bots stand in another order, so do the rows. -/
theorem repositoryBots_perm {owner repo : String} (same : state' = { state with bots := state'.bots })
    (reordered : state.bots.values.Perm state'.bots.values) :
    (state.repositoryBots owner repo).Perm (state'.repositoryBots owner repo) := by
  have rows : (fun bot => state'.reachListsRepo bot owner repo) = fun bot => state.reachListsRepo bot owner repo := by
    rw [same]
    rfl
  unfold State.repositoryBots
  rw [rows]
  have first := List.perm_insertionSort (fun a b : BotSummary => !decide (b.slug < a.slug))
  exact (first _).trans (((reordered.filter _).map _).trans (first _).symm)

end Order

/-- Every bot that may write to a repository is on the roster its writers see, and the roster is the
    same where two states differ in nothing of that repository. The order in which the bots are gone
    through moves its rows, no more. -/
theorem roster_complete_and_silent :
    (∀ (core core' : ForgeCore) (actor : String) (call : BotCall) (bot : BotSummary),
      (core.state.repoAccessForLocked actor call.owner call.repo).any RepoAccessLevel.allowsWrite = true →
      core'.state = core.state → call.effect = .write → ((authorizeBot call).run.exec core').1 = .ok bot →
      ∃ roster, ((listRepositoryBots actor call.owner call.repo).run.exec core).1 = .ok roster ∧
        ∃ row ∈ roster, row.id = bot.id ∧ row.owner = bot.owner ∧ row.slug = bot.slug) ∧
    (∀ (core core' : ForgeCore) (actor owner repo : String), Alike owner repo core.state core'.state →
      ((listRepositoryBots actor owner repo).run.exec core).1 = ((listRepositoryBots actor owner repo).run.exec core').1) ∧
    ∀ (core core' : ForgeCore) (actor owner repo : String) (roster roster' : List BotSummary),
      core'.state = { core.state with bots := core'.state.bots } →
      core.state.bots.values.Perm core'.state.bots.values →
      ((listRepositoryBots actor owner repo).run.exec core).1 = .ok roster →
      ((listRepositoryBots actor owner repo).run.exec core').1 = .ok roster' → roster.Perm roster' := by
  refine ⟨?_, ?_, ?_⟩
  · intro core core' actor call bot writer same writes granted
    obtain ⟨record, decided, rfl⟩ := authorizeBotCall_answers.1 granted
    rw [same] at decided
    have within := authorizeBotCall_within decided
    rw [listRepositoryBots_exec, authorized_known decided writes, if_neg Bool.false_ne_true, if_pos writer]
    refine ⟨_, rfl, record.row call.owner call.repo, within.row_mem writes, ?_⟩
    unfold BotRecord.row clipActivity
    split <;> exact ⟨rfl, rfl, rfl⟩
  · intro core core' actor owner repo alike
    rw [listRepositoryBots_exec, listRepositoryBots_exec, alike.repository, alike.repoAccess actor, alike.repositoryBots]
  · intro core core' actor owner repo roster roster' same reordered listed listed'
    rw [listed_eq listed, listed_eq listed']
    exact repositoryBots_perm same reordered

section Demo

/-- Ada writes to two repositories, and has one bot of general reach and one for both repositories by
    name. -/
def rostered : ForgeCore :=
  let setup : Method Unit := do
    let _ ← createAccount "ada" "correct horse" .user (.ok "$argon2id$salt$correct horse")
    let _ ← createRepository "acme"
      { name := "demo", isPrivate := true, description := none, defaultBranch := none }
    let _ ← createRepository "acme"
      { name := "other", isPrivate := true, description := none, defaultBranch := none }
    let _ ← grantRepoAccess "root" "ada" "acme" "demo" .write
    let _ ← grantRepoAccess "root" "ada" "acme" "other" .read
    let _ ← enrollBot "ada" "worker" "Worker" ⟨"grokbot", BotKind.grokbot_valid⟩
      (.repositories [⟨"acme", "demo"⟩, ⟨"acme", "other"⟩] none) (.ok ())
    let _ ← enrollBot "ada" "helper" "Helper" ⟨"grokbot", BotKind.grokbot_valid⟩ (.general none) (.ok ())
  (setup.run.exec .durable).2

def helperWrites : BotCall :=
  { botId := 6, generation := 1, keyId := 7, owner := "acme", repo := "demo", effect := .write
    taskKind := none, taskId := none }

/-- The bot has since been let into a third repository, and has worked in another. -/
def busied (bot : BotRecord) : BotRecord :=
  { bot with
    reach := match bot.reach with
      | .repositories repos refs => .repositories (repos ++ [⟨"acme", "third"⟩]) refs
      | reach => reach
    lastRepo := some "acme/other", lastAction := some "push" }

theorem busied_alike {bot : BotRecord} (idle : bot.lastRepo = none) : BotAlike "acme" "demo" bot (busied bot) where
  reach := by
    unfold busied
    cases bot.reach with
    | general refs => exact .general refs
    | owners owners refs => exact .owners refs rfl
    | repositories repos refs => exact .repositories refs (by simp)
    | task bound taskKind taskId refs => exact .task bound taskKind taskId refs
  activity := by
    refine .inr ⟨?_, ?_⟩
    · rw [idle]
      exact fun shown => nomatch shown
    · show some "acme/other" ≠ some (slugText ("acme", "demo"))
      decide
  rest := rfl

def busiedCore : ForgeCore :=
  { rostered with state := { rostered.state with bots := rostered.state.bots.mapValues fun _ bot => busied bot } }

theorem rostered_alike : Alike "acme" "demo" rostered.state busiedCore.state where
  accounts := fun _ => rfl
  organizations := fun _ => rfl
  repository := rfl
  repoGrants := fun _ => rfl
  botRepoGrants := fun _ _ _ => rfl
  bots := by
    have idle : rostered.state.bots.values.all (fun bot => bot.lastRepo.isNone) = true := by decide +kernel
    have mapped : busiedCore.state.bots.values = rostered.state.bots.values.map busied := by
      show ((rostered.state.bots.mapValues fun _ bot => busied bot).values) = _
      simp [HashMap.values, HashMap.mapValues]
    rw [mapped, List.forall₂_map_right_iff, List.forall₂_same]
    intro bot among
    exact busied_alike (Option.isNone_iff_eq_none.1 (List.all_eq_true.1 idle bot among))

theorem roster_demo : ∃ bot : BotSummary,
    (∃ roster, ((listRepositoryBots "ada" "acme" "demo").run.exec rostered).1 = .ok roster ∧
      (∃ row ∈ roster, row.id = bot.id ∧ row.owner = bot.owner ∧ row.slug = bot.slug) ∧ roster.Perm roster) ∧
    ((listRepositoryBots "ada" "acme" "demo").run.exec rostered).1 =
      ((listRepositoryBots "ada" "acme" "demo").run.exec busiedCore).1 := by
  obtain ⟨complete, silent, permuted⟩ := roster_complete_and_silent
  have writer : (rostered.state.repoAccessForLocked "ada" "acme" "demo").any RepoAccessLevel.allowsWrite = true := by
    decide +kernel
  have granted : (((authorizeBot helperWrites).run.exec rostered).1.map fun bot => bot.slug) = .ok "helper" := by
    decide +kernel
  cases answer : ((authorizeBot helperWrites).run.exec rostered).1 with
  | error error =>
    rw [answer] at granted
    cases granted
  | ok bot =>
    obtain ⟨roster, listed, row⟩ := complete rostered rostered "ada" helperWrites bot writer rfl rfl answer
    have same := permuted rostered rostered "ada" "acme" "demo" roster roster rfl (List.Perm.refl _) listed listed
    exact ⟨bot, ⟨roster, listed, row, same⟩, silent rostered busiedCore "ada" "acme" "demo" rostered_alike⟩

end Demo

end Jeryu.Auth
