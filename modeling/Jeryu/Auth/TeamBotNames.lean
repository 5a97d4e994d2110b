import Jeryu.Auth.BotNames
import Jeryu.Auth.Principals

namespace Jeryu.Auth

open Jeryu.Core KeyedMap LockProgram

section Access

variable {s : State} {id : Uuid} {bot : BotRecord} {owner repo : String}

def level : BotRepoAccess → RepoAccessLevel
  | .read => .read
  | .write => .write

/-- The bot's own grant on the repository now at `owner/repo`, while it is active and its
    organization exists. -/
def ownAccess (s : State) (bot : BotRecord) (owner repo : String) : Option RepoAccessLevel :=
  if bot.status = .active ∧ (s.organizations.lookup bot.owner).isSome then
    (s.repos.lookup (owner, repo)).bind fun repository =>
      (s.botRepoGrants.lookup (bot.id, repository.id)).map level
  else none

theorem ownAccess_not_admin : ownAccess s bot owner repo ≠ some .admin := by
  intro admin
  unfold ownAccess at admin
  split at admin
  · obtain ⟨repository, -, granted⟩ := Option.bind_eq_some_iff.mp admin
    obtain ⟨access, -, same⟩ := Option.map_eq_some_iff.mp granted
    cases access <;> cases same
  · cases admin

/-- The acting login of each stored team bot names that bot, and what the bot may do. -/
structure TeamBotsNamed (s : State) : Prop where
  parsed : ∀ id bot, s.bots.lookup id = some bot → bot.ownerKind = .organization →
    parseTeamBotLogin bot.actingLogin = some (bot.owner, bot.slug)
  apart : ∀ id id' bot bot', s.bots.lookup id = some bot → s.bots.lookup id' = some bot' →
    bot.ownerKind = .organization → bot'.ownerKind = .organization →
    bot.actingLogin = bot'.actingLogin → id = id'
  noAccount : ∀ id bot, s.bots.lookup id = some bot → bot.ownerKind = .organization →
    s.accounts.lookup bot.actingLogin = none
  access : ∀ id bot owner repo, s.bots.lookup id = some bot → bot.ownerKind = .organization →
    s.repoAccessForLocked bot.actingLogin owner repo = ownAccess s bot owner repo
  neverAdmin : ∀ id bot owner repo, s.bots.lookup id = some bot → bot.ownerKind = .organization →
    s.repoAccessForLocked bot.actingLogin owner repo ≠ some .admin

theorem actingLogin_team (kind : bot.ownerKind = .organization) :
    bot.actingLogin = teamBotLogin bot.owner bot.slug := by
  unfold BotRecord.actingLogin
  rw [kind]

/-- Looked up by what its login parses to, a bot is found. -/
theorem found_by_name {team : String → Prop} (named : Named team s) (found : s.bots.lookup id = some bot)
    (kind : bot.ownerKind = .organization) :
    s.bots.values.find? (fun other => other.ownerKind = .organization && other.owner == bot.owner &&
      other.slug == bot.slug) = some bot := by
  have member : bot ∈ s.bots.values := HashMap.mem_values.mpr ⟨id, found⟩
  cases first : s.bots.values.find? (fun other => other.ownerKind = .organization &&
      other.owner == bot.owner && other.slug == bot.slug) with
  | none =>
    have missed := List.find?_eq_none.mp first bot member
    simp [kind] at missed
  | some other =>
    have matching := List.find?_some first
    simp only [Bool.and_eq_true, decide_eq_true_eq, beq_iff_eq] at matching
    obtain ⟨id', found'⟩ := HashMap.mem_values.mp (List.mem_of_find?_eq_some first)
    have same := named.unique id' id other bot found' found matching.1.2 matching.2
    rw [same, found] at found'
    exact found'.symm

theorem botAccountMatches_team (kind : bot.ownerKind = .organization) :
    s.botAccountMatches bot = true ↔
      bot.status = .active ∧ (s.organizations.lookup bot.owner).isSome = true := by
  unfold State.botAccountMatches
  rw [kind, Bool.and_eq_true, decide_eq_true_eq]

theorem grantAccess_level {id : Uuid} : (s.grantAccess id owner repo).map level =
    (s.repos.lookup (owner, repo)).bind fun repository =>
      (s.botRepoGrants.lookup (id, repository.id)).map level := by
  unfold State.grantAccess
  cases s.repos.lookup (owner, repo) with
  | none => rfl
  | some repository => rfl

theorem Named.teamBotsNamed (named : Named (canonical · = true) s) : TeamBotsNamed s := by
  have parsed (id : Uuid) (bot : BotRecord) (found : s.bots.lookup id = some bot)
      (kind : bot.ownerKind = .organization) :
      parseTeamBotLogin bot.actingLogin = some (bot.owner, bot.slug) :=
    parseTeamBotLogin_eq_some.mpr
      ⟨actingLogin_team kind, named.teams id bot found kind, named.slugs id bot found⟩
  have access (id : Uuid) (bot : BotRecord) (owner repo : String) (found : s.bots.lookup id = some bot)
      (kind : bot.ownerKind = .organization) :
      s.repoAccessForLocked bot.actingLogin owner repo = ownAccess s bot owner repo := by
    have whole := parsed id bot found kind
    unfold State.repoAccessForLocked State.actingRepoAccess
    rw [whole]
    simp only [Option.isSome_some, if_true]
    rw [found_by_name named found kind]
    unfold ownAccess
    simp only [botAccountMatches_team kind]
    split
    · exact grantAccess_level
    · rfl
  refine ⟨parsed, fun id id' bot bot' found found' kind kind' same => ?_, fun id bot found kind => ?_,
    access, fun id bot owner repo found kind admin => ?_⟩
  · have first := parsed id bot found kind
    have second := parsed id' bot' found' kind'
    rw [same, second] at first
    obtain ⟨owner, slug⟩ := Prod.mk.inj (Option.some.inj first)
    exact named.unique id id' bot bot' found found' owner.symm slug.symm
  · cases known : s.accounts.lookup bot.actingLogin with
    | none => rfl
    | some account =>
      have login := named.accounts bot.actingLogin (by rw [known]; rfl)
      rw [actingLogin_team kind, teamBotLogin_not_canonical] at login
      cases login
  · rw [access id bot owner repo found kind] at admin
    exact ownAccess_not_admin admin

end Access

/-- The organization a call enrolls a bot for has a login that is made as an account's is. -/
def Call.ForCanonical (call : Call) (_ : ForgeCore) : Prop :=
  ∀ org, call.team = some org → canonical org = true

/-- Where team bots are enrolled only for organizations of a canonical login, the acting login of
    each names that bot alone, in every state of the run. -/
theorem teamBotsNamed_of_run {start pool : Pool} (initial : start.Initial)
    (run : Run (accounts anyTicks) (When Call.ForCanonical) start pool) :
    TeamBotsNamed pool.shared.state := by
  have named : Named (canonical · = true) pool.shared.state := named_of_run initial run
  exact named.teamBotsNamed

section Demo

def newTeam (org : String) : Turn Call := .alone (.createTeam org ⟨"Ops", some "ops", ["root"]⟩)

def newTeamBot (org : String) : Turn Call :=
  .alone (.enrollTeamBot "root" org "ops" "ci" "CI" ⟨"grokbot", BotKind.grokbot_valid⟩ (.general none) (.ok ()))

def withTeamBot : List (Turn Call) := [newRoot, newAcme, newTeam "acme", newTeamBot "acme"]

def hasTeamBot (s : State) : Bool := s.bots.values.any fun bot => bot.ownerKind = .organization

theorem withTeamBot_plays :
    Config.Plays (accounts anyTicks) (When Call.ForCanonical) ⟨.durable, []⟩ withTeamBot := by
  have free (call : Call) (none : call.team = none) (core : ForgeCore) : call.ForCanonical core := by
    intro org asked
    rw [none] at asked
    cases asked
  refine ⟨⟨True.intro, Program.permits_of_every (fun _ => free _ rfl) _ _⟩,
    ⟨True.intro, Program.permits_of_every (fun _ => free _ rfl) _ _⟩,
    ⟨True.intro, Program.permits_of_every (fun _ => free _ rfl) _ _⟩,
    ⟨True.intro, Program.permits_of_every (fun _ _ org asked => ?_) _ _⟩, True.intro⟩
  cases asked
  decide

theorem withTeamBot_named :
    hasTeamBot (scheduled .durable withTeamBot).shared.state = true ∧
      TeamBotsNamed (scheduled .durable withTeamBot).shared.state :=
  ⟨by decide +kernel, teamBotsNamed_of_run ⟨rfl, rfl⟩ (play_run withTeamBot_plays)⟩

/-- An organization whose login has a dot in it. -/
def withDottedBot : List (Turn Call) :=
  [newRoot, .alone (.createOrganization ⟨"acme.eu", none⟩), newTeam "acme.eu", newTeamBot "acme.eu"]

def unnamedBot (bot : BotRecord) : Bool :=
  bot.ownerKind = .organization && (parseTeamBotLogin bot.actingLogin).isNone

theorem withDottedBot_unnamed :
    (scheduled .durable withDottedBot).shared.state.bots.values.any unnamedBot = true := by
  decide +kernel

/-- Nothing checks the login of such an organization, and its bots' names parse to nothing. -/
theorem dotted_organization_bot_unnamed :
    ∃ pool : Pool, pool.Reachable ∧ ¬TeamBotsNamed pool.shared.state := by
  refine ⟨scheduled .durable withDottedBot, scheduled_reachable rfl, fun named => ?_⟩
  obtain ⟨bot, member, unnamed⟩ := List.any_eq_true.mp withDottedBot_unnamed
  obtain ⟨id, found⟩ := HashMap.mem_values.mp member
  simp only [unnamedBot, Bool.and_eq_true, decide_eq_true_eq, Option.isNone_iff_eq_none] at unnamed
  have parsed := named.parsed id bot found unnamed.1
  rw [unnamed.2] at parsed
  cases parsed

end Demo

end Jeryu.Auth
