import Jeryu.Core.Carried

/-!
What every step and every restart keeps of a store on disk: the journal is appended to, and what a
repository's records tell lasts as long as the repository.
-/

namespace Jeryu.Core

open KeyedMap HashMap LockProgram Relation

/-- The store after some more steps or restarts. -/
structure ForgeCore.Onward (core core' : ForgeCore) : Prop where
  uuids : core.uuids ≤ core'.uuids
  onDisk : core.OnDisk → core'.OnDisk
  journal : core.journal <+: core'.journal
  keeps : ∀ repository At, Stays At → repository < core.uuids → core.Keeps repository At →
    core'.Keeps repository At

/-- Every pull request with the identifier is merged. -/
def State.Settled (s : State) (id : Uuid) : Prop :=
  s.pulls.Every fun _ pr => pr.id = id → pr.merged = true

section Steps

variable {Own : AuditEntry → Prop} {call : Call} {core core' last : ForgeCore}
variable {print : Footprint} {s s' : State} {id : Uuid}

theorem ForgeCore.Onward.refl (core : ForgeCore) : core.Onward core :=
  ⟨Nat.le_refl _, fun onDisk => onDisk, List.prefix_rfl, fun _ _ _ _ keeps => keeps⟩

theorem ForgeCore.Onward.trans (earlier : core.Onward core') (later : core'.Onward last) :
    core.Onward last where
  uuids := earlier.uuids.trans later.uuids
  onDisk onDisk := later.onDisk (earlier.onDisk onDisk)
  journal := earlier.journal.trans later.journal
  keeps repository At stays known keeps :=
    later.keeps repository At stays (Nat.lt_of_lt_of_le known earlier.uuids)
      (earlier.keeps repository At stays known keeps)

/-- What holds of the tables and of every snapshot among the writes holds of the tables after. -/
theorem tables_cases {writes : List Written} {P : State → Prop}
    (journal : core'.journal = core.journal ++ writes) (appends : ∀ write ∈ writes, write.Appends)
    (aside : ∀ s deployments, P s → P { s with deployments }) (before : P core.tables)
    (snapshots : ∀ next carried, Written.snapshot next carried ∈ writes → P next) :
    P core'.tables := by
  obtain ⟨base, deployments, same, origin⟩ := tablesOf_append core.journal appends
  have held : core'.tables = { base with deployments } := by
    unfold ForgeCore.tables
    rw [journal, same]
  rw [held]
  apply aside
  rcases origin with rfl | ⟨carried, member⟩
  · exact before
  · exact snapshots base carried member

theorem State.With.deployed {repository : Uuid} {At : State → Slug → Prop} (stays : Stays At)
    (s : State) (deployments) (holds : s.With repository (At s)) :
    ({ s with deployments } : State).With repository (At { s with deployments }) :=
  holds.same stays rfl rfl rfl

theorem ForgeCore.OnDisk.carries (onDisk : core.OnDisk) {floor ceiling : Nat} {next : State}
    (moves : Moves (call.footprint core.state floor ceiling) core.state next) :
    core.state.Carries next (call.footprint core.state floor ceiling) :=
  moves.carries onDisk.state.ordered onDisk.state.rooted

theorem Effect.onward (effect : Effect call core core') (onDisk : core.OnDisk) :
    core.Onward core' := by
  obtain ⟨writes, journal, known⟩ := effect.written
  have follows (next : State) (carried : Option AuditEntry)
      (member : Written.snapshot next carried ∈ writes) :
      Moves (call.footprint core.state core.uuids core'.uuids) core.state next :=
    (known _ member).1.2
  refine ⟨effect.uuids, fun onDisk => effect.onDisk onDisk, ⟨writes, journal.symm⟩, ?_⟩
  intro repository At stays old keeps
  have undrawn : ¬(call.footprint core.state core.uuids core'.uuids).drawn repository :=
    fun drawn => absurd drawn.1 (Nat.not_le.mpr old)
  constructor
  · exact keeps.memory.carried stays (onDisk.carries effect.moves) undrawn
  · refine tables_cases (P := fun s => s.With repository (At s)) journal
      (fun write member => (known write member).1.appends) (State.With.deployed stays) keeps.tables ?_
    exact fun next carried member =>
      keeps.memory.carried stays (onDisk.carries (follows next carried member)) undrawn

theorem Surroundings.onward (moved : Surroundings Own core core') : core.Onward core' := by
  obtain ⟨writes, journal, known⟩ := moved.written
  refine ⟨moved.uuids, fun onDisk => moved.onDisk onDisk, ⟨writes, journal.symm⟩, ?_⟩
  intro repository At stays old keeps
  constructor
  · obtain ⟨users, accounts, bots, grants, organizations, auth, deployments, same⟩ := moved.state
    rw [same]
    exact keeps.memory.same stays rfl rfl rfl
  · refine tables_cases (P := fun s => s.With repository (At s)) journal
      (fun write member => (known write member).appends) (State.With.deployed stays) keeps.tables ?_
    intro next carried member
    obtain ⟨-, -, users, accounts, bots, grants, organizations, auth, deployments, rfl⟩ :=
      known _ member
    exact keeps.memory.same stays rfl rfl rfl

/-- A restart starts from the tables. -/
theorem Reopens.tables (reopens : Reopens core core') (onDisk : core.OnDisk) :
    ∃ users accounts bots botRepoGrants organizations auth deployments counters branchProtections,
      core'.state = { core.tables with
        users, accounts, bots, botRepoGrants, organizations, auth, deployments, counters
        branchProtections } := by
  obtain ⟨now, auth, same⟩ := reopens.state
  obtain ⟨deployments, counters, rules, repaired⟩ :=
    (State.repairs_loaded onDisk.tables.coherent.keyed now).same
  rw [same, repaired]
  exact ⟨_, _, _, _, _, auth, deployments, counters, rules, rfl⟩

theorem Reopens.journal_prefix (reopens : Reopens core core') : core.journal <+: core'.journal := by
  rcases reopens.journal with same | ⟨-, written⟩
  · exact same ▸ List.prefix_rfl
  · exact ⟨_, written.symm⟩

theorem Reopens.tables_cases (reopens : Reopens core core') {P : State → Prop}
    (aside : ∀ s deployments, P s → P { s with deployments }) (before : P core.tables)
    (after : P core'.state) : P core'.tables := by
  rcases reopens.journal with same | ⟨-, written⟩
  · unfold ForgeCore.tables at before ⊢
    rwa [same]
  · refine Core.tables_cases written (fun write member => ?_) aside before fun next carried member => ?_
    · cases List.mem_singleton.mp member
      exact True.intro
    · cases List.mem_singleton.mp member
      exact after

theorem Reopens.onward (reopens : Reopens core core') (onDisk : core.OnDisk) :
    core.Onward core' := by
  refine ⟨reopens.uuids, fun onDisk => reopens.onDisk onDisk, reopens.journal_prefix, ?_⟩
  intro repository At stays old keeps
  have memory : core'.state.With repository (At core'.state) := by
    obtain ⟨users, accounts, bots, grants, organizations, auth, deployments, counters, rules, same⟩ :=
      reopens.tables onDisk
    rw [same]
    exact keeps.tables.same stays rfl rfl rfl
  exact ⟨memory, reopens.tables_cases (P := fun s => s.With repository (At s))
    (State.With.deployed stays) keeps.tables memory⟩

/-- What a committed snapshot tells of a repository in it. -/
theorem ForgeCore.keeps_committed {repo : Repository} {slug : Slug} {At : State → Slug → Prop}
    (stays : Stays At) (proper : core.state.Proper core.uuids)
    (tables : ∃ deployments, core.tables = { core.state with deployments })
    (live : core.state.repos.lookup slug = some repo) (holds : At core.state slug) :
    core.Keeps repo.id At := by
  have memory : core.state.With repo.id (At core.state) := by
    intro other stored found own
    have same : other = slug := by
      by_contra apart
      exact apart (proper.coherent.identified.repos _ _ _ _ repo.id found live own rfl)
    rw [same]
    exact holds
  refine ⟨memory, ?_⟩
  obtain ⟨deployments, same⟩ := tables
  rw [same]
  exact State.With.deployed stays _ deployments memory

end Steps

section Settled

variable {Own : AuditEntry → Prop} {call : Call} {core core' : ForgeCore}
variable {print : Footprint} {s s' : State} {id : Uuid}

theorem Moves.settled (moves : Moves print s s') (settled : s.Settled id) (known : ¬print.drawn id) :
    s'.Settled id := by
  refine moves.everyPull settled (fun pr opened own => ?_) fun pr pr' step merged own => ?_
  · exact absurd (own ▸ opened.drawn) known
  · have before := merged (step.id.symm.trans own)
    rcases step.merge with same | ⟨-, mergeSha, now, rfl⟩
    · rw [same.merged, before]
    · rfl

/-- In memory and in the tables. -/
def ForgeCore.Settled (core : ForgeCore) (id : Uuid) : Prop :=
  core.state.Settled id ∧ core.tables.Settled id

theorem Effect.settled (effect : Effect call core core') (settled : core.Settled id)
    (old : id < core.uuids) : core'.Settled id := by
  obtain ⟨writes, journal, known⟩ := effect.written
  have undrawn : ¬(call.footprint core.state core.uuids core'.uuids).drawn id :=
    fun drawn => absurd drawn.1 (Nat.not_le.mpr old)
  refine ⟨effect.moves.settled settled.1 undrawn, ?_⟩
  refine tables_cases (P := fun s => s.Settled id) journal
    (fun write member => (known write member).1.appends) (fun _ _ settled => settled) settled.2 ?_
  exact fun next carried member => (known _ member).1.2.settled settled.1 undrawn

theorem Surroundings.settled (moved : Surroundings Own core core') (settled : core.Settled id) :
    core'.Settled id := by
  obtain ⟨writes, journal, known⟩ := moved.written
  constructor
  · obtain ⟨users, accounts, bots, grants, organizations, auth, deployments, same⟩ := moved.state
    rw [same]
    exact settled.1
  · refine tables_cases (P := fun s => s.Settled id) journal
      (fun write member => (known write member).appends) (fun _ _ settled => settled) settled.2 ?_
    intro next carried member
    obtain ⟨-, -, users, accounts, bots, grants, organizations, auth, deployments, rfl⟩ :=
      known _ member
    exact settled.1

theorem Reopens.settled (reopens : Reopens core core') (onDisk : core.OnDisk)
    (settled : core.Settled id) : core'.Settled id := by
  have memory : core'.state.Settled id := by
    obtain ⟨users, accounts, bots, grants, organizations, auth, deployments, counters, rules, same⟩ :=
      reopens.tables onDisk
    rw [same]
    exact settled.2
  exact ⟨memory, reopens.tables_cases (P := fun s => s.Settled id) (fun _ _ settled => settled)
    settled.2 memory⟩

end Settled

end Jeryu.Core
