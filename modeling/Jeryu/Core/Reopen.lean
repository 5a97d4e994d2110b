import Jeryu.Core.Numbering
import Jeryu.Library.Lives

/-!
What the database holds, and what a restart makes of it. Every snapshot that becomes durable is a
state the records of which are in order, and so is the state a reopened store starts from.
-/

namespace Jeryu.Core

open KeyedMap HashMap LockProgram Relation

/-- What a durable write leaves in the tables. The deployments are not in the snapshot. -/
def Written.onto (tables : State) : Written → State
  | .receipt _ => tables
  | .snapshot next _ => { next with deployments := tables.deployments }
  | .rows append => append tables

def tablesOf (journal : List Written) : State := journal.foldl Written.onto .empty

def ForgeCore.tables (core : ForgeCore) : State := tablesOf core.journal

/-- The largest number among the keys of a repository, zero if it has none. -/
def lastOf (keys : List (Scoped Nat)) (slug : Slug) : Nat :=
  ((keys.filter fun key => key.1 == slug.1 && key.2.1 == slug.2).map fun key => key.2.2).foldr max 0

namespace State

def backfillCounters (state : State) (slug : Slug) : State :=
  if (state.counters.lookup slug).isSome then state
  else { state with
    counters := state.counters.insert slug
      { issue := lastOf state.issues.keys slug, pull := lastOf state.pulls.keys slug } }

def backfillMissingCounters (state : State) : State :=
  (state.repos.values.map Repository.slug).foldl backfillCounters state

def backfillDefaultBranchProtections (state : State) (now : DateTime) : State :=
  state.repos.values.foldl (fun state repo => state.ensureDefaultBranchProtection repo now) state

/-- What `SqliteStore::open` makes of the tables. The account methods prune their own tables
    besides. -/
def loaded (tables : State) (now : DateTime) : State :=
  (tables.refreshDeploymentSlugs.backfillMissingCounters).backfillDefaultBranchProtections now

end State

/-- A restart: what was in memory is lost, and what the store loads is written back when it had to
    be repaired. -/
structure Reopens (core core' : ForgeCore) : Prop where
  uuids : core.uuids ≤ core'.uuids
  storage : core'.storage.isSome = core.storage.isSome
  state : ∃ now auth, core'.state = { core.tables.loaded now with auth }
  journal : core'.journal = core.journal ∨
    core'.state.stageState = .ok () ∧ core'.journal = core.journal ++ [.snapshot core'.state none]

section Repaired

/-- The tables with whatever the repairs on opening rewrite. -/
structure State.Repairs (s s' : State) : Prop where
  same : ∃ deployments counters branchProtections,
    s' = { s with deployments, counters, branchProtections }
  counters : s'.counters.Every fun slug _ => s.Live slug ∨ ∃ value, s.counters.lookup slug = some value
  grown : ∀ slug, s.lastNumber slug ≤ s'.lastNumber slug
  rules : s'.branchProtections.Every fun key rule =>
    s.branchProtections.lookup key = some rule ∨ (rule.key = key ∧ s.Live (Scoped.slug key))

variable {s s' : State}

theorem State.Repairs.refl (s : State) : s.Repairs s where
  same := ⟨s.deployments, s.counters, s.branchProtections, rfl⟩
  counters _ value found := .inr ⟨value, found⟩
  grown _ := Nat.le_refl _
  rules _ _ found := .inl found

theorem State.Repairs.trans {last : State} (first : s.Repairs s') (second : s'.Repairs last) :
    s.Repairs last := by
  obtain ⟨deployments, counters, rules, same⟩ := first.same
  have live (slug : Slug) (there : s'.Live slug) : s.Live slug := by
    rw [same] at there
    exact there
  obtain ⟨deployments', counters', rules', same'⟩ := second.same
  constructor
  · exact ⟨deployments', counters', rules', by rw [same', same]⟩
  · intro slug value found
    rcases second.counters slug value found with there | ⟨old, stored⟩
    · exact .inl (live slug there)
    · exact first.counters slug old stored
  · exact fun slug => (first.grown slug).trans (second.grown slug)
  · intro key rule found
    rcases second.rules key rule found with stored | ⟨own, there⟩
    · exact first.rules key rule stored
    · exact .inr ⟨own, live _ there⟩

theorem State.repairs_slugs (s : State) : s.Repairs s.refreshDeploymentSlugs where
  same := ⟨_, s.counters, s.branchProtections, rfl⟩
  counters _ value found := .inr ⟨value, found⟩
  grown _ := Nat.le_refl _
  rules _ _ found := .inl found

theorem State.repairs_counters {slug : Slug} (live : s.Live slug) :
    s.Repairs (s.backfillCounters slug) := by
  unfold State.backfillCounters
  by_cases counted : (s.counters.lookup slug).isSome = true
  · rw [if_pos counted]
    exact .refl s
  · rw [if_neg counted]
    have missing : s.counters.lookup slug = none := by simpa using counted
    constructor
    · exact ⟨s.deployments, _, s.branchProtections, rfl⟩
    · intro other value found
      rw [lookup_insert_if] at found
      split at found
      · next here => exact .inl (here ▸ live)
      · exact .inr ⟨value, found⟩
    · intro other
      unfold State.lastNumber
      rw [lookup_insert_if]
      split
      · next here =>
        rw [here, missing]
        exact Nat.zero_le _
      · exact Nat.le_refl _
    · exact fun key rule found => .inl found

theorem State.repairs_rule {repo : Repository} (live : s.Live repo.slug) (now : DateTime) :
    s.Repairs (s.ensureDefaultBranchProtection repo now) := by
  rw [State.ensureDefaultBranchProtection_eq]
  constructor
  · exact ⟨s.deployments, s.counters, _, rfl⟩
  · exact fun slug value found => .inr ⟨value, found⟩
  · exact fun slug => Nat.le_refl _
  · intro key rule found
    rcases State.lookup_ensureDefaultBranchProtection found with stored | ⟨rfl, -, rfl⟩
    · exact .inl stored
    · exact .inr ⟨rfl, live⟩

theorem State.Repairs.live (repairs : s.Repairs s') {slug : Slug} (live : s.Live slug) :
    s'.Live slug := by
  obtain ⟨deployments, counters, rules, same⟩ := repairs.same
  rw [same]
  exact live

theorem State.repairs_foldl {α : Type} {repair : State → α → State} {items : List α}
    (step : ∀ s', s.Repairs s' → ∀ item ∈ items, s'.Repairs (repair s' item)) :
    s.Repairs (items.foldl repair s) := by
  have all (done rest : List α) (split : items = done ++ rest) :
      s.Repairs (done.foldl repair s) → s.Repairs (rest.foldl repair (done.foldl repair s)) := by
    intro before
    induction rest generalizing done with
    | nil => exact before
    | cons item rest ih =>
      have member : item ∈ items := by simp [split]
      have here := before.trans (step _ before item member)
      have next := ih (done ++ [item]) (by simp [split]) (by simpa using here)
      simpa using next
  exact all [] items rfl (.refl s)

theorem State.repairs_loaded (keyed : s.WellKeyed) (now : DateTime) : s.Repairs (s.loaded now) := by
  have listed {s' : State} (same : s'.repos = s.repos) {repo : Repository}
      (member : repo ∈ s'.repos.values) : s.Live repo.slug := by
    obtain ⟨slug, found⟩ := mem_values.mp (same ▸ member)
    exact ⟨repo, (keyed.repos _ _ found).1 ▸ found⟩
  have repos {s' : State} (repairs : s.Repairs s') : s'.repos = s.repos := by
    obtain ⟨deployments, counters, rules, same⟩ := repairs.same
    rw [same]
  have slugs : s.Repairs s.refreshDeploymentSlugs := s.repairs_slugs
  have counted : s.refreshDeploymentSlugs.Repairs s.refreshDeploymentSlugs.backfillMissingCounters := by
    refine State.repairs_foldl fun s' repairs slug member => ?_
    obtain ⟨repo, stored, rfl⟩ := List.mem_map.mp member
    exact State.repairs_counters (repairs.live (slugs.live (listed (repos slugs) stored)))
  have both := slugs.trans counted
  refine both.trans (State.repairs_foldl fun s' repairs repo member => ?_)
  exact State.repairs_rule (repairs.live (both.live (listed (repos both) member))) now

end Repaired

/-- What every durable snapshot has: its records are coherent, each belongs to a repository, and
    none is numbered past its repository's counter. -/
structure State.Proper (s : State) (uuids : Nat) : Prop where
  coherent : s.Coherent uuids
  rooted : s.Rooted
  numbered : s.Numbered

section Proper

variable {s s' : State} {uuids uuids' : Nat} {print : Footprint}

theorem proper_empty (uuids : Nat) : State.empty.Proper uuids :=
  ⟨coherent_empty _, rooted_empty, numbered_empty⟩

theorem State.Proper.mono (proper : s.Proper uuids) (more : uuids ≤ uuids') : s.Proper uuids' :=
  { proper with coherent := proper.coherent.mono more }

/-- The account tables and the deployments take no part in it. -/
theorem State.Proper.aside (proper : s.Proper uuids)
    (users accounts bots botRepoGrants organizations auth deployments) :
    ({ s with users, accounts, bots, botRepoGrants, organizations, auth, deployments } :
      State).Proper uuids := by
  obtain ⟨⟨keyed, identified, recorded⟩, rooted, numbered⟩ := proper
  exact ⟨⟨{ keyed with }, { identified with }, recorded⟩, { rooted with },
    numbered.same rfl rfl rfl⟩

theorem State.Proper.ordered (proper : s.Proper uuids) : s.Ordered := by
  intro owner repo
  cases found : s.pulls.lookup (owner, repo, (s.nextRecordNumber owner repo).1) with
  | none => rfl
  | some pr =>
    obtain ⟨issue, known, -⟩ := proper.numbered.backed _ _ found
    have below : (s.nextRecordNumber owner repo).1 ≤ s.lastNumber (owner, repo) :=
      proper.numbered.counted _ _ known
    have next : (s.nextRecordNumber owner repo).1 = s.lastNumber (owner, repo) + 1 := rfl
    omega

theorem Moves.proper (moves : Moves print s s') (proper : s.Proper uuids) (more : uuids ≤ uuids')
    (drawn : ∀ id, print.drawn id → uuids ≤ id ∧ id < uuids') (staged : s'.stageState = .ok ()) :
    s'.Proper uuids' := by
  have coherent : s'.Coherent uuids' := by
    refine moves.coherent (proper.coherent.mono more) (fun id new => (drawn id new).2) ?_
    intro id new slug repo found
    have below := proper.coherent.identified.repoIds _ _ found
    exact Nat.ne_of_lt (Nat.lt_of_lt_of_le below (drawn id new).1)
  have rooted : s'.Rooted := State.rooted_of_staged staged coherent.keyed
  refine ⟨coherent, rooted, ?_⟩
  cases moves with
  | touches writes => exact (Touches.numbered writes proper.numbered).1
  | shift may moved => exact (moved.numbered proper.rooted proper.numbered).1

theorem State.Repairs.proper (repairs : s.Repairs s') (proper : s.Proper uuids) :
    s'.Proper uuids := by
  obtain ⟨⟨keyed, identified, recorded⟩, rooted, numbered⟩ := proper
  obtain ⟨counted, grown, rules⟩ := (⟨repairs.counters, repairs.grown, repairs.rules⟩ : _ ∧ _ ∧ _)
  obtain ⟨deployments, counters, branchProtections, rfl⟩ := repairs.same
  refine ⟨⟨{ keyed with branchProtections := fun key rule found => ?_ }, { identified with },
    recorded⟩, { rooted with
      counters := fun slug value found => ?_
      branchProtections := fun key rule found => ?_ }, ?_⟩
  · rcases rules key rule found with stored | ⟨own, -⟩
    · exact keyed.branchProtections _ _ stored
    · exact own
  · rcases rules key rule found with stored | ⟨-, live⟩
    · exact rooted.branchProtections _ _ stored
    · exact live
  · rcases counted slug value found with live | ⟨old, stored⟩
    · exact live
    · exact rooted.counters _ _ stored
  · exact ⟨fun key issue found => (numbered.counted _ _ found).trans (grown _), numbered.backed⟩

theorem State.Proper.loaded (proper : s.Proper uuids) (now : DateTime) :
    (s.loaded now).Proper uuids :=
  (State.repairs_loaded proper.coherent.keyed now).proper proper

end Proper

section Tables

/-- Rows appended outside the snapshot are deployments. -/
def Written.Appends : Written → Prop
  | .rows append => ∀ tables : State, ∃ deployments, append tables = { tables with deployments }
  | _ => True

theorem Written.Follows.appends {print : Footprint} {s : State} {write : Written}
    (follows : write.Follows print s) : write.Appends := by
  cases write with
  | receipt entry => exact True.intro
  | snapshot next receipt => exact True.intro
  | rows append => exact follows.2

/-- The tables hold the last snapshot, but for the deployments. -/
theorem tablesOf_append (journal : List Written) {writes : List Written}
    (appends : ∀ write ∈ writes, write.Appends) : ∃ base deployments,
    tablesOf (journal ++ writes) = { base with deployments } ∧
      (base = tablesOf journal ∨ ∃ receipt, Written.snapshot base receipt ∈ writes) := by
  induction writes using List.reverseRecOn with
  | nil => exact ⟨tablesOf journal, (tablesOf journal).deployments, by simp, .inl rfl⟩
  | append_singleton writes write ih =>
    obtain ⟨base, deployments, same, origin⟩ :=
      ih fun earlier member => appends earlier (List.mem_append_left _ member)
    have last : tablesOf (journal ++ (writes ++ [write])) =
        write.onto (tablesOf (journal ++ writes)) := by
      unfold tablesOf
      rw [← List.append_assoc, List.foldl_append]
      rfl
    have earlier : base = tablesOf journal ∨
        ∃ receipt, Written.snapshot base receipt ∈ writes ++ [write] := by
      rcases origin with start | ⟨receipt, member⟩
      · exact .inl start
      · exact .inr ⟨receipt, List.mem_append_left _ member⟩
    cases write with
    | receipt entry => exact ⟨base, deployments, last.trans same, earlier⟩
    | snapshot next receipt =>
      exact ⟨next, _, last, .inr ⟨receipt, List.mem_append_right _ List.mem_cons_self⟩⟩
    | rows append =>
      obtain ⟨deployments', rows⟩ := appends (.rows append) (by simp) (tablesOf (journal ++ writes))
      exact ⟨base, deployments', last.trans (rows.trans (by rw [same])), earlier⟩

end Tables

/-- What the surroundings make durable between two sections: the account methods save what they
    write with everything else as it is, under receipts of their own. -/
def Written.Aside (Own : AuditEntry → Prop) (s : State) : Written → Prop
  | .receipt entry => Own entry
  | .snapshot next carried => next.stageState = .ok () ∧ (∀ entry, carried = some entry → Own entry) ∧
      ∃ users accounts bots botRepoGrants organizations auth deployments, next =
        { s with users, accounts, bots, botRepoGrants, organizations, auth, deployments }
  | .rows append => ∀ tables, ∃ deployments, append tables = { tables with deployments }

/-- What the surroundings of a store on disk may do. -/
structure Surroundings (Own : AuditEntry → Prop) (core core' : ForgeCore) : Prop where
  uuids : core.uuids ≤ core'.uuids
  storage : core'.storage.isSome = core.storage.isSome
  state : ∃ users accounts bots botRepoGrants organizations auth deployments, core'.state =
    { core.state with users, accounts, bots, botRepoGrants, organizations, auth, deployments }
  written : ∃ writes, core'.journal = core.journal ++ writes ∧
    ∀ write ∈ writes, write.Aside Own core.state

/-- The core over a store, its journal included. The receipts the account methods write are of
    the actions in `Own`. -/
def onDisk (Own : AuditEntry → Prop) : System ForgeCore Call.Reply where
  program call := call.method.run
  ambient := Surroundings Own
  admits := Admits

/-- A store is attached, and neither memory nor the tables hold anything out of order. -/
structure ForgeCore.OnDisk (core : ForgeCore) : Prop where
  attached : core.storage.isSome = true
  state : core.state.Proper core.uuids
  tables : core.tables.Proper core.uuids

section OnDisk

variable {Own : AuditEntry → Prop} {call : Call} {core core' : ForgeCore}

theorem ForgeCore.OnDisk.coherent (onDisk : core.OnDisk) : core.Coherent := onDisk.state.coherent

/-- Every snapshot among the writes being in order, so are the tables. -/
theorem ForgeCore.OnDisk.tables_append (onDisk : core.OnDisk) (uuids : core.uuids ≤ core'.uuids)
    {writes : List Written} (journal : core'.journal = core.journal ++ writes)
    (appends : ∀ write ∈ writes, write.Appends)
    (proper : ∀ next receipt, Written.snapshot next receipt ∈ writes → next.Proper core'.uuids) :
    core'.tables.Proper core'.uuids := by
  obtain ⟨base, deployments, same, origin⟩ := tablesOf_append core.journal appends
  have held : core'.tables = { base with deployments } := by
    unfold ForgeCore.tables
    rw [journal, same]
  have based : base.Proper core'.uuids := by
    rcases origin with rfl | ⟨receipt, member⟩
    · exact onDisk.tables.mono uuids
    · exact proper base receipt member
  rw [held]
  exact based.aside base.users base.accounts base.bots base.botRepoGrants base.organizations base.auth
    deployments

theorem Effect.onDisk (effect : Effect call core core') (onDisk : core.OnDisk) : core'.OnDisk := by
  obtain ⟨writes, journal, known⟩ := effect.written
  refine ⟨effect.storage.trans onDisk.attached, ?_, ?_⟩
  · rcases effect.staged onDisk.attached with staged | ⟨deployments, same⟩
    · exact effect.moves.proper onDisk.state effect.uuids (fun id drawn => drawn) staged
    · rw [same]
      exact (onDisk.state.mono effect.uuids).aside core.state.users core.state.accounts
        core.state.bots core.state.botRepoGrants core.state.organizations core.state.auth deployments
  · refine onDisk.tables_append effect.uuids journal (fun write member => (known write member).1.appends)
      fun next receipt member => ?_
    obtain ⟨staged, moves⟩ := (known _ member).1
    exact moves.proper onDisk.state effect.uuids (fun id drawn => drawn) staged

theorem Written.Aside.appends {s : State} {write : Written} (aside : write.Aside Own s) :
    write.Appends := by
  cases write with
  | receipt entry => exact True.intro
  | snapshot next receipt => exact True.intro
  | rows append => exact aside

theorem Surroundings.onDisk (moved : Surroundings Own core core') (onDisk : core.OnDisk) :
    core'.OnDisk := by
  obtain ⟨writes, journal, known⟩ := moved.written
  refine ⟨moved.storage.trans onDisk.attached, ?_, ?_⟩
  · obtain ⟨users, accounts, bots, grants, organizations, auth, deployments, same⟩ := moved.state
    rw [same]
    exact (onDisk.state.mono moved.uuids).aside ..
  · refine onDisk.tables_append moved.uuids journal (fun write member => (known write member).appends)
      fun next receipt member => ?_
    obtain ⟨-, -, users, accounts, bots, grants, organizations, auth, deployments, rfl⟩ := known _ member
    exact (onDisk.state.mono moved.uuids).aside ..

theorem Reopens.proper (reopens : Reopens core core') (onDisk : core.OnDisk) :
    core'.state.Proper core'.uuids := by
  obtain ⟨now, auth, same⟩ := reopens.state
  rw [same]
  exact ((onDisk.tables.mono reopens.uuids).loaded now).aside _ _ _ _ _ auth _

theorem Reopens.onDisk (reopens : Reopens core core') (onDisk : core.OnDisk) : core'.OnDisk := by
  have proper := reopens.proper onDisk
  refine ⟨reopens.storage.trans onDisk.attached, proper, ?_⟩
  rcases reopens.journal with same | ⟨-, written⟩
  · exact onDisk.tables_append reopens.uuids (by rw [same, List.append_nil])
      (fun _ member => absurd member List.not_mem_nil)
      fun _ _ member => absurd member List.not_mem_nil
  · refine onDisk.tables_append reopens.uuids written (fun write member => ?_)
      fun next receipt member => ?_
    · cases List.mem_singleton.mp member
      exact True.intro
    · cases List.mem_singleton.mp member
      exact proper

end OnDisk

end Jeryu.Core
