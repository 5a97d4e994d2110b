import Jeryu.Library.SortedSet
import Jeryu.Library.Text
import Jeryu.Proof.Engine

/-!
The plan of a change set: who owns its paths, and which lanes prove it.
-/

namespace Jeryu.Proof

open KeyedMap SortedSet Text

structure PathPattern where
  pattern : String
  deriving DecidableEq

/-- Exact names, prefixes and whole trees. -/
def PathPattern.isMatch (rule : PathPattern) (path : String) : Bool :=
  if rule.pattern = "**" || rule.pattern = "*" then true
  else match stripSuffix rule.pattern "/**" with
    | some tree => path = tree || startsWith path (tree ++ "/")
    | none => match stripSuffix rule.pattern "*" with
      | some start => startsWith path start
      | none => rule.pattern = path

structure OwnerRule where
  pattern : PathPattern
  owners : List String

structure TestRule where
  pattern : PathPattern
  lanes : List String

structure GeneratedZone where
  pattern : PathPattern
  allowAgentEdits : Bool
  reason : String

structure ChangedPath where
  path : String
  sensitive : Bool

structure ChangeSet where
  repo : String
  pr : String
  headSha : String
  paths : List ChangedPath
  agentAuthored : Bool

structure ProofEngine where
  ownerRules : List OwnerRule
  testRules : List TestRule
  generatedZones : List GeneratedZone
  lanes : HashMap String ProofLane

def ProofEngine.new (ownerRules : List OwnerRule) (testRules : List TestRule)
    (generatedZones : List GeneratedZone) (lanes : List ProofLane) : ProofEngine :=
  ⟨ownerRules, testRules, generatedZones, lanes.foldl (fun byName lane => byName.insert lane.name lane) ∅⟩

/-- What the paths so far have brought. The sets are in no order yet. -/
structure Gathered where
  owners : List String
  laneNames : List String
  paths : List String

namespace ProofEngine

variable (engine : ProofEngine)

def pathOwners (path : String) : List String :=
  (engine.ownerRules.filter fun rule => rule.pattern.isMatch path).flatMap OwnerRule.owners

def pathLanes (path : String) : List String :=
  (engine.testRules.filter fun rule => rule.pattern.isMatch path).flatMap TestRule.lanes

/-- The zone that decides: the first one the path lies in. -/
def zoneOf (path : String) : Option GeneratedZone :=
  engine.generatedZones.find? fun zone => zone.pattern.isMatch path

def planPath (agentAuthored : Bool) (gathered : Gathered) (changed : ChangedPath) : Except ProofBlocker Gathered := do
  if let some zone := engine.zoneOf changed.path then
    if agentAuthored && !zone.allowAgentEdits then
      throw (.generatedZoneEditDenied changed.path zone.reason)
  if (engine.pathOwners changed.path).isEmpty then throw (.ownerlessPath changed.path)
  if (engine.pathLanes changed.path).isEmpty then throw (.unmappedProofLane changed.path)
  let policy := if changed.sensitive then ["policy"] else []
  return ⟨gathered.owners ++ engine.pathOwners changed.path,
    gathered.laneNames ++ engine.pathLanes changed.path ++ policy, gathered.paths ++ [changed.path]⟩

def laneNamed (name : String) : Except ProofBlocker ProofLane :=
  match engine.lanes.lookup name with
  | some lane => .ok lane
  | none => .error (.unmappedProofLane name)

/-- The plan, or the first blocker. -/
def plan (changeSet : ChangeSet) : Except ProofBlocker ProofPlan := do
  let gathered ← changeSet.paths.foldlM (engine.planPath changeSet.agentAuthored) ⟨[], [], []⟩
  let lanes ← (ordered gathered.laneNames).mapM engine.laneNamed
  return { repo := changeSet.repo, pr := changeSet.pr, headSha := changeSet.headSha, paths := gathered.paths,
           owners := ordered gathered.owners, lanes }

end ProofEngine


/-- The rules a plan is made by. No two lanes have one name. -/
structure RuleSet where
  ownerRules : List OwnerRule
  testRules : List TestRule
  generatedZones : List GeneratedZone
  lanes : List ProofLane
  distinct : (lanes.map ProofLane.name).Nodup

def RuleSet.engine (rules : RuleSet) : ProofEngine :=
  .new rules.ownerRules rules.testRules rules.generatedZones rules.lanes

namespace RuleSet

variable (rules : RuleSet) (change : ChangeSet)

/-- A rule names the owner for a path of the change. -/
def Owns (owner : String) : Prop :=
  ∃ changed ∈ change.paths, ∃ rule ∈ rules.ownerRules, rule.pattern.isMatch changed.path = true ∧ owner ∈ rule.owners

/-- The change has to pass the lane. -/
def Reaches (lane : String) : Prop :=
  (∃ changed ∈ change.paths, ∃ rule ∈ rules.testRules, rule.pattern.isMatch changed.path = true ∧ lane ∈ rule.lanes) ∨
    lane = "policy" ∧ ∃ changed ∈ change.paths, changed.sensitive = true

/-- The path lies in a zone that is open to agents, or in one that is not. -/
def LiesIn (allows : Bool) (path : String) : Prop :=
  ∃ zone ∈ rules.generatedZones, zone.pattern.isMatch path = true ∧ zone.allowAgentEdits = allows

/-- What a change needs, zones apart. -/
structure Covers : Prop where
  owned : ∀ changed ∈ change.paths, ∃ rule ∈ rules.ownerRules, rule.pattern.isMatch changed.path = true ∧ rule.owners ≠ []
  mapped : ∀ changed ∈ change.paths, ∃ rule ∈ rules.testRules, rule.pattern.isMatch changed.path = true ∧ rule.lanes ≠ []
  defined : ∀ lane, rules.Reaches change lane → ∃ stored ∈ rules.lanes, stored.name = lane

/-- No path of an agent's change lies in a zone closed to agents. -/
def Ungenerated : Prop := change.agentAuthored = true → ∀ changed ∈ change.paths, ¬rules.LiesIn false changed.path

/-- The same rules and paths, in any order. -/
structure Permuted (rules' : RuleSet) (change' : ChangeSet) : Prop where
  owners : rules'.ownerRules.Perm rules.ownerRules
  tests : rules'.testRules.Perm rules.testRules
  zones : rules'.generatedZones.Perm rules.generatedZones
  lanes : rules'.lanes = rules.lanes
  paths : change'.paths.Perm change.paths
  agent : change'.agentAuthored = change.agentAuthored

/-- The plan is complete, does not depend on any order, and fails closed. -/
structure Plans : Prop where
  accepted : (∃ plan, rules.engine.plan change = .ok plan) ↔ rules.Covers change ∧ rules.Ungenerated change
  planned : ∀ plan, rules.engine.plan change = .ok plan →
    plan.paths = change.paths.map ChangedPath.path ∧
    plan.owners.Pairwise (· < ·) ∧ (∀ owner, owner ∈ plan.owners ↔ rules.Owns change owner) ∧
    (plan.lanes.map ProofLane.name).Pairwise (· < ·) ∧
    ∀ lane, lane ∈ plan.lanes ↔ lane ∈ rules.lanes ∧ rules.Reaches change lane.name
  permuted : ∀ rules' change', rules.Permuted change rules' change' →
    ((∃ plan, rules'.engine.plan change' = .ok plan) ↔ ∃ plan, rules.engine.plan change = .ok plan) ∧
    ∀ plan plan', rules.engine.plan change = .ok plan → rules'.engine.plan change' = .ok plan' →
      plan'.owners = plan.owners ∧ plan'.lanes = plan.lanes
  refused : ∀ before after added, change.paths = before ++ after → (¬∃ plan, rules.engine.plan change = .ok plan) →
    ¬∃ plan, rules.engine.plan { change with paths := before ++ added :: after } = .ok plan

/-- An agent's change that nothing else stops lies in a closed zone, and wherever it does, in an
    open one as well: the order of the zones decides. -/
def Overlooks : Prop :=
  change.agentAuthored = true ∧ rules.Covers change ∧ (∃ changed ∈ change.paths, rules.LiesIn false changed.path) ∧
    ∀ changed ∈ change.paths, rules.LiesIn false changed.path → rules.LiesIn true changed.path

end RuleSet

section Lanes

variable {rules : RuleSet} {lane : ProofLane} {name : String}

theorem lookup_lanes : rules.engine.lanes.lookup name = some lane ↔ lane ∈ rules.lanes ∧ lane.name = name := by
  have standing : rules.engine.lanes.lookup name = KeyedFold.standing ProofLane.name .put rules.lanes name :=
    @KeyedFold.lookup_foldl_applyAt _ _ _ _ ProofLane.name KeyedFold.Action.put rules.lanes name
  rw [standing, KeyedFold.standing_eq_some_iff]
  constructor
  · rintro ⟨before, event, after, same, own, put, -⟩
    cases put
    rw [same]
    exact ⟨by simp, own⟩
  · rintro ⟨member, rfl⟩
    obtain ⟨before, after, same⟩ := List.append_of_mem member
    refine ⟨before, lane, after, same, rfl, rfl, fun later listed again => ?_⟩
    have distinct := rules.distinct
    rw [same, List.map_append, List.nodup_append] at distinct
    have apart := (List.nodup_cons.mp distinct.2.1).1
    exact absurd (again ▸ List.mem_map_of_mem listed) apart

theorem laneNamed_ok : rules.engine.laneNamed name = .ok lane ↔ lane ∈ rules.lanes ∧ lane.name = name := by
  rw [← lookup_lanes]
  unfold ProofEngine.laneNamed
  cases rules.engine.lanes.lookup name <;> simp

end Lanes

section Paths

variable {engine : ProofEngine} {agent : Bool} {gathered gathered' : Gathered} {changed : ChangedPath}
variable {paths : List ChangedPath}

/-- What lets one path through. -/
structure Clears (engine : ProofEngine) (agent : Bool) (changed : ChangedPath) : Prop where
  zone : ∀ zone, engine.zoneOf changed.path = some zone → agent = true → zone.allowAgentEdits = true
  owners : engine.pathOwners changed.path ≠ []
  lanes : engine.pathLanes changed.path ≠ []

def Gathered.add (engine : ProofEngine) (gathered : Gathered) (changed : ChangedPath) : Gathered :=
  ⟨gathered.owners ++ engine.pathOwners changed.path,
    gathered.laneNames ++ engine.pathLanes changed.path ++ (if changed.sensitive then ["policy"] else []),
    gathered.paths ++ [changed.path]⟩

theorem planPath_ok : engine.planPath agent gathered changed = .ok gathered' ↔
    Clears engine agent changed ∧ gathered' = gathered.add engine changed := by
  have rest : (do
      if (engine.pathOwners changed.path).isEmpty then throw (.ownerlessPath changed.path)
      if (engine.pathLanes changed.path).isEmpty then throw (.unmappedProofLane changed.path)
      return gathered.add engine changed : Except ProofBlocker Gathered) = .ok gathered' ↔
      (engine.pathOwners changed.path ≠ [] ∧ engine.pathLanes changed.path ≠ []) ∧
        gathered' = gathered.add engine changed := by
    cases owners : engine.pathOwners changed.path with
    | nil => simp [throw, throwThe, MonadExceptOf.throw, bind, Except.bind]
    | cons owner others =>
      cases lanes : engine.pathLanes changed.path with
      | nil => simp [throw, throwThe, MonadExceptOf.throw, bind, Except.bind]
      | cons lane others => simp [pure, Except.pure, eq_comm]
  unfold ProofEngine.planPath
  cases lies : engine.zoneOf changed.path with
  | none =>
    refine rest.trans (and_congr_left fun _ => ?_)
    have allows : ∀ zone, engine.zoneOf changed.path = some zone → agent = true → zone.allowAgentEdits = true := by
      intro zone there
      cases lies.symm.trans there
    exact ⟨fun found => ⟨allows, found.1, found.2⟩, fun clears => ⟨clears.owners, clears.lanes⟩⟩
  | some zone =>
    by_cases denied : (agent && !zone.allowAgentEdits) = true
    · have stops : ¬Clears engine agent changed := by
        intro clears
        simp only [Bool.and_eq_true, Bool.not_eq_true'] at denied
        rw [clears.zone zone lies denied.1] at denied
        cases denied.2
      simp [denied, stops, throw, throwThe, MonadExceptOf.throw, bind, Except.bind]
    · have allows : ∀ zone', engine.zoneOf changed.path = some zone' → agent = true → zone'.allowAgentEdits = true := by
        intro zone' there authored
        cases lies.symm.trans there
        simpa [authored] using denied
      simp only [denied]
      refine rest.trans (and_congr_left fun _ => ?_)
      exact ⟨fun found => ⟨allows, found.1, found.2⟩, fun clears => ⟨clears.owners, clears.lanes⟩⟩

theorem planPaths_ok : paths.foldlM (engine.planPath agent) gathered = .ok gathered' ↔
    (∀ changed ∈ paths, Clears engine agent changed) ∧ gathered' = paths.foldl (Gathered.add engine) gathered := by
  induction paths generalizing gathered with
  | nil => simp [pure, Except.pure, eq_comm]
  | cons changed rest ih =>
    rw [List.foldlM_cons, List.forall_mem_cons, List.foldl_cons]
    cases first : engine.planPath agent gathered changed with
    | error blocker =>
      have stops : ¬Clears engine agent changed := fun clears => by
        rw [planPath_ok.mpr ⟨clears, rfl⟩] at first
        cases first
      simp [stops, bind, Except.bind]
    | ok next =>
      obtain ⟨clears, rfl⟩ := planPath_ok.mp first
      show rest.foldlM (engine.planPath agent) (gathered.add engine changed) = .ok gathered' ↔ _
      rw [ih]
      simp [clears]

/-- What comes of the paths. -/
theorem gather_eq : paths.foldl (Gathered.add engine) gathered =
    ⟨gathered.owners ++ paths.flatMap fun changed => engine.pathOwners changed.path,
      gathered.laneNames ++ paths.flatMap fun changed =>
        engine.pathLanes changed.path ++ if changed.sensitive then ["policy"] else [],
      gathered.paths ++ paths.map ChangedPath.path⟩ := by
  induction paths generalizing gathered with
  | nil => simp
  | cons changed rest ih =>
    rw [List.foldl_cons, ih]
    simp [Gathered.add]

theorem lanes_ok {names : List String} {lanes : List ProofLane} : names.mapM engine.laneNamed = .ok lanes ↔
    List.Forall₂ (fun name lane => engine.laneNamed name = .ok lane) names lanes := by
  induction names generalizing lanes with
  | nil => cases lanes <;> simp [pure, Except.pure]
  | cons name rest ih =>
    rw [List.mapM_cons]
    cases first : engine.laneNamed name with
    | error blocker => cases lanes <;> simp [bind, Except.bind, first]
    | ok lane =>
      cases later : rest.mapM engine.laneNamed with
      | error blocker => cases lanes <;> simp [bind, Except.bind, first, later, ← ih]
      | ok found => cases lanes <;> simp [bind, Except.bind, pure, Except.pure, first, later, ← ih]

end Paths

section Plans

variable {rules rules' : RuleSet} {change change' : ChangeSet} {plan plan' : ProofPlan} {lane name owner path : String}

theorem pathOwners_ne_nil : rules.engine.pathOwners path ≠ [] ↔
    ∃ rule ∈ rules.ownerRules, rule.pattern.isMatch path = true ∧ rule.owners ≠ [] := by
  unfold ProofEngine.pathOwners
  rw [Ne, List.flatMap_eq_nil_iff]
  simp only [List.mem_filter, not_forall]
  exact ⟨fun ⟨rule, ⟨member, lies⟩, named⟩ => ⟨rule, member, lies, named⟩,
    fun ⟨rule, member, lies, named⟩ => ⟨rule, ⟨member, lies⟩, named⟩⟩

theorem pathLanes_ne_nil : rules.engine.pathLanes path ≠ [] ↔
    ∃ rule ∈ rules.testRules, rule.pattern.isMatch path = true ∧ rule.lanes ≠ [] := by
  unfold ProofEngine.pathLanes
  rw [Ne, List.flatMap_eq_nil_iff]
  simp only [List.mem_filter, not_forall]
  exact ⟨fun ⟨rule, ⟨member, lies⟩, named⟩ => ⟨rule, member, lies, named⟩,
    fun ⟨rule, member, lies, named⟩ => ⟨rule, ⟨member, lies⟩, named⟩⟩

/-- The lanes of a change, in no order yet. -/
def reached (rules : RuleSet) (change : ChangeSet) : List String :=
  change.paths.flatMap fun changed =>
    rules.engine.pathLanes changed.path ++ if changed.sensitive then ["policy"] else []

def owning (rules : RuleSet) (change : ChangeSet) : List String :=
  change.paths.flatMap fun changed => rules.engine.pathOwners changed.path

theorem mem_reached : lane ∈ reached rules change ↔ rules.Reaches change lane := by
  simp only [reached, List.mem_flatMap, List.mem_append]
  constructor
  · rintro ⟨changed, member, lanes | policy⟩
    · obtain ⟨rule, listed, named⟩ := List.mem_flatMap.mp lanes
      obtain ⟨listed, lies⟩ := List.mem_filter.mp listed
      exact .inl ⟨changed, member, rule, listed, lies, named⟩
    · split at policy
      · next sensitive => exact .inr ⟨List.mem_singleton.mp policy, changed, member, sensitive⟩
      · cases policy
  · rintro (⟨changed, member, rule, listed, lies, named⟩ | ⟨rfl, changed, member, sensitive⟩)
    · exact ⟨changed, member, .inl (List.mem_flatMap.mpr ⟨rule, List.mem_filter.mpr ⟨listed, lies⟩, named⟩)⟩
    · refine ⟨changed, member, .inr ?_⟩
      rw [if_pos sensitive]
      exact List.mem_singleton_self _

theorem mem_owning : owner ∈ owning rules change ↔ rules.Owns change owner := by
  simp only [owning, List.mem_flatMap]
  constructor
  · rintro ⟨changed, member, owns⟩
    obtain ⟨rule, listed, named⟩ := List.mem_flatMap.mp owns
    obtain ⟨listed, lies⟩ := List.mem_filter.mp listed
    exact ⟨changed, member, rule, listed, lies, named⟩
  · rintro ⟨changed, member, rule, listed, lies, named⟩
    exact ⟨changed, member, List.mem_flatMap.mpr ⟨rule, List.mem_filter.mpr ⟨listed, lies⟩, named⟩⟩

theorem plan_ok : rules.engine.plan change = .ok plan ↔
    (∀ changed ∈ change.paths, Clears rules.engine change.agentAuthored changed) ∧
      (ordered (reached rules change)).mapM rules.engine.laneNamed = .ok plan.lanes ∧
      plan = ⟨change.repo, change.pr, change.headSha, change.paths.map ChangedPath.path,
        ordered (owning rules change), plan.lanes⟩ := by
  unfold ProofEngine.plan
  cases gathers : change.paths.foldlM (rules.engine.planPath change.agentAuthored) ⟨[], [], []⟩ with
  | error blocker =>
    refine ⟨fun planned => (nomatch planned), fun ⟨clears, _⟩ => ?_⟩
    rw [planPaths_ok.mpr ⟨clears, rfl⟩] at gathers
    cases gathers
  | ok gathered =>
    obtain ⟨clears, same⟩ := planPaths_ok.mp gathers
    rw [gather_eq] at same
    have whole : gathered = ⟨owning rules change, reached rules change, change.paths.map ChangedPath.path⟩ := same
    subst whole
    rw [and_iff_right clears]
    show ((ordered (reached rules change)).mapM rules.engine.laneNamed).bind _ = _ ↔ _
    cases lanes : (ordered (reached rules change)).mapM rules.engine.laneNamed with
    | error blocker => simp [Except.bind]
    | ok found =>
      show Except.ok _ = Except.ok plan ↔ _
      constructor
      · intro planned
        cases planned
        exact ⟨rfl, rfl⟩
      · rintro ⟨same, planned⟩
        cases same
        rw [planned]

theorem lanes_named {names : List String} {lanes : List ProofLane} (found : names.mapM rules.engine.laneNamed = .ok lanes) :
    lanes.map ProofLane.name = names ∧ ∀ lane ∈ lanes, lane ∈ rules.lanes := by
  have matched := lanes_ok.mp found
  clear found
  induction matched with
  | nil => exact ⟨rfl, fun lane member => (nomatch member)⟩
  | cons found rest ih =>
    obtain ⟨stored, rfl⟩ := laneNamed_ok.mp found
    exact ⟨congrArg _ ih.1, List.forall_mem_cons.mpr ⟨stored, ih.2⟩⟩

theorem lanes_exist {names : List String} (defined : ∀ name ∈ names, ∃ stored ∈ rules.lanes, stored.name = name) :
    ∃ lanes, names.mapM rules.engine.laneNamed = .ok lanes := by
  simp only [lanes_ok]
  induction names with
  | nil => exact ⟨[], .nil⟩
  | cons name rest ih =>
    rw [List.forall_mem_cons] at defined
    obtain ⟨lane, stored⟩ := defined.1
    obtain ⟨lanes, found⟩ := ih defined.2
    exact ⟨lane :: lanes, .cons (laneNamed_ok.mpr stored) found⟩

/-- The zone that decides is open. -/
def Opens (rules : RuleSet) (change : ChangeSet) : Prop := change.agentAuthored = true →
  ∀ changed ∈ change.paths, ∀ zone, rules.engine.zoneOf changed.path = some zone → zone.allowAgentEdits = true

theorem accepted_iff : (∃ plan, rules.engine.plan change = .ok plan) ↔ rules.Covers change ∧ Opens rules change := by
  constructor
  · rintro ⟨plan, planned⟩
    obtain ⟨clears, lanes, -⟩ := plan_ok.mp planned
    refine ⟨⟨fun changed member => ?_, fun changed member => ?_, fun lane reaches => ?_⟩, ?_⟩
    · exact pathOwners_ne_nil.mp (clears changed member).owners
    · exact pathLanes_ne_nil.mp (clears changed member).lanes
    · obtain ⟨named, stored⟩ := lanes_named lanes
      have listed : lane ∈ plan.lanes.map ProofLane.name := by
        rw [named]
        exact mem_ordered.mpr (mem_reached.mpr reaches)
      obtain ⟨found, member, same⟩ := List.mem_map.mp listed
      exact ⟨found, stored found member, same⟩
    · exact fun authored changed member zone decides => (clears changed member).zone zone decides authored
  · rintro ⟨covers, opens⟩
    have defined : ∀ name ∈ ordered (reached rules change), ∃ stored ∈ rules.lanes, stored.name = name :=
      fun name listed => covers.defined name (mem_reached.mp (mem_ordered.mp listed))
    obtain ⟨lanes, found⟩ := lanes_exist defined
    have clears : ∀ changed ∈ change.paths, Clears rules.engine change.agentAuthored changed := fun changed member =>
      ⟨fun zone decides authored => opens authored changed member zone decides,
        pathOwners_ne_nil.mpr (covers.owned changed member), pathLanes_ne_nil.mpr (covers.mapped changed member)⟩
    exact ⟨⟨change.repo, change.pr, change.headSha, change.paths.map ChangedPath.path, ordered (owning rules change), lanes⟩,
      plan_ok.mpr ⟨clears, found, rfl⟩⟩

/-- What a plan holds. -/
theorem planned_exact (planned : rules.engine.plan change = .ok plan) :
    plan.paths = change.paths.map ChangedPath.path ∧
    plan.owners.Pairwise (· < ·) ∧ (∀ owner, owner ∈ plan.owners ↔ rules.Owns change owner) ∧
    (plan.lanes.map ProofLane.name).Pairwise (· < ·) ∧
    ∀ lane, lane ∈ plan.lanes ↔ lane ∈ rules.lanes ∧ rules.Reaches change lane.name := by
  obtain ⟨-, lanes, same⟩ := plan_ok.mp planned
  obtain ⟨named, stored⟩ := lanes_named lanes
  have owners : plan.owners = ordered (owning rules change) := by rw [same]
  refine ⟨by rw [same], ?_, fun owner => ?_, ?_, fun lane => ⟨fun member => ?_, fun ⟨member, reaches⟩ => ?_⟩⟩
  · rw [owners]
    exact ordered_pairwise _
  · rw [owners, mem_ordered, mem_owning]
  · rw [named]
    exact ordered_pairwise _
  · have listed : lane.name ∈ plan.lanes.map ProofLane.name := List.mem_map_of_mem member
    rw [named, mem_ordered, mem_reached] at listed
    exact ⟨stored lane member, listed⟩
  · have listed : lane.name ∈ plan.lanes.map ProofLane.name := by
      rw [named, mem_ordered, mem_reached]
      exact reaches
    obtain ⟨found, there, same⟩ := List.mem_map.mp listed
    have one : found = lane := List.inj_on_of_nodup_map rules.distinct (stored found there) member same
    exact one ▸ there

theorem RuleSet.Permuted.owns (permuted : rules.Permuted change rules' change') :
    rules'.Owns change' owner ↔ rules.Owns change owner := by
  unfold RuleSet.Owns
  simp only [permuted.owners.mem_iff, permuted.paths.mem_iff]

theorem RuleSet.Permuted.reaches (permuted : rules.Permuted change rules' change') :
    rules'.Reaches change' lane ↔ rules.Reaches change lane := by
  unfold RuleSet.Reaches
  simp only [permuted.tests.mem_iff, permuted.paths.mem_iff]

theorem RuleSet.Permuted.liesIn (permuted : rules.Permuted change rules' change') {allows : Bool} :
    rules'.LiesIn allows path ↔ rules.LiesIn allows path := by
  unfold RuleSet.LiesIn
  simp only [permuted.zones.mem_iff]

theorem RuleSet.Permuted.covers (permuted : rules.Permuted change rules' change') :
    rules'.Covers change' ↔ rules.Covers change := by
  constructor
  · intro covers
    refine ⟨fun changed member => ?_, fun changed member => ?_, fun lane reaches => ?_⟩
    · simpa only [permuted.owners.mem_iff] using covers.owned changed (permuted.paths.mem_iff.mpr member)
    · simpa only [permuted.tests.mem_iff] using covers.mapped changed (permuted.paths.mem_iff.mpr member)
    · simpa only [permuted.lanes] using covers.defined lane (permuted.reaches.mpr reaches)
  · intro covers
    refine ⟨fun changed member => ?_, fun changed member => ?_, fun lane reaches => ?_⟩
    · simpa only [permuted.owners.mem_iff] using covers.owned changed (permuted.paths.mem_iff.mp member)
    · simpa only [permuted.tests.mem_iff] using covers.mapped changed (permuted.paths.mem_iff.mp member)
    · simpa only [permuted.lanes] using covers.defined lane (permuted.reaches.mp reaches)

theorem RuleSet.Permuted.ungenerated (permuted : rules.Permuted change rules' change') :
    rules'.Ungenerated change' ↔ rules.Ungenerated change := by
  unfold RuleSet.Ungenerated
  simp only [permuted.agent, permuted.paths.mem_iff, permuted.liesIn]

theorem RuleSet.Permuted.overlooks (permuted : rules.Permuted change rules' change') :
    rules'.Overlooks change' ↔ rules.Overlooks change := by
  unfold RuleSet.Overlooks
  simp only [permuted.agent, permuted.paths.mem_iff, permuted.liesIn, permuted.covers]

/-- Zones that are all open let a path through, whatever their order. -/
theorem opens_of_ungenerated (ungenerated : rules.Ungenerated change) : Opens rules change := by
  intro authored changed member zone decides
  have listed : zone ∈ rules.generatedZones := List.mem_of_find?_eq_some decides
  have lies : zone.pattern.isMatch changed.path = true := by
    have found := List.find?_some decides
    exact found
  by_contra closed
  exact ungenerated authored changed member ⟨zone, listed, lies, Bool.eq_false_iff.mpr closed⟩

/-- Unless zones overlap, only a change outside every closed zone gets through. -/
theorem accepted_of_not_overlooks (clear : ¬rules.Overlooks change) :
    (∃ plan, rules.engine.plan change = .ok plan) ↔ rules.Covers change ∧ rules.Ungenerated change := by
  rw [accepted_iff]
  refine and_congr_right fun covers => ⟨fun opens authored changed member closed => ?_, opens_of_ungenerated⟩
  refine clear ⟨authored, covers, ⟨changed, member, closed⟩, fun other listed ⟨zone, stored, lies, shut⟩ => ?_⟩
  cases decides : rules.engine.zoneOf other.path with
  | none =>
    have passed := List.find?_eq_none.mp decides zone stored
    exact absurd lies passed
  | some first =>
    have found := List.find?_some decides
    exact ⟨first, List.mem_of_find?_eq_some decides, found, opens authored other listed first decides⟩

theorem planned_agree (permuted : rules.Permuted change rules' change')
    (planned : rules.engine.plan change = .ok plan) (planned' : rules'.engine.plan change' = .ok plan') :
    plan'.owners = plan.owners ∧ plan'.lanes = plan.lanes := by
  obtain ⟨-, ownersInOrder, owners, namesInOrder, lanes⟩ := planned_exact planned
  obtain ⟨-, ownersInOrder', owners', namesInOrder', lanes'⟩ := planned_exact planned'
  have lanesInOrder : plan.lanes.Pairwise (·.name < ·.name) := List.pairwise_map.mp namesInOrder
  have lanesInOrder' : plan'.lanes.Pairwise (·.name < ·.name) := List.pairwise_map.mp namesInOrder'
  refine ⟨eq_of_pairwise ownersInOrder' ownersInOrder fun owner => ?_, ?_⟩
  · rw [owners', owners, permuted.owns]
  · have same : ∀ lane, lane ∈ plan'.lanes ↔ lane ∈ plan.lanes := fun lane => by
      rw [lanes', lanes, permuted.lanes, permuted.reaches]
    have distinct : plan.lanes.Nodup := .of_map _ (nodup_of_pairwise namesInOrder)
    have distinct' : plan'.lanes.Nodup := .of_map _ (nodup_of_pairwise namesInOrder')
    have perm : plan'.lanes.Perm plan.lanes := (List.perm_ext_iff_of_nodup distinct' distinct).mpr same
    exact perm.eq_of_pairwise (fun a b _ _ before after => absurd after before.asymm) lanesInOrder' lanesInOrder

/-- What one more path keeps from being planned. -/
theorem refused_added {before after : List ChangedPath} {added : ChangedPath} (split : change.paths = before ++ after)
    (refused : ¬∃ plan, rules.engine.plan change = .ok plan) :
    ¬∃ plan, rules.engine.plan { change with paths := before ++ added :: after } = .ok plan := by
  rw [accepted_iff] at refused ⊢
  rintro ⟨covers, opens⟩
  have more : ∀ changed ∈ change.paths, changed ∈ before ++ added :: after := by
    rw [split]
    intro changed member
    rcases List.mem_append.mp member with early | late
    · exact List.mem_append_left _ early
    · exact List.mem_append_right _ (List.mem_cons_of_mem _ late)
  refine refused ⟨⟨fun changed member => covers.owned changed (more changed member),
    fun changed member => covers.mapped changed (more changed member), fun lane reaches => covers.defined lane ?_⟩,
    fun authored changed member => opens authored changed (more changed member)⟩
  rcases reaches with ⟨changed, member, reaches⟩ | ⟨policy, changed, member, sensitive⟩
  · exact .inl ⟨changed, more changed member, reaches⟩
  · exact .inr ⟨policy, changed, more changed member, sensitive⟩

/-- The same rules, with the zones open to agents first. -/
def RuleSet.openFirst (rules : RuleSet) : RuleSet :=
  { rules with generatedZones := rules.generatedZones.filter (·.allowAgentEdits) ++
      rules.generatedZones.filter (!·.allowAgentEdits) }

theorem openFirst_permuted_zones (rules : RuleSet) : rules.openFirst.generatedZones.Perm rules.generatedZones :=
  List.filter_append_perm _ _

theorem openFirst_permuted : rules.Permuted change rules.openFirst change where
  owners := .refl _
  tests := .refl _
  zones := openFirst_permuted_zones rules
  lanes := rfl
  paths := .refl _
  agent := rfl

/-- Where every closed zone of a change is overlapped by an open one, agents get through once the
    open ones come first. -/
theorem opens_openFirst (overlaps : ∀ changed ∈ change.paths, rules.LiesIn false changed.path →
    rules.LiesIn true changed.path) : Opens rules.openFirst change := by
  intro _ changed member zone decides
  by_contra shut
  have closed : zone.allowAgentEdits = false := Bool.eq_false_iff.mpr shut
  have lies := List.find?_some decides
  have stored : zone ∈ rules.openFirst.generatedZones := List.mem_of_find?_eq_some decides
  have listed : zone ∈ rules.generatedZones := (openFirst_permuted_zones rules).mem_iff.mp stored
  obtain ⟨open_, first, opens, allows⟩ := overlaps changed member ⟨zone, listed, lies, closed⟩
  change (rules.generatedZones.filter (·.allowAgentEdits) ++
    rules.generatedZones.filter (!·.allowAgentEdits)).find? _ = some zone at decides
  rw [List.find?_append] at decides
  cases early : (rules.generatedZones.filter (·.allowAgentEdits)).find? fun zone => zone.pattern.isMatch changed.path with
  | none =>
    have passed := List.find?_eq_none.mp early open_ (List.mem_filter.mpr ⟨first, allows⟩)
    exact passed opens
  | some found =>
    rw [early] at decides
    cases decides
    have allowed := (List.mem_filter.mp (List.mem_of_find?_eq_some early)).2
    exact shut allowed

/-- A plan is what it should be, unless the order of overlapping zones decides. -/
theorem plans_iff (rules : RuleSet) (change : ChangeSet) : rules.Plans change ↔ ¬rules.Overlooks change := by
  constructor
  · rintro plans ⟨authored, covers, ⟨changed, member, closed⟩, overlaps⟩
    have through : ∃ plan, rules.openFirst.engine.plan change = .ok plan :=
      accepted_iff.mpr ⟨openFirst_permuted.covers.mpr covers, opens_openFirst overlaps⟩
    have accepted := (plans.permuted rules.openFirst change openFirst_permuted).1.mp through
    exact (plans.accepted.mp accepted).2 authored changed member closed
  · intro clear
    refine ⟨accepted_of_not_overlooks clear, fun plan planned => planned_exact planned,
      fun rules' change' permuted => ⟨?_, fun plan plan' planned planned' => planned_agree permuted planned planned'⟩,
      fun before after added split refused => refused_added split refused⟩
    have clear' : ¬rules'.Overlooks change' := by
      rw [permuted.overlooks]
      exact clear
    rw [accepted_of_not_overlooks clear', accepted_of_not_overlooks clear, permuted.covers,
      permuted.ungenerated]

end Plans

section Demo

/-- An open zone, with a closed one inside it. -/
def overlapping : RuleSet where
  ownerRules := [⟨⟨"**"⟩, ["@team"]⟩]
  testRules := [⟨⟨"**"⟩, ["unit"]⟩]
  generatedZones := [⟨⟨"gen/**"⟩, true, "Regenerated but agent-curated."⟩, ⟨⟨"gen/locked/**"⟩, false, "Generated."⟩]
  lanes := [⟨"unit", ["cargo test"], true⟩]
  distinct := by decide

def lockedEdit : ChangeSet := ⟨"repo", "pr_1", "head001", [⟨"gen/locked/schema.rs", false⟩], true⟩

/-- An agent's edit of a file in the closed zone is planned. -/
theorem locked_edit_planned : ¬∀ rules : RuleSet, ∀ change, rules.Plans change := by
  intro plans
  have planned : (overlapping.engine.plan lockedEdit).isOk = true := by decide +kernel
  have accepted : ∃ plan, overlapping.engine.plan lockedEdit = .ok plan := by
    cases outcome : overlapping.engine.plan lockedEdit with
    | error blocker =>
      rw [outcome] at planned
      cases planned
    | ok plan => exact ⟨plan, rfl⟩
  have ungenerated := ((plans overlapping lockedEdit).accepted.mp accepted).2
  refine ungenerated rfl _ (List.mem_singleton_self _) ⟨_, List.mem_cons_of_mem _ (List.mem_singleton_self _), ?_, rfl⟩
  decide +kernel

end Demo

end Jeryu.Proof
