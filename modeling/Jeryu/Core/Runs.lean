import Jeryu.Core.SectionEffects

/-!
Runs of the core: any calls, by any clients, their sections interleaved in any order. Every
section finds coherent records; an invariant of the sections holds wherever a run gets.
-/

namespace Jeryu.Core

open LockProgram

def ForgeCore.Coherent (core : ForgeCore) : Prop := core.state.Coherent core.uuids

section Kept

variable {call : Call} {core core' : ForgeCore}

theorem Ambient.moves (ambient : Ambient core core') : Moves .ambient core.state core'.state := by
  obtain ⟨users, accounts, bots, botRepoGrants, organizations, auth, same⟩ := ambient.state
  rw [same]
  exact .touches (.single (.people users accounts bots botRepoGrants organizations auth))

theorem Ambient.coherent (ambient : Ambient core core') (coherent : core.Coherent) :
    core'.Coherent :=
  ambient.moves.coherent (coherent.mono ambient.uuids) (fun _ => False.elim) fun _ => False.elim

theorem Effect.coherent (effect : Effect call core core') (coherent : core.Coherent) :
    core'.Coherent :=
  effect.moves.coherent (coherent.mono effect.uuids) (fun _ drawn => drawn.2)
    fun _ drawn _ _ found =>
      Nat.ne_of_lt (Nat.lt_of_lt_of_le (coherent.identified.repoIds _ _ found) drawn.1)

end Kept

/-- The sections of every call are known, and they keep the records coherent. -/
theorem forge_certified (condition : Call → ForgeCore → Prop) :
    Certified forge (Guarded condition) ForgeCore.Coherent Section fun _ _ => True where
  programs call := (call_writes call).meets.mono (fun _ _ => True.intro) (fun _ _ _ _ moved => moved)
    fun _ known => known
  ambient _ _ coherent moved := moved.coherent coherent
  kept _ _ _ _ coherent _ moved := (section_effect coherent moved).coherent coherent

section Rules

variable {condition : Call → ForgeCore → Prop} {pool pool' : Pool}

theorem Pool.ReachableWhen.sound (reachable : pool.ReachableWhen condition) :
    Sound ForgeCore.Coherent Section (fun _ _ => True) pool := by
  obtain ⟨start, ⟨empty, idle⟩, run⟩ := reachable
  refine (forge_certified condition).run run ⟨?_, ?_⟩
  · unfold ForgeCore.Coherent
    rw [empty]
    exact coherent_empty _
  · rw [idle]
    exact fun _ member => nomatch member

theorem Pool.ReachableWhen.coherent (reachable : pool.ReachableWhen condition) :
    pool.shared.Coherent := reachable.sound.holds

theorem Pool.ReachableWhen.run (reachable : pool.ReachableWhen condition)
    (run : Run forge (Guarded condition) pool pool') : pool'.ReachableWhen condition := by
  obtain ⟨start, initial, before⟩ := reachable
  exact ⟨start, initial, before.trans run⟩

theorem Guarded.any {call : Call} {update : ForgeCore → ForgeCore} {core : ForgeCore} :
    Guarded anyCall call update core := .inr True.intro

/-- What is known of a section under the write lock. -/
theorem Pool.ReachableWhen.writes (reachable : pool.ReachableWhen condition) {i : Nat} {call : Call}
    {reply : Option call.Reply} (writes : pool.Writes i call reply pool') :
    Section call pool.shared pool'.shared reply := reachable.sound.writes writes

theorem Pool.ReachableWhen.effect (reachable : pool.ReachableWhen condition) {i : Nat} {call : Call}
    {reply : Option call.Reply} (writes : pool.Writes i call reply pool') :
    Effect call pool.shared pool'.shared :=
  section_effect reachable.coherent (reachable.writes writes)

/-- What the empty store has and every section keeps. -/
theorem Pool.ReachableWhen.invariant {I : ForgeCore → Prop}
    (reachable : pool.ReachableWhen condition)
    (empty : ∀ core : ForgeCore, core.state = .empty → I core)
    (ambient : ∀ core core', I core → Ambient core core' → I core')
    (sections : ∀ (call : Call) (core core' : ForgeCore) (reply : Option call.Reply),
      core.Coherent → I core → condition call core → Section call core core' reply →
      Effect call core core' → I core') : I pool.shared := by
  obtain ⟨start, ⟨fresh, idle⟩, run⟩ := reachable
  have certified : Certified forge (Guarded condition) (fun core => core.Coherent ∧ I core) Section
      fun _ _ => True :=
    { programs := fun call => ((forge_certified condition).programs call).mono
        (fun _ holds => holds.1) (fun _ _ _ _ moved => moved) fun _ known => known
      ambient := fun core core' holds moved => ⟨moved.coherent holds.1, ambient _ _ holds.2 moved⟩
      kept := fun call update core reply holds allowed moved => by
        have effect := section_effect holds.1 moved
        refine ⟨effect.coherent holds.1, ?_⟩
        rcases allowed with aside | met
        · exact ambient _ _ holds.2 (aside core)
        · exact sections call core _ reply holds.1 holds.2 met moved effect }
  refine (certified.run run ⟨⟨?_, empty _ fresh⟩, ?_⟩).holds.2
  · unfold ForgeCore.Coherent
    rw [fresh]
    exact coherent_empty _
  · rw [idle]
    exact fun _ member => nomatch member

/-- A preorder that every section keeps to relates the two ends of a run. -/
theorem Pool.ReachableWhen.along {T : ForgeCore → ForgeCore → Prop} {before : Call → ForgeCore → Prop}
    (reachable : pool.ReachableWhen before) (run : Run forge (Guarded condition) pool pool')
    (refl : ∀ core, T core core) (trans : ∀ a b c, T a b → T b c → T a c)
    (ambient : ∀ core core', Ambient core core' → T core core')
    (sections : ∀ (call : Call) (core core' : ForgeCore) (reply : Option call.Reply),
      core.Coherent → condition call core → Section call core core' reply →
      Effect call core core' → T core core') : T pool.shared pool'.shared := by
  refine (forge_certified condition).along refl trans (fun _ _ _ moved => ambient _ _ moved) ?_ run
    reachable.sound
  intro call update core reply coherent allowed moved
  rcases allowed with aside | met
  · exact ambient _ _ (aside core)
  · exact sections call core _ reply coherent met moved (section_effect coherent moved)

/-- A step does no more than the surroundings may, or is a section that finds the condition
    met. -/
theorem step_cases (step : Step forge (Guarded condition) pool pool') :
    Ambient pool.shared pool'.shared ∨ ∃ (i : Nat) (call : Call) (reply : Option call.Reply),
      pool.Writes i call reply pool' ∧ condition call pool.shared := by
  have still (core : ForgeCore) : Ambient core core :=
    ⟨Nat.le_refl _, rfl, core.state.users, core.state.accounts, core.state.bots,
      core.state.botRepoGrants, core.state.organizations, core.state.auth, rfl⟩
  cases step with
  | enter admitted => exact .inl (still _)
  | read running => exact .inl (still _)
  | @write i call update next running allowed =>
    rcases allowed with aside | met
    · exact .inl (aside _)
    · exact .inr ⟨i, call, _, ⟨update, next, running, rfl, rfl⟩, met⟩
  | ambient moved => exact .inl moved

end Rules

section Alone

/-- A core in memory, and one with a store that takes everything. -/
def ForgeCore.inMemory : ForgeCore where
  state := .empty
  uuids := 0
  now := 0
  storage := none
  auditEnforceMerge := none
  repoMaterializer := none
  repoRelocator := none

def ForgeCore.durable : ForgeCore :=
  { ForgeCore.inMemory with
    storage := some
      { journal := [], transaction := fun _ => .ok (), dropTables := .ok (), append := fun _ => .ok ()
        appendDeployment := fun _ => .ok () } }

/-- The repository and the pull request of the concrete runs. -/
def Call.newDemo : Call :=
  .createRepository "acme"
    { name := "demo", isPrivate := false, description := none, defaultBranch := none }

def Call.demoHead : String := "1111111111111111111111111111111111111111"

def Call.demoBase : String := "0000000000000000000000000000000000000000"

def Call.newPull (author : String) : Call :=
  .createPullRequest "acme" "demo" author
    { title := "Add a parser", body := none, head := "feature", base := "main"
      headSha := some demoHead, baseSha := some demoBase, sourceRepository := none, draft := false
      commits := [], changedFiles := ["src/parser.rs"] }

/-- The pool after a schedule. -/
def ForgeCore.played (core : ForgeCore) (turns : List (Turn Call)) : Pool :=
  Config.play forge ⟨core, []⟩ turns

variable {condition : Call → ForgeCore → Prop} {core : ForgeCore} {turns : List (Turn Call)}

theorem played_reachable (empty : core.state = .empty)
    (plays : Config.Plays forge (Guarded condition) ⟨core, []⟩ turns) :
    (core.played turns).ReachableWhen condition :=
  ⟨⟨core, []⟩, ⟨empty, rfl⟩, play_run plays⟩

/-- A turn that spends no permit may be taken at any time. -/
def spends : Turn Call → Bool
  | .alone (.finalizeMergeWithOverride ..) | .enter (.finalizeMergeWithOverride ..) => true
  | _ => false

/-- Calls that meet the condition wherever they stand, in any order of their sections. -/
theorem plays_of_calls {pool : Pool} (plain : turns.all fun turn => !spends turn)
    (every : ∀ call ∈ pool.tasks.map Task.call ++ turns.filterMap Turn.call, ∀ core, condition call core) :
    pool.Plays forge (Guarded condition) turns := by
  induction turns generalizing pool with
  | nil => exact True.intro
  | cons turn rest ih =>
    simp only [List.all_cons, Bool.and_eq_true, Bool.not_eq_true'] at plain
    refine ⟨?_, ih plain.2 fun call member => every call ?_⟩
    · cases turn with
      | alone call =>
        have met := every call (List.mem_append_right _ List.mem_cons_self)
        refine ⟨?_, Program.permits_of_every (fun _ core => .inr (met core)) _ _⟩
        cases call with
        | finalizeMergeWithOverride => cases plain.1
        | _ => exact True.intro
      | enter call =>
        cases call with
        | finalizeMergeWithOverride => cases plain.1
        | _ => exact True.intro
      | advance i =>
        intro call update next running
        have member : call ∈ pool.tasks.map Task.call :=
          List.mem_map.mpr ⟨_, List.mem_of_getElem? running, rfl⟩
        exact .inr (every call (List.mem_append_left _ member) _)
    · rw [Config.turn_calls] at member
      cases turn <;> simpa [Turn.call] using member

theorem plays_of_plain {pool : Pool} (plain : turns.all fun turn => !spends turn)
    (every : ∀ call core, condition call core) :
    pool.Plays forge (Guarded condition) turns :=
  plays_of_calls plain fun call _ core => every call core

/-- Whole calls one after the other, each of which is allowed wherever it stands. -/
theorem plays_whole {sys : System ForgeCore Call.Reply} {pool : Pool} {calls : List Call}
    {allows : Call → (ForgeCore → ForgeCore) → ForgeCore → Prop} (admits : sys.admits = Admits)
    (plain : calls.all fun call => !spends (.alone call))
    (every : ∀ call ∈ calls, ∀ update core, allows call update core) :
    pool.Plays sys allows (calls.map .alone) := by
  induction calls generalizing pool with
  | nil => exact True.intro
  | cons call rest ih =>
    simp only [List.all_cons, Bool.and_eq_true, Bool.not_eq_true'] at plain
    refine ⟨⟨?_, ?_⟩, ih plain.2 fun other member => every other (List.mem_cons_of_mem _ member)⟩
    · rw [admits]
      cases call with
      | finalizeMergeWithOverride => cases plain.1
      | _ => exact True.intro
    · exact Program.permits_of_every (fun update core => every call List.mem_cons_self update core) _ _

/-- The same of a condition on the core found. -/
theorem plays_alone {pool : Pool} {calls : List Call}
    (plain : calls.all fun call => !spends (.alone call))
    (every : ∀ call ∈ calls, ∀ core, condition call core) :
    pool.Plays forge (Guarded condition) (calls.map .alone) :=
  plays_whole rfl plain fun call member _ core => .inr (every call member core)

theorem played_any (empty : core.state = .empty) (plain : turns.all fun turn => !spends turn) :
    (core.played turns).Reachable :=
  played_reachable empty (plays_of_plain plain fun _ _ => True.intro)

end Alone

end Jeryu.Core
