import Jeryu.Core.Runs
import Jeryu.Core.Verdicts

/-!
What a run does to one pull request and to one list of reviews, wherever a rename or a
transfer carries them.
-/

namespace Jeryu.Core

open KeyedMap HashMap Relation LockProgram

/-- Every pull request of `core'` is new, or goes back to one of `core` step by step. -/
structure PullsFrom (asks : PullRequest → UpdatePullRequestRequest → Prop) (core core' : ForgeCore) :
    Prop where
  uuids : core.uuids ≤ core'.uuids
  pulls : core'.state.pulls.Every fun _ pr' => pr'.id < core.uuids →
    ∃ key pr, core.state.pulls.lookup key = some pr ∧ pr.id = pr'.id ∧
      ReflTransGen (PullStep asks) pr pr'

theorem PullStep.id_of_steps {asks : PullRequest → UpdatePullRequestRequest → Prop}
    {pr pr' : PullRequest} (steps : ReflTransGen (PullStep asks) pr pr') : pr'.id = pr.id := by
  induction steps with
  | refl => rfl
  | tail _ step ih => exact step.id.trans ih

/-- No restriction on the updates callers ask for. -/
def anyUpdate (_ : PullRequest) (_ : UpdatePullRequestRequest) : Prop := True

section Pulls

variable {asks : PullRequest → UpdatePullRequestRequest → Prop} {print : Footprint}
variable {core core' : ForgeCore} {condition : Call → ForgeCore → Prop} {pool pool' : Pool}

theorem Moves.pullsFrom (moves : Moves print core.state core'.state)
    (uuids : core.uuids ≤ core'.uuids) (fresh : ∀ id, print.drawn id → core.uuids ≤ id)
    (asked : ∀ pr request, print.updates pr request → asks pr request) :
    PullsFrom asks core core' := by
  refine ⟨uuids, fun key pr' found older => ?_⟩
  obtain ⟨pr, steps, opened | ⟨key, stored⟩⟩ := moves.derives key pr' found
  · rw [PullStep.id_of_steps steps] at older
    exact absurd (fresh _ opened.drawn) (Nat.not_le.mpr older)
  · exact ⟨key, pr, stored, (PullStep.id_of_steps steps).symm,
      ReflTransGen.mono (fun _ _ step => step.mono asked) _ _ steps⟩

theorem PullsFrom.refl (core : ForgeCore) : PullsFrom asks core core :=
  ⟨Nat.le_refl _, fun key pr found _ => ⟨key, pr, found, rfl, .refl⟩⟩

theorem PullsFrom.trans {last : ForgeCore} (earlier : PullsFrom asks core core')
    (later : PullsFrom asks core' last) : PullsFrom asks core last := by
  refine ⟨earlier.uuids.trans later.uuids, fun key pr found older => ?_⟩
  obtain ⟨key', pr', found', same', steps'⟩ :=
    later.pulls key pr found (Nat.lt_of_lt_of_le older earlier.uuids)
  obtain ⟨key'', pr'', found'', same'', steps''⟩ := earlier.pulls key' pr' found' (same' ▸ older)
  exact ⟨key'', pr'', found'', same''.trans same', steps''.trans steps'⟩

theorem Ambient.pullsFrom (ambient : Ambient core core') : PullsFrom asks core core' :=
  ambient.moves.pullsFrom ambient.uuids (fun _ => False.elim) fun _ _ => False.elim

theorem Effect.pullsFrom {call : Call} (effect : Effect call core core')
    (asked : ∀ pr request, call.updates core.state pr request → asks pr request) :
    PullsFrom asks core core' :=
  effect.moves.pullsFrom effect.uuids (fun _ drawn => drawn.1) asked

/-- A pull request of `core` that is still there has taken such steps. -/
theorem PullsFrom.steps (origin : PullsFrom asks core core')
    (identified : core.state.Identified core.uuids) {key key' : Scoped Nat} {pr pr' : PullRequest}
    (found : core.state.pulls.lookup key = some pr)
    (found' : core'.state.pulls.lookup key' = some pr') (same : pr'.id = pr.id) :
    ReflTransGen (PullStep asks) pr pr' := by
  have older : pr'.id < core.uuids := same ▸ identified.pullIds key pr found
  obtain ⟨first, stored, known, own, steps⟩ := origin.pulls key' pr' found' older
  obtain rfl := identified.pulls first key stored pr pr'.id known found own same.symm
  cases known.symm.trans found
  exact steps

/-- Along a run, a pull request takes only steps its callers may ask for. -/
theorem Pool.ReachableWhen.pullsFrom (reachable : pool.ReachableWhen condition)
    (run : Run forge (Guarded condition) pool pool')
    (asked : ∀ call core, condition call core → ∀ pr request, call.updates core.state pr request →
      asks pr request) : PullsFrom asks pool.shared pool'.shared :=
  reachable.along run .refl (fun _ _ _ => .trans) (fun _ _ => Ambient.pullsFrom)
    fun call core _ _ _ met _ effect => effect.pullsFrom (asked call core met)

theorem Pool.ReachableWhen.pullSteps (reachable : pool.ReachableWhen condition)
    (run : Run forge (Guarded condition) pool pool')
    (asked : ∀ call core, condition call core → ∀ pr request, call.updates core.state pr request →
      asks pr request) {key key' : Scoped Nat} {pr pr' : PullRequest}
    (found : pool.shared.state.pulls.lookup key = some pr)
    (found' : pool'.shared.state.pulls.lookup key' = some pr') (same : pr'.id = pr.id) :
    ReflTransGen (PullStep asks) pr pr' :=
  (reachable.pullsFrom run asked).steps reachable.coherent.identified found found' same

theorem asks_any (call : Call) (core : ForgeCore) (_ : condition call core) (pr : PullRequest)
    (request : UpdatePullRequestRequest) (_ : call.updates core.state pr request) :
    anyUpdate pr request := True.intro

/-- What holds of every pull request as it is opened, and what each step keeps. -/
theorem Pool.ReachableWhen.everyPull {P : PullRequest → Prop}
    (reachable : pool.ReachableWhen condition)
    (asked : ∀ call core, condition call core → ∀ pr request, call.updates core.state pr request →
      asks pr request)
    (opened : ∀ (print : Footprint) pr, print.Opened pr → P pr)
    (step : ∀ pr pr', PullStep asks pr pr' → P pr → P pr') :
    pool.shared.state.pulls.Every fun _ pr => P pr := by
  refine reachable.invariant (I := fun core => core.state.pulls.Every fun _ pr => P pr)
    (fun core empty => ?_) (fun core core' every moved => ?_)
    fun call core core' reply _ every met _ effect => ?_
  · rw [empty]
    exact every_empty
  · exact moved.moves.everyPull every (opened _) fun pr pr' edit =>
      step pr pr' (edit.mono fun _ _ => False.elim)
  · exact effect.moves.everyPull every (opened _) fun pr pr' edit =>
      step pr pr' (edit.mono (asked call core met))

end Pulls

/-- The rows of every list of reviews are those of a list of `s`, then new ones. -/
def State.Continues (s : State) (drawn : Uuid → Prop) (ledger : Ledger) : Prop :=
  ∃ earlier later, ledger = earlier ++ later ∧ (∀ verdict ∈ later, drawn verdict.id) ∧
    (earlier = [] ∨ ∃ key rows, s.reviews.lookup key = some rows ∧ ledgerOf rows = earlier)

section Ledgers

variable {print : Footprint} {s s' : State} {core core' : ForgeCore}
variable {condition : Call → ForgeCore → Prop} {pool pool' : Pool}

theorem State.continues_stored (s : State) (drawn : Uuid → Prop) :
    s.reviews.Every fun _ rows => s.Continues drawn (ledgerOf rows) :=
  fun key rows found => ⟨ledgerOf rows, [], by simp, by simp, .inr ⟨key, rows, found, rfl⟩⟩

theorem State.Continues.push {drawn : Uuid → Prop} {rows : List Review} {review : Review}
    (continues : s.Continues drawn (ledgerOf rows)) (new : drawn review.id) :
    s.Continues drawn (ledgerOf (rows ++ [review])) := by
  obtain ⟨earlier, later, split, fresh, origin⟩ := continues
  refine ⟨earlier, later ++ [review.verdict], ?_, fun verdict member => ?_, origin⟩
  · rw [← List.append_assoc, ← split]
    simp [ledgerOf]
  · rcases List.mem_append.mp member with member | member
    · exact fresh verdict member
    · rw [List.mem_singleton.mp member]
      exact new

theorem Touch.continues (touch : Touch print s s') :
    s'.reviews.Every fun _ rows => s.Continues print.drawn (ledgerOf rows) := by
  have stored := s.continues_stored print.drawn
  cases touch with
  | defaultBranchSet =>
    rw [State.ensureDefaultBranchProtection_eq]
    exact stored
  | optOutSet =>
    rw [State.withOptOut_eq]
    exact stored
  | @issueOpened numbered issue may within next =>
    have counted : numbered = (s.nextRecordNumber issue.owner issue.repo).2 := by rw [next]
    subst counted
    exact stored
  | reviewed review found within drawn =>
    refine stored.push fun rows old => ?_
    rcases old with known | rfl
    · exact (stored _ _ known).push drawn
    · have none : s.Continues print.drawn (ledgerOf []) := ⟨[], [], rfl, by simp, .inl rfl⟩
      exact none.push drawn
  | _ => exact stored

theorem State.Continues.trans {drawn : Uuid → Prop} {ledger : Ledger}
    (later : s'.Continues drawn ledger)
    (every : s'.reviews.Every fun _ rows => s.Continues drawn (ledgerOf rows)) :
    s.Continues drawn ledger := by
  obtain ⟨earlier, new, rfl, fresh, rfl | ⟨key, rows, found, rfl⟩⟩ := later
  · exact ⟨[], new, rfl, fresh, .inl rfl⟩
  · obtain ⟨first, middle, split, fresh', origin⟩ := every key rows found
    refine ⟨first, middle ++ new, by rw [split, List.append_assoc], fun verdict member => ?_, origin⟩
    exact (List.mem_append.mp member).elim (fresh' verdict) (fresh verdict)

theorem Touches.continues (touches : Touches print s s') :
    s'.reviews.Every fun _ rows => s.Continues print.drawn (ledgerOf rows) := by
  induction touches with
  | refl => exact s.continues_stored _
  | tail _ touch ih => exact fun key rows found => (touch.continues key rows found).trans ih

theorem Shift.continues (shift : Shift print s s') :
    s'.reviews.Every fun _ rows => s.Continues print.drawn (ledgerOf rows) := by
  have stored := s.continues_stored print.drawn
  cases shift with
  | created =>
    rw [State.ensureDefaultBranchProtection_eq]
    exact stored
  | deleted found => exact stored.removeAll _
  | relocated found free now =>
    refine every_rekeyTriples (ne_of_lookup found free) stored fun _ rows continues => ?_
    rw [ledgerOf, List.map_map]
    exact continues

theorem Moves.continues (moves : Moves print s s') :
    s'.reviews.Every fun _ rows => s.Continues print.drawn (ledgerOf rows) := by
  cases moves with
  | touches writes => exact Touches.continues writes
  | shift may moved => exact moved.continues

theorem State.Continues.mono {drawn drawn' : Uuid → Prop} {ledger : Ledger}
    (continues : s.Continues drawn ledger) (weaker : ∀ id, drawn id → drawn' id) :
    s.Continues drawn' ledger := by
  obtain ⟨earlier, later, split, fresh, origin⟩ := continues
  exact ⟨earlier, later, split, fun verdict member => weaker _ (fresh verdict member), origin⟩

/-- Reviews are only ever added, under identifiers still to be drawn. -/
structure LedgersFrom (core core' : ForgeCore) : Prop where
  uuids : core.uuids ≤ core'.uuids
  ledgers : core'.state.reviews.Every fun _ rows =>
    core.state.Continues (core.uuids ≤ ·) (ledgerOf rows)

theorem LedgersFrom.refl (core : ForgeCore) : LedgersFrom core core :=
  ⟨Nat.le_refl _, core.state.continues_stored _⟩

theorem LedgersFrom.trans {last : ForgeCore} (earlier : LedgersFrom core core')
    (later : LedgersFrom core' last) : LedgersFrom core last := by
  refine ⟨earlier.uuids.trans later.uuids, fun key rows found => ?_⟩
  exact ((later.ledgers key rows found).mono fun _ => earlier.uuids.trans).trans earlier.ledgers

theorem Ambient.ledgersFrom (ambient : Ambient core core') : LedgersFrom core core' :=
  ⟨ambient.uuids, ambient.moves.continues.mono fun _ _ => (·.mono fun _ => False.elim)⟩

theorem Effect.ledgersFrom {call : Call} (effect : Effect call core core') :
    LedgersFrom core core' :=
  ⟨effect.uuids, effect.moves.continues.mono fun _ _ => (·.mono fun _ => And.left)⟩

theorem Pool.ReachableWhen.ledgersFrom (reachable : pool.ReachableWhen condition)
    (run : Run forge (Guarded condition) pool pool') : LedgersFrom pool.shared pool'.shared :=
  reachable.along run .refl (fun _ _ _ => .trans) (fun _ _ => Ambient.ledgersFrom)
    fun _ _ _ _ _ _ _ effect => effect.ledgersFrom

/-- The list that still holds a review of a pool has every row the pool had there. -/
theorem Pool.ReachableWhen.ledger_extends (reachable : pool.ReachableWhen condition)
    (run : Run forge (Guarded condition) pool pool') {key key' : Scoped Nat}
    {rows rows' : List Review} {review review' : Review}
    (stored : pool.shared.state.reviews.lookup key = some rows) (member : review ∈ rows)
    (stored' : pool'.shared.state.reviews.lookup key' = some rows') (member' : review' ∈ rows')
    (same : review'.id = review.id) :
    ∃ later, ledgerOf rows' = ledgerOf rows ++ later := by
  have identified := reachable.coherent.identified
  have older : review.id < pool.shared.uuids := (identified.reviewIds key rows stored).1 review member
  obtain ⟨earlier, later, split, fresh, origin⟩ := (reachable.ledgersFrom run).ledgers key' rows' stored'
  have inside : review'.verdict ∈ earlier := by
    have kept : review'.verdict ∈ ledgerOf rows' := List.mem_map_of_mem member'
    rw [split] at kept
    refine (List.mem_append.mp kept).resolve_right fun new => ?_
    have drawn : pool.shared.uuids ≤ review'.id := fresh _ new
    rw [same] at drawn
    exact absurd drawn (Nat.not_le.mpr older)
  rcases origin with rfl | ⟨first, was, found, rfl⟩
  · cases inside
  · obtain ⟨row, known, equal⟩ := mem_ledgerOf.mp inside
    have ids : row.id = review.id := (congrArg Verdict.id equal).trans same
    obtain rfl := identified.reviews first key was rows review.id found stored ⟨row, known, ids⟩
      ⟨review, member, rfl⟩
    cases found.symm.trans stored
    exact ⟨later, split⟩

end Ledgers

end Jeryu.Core
