import Jeryu.Auth.Frames

/-!
Runs of the account, bot and team calls, their sections interleaved in any order: what every
section and the surroundings keep holds wherever a run gets.
-/

namespace Jeryu.Auth

open Jeryu.Core KeyedMap LockProgram

/-- A section under the write lock runs only where the condition of its call holds. -/
def When (condition : Call → ForgeCore → Prop) (call : Call) (_ : ForgeCore → ForgeCore)
    (core : ForgeCore) : Prop := condition call core

section Leaves

variable {α : Type}

theorem leaves_uuids (outcome : Core.Outcome α) (core : ForgeCore) :
    core.uuids ≤ (outcome.leaves core).uuids := by
  cases outcome with
  | refuse error => exact Nat.le_refl _
  | unchanged value => exact Nat.le_refl _
  | direct audits next value => exact Nat.le_refl _
  | append rows value => exact Nat.le_refl _
  | commit audits draws next receipt value =>
    unfold Core.Outcome.leaves Core.Outcome.settle
    dsimp only
    split <;> exact Nat.le_add_right _ _

/-- A commit the storage refuses changes nothing; any other is answered. -/
theorem commit_ends (core : ForgeCore) (audits : List AuditEntry) (draws : Nat) (next : State)
    (receipt : Option AuditEntry) (value : α) :
    (∃ error, core.persist next receipt = .error error ∧
      ((Outcome.commit audits draws next receipt value).leaves core).state = core.state ∧
      (Outcome.commit audits draws next receipt value).answers core = .error (.error error)) ∨
    (((Outcome.commit audits draws next receipt value).leaves core).state = next ∧
      ((Outcome.commit audits draws next receipt value).leaves core).uuids = core.uuids + draws ∧
      (Outcome.commit audits draws next receipt value).answers core = .ok value) := by
  unfold Core.Outcome.leaves Core.Outcome.answers Core.Outcome.settle
  dsimp only
  rw [core.persist_logged]
  cases core.persist next receipt with
  | ok done => exact .inr ⟨rfl, rfl, rfl⟩
  | error error => exact .inl ⟨error, rfl, rfl, rfl⟩

/-- A section takes no UUID back and sees one time. -/
theorem Section.paces {call : Call} {core core' : ForgeCore} {reply : Option call.Reply}
    (moved : Section call core core' reply) : core.uuids ≤ core'.uuids ∧ core'.now = core.now := by
  cases moved with
  | audit audited entry => exact ⟨Nat.le_refl _, rfl⟩
  | refused audited => exact ⟨Nat.le_refl _, rfl⟩
  | rotateBotRefreshTokenIdempotent now pruned prunes =>
    have uuids : pruned.uuids = core.uuids := by rw [prunes]
    have clock : pruned.now = core.now := by rw [prunes]
    exact ⟨uuids ▸ leaves_uuids _ pruned, (leaves_now _ pruned).trans clock⟩
  | _ => exact ⟨leaves_uuids _ _, leaves_now _ _⟩

end Leaves

section Rules

variable {ticks : DateTime → DateTime → Prop}
variable {allows : Call → (ForgeCore → ForgeCore) → ForgeCore → Prop}
variable {I : ForgeCore → Prop} {start pool : Pool}

/-- The sections of every call are known. -/
theorem accounts_certified (ambient : ∀ core core', I core → Ambient ticks core core' → I core')
    (sections : ∀ (call : Call) (update : ForgeCore → ForgeCore) (core : ForgeCore)
      (reply : Option call.Reply), I core → allows call update core →
      Section call core (update core) reply → I (update core)) :
    Certified (accounts ticks) allows I (fun call => Section call) fun _ _ => True where
  programs call := (call_writes call).meets.mono (fun _ _ => True.intro) (fun _ _ _ _ moved => moved)
    fun _ known => known
  ambient := ambient
  kept := sections

theorem Pool.Initial.sound {Q : (call : Call) → call.Reply → Prop}
    {R : (call : Call) → ForgeCore → ForgeCore → Option call.Reply → Prop}
    (initial : start.Initial) (holds : I start.shared) : Sound I R Q start := by
  refine ⟨holds, ?_⟩
  rw [initial.2]
  exact fun _ member => nomatch member

/-- What the empty store has and every section keeps. -/
theorem accounts_invariant (initial : start.Initial) (run : Run (accounts ticks) allows start pool)
    (empty : ∀ core : ForgeCore, core.state = .empty → I core)
    (ambient : ∀ core core', I core → Ambient ticks core core' → I core')
    (sections : ∀ (call : Call) (update : ForgeCore → ForgeCore) (core : ForgeCore)
      (reply : Option call.Reply), I core → allows call update core →
      Section call core (update core) reply → I (update core)) : I pool.shared :=
  ((accounts_certified ambient sections).run run (initial.sound (empty _ initial.1))).holds

end Rules

section Schedules

variable {condition : Call → ForgeCore → Prop} {core : ForgeCore} {turns : List (Turn Call)}

/-- The pool after a schedule. -/
def scheduled (core : ForgeCore) (turns : List (Turn Call)) : Pool :=
  Config.play (accounts anyTicks) ⟨core, []⟩ turns

theorem plays_any {ticks : DateTime → DateTime → Prop} {pool : Pool} :
    Config.Plays (accounts ticks) anySection pool turns := by
  induction turns generalizing pool with
  | nil => exact True.intro
  | cons turn rest ih =>
    refine ⟨?_, ih⟩
    cases turn with
    | alone call => exact ⟨True.intro, Program.permits_of_every (fun _ _ => True.intro) _ _⟩
    | enter call => exact True.intro
    | advance i => exact fun _ _ _ _ => True.intro

theorem scheduled_reachable (empty : core.state = .empty) : (scheduled core turns).Reachable :=
  ⟨⟨core, []⟩, ⟨empty, rfl⟩, play_run plays_any⟩

end Schedules

end Jeryu.Auth
