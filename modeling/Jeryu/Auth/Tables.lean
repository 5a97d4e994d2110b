import Jeryu.Auth.CallSections

namespace Jeryu.Auth

open Jeryu.Core KeyedMap

/-- The tables of accounts, bots and teams, and the pull requests none of their calls writes. -/
inductive Table where
  | users
  | accounts
  | organizations
  | bots
  | sessions
  | personalTokens
  | recoveries
  | botKeys
  | botRefresh
  | botAccessTokens
  | botOperations
  | invitations
  | teams
  | pulls
  deriving DecidableEq

def Table.Same (s s' : State) : Table → Prop
  | users => s'.users = s.users
  | accounts => s'.accounts = s.accounts
  | organizations => s'.organizations = s.organizations
  | bots => s'.bots = s.bots
  | sessions => s'.auth.sessions = s.auth.sessions
  | personalTokens => s'.auth.personalTokens = s.auth.personalTokens
  | recoveries => s'.auth.passwordRecoveries = s.auth.passwordRecoveries
  | botKeys => s'.auth.botKeys = s.auth.botKeys
  | botRefresh => s'.auth.botRefresh = s.auth.botRefresh
  | botAccessTokens => s'.auth.botAccessTokens = s.auth.botAccessTokens
  | botOperations => s'.auth.botOperations = s.auth.botOperations
  | invitations => s'.auth.invitations = s.auth.invitations ∧
      s'.auth.activationChallenges = s.auth.activationChallenges ∧
      s'.auth.bootstrapOwnerConsumed = s.auth.bootstrapOwnerConsumed
  | teams => s'.auth.teams = s.auth.teams
  | pulls => s'.pulls = s.pulls

theorem Table.same_refl (t : Table) (s : State) : t.Same s s := by
  cases t <;> first | rfl | exact ⟨rfl, rfl, rfl⟩

theorem Table.Same.trans {t : Table} {a b c : State} (first : t.Same a b) (second : t.Same b c) :
    t.Same a c := by
  cases t with
  | invitations =>
    exact ⟨second.1.trans first.1, second.2.1.trans first.2.1, second.2.2.trans first.2.2⟩
  | _ => exact Eq.trans second first

/-- Nothing outside the named tables is written. -/
def Within (tables : List Table) (s s' : State) : Prop := ∀ t, t ∉ tables → t.Same s s'

section Within

variable {tables wider : List Table} {s s' s'' : State}

theorem within_refl : Within tables s s := fun t _ => t.same_refl s

theorem Within.trans (first : Within tables s s') (second : Within tables s' s'') :
    Within tables s s'' := fun t outside => (first t outside).trans (second t outside)

theorem Within.widen (within : Within tables s s') (wide : ∀ t ∈ tables, t ∈ wider) :
    Within wider s s' := fun t outside => within t fun inside => outside (wide t inside)

end Within

section Outcomes

variable {α : Type} {P Q : Nat → State → α → Prop} {outcome : Core.Outcome α}

/-- What is known of the state a section leaves in memory, of the UUIDs it drew and of its
    answer. -/
def Outcome.Ends (P : Nat → State → α → Prop) : Core.Outcome α → Prop
  | .refuse _ | .unchanged _ => True
  | .direct _ next value => P 0 next value
  | .append _ _ => False
  | .commit _ draws next _ value => P draws next value

theorem Outcome.Ends.mono (ends : Outcome.Ends P outcome)
    (weaker : ∀ draws next value, P draws next value → Q draws next value) :
    Outcome.Ends Q outcome := by
  cases outcome with
  | refuse error => exact True.intro
  | unchanged value => exact True.intro
  | direct audits next value => exact weaker _ _ _ ends
  | append rows value => exact ends
  | commit audits draws next receipt value => exact weaker _ _ _ ends

theorem ends_ite {p : Prop} [Decidable p] {yes no : Core.Outcome α} (left : p → Outcome.Ends P yes)
    (right : ¬p → Outcome.Ends P no) : Outcome.Ends P (if p then yes else no) := by
  split
  · next holds => exact left holds
  · next fails => exact right fails

/-- A section leaves the state it found, or the one it says. -/
inductive Settled (P : Nat → State → α → Prop) (core core' : ForgeCore) (answer : Except Failure α) :
    Prop where
  | kept (same : core'.state = core.state) (drawn : core.uuids ≤ core'.uuids)
  | changed (draws : Nat) (value : α) (holds : P draws core'.state value)
      (drawn : core'.uuids = core.uuids + draws) (answered : answer = .ok value)

theorem Outcome.Ends.settled (ends : Outcome.Ends P outcome) (core : ForgeCore) :
    Settled P core (outcome.leaves core) (outcome.answers core) := by
  cases outcome with
  | refuse error => exact .kept rfl (Nat.le_refl _)
  | unchanged value => exact .kept rfl (Nat.le_refl _)
  | direct audits next value => exact .changed 0 value ends rfl rfl
  | append rows value => exact ends.elim
  | commit audits draws next receipt value =>
    cases stored : ({ core.logged audits with uuids := core.uuids + draws } : ForgeCore).persist next
      receipt with
    | error error =>
      have leaves : (Core.Outcome.commit audits draws next receipt value).leaves core =
          ({ core.logged audits with uuids := core.uuids + draws } : ForgeCore).saved next receipt := by
        unfold Core.Outcome.leaves Core.Outcome.settle
        dsimp only
        rw [stored]
      rw [leaves]
      exact .kept rfl (Nat.le_add_right _ _)
    | ok done =>
      have leaves : (Core.Outcome.commit audits draws next receipt value).leaves core =
          { ({ core.logged audits with uuids := core.uuids + draws } : ForgeCore).saved next receipt
            with state := next } := by
        unfold Core.Outcome.leaves Core.Outcome.settle
        dsimp only
        rw [stored]
      have answers : (Core.Outcome.commit audits draws next receipt value).answers core = .ok value := by
        unfold Core.Outcome.answers Core.Outcome.settle
        dsimp only
        rw [stored]
      rw [leaves]
      exact .changed draws value ends rfl answers

theorem leaves_now (outcome : Core.Outcome α) (core : ForgeCore) : (outcome.leaves core).now = core.now := by
  cases outcome with
  | refuse error => rfl
  | unchanged value => rfl
  | direct audits next value => rfl
  | append rows value => rfl
  | commit audits draws next receipt value =>
    unfold Core.Outcome.leaves Core.Outcome.settle
    dsimp only
    split <;> rfl

/-- What is said of the state a section changes holds of the state it leaves, where it holds of
    the state it found. -/
theorem Outcome.Ends.leaves {H : State → Prop} {core : ForgeCore}
    (ends : Outcome.Ends (fun _ next _ => H next) outcome) (found : H core.state) :
    H (outcome.leaves core).state := by
  rcases ends.settled core with ⟨same, -⟩ | ⟨draws, value, holds, -, -⟩
  · rw [same]
    exact found
  · exact holds

theorem Outcome.Ends.leaves_within {tables : List Table} {core : ForgeCore}
    (ends : Outcome.Ends (fun _ next _ => Within tables core.state next) outcome) :
    Within tables core.state (outcome.leaves core).state := ends.leaves within_refl

end Outcomes

end Jeryu.Auth
