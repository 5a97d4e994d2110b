import Jeryu.Auth.Peopled
import Jeryu.Library.CheckedPool

/-!
What a method looks for before it changes anything.
-/

namespace Jeryu.Auth

open Jeryu.Core KeyedMap LockProgram Method

/-- A receipt or a UUID drawn is no change. -/
def Loud (core core' : ForgeCore) : Prop := core'.state ≠ core.state

section Methods

variable {α β : Type} {I g : ForgeCore → Prop} {method : Method α}

/-- A section of the method finds `g` before one changes the state. -/
structure Looks (I g : ForgeCore → Prop) (method : Method α) : Prop where
  checks : method.run.Checks I g Loud

/-- A section of the method finds `g`, or the method fails. -/
structure Finds (I g : ForgeCore → Prop) (method : Method α) : Prop where
  finds : method.run.Finds I g

abbrev Quiet (method : Method α) : Prop := method.Writes fun core core' _ => core'.state = core.state

theorem quiet_of_readOnly {method : Method α} (readOnly : method.ReadOnly) : Quiet method := readOnly.writes

theorem appendAuditWith_quiet {actor action subject : String} {phase : AuditPhase} {detail : AuditDetail} :
    Quiet (appendAuditWith actor action subject phase detail) := by
  refine writes_locked fun core => ?_
  cases core.auditReceipt actor action subject phase detail with
  | ok entry => rfl
  | error error => rfl

theorem Quiet.meets (quiet : Quiet method) :
    method.run.Meets I (fun core core' _ => ¬Loud core core') fun _ => True :=
  Method.Writes.meets quiet |>.mono (fun _ _ => True.intro) (fun _ _ _ _ same loud => loud same) fun _ h => h

theorem Finds.looks_bind {f : α → Method β} (finds : Finds I g method) (quiet : Quiet method) :
    Looks I g (method >>= f) := ⟨finds.finds.checks_bind (Quiet.meets quiet)⟩

theorem looks_bind {f : α → Method β} (quiet : Quiet method) (rest : ∀ a, Looks I g (f a)) :
    Looks I g (method >>= f) := by
  refine ⟨Program.Meets.bind_checks (Quiet.meets quiet) fun result _ => ?_⟩
  cases result with
  | ok a => exact (rest a).checks
  | error error => exact True.intro

theorem Looks.bind_quiet {f : α → Method β} (looks : Looks I g method) (quiet : ∀ a, Quiet (f a)) :
    Looks I g (method >>= f) := by
  refine ⟨looks.checks.bind_quiet (Q := fun _ => True) fun result => ?_⟩
  cases result with
  | ok a => exact Quiet.meets (quiet a)
  | error error => exact True.intro

theorem Looks.inspect {method : Method α} {after : Except Failure α → Method Unit}
    (looks : Looks I g method) (quiet : ∀ result, Quiet (after result)) :
    Looks I g (method.inspect after) := by
  refine ⟨looks.checks.bind_quiet (Q := fun _ => True) fun result => ?_⟩
  refine Program.Meets.bind ((Quiet.meets (quiet result)).mono (fun _ h => h)
    (fun _ _ _ _ still _ => still) fun _ h => h) fun closed _ => ?_
  cases closed with
  | ok done => exact True.intro
  | error failure => exact True.intro

theorem looks_ofExcept_bind {result : Except ForgeError α} {f : α → Method β}
    (rest : ∀ a, result = .ok a → Looks I g (f a)) : Looks I g (ofExcept result >>= f) := by
  cases result with
  | ok a => exact ⟨(rest a rfl).checks⟩
  | error error => exact ⟨True.intro⟩

theorem looks_ite {p : Prop} [Decidable p] {yes no : Method α} (left : Looks I g yes)
    (right : Looks I g no) : Looks I g (if p then yes else no) := by
  split
  · exact left
  · exact right

/-- An early refusal in a `do` block. -/
theorem looks_unless {p : Prop} [Decidable p] {failure : Failure} {rest : Unit → Method β}
    (after : Looks I g (rest ())) :
    Looks I g (if p then (throw failure : Method Unit) >>= fun r => rest r else rest ()) :=
  looks_ite ⟨True.intro⟩ after

/-- A section that changes nothing unless it finds `g`. -/
theorem looks_locked {f : ForgeCore → Core.Outcome α}
    (ends : ∀ core, I core → Outcome.Ends (fun _ _ _ => g core) (f core)) : Looks I g (locked f) := by
  refine ⟨fun core holds => ⟨fun loud => ?_, .inr True.intro⟩⟩
  rcases (ends core holds).settled core with ⟨same, -⟩ | ⟨draws, value, found, -, -⟩
  · exact absurd same loud
  · exact found

/-- A section that finds what its answer rests on. -/
theorem looks_reading_bind {f : ForgeCore → Except ForgeError α} {rest : α → Method β}
    (after : ∀ core a, I core → f core = .ok a → g core ∨ Looks I g (rest a)) :
    Looks I g (reading f >>= rest) := by
  refine ⟨fun core holds => ?_⟩
  show g core ∨ Program.Checks I g Loud
    (Program.done ((f core).mapError Failure.error) >>= ExceptT.bindCont rest)
  cases answered : f core with
  | ok a =>
    rcases after core a holds answered with found | looks
    · exact .inl found
    · exact .inr looks.checks
  | error error => exact .inr True.intro

theorem finds_reading {f : ForgeCore → Except ForgeError α}
    (found : ∀ core a, I core → f core = .ok a → g core) : Finds I g (reading f) := by
  refine ⟨fun core holds => ?_⟩
  show g core ∨ ∃ error, (f core).mapError Failure.error = .error error
  cases answered : f core with
  | ok a => exact .inl (found core a holds answered)
  | error error => exact .inr ⟨_, rfl⟩

/-- A section that finds what its answer rests on, or after which the method fails. -/
theorem finds_reading_bind {f : ForgeCore → Except ForgeError α} {rest : α → Method β}
    (after : ∀ core a, I core → f core = .ok a → g core ∨ Finds I g (rest a)) :
    Finds I g (reading f >>= rest) := by
  refine ⟨fun core holds => ?_⟩
  show g core ∨ Program.Finds I g
    (Program.done ((f core).mapError Failure.error) >>= ExceptT.bindCont rest)
  cases answered : f core with
  | ok a =>
    rcases after core a holds answered with found | finds
    · exact .inl found
    · exact .inr finds.finds
  | error error => exact .inr ⟨_, rfl⟩

theorem Finds.bind {f : α → Method β} (finds : Finds I g method) : Finds I g (method >>= f) :=
  ⟨finds.finds.bind⟩

theorem finds_bind {f : α → Method β} (rest : ∀ a, Finds I g (f a)) : Finds I g (method >>= f) :=
  ⟨Program.finds_bind fun a => (rest a).finds⟩

theorem finds_throw (failure : Failure) : Finds I g (throw failure : Method α) := ⟨⟨_, rfl⟩⟩

theorem finds_unless {p : Prop} [Decidable p] {failure : Failure} {rest : Unit → Method β}
    (after : Finds I g (rest ())) :
    Finds I g (if p then (throw failure : Method Unit) >>= fun r => rest r else rest ()) := by
  split
  · exact ⟨⟨_, rfl⟩⟩
  · exact after

end Methods

end Jeryu.Auth
