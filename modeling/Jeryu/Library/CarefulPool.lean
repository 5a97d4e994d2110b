import Jeryu.Library.Lives

/-!
Calls with sections that go wrong unless the shared value is right for them, over a shared value that
moves along a preorder.
-/

namespace LockProgram

section Program

variable {σ α β : Type} {T : σ → σ → Prop} {Q : α → Prop} {careful : Program σ α → σ → Prop}

/-- Taken with care, section by section, the call answers in `Q`. -/
def Program.Behaves (T : σ → σ → Prop) (careful : Program σ α → σ → Prop) (Q : α → Prop) :
    Program σ α → σ → Prop
  | .done result, _ => Q result
  | .read next, seen => ∀ s, T seen s → careful (.read next) s → Program.Behaves T careful Q (next s) s
  | .write update next, seen => ∀ s, T seen s → careful (.write update next) s →
      Program.Behaves T careful Q (next s) (update s)

theorem Program.Behaves.ahead {p : Program σ α} {seen s : σ} (behaves : p.Behaves T careful Q seen)
    (trans : ∀ a b c, T a b → T b c → T a c) (moved : T seen s) : p.Behaves T careful Q s := by
  cases p with
  | done result => exact behaves
  | read next => exact fun found ahead => behaves found (trans _ _ _ moved ahead)
  | write update next => exact fun found ahead => behaves found (trans _ _ _ moved ahead)

/-- What answers in `Q` however its sections are taken. -/
theorem Program.EndsFrom.behaves {p : Program σ α} {seen : σ}
    (ends : p.EndsFrom T (fun _ result => Q result) seen) : p.Behaves T careful Q seen := by
  induction p generalizing seen with
  | done result => exact ends
  | read next ih => exact fun s ahead _ => ih s (ends s ahead)
  | write update next ih => exact fun s ahead _ => ih s (ends s ahead)

/-- No care is needed before the part that needs it. -/
theorem Program.EndsFrom.behaves_bind {P : σ → β → Prop} {p : Program σ β} {f : β → Program σ α} {seen : σ}
    (first : p.EndsFrom T P seen) (rest : ∀ b s, P s b → (f b).Behaves T careful Q s) :
    (p >>= f).Behaves T careful Q seen := by
  induction p generalizing seen with
  | done result => exact rest result seen first
  | read next ih => exact fun s ahead _ => ih s (first s ahead)
  | write update next ih => exact fun s ahead _ => ih s (first s ahead)

end Program

variable {State Call : Type} {Reply : Call → Type}

/-- The section the step takes, if it takes one, is taken with care. -/
def WithCare (careful : (call : Call) → Program State (Reply call) → State → Prop)
    (cfg cfg' : Config State Reply) : Prop :=
  ∀ (i : Nat) (call : Call) (rest : Program State (Reply call)), cfg.tasks[i]? = some ⟨call, rest⟩ →
    cfg'.tasks[i]? ≠ some ⟨call, rest⟩ → careful call rest cfg.shared

def CarefulRun (sys : System State Reply) (allows : Call → (State → State) → State → Prop)
    (careful : (call : Call) → Program State (Reply call) → State → Prop) :
    Config State Reply → Config State Reply → Prop :=
  Relation.ReflTransGen fun cfg cfg' => Step sys allows cfg cfg' ∧ WithCare careful cfg cfg'

def Config.Behaves (cfg : Config State Reply) (T : State → State → Prop)
    (careful : (call : Call) → Program State (Reply call) → State → Prop)
    (Q : (call : Call) → Reply call → Prop) : Prop :=
  ∀ task ∈ cfg.tasks, task.rest.Behaves T (careful task.call) (Q task.call) cfg.shared

section Rules

variable {sys : System State Reply} {allows : Call → (State → State) → State → Prop}
variable {T : State → State → Prop} {careful : (call : Call) → Program State (Reply call) → State → Prop}
variable {Q : (call : Call) → Reply call → Prop} {cfg cfg' : Config State Reply}

theorem CarefulRun.run (run : CarefulRun sys allows careful cfg cfg') : Run sys allows cfg cfg' := by
  induction run with
  | refl => exact .refl
  | tail _ step ih => exact ih.tail step.1

theorem Config.Behaves.set (behaves : cfg.Behaves T careful Q) (trans : ∀ a b c, T a b → T b c → T a c)
    {s' : State} (moved : T cfg.shared s') {i : Nat} {call : Call} {rest after : Program State (Reply call)}
    (running : cfg.tasks[i]? = some ⟨call, rest⟩)
    (care : WithCare careful cfg ⟨s', cfg.tasks.set i ⟨call, after⟩⟩)
    (section_ : careful call rest cfg.shared → after.Behaves T (careful call) (Q call) s') :
    Config.Behaves ⟨s', cfg.tasks.set i ⟨call, after⟩⟩ T careful Q := by
  intro task member
  rcases List.mem_or_eq_of_mem_set member with old | rfl
  · exact (behaves task old).ahead trans moved
  · by_cases same : (cfg.tasks.set i ⟨call, after⟩)[i]? = some ⟨call, rest⟩
    · have bound := (List.getElem?_eq_some_iff.mp running).1
      rw [List.getElem?_set_self bound] at same
      cases same
      exact (behaves _ (List.mem_of_getElem? running)).ahead trans moved
    · exact section_ (care i call rest running same)

/-- Where every section is taken with care, every call answers in `Q`. -/
theorem CarefulRun.behaves (refl : ∀ s, T s s) (trans : ∀ a b c, T a b → T b c → T a c)
    (programs : ∀ call s, (sys.program call).Behaves T (careful call) (Q call) s)
    (run : CarefulRun sys allows careful cfg cfg')
    (moves : ∀ mid mid', Run sys allows cfg mid → Step sys allows mid mid' → T mid.shared mid'.shared)
    (behaves : cfg.Behaves T careful Q) : cfg'.Behaves T careful Q := by
  induction run with
  | refl => exact behaves
  | @tail mid cfg' before step ih =>
    obtain ⟨step, care⟩ := step
    have moved := moves mid cfg' (CarefulRun.run before) step
    cases step with
    | enter admitted =>
      intro task member
      rcases List.mem_append.mp member with old | new
      · exact ih task old
      · cases List.mem_singleton.mp new
        exact programs _ _
    | read running =>
      have here := ih _ (List.mem_of_getElem? running)
      exact ih.set trans (refl _) running care fun cared => here _ (refl _) cared
    | write running allowed =>
      have here := ih _ (List.mem_of_getElem? running)
      exact ih.set trans moved running care fun cared => here _ (refl _) cared
    | ambient _ => exact fun task member => (ih task member).ahead trans moved

theorem Config.Behaves.answered (behaves : cfg.Behaves T careful Q) {i : Nat} {call : Call}
    {reply : Reply call} (answered : cfg.Answered i call reply) : Q call reply :=
  behaves _ (List.mem_of_getElem? answered)

/-- A task goes on while every task is where it may. -/
theorem CarefulRun.advance {i : Nat} (run : CarefulRun sys allows careful cfg cfg')
    (admits : cfg'.Admits sys allows (.advance i))
    (care : ∀ task ∈ cfg'.tasks, careful task.call task.rest cfg'.shared) :
    CarefulRun sys allows careful cfg (cfg'.turn sys (.advance i)) := by
  have cared (next : Config State Reply) : WithCare careful cfg' next :=
    fun _ _ _ running _ => care _ (List.mem_of_getElem? running)
  unfold Config.turn
  dsimp only
  split
  · next running => exact run.tail ⟨.read running, cared _⟩
  · next running => exact run.tail ⟨.write running (admits _ _ _ running), cared _⟩
  · exact run
  · exact run

end Rules

end LockProgram
