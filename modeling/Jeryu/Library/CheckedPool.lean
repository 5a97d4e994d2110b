import Jeryu.Library.TaskPool

/-!
Calls that look for something in one section and act on it in a later one, over a shared value that
other calls may change in between.
-/

namespace LockProgram

section Program

variable {σ α β : Type} {I g : σ → Prop} {loud : σ → σ → Prop}

/-- Whatever of `I` its sections find, the call makes a loud change only where a section, the writing
    one included, has found `g`. -/
def Program.Checks (I g : σ → Prop) (loud : σ → σ → Prop) : Program σ α → Prop
  | .done _ => True
  | .read next => ∀ s, I s → g s ∨ Program.Checks I g loud (next s)
  | .write update next => ∀ s, I s →
      (loud s (update s) → g s) ∧ (g s ∨ Program.Checks I g loud (next s))

/-- A call that changes nothing loudly has nothing to look for. -/
theorem Program.Meets.checks {Q : α → Prop} {p : Program σ α}
    (quiet : p.Meets I (fun s s' _ => ¬loud s s') Q) : p.Checks I g loud := by
  induction p with
  | done result => exact True.intro
  | read next ih => exact fun s holds => .inr (ih s (quiet s holds))
  | write update next ih =>
    intro s holds
    obtain ⟨still, after⟩ := quiet s holds
    exact ⟨fun changed => absurd changed still, .inr (ih s after)⟩

/-- What looks for `g` after a quiet part looks for it. -/
theorem Program.Meets.bind_checks {Q : α → Prop} {p : Program σ α} {f : α → Program σ β}
    (quiet : p.Meets I (fun s s' _ => ¬loud s s') Q) (rest : ∀ a, Q a → (f a).Checks I g loud) :
    (p >>= f).Checks I g loud := by
  induction p with
  | done result => exact rest result quiet
  | read next ih => exact fun s holds => .inr (ih s (quiet s holds))
  | write update next ih =>
    intro s holds
    obtain ⟨still, after⟩ := quiet s holds
    exact ⟨fun changed => absurd changed still, .inr (ih s after)⟩

/-- A part that looks for `g` may be followed by a quiet one. -/
theorem Program.Checks.bind_quiet {Q : β → Prop} {p : Program σ α} {f : α → Program σ β}
    (first : p.Checks I g loud) (quiet : ∀ a, (f a).Meets I (fun s s' _ => ¬loud s s') Q) :
    (p >>= f).Checks I g loud := by
  induction p with
  | done result => exact (quiet result).checks
  | read next ih => exact fun s holds => (first s holds).imp id fun after => ih s after
  | write update next ih =>
    intro s holds
    obtain ⟨found, after⟩ := first s holds
    exact ⟨found, after.imp id fun after => ih s after⟩

section Fallible

variable {ε : Type}

/-- The call fails, or a section has found `g`. -/
def Program.Finds (I g : σ → Prop) : Program σ (Except ε α) → Prop
  | .done result => ∃ error, result = .error error
  | .read next => ∀ s, I s → g s ∨ Program.Finds I g (next s)
  | .write _ next => ∀ s, I s → g s ∨ Program.Finds I g (next s)

/-- What has been found needs no looking for. -/
theorem Program.Finds.checks_bind {Q : Except ε α → Prop} {p : ExceptT ε (Program σ) α}
    {f : α → ExceptT ε (Program σ) β} (finds : p.run.Finds I g)
    (quiet : p.run.Meets I (fun s s' _ => ¬loud s s') Q) : (p >>= f).run.Checks I g loud := by
  change Program.Checks I g loud (p.run >>= ExceptT.bindCont f)
  generalize p.run = first at finds quiet ⊢
  induction first with
  | done result =>
    obtain ⟨error, rfl⟩ := finds
    exact True.intro
  | read next ih => exact fun s holds => (finds s holds).imp id fun after => ih s after (quiet s holds)
  | write update next ih =>
    intro s holds
    obtain ⟨still, after⟩ := quiet s holds
    exact ⟨fun changed => absurd changed still, (finds s holds).imp id fun found => ih s found after⟩

theorem Program.Finds.bind {p : ExceptT ε (Program σ) α} {f : α → ExceptT ε (Program σ) β}
    (finds : p.run.Finds I g) : (p >>= f).run.Finds I g := by
  change Program.Finds I g (p.run >>= ExceptT.bindCont f)
  generalize p.run = first at finds ⊢
  induction first with
  | done result =>
    obtain ⟨error, rfl⟩ := finds
    exact ⟨error, rfl⟩
  | read next ih => exact fun s holds => (finds s holds).imp id fun after => ih s after
  | write update next ih => exact fun s holds => (finds s holds).imp id fun after => ih s after

theorem Program.finds_bind {p : ExceptT ε (Program σ) α} {f : α → ExceptT ε (Program σ) β}
    (rest : ∀ a, (f a).run.Finds I g) : (p >>= f).run.Finds I g := by
  change Program.Finds I g (p.run >>= ExceptT.bindCont f)
  generalize p.run = first
  induction first with
  | done result =>
    cases result with
    | error error => exact ⟨error, rfl⟩
    | ok a => exact rest a
  | read next ih => exact fun s _ => .inr (ih s)
  | write update next ih => exact fun s _ => .inr (ih s)

end Fallible

end Program

variable {State Call : Type} {Reply : Call → Type}

/-- What each call rests on: the call has yet to look for it, or it is there. -/
def Config.Grounded (I : State → Prop) (loud : State → State → Prop)
    (grounds : Call → List (State → Prop)) (cfg : Config State Reply) : Prop :=
  ∀ task ∈ cfg.tasks, ∀ g ∈ grounds task.call, task.rest.Checks I g loud ∨ g cfg.shared

/-- The step takes nothing from a call that has found it and may change something for it yet. -/
def Heeds (I : State → Prop) (loud : State → State → Prop) (grounds : Call → List (State → Prop))
    (cfg cfg' : Config State Reply) : Prop :=
  ∀ task ∈ cfg'.tasks, ∀ g ∈ grounds task.call, ¬task.rest.Checks I g loud → g cfg.shared → g cfg'.shared

/-- Steps that take nothing from such a call. -/
def HeedfulRun (sys : System State Reply) (allows : Call → (State → State) → State → Prop)
    (I : State → Prop) (loud : State → State → Prop) (grounds : Call → List (State → Prop)) :
    Config State Reply → Config State Reply → Prop :=
  Relation.ReflTransGen fun cfg cfg' => Step sys allows cfg cfg' ∧ Heeds I loud grounds cfg cfg'

section Rules

variable {sys : System State Reply} {allows : Call → (State → State) → State → Prop}
variable {I : State → Prop} {loud : State → State → Prop} {grounds : Call → List (State → Prop)}
variable {cfg cfg' : Config State Reply}

theorem HeedfulRun.run (run : HeedfulRun sys allows I loud grounds cfg cfg') :
    Run sys allows cfg cfg' := by
  induction run with
  | refl => exact .refl
  | tail _ step ih => exact ih.tail step.1

/-- A run of calls that rest on nothing takes nothing from them. -/
theorem HeedfulRun.of_groundless (run : Run sys allows cfg cfg')
    (groundless : ∀ call ∈ cfg'.tasks.map Task.call, grounds call = []) :
    HeedfulRun sys allows I loud grounds cfg cfg' := by
  induction run with
  | refl => exact .refl
  | @tail mid cfg' before step ih =>
    have fewer : ∀ call ∈ mid.tasks.map Task.call, grounds call = [] := by
      intro call member
      apply groundless
      rcases step.calls with same | ⟨new, -, more⟩
      · rwa [same]
      · rw [more]
        exact List.mem_append_left _ member
    refine (ih fewer).tail ⟨step, fun task member g ground => ?_⟩
    rw [groundless task.call (List.mem_map_of_mem member)] at ground
    cases ground

/-- Nor does a step that leaves the shared value. -/
theorem HeedfulRun.idle (run : HeedfulRun sys allows I loud grounds cfg cfg') {tasks : List (Task State Reply)}
    (step : Step sys allows cfg' ⟨cfg'.shared, tasks⟩) :
    HeedfulRun sys allows I loud grounds cfg ⟨cfg'.shared, tasks⟩ :=
  run.tail ⟨step, fun _ _ _ _ _ stands => stands⟩

/-- What a task looked for before its section, it has found in it or looks for after it. -/
theorem Config.Grounded.set {s' : State} (grounded : cfg.Grounded I loud grounds) {i : Nat} {call : Call}
    {rest after : Program State (Reply call)} (running : cfg.tasks[i]? = some ⟨call, rest⟩)
    (heeds : Heeds I loud grounds cfg ⟨s', cfg.tasks.set i ⟨call, after⟩⟩)
    (section_ : ∀ g ∈ grounds call, rest.Checks I g loud → g cfg.shared ∨ after.Checks I g loud) :
    Config.Grounded I loud grounds ⟨s', cfg.tasks.set i ⟨call, after⟩⟩ := by
  intro task member g ground
  have kept (stands : g cfg.shared) : task.rest.Checks I g loud ∨ g s' := by
    by_cases looks : task.rest.Checks I g loud
    · exact .inl looks
    · exact .inr (heeds task member g ground looks stands)
  rcases List.mem_or_eq_of_mem_set member with old | rfl
  · rcases grounded task old g ground with looks | stands
    · exact .inl looks
    · exact kept stands
  · rcases grounded _ (List.mem_of_getElem? running) g ground with looks | stands
    · rcases section_ g ground looks with stands | looks
      · exact kept stands
      · exact .inl looks
    · exact kept stands

theorem Config.Grounded.step
    (programs : ∀ call, ∀ g ∈ grounds call, (sys.program call).Checks I g loud)
    (step : Step sys allows cfg cfg') (heeds : Heeds I loud grounds cfg cfg') (holds : I cfg.shared)
    (grounded : cfg.Grounded I loud grounds) : cfg'.Grounded I loud grounds := by
  cases step with
  | enter admitted =>
    intro task member g ground
    rcases List.mem_append.mp member with member | member
    · exact grounded task member g ground
    · cases List.mem_singleton.mp member
      exact .inl (programs _ g ground)
  | read running => exact grounded.set running heeds fun g _ looks => looks _ holds
  | write running allowed => exact grounded.set running heeds fun g _ looks => (looks _ holds).2
  | ambient moved =>
    intro task member g ground
    rcases grounded task member g ground with looks | stands
    · exact .inl looks
    · by_cases looks : task.rest.Checks I g loud
      · exact .inl looks
      · exact .inr (heeds task member g ground looks stands)

/-- In a heedful run, what every call rests on is there until the call has made its change. -/
theorem HeedfulRun.grounded
    (programs : ∀ call, ∀ g ∈ grounds call, (sys.program call).Checks I g loud)
    (run : HeedfulRun sys allows I loud grounds cfg cfg')
    (holds : ∀ mid, Run sys allows cfg mid → I mid.shared) (grounded : cfg.Grounded I loud grounds) :
    cfg'.Grounded I loud grounds := by
  induction run with
  | refl => exact grounded
  | @tail mid cfg' before step ih =>
    exact ih.step programs step.1 step.2 (holds mid (HeedfulRun.run before))

/-- A loud change finds what its call rests on. -/
theorem Config.Grounded.writes (grounded : cfg.Grounded I loud grounds) (holds : I cfg.shared) {i : Nat}
    {call : Call} {reply : Option (Reply call)} (writes : cfg.Writes i call reply cfg')
    (changed : loud cfg.shared cfg'.shared) : ∀ g ∈ grounds call, g cfg.shared := by
  intro g ground
  obtain ⟨update, next, running, rfl, -⟩ := writes
  rcases grounded _ (List.mem_of_getElem? running) g ground with looks | stands
  · exact (looks _ holds).1 changed
  · exact stands

end Rules

end LockProgram
