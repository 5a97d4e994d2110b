import Jeryu.Library.CheckedPool

/-!
What a call does may rest on the states its own sections have found. Over a run, each of them is a
state the run has been in since the call was entered.
-/

namespace LockProgram

section Program

variable {σ α β ε : Type} {I g : σ → Prop}

/-- The states seen so far, and one more. -/
def Sees (seen : σ → Prop) (s : σ) : σ → Prop := fun x => seen x ∨ x = s

/-- Every section of the call that writes moves the shared value along `R` of the states the sections
    have found, its own included; the answer satisfies `Q` of all of them. -/
def Program.Rests (I : σ → Prop) (R : (σ → Prop) → σ → σ → Prop) (Q : α → (σ → Prop) → Prop) :
    Program σ α → (σ → Prop) → Prop
  | .done result, seen => Q result seen
  | .read next, seen => ∀ s, I s → Program.Rests I R Q (next s) (Sees seen s)
  | .write update next, seen => ∀ s, I s →
      R (Sees seen s) s (update s) ∧ Program.Rests I R Q (next s) (Sees seen s)

section Rules

variable {R R' : (σ → Prop) → σ → σ → Prop} {seen : σ → Prop}
variable {Q Q' : α → (σ → Prop) → Prop} {p : Program σ α}

theorem Program.Rests.mono (rests : p.Rests I R Q seen)
    (moves : ∀ seen s s', R seen s s' → R' seen s s') (answers : ∀ a seen, Q a seen → Q' a seen) :
    p.Rests I R' Q' seen := by
  induction p generalizing seen with
  | done result => exact answers result seen rests
  | read next ih => exact fun s holds => ih s (rests s holds)
  | write update next ih =>
    intro s holds
    obtain ⟨moved, after⟩ := rests s holds
    exact ⟨moves _ _ _ moved, ih s after⟩

/-- What moves the shared value along `R` of any states rests on none in particular. -/
theorem Program.Meets.rests {Q : α → Prop}
    (meets : p.Meets I (fun s s' _ => ∀ seen, R seen s s') Q) :
    p.Rests I R (fun a _ => Q a) seen := by
  induction p generalizing seen with
  | done result => exact meets
  | read next ih => exact fun s holds => ih s (meets s holds)
  | write update next ih => exact fun s holds => ⟨(meets s holds).1 _, ih s (meets s holds).2⟩

/-- A loud change is made only once a section has found `g`. -/
def Found (g : σ → Prop) (loud : σ → σ → Prop) (seen : σ → Prop) (s s' : σ) : Prop :=
  loud s s' → ∃ x, seen x ∧ g x

theorem Program.rests_found {loud : σ → σ → Prop} (found : ∃ x, seen x ∧ g x) :
    p.Rests I (Found g loud) (fun _ _ => True) seen := by
  obtain ⟨x, there, stands⟩ := found
  induction p generalizing seen with
  | done result => exact True.intro
  | read next ih => exact fun s _ => ih s (.inl there)
  | write update next ih => exact fun s _ => ⟨fun _ => ⟨x, .inl there, stands⟩, ih s (.inl there)⟩

theorem Program.Checks.rests {loud : σ → σ → Prop} (checks : p.Checks I g loud) :
    p.Rests I (Found g loud) (fun _ _ => True) seen := by
  induction p generalizing seen with
  | done result => exact True.intro
  | read next ih =>
    intro s holds
    rcases checks s holds with stands | after
    · exact rests_found ⟨s, .inr rfl, stands⟩
    · exact ih s after
  | write update next ih =>
    intro s holds
    obtain ⟨changes, looked⟩ := checks s holds
    refine ⟨fun loud => ⟨s, .inr rfl, changes loud⟩, ?_⟩
    rcases looked with stands | after
    · exact rests_found ⟨s, .inr rfl, stands⟩
    · exact ih s after

end Rules

end Program

section Pool

variable {State Call : Type} {Reply : Call → Type}
variable {sys : System State Reply} {allows : Call → (State → State) → State → Prop}
variable {start cfg cfg' : Config State Reply} {i : Nat} {call : Call} {s : State}

/-- A state the run has been in since call `i` was entered. -/
def Since (sys : System State Reply) (allows : Call → (State → State) → State → Prop)
    (start cfg : Config State Reply) (i : Nat) (call : Call) (s : State) : Prop :=
  ∃ mid, Run sys allows start mid ∧ Run sys allows mid cfg ∧
    (∃ rest, mid.tasks[i]? = some ⟨call, rest⟩) ∧ mid.shared = s

theorem Since.step (since : Since sys allows start cfg i call s) (step : Step sys allows cfg cfg') :
    Since sys allows start cfg' i call s := by
  obtain ⟨mid, before, after, there, same⟩ := since
  exact ⟨mid, before, after.tail step, there, same⟩

/-- What is left of each call rests on states the run has been in since the call was entered. -/
def Config.Rests (sys : System State Reply) (allows : Call → (State → State) → State → Prop)
    (I : State → Prop) (R : Call → (State → Prop) → State → State → Prop)
    (cfg start : Config State Reply) : Prop :=
  ∀ i call rest, cfg.tasks[i]? = some ⟨call, rest⟩ → ∃ seen,
    rest.Rests I (R call) (fun _ _ => True) seen ∧ ∀ s, seen s → Since sys allows start cfg i call s

variable {I : State → Prop} {R : Call → (State → Prop) → State → State → Prop}

theorem Config.Rests.set {s' : State} {after : Program State (Reply call)} {seen : State → Prop}
    (rests : cfg.Rests sys allows I R start)
    (step : Step sys allows cfg ⟨s', cfg.tasks.set i ⟨call, after⟩⟩)
    (left : after.Rests I (R call) (fun _ _ => True) seen)
    (known : ∀ s, seen s → Since sys allows start cfg i call s) :
    Config.Rests sys allows I R ⟨s', cfg.tasks.set i ⟨call, after⟩⟩ start := by
  intro j other rest running
  by_cases same : i = j
  · subst same
    rw [List.getElem?_set, if_pos rfl] at running
    split at running
    · cases running
      exact ⟨seen, left, fun s there => (known s there).step step⟩
    · cases running
  · rw [List.getElem?_set_ne same] at running
    obtain ⟨seen, left, known⟩ := rests j other rest running
    exact ⟨seen, left, fun s there => (known s there).step step⟩

theorem Config.Rests.step
    (programs : ∀ call, (sys.program call).Rests I (R call) (fun _ _ => True) fun _ => False)
    (before : Run sys allows start cfg) (step : Step sys allows cfg cfg') (holds : I cfg.shared)
    (rests : cfg.Rests sys allows I R start) : cfg'.Rests sys allows I R start := by
  have here {i : Nat} {call : Call} {rest : Program State (Reply call)}
      (running : cfg.tasks[i]? = some ⟨call, rest⟩) : Since sys allows start cfg i call cfg.shared :=
    ⟨cfg, before, .refl, ⟨rest, running⟩, rfl⟩
  have seeing {i : Nat} {call : Call} {rest : Program State (Reply call)} {seen : State → Prop}
      (running : cfg.tasks[i]? = some ⟨call, rest⟩)
      (known : ∀ s, seen s → Since sys allows start cfg i call s) (s : State)
      (there : Sees seen cfg.shared s) : Since sys allows start cfg i call s := by
    rcases there with old | rfl
    · exact known s old
    · exact here running
  cases step with
  | @enter entered admitted =>
    intro i call rest running
    by_cases old : i < cfg.tasks.length
    · rw [List.getElem?_append_left old] at running
      obtain ⟨seen, left, known⟩ := rests i call rest running
      exact ⟨seen, left, fun s there => (known s there).step (.enter admitted)⟩
    · rw [List.getElem?_append_right (by omega)] at running
      cases List.mem_singleton.mp (List.mem_of_getElem? running)
      exact ⟨_, programs entered, fun _ absurd => absurd.elim⟩
  | @read i call next running =>
    obtain ⟨seen, left, known⟩ := rests i call _ running
    exact rests.set (.read running) (left cfg.shared holds) (seeing running known)
  | @write i call update next running allowed =>
    obtain ⟨seen, left, known⟩ := rests i call _ running
    exact rests.set (.write running allowed) (left cfg.shared holds).2 (seeing running known)
  | ambient moved =>
    intro i call rest running
    obtain ⟨seen, left, known⟩ := rests i call rest running
    exact ⟨seen, left, fun s there => (known s there).step (.ambient moved)⟩

theorem Run.rests
    (programs : ∀ call, (sys.program call).Rests I (R call) (fun _ _ => True) fun _ => False)
    (run : Run sys allows start cfg) (holds : ∀ mid, Run sys allows start mid → I mid.shared)
    (idle : start.tasks = []) : cfg.Rests sys allows I R start := by
  induction run with
  | refl =>
    intro i call rest running
    rw [idle] at running
    cases running
  | @tail mid cfg' before step ih => exact ih.step programs before step (holds mid before)

/-- A section that writes does so on states the run has been in since its call was entered, the one it
    writes over included. -/
theorem Config.Rests.writes (rests : cfg.Rests sys allows I R start)
    (mono : ∀ seen seen' s s', (∀ x, seen x → seen' x) → R call seen s s' → R call seen' s s')
    (before : Run sys allows start cfg) (holds : I cfg.shared) {reply : Option (Reply call)}
    (writes : cfg.Writes i call reply cfg') :
    R call (Since sys allows start cfg i call) cfg.shared cfg'.shared := by
  obtain ⟨update, next, running, rfl, -⟩ := writes
  obtain ⟨seen, left, known⟩ := rests i call _ running
  refine mono _ _ _ _ (fun x there => ?_) (left cfg.shared holds).1
  rcases there with old | rfl
  · exact known x old
  · exact ⟨cfg, before, .refl, ⟨_, running⟩, rfl⟩

/-- Whatever a call rests on and looks for, it has found at a state of the run, between its entry and
    its change. -/
theorem Run.found {loud : State → State → Prop} {grounds : Call → List (State → Prop)}
    (programs : ∀ call, ∀ g ∈ grounds call, (sys.program call).Checks I g loud)
    (run : Run sys allows start cfg) (holds : ∀ mid, Run sys allows start mid → I mid.shared)
    (idle : start.tasks = []) {reply : Option (Reply call)} (writes : cfg.Writes i call reply cfg')
    (changed : loud cfg.shared cfg'.shared) :
    ∀ g ∈ grounds call, ∃ s, Since sys allows start cfg i call s ∧ g s := by
  intro g ground
  let R (other : Call) (seen : State → Prop) (s s' : State) : Prop :=
    g ∈ grounds other → Found g loud seen s s'
  have rests : cfg.Rests sys allows I R start := by
    refine Run.rests (fun other => ?_) run holds idle
    by_cases asked : g ∈ grounds other
    · exact (programs other g asked).rests.mono (fun _ _ _ found _ => found) fun _ _ h => h
    · have free : (sys.program other).Meets I (fun s s' _ => ∀ seen, R other seen s s') fun _ => True :=
        (Program.meets_true _).mono (fun _ h => h) (fun _ _ _ _ _ _ there => absurd there asked) fun _ h => h
      exact free.rests
  have mono (seen seen' : State → Prop) (s s' : State) (more : ∀ x, seen x → seen' x)
      (found : R call seen s s') : R call seen' s s' := by
    intro there changed
    obtain ⟨x, seenThere, stands⟩ := found there changed
    exact ⟨x, more x seenThere, stands⟩
  exact rests.writes mono run (holds cfg run) writes ground changed

/-- A section stores no fact that was not stored and that no state seen so far shows its call. -/
def Stores {Fact : Type} (stored : State → Fact → Prop) (shows : Call → Fact → State → Prop) (call : Call)
    (seen : State → Prop) (s s' : State) : Prop :=
  ∀ fact, stored s' fact → stored s fact ∨ ∃ x, seen x ∧ shows call fact x

/-- What is stored was shown to the call that stored it, at a state of the run between the entry of the
    call and the write. -/
theorem Run.stored {Fact : Type} {stored : State → Fact → Prop} {shows : Call → Fact → State → Prop}
    (programs : ∀ call, (sys.program call).Rests I (Stores stored shows call) (fun _ _ => True) fun _ => False)
    (ambient : ∀ s s' fact, sys.ambient s s' → stored s' fact → stored s fact)
    (run : Run sys allows start cfg) (holds : ∀ mid, Run sys allows start mid → I mid.shared)
    (idle : start.tasks = []) (none : ∀ fact, ¬stored start.shared fact) :
    ∀ fact, stored cfg.shared fact → ∃ i call s, Since sys allows start cfg i call s ∧ shows call fact s := by
  have mono (call : Call) (seen seen' : State → Prop) (s s' : State) (more : ∀ x, seen x → seen' x)
      (stores : Stores stored shows call seen s s') : Stores stored shows call seen' s s' := by
    intro fact there
    rcases stores fact there with old | ⟨x, known, shown⟩
    · exact .inl old
    · exact .inr ⟨x, more x known, shown⟩
  induction run with
  | refl => exact fun fact there => absurd there (none fact)
  | @tail mid cfg' before step ih =>
    intro fact there
    have kept (old : stored mid.shared fact) :
        ∃ i call s, Since sys allows start cfg' i call s ∧ shows call fact s := by
      obtain ⟨i, call, s, since, shown⟩ := ih fact old
      exact ⟨i, call, s, since.step step, shown⟩
    cases step with
    | enter admitted => exact kept there
    | read running => exact kept there
    | @write i call update next running allowed =>
      have rests := Run.rests programs before holds idle
      have stores := rests.writes (mono call) before (holds mid before) ⟨update, next, running, rfl, rfl⟩
      rcases stores fact there with old | ⟨s, since, shown⟩
      · exact kept old
      · exact ⟨i, call, s, since.step (.write running allowed), shown⟩
    | ambient moved => exact kept (ambient _ _ fact moved there)

end Pool

end LockProgram
