import Jeryu.Library.PacedPool

/-!
Runs that crashes break off: the calls under way are lost, and the shared value is what a restart
makes of what was left. What a call answered is so of the value its last section left, and of every
later one.
-/

namespace LockProgram

section Program

variable {σ α β : Type} {T : σ → σ → Prop} {Q : σ → α → Prop}

/-- Whatever the call answers, `Q` holds of it and of the value seen last. -/
def Program.EndsFrom (T : σ → σ → Prop) (Q : σ → α → Prop) : Program σ α → σ → Prop
  | .done result, seen => Q seen result
  | .read next, seen => ∀ s, T seen s → Program.EndsFrom T Q (next s) s
  | .write update next, seen => ∀ s, T seen s → Program.EndsFrom T Q (next s) (update s)

theorem Program.EndsFrom.ahead {p : Program σ α} {seen s : σ} (ends : p.EndsFrom T Q seen)
    (stable : ∀ a b result, T a b → Q a result → Q b result)
    (trans : ∀ a b c, T a b → T b c → T a c) (moved : T seen s) : p.EndsFrom T Q s := by
  cases p with
  | done result => exact stable _ _ _ moved ends
  | read next => exact fun found ahead => ends found (trans _ _ _ moved ahead)
  | write update next => exact fun found ahead => ends found (trans _ _ _ moved ahead)

theorem Program.endsFrom_of_every (every : ∀ s result, Q s result) (p : Program σ α) (seen : σ) :
    p.EndsFrom T Q seen := by
  induction p generalizing seen with
  | done result => exact every seen result
  | read next ih => exact fun s _ => ih s s
  | write update next ih => exact fun s _ => ih s (update s)

theorem Program.EndsFrom.mono {Q' : σ → α → Prop} {p : Program σ α} {seen : σ}
    (ends : p.EndsFrom T Q seen) (weaker : ∀ s result, Q s result → Q' s result) :
    p.EndsFrom T Q' seen := by
  induction p generalizing seen with
  | done result => exact weaker seen result ends
  | read next ih => exact fun s ahead => ih s (ends s ahead)
  | write update next ih => exact fun s ahead => ih s (ends s ahead)

theorem Program.EndsFrom.bind {Q' : σ → β → Prop} {p : Program σ α} {f : α → Program σ β} {seen : σ}
    (first : p.EndsFrom T Q seen) (rest : ∀ a s, Q s a → (f a).EndsFrom T Q' s) :
    (p >>= f).EndsFrom T Q' seen := by
  induction p generalizing seen with
  | done result => exact rest result seen first
  | read next ih => exact fun s ahead => ih s (first s ahead)
  | write update next ih => exact fun s ahead => ih s (first s ahead)

/-- A call that moves the value along `T` ends ahead of where it starts. -/
theorem Program.MeetsFrom.ends_ahead {p : Program σ α} {start seen : σ}
    (meets : p.MeetsFrom T (fun s s' _ => T s s') seen) (trans : ∀ a b c, T a b → T b c → T a c)
    (ahead : T start seen) : p.EndsFrom T (fun s _ => T start s) seen := by
  induction p generalizing seen with
  | done result => exact ahead
  | read next ih => exact fun s moved => ih s (meets s moved) (trans _ _ _ ahead moved)
  | write update next ih =>
    intro s moved
    obtain ⟨here, after⟩ := meets s moved
    exact ih s after (trans _ _ _ ahead (trans _ _ _ moved here))

/-- `p` and then whatever keeps to `R` from every value. -/
theorem Program.MeetsFrom.bind_any {R : σ → σ → Option β → Prop} {p : Program σ α}
    {f : α → Program σ β} {seen : σ}
    (first : p.MeetsFrom T (fun s s' _ => ∀ reply, R s s' reply) seen)
    (rest : ∀ a s, (f a).MeetsFrom T R s) : (p >>= f).MeetsFrom T R seen := by
  induction p generalizing seen with
  | done result => exact rest result seen
  | read next ih => exact fun s ahead => ih s (first s ahead)
  | write update next ih =>
    intro s ahead
    obtain ⟨moved, after⟩ := first s ahead
    exact ⟨moved _, ih s after⟩

/-- What the sections keep of where they are found. -/
theorem Program.MeetsFrom.mono_of {R R' : σ → σ → Option α → Prop} {I : σ → Prop} {p : Program σ α}
    {seen : σ} (meets : p.MeetsFrom T R seen) (holds : I seen) (kept : ∀ s s', I s → T s s' → I s')
    (sections : ∀ s s' reply, I s → R s s' reply → T s s')
    (weaker : ∀ s s' reply, I s → R s s' reply → R' s s' reply) : p.MeetsFrom T R' seen := by
  induction p generalizing seen with
  | done result => exact True.intro
  | read next ih => exact fun s moved => ih s (meets s moved) (kept _ _ holds moved)
  | write update next ih =>
    intro s moved
    obtain ⟨here, after⟩ := meets s moved
    have found := kept _ _ holds moved
    exact ⟨weaker _ _ _ found here, ih s after (kept _ _ found (sections _ _ _ found here))⟩

theorem Program.MeetsFrom.and {R R' : σ → σ → Option α → Prop} {p : Program σ α} {seen : σ}
    (left : p.MeetsFrom T R seen) (right : p.MeetsFrom T R' seen) :
    p.MeetsFrom T (fun s s' reply => R s s' reply ∧ R' s s' reply) seen := by
  induction p generalizing seen with
  | done result => exact True.intro
  | read next ih => exact fun s ahead => ih s (left s ahead) (right s ahead)
  | write update next ih =>
    intro s ahead
    have one := left s ahead
    have other := right s ahead
    exact ⟨⟨one.1, other.1⟩, ih s one.2 other.2⟩

end Program

variable {State Call : Type} {Reply : Call → Type}

/-- A step of a call or of the surroundings, or a crash and a restart. -/
inductive LifeStep (sys : System State Reply) (allows : Call → (State → State) → State → Prop)
    (restarts : State → State → Prop) : Config State Reply → Config State Reply → Prop where
  | step {cfg cfg'} (step : Step sys allows cfg cfg') : LifeStep sys allows restarts cfg cfg'
  | restart {cfg : Config State Reply} {s'} (restarted : restarts cfg.shared s') :
      LifeStep sys allows restarts cfg ⟨s', []⟩

/-- Runs, one life after the other. -/
def Lives (sys : System State Reply) (allows : Call → (State → State) → State → Prop)
    (restarts : State → State → Prop) : Config State Reply → Config State Reply → Prop :=
  Relation.ReflTransGen (LifeStep sys allows restarts)

/-- What a task that is done has answered. -/
def Config.Ends (cfg : Config State Reply) (T : State → State → Prop)
    (Q : (call : Call) → State → Reply call → Prop) : Prop :=
  ∀ task ∈ cfg.tasks, task.rest.EndsFrom T (Q task.call) cfg.shared

/-- A system with an invariant that keeps to its pace through restarts, and whose answers last. -/
structure Enduring (sys : System State Reply) (allows : Call → (State → State) → State → Prop)
    (restarts : State → State → Prop) (I : State → Prop) (T : State → State → Prop)
    (R : (call : Call) → State → State → Option (Reply call) → Prop)
    (Q : (call : Call) → State → Reply call → Prop) : Prop where
  refl : ∀ s, T s s
  trans : ∀ a b c, T a b → T b c → T a c
  kept : ∀ s s', I s → T s s' → I s'
  programs : ∀ call s, I s → (sys.program call).MeetsFrom T (R call) s
  ends : ∀ call s, I s → (sys.program call).EndsFrom T (Q call) s
  stable : ∀ call s s' result, T s s' → Q call s result → Q call s' result
  ambient : ∀ s s', I s → sys.ambient s s' → T s s'
  sections : ∀ call update s reply, I s → allows call update s → R call s (update s) reply →
    T s (update s)
  restarts : ∀ s s', I s → restarts s s' → T s s'

section Rules

variable {sys : System State Reply} {allows : Call → (State → State) → State → Prop}
variable {restarts T : State → State → Prop} {I : State → Prop}
variable {R : (call : Call) → State → State → Option (Reply call) → Prop}
variable {Q : (call : Call) → State → Reply call → Prop} {cfg cfg' : Config State Reply}

theorem Run.lives (run : Run sys allows cfg cfg') : Lives sys allows restarts cfg cfg' := by
  induction run with
  | refl => exact .refl
  | tail _ step ih => exact ih.tail (.step step)

theorem Config.Ends.answered (ends : cfg.Ends T Q) {i : Nat} {call : Call} {reply : Reply call}
    (answered : cfg.Answered i call reply) : Q call cfg.shared reply :=
  ends _ (List.mem_of_getElem? answered)

theorem Config.Ends.set (ends : cfg.Ends T Q)
    (stable : ∀ call s s' result, T s s' → Q call s result → Q call s' result)
    (trans : ∀ a b c, T a b → T b c → T a c) {s' : State} (moved : T cfg.shared s') (i : Nat)
    {call : Call} {rest : Program State (Reply call)} (here : rest.EndsFrom T (Q call) s') :
    Config.Ends ⟨s', cfg.tasks.set i ⟨call, rest⟩⟩ T Q := by
  intro task member
  rcases List.mem_or_eq_of_mem_set member with member | rfl
  · exact (ends task member).ahead (stable _) trans moved
  · exact here

/-- What the calls under way keep to, and what those that are done have answered. -/
structure Config.OnCourse (cfg : Config State Reply) (I : State → Prop) (T : State → State → Prop)
    (R : (call : Call) → State → State → Option (Reply call) → Prop)
    (Q : (call : Call) → State → Reply call → Prop) : Prop where
  holds : I cfg.shared
  onPace : cfg.OnPace T R
  ends : cfg.Ends T Q

theorem onCourse_init {s : State} (holds : I s) : Config.OnCourse ⟨s, []⟩ I T R Q :=
  ⟨holds, onPace_init, fun _ member => nomatch member⟩

theorem Enduring.step (enduring : Enduring sys allows restarts I T R Q)
    (step : Step sys allows cfg cfg') (onCourse : cfg.OnCourse I T R Q) :
    cfg'.OnCourse I T R Q ∧ T cfg.shared cfg'.shared := by
  obtain ⟨holds, onPace, ends⟩ := onCourse
  have still := enduring.refl cfg.shared
  cases step with
  | enter admitted =>
    refine ⟨⟨holds, fun task member => ?_, fun task member => ?_⟩, still⟩
    · rcases List.mem_append.mp member with member | member
      · exact onPace task member
      · cases List.mem_singleton.mp member
        exact enduring.programs _ _ holds
    · rcases List.mem_append.mp member with member | member
      · exact ends task member
      · cases List.mem_singleton.mp member
        exact enduring.ends _ _ holds
  | read running =>
    have task := List.mem_of_getElem? running
    have meets := onPace _ task cfg.shared still
    have here := ends _ task cfg.shared still
    exact ⟨⟨holds, onPace.set still enduring.trans _ meets,
      ends.set enduring.stable enduring.trans still _ here⟩, still⟩
  | write running allowed =>
    have task := List.mem_of_getElem? running
    obtain ⟨keeps, meets⟩ := onPace _ task cfg.shared still
    have here := ends _ task cfg.shared still
    have moved := enduring.sections _ _ _ _ holds allowed keeps
    exact ⟨⟨enduring.kept _ _ holds moved, onPace.set moved enduring.trans _ meets,
      ends.set enduring.stable enduring.trans moved _ here⟩, moved⟩
  | ambient moved =>
    have ahead := enduring.ambient _ _ holds moved
    exact ⟨⟨enduring.kept _ _ holds ahead,
      fun task member => (onPace task member).ahead enduring.trans ahead,
      fun task member => (ends task member).ahead (enduring.stable _) enduring.trans ahead⟩, ahead⟩

/-- What the calls under way keep to lasts through every life. -/
theorem Enduring.lives (enduring : Enduring sys allows restarts I T R Q)
    (lives : Lives sys allows restarts cfg cfg') (onCourse : cfg.OnCourse I T R Q) :
    cfg'.OnCourse I T R Q ∧ T cfg.shared cfg'.shared := by
  induction lives with
  | refl => exact ⟨onCourse, enduring.refl _⟩
  | tail _ step ih =>
    obtain ⟨here, ahead⟩ := ih
    cases step with
    | step step =>
      obtain ⟨kept, moved⟩ := enduring.step step here
      exact ⟨kept, enduring.trans _ _ _ ahead moved⟩
    | restart restarted =>
      have moved := enduring.restarts _ _ here.holds restarted
      exact ⟨onCourse_init (enduring.kept _ _ here.holds moved), enduring.trans _ _ _ ahead moved⟩

/-- An invariant of the shared value that a restart keeps as well. -/
theorem Certified.lives {Q : (call : Call) → Reply call → Prop} (certified : Certified sys allows I R Q)
    (restart : ∀ s s', I s → restarts s s' → I s') (lives : Lives sys allows restarts cfg cfg')
    (sound : Sound I R Q cfg) : Sound I R Q cfg' := by
  induction lives with
  | refl => exact sound
  | tail _ step ih =>
    cases step with
    | step step => exact certified.step step ih
    | restart restarted => exact .init (restart _ _ ih.holds restarted)

/-- What the surroundings, every section and every restart keep of the shared value holds through
    every life. -/
theorem Enduring.keeps (enduring : Enduring sys allows restarts I T R Q) {J : State → Prop}
    (ambient : ∀ s s', I s → J s → sys.ambient s s' → J s')
    (sections : ∀ call update s reply, I s → J s → allows call update s →
      R call s (update s) reply → J (update s))
    (restart : ∀ s s', I s → J s → restarts s s' → J s')
    (lives : Lives sys allows restarts cfg cfg') (onCourse : cfg.OnCourse I T R Q)
    (holds : J cfg.shared) : J cfg'.shared := by
  induction lives with
  | refl => exact holds
  | @tail mid last before step ih =>
    obtain ⟨here, -⟩ := enduring.lives before onCourse
    cases step with
    | step step =>
      cases step with
      | enter admitted => exact ih
      | read running => exact ih
      | write running allowed =>
        have keeps := (here.onPace _ (List.mem_of_getElem? running) _ (enduring.refl _)).1
        exact sections _ _ _ _ here.holds ih allowed keeps
      | ambient moved => exact ambient _ _ here.holds ih moved
    | restart restarted => exact restart _ _ here.holds ih restarted

end Rules

end LockProgram
