import Jeryu.Library.TaskPool

/-!
Calls over a shared value that moves along a preorder only, such as one with a clock that is never
set back: what a call has seen in one section lies behind what it finds in the next.
-/

namespace LockProgram

section Program

variable {σ α : Type} {T : σ → σ → Prop} {R R' : σ → σ → Option α → Prop} {Q : α → Prop}

/-- Every write section moves the shared value along `R`, where a section finds something that the
    value seen last has moved to along `T`. -/
def Program.MeetsFrom (T : σ → σ → Prop) (R : σ → σ → Option α → Prop) : Program σ α → σ → Prop
  | .done _, _ => True
  | .read next, seen => ∀ s, T seen s → Program.MeetsFrom T R (next s) s
  | .write update next, seen => ∀ s, T seen s →
      R s (update s) (next s).reply ∧ Program.MeetsFrom T R (next s) (update s)

theorem Program.MeetsFrom.ahead {p : Program σ α} {seen s : σ} (meets : p.MeetsFrom T R seen)
    (trans : ∀ a b c, T a b → T b c → T a c) (moved : T seen s) : p.MeetsFrom T R s := by
  cases p with
  | done result => exact True.intro
  | read next => exact fun found ahead => meets found (trans _ _ _ moved ahead)
  | write update next => exact fun found ahead => meets found (trans _ _ _ moved ahead)

theorem Program.MeetsFrom.mono {p : Program σ α} {seen : σ} (meets : p.MeetsFrom T R seen)
    (weaker : ∀ s s' reply, R s s' reply → R' s s' reply) : p.MeetsFrom T R' seen := by
  induction p generalizing seen with
  | done result => exact True.intro
  | read next ih => exact fun s ahead => ih s (meets s ahead)
  | write update next ih =>
    intro s ahead
    have here := meets s ahead
    exact ⟨weaker _ _ _ here.1, ih s here.2⟩

/-- What holds whatever runs between the sections. -/
theorem Program.Meets.meetsFrom {p : Program σ α} (meets : p.Meets (fun _ => True) R Q) (seen : σ) :
    p.MeetsFrom T R seen := by
  induction p generalizing seen with
  | done result => exact True.intro
  | read next ih => exact fun s _ => ih s (meets s True.intro) s
  | write update next ih =>
    intro s _
    have here := meets s True.intro
    exact ⟨here.1, ih s here.2 (update s)⟩

/-- The sections of `p` end the call as `f` goes on, so `p` has to keep to `R` for every answer `P`
    that `f` can give at once. -/
theorem Program.MeetsFrom.bind {β : Type} {R : σ → σ → Option β → Prop} {P : Option β → Prop}
    {p : Program σ α} {f : α → Program σ β} {seen : σ} (trans : ∀ a b c, T a b → T b c → T a c)
    (refl : ∀ s, T s s) (answers : ∀ q : Program σ α, P (q >>= f).reply)
    (first : p.MeetsFrom T (fun s s' _ => T s s' ∧ ∀ reply, P reply → R s s' reply) seen)
    (rest : ∀ a s, T seen s → (f a).MeetsFrom T R s) : (p >>= f).MeetsFrom T R seen := by
  induction p generalizing seen with
  | done result => exact rest result seen (refl seen)
  | read next ih =>
    exact fun s ahead => ih s (first s ahead) fun a s' later => rest a s' (trans _ _ _ ahead later)
  | write update next ih =>
    intro s ahead
    obtain ⟨⟨moved, keeps⟩, after⟩ := first s ahead
    refine ⟨keeps _ (answers (next s)), ih s after fun a s' later => rest a s' ?_⟩
    exact trans _ _ _ ahead (trans _ _ _ moved later)

end Program

variable {State Call : Type} {Reply : Call → Type}

/-- Whatever moves the shared value moves it along `T`, and the calls keep to `R`. -/
structure Paced (sys : System State Reply) (T : State → State → Prop)
    (R : (call : Call) → State → State → Option (Reply call) → Prop) : Prop where
  refl : ∀ s, T s s
  trans : ∀ a b c, T a b → T b c → T a c
  programs : ∀ call s, (sys.program call).MeetsFrom T (R call) s
  ambient : ∀ s s', sys.ambient s s' → T s s'
  sections : ∀ call s s' reply, R call s s' reply → T s s'

/-- Every call under way keeps to `R` from here on. -/
def Config.OnPace (cfg : Config State Reply) (T : State → State → Prop)
    (R : (call : Call) → State → State → Option (Reply call) → Prop) : Prop :=
  ∀ task ∈ cfg.tasks, task.rest.MeetsFrom T (R task.call) cfg.shared

/-- A task after one task has gone on. -/
theorem getElem?_set_cases {α : Type} {xs : List α} {i j : Nat} {x y : α}
    (found : (xs.set j y)[i]? = some x) : i = j ∧ x = y ∨ xs[i]? = some x := by
  rw [List.getElem?_set] at found
  split at found
  · next same =>
    split at found
    · exact .inl ⟨same.symm, (Option.some.inj found).symm⟩
    · cases found
  · exact .inr found

section Rules

variable {sys : System State Reply} {allows : Call → (State → State) → State → Prop}
variable {T : State → State → Prop} {R : (call : Call) → State → State → Option (Reply call) → Prop}
variable {cfg cfg' : Config State Reply}

theorem Config.OnPace.task (onPace : cfg.OnPace T R) {i : Nat} {call : Call}
    {rest : Program State (Reply call)} (running : cfg.tasks[i]? = some ⟨call, rest⟩) :
    rest.MeetsFrom T (R call) cfg.shared := onPace _ (List.mem_of_getElem? running)

/-- What a write section does to the shared value. -/
theorem Config.OnPace.writes (onPace : cfg.OnPace T R) (refl : ∀ s, T s s) {i : Nat} {call : Call}
    {reply : Option (Reply call)} (writes : cfg.Writes i call reply cfg') :
    R call cfg.shared cfg'.shared reply := by
  obtain ⟨update, next, running, rfl, rfl⟩ := writes
  exact (onPace.task running cfg.shared (refl _)).1

theorem Config.OnPace.set (onPace : cfg.OnPace T R) {s' : State} (moved : T cfg.shared s')
    (trans : ∀ a b c, T a b → T b c → T a c) (i : Nat) {call : Call} {rest : Program State (Reply call)}
    (meets : rest.MeetsFrom T (R call) s') :
    Config.OnPace ⟨s', cfg.tasks.set i ⟨call, rest⟩⟩ T R := by
  intro task member
  rcases List.mem_or_eq_of_mem_set member with member | rfl
  · exact (onPace task member).ahead trans moved
  · exact meets

theorem Paced.step (paced : Paced sys T R) (step : Step sys allows cfg cfg') (onPace : cfg.OnPace T R) :
    cfg'.OnPace T R ∧ T cfg.shared cfg'.shared := by
  cases step with
  | enter admitted =>
    refine ⟨fun task member => ?_, paced.refl _⟩
    rcases List.mem_append.mp member with member | member
    · exact onPace task member
    · cases List.mem_singleton.mp member
      exact paced.programs _ _
  | read running =>
    have meets := onPace.task running cfg.shared (paced.refl _)
    exact ⟨onPace.set (paced.refl _) paced.trans _ meets, paced.refl _⟩
  | write running allowed =>
    obtain ⟨moved, meets⟩ := onPace.task running cfg.shared (paced.refl _)
    have ahead := paced.sections _ _ _ _ moved
    exact ⟨onPace.set ahead paced.trans _ meets, ahead⟩
  | ambient moved =>
    have ahead := paced.ambient _ _ moved
    exact ⟨fun task member => (onPace task member).ahead paced.trans ahead, ahead⟩

theorem Paced.run (paced : Paced sys T R) (run : Run sys allows cfg cfg') (onPace : cfg.OnPace T R) :
    cfg'.OnPace T R ∧ T cfg.shared cfg'.shared := by
  induction run with
  | refl => exact ⟨onPace, paced.refl _⟩
  | tail _ step ih =>
    obtain ⟨kept, ahead⟩ := paced.step step ih.1
    exact ⟨kept, paced.trans _ _ _ ih.2 ahead⟩

/-- The calls entered since keep to what they keep to from where they were entered. -/
theorem Paced.since (paced : Paced sys T R) {I : State → Prop}
    {R' : (call : Call) → State → State → Option (Reply call) → Prop}
    (programs : ∀ call s, I s → (sys.program call).MeetsFrom T (R' call) s)
    (kept : ∀ s s', I s → T s s' → I s') (run : Run sys allows cfg cfg') (onPace : cfg.OnPace T R)
    (holds : I cfg.shared) : ∀ i call rest, cfg.tasks.length ≤ i → cfg'.tasks[i]? = some ⟨call, rest⟩ →
      rest.MeetsFrom T (R' call) cfg'.shared := by
  suffices I cfg'.shared ∧ ∀ i call rest, cfg.tasks.length ≤ i → cfg'.tasks[i]? = some ⟨call, rest⟩ →
      rest.MeetsFrom T (R' call) cfg'.shared from this.2
  induction run with
  | refl =>
    refine ⟨holds, fun i call rest later running => ?_⟩
    have bound := (List.getElem?_eq_some_iff.mp running).1
    omega
  | @tail mid cfg' before step ih =>
    obtain ⟨here, tasks⟩ := ih
    have ahead := (paced.step step (paced.run before onPace).1).2
    cases step with
    | @enter call admitted =>
      refine ⟨here, fun i other rest later running => ?_⟩
      by_cases old : i < mid.tasks.length
      · rw [List.getElem?_append_left old] at running
        exact tasks i other rest later running
      · rw [List.getElem?_append_right (by omega)] at running
        cases List.mem_singleton.mp (List.mem_of_getElem? running)
        exact programs _ _ here
    | @read j call next running =>
      refine ⟨here, fun i other rest later found => ?_⟩
      rcases getElem?_set_cases found with ⟨rfl, same⟩ | found
      · cases same
        exact tasks i _ _ later running _ ahead
      · exact tasks i other rest later found
    | @write j call update next running allowed =>
      refine ⟨kept _ _ here ahead, fun i other rest later found => ?_⟩
      rcases getElem?_set_cases found with ⟨rfl, same⟩ | found
      · cases same
        exact (tasks i _ _ later running _ (paced.refl _)).2
      · exact (tasks i other rest later found).ahead paced.trans ahead
    | ambient moved =>
      exact ⟨kept _ _ here ahead, fun i other rest later found =>
        (tasks i other rest later found).ahead paced.trans ahead⟩

theorem onPace_init {s : State} : Config.OnPace (⟨s, []⟩ : Config State Reply) T R :=
  fun _ member => nomatch member

/-- A step of a paced run: the surroundings move the shared value, a call writes in a section, or
    the shared value stays. -/
inductive Moved (sys : System State Reply) (allows : Call → (State → State) → State → Prop)
    (R : (call : Call) → State → State → Option (Reply call) → Prop)
    (cfg cfg' : Config State Reply) : Prop where
  | stays (same : cfg'.shared = cfg.shared)
  | ambient (moved : sys.ambient cfg.shared cfg'.shared)
  | writes (i : Nat) (call : Call) (reply : Option (Reply call)) (writes : cfg.Writes i call reply cfg')
      (allowed : ∃ update, cfg'.shared = update cfg.shared ∧ allows call update cfg.shared)
      (keeps : R call cfg.shared cfg'.shared reply)

theorem Paced.moved (paced : Paced sys T R) (step : Step sys allows cfg cfg') (onPace : cfg.OnPace T R) :
    Moved sys allows R cfg cfg' := by
  cases step with
  | enter admitted => exact .stays rfl
  | read running => exact .stays rfl
  | @write i call update next running allowed =>
    have writes : cfg.Writes i call _ ⟨update cfg.shared, cfg.tasks.set i ⟨call, next cfg.shared⟩⟩ :=
      ⟨update, next, running, rfl, rfl⟩
    exact .writes i call _ writes ⟨update, rfl, allowed⟩ (onPace.writes paced.refl writes)
  | ambient moved => exact .ambient moved

/-- What every step keeps of where it starts, a paced run keeps. -/
theorem Paced.keeps (paced : Paced sys T R) {I : Config State Reply → Prop}
    (step : ∀ cfg cfg', I cfg → cfg.OnPace T R → Step sys allows cfg cfg' →
      Moved sys allows R cfg cfg' → I cfg')
    (run : Run sys allows cfg cfg') (onPace : cfg.OnPace T R) (holds : I cfg) : I cfg' := by
  induction run with
  | refl => exact holds
  | tail before next ih =>
    have here := (paced.run before onPace).1
    exact step _ _ ih here next (paced.moved next here)

end Rules

end LockProgram
