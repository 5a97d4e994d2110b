import Jeryu.Library.TaskPool

/-!
What a run tells of an answer: the section it came with, and what every section of its task did.
Runs are given configuration by configuration, so that two sections of one run have an order.
-/

namespace LockProgram

section Program

variable {σ α β ε : Type} {I : σ → Prop} {P : α → Prop} {R : σ → σ → α → Prop}

/-- An answer in `P` comes with a write section along `R`, which is the last one. -/
def Program.AnswersBy (I : σ → Prop) (P : α → Prop) (R : σ → σ → α → Prop) : Program σ α → Prop
  | .done a => ¬P a
  | .read next => ∀ s, I s → Program.AnswersBy I P R (next s)
  | .write update next => ∀ s, I s →
      (∃ a, next s = .done a ∧ R s (update s) a) ∨ Program.AnswersBy I P R (next s)

/-- What comes before the last part of a call that may fail answers nothing but errors. -/
theorem Program.AnswersBy.bind_run {P : Except ε β → Prop} {R : σ → σ → Except ε β → Prop} {answers : α → Prop}
    {p : ExceptT ε (Program σ) α} {f : α → ExceptT ε (Program σ) β} (errors : ∀ error, ¬P (.error error))
    (first : p.run.Meets I (fun _ _ _ => True) (fun result => ∀ a, result = .ok a → answers a))
    (rest : ∀ a, answers a → (f a).run.AnswersBy I P R) : (p >>= f).run.AnswersBy I P R := by
  change Program.AnswersBy I P R (p.run >>= ExceptT.bindCont f)
  generalize p.run = first_ at first ⊢
  induction first_ with
  | done result =>
    cases result with
    | error error => exact errors error
    | ok a => exact rest a (first a rfl)
  | read next ih => exact fun s holds => ih s (first s holds)
  | write update next ih => exact fun s holds => .inr (ih s (first s holds).2)

theorem Program.AnswersBy.mono {P' : α → Prop} {R' : σ → σ → α → Prop} {p : Program σ α} (answers : p.AnswersBy I P R)
    (results : ∀ a, P' a → P a) (moves : ∀ s s' a, P' a → R s s' a → R' s s' a) : p.AnswersBy I P' R' := by
  induction p with
  | done result => exact fun holds => answers (results result holds)
  | read next ih => exact fun s holds => ih s (answers s holds)
  | write update next ih =>
    intro s holds
    rcases answers s holds with ⟨result, ends, along⟩ | rest
    · by_cases holds : P' result
      · exact .inl ⟨result, ends, moves _ _ _ holds along⟩
      · right
        rw [ends]
        exact holds
    · exact .inr (ih s rest)

theorem Program.answersBy_never (p : Program σ α) : p.AnswersBy I (fun _ => False) R := by
  induction p with
  | done result => exact id
  | read next ih => exact fun s _ => ih s
  | write update next ih => exact fun s _ => .inr (ih s)

section Mapped

variable {p : ExceptT ε (Program σ) α} (f : α → β)

theorem map_run : (p >>= fun a => pure (f a)).run = p.run >>= fun result => .done (result.map f) := by
  change p.run >>= ExceptT.bindCont _ = _
  congr 1
  funext result
  cases result <;> rfl

/-- A call that only renames the answer of another. -/
theorem Program.Meets.map_run {R : σ → σ → Option (Except ε β) → Prop} {Q : Except ε β → Prop}
    (meets : p.run.Meets I (fun s s' reply => R s s' (reply.map (Except.map f))) (fun result => Q (result.map f))) :
    (p >>= fun a => pure (f a)).run.Meets I R Q := by
  rw [LockProgram.map_run]
  generalize p.run = first at meets ⊢
  induction first with
  | done result => exact meets
  | read next ih => exact fun s holds => ih s (meets s holds)
  | write update next ih =>
    intro s holds
    obtain ⟨moved, rest⟩ := meets s holds
    have answer : ((next s).bind fun result => .done (result.map f)).reply = (next s).reply.map (Except.map f) := by
      cases next s <;> rfl
    refine ⟨?_, ih s rest⟩
    show R s (update s) ((next s).bind _).reply
    rw [answer]
    exact moved

theorem Program.AnswersBy.map_run {P : Except ε β → Prop} {R : σ → σ → Except ε β → Prop}
    (answers : p.run.AnswersBy I (fun result => P (result.map f)) fun s s' result => R s s' (result.map f)) :
    (p >>= fun a => pure (f a)).run.AnswersBy I P R := by
  rw [LockProgram.map_run]
  generalize p.run = first at answers ⊢
  induction first with
  | done result => exact answers
  | read next ih => exact fun s holds => ih s (answers s holds)
  | write update next ih =>
    intro s holds
    rcases answers s holds with ⟨result, ends, along⟩ | rest
    · refine .inl ⟨result.map f, ?_, along⟩
      show (next s).bind _ = _
      rw [ends]
      rfl
    · exact .inr (ih s rest)

end Mapped

end Program

variable {State Call : Type} {Reply : Call → Type}

/-- Task `i`, which runs `call`, takes the write lock in a section that is allowed. -/
def Config.Takes (allows : Call → (State → State) → State → Prop) (cfg : Config State Reply) (i : Nat)
    (call : Call) (reply : Option (Reply call)) (cfg' : Config State Reply) : Prop :=
  ∃ update next, cfg.tasks[i]? = some ⟨call, .write update next⟩ ∧ allows call update cfg.shared ∧
    cfg' = ⟨update cfg.shared, cfg.tasks.set i ⟨call, next cfg.shared⟩⟩ ∧ reply = (next cfg.shared).reply

/-- A run, configuration by configuration. -/
def Lasts (sys : System State Reply) (allows : Call → (State → State) → State → Prop)
    (run : Nat → Config State Reply) (n : Nat) : Prop := ∀ k < n, Step sys allows (run k) (run (k + 1))

section Rules

variable {sys : System State Reply} {allows : Call → (State → State) → State → Prop}
variable {I : State → Prop} {R : (call : Call) → State → State → Option (Reply call) → Prop}
variable {Q P : (call : Call) → Reply call → Prop} {A : (call : Call) → State → State → Reply call → Prop}
variable {cfg cfg' : Config State Reply} {run : Nat → Config State Reply} {n k i : Nat} {call : Call}

theorem Config.Takes.step {reply : Option (Reply call)} (takes : cfg.Takes allows i call reply cfg') :
    Step sys allows cfg cfg' := by
  obtain ⟨update, next, running, allowed, rfl, -⟩ := takes
  exact .write running allowed

theorem Config.Takes.allowed {reply : Option (Reply call)} (takes : cfg.Takes allows i call reply cfg') :
    ∃ update, allows call update cfg.shared ∧ cfg'.shared = update cfg.shared := by
  obtain ⟨update, next, -, allowed, rfl, -⟩ := takes
  exact ⟨update, allowed, rfl⟩

/-- A task that answers with its section has answered after it. -/
theorem Config.Takes.answered {reply : Reply call} (takes : cfg.Takes allows i call (some reply) cfg') :
    cfg'.Answered i call reply := by
  obtain ⟨update, next, running, -, rfl, answers⟩ := takes
  have ends : next cfg.shared = .done reply := by
    cases rest : next cfg.shared <;> rw [rest] at answers <;> cases answers
    rfl
  show (cfg.tasks.set i _)[i]? = _
  rw [List.getElem?_set_self (List.getElem?_eq_some_iff.mp running).1, ends]

/-- Two tasks do not take one section. -/
theorem Config.Takes.same {j : Nat} {other : Call} {reply : Reply call} {answer : Option (Reply other)}
    (takes : cfg.Takes allows i call (some reply) cfg') (another : cfg.Takes allows j other answer cfg') : i = j := by
  have answered := takes.answered
  obtain ⟨update, next, running, -, -, -⟩ := takes
  obtain ⟨update', next', -, -, rfl, -⟩ := another
  rcases Decidable.em (j = i) with rfl | differ
  · rfl
  · have still : (cfg.tasks.set j ⟨other, next' cfg.shared⟩)[i]? = some ⟨call, .done reply⟩ := answered
    rw [List.getElem?_set_ne differ] at still
    cases running.symm.trans still

theorem Lasts.tail (lasts : Lasts sys allows run n) (step : Step sys allows (run n) cfg) :
    Lasts sys allows (fun k => if k ≤ n then run k else cfg) (n + 1) := by
  intro k before
  rcases Nat.lt_or_eq_of_le (Nat.le_of_lt_succ before) with earlier | rfl
  · simpa [Nat.le_of_lt earlier, Nat.succ_le_of_lt earlier] using lasts k earlier
  · simpa [Nat.not_succ_le_self] using step

/-- Every run is one configuration by configuration. -/
theorem Run.lasts (goes : Run sys allows cfg cfg') :
    ∃ run n, Lasts sys allows run n ∧ run 0 = cfg ∧ run n = cfg' := by
  induction goes with
  | refl => exact ⟨fun _ => cfg, 0, fun k before => absurd before (Nat.not_lt_zero k), rfl, rfl⟩
  | tail _ step ih =>
    obtain ⟨run, n, lasts, rfl, rfl⟩ := ih
    exact ⟨_, n + 1, lasts.tail step, by simp, by simp [Nat.not_succ_le_self]⟩

/-- The same of a run and the section after it. -/
theorem Run.takes (goes : Run sys allows cfg cfg') {last : Config State Reply} {reply : Option (Reply call)}
    (writes : cfg'.Writes i call reply last) (allowed : ∀ update, last.shared = update cfg'.shared →
      allows call update cfg'.shared) :
    ∃ run n, Lasts sys allows run (n + 1) ∧ run 0 = cfg ∧ run n = cfg' ∧ run (n + 1) = last ∧
      (run n).Takes allows i call reply (run (n + 1)) := by
  obtain ⟨run, n, lasts, rfl, rfl⟩ := goes.lasts
  obtain ⟨update, next, running, moved, answers⟩ := writes
  have takes : (run n).Takes allows i call reply last :=
    ⟨update, next, running, allowed update (by rw [moved]), moved, answers⟩
  refine ⟨_, n, lasts.tail takes.step, by simp, by simp, by simp [Nat.not_succ_le_self], ?_⟩
  simpa [Nat.not_succ_le_self] using takes

/-- What every section and the surroundings keep to lasts. -/
theorem Lasts.along (lasts : Lasts sys allows run n) {T : State → State → Prop} (refl : ∀ s, T s s)
    (trans : ∀ a b c, T a b → T b c → T a c) (ambient : ∀ s s', sys.ambient s s' → T s s')
    (sections : ∀ k < n, ∀ i call reply, (run k).Takes allows i call reply (run (k + 1)) →
      T (run k).shared (run (k + 1)).shared) {l : Nat} (order : k ≤ l) (before : l ≤ n) :
    T (run k).shared (run l).shared := by
  induction order with
  | refl => exact refl _
  | @step l order ih =>
    refine trans _ _ _ (ih (Nat.le_of_succ_le before)) ?_
    have step := lasts l before
    have takes := sections l before
    generalize run l = mid at step takes ⊢
    generalize run (l + 1) = next at step takes ⊢
    cases step with
    | enter admitted => exact refl _
    | read running => exact refl _
    | @write i call update next running allowed => exact takes i call _ ⟨update, next, running, allowed, rfl, rfl⟩
    | ambient moved => exact ambient _ _ moved

/-- A task keeps to `R` in the states of its run. -/
theorem Lasts.meets (lasts : Lasts sys allows run n) (fresh : (run 0).tasks = [])
    (programs : ∀ call, (sys.program call).Meets I (R call) (Q call)) (seen : ∀ k < n, I (run k).shared)
    (before : k ≤ n) : ∀ task ∈ (run k).tasks, task.rest.Meets I (R task.call) (Q task.call) := by
  induction k with
  | zero =>
    intro task member
    rw [fresh] at member
    cases member
  | succ k ih =>
    have here := seen k before
    have kept := ih (Nat.le_of_succ_le before)
    have step := lasts k before
    generalize run k = mid at step here kept
    generalize run (k + 1) = next at step ⊢
    cases step with
    | enter admitted =>
      intro task member
      rcases List.mem_append.mp member with member | member
      · exact kept task member
      · cases List.mem_singleton.mp member
        exact programs _
    | read running =>
      intro task member
      rcases List.mem_or_eq_of_mem_set member with member | rfl
      · exact kept task member
      · exact kept _ (List.mem_of_getElem? running) _ here
    | write running allowed =>
      intro task member
      rcases List.mem_or_eq_of_mem_set member with member | rfl
      · exact kept task member
      · exact (kept _ (List.mem_of_getElem? running) _ here).2
    | ambient moved => exact kept

/-- What a section of the run does. -/
theorem Lasts.takes (lasts : Lasts sys allows run n) (fresh : (run 0).tasks = [])
    (programs : ∀ call, (sys.program call).Meets I (R call) (Q call)) (seen : ∀ k < n, I (run k).shared)
    (before : k < n) {reply : Option (Reply call)} (takes : (run k).Takes allows i call reply (run (k + 1))) :
    R call (run k).shared (run (k + 1)).shared reply := by
  have kept := lasts.meets fresh programs seen (Nat.le_of_lt before)
  obtain ⟨update, next, running, -, same, rfl⟩ := takes
  rw [same]
  exact (kept _ (List.mem_of_getElem? running) _ (seen k before)).1

/-- An answer stays. -/
theorem Step.answered (step : Step sys allows cfg cfg') {reply : Reply call} (answered : cfg.Answered i call reply) :
    cfg'.Answered i call reply := by
  have bound := (List.getElem?_eq_some_iff.mp answered).1
  cases step with
  | enter admitted =>
    show (cfg.tasks ++ _)[i]? = _
    rw [List.getElem?_append_left bound]
    exact answered
  | @read j other next running =>
    have differ : j ≠ i := by
      rintro rfl
      cases answered.symm.trans running
    show (cfg.tasks.set j _)[i]? = _
    rw [List.getElem?_set_ne differ]
    exact answered
  | @write j other update next running allowed =>
    have differ : j ≠ i := by
      rintro rfl
      cases answered.symm.trans running
    show (cfg.tasks.set j _)[i]? = _
    rw [List.getElem?_set_ne differ]
    exact answered
  | ambient moved => exact answered

theorem Lasts.answered (lasts : Lasts sys allows run n) {reply : Reply call}
    (answered : (run k).Answered i call reply) {l : Nat} (order : k ≤ l) (before : l ≤ n) :
    (run l).Answered i call reply := by
  induction order with
  | refl => exact answered
  | @step l order ih => exact (lasts l before).answered (ih (Nat.le_of_succ_le before))

/-- An answer in `P` has come with a section of the run that went along `A`. -/
theorem Lasts.answeredBy (lasts : Lasts sys allows run n) (fresh : (run 0).tasks = [])
    (programs : ∀ call, (sys.program call).AnswersBy I (P call) (A call)) (seen : ∀ k < n, I (run k).shared)
    {reply : Reply call} (answered : (run n).Answered i call reply) (holds : P call reply) :
    ∃ k < n, (run k).Takes allows i call (some reply) (run (k + 1)) ∧
      A call (run k).shared (run (k + 1)).shared reply := by
  have states : ∀ l ≤ n, ∀ i task, (run l).tasks[i]? = some task →
      task.rest.AnswersBy I (P task.call) (A task.call) ∨ ∃ reply, task.rest = .done reply ∧ ∃ k < l,
        (run k).Takes allows i task.call (some reply) (run (k + 1)) ∧
          A task.call (run k).shared (run (k + 1)).shared reply := by
    intro l before
    induction l with
    | zero =>
      intro i task found
      rw [fresh] at found
      cases found
    | succ l ih =>
      have here := seen l before
      have kept := ih (Nat.le_of_succ_le before)
      have later {i : Nat} {task : Task State Reply} (found : (run l).tasks[i]? = some task) :
          task.rest.AnswersBy I (P task.call) (A task.call) ∨ ∃ reply, task.rest = .done reply ∧ ∃ k < l + 1,
            (run k).Takes allows i task.call (some reply) (run (k + 1)) ∧
              A task.call (run k).shared (run (k + 1)).shared reply := by
        rcases kept i task found with goesOn | ⟨reply, done, k, earlier, takes⟩
        · exact .inl goesOn
        · exact .inr ⟨reply, done, k, Nat.lt_succ_of_lt earlier, takes⟩
      have step := lasts l before
      intro i task found
      generalize moved : run (l + 1) = next at step found
      cases step with
      | enter admitted =>
        rcases Nat.lt_or_ge i (run l).tasks.length with below | above
        · apply later
          rw [← found]
          exact (List.getElem?_append_left below).symm
        · rw [List.getElem?_append_right above] at found
          cases List.mem_singleton.mp (List.mem_of_getElem? found)
          exact .inl (programs _)
      | @read j call next running =>
        by_cases same : j = i
        · subst same
          have bound := (List.getElem?_eq_some_iff.mp running).1
          cases (List.getElem?_set_self bound).symm.trans found
          rcases kept j _ running with goesOn | ⟨reply, done, -⟩
          · exact .inl (goesOn _ here)
          · cases done
        · apply later
          rw [← found]
          exact (List.getElem?_set_ne same).symm
      | @write j call update next running allowed =>
        by_cases same : j = i
        · subst same
          have bound := (List.getElem?_eq_some_iff.mp running).1
          cases (List.getElem?_set_self bound).symm.trans found
          rcases kept j _ running with goesOn | ⟨reply, done, -⟩
          · rcases goesOn _ here with ⟨reply, ends, along⟩ | goesOn
            · refine .inr ⟨reply, ends, l, Nat.lt_succ_self l, ?_, ?_⟩
              · refine ⟨update, next, running, allowed, moved, ?_⟩
                rw [ends]
                rfl
              · rw [moved]
                exact along
            · exact .inl goesOn
          · cases done
        · apply later
          rw [← found]
          exact (List.getElem?_set_ne same).symm
      | ambient moved => exact later found
  rcases states n (Nat.le_refl n) i _ answered with goesOn | ⟨reply', done, k, before, takes, along⟩
  · exact absurd holds goesOn
  · cases done
    exact ⟨k, before, takes, along⟩

/-- Only calls that may enter are among the tasks. -/
theorem Lasts.entered (lasts : Lasts sys allows run n) (fresh : (run 0).tasks = []) {enters : Call → Prop}
    (only : ∀ tasks call, sys.admits tasks call → enters call) (before : k ≤ n) :
    ∀ call ∈ (run k).tasks.map Task.call, enters call := by
  induction k with
  | zero =>
    rw [fresh]
    exact fun call member => (nomatch member)
  | succ k ih =>
    have kept := ih (Nat.le_of_succ_le before)
    rcases (lasts k before).calls with same | ⟨call, admitted, added⟩
    · rw [same]
      exact kept
    · rw [added]
      intro other member
      rcases List.mem_append.mp member with member | member
      · exact kept other member
      · cases List.mem_singleton.mp member
        exact only _ _ admitted

/-- An answer has a first moment. -/
theorem Lasts.first (lasts : Lasts sys allows run n) (fresh : (run 0).tasks = []) {reply : Reply call}
    (answered : (run n).Answered i call reply) :
    ∃ k < n, (run (k + 1)).Answered i call reply ∧ ∀ l ≤ k, ¬(run l).Answered i call reply := by
  induction n with
  | zero =>
    unfold Config.Answered at answered
    rw [fresh] at answered
    cases answered
  | succ n ih =>
    have shorter : Lasts sys allows run n := fun k before => lasts k (Nat.lt_succ_of_lt before)
    by_cases already : (run n).Answered i call reply
    · obtain ⟨k, before, first⟩ := ih shorter already
      exact ⟨k, Nat.lt_succ_of_lt before, first⟩
    · exact ⟨n, Nat.lt_succ_self n, answered, fun l order earlier =>
        already (shorter.answered earlier order (Nat.le_refl n))⟩

end Rules

end LockProgram
